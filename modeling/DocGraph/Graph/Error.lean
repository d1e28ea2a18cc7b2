import DocGraph.Entity.Kind
import DocGraph.Entity.Contents

/-!
Requests that a graph refuses. What is odd in the source that is read is never refused: it is
reported as a diagnostic.
-/
namespace DocGraph

/-- Why an entity cannot be moved. -/
inductive MoveRefusal where
  | isModule
  | alreadyMoved
  | targetInside
  | noParent
deriving DecidableEq, Repr

def MoveRefusal.message : MoveRefusal → String
  | .isModule => "modules cannot be moved"
  | .alreadyMoved => "already moved once"
  | .targetInside => "target is inside the entity"
  | .noParent => "entity has no parent"

inductive GraphError where
  | duplicateModule (name : String)
  | missingParentPackage (name parent : String)
  | notAPackage (name parent : String)
  | notAModule (id : EntityId)
  | alreadyBuilt (name : String) (state : BuildState)
  | modulesPending (names : List String)
  | cannotMove (name : String) (reason : MoveRefusal)
deriving DecidableEq, Repr

def GraphError.message : GraphError → String
  | .duplicateModule name => "module '" ++ name ++ "' is already registered"
  | .missingParentPackage name parent =>
      "parent package '" ++ parent ++ "' of module '" ++ name ++ "' is not registered"
  | .notAPackage name parent =>
      "'" ++ parent ++ "' is not a package, cannot hold module '" ++ name ++ "'"
  | .notAModule id => id.render ++ " is not a module"
  | .alreadyBuilt name state =>
      "module '" ++ name ++ "' was already built (state: " ++ state.text ++ ")"
  | .modulesPending names =>
      "cannot post-process while modules are pending: " ++ ", ".intercalate names
  | .cannotMove name reason => "cannot move '" ++ name ++ "': " ++ reason.message

end DocGraph
