import DocGraph.Graph.Basic
import DocGraph.Linearization

/-!
Classes and their bases: the method resolution order of a class, the depth-first order that stands
in for it, and the search for a member along either. Only resolved bases count.
-/
namespace DocGraph

/-- Why a class has no method resolution order. -/
inductive MroError where
  | inconsistentHierarchy (className : String)
  | cycle (className : String)
deriving DecidableEq, Repr

def MroError.message : MroError → String
  | .inconsistentHierarchy name =>
      "inconsistent hierarchy for class '" ++ name ++ "': cannot compute MRO"
  | .cycle name => "class '" ++ name ++ "' inherits from itself"

namespace Graph

/-- The resolved bases of a class, in the order declared. -/
def basesOf (g : Graph) (id : EntityId) : List EntityId := (g.entity id).bases

/-- `path` holds the classes whose orders are being computed. -/
def mroFrom (g : Graph) : Nat → List EntityId → EntityId → Except MroError (List EntityId)
  | 0, _, id => .error (.cycle (g.fullName id))
  | fuel + 1, path, id =>
      if id ∈ path then .error (.cycle (g.fullName id))
      else
        match (g.basesOf id).mapM (g.mroFrom fuel (id :: path)) with
        | .error reason => .error reason
        | .ok orders =>
            match Linearization.merge (orders ++ [g.basesOf id]) with
            | some order => .ok (id :: order)
            | none => .error (.inconsistentHierarchy (g.fullName id))

/-- The class followed by the merge of its bases' orders and of its bases. No path without a
repetition is longer than the graph. -/
def computeMro (g : Graph) (id : EntityId) : Except MroError (List EntityId) :=
  g.mroFrom (g.size + 1) [] id

def baseCount (g : Graph) : Nat := (g.entities.toList.flatMap Entity.bases).length

/-- `seen` holds the classes visited, last one first; `stack` those to be visited. -/
def depthFirstFrom (g : Graph) : Nat → List EntityId → List EntityId → List EntityId
  | _, seen, [] => seen.reverse
  | 0, seen, _ => seen.reverse
  | fuel + 1, seen, id :: stack =>
      if id ∈ seen then g.depthFirstFrom fuel seen stack
      else g.depthFirstFrom fuel (id :: seen) (g.basesOf id ++ stack)

/-- A class and its bases, each before its own bases and at its first place. Every step but the
first takes a base off the stack, and each is put there once. -/
def depthFirstBases (g : Graph) (id : EntityId) : List EntityId :=
  g.depthFirstFrom (g.baseCount + 1) [] [id]

/-- The classes searched for a member of a class. -/
def searchOrder (g : Graph) (id : EntityId) (info : ClassInfo) : List EntityId :=
  info.mro.getD (g.depthFirstBases id)

/-- The member of a class that a name denotes, inherited ones included. -/
def find (g : Graph) (id : EntityId) (name : String) : Option EntityId :=
  match (g.entity id).class? with
  | none => none
  | some info => (g.searchOrder id info).findSome? fun base => (g.entity base).contents.get? name

end Graph

end DocGraph
