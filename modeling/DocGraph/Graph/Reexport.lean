import DocGraph.Graph.Move
import DocGraph.Graph.Names

/-!
Re-exports. A module that lists an imported name in its `__all__` becomes the home of what it
imports: the entity moves there. What its own module exports, and modules themselves, stay.
-/
namespace DocGraph.Graph

/-- What a name means to those who import it from a module. -/
def offered? (g : Graph) (origin : EntityId) (name : String) : Option EntityId :=
  ((g.entity origin).contents.get? name).or (g.resolveIn origin name)

/-- Moves `origin.name` into `scope` as `asName` if that name is among the exports, and says
whether it did. -/
def reexport (g : Graph) (scope : EntityId) (exports : List String) (origin : EntityId)
    (name asName : String) (line : Nat) : Graph × Bool :=
  let module := (g.entity scope).home.getD scope
  if asName ∈ exports then
    match g.offered? origin name with
    | none =>
        (g.report module
          ("cannot resolve re-exported name :" ++ Dotted.extend (g.fullName origin) name)
          "import" line 1, false)
    | some found =>
        if g.isModule found ∨ name ∈ g.exportsOf origin then (g, false)
        else
          match g.move found scope asName with
          | .ok moved => (moved, true)
          | .error refusal => (g.report module refusal.message "import" line 1, false)
  else (g, false)

/-- The names that `import *` takes from a module: its exports if it lists them, or else all that
do not begin with an underscore. -/
def publicNames (g : Graph) (origin : EntityId) : List String :=
  match (g.entity origin).module?.bind ModuleInfo.exports with
  | some exports => exports
  | none => (g.localNames origin).filter fun name => name.toList.head? != some '_'

/-- Takes over one name: the entity itself if the name is exported, or else an alias of it. -/
def importStarName (scope origin : EntityId) (exports : List String) (line : Nat)
    (state : Graph × Nat) (name : String) : Graph × Nat :=
  let (g, moved) := state
  match g.reexport scope exports origin name name line with
  | (g, true) => (g, moved + 1)
  | (g, false) => (g.modify scope (Entity.bindAlias name (g.expand origin name)), moved)

/-- Takes over the public names of a module that are not blocked, and counts the entities moved. -/
def importStar (g : Graph) (scope origin : EntityId) (exports blocked : List String) (line : Nat) :
    Graph × Nat :=
  ((g.publicNames origin).filter fun name => !blocked.contains name).foldl
    (importStarName scope origin exports line) (g, 0)

/-- Keeps an import until all modules are built. -/
def deferImport (g : Graph) (module : EntityId) (pending : PendingImport) : Graph :=
  g.modify module (Entity.modifyModule fun info => { info with pending := info.pending ++ [pending] })

end DocGraph.Graph
