import DocGraph.Graph.Declare

/-!
Moving an entity to another parent, as a re-export does. The old parent keeps an alias from the old
name to the new place. An entity is moved at most once, and it keeps its declaring module.
-/
namespace DocGraph.Graph

/-- Why a move is refused, if it is. -/
def moveRefusal? (g : Graph) (id target : EntityId) : Option MoveRefusal :=
  let entity := g.entity id
  if entity.type = .module then some .isModule
  else if entity.moved then some .alreadyMoved
  else if g.isAncestor id target then some .targetInside
  else none

/-- Takes an entity out of its parent's table and gives it a new parent and name. -/
def uproot (g : Graph) (id oldParent newParent : EntityId) (oldName newName : String) : Graph :=
  ((g.unregister id).modify oldParent fun e => { e with contents := e.contents.erase oldName }).modify
    id fun e => { e with parent := some newParent, name := newName, moved := true }

/-- Moves an entity under `target` as `name`. A repeated move changes nothing. -/
def move (g : Graph) (id target : EntityId) (name : String) : Except GraphError Graph :=
  let entity := g.entity id
  if entity.parent = some target ∧ entity.name = name then .ok g
  else
    match g.moveRefusal? id target with
    | some reason => .error (.cannotMove (g.fullName id) reason)
    | none =>
        match entity.parent with
        | none => .error (.cannotMove (g.fullName id) .noParent)
        | some oldParent =>
            let g := (g.uproot id oldParent target entity.name name).attach target id
            .ok (g.modify oldParent (Entity.bindAlias entity.name (g.fullName id)))

end DocGraph.Graph
