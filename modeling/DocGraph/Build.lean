import DocGraph.Graph.Error
import DocGraph.Graph.Metadata
import DocGraph.Walk.Body

/-!
Building a module: its entities are made from its tree. A module without a tree is marked as failed
and stays in the graph as an empty shell. No module is built twice.
-/
namespace DocGraph

/-- Why there is no tree of a module. -/
inductive SourceError where
  /-- The file is not text. -/
  | unreadable (path : String)
  | unparseable (origin reason : String)
deriving DecidableEq, Repr

def SourceError.message : SourceError → String
  | .unreadable path => "cannot read " ++ path ++ ": stream did not contain valid UTF-8"
  | .unparseable origin reason => "cannot parse " ++ origin ++ ": " ++ reason

namespace Graph

/-- Makes the entities of a module. -/
def populate (g : Graph) (hooks : List Hook) (id : EntityId) (tree : Module) : Graph :=
  let g := (g.setState id .processing).readMetadata id tree.body
  let w : Walk := { graph := g, module := id, hooks }
  (Walk.walkModule tree.body w).graph

/-- Builds a module from its tree or from the failure to get one. -/
def build (g : Graph) (hooks : List Hook) (id : EntityId) (source : Except SourceError Module) :
    Except GraphError (Graph × BuildState) :=
  match g.moduleState? id with
  | none => .error (.notAModule id)
  | some .notProcessed =>
      match source with
      | .error failure =>
          .ok ((g.report id failure.message "parse" 0 (-1)).setState id .errored, .errored)
      | .ok tree =>
          let g := (g.populate hooks id tree).setState id .processed
          .ok (g.modify id (Entity.modifyModule fun info => { info with tree := some tree }), .processed)
  | some state => .error (.alreadyBuilt (g.fullName id) state)

end Graph

end DocGraph
