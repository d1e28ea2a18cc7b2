import DocGraph.Entity.Basic
import DocGraph.Options
import DocGraph.Diagnostic
import DocGraph.Text.Dotted

/-!
The graph of entities. It numbers entities in the order of their creation and finds them again by
full name, the dotted chain of names from a root module down. A full name is never stored in an
entity: it follows from the chain of parents.
-/
namespace DocGraph

structure Graph where
  entities : Array Entity := #[]
  /-- Entities by full name. -/
  index : NameMap EntityId := ∅
  /-- Modules without a parent, in the order of registration. -/
  roots : List EntityId := []
  options : Options := {}
  diagnostics : Diagnostics := {}

namespace Graph

def empty (options : Options) : Graph :=
  { options, diagnostics := { verbosity := options.verbosity } }

def size (g : Graph) : Nat := g.entities.size

def entity (g : Graph) (id : EntityId) : Entity := g.entities[id.index]?.getD .absent

def modify (g : Graph) (id : EntityId) (f : Entity → Entity) : Graph :=
  { g with entities := g.entities.modify id.index f }

/-- The entity registered under a full name; aliases are not followed. -/
def lookup (g : Graph) (name : String) : Option EntityId := g.index[name]?

def ids (g : Graph) : List EntityId := (List.range g.size).map EntityId.mk

def idsOfType (g : Graph) (type : EntityType) : List EntityId :=
  g.ids.filter fun id => (g.entity id).type == type

def ancestorsFrom (g : Graph) : Nat → EntityId → List EntityId
  | 0, _ => []
  | fuel + 1, id =>
      match (g.entity id).parent with
      | none => [id]
      | some parent => id :: g.ancestorsFrom fuel parent

/-- An entity, its parent, and so on to a root; no chain of parents is longer than the graph. -/
def ancestors (g : Graph) (id : EntityId) : List EntityId := g.ancestorsFrom g.size id

def fullName (g : Graph) (id : EntityId) : String :=
  Dotted.join ((g.ancestors id).reverse.map fun ancestor => (g.entity ancestor).name)

/-- Whether `ancestor` is `id` or stands above it. -/
def isAncestor (g : Graph) (ancestor id : EntityId) : Bool := (g.ancestors id).contains ancestor

def moduleState? (g : Graph) (id : EntityId) : Option BuildState :=
  (g.entity id).module?.map ModuleInfo.state

/-- The exported names of a module; none when it does not say. -/
def exportsOf (g : Graph) (id : EntityId) : List String :=
  ((g.entity id).module?.bind ModuleInfo.exports).getD []

/-- Modules whose build has not ended. -/
def pendingModules (g : Graph) : List EntityId :=
  (g.idsOfType .module).filter fun id => !((g.moduleState? id).map BuildState.isTerminal).getD false

def setState (g : Graph) (id : EntityId) (state : BuildState) : Graph :=
  g.modify id (Entity.modifyModule fun info => { info with state })

/-- Lets go of the trees that modules were built from. -/
def dropTrees (g : Graph) : Graph :=
  { g with entities := g.entities.map (Entity.modifyModule fun info => { info with tree := none }) }

def greatestLine : Nat := 4294967295

/-- The line of an entity moved by an offset, kept within the range of lines. -/
def lineAt (line : Nat) (offset : Int) : Nat := min ((line : Int) + offset).toNat greatestLine

def report (g : Graph) (id : EntityId) (message topic : String) (offset threshold : Int) : Graph :=
  let entity := g.entity id
  let diagnostic : Diagnostic :=
    { module := g.fullName (entity.home.getD id), entity := g.fullName id, topic
      line := lineAt entity.line offset, message, threshold }
  { g with diagnostics := g.diagnostics.report diagnostic }

/-- The kind and full name of an entity, for messages. -/
def describe (g : Graph) (id : EntityId) : String :=
  let entity := g.entity id
  let kind :=
    match entity.kind with
    | some kind => kind.text
    | none => entity.type.tag
  kind ++ " " ++ g.fullName id

end Graph

end DocGraph
