import DocGraph.Graph.Error
import DocGraph.Graph.Reexport

/-!
What is done once all modules are built: imports that had to wait are made, unknown bases are looked
up again, classes are linked to their subclasses, method resolution orders are stored, and classes
that descend from a built-in exception are marked.
-/
namespace DocGraph

/-- What one run changed. -/
structure Summary where
  reexports : Nat := 0
  resolvedBases : Nat := 0
  subclassLinks : Nat := 0
  mrosComputed : Nat := 0
  exceptions : Nat := 0
deriving DecidableEq, Repr

namespace Summary

def isNoop (s : Summary) : Bool := s == {}

def toJson (s : Summary) : Json :=
  .obj [("reexports", .nat s.reexports), ("resolved_bases", .nat s.resolvedBases),
    ("subclass_links", .nat s.subclassLinks), ("mros_computed", .nat s.mrosComputed),
    ("exceptions", .nat s.exceptions)]

end Summary

namespace Graph

variable {α : Type}

/-- Applies a step to each element in turn and adds up what the steps count. -/
def tally (step : Graph → α → Graph × Nat) (items : List α) (g : Graph) : Graph × Nat :=
  items.foldl (fun (g, count) item =>
    let (g, more) := step g item
    (g, count + more)) (g, 0)

/-- Drops the alias that stood in for an entity until it was moved. -/
def dropAlias (g : Graph) (module : EntityId) (name target : String) : Graph :=
  if (g.entity module).aliases[name]? = some target then
    g.modify module fun e => { e with aliases := e.aliases.erase name }
  else g

/-- Makes one import of a module, and counts the entities moved. -/
def resumeImport (module : EntityId) (exports : List String) (g : Graph) :
    PendingImport → Graph × Nat
  | .reexport origin name asName line =>
      match g.lookupModule origin with
      | none => (g, 0)
      | some id =>
          match g.reexport module exports id name asName line with
          | (g, true) => (g.dropAlias module asName (Dotted.extend origin name), 1)
          | (g, false) => (g, 0)
  | .star origin into blocked line =>
      match g.lookupModule origin with
      | none => (g, 0)
      | some id => g.importStar into id (if into = module then exports else []) blocked line

/-- Makes the imports that a module has kept. -/
def resumeImports (g : Graph) (module : EntityId) : Graph × Nat :=
  let pending := ((g.entity module).module?.map ModuleInfo.pending).getD []
  let g := g.modify module (Entity.modifyModule fun info => { info with pending := [] })
  tally (resumeImport module (g.exportsOf module)) pending g

/-- Looks up a base that is not known, by its place and text; only a class other than `id` will do. -/
def foundBase? (g : Graph) (id parent : EntityId) (base : Nat × String) : Option (Nat × EntityId) :=
  match g.resolveIn parent base.2 with
  | none => none
  | some found =>
      if found ≠ id ∧ (g.entity found).type = .class then some (base.1, found) else none

/-- The bases that are not known and can be found, with their places. -/
def foundBases (g : Graph) (id parent : EntityId) (bases : BaseLists) : List (Nat × EntityId) :=
  bases.unknown.filterMap (g.foundBase? id parent)

/-- Looks up the unknown bases of a class, and counts those found. -/
def upgradeBases (g : Graph) (id : EntityId) : Graph × Nat :=
  match (g.entity id).class?, (g.entity id).parent with
  | some info, some parent =>
      let found := g.foundBases id parent info.bases
      let bases := info.bases.settleAll g.fullName found
      (g.modify id (Entity.modifyClass fun info => { info with bases }), found.length)
  | _, _ => (g, 0)

/-- Lists a class among the subclasses of a base. -/
def linkSubclass (id : EntityId) (g : Graph) (base : EntityId) : Graph × Nat :=
  match (g.entity base).class? with
  | none => (g, 0)
  | some info =>
      if id ∈ info.subclasses then (g, 0)
      else
        (g.modify base (Entity.modifyClass fun info =>
          { info with subclasses := info.subclasses ++ [id] }), 1)

def linkSubclasses (g : Graph) (id : EntityId) : Graph × Nat :=
  tally (linkSubclass id) (g.basesOf id) g

/-- The order stored for a class: the method resolution order, or the depth-first one. -/
def storedMro (g : Graph) (id : EntityId) : List EntityId :=
  match g.computeMro id with
  | .ok order => order
  | .error _ => g.depthFirstBases id

def mroOf? (g : Graph) (id : EntityId) : Option (List EntityId) :=
  (g.entity id).class?.bind ClassInfo.mro

/-- Reports a class that has no order, the first time one is sought. -/
def reportMro (g : Graph) (id : EntityId) : Graph :=
  match g.computeMro id with
  | .ok _ => g
  | .error _ =>
      if (g.mroOf? id).isSome then g else g.report id "cannot compute MRO" "mro" 0 (-1)

def updateMro (g : Graph) (id : EntityId) : Graph × Nat :=
  let order := g.storedMro id
  let changed := (g.entity id).class?.isSome && g.mroOf? id != some order
  let g := g.reportMro id
  if changed then
    (g.modify id (Entity.modifyClass fun info => { info with mro := some order }), 1)
  else (g, 0)

/-- Computes the order of a class that has none, or of any class when some base became known. -/
def refreshMro (all : Bool) (g : Graph) (id : EntityId) : Graph × Nat :=
  if all || (g.mroOf? id).isNone then g.updateMro id else (g, 0)

def hasExceptionBase (g : Graph) (id : EntityId) : Bool :=
  ((g.entity id).class?.map fun info =>
    info.bases.names.any g.options.isBuiltinException).getD false

/-- Marks a class that descends from a built-in exception. -/
def tagException (g : Graph) (id : EntityId) : Graph × Nat :=
  if (g.entity id).kind = some .class ∧ ((g.mroOf? id).getD [id]).any g.hasExceptionBase then
    (g.modify id (Entity.setKind .exception), 1)
  else (g, 0)

/-- Finishes a graph whose modules are all built. -/
def finish (g : Graph) : Except GraphError (Graph × Summary) :=
  match g.pendingModules with
  | [] =>
      let (g, reexports) := tally resumeImports (g.idsOfType .module) g
      let classes := g.idsOfType .class
      let (g, resolvedBases) := tally upgradeBases classes g
      let (g, subclassLinks) := tally linkSubclasses classes g
      let (g, mrosComputed) := tally (refreshMro (resolvedBases != 0)) classes g
      let (g, exceptions) := tally tagException classes g
      .ok (g, { reexports, resolvedBases, subclassLinks, mrosComputed, exceptions })
  | pending => .error (.modulesPending (pending.map g.fullName))

end Graph

end DocGraph
