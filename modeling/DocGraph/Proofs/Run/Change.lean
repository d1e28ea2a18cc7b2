import DocGraph.Proofs.Bases.Lists
import DocGraph.Proofs.Registry.Placement

/-!
The changes that all work on a graph is made of. Most of them touch single entities and leave the
tree as it is; the others declare an entity under a parent, add a root, or move an entity. What holds
of an empty graph and is kept by each change holds behind every run.
-/
namespace DocGraph

namespace Entity

/-- The imports that a module has kept; none for other entities. -/
def pending (e : Entity) : List PendingImport := (e.module?.map ModuleInfo.pending).getD []

/-- The bases of a class, known or not; none for other entities. -/
def baseLists (e : Entity) : BaseLists := (e.class?.map ClassInfo.bases).getD {}

def slots (e : Entity) : List Base := e.baseLists.slots

def subclasses (e : Entity) : List EntityId := (e.class?.map ClassInfo.subclasses).getD []

theorem bases_eq_known (e : Entity) : e.bases = e.baseLists.known := by
  cases payload : e.payload <;> simp [class?, bases, baseLists, BaseLists.known, payload]

/-- The two entities have one place in the tree, and one type. -/
structure Overlaid (e f : Entity) : Prop where
  name : f.name = e.name
  parent : f.parent = e.parent
  moved : f.moved = e.moved
  contents : f.contents = e.contents
  type : f.type = e.type

/-- The two entities differ at most in what they say about themselves alone. -/
structure Retouched (e f : Entity) : Prop extends Overlaid e f where
  aliases : f.aliases = e.aliases
  pending : f.pending = e.pending
  baseLists : f.baseLists = e.baseLists
  subclasses : f.subclasses = e.subclasses

/-- Nor do they differ in what a module says about its build and its exports. -/
structure Described (e f : Entity) : Prop extends Retouched e f where
  home : f.home = e.home
  module? : f.module? = e.module?

/-- Nor in what a class says about itself. -/
structure Annotated (e f : Entity) : Prop extends Described e f where
  class? : f.class? = e.class?

theorem Overlaid.refl (e : Entity) : Overlaid e e := ⟨rfl, rfl, rfl, rfl, rfl⟩

theorem Overlaid.trans {e f k : Entity} (first : Overlaid e f) (second : Overlaid f k) : Overlaid e k :=
  ⟨second.name.trans first.name, second.parent.trans first.parent, second.moved.trans first.moved,
    second.contents.trans first.contents, second.type.trans first.type⟩

theorem Retouched.slots {e f : Entity} (retouched : Retouched e f) : f.slots = e.slots :=
  congrArg BaseLists.slots retouched.baseLists

theorem Retouched.refl (e : Entity) : Retouched e e := ⟨.refl e, rfl, rfl, rfl, rfl⟩

theorem Retouched.trans {e f k : Entity} (first : Retouched e f) (second : Retouched f k) :
    Retouched e k :=
  ⟨first.toOverlaid.trans second.toOverlaid, second.aliases.trans first.aliases,
    second.pending.trans first.pending, second.baseLists.trans first.baseLists,
    second.subclasses.trans first.subclasses⟩

theorem Described.refl (e : Entity) : Described e e := ⟨.refl e, rfl, rfl⟩

theorem Described.trans {e f k : Entity} (first : Described e f) (second : Described f k) :
    Described e k :=
  ⟨first.toRetouched.trans second.toRetouched, second.home.trans first.home,
    second.module?.trans first.module?⟩

theorem Annotated.refl (e : Entity) : Annotated e e := ⟨.refl e, rfl⟩

theorem Annotated.trans {e f k : Entity} (first : Annotated e f) (second : Annotated f k) :
    Annotated e k :=
  ⟨first.toDescribed.trans second.toDescribed, second.class?.trans first.class?⟩

variable (e : Entity)

theorem overlaid_modifyModule (f : ModuleInfo → ModuleInfo) : Overlaid e (e.modifyModule f) := by
  refine ⟨?_, ?_, ?_, ?_, type_modifyModule e f⟩ <;> rw [modifyModule_eq]

theorem overlaid_modifyClass (f : ClassInfo → ClassInfo) : Overlaid e (e.modifyClass f) := by
  refine ⟨?_, ?_, ?_, ?_, type_modifyClass e f⟩ <;> rw [modifyClass_eq]

theorem retouched_modifyModule {f : ModuleInfo → ModuleInfo}
    (kept : ∀ info, (f info).pending = info.pending) : Retouched e (e.modifyModule f) := by
  refine ⟨e.overlaid_modifyModule f, ?_, ?_, ?_, ?_⟩
  · rw [modifyModule_eq]
  all_goals
    cases payload : e.payload <;>
      simp [modifyModule, payload, kept, Entity.pending, Entity.baseLists, Entity.subclasses, module?, class?]

theorem described_modifyClass {f : ClassInfo → ClassInfo}
    (bases : ∀ info, (f info).bases = info.bases)
    (subclasses : ∀ info, (f info).subclasses = info.subclasses) :
    Described e (e.modifyClass f) := by
  refine ⟨⟨e.overlaid_modifyClass f, ?_, ?_, ?_, ?_⟩, ?_, ?_⟩
  · rw [modifyClass_eq]
  all_goals
    cases payload : e.payload <;>
      simp [modifyClass, payload, bases, subclasses, Entity.pending, Entity.baseLists, Entity.subclasses,
        module?, class?]

theorem annotated_modifyFunction (f : FunctionInfo → FunctionInfo) :
    Annotated e (e.modifyFunction f) := by
  refine ⟨⟨⟨⟨?_, ?_, ?_, ?_, type_modifyFunction e f⟩, ?_, ?_, ?_, ?_⟩, ?_, ?_⟩, ?_⟩
  all_goals
    cases payload : e.payload <;>
      simp [modifyFunction, payload, Entity.pending, Entity.baseLists, Entity.subclasses, module?, class?]

theorem annotated_modifyAttribute (f : AttributeInfo → AttributeInfo) :
    Annotated e (e.modifyAttribute f) := by
  refine ⟨⟨⟨⟨?_, ?_, ?_, ?_, type_modifyAttribute e f⟩, ?_, ?_, ?_, ?_⟩, ?_, ?_⟩, ?_⟩
  all_goals
    cases payload : e.payload <;>
      simp [modifyAttribute, payload, Entity.pending, Entity.baseLists, Entity.subclasses, module?, class?]

theorem annotated_margin (kind : Option EntityKind) (line : Nat) (docstring : Option Docstring)
    (notes : List String) : Annotated e { e with kind, line, docstring, notes } :=
  ⟨⟨⟨⟨rfl, rfl, rfl, rfl, rfl⟩, rfl, rfl, rfl, rfl⟩, rfl, rfl⟩, rfl⟩

theorem annotated_setLine (line : Nat) : Annotated e (e.setLine line) := by
  unfold setLine
  split
  · exact e.annotated_margin e.kind line e.docstring e.notes
  · exact .refl e

theorem annotated_setKind (kind : EntityKind) : Annotated e (e.setKind kind) :=
  e.annotated_margin (some kind) e.line e.docstring e.notes

theorem baseLists_modifyClass (f : ClassInfo → ClassInfo) :
    (e.modifyClass f).baseLists = ((e.class?.map f).map ClassInfo.bases).getD {} := by
  rw [Entity.baseLists, class?_modifyClass]

theorem subclasses_modifyClass (f : ClassInfo → ClassInfo) :
    (e.modifyClass f).subclasses = ((e.class?.map f).map ClassInfo.subclasses).getD [] := by
  rw [Entity.subclasses, class?_modifyClass]

theorem pending_modifyClass (f : ClassInfo → ClassInfo) : (e.modifyClass f).pending = e.pending := by
  cases payload : e.payload <;> simp [modifyClass, payload, Entity.pending, module?]

theorem baseLists_modifyModule (f : ModuleInfo → ModuleInfo) : (e.modifyModule f).baseLists = e.baseLists := by
  cases payload : e.payload <;> simp [modifyModule, payload, Entity.baseLists, class?]

theorem subclasses_modifyModule (f : ModuleInfo → ModuleInfo) :
    (e.modifyModule f).subclasses = e.subclasses := by
  cases payload : e.payload <;> simp [modifyModule, payload, Entity.subclasses, class?]

theorem aliases_modifyModule (f : ModuleInfo → ModuleInfo) : (e.modifyModule f).aliases = e.aliases := by
  rw [modifyModule_eq]

theorem aliases_modifyClass (f : ClassInfo → ClassInfo) : (e.modifyClass f).aliases = e.aliases := by
  rw [modifyClass_eq]

/-- An entity as it is declared. -/
structure Blank (e : Entity) : Prop where
  contents : e.contents = {}
  aliases : e.aliases = ∅
  moved : e.moved = false
  pending : e.pending = []
  baseLists : e.baseLists = {}
  subclasses : e.subclasses = []

end Entity

namespace Graph

/-- The graphs have the same size, index, roots and options, and their entities are related. -/
structure Entrywise (r : Entity → Entity → Prop) (g h : Graph) : Prop where
  size : h.size = g.size
  index : h.index = g.index
  roots : h.roots = g.roots
  options : h.options = g.options
  entity : ∀ id, r (g.entity id) (h.entity id)

/-- The graphs have one tree. -/
abbrev Overlaid : Graph → Graph → Prop := Entrywise Entity.Overlaid

/-- The graphs differ at most in what entities say about themselves alone, and in diagnostics. -/
abbrev Retouched : Graph → Graph → Prop := Entrywise Entity.Retouched

/-- Nor do they differ in what modules say about their builds and exports. -/
abbrev Described : Graph → Graph → Prop := Entrywise Entity.Described

/-- Nor in what classes say about themselves. -/
abbrev Annotated : Graph → Graph → Prop := Entrywise Entity.Annotated

variable {g h k : Graph}

namespace Entrywise

variable {r s : Entity → Entity → Prop}

theorem refl (same : ∀ e, r e e) (g : Graph) : Entrywise r g g :=
  ⟨rfl, rfl, rfl, rfl, fun id => same (g.entity id)⟩

theorem trans (compose : ∀ {e f k}, r e f → r f k → r e k) (first : Entrywise r g h)
    (second : Entrywise r h k) : Entrywise r g k :=
  ⟨second.size.trans first.size, second.index.trans first.index, second.roots.trans first.roots,
    second.options.trans first.options, fun id => compose (first.entity id) (second.entity id)⟩

theorem imp (weaker : ∀ {e f}, r e f → s e f) (related : Entrywise r g h) : Entrywise s g h :=
  ⟨related.size, related.index, related.roots, related.options, fun id => weaker (related.entity id)⟩

theorem modify (g : Graph) (id : EntityId) {f : Entity → Entity} (same : ∀ e, r e e)
    (kept : ∀ e, r e (f e)) : Entrywise r g (g.modify id f) := by
  refine ⟨g.size_modify id f, rfl, rfl, rfl, fun other => ?_⟩
  rw [entity_modify]
  split
  · exact kept _
  · exact same _

end Entrywise

theorem Overlaid.trans (first : Overlaid g h) (second : Overlaid h k) : Overlaid g k :=
  Entrywise.trans .trans first second

theorem Overlaid.sameTree (overlaid : Overlaid g h) : SameTree g h :=
  ⟨overlaid.size, fun id => (overlaid.entity id).name, fun id => (overlaid.entity id).parent,
    fun id => (overlaid.entity id).contents⟩

theorem overlaid_modify (id : EntityId) {f : Entity → Entity} (kept : ∀ e : Entity, e.Overlaid (f e)) :
    Overlaid g (g.modify id f) :=
  Entrywise.modify g id .refl kept

namespace Retouched

theorem refl (g : Graph) : Retouched g g := Entrywise.refl .refl g

theorem trans (first : Retouched g h) (second : Retouched h k) : Retouched g k :=
  Entrywise.trans .trans first second

theorem overlaid (retouched : Retouched g h) : Overlaid g h := Entrywise.imp (·.toOverlaid) retouched

end Retouched

namespace Described

theorem refl (g : Graph) : Described g g := Entrywise.refl .refl g

theorem trans (first : Described g h) (second : Described h k) : Described g k :=
  Entrywise.trans .trans first second

theorem retouched (described : Described g h) : Retouched g h :=
  Entrywise.imp (·.toRetouched) described

theorem overlaid (described : Described g h) : Overlaid g h := described.retouched.overlaid

end Described

theorem retouched_modify (g : Graph) (id : EntityId) {f : Entity → Entity}
    (kept : ∀ e : Entity, e.Retouched (f e)) : Retouched g (g.modify id f) :=
  Entrywise.modify g id .refl kept

theorem described_modify (g : Graph) (id : EntityId) {f : Entity → Entity}
    (kept : ∀ e : Entity, e.Described (f e)) : Described g (g.modify id f) :=
  Entrywise.modify g id .refl kept

theorem described_report (g : Graph) (id : EntityId) (message topic : String) (offset threshold : Int) :
    Described g (g.report id message topic offset threshold) :=
  ⟨rfl, rfl, rfl, rfl, fun _ => .refl _⟩

/-- A child of the entity has a name, or had it before it was given a number. -/
def Bears (g : Graph) (id : EntityId) (name : String) : Prop :=
  ∃ child, g.IsParent id child ∧
    ((g.entity child).name = name ∨ ∃ number, (g.entity child).name = numbered name number)

/-- The changes that leave the tree as it is. -/
inductive Touch : Graph → Graph → Prop
  | retouch {g h : Graph} (same : Retouched g h) : Touch g h
  | bind {g : Graph} (id : EntityId) (name target : String) :
      Touch g (g.modify id (Entity.bindAlias name target))
  | unbind {g : Graph} (id : EntityId) (name : String) (borne : g.Bears id name) :
      Touch g (g.modify id fun e => { e with aliases := e.aliases.erase name })
  | defer {g : Graph} (id : EntityId) {pending : PendingImport}
      (inside : ∀ {origin into blocked line}, pending = .star origin into blocked line → g.Has into) :
      Touch g (g.deferImport id pending)
  | resume {g : Graph} (id : EntityId) :
      Touch g (g.modify id (Entity.modifyModule fun info => { info with pending := [] }))
  /-- The bases of a class that has neither bases nor subclasses. -/
  | define {g : Graph} (id : EntityId) (bases : List Base) (decorators : List Decorator)
      (type : (g.entity id).type = .class) (unwritten : (g.entity id).baseLists = {})
      (subclasses : (g.entity id).subclasses = [])
      (classes : ∀ target ∈ bases.filterMap Base.target,
        target ≠ id ∧ (g.entity target).type = .class) :
      Touch g (g.modify id (Entity.modifyClass fun _ => { bases := .ofSlots bases, decorators }))
  | upgrade {g : Graph} (id : EntityId) : Touch g (g.upgradeBases id).1
  | link {g : Graph} (id base : EntityId) (among : base ∈ g.basesOf id) :
      Touch g (linkSubclass id g base).1

inductive Change : Graph → Graph → Prop
  | touch {g h : Graph} (touched : Touch g h) : Change g h
  | declare {g : Graph} {parent : EntityId} {e : Entity} (blank : e.Blank)
      (above : e.parent = some parent) (inside : g.Has parent)
      (nested : e.type = .module → (g.entity parent).type = .module) :
      Change g ((g.alloc e).1.attach parent ⟨g.size⟩)
  | root {g : Graph} {e : Entity} (blank : e.Blank) (root : e.parent = none)
      (type : e.type = .module) (free : ((g.lookup e.name).map g.isModule).getD false = false) :
      Change g (({ (g.alloc e).1 with roots := g.roots ++ [⟨g.size⟩] } : Graph).register ⟨g.size⟩)
  | move {g h : Graph} {id target : EntityId} {name : String} (inside : g.Has target)
      (moved : g.move id target name = .ok h) : Change g h

/-- One graph becomes the other by changes. -/
def Path (g h : Graph) : Prop := Relation.ReflTransGen Change g h

namespace Path

theorem refl (g : Graph) : Path g g := Relation.ReflTransGen.refl

theorem trans (first : Path g h) (second : Path h k) : Path g k := Relation.ReflTransGen.trans first second

theorem one (change : Change g h) : Path g h := Relation.ReflTransGen.single change

theorem touch (touched : Touch g h) : Path g h := one (.touch touched)

theorem retouch (retouched : Retouched g h) : Path g h := touch (.retouch retouched)

end Path

theorem upgradeBases_cases (g : Graph) (id : EntityId) :
    (g.upgradeBases id).1 = g ∨
      ∃ parent, (g.entity id).parent = some parent ∧
        (g.upgradeBases id).1 = g.modify id (Entity.modifyClass fun info =>
          { info with bases := g.upgraded id parent (g.entity id).baseLists }) := by
  unfold upgradeBases
  split
  · rename_i info parent class? above
    exact .inr ⟨parent, above, by simp [Entity.baseLists, class?, upgraded]⟩
  · exact .inl rfl

section modifyClass

variable {id : EntityId} {f : ClassInfo → ClassInfo}

theorem baseLists_modify_modifyClass (other : EntityId) :
    ((g.modify id (Entity.modifyClass f)).entity other).baseLists =
      if other = id then (((g.entity id).class?.map f).map ClassInfo.bases).getD {}
      else (g.entity other).baseLists := by
  rw [entity_modify]
  by_cases same : other = id
  · subst same
    by_cases inside : g.Has other
    · simp [inside, Entity.baseLists_modifyClass]
    · simp [inside, g.entity_of_not_has inside, Entity.absent, Entity.baseLists, Entity.class?]
  · simp [same, Ne.symm same]

theorem baseLists_modify_of_kept (kept : ∀ info, (f info).bases = info.bases) (other : EntityId) :
    ((g.modify id (Entity.modifyClass f)).entity other).baseLists = (g.entity other).baseLists := by
  rw [baseLists_modify_modifyClass]
  split
  · rename_i same
    subst same
    cases found : (g.entity other).class? <;> simp [Entity.baseLists, found, kept]
  · rfl

end modifyClass

theorem upgraded_nil (g : Graph) (id parent : EntityId) : g.upgraded id parent {} = {} := rfl

theorem baseLists_modify_upgraded (g : Graph) (id parent other : EntityId) :
    ((g.modify id (Entity.modifyClass fun info =>
      { info with bases := g.upgraded id parent (g.entity id).baseLists })).entity other).baseLists =
      if other = id then g.upgraded id parent (g.entity id).baseLists else (g.entity other).baseLists := by
  rw [baseLists_modify_modifyClass]
  cases found : (g.entity id).class? <;> simp [Entity.baseLists, found, upgraded_nil]

theorem linkSubclass_cases (g : Graph) (id base : EntityId) :
    (linkSubclass id g base).1 = g ∨
      ((g.entity base).type = .class ∧ id ∉ (g.entity base).subclasses ∧
        (linkSubclass id g base).1 = g.modify base (Entity.modifyClass fun info =>
          { info with subclasses := info.subclasses ++ [id] })) := by
  cases found : (g.entity base).class? with
  | none => exact .inl (by simp [linkSubclass, found])
  | some info =>
      by_cases listed : id ∈ info.subclasses
      · exact .inl (by simp [linkSubclass, found, listed])
      · refine .inr ⟨?_, ?_, ?_⟩
        · rw [← Entity.class?_isSome, found]
          rfl
        · simpa [Entity.subclasses, found] using listed
        · simp [linkSubclass, found, listed]

theorem Touch.overlaid (touched : Touch g h) : Overlaid g h := by
  cases touched with
  | retouch same => exact same.overlaid
  | bind id name target => exact overlaid_modify id fun _ => ⟨rfl, rfl, rfl, rfl, rfl⟩
  | unbind id name _ => exact overlaid_modify id fun _ => ⟨rfl, rfl, rfl, rfl, rfl⟩
  | defer id _ => exact overlaid_modify id fun e => e.overlaid_modifyModule _
  | resume id => exact overlaid_modify id fun e => e.overlaid_modifyModule _
  | define id _ _ _ _ _ _ => exact overlaid_modify id fun e => e.overlaid_modifyClass _
  | upgrade id =>
      rcases upgradeBases_cases g id with equal | ⟨parent, _, equal⟩
      · rw [equal]
        exact (Retouched.refl g).overlaid
      · rw [equal]
        exact overlaid_modify id fun e => e.overlaid_modifyClass _
  | link id base _ =>
      rcases linkSubclass_cases g id base with equal | ⟨_, _, equal⟩
      · rw [equal]
        exact (Retouched.refl g).overlaid
      · rw [equal]
        exact overlaid_modify base fun e => e.overlaid_modifyClass _

/-- What moving does: nothing, or it uproots an entity that no move has touched, attaches it, and
leaves an alias behind. -/
theorem move_cases {id target : EntityId} {name : String} (moved : g.move id target name = .ok h) :
    (h = g ∧ g.IsParent target id ∧ (g.entity id).name = name) ∨
      ∃ oldParent, g.IsParent oldParent id ∧ (g.entity id).type ≠ .module ∧
        (g.entity id).moved = false ∧ g.isAncestor id target = false ∧
        h = ((g.uproot id oldParent target (g.entity id).name name).attach target id).modify oldParent
          (Entity.bindAlias (g.entity id).name
            (((g.uproot id oldParent target (g.entity id).name name).attach target id).fullName id)) := by
  unfold move at moved
  dsimp only at moved
  split at moved
  · rename_i repeated
    exact .inl ⟨(Except.ok.inj moved).symm, repeated⟩
  · cases refusal : g.moveRefusal? id target with
    | some reason => simp [refusal] at moved
    | none =>
        cases above : (g.entity id).parent with
        | none => simp [refusal, above] at moved
        | some oldParent =>
            simp only [refusal, above, Except.ok.injEq] at moved
            simp only [moveRefusal?] at refusal
            split at refusal
            · cases refusal
            · split at refusal
              · cases refusal
              · split at refusal
                · cases refusal
                · rename_i type once outside
                  exact .inr ⟨oldParent, above, type, by simpa using once, by simpa using outside,
                    moved.symm⟩

/-- Whatever does not place an entity is as it was behind a move. -/
theorem read_move {α : Sort*} {id target : EntityId} {name : String}
    (moved : g.move id target name = .ok h) (read : Entity → α)
    (blind : ∀ e parent name moved contents aliases,
      read { e with parent, name, moved, contents, aliases } = read e) (other : EntityId) :
    read (h.entity other) = read (g.entity other) := by
  rcases move_cases moved with ⟨rfl, _⟩ | ⟨oldParent, _, _, _, _, rfl⟩
  · rfl
  · have arranged := arranged_attach (g.uproot id oldParent target (g.entity id).name name) target id
    refine (read_modify _ _ _ read (fun e => ?_) other).trans ?_
    · exact blind e e.parent e.name e.moved e.contents _
    · rw [arranged.read read fun e name contents => blind e e.parent name e.moved contents e.aliases,
        read_uproot read fun e parent name moved contents => blind e parent name moved contents e.aliases]

theorem size_move {id target : EntityId} {name : String} (moved : g.move id target name = .ok h) :
    h.size = g.size := by
  rcases move_cases moved with ⟨rfl, _⟩ | ⟨oldParent, _, _, _, _, rfl⟩
  · rfl
  · have uprooted : (g.uproot id oldParent target (g.entity id).name name).size = g.size := by
      simp only [uproot, size_modify]
      exact (arranged_unregister g id).size
    rw [size_modify, (arranged_attach _ target id).size, uprooted]

end Graph

end DocGraph
