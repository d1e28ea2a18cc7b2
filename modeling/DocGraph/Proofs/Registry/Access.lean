import Mathlib.Tactic.ByContra
import DocGraph.Graph.Declare

/-!
Reading a graph behind a change. Every change of a graph is made of appending an entity, changing one
entity, and changing the index, the roots or the diagnostics; what each of these leaves to be read is
said here once.
-/
namespace DocGraph

namespace Entity

variable (e : Entity)

theorem modifyModule_eq (f : ModuleInfo → ModuleInfo) :
    e.modifyModule f = { e with payload := (e.modifyModule f).payload } := by
  unfold modifyModule
  split <;> rfl

theorem modifyClass_eq (f : ClassInfo → ClassInfo) :
    e.modifyClass f = { e with payload := (e.modifyClass f).payload } := by
  unfold modifyClass
  split <;> rfl

@[simp] theorem type_modifyModule (f : ModuleInfo → ModuleInfo) : (e.modifyModule f).type = e.type := by
  unfold modifyModule type
  split <;> simp_all [Payload.type]

@[simp] theorem type_modifyClass (f : ClassInfo → ClassInfo) : (e.modifyClass f).type = e.type := by
  unfold modifyClass type
  split <;> simp_all [Payload.type]

@[simp] theorem type_modifyFunction (f : FunctionInfo → FunctionInfo) :
    (e.modifyFunction f).type = e.type := by
  unfold modifyFunction type
  split <;> simp_all [Payload.type]

@[simp] theorem type_modifyAttribute (f : AttributeInfo → AttributeInfo) :
    (e.modifyAttribute f).type = e.type := by
  unfold modifyAttribute type
  split <;> simp_all [Payload.type]

theorem module?_modifyModule (f : ModuleInfo → ModuleInfo) :
    (e.modifyModule f).module? = e.module?.map f := by
  cases payload : e.payload <;> simp [module?, modifyModule, payload]

theorem class?_isSome : e.class?.isSome ↔ e.type = .class := by
  cases payload : e.payload <;> simp [class?, type, Payload.type, payload]

theorem class?_eq_none (other : e.type ≠ .class) : e.class? = none := by
  rw [← Option.not_isSome_iff_eq_none, class?_isSome]
  exact other

theorem class?_modifyClass (f : ClassInfo → ClassInfo) : (e.modifyClass f).class? = e.class?.map f := by
  cases payload : e.payload <;> simp [class?, modifyClass, payload]

theorem bases_eq : e.bases = (e.class?.map fun info => info.bases.known).getD [] := by
  cases payload : e.payload <;> simp [class?, bases, payload]

end Entity

namespace Graph

variable (g : Graph)

/-- The graph has an entity of this number. -/
def Has (id : EntityId) : Prop := id.index < g.size

instance (id : EntityId) : Decidable (g.Has id) := inferInstanceAs (Decidable (_ < _))

theorem entity_of_not_has {id : EntityId} (missing : ¬ g.Has id) : g.entity id = .absent := by
  simp only [Has, size, Nat.not_lt] at missing
  simp [entity, missing]

theorem has_of_parent {id parent : EntityId} (above : (g.entity id).parent = some parent) :
    g.Has id := by
  by_contra missing
  rw [g.entity_of_not_has missing] at above
  cases above

theorem has_of_type {id : EntityId} (type : (g.entity id).type ≠ .attribute) : g.Has id := by
  by_contra missing
  rw [g.entity_of_not_has missing] at type
  exact type rfl

theorem has_of_isContainer {id : EntityId} (container : (g.entity id).isContainer = true) : g.Has id := by
  refine g.has_of_type fun type => ?_
  simp [Entity.isContainer, type] at container

theorem mem_ids {id : EntityId} : id ∈ g.ids ↔ g.Has id := by
  obtain ⟨index⟩ := id
  simp [ids, Has]

theorem mem_idsOfType {id : EntityId} {type : EntityType} :
    id ∈ g.idsOfType type ↔ g.Has id ∧ (g.entity id).type = type := by
  simp [idsOfType, mem_ids]

section modify

variable (id : EntityId) (f : Entity → Entity)

@[simp] theorem size_modify : (g.modify id f).size = g.size := by simp [modify, size]

@[simp] theorem has_modify (other : EntityId) : (g.modify id f).Has other ↔ g.Has other := by simp [Has]

@[simp] theorem index_modify : (g.modify id f).index = g.index := rfl

@[simp] theorem roots_modify : (g.modify id f).roots = g.roots := rfl

@[simp] theorem options_modify : (g.modify id f).options = g.options := rfl

@[simp] theorem diagnostics_modify : (g.modify id f).diagnostics = g.diagnostics := rfl

theorem entity_modify (other : EntityId) :
    (g.modify id f).entity other =
      if id = other ∧ g.Has other then f (g.entity other) else g.entity other := by
  by_cases inside : g.Has other
  · have bound : other.index < g.entities.size := inside
    by_cases same : id = other
    · subst same
      simp [entity, modify, inside, bound, Array.getElem_modify]
    · have apart : id.index ≠ other.index := fun equal => same (by cases id; cases other; simp_all)
      simp [entity, modify, same, Array.getElem?_modify, apart]
  · rw [entity_of_not_has _ (by simpa using inside), entity_of_not_has _ inside]
    simp [inside]

theorem entity_modify_self (inside : g.Has id) : (g.modify id f).entity id = f (g.entity id) := by
  simp [entity_modify, inside]

theorem entity_modify_of_ne {other : EntityId} (apart : id ≠ other) :
    (g.modify id f).entity other = g.entity other := by
  simp [entity_modify, apart]

theorem read_modify {α : Sort*} (read : Entity → α) (kept : ∀ e, read (f e) = read e)
    (other : EntityId) : read ((g.modify id f).entity other) = read (g.entity other) := by
  rw [entity_modify]
  split
  · exact kept _
  · rfl

end modify

section alloc

variable (e : Entity)

@[simp] theorem size_alloc : (g.alloc e).1.size = g.size + 1 := by simp [alloc, size]

@[simp] theorem index_alloc : (g.alloc e).1.index = g.index := rfl

@[simp] theorem roots_alloc : (g.alloc e).1.roots = g.roots := rfl

@[simp] theorem options_alloc : (g.alloc e).1.options = g.options := rfl

theorem has_alloc (id : EntityId) : (g.alloc e).1.Has id ↔ g.Has id ∨ id = ⟨g.size⟩ := by
  obtain ⟨index⟩ := id
  simp [Has]
  omega

theorem not_has_fresh : ¬ g.Has ⟨g.size⟩ := by simp [Has]

theorem entity_alloc (id : EntityId) :
    (g.alloc e).1.entity id = if id = ⟨g.size⟩ then e else g.entity id := by
  obtain ⟨index⟩ := id
  simp only [entity, alloc, Array.getElem?_push, EntityId.mk.injEq]
  split <;> rename_i same
  · simp [size, same]
  · simp [size, same]

theorem entity_alloc_of_has {id : EntityId} (inside : g.Has id) :
    (g.alloc e).1.entity id = g.entity id := by
  rw [entity_alloc, if_neg]
  rintro rfl
  exact g.not_has_fresh inside

end alloc

section report

variable (id : EntityId) (message topic : String) (offset threshold : Int)

@[simp] theorem entity_report : (g.report id message topic offset threshold).entity = g.entity := rfl

@[simp] theorem size_report : (g.report id message topic offset threshold).size = g.size := rfl

@[simp] theorem index_report : (g.report id message topic offset threshold).index = g.index := rfl

@[simp] theorem roots_report : (g.report id message topic offset threshold).roots = g.roots := rfl

@[simp] theorem options_report : (g.report id message topic offset threshold).options = g.options := rfl

end report

section reports

variable {g h k : Graph} {p q : Diagnostic → Prop}

/-- All that is reported on the way from one graph to another is of one sort. -/
def ReportsOnly (p : Diagnostic → Prop) (g h : Graph) : Prop :=
  ∃ reports, h.diagnostics.toList = g.diagnostics.toList ++ reports ∧ ∀ report ∈ reports, p report

namespace ReportsOnly

theorem of_eq (same : h.diagnostics = g.diagnostics) : ReportsOnly p g h :=
  ⟨[], by rw [same, List.append_nil], nofun⟩

theorem refl (g : Graph) : ReportsOnly p g g := .of_eq rfl

theorem trans (first : ReportsOnly p g h) (second : ReportsOnly p h k) : ReportsOnly p g k := by
  obtain ⟨reports, listed, each⟩ := first
  obtain ⟨later, listedLater, eachLater⟩ := second
  refine ⟨reports ++ later, by rw [listedLater, listed, List.append_assoc], fun report among => ?_⟩
  rcases List.mem_append.mp among with among | among
  · exact each report among
  · exact eachLater report among

theorem mono (reports : ReportsOnly p g h) (within : ∀ d, p d → q d) : ReportsOnly q g h := by
  obtain ⟨reports, listed, each⟩ := reports
  exact ⟨reports, listed, fun report among => within report (each report among)⟩

theorem modify (reports : ReportsOnly p g h) (id : EntityId) (f : Entity → Entity) : ReportsOnly p g (h.modify id f) :=
  reports

theorem report (g : Graph) (id : EntityId) {message topic : String} (offset threshold : Int)
    (sort : ∀ d : Diagnostic, d.message = message → d.topic = topic → p d) :
    ReportsOnly p g (g.report id message topic offset threshold) := by
  refine ⟨_, Diagnostics.toList_report _ _, fun report among => ?_⟩
  rw [List.mem_singleton.mp among]
  exact sort _ rfl rfl

theorem foldl {σ α : Type*} (graph : σ → Graph) {step : σ → α → σ}
    (each : ∀ state item, ReportsOnly p (graph state) (graph (step state item))) (items : List α) (state : σ) :
    ReportsOnly p (graph state) (graph (items.foldl step state)) := by
  induction items generalizing state with
  | nil => exact .refl _
  | cons item rest ih => exact (each state item).trans (ih _)

theorem ite {c : Prop} [Decidable c] (first : ReportsOnly p g h) (second : ReportsOnly p g k) :
    ReportsOnly p g (if c then h else k) := by
  split
  · exact first
  · exact second

theorem filter_eq (reports : ReportsOnly p g h) (sort : Diagnostic → Bool) (other : ∀ d, p d → sort d = false) :
    h.diagnostics.toList.filter sort = g.diagnostics.toList.filter sort := by
  obtain ⟨reports, listed, each⟩ := reports
  have none : reports.filter sort = [] :=
    List.filter_eq_nil_iff.mpr fun report among => by simp [other _ (each report among)]
  rw [listed, List.filter_append, none, List.append_nil]

end ReportsOnly

end reports

end Graph

end DocGraph
