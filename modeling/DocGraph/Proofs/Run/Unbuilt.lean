import DocGraph.Proofs.Finish.Finished
import DocGraph.Proofs.Reexport.Ownership

namespace DocGraph

namespace Graph

variable {g h k : Graph} {id : EntityId} {building : EntityId → Prop}

/-- Entities keep their homes, and modules their exports and states, those that are being built apart.
A new module is at home in itself and exports nothing. -/
structure Upkept (building : EntityId → Prop) (g h : Graph) : Prop where
  has : ∀ {id}, g.Has id → h.Has id
  type : ∀ {id}, g.Has id → (h.entity id).type = (g.entity id).type
  home : ∀ {id}, g.Has id → (h.entity id).home = (g.entity id).home
  claims : ∀ {id}, g.Has id → ¬ building id → (h.entity id).claims = (g.entity id).claims
  new : ∀ {id}, ¬ g.Has id → (h.entity id).type = .module → (h.entity id).home = some id ∧
    (¬ building id → (h.entity id).claims.bind Prod.snd = none)

namespace Upkept

theorem trans (first : Upkept building g h) (second : Upkept building h k) : Upkept building g k := by
  refine ⟨fun inside => second.has (first.has inside),
    fun inside => (second.type (first.has inside)).trans (first.type inside),
    fun inside => (second.home (first.has inside)).trans (first.home inside),
    fun inside other => (second.claims (first.has inside) other).trans (first.claims inside other),
    fun {id} missing isModule => ?_⟩
  by_cases inside : h.Has id
  · rw [second.type inside] at isModule
    obtain ⟨home, exports⟩ := first.new missing isModule
    refine ⟨(second.home inside).trans home, fun other => ?_⟩
    rw [second.claims inside other]
    exact exports other
  · exact second.new inside isModule

theorem mono (upkept : Upkept (fun _ => False) g h) : Upkept building g h :=
  ⟨upkept.has, upkept.type, upkept.home, fun inside _ => upkept.claims inside not_false,
    fun missing isModule => (upkept.new missing isModule).imp_right fun exports _ => exports not_false⟩

theorem of_entity (size : h.size = g.size) (type : ∀ id, (h.entity id).type = (g.entity id).type)
    (home : ∀ id, (h.entity id).home = (g.entity id).home)
    (claims : ∀ id, ¬ building id → (h.entity id).claims = (g.entity id).claims) : Upkept building g h := by
  refine ⟨fun inside => by rwa [Has, size], fun _ => type _, fun _ => home _, fun _ => claims _,
    fun {id} missing isModule => absurd ?_ missing⟩
  rw [type] at isModule
  exact g.has_of_type (by rw [isModule]; decide)

theorem of_described (described : Described g h) : Upkept building g h := by
  refine .of_entity described.size (fun id => (described.entity id).type) (fun id => (described.entity id).home)
    fun id _ => ?_
  rw [Entity.claims, (described.entity id).module?]
  rfl

theorem refl (g : Graph) : Upkept building g g := .of_described (.refl g)

theorem of_noted (noted : Noted id g h) : Upkept (· = id) g h := by
  refine .of_entity noted.retouched.size (fun other => (noted.retouched.entity other).type) (fun other => ?_)
    fun other apart => by rw [noted.elsewhere apart]
  by_cases same : other = id
  · rw [same]
    exact noted.home
  · rw [noted.elsewhere same]

theorem modify {f : Entity → Entity} (type : ∀ e, (f e).type = e.type) (home : ∀ e, (f e).home = e.home)
    (claims : ∀ e, (f e).claims = e.claims) : Upkept building g (g.modify id f) :=
  .of_entity (g.size_modify id f) (read_modify _ _ _ Entity.type type) (read_modify _ _ _ Entity.home home)
    fun other _ => read_modify _ _ _ Entity.claims claims other

theorem modifyClass (f : ClassInfo → ClassInfo) : Upkept building g (g.modify id (Entity.modifyClass f)) :=
  .modify (fun e => e.type_modifyClass f) (fun e => by rw [Entity.modifyClass_eq]) fun e => claims_modifyClass e f

theorem modifyModule {f : ModuleInfo → ModuleInfo}
    (kept : ∀ info, ((f info).state, (f info).exports) = (info.state, info.exports)) :
    Upkept building g (g.modify id (Entity.modifyModule f)) := by
  refine .modify (fun e => e.type_modifyModule f) (fun e => by rw [Entity.modifyModule_eq]) fun e => ?_
  simp [Entity.claims, Entity.module?_modifyModule, Function.comp_def, kept]

theorem of_move {target : EntityId} {name : String} (moved : g.move id target name = .ok h) : Upkept building g h :=
  .of_entity (size_move moved) (read_move moved Entity.type fun _ _ _ _ _ _ => rfl)
    (read_move moved Entity.home fun _ _ _ _ _ _ => rfl)
    fun other _ => read_move moved Entity.claims (fun _ _ _ _ _ _ => rfl) other

/-- An entity is appended; if it is a module, it is at home in itself and exports nothing. -/
theorem append {e : Entity} (size : h.size = g.size + 1)
    (new : e.type = .module → e.home = some ⟨g.size⟩ ∧ e.claims.bind Prod.snd = none)
    (read : ∀ {α : Type} (read : Entity → α), (∀ e name contents, read { e with name, contents } = read e) →
      ∀ other, read (h.entity other) = read ((g.alloc e).1.entity other)) : Upkept building g h := by
  have old {α : Type} (property : Entity → α)
      (blind : ∀ e name contents, property { e with name, contents } = property e) {id : EntityId}
      (inside : g.Has id) : property (h.entity id) = property (g.entity id) := by
    rw [read property blind, entity_alloc_of_has _ _ inside]
  refine ⟨fun inside => ?_, old Entity.type fun _ _ _ => rfl, old Entity.home fun _ _ _ => rfl,
    fun inside _ => old Entity.claims (fun _ _ _ => rfl) inside, fun {id} missing isModule => ?_⟩
  · rw [Has, size]
    exact Nat.lt_succ_of_lt inside
  · rw [read Entity.type fun _ _ _ => rfl, entity_alloc] at isModule
    rw [read Entity.home fun _ _ _ => rfl, read Entity.claims fun _ _ _ => rfl, entity_alloc]
    split at isModule
    · rename_i same
      rw [if_pos same, same]
      exact ⟨(new isModule).1, fun _ => (new isModule).2⟩
    · exact absurd (g.has_of_type (by rw [isModule]; decide)) missing

theorem of_addModule {name : String} {isPackage : Bool} (added : g.addModule name isPackage = .ok (h, id)) :
    Upkept building g h := by
  obtain ⟨size, own, parent, read⟩ := read_addModule added
  exact .append (e := newModule own parent isPackage ⟨g.size⟩) size (fun _ => ⟨rfl, rfl⟩) read

theorem declare (g : Graph) {e : Entity} (type : e.type ≠ .module) (parent : EntityId) :
    Upkept building g ((g.alloc e).1.attach parent ⟨g.size⟩) := by
  have arranged := arranged_attach (g.alloc e).1 parent ⟨g.size⟩
  exact .append (arranged.size.trans (g.size_alloc e)) (fun isModule => absurd isModule type) fun read blind =>
    arranged.read read blind

end Upkept

end Graph

open DocGraph.Graph

theorem Walk.Act.upkept {w : Walk} {g : Graph} {may : Licence} (act : w.Act may g)
    (describes : ∀ hook ∈ w.hooks, hook.Describes) : Upkept (fun _ => False) w.graph g := by
  cases act with
  | describe told => exact .of_described told.described
  | document _ told => exact .of_described told.described
  | visit among stmt => exact .of_described ((describes _ among).visit _ _ _ _)
  | depart among stmt => exact .of_described ((describes _ among).depart _ _ _ _)
  | bind name target _ => exact .modify (fun _ => rfl) (fun _ => rfl) fun _ => rfl
  | defer _ => exact .modifyModule fun _ => rfl
  | @declare parent _ _ _ _ type _ _ _ _ told _ =>
      exact (Upkept.declare w.graph type parent).trans (.of_described told.described)
  | define id bases decorators _ _ _ _ _ _ => exact .modifyClass _
  | reexport _ _ moved =>
      exact reexport_related .of_move (fun told => .of_described told.described) (congrArg Prod.fst moved)

namespace Graph

variable {g h : Graph} {id : EntityId} {building : EntityId → Prop}

theorem Resuming.upkept (resuming : Resuming g h) : Upkept building g h := by
  induction resuming with
  | report same => exact .of_described same.described
  | move moved => exact .of_move moved
  | @realias g id f rest =>
      have read {α : Type} (read : Entity → α) (blind : ∀ e aliases, read { e with aliases } = read e) (e : Entity) :
          read (f e) = read e := by
        obtain ⟨aliases, equal⟩ := rest e
        rw [equal, blind]
      exact .modify (read Entity.type fun _ _ => rfl) (read Entity.home fun _ _ => rfl)
        (read Entity.claims fun _ _ => rfl)
  | clear g id => exact .modifyModule fun _ => rfl
  | trans _ _ first second => exact first.trans second

theorem Stages.upkept {resumed upgraded linked ordered : Graph} {s : Summary}
    (stages : Stages g resumed upgraded linked ordered h s) : Upkept building g h :=
  (stages.resuming.upkept.trans (stages.related_link .refl .trans fun _ _ f => .modifyClass f)).trans
    (.of_described stages.described)

/-- Modules are at home in themselves, and those that have yet to be built export nothing. -/
structure Unclaimed (g : Graph) : Prop where
  home : ∀ {id}, (g.entity id).type = .module → (g.entity id).home = some id
  exports : ∀ {id}, g.moduleState? id = some .notProcessed → g.exportsOf id = []

theorem unclaimed_empty (options : Options) : (empty options).Unclaimed := by
  have absent (id : EntityId) : (empty options).entity id = .absent :=
    entity_of_not_has _ (by simp [Has, size, empty])
  refine ⟨fun {id} type => ?_, fun {id} unbuilt => ?_⟩
  · rw [absent] at type
    cases type
  · rw [moduleState?, absent] at unbuilt
    cases unbuilt

/-- A module that was being built is not one that has yet to be built. -/
theorem Upkept.unclaimed (upkept : Upkept building g h)
    (built : ∀ {id}, building id → h.moduleState? id ≠ some .notProcessed) (unclaimed : g.Unclaimed) :
    h.Unclaimed := by
  refine ⟨fun {id} isModule => ?_, fun {id} unbuilt => ?_⟩
  · by_cases inside : g.Has id
    · rw [upkept.type inside] at isModule
      rw [upkept.home inside, unclaimed.home isModule]
    · exact (upkept.new inside isModule).1
  · have other : ¬ building id := fun within => built within unbuilt
    by_cases inside : g.Has id
    · rw [moduleState?_eq, upkept.claims inside other, ← moduleState?_eq] at unbuilt
      rw [exportsOf_eq, upkept.claims inside other, ← exportsOf_eq]
      exact unclaimed.exports unbuilt
    · rw [exportsOf_eq, (upkept.new inside (type_of_moduleState unbuilt)).2 other]
      rfl

theorem moduleState?_modify (g : Graph) (id : EntityId) (f : ModuleInfo → ModuleInfo) :
    (g.modify id (Entity.modifyModule f)).moduleState? id =
      (g.entity id).module?.map fun info => (f info).state := by
  rw [moduleState?]
  by_cases inside : g.Has id
  · rw [g.entity_modify_self id _ inside, Entity.module?_modifyModule, Option.map_map]
    rfl
  · rw [entity_of_not_has _ (by simpa using inside), g.entity_of_not_has inside]
    rfl

theorem moduleState?_build {hooks : List Hook} {source : Except SourceError Module} {state : BuildState}
    (built : g.build hooks id source = .ok (h, state)) : h.moduleState? id ≠ some .notProcessed := by
  unfold build at built
  split at built
  · cases built
  · split at built
    · cases built
      rw [setState, moduleState?_modify]
      cases ((g.report id _ _ _ _).entity id).module? <;> simp
    · cases built
      rw [moduleState?_modify, ← moduleState?, setState, moduleState?_modify]
      cases ((g.populate hooks id _).entity id).module? <;> simp
  · cases built

theorem unclaimed_apply {call : Call} (fits : call.Fits g) (unclaimed : g.Unclaimed) :
    (call.apply g).Unclaimed := by
  have outcome := call.outcome_apply g
  generalize call.apply g = h at outcome ⊢
  have kept (upkept : Upkept (fun _ => False) g h) : h.Unclaimed := upkept.unclaimed False.elim unclaimed
  cases outcome with
  | refused => exact unclaimed
  | addModule added => exact kept (.of_addModule added)
  | addClass parent | addFunction parent | addAttribute parent => exact kept (.declare g (by rintro ⟨⟩) parent)
  | @build hooks id source _ _ built =>
      have upkept : Upkept (· = id) g h :=
        build_related .refl .trans .of_noted (fun told => .of_described told.described)
          (fun same act => (act.upkept (same ▸ fits)).mono) built
      refine upkept.unclaimed ?_ unclaimed
      rintro _ rfl
      exact moduleState?_build built
  | reexport => exact kept (reexport_related .of_move (fun told => .of_described told.described) rfl)
  | move moved => exact kept (.of_move moved)
  | finish finished =>
      obtain ⟨_, _, _, _, stages⟩ := finish_stages finished
      exact kept stages.upkept

theorem unclaimed_run {options : Options} {calls : List Call} (admits : (empty options).Admits calls) :
    (run (empty options) calls).Unclaimed :=
  run_induction (sound_empty options) (linked_empty options) admits
    (fun _ _ _ fits before => unclaimed_apply fits before) (unclaimed_empty options)

end Graph

end DocGraph
