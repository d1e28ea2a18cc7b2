import DocGraph.Proofs.Run.Subclasses

namespace DocGraph

namespace Entity

/-- How far the build of a module has come; nothing for other entities. -/
def built (e : Entity) : Option BuildState := e.module?.map ModuleInfo.state

/-- The two entities are of one type and in one state, and no import has begun to wait. -/
structure Steady (e f : Entity) : Prop where
  type : f.type = e.type
  built : f.built = e.built
  pending : f.pending = e.pending ∨ f.pending = []

theorem Steady.refl (e : Entity) : Steady e e := ⟨rfl, rfl, .inl rfl⟩

theorem Steady.trans {e f k : Entity} (first : Steady e f) (second : Steady f k) : Steady e k := by
  refine ⟨second.type.trans first.type, second.built.trans first.built, ?_⟩
  rcases second.pending with same | none
  · rw [same]
    exact first.pending
  · exact .inr none

theorem steady_modifyClass (e : Entity) (f : ClassInfo → ClassInfo) : Steady e (e.modifyClass f) := by
  refine ⟨e.type_modifyClass f, ?_, .inl (e.pending_modifyClass f)⟩
  cases payload : e.payload <;> simp [modifyClass, payload, Entity.built, module?]

theorem steady_resume (e : Entity) :
    Steady e (e.modifyModule fun info => { info with pending := [] }) := by
  refine ⟨e.type_modifyModule _, ?_, .inr ?_⟩
  · cases payload : e.payload <;> simp [modifyModule, payload, Entity.built, module?]
  · cases payload : e.payload <;> simp [modifyModule, payload, Entity.pending, module?]

end Entity

namespace Graph

variable {g h k : Graph} {id base : EntityId}

structure Steady (g h : Graph) : Prop where
  size : h.size = g.size
  entity : ∀ id, (g.entity id).Steady (h.entity id)

namespace Steady

theorem refl (g : Graph) : Steady g g := ⟨rfl, fun _ => .refl _⟩

theorem trans (first : Steady g h) (second : Steady h k) : Steady g k :=
  ⟨second.size.trans first.size, fun id => (first.entity id).trans (second.entity id)⟩

theorem pending (steady : Steady g h) (none : (g.entity id).pending = []) :
    (h.entity id).pending = [] := by
  rcases (steady.entity id).pending with same | none'
  · rw [same, none]
  · exact none'

theorem idsOfType (steady : Steady g h) (type : EntityType) : h.idsOfType type = g.idsOfType type := by
  simp [Graph.idsOfType, Graph.ids, steady.size, fun id => (steady.entity id).type]

theorem pendingModules (steady : Steady g h) : h.pendingModules = g.pendingModules := by
  have state (id : EntityId) : h.moduleState? id = g.moduleState? id := (steady.entity id).built
  simp [Graph.pendingModules, steady.idsOfType, state]

end Steady

theorem steady_modify (g : Graph) (id : EntityId) {f : Entity → Entity}
    (kept : ∀ e : Entity, e.Steady (f e)) : Steady g (g.modify id f) := by
  refine ⟨g.size_modify id f, fun other => ?_⟩
  rw [entity_modify]
  split
  · exact kept _
  · exact .refl _

/-- What becomes of a graph while the imports that waited are made. -/
inductive Resuming : Graph → Graph → Prop
  | report {g h : Graph} (same : Told (fun _ => False) g h) : Resuming g h
  | move {g h : Graph} {id target : EntityId} {name : String} (moved : g.move id target name = .ok h) :
      Resuming g h
  | realias (g : Graph) (id : EntityId) {f : Entity → Entity}
      (rest : ∀ e, ∃ aliases, f e = { e with aliases }) : Resuming g (g.modify id f)
  | clear (g : Graph) (id : EntityId) :
      Resuming g (g.modify id (Entity.modifyModule fun info => { info with pending := [] }))
  | trans {g h k : Graph} (first : Resuming g h) (second : Resuming h k) : Resuming g k

theorem Resuming.refl (g : Graph) : Resuming g g := .report (.refl g)

theorem resuming_reexport (g : Graph) (scope : EntityId) (exports : List String) (origin : EntityId)
    (name asName : String) (line : Nat) :
    Resuming g (g.reexport scope exports origin name asName line).1 :=
  reexport_related .move .report rfl

theorem resuming_importStar (g : Graph) (scope origin : EntityId) (exports blocked : List String)
    (line : Nat) : Resuming g (g.importStar scope origin exports blocked line).1 := by
  unfold importStar
  refine List.foldlRecOn (motive := fun (state : Graph × Nat) => Resuming g state.1) _ _ (.refl g) ?_
  rintro ⟨k, count⟩ before name _
  have moved := resuming_reexport k scope exports origin name name line
  unfold importStarName
  dsimp only
  split
  · rename_i equal
    rw [equal] at moved
    exact before.trans moved
  · rename_i equal
    rw [equal] at moved
    exact before.trans (moved.trans (.realias _ _ fun _ => ⟨_, rfl⟩))

theorem resuming_resumeImport (g : Graph) (module : EntityId) (exports : List String)
    (pending : PendingImport) : Resuming g (resumeImport module exports g pending).1 := by
  unfold resumeImport
  split
  · rename_i origin name asName line
    split
    · exact .refl g
    · rename_i originId _
      have moved := resuming_reexport g module exports originId name asName line
      split
      · rename_i equal
        rw [equal] at moved
        refine moved.trans ?_
        unfold dropAlias
        split
        · exact .realias _ _ fun _ => ⟨_, rfl⟩
        · exact .refl _
      · rename_i equal
        rw [equal] at moved
        exact moved
  · split
    · exact .refl g
    · exact resuming_importStar g _ _ _ _ _

theorem resuming_resumeImports (g : Graph) (id : EntityId) : Resuming g (g.resumeImports id).1 :=
  .trans (.clear g id)
    (tally_related .refl .trans (fun g pending => resuming_resumeImport g id _ pending) _ _)

theorem Resuming.steady (resuming : Resuming g h) : Steady g h := by
  induction resuming with
  | report same =>
      refine ⟨same.size, fun id => ⟨(same.entity id).type, ?_, .inl (same.entity id).pending⟩⟩
      rw [Entity.built, (same.entity id).module?]
      rfl
  | move moved =>
      exact ⟨size_move moved, fun other => ⟨read_move moved Entity.type (fun _ _ _ _ _ _ => rfl) other,
        read_move moved Entity.built (fun _ _ _ _ _ _ => rfl) other,
        .inl (read_move moved Entity.pending (fun _ _ _ _ _ _ => rfl) other)⟩⟩
  | realias g id rest =>
      refine steady_modify g id fun e => ?_
      obtain ⟨aliases, equal⟩ := rest e
      rw [equal]
      exact ⟨rfl, rfl, .inl rfl⟩
  | clear g id => exact steady_modify g id Entity.steady_resume
  | trans _ _ first second => exact first.trans second

theorem Resuming.class? (resuming : Resuming g h) (id : EntityId) :
    (h.entity id).class? = (g.entity id).class? := by
  induction resuming with
  | report same => exact same.class? id
  | move moved => exact read_move moved Entity.class? (fun _ _ _ _ _ _ => rfl) id
  | realias g other rest =>
      refine read_modify _ _ _ Entity.class? (fun e => ?_) id
      obtain ⟨aliases, equal⟩ := rest e
      rw [equal]
      rfl
  | clear g other => exact read_modify _ _ _ Entity.class? (fun e => e.class?_modifyModule _) id
  | trans _ _ first second => exact second.trans first

theorem Resuming.slots (resuming : Resuming g h) (id : EntityId) :
    (h.entity id).slots = (g.entity id).slots := by
  rw [Entity.slots, Entity.baseLists, resuming.class?]
  rfl

theorem pending_resumeImports (g : Graph) (id : EntityId) :
    ((g.resumeImports id).1.entity id).pending = [] := by
  have cleared : ((g.modify id (Entity.modifyModule fun info => { info with pending := [] })).entity
      id).pending = [] := by
    by_cases inside : g.Has id
    · rw [g.entity_modify_self id _ inside]
      cases payload : (g.entity id).payload <;>
        simp [Entity.modifyModule, Entity.pending, Entity.module?, payload]
    · rw [entity_of_not_has _ (by simpa using inside)]
      rfl
  exact (tally_related .refl .trans (fun g pending => (resuming_resumeImport g id _ pending).steady) _
    _).pending cleared

/-- What an update does: it reports, and stores an order unless it is stored already. -/
theorem updateMro_cases (g : Graph) (id : EntityId) :
    (((g.entity id).type = .class → g.mroOf? id = some (g.storedMro id)) ∧
        (g.updateMro id).1 = g.reportMro id) ∨
      (g.updateMro id).1 = (g.reportMro id).modify id
        (Entity.modifyClass fun info => { info with mro := some (g.storedMro id) }) := by
  unfold updateMro
  dsimp only
  split
  · exact .inr rfl
  · rename_i kept
    refine .inl ⟨fun isClass => ?_, rfl⟩
    rw [Bool.and_eq_true, not_and, (g.entity id).class?_isSome.mpr isClass] at kept
    simpa using kept rfl

theorem entity_reportMro (g : Graph) (id : EntityId) : (g.reportMro id).entity = g.entity := by
  unfold reportMro
  split
  · rfl
  · split <;> rfl

theorem size_reportMro (g : Graph) (id : EntityId) : (g.reportMro id).size = g.size := by
  unfold reportMro
  split
  · rfl
  · split <;> rfl

/-- The graphs have the same entities as far as modules go, and an order that was stored still is. -/
structure Ordering (g h : Graph) : Prop where
  steady : Steady g h
  stored : ∀ id, (g.mroOf? id).isSome → (h.mroOf? id).isSome

theorem Ordering.refl (g : Graph) : Ordering g g := ⟨.refl g, fun _ stored => stored⟩

theorem Ordering.trans (first : Ordering g h) (second : Ordering h k) : Ordering g k :=
  ⟨first.steady.trans second.steady, fun id stored => second.stored id (first.stored id stored)⟩

theorem mroOf?_modify_modifyClass (g : Graph) (id other : EntityId) (order : List EntityId) :
    (g.modify id (Entity.modifyClass fun info => { info with mro := some order })).mroOf? other =
      if id = other ∧ (g.entity other).type = .class then some order else g.mroOf? other := by
  rw [mroOf?, entity_modify]
  by_cases isClass : (g.entity other).type = .class
  · have inside : g.Has other := g.has_of_type (by rw [isClass]; decide)
    obtain ⟨info, found⟩ := Option.isSome_iff_exists.mp ((g.entity other).class?_isSome.mpr isClass)
    by_cases same : id = other
    · simp [same, inside, isClass, Entity.class?_modifyClass, found]
    · simp [same, mroOf?]
  · have none := (g.entity other).class?_eq_none isClass
    by_cases same : id = other ∧ g.Has other <;>
      simp [same, isClass, Entity.class?_modifyClass, none, mroOf?]

theorem ordering_refreshMro (all : Bool) (g : Graph) (id : EntityId) :
    Ordering g (refreshMro all g id).1 := by
  have reported : Ordering g (g.reportMro id) :=
    ⟨⟨g.size_reportMro id, fun other => g.entity_reportMro id ▸ .refl _⟩, fun other stored => by
      rw [mroOf?, g.entity_reportMro id]
      exact stored⟩
  unfold refreshMro
  split
  · rcases updateMro_cases g id with ⟨_, equal⟩ | equal
    · rw [equal]
      exact reported
    · rw [equal]
      refine reported.trans ⟨steady_modify _ id fun e => e.steady_modifyClass _, fun other stored => ?_⟩
      rw [mroOf?_modify_modifyClass]
      split
      · rfl
      · exact stored
  · exact .refl g

theorem mroOf?_refreshMro (all : Bool) {g : Graph} (isClass : (g.entity id).type = .class) :
    ((refreshMro all g id).1.mroOf? id).isSome := by
  unfold refreshMro
  split
  · rcases updateMro_cases g id with ⟨stored, equal⟩ | equal
    · rw [equal, mroOf?, g.entity_reportMro id, ← mroOf?, stored isClass]
      rfl
    · rw [equal, mroOf?_modify_modifyClass, g.entity_reportMro id, if_pos ⟨rfl, isClass⟩]
      rfl
  · rename_i stored
    rw [Bool.or_eq_true, not_or, Option.isNone_iff_eq_none] at stored
    exact Option.isSome_iff_ne_none.mpr stored.2

/-- The graphs differ in the kinds of classes that have been marked. -/
structure Tagging (g h : Graph) : Prop where
  size : h.size = g.size
  options : h.options = g.options
  entity : ∀ id, h.entity id = g.entity id ∨ h.entity id = (g.entity id).setKind .exception

namespace Tagging

theorem refl (g : Graph) : Tagging g g := ⟨rfl, rfl, fun _ => .inl rfl⟩

theorem trans (first : Tagging g h) (second : Tagging h k) : Tagging g k := by
  refine ⟨second.size.trans first.size, second.options.trans first.options, fun id => ?_⟩
  rcases second.entity id with same | marked
  · rw [same]
    exact first.entity id
  · refine .inr (marked.trans ?_)
    rcases first.entity id with same | again
    · rw [same]
    · rw [again]
      rfl

theorem class? (tagging : Tagging g h) (id : EntityId) : (h.entity id).class? = (g.entity id).class? := by
  rcases tagging.entity id with equal | equal <;> simp [equal, Entity.setKind, Entity.class?]

theorem mroOf? (tagging : Tagging g h) (id : EntityId) : h.mroOf? id = g.mroOf? id := by
  rw [Graph.mroOf?, tagging.class?, Graph.mroOf?]

theorem hasExceptionBase (tagging : Tagging g h) : h.hasExceptionBase = g.hasExceptionBase := by
  funext id
  rw [Graph.hasExceptionBase, tagging.class?, tagging.options, Graph.hasExceptionBase]

theorem ordering (tagging : Tagging g h) : Ordering g h := by
  refine ⟨⟨tagging.size, fun id => ?_⟩, fun id stored => ?_⟩
  · rcases tagging.entity id with equal | equal <;> rw [equal] <;> exact ⟨rfl, rfl, .inl rfl⟩
  · rwa [tagging.mroOf?]

end Tagging

theorem tagging_tagException (g : Graph) (id : EntityId) : Tagging g (g.tagException id).1 := by
  unfold tagException
  split
  · refine ⟨g.size_modify id _, rfl, fun other => ?_⟩
    rw [entity_modify]
    split
    · exact .inr rfl
    · exact .inl rfl
  · exact .refl g

/-- A class that is still marked as an ordinary one descends from no built-in exception. -/
def Marked (g : Graph) (id : EntityId) : Prop :=
  (g.entity id).kind = some .class → ((g.mroOf? id).getD [id]).any g.hasExceptionBase = false

theorem Marked.of_tagging (tagging : Tagging g h) (marked : g.Marked id) : h.Marked id := by
  intro plain
  rw [tagging.mroOf?, tagging.hasExceptionBase]
  refine marked ?_
  rcases tagging.entity id with equal | equal
  · rwa [equal] at plain
  · rw [equal] at plain
    cases plain

theorem marked_tagException (inside : g.Has id) : (g.tagException id).1.Marked id := by
  unfold tagException
  split
  · intro plain
    rw [g.entity_modify_self id _ inside] at plain
    cases plain
  · rename_i unmarked
    intro plain
    simpa [plain] using unmarked

/-- A graph in which nothing is left to be done, unknown bases apart. -/
structure Finished (g : Graph) : Prop where
  built : g.pendingModules = []
  pending : ∀ {id}, (g.entity id).type = .module → (g.entity id).pending = []
  listed : ∀ {id base}, base ∈ g.basesOf id → (g.entity base).type = .class →
    id ∈ (g.entity base).subclasses
  stored : ∀ {id}, (g.entity id).type = .class → (g.mroOf? id).isSome
  marked : ∀ {id}, (g.entity id).type = .class → g.Marked id

namespace Stages

variable {resumed upgraded linked ordered : Graph} {s : Summary}
  (stages : Stages g resumed upgraded linked ordered h s)

include stages

theorem resuming : Resuming g resumed := by
  have resuming := tally_related .refl .trans resuming_resumeImports (g.idsOfType .module) g
  rwa [stages.resume] at resuming

theorem steady_link : Steady resumed linked :=
  stages.related_link .refl .trans fun g id f => steady_modify g id fun e => e.steady_modifyClass f

theorem ordering : Ordering linked ordered := by
  have ordering := tally_related .refl .trans (ordering_refreshMro (s.resolvedBases != 0))
    (resumed.idsOfType .class) linked
  rwa [stages.order] at ordering

theorem tagging : Tagging ordered h := by
  have tagging := tally_related .refl .trans tagging_tagException (resumed.idsOfType .class) ordered
  rwa [stages.tag] at tagging

theorem steady_behind : Steady resumed h :=
  (stages.steady_link.trans stages.ordering.steady).trans stages.tagging.ordering.steady

theorem steady : Steady g h := stages.resuming.steady.trans stages.steady_behind

theorem mem_classes (isClass : (h.entity id).type = .class) : id ∈ resumed.idsOfType .class := by
  rw [← stages.steady_behind.idsOfType]
  exact h.mem_idsOfType.mpr ⟨h.has_of_type (by rw [isClass]; decide), isClass⟩

theorem pending (isModule : (h.entity id).type = .module) : (h.entity id).pending = [] := by
  have member : id ∈ g.idsOfType .module := by
    rw [← stages.steady.idsOfType]
    exact h.mem_idsOfType.mpr ⟨h.has_of_type (by rw [isModule]; decide), isModule⟩
  have resumed := tally_establishes (g := g) (p := fun id k => (k.entity id).pending = []) .refl .trans
    (fun k id => (resuming_resumeImports k id).steady) Steady.pending
    (fun k _ id _ => k.pending_resumeImports id) id member
  rw [stages.resume] at resumed
  exact stages.steady_behind.pending resumed

theorem stored (isClass : (h.entity id).type = .class) : (h.mroOf? id).isSome := by
  have before : (linked.entity id).type = .class := by
    rwa [← (stages.ordering.steady.entity id).type, ← (stages.tagging.ordering.steady.entity id).type]
  have ordered := tally_establishes
    (p := fun id k => (linked.entity id).type = .class → (k.mroOf? id).isSome) .refl .trans
    (ordering_refreshMro (s.resolvedBases != 0))
    (fun ordering stored isClass => ordering.stored _ (stored isClass))
    (fun k ordering id _ isClass =>
      mroOf?_refreshMro _ ((ordering.steady.entity id).type.trans isClass))
    id (stages.mem_classes isClass) before
  rw [stages.order] at ordered
  exact stages.tagging.ordering.stored id ordered

theorem marked (isClass : (h.entity id).type = .class) : h.Marked id := by
  have member := stages.mem_classes isClass
  have tagged := tally_establishes (g := ordered) (p := fun id k => k.Marked id) .refl .trans
    tagging_tagException Marked.of_tagging (fun k tagging id member => marked_tagException ?_) id member
  · rwa [stages.tag] at tagged
  · have inside := (resumed.mem_idsOfType.mp member).1
    rw [Has, tagging.size, stages.ordering.steady.size, stages.steady_link.size]
    exact inside

theorem finished : h.Finished :=
  ⟨stages.steady.pendingModules.trans stages.built, stages.pending, stages.mem_subclasses_of_mem_basesOf,
    stages.stored, stages.marked⟩

end Stages

end Graph

end DocGraph
