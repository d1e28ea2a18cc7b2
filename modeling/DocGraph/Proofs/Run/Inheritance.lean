import DocGraph.Proofs.Run.Sound

namespace DocGraph

/-- The bases behind a change: they are those written before, if there were any, and one that was known has the
class and the name that it had. -/
structure Settled (before behind : BaseLists) : Prop where
  written : before.raw = [] ∨ behind.raw = before.raw
  known : ∀ {place : Nat} {target : EntityId}, before.targets[place]? = some (some target) →
    behind.targets[place]? = some (some target) ∧ behind.names[place]? = before.names[place]?

namespace Settled

variable {first second third : BaseLists}

theorem refl (bases : BaseLists) : Settled bases bases := ⟨.inr rfl, fun found => ⟨found, rfl⟩⟩

theorem trans (left : Settled first second) (right : Settled second third) : Settled first third := by
  refine ⟨?_, fun found => ?_⟩
  · rcases left.written with empty | same
    · exact .inl empty
    · rcases right.written with empty | again
      · exact .inl (same ▸ empty)
      · exact .inr (again.trans same)
  · obtain ⟨denoted, named⟩ := left.known found
    exact ⟨(right.known denoted).1, (right.known denoted).2.trans named⟩

theorem targets (settled : Settled first second) {target : EntityId} (member : target ∈ first.known) :
    target ∈ second.known := by
  obtain ⟨place, found⟩ := BaseLists.mem_known.mp member
  exact BaseLists.mem_known.mpr ⟨place, (settled.known found).1⟩

end Settled

namespace Graph

variable {g h : Graph} {id : EntityId}

theorem basesOf_eq (g : Graph) (id : EntityId) : g.basesOf id = (g.entity id).baseLists.known :=
  (g.entity id).bases_eq_known

/-- What a change does to bases and subclasses: nothing, or it writes the bases of one class, or it
lists one subclass. -/
inductive ClassChange (g h : Graph) : Prop
  | same
      (bases : ∀ id, (h.entity id).baseLists = (g.entity id).baseLists)
      (subclasses : ∀ id, (h.entity id).subclasses = (g.entity id).subclasses)
      (type : ∀ {id}, (g.entity id).type = .class → (h.entity id).type = .class)
  | rebase (id : EntityId) (lists : BaseLists)
      (bases : ∀ other, (h.entity other).baseLists = if other = id then lists else (g.entity other).baseLists)
      (settled : Settled (g.entity id).baseLists lists)
      (classes : ∀ target ∈ lists.known,
        target ∈ g.basesOf id ∨ (target ≠ id ∧ (g.entity target).type = .class))
      (subclasses : ∀ id, (h.entity id).subclasses = (g.entity id).subclasses)
      (type : ∀ {id}, (g.entity id).type = .class → (h.entity id).type = .class)
  | link (id base : EntityId) (among : base ∈ g.basesOf id) (unlisted : id ∉ (g.entity base).subclasses)
      (bases : ∀ id, (h.entity id).baseLists = (g.entity id).baseLists)
      (subclasses : ∀ other, (h.entity other).subclasses =
        if other = base then (g.entity base).subclasses ++ [id] else (g.entity other).subclasses)
      (type : ∀ {id}, (g.entity id).type = .class → (h.entity id).type = .class)

theorem ClassChange.refl (g : Graph) : ClassChange g g := .same (fun _ => rfl) (fun _ => rfl) fun type => type

theorem settled_upgraded (g : Graph) (id parent : EntityId) (bases : BaseLists) :
    Settled bases (g.upgraded id parent bases) := by
  refine ⟨.inr (bases.raw_settleAll _ _), fun {place target} found => ?_⟩
  have outside : place ∉ (g.foundBases id parent bases).map Prod.fst := by
    intro listed
    obtain ⟨⟨_, _⟩, among, rfl⟩ := List.mem_map.mp listed
    cases found.symm.trans (mem_foundBases.mp among).1
  obtain ⟨names, targets⟩ := bases.settleAll_of_not_mem g.fullName outside
  exact ⟨targets.trans found, names⟩

section modifyClass

variable {f : ClassInfo → ClassInfo}

theorem subclasses_modify_modifyClass (other : EntityId) :
    ((g.modify id (Entity.modifyClass f)).entity other).subclasses =
      if other = id then (((g.entity id).class?.map f).map ClassInfo.subclasses).getD []
      else (g.entity other).subclasses := by
  rw [entity_modify]
  by_cases same : other = id
  · subst same
    by_cases inside : g.Has other
    · simp [inside, Entity.subclasses_modifyClass]
    · simp [inside, g.entity_of_not_has inside, Entity.absent, Entity.subclasses, Entity.class?]
  · simp [same, Ne.symm same]

theorem subclasses_modify_of_kept (kept : ∀ info, (f info).subclasses = info.subclasses)
    (other : EntityId) :
    ((g.modify id (Entity.modifyClass f)).entity other).subclasses = (g.entity other).subclasses := by
  rw [subclasses_modify_modifyClass]
  split
  · rename_i same
    subst same
    cases found : (g.entity other).class? <;> simp [Entity.subclasses, found, kept]
  · rfl

theorem mroOf?_modify (other : EntityId) :
    (g.modify id (Entity.modifyClass f)).mroOf? other =
      if other = id then ((g.entity id).class?.map f).bind ClassInfo.mro else g.mroOf? other := by
  rw [mroOf?, entity_modify]
  by_cases same : other = id
  · subst same
    by_cases inside : g.Has other
    · simp [inside, Entity.class?_modifyClass]
    · simp [inside, g.entity_of_not_has inside, Entity.absent, Entity.class?]
  · simp [same, Ne.symm same, mroOf?]

theorem mroOf?_modify_of_kept (kept : ∀ info, (f info).mro = info.mro) (other : EntityId) :
    (g.modify id (Entity.modifyClass f)).mroOf? other = g.mroOf? other := by
  rw [mroOf?_modify]
  split
  · rename_i same
    subst same
    cases found : (g.entity other).class? <;> simp [mroOf?, found, kept]
  · rfl

end modifyClass

theorem Touch.classChange (touched : Touch g h) : ClassChange g h := by
  have type {id : EntityId} (isClass : (g.entity id).type = .class) : (h.entity id).type = .class :=
    (touched.overlaid.entity id).type.trans isClass
  cases touched with
  | retouch same =>
      exact .same (fun id => (same.entity id).baseLists) (fun id => (same.entity id).subclasses) type
  | bind other name target =>
      exact .same (g.read_modify other (Entity.bindAlias name target) Entity.baseLists fun _ => rfl)
        (g.read_modify other (Entity.bindAlias name target) Entity.subclasses fun _ => rfl) type
  | unbind other name _ =>
      exact .same
        (g.read_modify other (fun e => { e with aliases := e.aliases.erase name }) Entity.baseLists fun _ => rfl)
        (g.read_modify other (fun e => { e with aliases := e.aliases.erase name }) Entity.subclasses
          fun _ => rfl) type
  | defer other _ =>
      exact .same (g.read_modify other _ Entity.baseLists fun e => e.baseLists_modifyModule _)
        (g.read_modify other _ Entity.subclasses fun e => e.subclasses_modifyModule _) type
  | resume other =>
      exact .same (g.read_modify other _ Entity.baseLists fun e => e.baseLists_modifyModule _)
        (g.read_modify other _ Entity.subclasses fun e => e.subclasses_modifyModule _) type
  | define other bases decorators isClass empty unlisted classes =>
      obtain ⟨info, found⟩ := Option.isSome_iff_exists.mp ((g.entity other).class?_isSome.mpr isClass)
      refine .rebase other (.ofSlots bases) (fun id => ?_) (empty ▸ ⟨.inl rfl, by simp⟩)
        (fun target member => .inr (classes target (by simpa using member))) (fun id => ?_) type
      · rw [baseLists_modify_modifyClass, found]
        rfl
      · rw [subclasses_modify_modifyClass, found]
        split
        · rename_i same
          rw [same, unlisted]
          rfl
        · rfl
  | upgrade other =>
      rcases upgradeBases_cases g other with equal | ⟨parent, _, equal⟩
      · rw [equal]
        exact .refl g
      · refine .rebase other (g.upgraded other parent (g.entity other).baseLists) (fun id => ?_)
          (settled_upgraded g other parent _) (fun target member => ?_) (fun id => ?_) type
        · rw [equal, baseLists_modify_upgraded]
        · obtain ⟨place, known⟩ := BaseLists.mem_known.mp member
          rw [basesOf_eq]
          exact (targets_upgraded known).imp_left fun before => BaseLists.mem_known.mpr ⟨place, before⟩
        · rw [equal]
          exact subclasses_modify_of_kept (by intro; rfl) id
  | link other base among =>
      rcases linkSubclass_cases g other base with equal | ⟨isClass, unlisted, equal⟩
      · rw [equal]
        exact .refl g
      · obtain ⟨info, found⟩ := Option.isSome_iff_exists.mp ((g.entity base).class?_isSome.mpr isClass)
        refine .link other base among unlisted (fun id => ?_) (fun id => ?_) type
        · rw [equal]
          exact baseLists_modify_of_kept (by intro; rfl) id
        · rw [equal, subclasses_modify_modifyClass]
          simp [Entity.subclasses, found]

theorem ClassChange.of_reads {e : Entity} (blank : e.Blank)
    (bases : ∀ id, (h.entity id).baseLists = ((g.alloc e).1.entity id).baseLists)
    (subclasses : ∀ id, (h.entity id).subclasses = ((g.alloc e).1.entity id).subclasses)
    (type : ∀ id, (h.entity id).type = ((g.alloc e).1.entity id).type) : ClassChange g h := by
  have absent := g.entity_of_not_has g.not_has_fresh
  refine .same (fun id => ?_) (fun id => ?_) fun {id} isClass => ?_
  · rw [bases, entity_alloc]
    split
    · rename_i fresh
      rw [fresh, absent, blank.baseLists]
      rfl
    · rfl
  · rw [subclasses, entity_alloc]
    split
    · rename_i fresh
      rw [fresh, absent, blank.subclasses]
      rfl
    · rfl
  · rw [type, entity_alloc_of_has _ _ (g.has_of_type (by rw [isClass]; decide)), isClass]

theorem Change.classChange (change : Change g h) : ClassChange g h := by
  cases change with
  | touch touched => exact touched.classChange
  | @declare parent e blank above inside _ =>
      have arranged := arranged_attach (g.alloc e).1 parent ⟨g.size⟩
      exact .of_reads blank (arranged.read Entity.baseLists fun _ _ _ => rfl)
        (arranged.read Entity.subclasses fun _ _ _ => rfl) (arranged.read Entity.type fun _ _ _ => rfl)
  | @root e blank root type free =>
      have arranged := arranged_register
        ({ (g.alloc e).1 with roots := g.roots ++ [⟨g.size⟩] } : Graph) ⟨g.size⟩
      exact .of_reads blank (arranged.read Entity.baseLists fun _ _ _ => rfl)
        (arranged.read Entity.subclasses fun _ _ _ => rfl) (arranged.read Entity.type fun _ _ _ => rfl)
  | move _ moved =>
      exact .same (read_move moved Entity.baseLists fun _ _ _ _ _ _ => rfl)
        (read_move moved Entity.subclasses fun _ _ _ _ _ _ => rfl)
        fun {id} isClass => (read_move moved Entity.type (fun _ _ _ _ _ _ => rfl) id).trans isClass

/-- Bases and subclasses of an entity behind a run: known bases are settled, and subclasses have been
added at the end. -/
structure Inherits (e f : Entity) : Prop where
  bases : Settled e.baseLists f.baseLists
  subclasses : e.subclasses <+: f.subclasses

theorem Inherits.trans {e f k : Entity} (first : Inherits e f) (second : Inherits f k) : Inherits e k :=
  ⟨first.bases.trans second.bases, first.subclasses.trans second.subclasses⟩

theorem ClassChange.inherits (change : ClassChange g h) (id : EntityId) :
    Inherits (g.entity id) (h.entity id) := by
  cases change with
  | same bases subclasses _ =>
      exact ⟨bases id ▸ .refl _, subclasses id ▸ List.prefix_refl _⟩
  | rebase other lists bases settled _ subclasses _ =>
      refine ⟨?_, subclasses id ▸ List.prefix_refl _⟩
      rw [bases]
      split
      · rename_i same
        exact same ▸ settled
      · exact .refl _
  | link sub base _ _ bases subclasses _ =>
      refine ⟨bases id ▸ .refl _, ?_⟩
      rw [subclasses]
      split
      · rename_i same
        exact same ▸ List.prefix_append _ _
      · exact List.prefix_refl _

theorem Path.inherits (path : Path g h) (id : EntityId) : Inherits (g.entity id) (h.entity id) := by
  induction path with
  | refl => exact ⟨.refl _, List.prefix_refl _⟩
  | tail _ change ih => exact ih.trans (change.classChange.inherits id)

theorem Path.mem_basesOf (path : Path g h) {base : EntityId}
    (among : base ∈ g.basesOf id) : base ∈ h.basesOf id := by
  rw [basesOf_eq] at among ⊢
  exact (path.inherits id).bases.targets among

/-- Known bases are classes other than the one they are bases of, and subclasses are listed once, each
under a base it has. -/
structure Linked (g : Graph) : Prop where
  classes : ∀ {id base}, base ∈ g.basesOf id → base ≠ id ∧ (g.entity base).type = .class
  nodup : ∀ id, (g.entity id).subclasses.Nodup
  bases : ∀ {id base}, id ∈ (g.entity base).subclasses → base ∈ g.basesOf id

theorem linked_empty (options : Options) : (empty options).Linked := by
  have absent (id : EntityId) : (empty options).entity id = .absent := by
    simp [entity, empty]
  constructor
  · intro id base among
    rw [basesOf, absent] at among
    cases among
  · intro id
    rw [absent]
    exact List.nodup_nil
  · intro id base listed
    rw [absent] at listed
    cases listed

theorem ClassChange.linked (change : ClassChange g h) (linked : g.Linked) : h.Linked := by
  have lasting := change.inherits
  have kept {id base : EntityId} (among : base ∈ g.basesOf id) : base ∈ h.basesOf id := by
    rw [basesOf_eq] at among ⊢
    exact (lasting id).bases.targets among
  cases change with
  | same bases subclasses type =>
      refine ⟨fun {id base} among => ?_, fun id => ?_, fun {id base} listed => ?_⟩
      · rw [basesOf_eq, bases, ← basesOf_eq] at among
        exact ⟨(linked.classes among).1, type (linked.classes among).2⟩
      · rw [subclasses]
        exact linked.nodup id
      · rw [subclasses] at listed
        exact kept (linked.bases listed)
  | rebase other lists bases settled classes subclasses type =>
      refine ⟨fun {id base} among => ?_, fun id => ?_, fun {id base} listed => ?_⟩
      · rw [basesOf_eq, bases] at among
        split at among
        · rename_i same
          subst same
          rcases classes base among with old | ⟨apart, isClass⟩
          · exact ⟨(linked.classes old).1, type (linked.classes old).2⟩
          · exact ⟨apart, type isClass⟩
        · rw [← basesOf_eq] at among
          exact ⟨(linked.classes among).1, type (linked.classes among).2⟩
      · rw [subclasses]
        exact linked.nodup id
      · rw [subclasses] at listed
        exact kept (linked.bases listed)
  | link sub base among unlisted bases subclasses type =>
      refine ⟨fun {id base} among => ?_, fun id => ?_, fun {id other} listed => ?_⟩
      · rw [basesOf_eq, bases, ← basesOf_eq] at among
        exact ⟨(linked.classes among).1, type (linked.classes among).2⟩
      · rw [subclasses]
        split
        · rw [List.nodup_append]
          refine ⟨linked.nodup base, by simp, fun left inLeft right single equal => ?_⟩
          rw [List.mem_singleton] at single
          exact unlisted (single ▸ equal ▸ inLeft)
        · exact linked.nodup id
      · rw [subclasses] at listed
        split at listed
        · rename_i same
          subst same
          rcases List.mem_append.mp listed with old | new
          · exact kept (linked.bases old)
          · rw [List.mem_singleton] at new
            exact kept (new ▸ among)
        · exact kept (linked.bases listed)

theorem Path.linked (path : Path g h) (linked : g.Linked) : h.Linked := by
  induction path with
  | refl => exact linked
  | tail _ change ih => exact change.classChange.linked ih

end Graph

end DocGraph
