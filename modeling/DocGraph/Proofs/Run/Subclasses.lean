import DocGraph.Proofs.Run.Trace

namespace DocGraph.Graph

variable {g h : Graph} {id base : EntityId}

/-- The graphs differ in subclasses that were added, and in nothing else that concerns classes. -/
structure Linking (g h : Graph) : Prop where
  overlaid : Overlaid g h
  bases : ∀ id, (h.entity id).baseLists = (g.entity id).baseLists
  subclasses : ∀ id, (g.entity id).subclasses <+: (h.entity id).subclasses

namespace Linking

theorem refl (g : Graph) : Linking g g :=
  ⟨(Retouched.refl g).overlaid, fun _ => rfl, fun _ => List.prefix_refl _⟩

theorem trans {k : Graph} (first : Linking g h) (second : Linking h k) : Linking g k :=
  ⟨first.overlaid.trans second.overlaid, fun id => (second.bases id).trans (first.bases id),
    fun id => (first.subclasses id).trans (second.subclasses id)⟩

theorem basesOf (linking : Linking g h) (id : EntityId) : h.basesOf id = g.basesOf id := by
  rw [basesOf_eq, basesOf_eq, linking.bases]

theorem mem_subclasses (linking : Linking g h) (listed : id ∈ (g.entity base).subclasses) :
    id ∈ (h.entity base).subclasses :=
  (linking.subclasses base).subset listed

end Linking

theorem linking_linkSubclass (g : Graph) (id base : EntityId) : Linking g (linkSubclass id g base).1 := by
  rcases linkSubclass_cases g id base with equal | ⟨isClass, _, equal⟩
  · rw [equal]
    exact .refl g
  · obtain ⟨info, found⟩ := Option.isSome_iff_exists.mp ((g.entity base).class?_isSome.mpr isClass)
    rw [equal]
    refine ⟨overlaid_modify base fun e => e.overlaid_modifyClass _,
      baseLists_modify_of_kept (by intro; rfl), fun other => ?_⟩
    rw [subclasses_modify_modifyClass]
    split
    · rename_i same
      simp [same, Entity.subclasses, found]
    · exact List.prefix_refl _

theorem linking_linkSubclasses (g : Graph) (id : EntityId) : Linking g (g.linkSubclasses id).1 :=
  tally_related .refl .trans (fun g base => linking_linkSubclass g id base) _ g

theorem mem_linkSubclass (isClass : (g.entity base).type = .class) :
    id ∈ ((linkSubclass id g base).1.entity base).subclasses := by
  obtain ⟨info, found⟩ := Option.isSome_iff_exists.mp ((g.entity base).class?_isSome.mpr isClass)
  by_cases listed : id ∈ info.subclasses
  · simp [linkSubclass, found, listed, Entity.subclasses]
  · simp only [linkSubclass, found, if_neg listed]
    rw [subclasses_modify_modifyClass, if_pos rfl, found]
    simp

theorem mem_linkSubclasses (among : base ∈ g.basesOf id) (isClass : (g.entity base).type = .class) :
    id ∈ ((g.linkSubclasses id).1.entity base).subclasses := by
  refine tally_establishes
    (p := fun base k => (g.entity base).type = .class → id ∈ (k.entity base).subclasses) .refl .trans
    (fun g base => linking_linkSubclass g id base)
    (fun linking listed isClass => linking.mem_subclasses (listed isClass))
    (fun k linking base _ isClass => mem_linkSubclass ?_) base among isClass
  rw [(linking.overlaid.entity base).type, isClass]

theorem mem_tally_linkSubclasses {classes : List EntityId} (member : id ∈ classes)
    (among : base ∈ g.basesOf id) (isClass : (g.entity base).type = .class) :
    id ∈ ((tally linkSubclasses classes g).1.entity base).subclasses := by
  refine tally_establishes
    (p := fun id k => ∀ base ∈ g.basesOf id, (g.entity base).type = .class →
      id ∈ (k.entity base).subclasses)
    .refl .trans linking_linkSubclasses
    (fun linking listed base among isClass => linking.mem_subclasses (listed base among isClass))
    (fun k linking id _ base among isClass => ?_) id member base among isClass
  rw [← linking.basesOf] at among
  rw [← (linking.overlaid.entity base).type] at isClass
  exact mem_linkSubclasses among isClass

theorem overlaid_upgradeBases (g : Graph) (id : EntityId) : Overlaid g (g.upgradeBases id).1 :=
  (Touch.upgrade id).overlaid

namespace Stages

variable {resumed upgraded linked ordered : Graph} {s : Summary}
  (stages : Stages g resumed upgraded linked ordered h s)

include stages

theorem mem_subclasses_of_mem_basesOf (among : base ∈ h.basesOf id)
    (isClass : (h.entity base).type = .class) : id ∈ (h.entity base).subclasses := by
  have upgrading := tally_related (fun g => (Retouched.refl g).overlaid) .trans overlaid_upgradeBases
    (resumed.idsOfType .class) resumed
  have linking := tally_related .refl .trans linking_linkSubclasses (resumed.idsOfType .class) upgraded
  rw [stages.upgrade] at upgrading
  rw [stages.link] at linking
  have bases : h.basesOf id = upgraded.basesOf id := by
    rw [basesOf_eq, (stages.described.entity id).baseLists, ← basesOf_eq, linking.basesOf]
  have type (id : EntityId) : (h.entity id).type = (upgraded.entity id).type :=
    (stages.described.entity id).type.trans (linking.overlaid.entity id).type
  rw [bases] at among
  rw [type] at isClass
  have own : (resumed.entity id).type = .class := by
    rw [← (upgrading.entity id).type, ← Entity.class?_isSome]
    by_contra missing
    simp [basesOf, Entity.bases_eq, Option.not_isSome_iff_eq_none.mp missing] at among
  have member : id ∈ resumed.idsOfType .class :=
    resumed.mem_idsOfType.mpr ⟨resumed.has_of_type (by rw [own]; decide), own⟩
  have listed := mem_tally_linkSubclasses member among isClass
  rw [stages.link] at listed
  rw [(stages.described.entity base).subclasses]
  exact listed

theorem mem_subclasses (sound : g.Sound) (isLinked : g.Linked) :
    id ∈ (h.entity base).subclasses ↔ base ∈ h.basesOf id := by
  have linkedBehind := (stages.path sound).linked isLinked
  exact ⟨linkedBehind.bases, fun among =>
    stages.mem_subclasses_of_mem_basesOf among (linkedBehind.classes among).2⟩

end Stages

theorem run_inheritance (options : Options) (calls : List Call)
    (admits : (empty options).Admits calls) :
    (∃ states, Trace (empty options) calls states) ∧
    (∀ states, Trace (empty options) calls states →
      (∀ state ∈ states, state.Linked ∧ ∀ id, (state.entity id).baseLists.Aligned ∧
        ∀ base ∈ (state.entity id).baseLists.unknown,
          base.1 < (state.entity id).baseLists.names.length ∧ base.1 < (state.entity id).baseLists.targets.length) ∧
      states.Pairwise fun before behind => ∀ id, Inherits (before.entity id) (behind.entity id)) ∧
    ∀ h s, (run (empty options) calls).finish = .ok (h, s) →
      ∀ id base, id ∈ (h.entity base).subclasses ↔ base ∈ h.basesOf id := by
  have sound := sound_empty options
  have linked := linked_empty options
  refine ⟨exists_trace sound admits, fun states trace => ⟨fun state member => ⟨?_, fun id => ?_⟩, ?_⟩,
    fun h s finished id base => ?_⟩
  · exact (trace.path_state member).linked linked
  · have aligned := ((trace.path_state member).sound sound).aligned id
    exact ⟨aligned, fun base => aligned.lt_of_unknown⟩
  · exact trace.pairwise.imp fun path id => path.inherits id
  · have path := path_run sound admits
    obtain ⟨resumed, upgraded, linked', ordered, stages⟩ := finish_stages finished
    exact stages.mem_subclasses (path.sound sound) (path.linked linked)

/-- The class that was moved is listed under the one that lost its name. -/
theorem run_duplicateMoved_inheritance :
    (empty {}).Admits duplicateMoved ∧ ∃ h s, (run (empty {}) duplicateMoved).finish = .ok (h, s) ∧
      (h.basesOf ⟨4⟩ = [⟨2⟩] ∧ (⟨4⟩ ∈ (h.entity ⟨2⟩).subclasses ↔ ⟨2⟩ ∈ h.basesOf ⟨4⟩)) := by
  have admits : (empty {}).Admits duplicateMoved :=
    ⟨trivial, trivial, Hook.describes_standard, Hook.describes_standard, trivial, trivial⟩
  have bases : ((run (empty {}) duplicateMoved).finish.map fun finished =>
      finished.1.basesOf ⟨4⟩).toOption = some [⟨2⟩] := by decide +kernel
  cases finished : (run (empty {}) duplicateMoved).finish with
  | error refusal =>
      rw [finished] at bases
      cases bases
  | ok result =>
      rw [finished] at bases
      exact ⟨admits, result.1, result.2, rfl, Option.some.inj bases,
        (run_inheritance {} duplicateMoved admits).2.2 _ _ finished _ _⟩

end DocGraph.Graph
