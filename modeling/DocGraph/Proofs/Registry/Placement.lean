import DocGraph.Proofs.Registry.Registered

namespace DocGraph.Graph

open Dotted (IsSegment)

variable {g : Graph} {id parent : EntityId} {e : Entity}

theorem above_fresh (rooted : g.Rooted) (above : e.parent ≠ some ⟨g.size⟩) {lower : EntityId}
    (below : (g.alloc e).1.Above ⟨g.size⟩ lower) : lower = ⟨g.size⟩ := by
  rcases Relation.ReflTransGen.cases_head below with equal | ⟨child, first, _⟩
  · exact equal.symm
  · rw [IsParent, entity_alloc] at first
    split at first
    · exact absurd first above
    · exact absurd (rooted.parentHas first) g.not_has_fresh

theorem fullName_alloc (rooted : g.Rooted) (rootedAfter : (g.alloc e).1.Rooted) (inside : g.Has id) :
    (g.alloc e).1.fullName id = g.fullName id := by
  have same {upper : EntityId} (above : g.Above upper id) :
      (g.alloc e).1.entity upper = g.entity upper :=
    entity_alloc_of_has _ _ (above.has rooted inside)
  exact fullName_eq_of_above rooted rootedAfter inside ((g.has_alloc e id).mpr (.inl inside))
    (fun _ above => by rw [same above]) (fun _ above => by rw [same above])

theorem complete_alloc {loose : Option EntityId} (complete : g.Complete none) (empty : e.contents = {})
    (left : ∀ {parent}, e.parent = some parent → loose = some ⟨g.size⟩) :
    (g.alloc e).1.Complete loose := by
  intro owner child held unlike
  rw [get?_alloc empty]
  rw [IsParent, entity_alloc] at held
  rw [entity_alloc]
  by_cases fresh : child = ⟨g.size⟩
  · rw [if_pos fresh] at held
    exact absurd (fresh ▸ left held) unlike
  · rw [if_neg fresh] at held ⊢
    exact complete _ _ held (by simp)

theorem registered_alloc (rooted : g.Rooted) (registered : g.Registered none)
    (above : e.parent = some parent) (inside : g.Has parent) (empty : e.contents = {}) :
    (g.alloc e).1.Registered (some ⟨g.size⟩) := by
  have rootedAfter := rooted_alloc rooted above inside
  have unlike : e.parent ≠ some ⟨g.size⟩ := by
    rintro equal
    rw [above] at equal
    exact g.not_has_fresh (Option.some.inj equal ▸ inside)
  refine ⟨complete_alloc registered.complete empty fun _ => rfl, ?_, fun name id => ?_⟩
  · intro left right _ _ rootLeft rootRight
    have old {id : EntityId} (has : (g.alloc e).1.Has id)
        (root : ((g.alloc e).1.entity id).parent = none) : g.Has id := by
      rcases (g.has_alloc e id).mp has with old | fresh
      · exact old
      · rw [entity_alloc, if_pos fresh, above] at root
        cases root
    have hasLeft := old ‹_› rootLeft
    have hasRight := old ‹_› rootRight
    rw [entity_alloc_of_has _ _ hasLeft] at rootLeft ⊢
    rw [entity_alloc_of_has _ _ hasRight] at rootRight ⊢
    exact registered.rootsApart left right hasLeft hasRight rootLeft rootRight
  · rw [lookup, index_alloc]
    refine (registered.index name id).trans ⟨?_, ?_⟩
    · rintro ⟨has, named, _⟩
      refine ⟨(g.has_alloc e id).mpr (.inl has), (fullName_alloc rooted rootedAfter has).trans named, ?_⟩
      rintro _ ⟨⟩ below
      exact g.not_has_fresh (above_fresh rooted unlike below ▸ has)
    · rintro ⟨has, named, outside⟩
      rcases (g.has_alloc e id).mp has with old | fresh
      · exact ⟨old, (fullName_alloc rooted rootedAfter old).symm.trans named, by simp⟩
      · exact absurd (fresh ▸ Relation.ReflTransGen.refl) (outside _ rfl)

theorem registered_declare (rooted : g.Rooted) (tabled : g.Tabled) (registered : g.Registered none)
    (segmented : (g.alloc e).1.Segmented) (above : e.parent = some parent) (inside : g.Has parent)
    (empty : e.contents = {}) : ((g.alloc e).1.attach parent ⟨g.size⟩).Registered none := by
  refine registered_attach (rooted_alloc rooted above inside) (tabled_alloc tabled empty) segmented
    (unlisted_alloc tabled empty) ?_ (registered_alloc rooted registered above inside empty)
  rw [IsParent, entity_alloc, if_pos rfl, above]

theorem rootsApart_alloc_root (rootsApart : g.RootsApart)
    (free : ∀ id, g.Has id → (g.entity id).parent = none → (g.entity id).name ≠ e.name) :
    (g.alloc e).1.RootsApart := by
  intro left right hasLeft hasRight rootLeft rootRight equal
  rw [entity_alloc] at rootLeft rootRight
  rw [entity_alloc, entity_alloc] at equal
  have old {id : EntityId} (inside : (g.alloc e).1.Has id) (unlike : id ≠ ⟨g.size⟩) : g.Has id :=
    ((g.has_alloc e id).mp inside).resolve_right unlike
  by_cases freshLeft : left = ⟨g.size⟩
  · by_cases freshRight : right = ⟨g.size⟩
    · rw [freshLeft, freshRight]
    · rw [if_pos freshLeft, if_neg freshRight] at equal
      rw [if_neg freshRight] at rootRight
      exact absurd equal.symm (free right (old hasRight freshRight) rootRight)
  · rw [if_neg freshLeft] at rootLeft equal
    by_cases freshRight : right = ⟨g.size⟩
    · rw [if_pos freshRight] at equal
      exact absurd equal (free left (old hasLeft freshLeft) rootLeft)
    · rw [if_neg freshRight] at rootRight equal
      exact rootsApart left right (old hasLeft freshLeft) (old hasRight freshRight) rootLeft rootRight equal

/-- A new entity without a parent, under a name that no such entity has. -/
theorem registered_root (rooted : g.Rooted) (tabled : g.Tabled) (registered : g.Registered none)
    (segmented : (g.alloc e).1.Segmented) (root : e.parent = none) (empty : e.contents = {})
    (free : ∀ id, g.Has id → (g.entity id).parent = none → (g.entity id).name ≠ e.name)
    (roots : List EntityId) :
    (({ (g.alloc e).1 with roots } : Graph).register ⟨g.size⟩).Registered none := by
  have same : SameTree (g.alloc e).1 { (g.alloc e).1 with roots } := SameTree.of_entities rfl
  have lookup (name : String) : ({ (g.alloc e).1 with roots } : Graph).lookup name = g.lookup name := rfl
  generalize ({ (g.alloc e).1 with roots } : Graph) = h at *
  have rootedMiddle := rooted_alloc_root rooted root
  have rootedAfter := same.rooted rootedMiddle
  have tabledAfter := same.tabled (tabled_alloc tabled empty)
  have has (id : EntityId) : h.Has id ↔ g.Has id ∨ id = ⟨g.size⟩ := same.has.trans (g.has_alloc e id)
  have fullName {id : EntityId} (old : g.Has id) : h.fullName id = g.fullName id :=
    (same.fullName id).trans (fullName_alloc rooted rootedMiddle old)
  have freshHas : h.Has ⟨g.size⟩ := (has _).mpr (.inr rfl)
  rw [register]
  refine registered_foldl_registerOne rootedAfter (same.segmented segmented) ?_
    (same.rootsApart (rootsApart_alloc_root registered.rootsApart free)) ?_ ?_ ?_
  · refine same.complete (complete_alloc registered.complete empty ?_)
    intro parent above
    rw [root] at above
    cases above
  · exact fun id => has_of_mem_subtree tabledAfter freshHas
  · intro id inside outside
    have unlike : id ≠ ⟨g.size⟩ := by
      rintro rfl
      exact outside ((mem_subtree rootedAfter tabledAfter freshHas).mpr Relation.ReflTransGen.refl)
    have old := ((has id).mp inside).resolve_right unlike
    rw [lookup, fullName old]
    exact (registered.index _ id).mpr ⟨old, rfl, by simp⟩
  · intro name id found
    rw [lookup] at found
    obtain ⟨old, named, _⟩ := (registered.index name id).mp found
    exact ⟨(has id).mpr (.inl old), (fullName old).trans named⟩

section uproot

variable {oldParent newParent : EntityId} {newName : String}

theorem above_uproot (rooted : g.Rooted) (held : g.IsParent oldParent id)
    (outside : ¬ g.Above id newParent) (lower : EntityId) :
    (g.uproot id oldParent newParent (g.entity id).name newName).Above id lower ↔ g.Above id lower := by
  constructor
  · intro above
    induction above with
    | refl => exact Relation.ReflTransGen.refl
    | @tail middle lower _ last ih =>
        rw [IsParent, parent_uproot rooted held] at last
        split at last
        · exact absurd (Option.some.inj last ▸ ih) outside
        · exact Relation.ReflTransGen.tail ih last
  · intro above
    induction above with
    | refl => exact Relation.ReflTransGen.refl
    | @tail middle lower before last ih =>
        refine Relation.ReflTransGen.tail ih ?_
        rw [IsParent, parent_uproot rooted held, if_neg]
        · exact last
        · rintro rfl
          exact rooted.not_above_parent last before

theorem differsAt_uproot (rooted : g.Rooted) (held : g.IsParent oldParent id) :
    DiffersAt g (g.uproot id oldParent newParent (g.entity id).name newName) id := by
  refine ⟨fun other => has_uproot, fun unlike => ?_, fun unlike => ?_, ?_⟩
  · rw [entity_uproot rooted held, if_neg unlike]
    split <;> rfl
  · rw [entity_uproot rooted held, if_neg unlike]
    split <;> rfl
  · simp [entity_uproot rooted held]

theorem registered_uproot (rooted : g.Rooted) (tabled : g.Tabled) (registered : g.Registered none)
    (held : g.IsParent oldParent id) (outside : ¬ g.Above id newParent) (inside : g.Has newParent) :
    (g.uproot id oldParent newParent (g.entity id).name newName).Registered (some id) := by
  have rootedAfter : (g.uproot id oldParent newParent (g.entity id).name newName).Rooted :=
    rooted_uproot rooted held outside inside
  have above (other : EntityId) :
      (g.uproot id oldParent newParent (g.entity id).name newName).Above id other ↔ g.Above id other :=
    above_uproot rooted held outside other
  have differs : DiffersAt g (g.uproot id oldParent newParent (g.entity id).name newName) id :=
    differsAt_uproot rooted held
  have tables {owner other : EntityId} {key : String}
      (found : (g.entity owner).contents.get? key = some other) (unlike : other ≠ id) :
      ((g.uproot id oldParent newParent (g.entity id).name newName).entity owner).contents.get? key =
        some other :=
    (get?_uproot rooted tabled held (registered.complete _ _ held (by simp))).mpr ⟨found, unlike⟩
  have lookup (name : String) :
      (g.uproot id oldParent newParent (g.entity id).name newName).lookup name =
        (g.unregister id).lookup name := rfl
  generalize g.uproot id oldParent newParent (g.entity id).name newName = h at *
  refine ⟨?_, differs.rootsApart registered.rootsApart, fun name other => ?_⟩
  · intro owner child holding unlike
    have apart : child ≠ id := fun equal => unlike (equal ▸ rfl)
    rw [IsParent, differs.parent apart] at holding
    rw [differs.name apart]
    exact tables (registered.complete _ _ holding (by simp)) apart
  · rw [lookup, lookup_unregister rooted tabled (g.has_of_parent held) registered.complete (by simp),
      registered.index]
    constructor
    · rintro ⟨⟨old, named, _⟩, kept⟩
      have apart : ¬ g.Above id other := fun below => kept ⟨below, named⟩
      refine ⟨(differs.has other).mpr old, (differs.fullName rooted rootedAfter old apart).trans named, ?_⟩
      rintro _ ⟨⟩
      rwa [above]
    · rintro ⟨inside, named, apart⟩
      have old := (differs.has other).mp inside
      have apart := (above other).not.mp (apart id rfl)
      exact ⟨⟨old, (differs.fullName rooted rootedAfter old apart).symm.trans named, by simp⟩,
        fun both => apart both.1⟩

end uproot

end DocGraph.Graph
