import DocGraph.Proofs.Run.InTable
import DocGraph.Proofs.Names.Denotation

namespace DocGraph.Graph

open Dotted (IsSegment)

variable {g h : Graph} {id oldParent target top parent lower left right : EntityId} {name : String}

theorem LockStep.tabled (lockStep : g.LockStep) : g.Tabled :=
  ⟨lockStep.listed, fun found => (lockStep.bound _ _ _).mp found⟩

theorem LockStep.registered (lockStep : g.LockStep) : g.Registered none := by
  refine ⟨fun parent child held _ => (lockStep.bound _ _ _).mpr ⟨held, rfl⟩, ?_, fun name id => ?_⟩
  · intro left right insideLeft insideRight rootLeft rootRight same
    refine lockStep.fullName left right insideLeft insideRight ?_
    rw [fullName_of_root lockStep.rooted insideLeft rootLeft,
      fullName_of_root lockStep.rooted insideRight rootRight, same]
  · rw [lockStep.index]
    simp

/-- The names on the way from `top` down to an entity below it, that of `top` left out. -/
def namesBelow (g : Graph) (top id : EntityId) : List String :=
  (((g.ancestors id).takeWhile (· ≠ top)).map fun ancestor => (g.entity ancestor).name).reverse

theorem namesBelow_self (rooted : g.Rooted) (inside : g.Has top) : g.namesBelow top top = [] := by
  cases above : (g.entity top).parent with
  | none => simp [namesBelow, ancestors_of_root rooted inside above]
  | some parent => simp [namesBelow, ancestors_of_child rooted above]

theorem namesBelow_of_child (rooted : g.Rooted) (held : g.IsParent parent id) (apart : id ≠ top) :
    g.namesBelow top id = g.namesBelow top parent ++ [(g.entity id).name] := by
  simp [namesBelow, ancestors_of_child rooted held, apart]

theorem Above.has_below (above : g.Above top lower) (inside : g.Has top) : g.Has lower := by
  rcases Relation.ReflTransGen.cases_tail above with rfl | ⟨_, _, last⟩
  · exact inside
  · exact g.has_of_parent last

theorem Above.ne_of_child (rooted : g.Rooted) (above : g.Above top parent) (held : g.IsParent parent id) :
    id ≠ top := by
  rintro rfl
  exact rooted.not_above_parent held above

theorem DiffersAt.refl (g : Graph) (held : g.IsParent parent top) : DiffersAt g g top :=
  ⟨fun _ => .rfl, fun _ => rfl, fun _ => rfl, by rw [held]; simp⟩

theorem DiffersAt.fullName_below (differs : DiffersAt g h top) (rooted : g.Rooted) (rootedAfter : h.Rooted)
    (inside : g.Has top) (above : g.Above top lower) :
    h.fullName lower = Dotted.join (h.fullName top :: g.namesBelow top lower) := by
  induction above with
  | refl => simp [namesBelow_self rooted inside, Dotted.join]
  | @tail middle lower before last ih =>
      have apart := Above.ne_of_child rooted before last
      have held : h.IsParent middle lower := (differs.parent apart).trans last
      rw [fullName_of_child rootedAfter held, differs.name apart, ih, namesBelow_of_child rooted last apart,
        ← List.cons_append, Dotted.join_concat (List.cons_ne_nil _ _)]

/-- The graph behind a move of an entity to a free name: tree and index are in lock step as before, every
other entity has its name and parent, and the old parent has an alias to the new place. -/
structure Relocated (g h : Graph) (id oldParent target : EntityId) (name : String) : Prop where
  held : g.IsParent oldParent id
  inside : g.Has target
  outside : ¬ g.Above id target
  free : (g.entity target).contents.get? name = none
  placed : h.IsParent target id
  named : (h.entity id).name = name
  differs : DiffersAt g h id
  rooted : h.Rooted
  tabled : h.Tabled
  segmented : h.Segmented
  registered : h.Registered none
  forward : (h.entity oldParent).aliases[(g.entity id).name]? = some (h.fullName id)

theorem name_attach_of_free (unlisted : g.Unlisted id)
    (free : (g.entity target).contents.get? (g.entity id).name = none) (other : EntityId) :
    ((g.attach target id).entity other).name = (g.entity other).name := by
  rcases attach_cases g target id unlisted with ⟨_, bound⟩ | ⟨previous, _, _, _, _, found, _⟩
  · rw [bound, entity_congr (entities_register _ _), name_bindChild]
  · rw [free] at found
    cases found

theorem relocated_of_move (lockStep : g.LockStep) (segmented : g.Segmented) (inside : g.Has target)
    (whole : IsSegment name) (free : (g.entity target).contents.get? name = none)
    (moved : g.move id target name = .ok h) : ∃ oldParent, Relocated g h id oldParent target name := by
  have rooted := lockStep.rooted
  have tabled := lockStep.tabled
  rcases move_cases moved with ⟨_, held, named⟩ | ⟨oldParent, held, _, _, outside, equal⟩
  · rw [(lockStep.bound _ _ _).mpr ⟨held, named⟩] at free
    cases free
  have apart : ¬ g.Above id target := by
    rw [← isAncestor_iff rooted inside, outside]
    simp
  have differs : DiffersAt g (g.uproot id oldParent target (g.entity id).name name) id :=
    differsAt_uproot rooted held
  have named : ((g.uproot id oldParent target (g.entity id).name name).entity id).name = name := by
    rw [entity_uproot rooted held, if_pos rfl]
  have above : (g.uproot id oldParent target (g.entity id).name name).IsParent target id := by
    rw [IsParent, parent_uproot rooted held, if_pos rfl]
  have unbound : ((g.uproot id oldParent target (g.entity id).name name).entity target).contents.get? name =
      none := by
    rw [contents_uproot rooted held]
    split
    · rfl
    · exact free
  have unlisted : (g.uproot id oldParent target (g.entity id).name name).Unlisted id :=
    unlisted_uproot rooted tabled held
  have rootedMiddle : (g.uproot id oldParent target (g.entity id).name name).Rooted :=
    rooted_uproot rooted held apart inside
  have tabledMiddle : (g.uproot id oldParent target (g.entity id).name name).Tabled :=
    tabled_uproot rooted tabled held
  have registeredMiddle : (g.uproot id oldParent target (g.entity id).name name).Registered (some id) :=
    registered_uproot rooted tabled lockStep.registered held apart inside
  generalize g.uproot id oldParent target (g.entity id).name name = u at *
  have arranged := arranged_attach u target id
  have names := name_attach_of_free unlisted (named.symm ▸ unbound)
  have tabledAfter := tabled_attach rootedMiddle tabledMiddle unlisted above
  have registeredAfter := registered_attach rootedMiddle tabledMiddle
    (differs.segmented (named ▸ whole) segmented) unlisted above registeredMiddle
  have parents (other : EntityId) : ((u.attach target id).entity other).parent = (u.entity other).parent :=
    arranged.read Entity.parent (fun _ _ _ => rfl) other
  have rootedAfter := arranged.rooted rootedMiddle
  have has (other : EntityId) : (u.attach target id).Has other ↔ g.Has other :=
    arranged.has.trans (differs.has other)
  generalize u.attach target id = k at *
  have touched : Touch k h := equal ▸ .bind _ _ _
  have same := touched.overlaid.sameTree
  have differsAfter : DiffersAt g h id := (differs.congr (fun _ => arranged.has) names parents).congr
    (fun _ => same.has) same.name same.parent
  have namedAfter : (h.entity id).name = name := by rw [same.name, names, named]
  refine ⟨oldParent, held, inside, apart, free, ?_, namedAfter, differsAfter, same.rooted rootedAfter,
    same.tabled tabledAfter, differsAfter.segmented (namedAfter ▸ whole) segmented,
    touched.registered registeredAfter, ?_⟩
  · rw [IsParent, same.parent, parents]
    exact above
  · rw [same.fullName, equal, entity_modify_self _ _ _ ((has oldParent).mpr (rooted.parentHas held)),
      Entity.bindAlias, NameMap.get_insert, if_pos rfl]

namespace Relocated

variable (relocated : Relocated g h id oldParent target name)

include relocated

theorem has_moved : g.Has id := g.has_of_parent relocated.held

theorem lookup_fullName (inside : g.Has lower) : h.lookup (h.fullName lower) = some lower :=
  (relocated.registered.index _ _).mpr ⟨(relocated.differs.has lower).mpr inside, rfl, by simp⟩

theorem heldAfter (rooted : g.Rooted) (above : g.Above id parent) (held : g.IsParent parent lower) :
    h.IsParent parent lower ∧ (h.entity lower).name = (g.entity lower).name := by
  have apart := Above.ne_of_child rooted above held
  exact ⟨(relocated.differs.parent apart).trans held, relocated.differs.name apart⟩

theorem fullName_outside (rooted : g.Rooted) (inside : g.Has lower) (outside : ¬ g.Above id lower) :
    h.fullName lower = g.fullName lower :=
  relocated.differs.fullName rooted relocated.rooted inside outside

theorem fullName_moved (rooted : g.Rooted) : h.fullName id = Dotted.extend (g.fullName target) name := by
  rw [fullName_of_child relocated.rooted relocated.placed, relocated.named,
    relocated.fullName_outside rooted relocated.inside relocated.outside]

theorem fullName_oldParent (rooted : g.Rooted) : h.fullName oldParent = g.fullName oldParent :=
  relocated.fullName_outside rooted (rooted.parentHas relocated.held) (rooted.not_above_parent relocated.held)

variable (lockStep : g.LockStep)

include lockStep

theorem not_repeated : ¬ (target = oldParent ∧ name = (g.entity id).name) := by
  rintro ⟨rfl, rfl⟩
  have bound := (lockStep.bound target id _).mpr ⟨relocated.held, rfl⟩
  rw [relocated.free] at bound
  cases bound

variable (segmented : g.Segmented)

include segmented

theorem fullName_ne (below : g.Above id left) (also : g.Above id right) : h.fullName left ≠ g.fullName right := by
  have rooted := lockStep.rooted
  have held := relocated.held
  have whole {upper lower : EntityId} (above : g.IsParent upper lower) : IsSegment (g.entity lower).name :=
    segmented lower (g.has_of_parent above)
  induction below generalizing right with
  | refl =>
      intro same
      rw [relocated.fullName_moved rooted] at same
      have wholeNew : IsSegment name :=
        relocated.named ▸ relocated.segmented id (h.has_of_parent relocated.placed)
      rcases Relation.ReflTransGen.cases_tail also with rfl | ⟨middle, before, last⟩
      · rw [fullName_of_child rooted held] at same
        obtain ⟨above, own⟩ := Dotted.extend_injective wholeNew (whole held) same
        exact relocated.not_repeated lockStep
          ⟨lockStep.fullName _ _ relocated.inside (rooted.parentHas held) above, own⟩
      · rw [fullName_of_child rooted last] at same
        obtain ⟨above, _⟩ := Dotted.extend_injective wholeNew (whole last) same
        exact relocated.outside (lockStep.fullName _ _ relocated.inside (rooted.parentHas last) above ▸ before)
  | @tail upper left before last ih =>
      intro same
      obtain ⟨heldAfter, named⟩ := relocated.heldAfter rooted before last
      rw [fullName_of_child relocated.rooted heldAfter, named] at same
      rcases Relation.ReflTransGen.cases_tail also with rfl | ⟨middle, beforeRight, lastRight⟩
      · rw [fullName_of_child rooted held] at same
        obtain ⟨above, _⟩ := Dotted.extend_injective (whole last) (whole held) same
        -- No entity but the old parent has its full name now, and it does not stand below the entity.
        rw [← relocated.fullName_oldParent rooted] at above
        obtain rfl := fullName_injective relocated.rooted relocated.segmented relocated.registered.complete
          relocated.registered.rootsApart (relocated.rooted.parentHas heldAfter)
          ((relocated.differs.has _).mpr (rooted.parentHas held)) above
        exact rooted.not_above_parent held before
      · rw [fullName_of_child rooted lastRight] at same
        exact ih beforeRight (Dotted.extend_injective (whole last) (whole lastRight) same).1

theorem lookup_old (below : g.Above id lower) : h.lookup (g.fullName lower) = none := by
  refine Option.eq_none_iff_forall_ne_some.mpr fun found listed => ?_
  obtain ⟨has, same, _⟩ := (relocated.registered.index _ _).mp listed
  by_cases also : g.Above id found
  · exact relocated.fullName_ne lockStep segmented also below same
  · have inside := (relocated.differs.has found).mp has
    rw [relocated.fullName_outside lockStep.rooted inside also] at same
    exact also (lockStep.fullName _ _ inside (below.has_below relocated.has_moved) same ▸ below)

omit segmented in
theorem unbound_old : (h.entity oldParent).contents.get? (g.entity id).name = none := by
  refine Option.eq_none_iff_forall_ne_some.mpr fun child bound => ?_
  obtain ⟨above, named⟩ := relocated.tabled.bound bound
  by_cases own : child = id
  · subst own
    exact relocated.not_repeated lockStep
      ⟨Option.some.inj (relocated.placed.symm.trans above), relocated.named.symm.trans named⟩
  · rw [IsParent, relocated.differs.parent own] at above
    rw [relocated.differs.name own] at named
    have both := (lockStep.bound oldParent child _).mpr ⟨above, named⟩
    rw [(lockStep.bound oldParent id _).mpr ⟨relocated.held, rfl⟩] at both
    exact own (Option.some.inj both).symm

/-- The old full names denote what they did: the alias leads to the moved entity, and from there the tables
lead on. -/
theorem denotes_old (below : g.Above id lower) :
    h.Denotes ((g.namesBelow id lower).length + 1) (g.fullName lower) lower := by
  have rooted := lockStep.rooted
  have held := relocated.held
  induction below with
  | refl =>
      have listed := relocated.lookup_fullName (rooted.parentHas held)
      rw [relocated.fullName_oldParent rooted] at listed
      have onward := relocated.lookup_fullName relocated.has_moved
      rw [namesBelow_self rooted relocated.has_moved]
      exact .aliased (relocated.lookup_old lockStep segmented .refl) (fullName_of_child rooted held)
        (segmented id relocated.has_moved) (.registered listed) (relocated.unbound_old lockStep)
        relocated.forward (relocated.fullName_ne lockStep segmented .refl .refl) (.registered onward)
  | @tail middle lower before last ih =>
      obtain ⟨heldAfter, named⟩ := relocated.heldAfter rooted before last
      have bound := relocated.registered.complete _ _ heldAfter (by simp)
      rw [named] at bound
      rw [namesBelow_of_child rooted last (Above.ne_of_child rooted before last), List.length_append,
        List.length_singleton]
      exact .child (relocated.lookup_old lockStep segmented (before.tail last)) (fullName_of_child rooted last)
        (segmented lower (g.has_of_parent last)) ih bound

end Relocated

theorem options_move (moved : g.move id target name = .ok h) : h.options = g.options := by
  rcases move_cases moved with ⟨rfl, _⟩ | ⟨oldParent, _, _, _, _, rfl⟩
  · rfl
  · rw [options_modify, (arranged_attach _ target id).options]
    exact (arranged_unregister g id).options

/-- A move to a free name, which is never a repeated one. An entity stands below itself. -/
theorem move_references (lockStep : g.LockStep) (segmented : g.Segmented) (inside : g.Has target)
    (whole : IsSegment name) (free : (g.entity target).contents.get? name = none)
    (moved : g.move id target name = .ok h) :
    h.fullName id = Dotted.extend (h.fullName target) name ∧
      (∀ lower, g.isAncestor id lower = true →
        g.fullName lower = Dotted.join (g.fullName id :: g.namesBelow id lower) ∧
        h.lookup (Dotted.join (h.fullName id :: g.namesBelow id lower)) = some lower ∧
        h.lookup (g.fullName lower) = none ∧
        ((g.namesBelow id lower).length + 1 ≤ g.options.maxAliasDepth →
          h.resolve (g.fullName lower) = some lower)) ∧
      ∀ other, g.Has other → g.isAncestor id other = false →
        h.fullName other = g.fullName other ∧ (h.entity other).parent = (g.entity other).parent ∧
        (h.entity other).home = (g.entity other).home ∧ h.lookup (g.fullName other) = some other := by
  obtain ⟨oldParent, relocated⟩ := relocated_of_move lockStep segmented inside whole free moved
  have rooted := lockStep.rooted
  have differs := relocated.differs
  refine ⟨?_, fun lower ancestor => ?_, fun other has ancestor => ?_⟩
  · rw [relocated.fullName_moved rooted, relocated.fullName_outside rooted inside relocated.outside]
  · have below : g.Above id lower := above_of_mem_ancestorsFrom (List.contains_iff_mem.mp ancestor)
    have here : DiffersAt g g id := .refl g relocated.held
    refine ⟨here.fullName_below rooted rooted relocated.has_moved below, ?_,
      relocated.lookup_old lockStep segmented below, fun enough => ?_⟩
    · rw [← differs.fullName_below rooted relocated.rooted relocated.has_moved below]
      exact relocated.lookup_fullName (below.has_below relocated.has_moved)
    · exact (relocated.denotes_old lockStep segmented below).resolveWithin
        (Nat.lt_succ_of_le (options_move moved ▸ enough))
  · have apart : ¬ g.Above id other := by
      rw [← isAncestor_iff rooted has, ancestor]
      simp
    have kept := relocated.fullName_outside rooted has apart
    have unlike : other ≠ id := by
      rintro rfl
      exact apart .refl
    refine ⟨kept, differs.parent unlike, read_move moved Entity.home (fun _ _ _ _ _ _ => rfl) other, ?_⟩
    rw [← kept]
    exact relocated.lookup_fullName has

/-- A class with a class in it that has a method. -/
def nestedClasses : List Call :=
  [.addModule "a" false, .addModule "b" false,
    .build Hook.standard ⟨0⟩ (.ok
      { body :=
          [.classDef { name := "X", line := 1 }
            [.classDef { name := "I", line := 2 } [.function { name := "f", line := 3 } []]]] })]

theorem move_references_nestedClasses :
    ∃ h, (run (empty {}) nestedClasses).move ⟨2⟩ ⟨1⟩ "Y" = .ok h ∧ h.fullName ⟨2⟩ = "b.Y" ∧
      h.lookup "b.Y.I.f" = some ⟨4⟩ ∧ h.lookup "a.X.I.f" = none ∧ h.resolve "a.X.I.f" = some ⟨4⟩ ∧
      h.lookup "a" = some ⟨0⟩ := by
  have admits : (empty {}).Admits nestedClasses := ⟨trivial, trivial, Hook.describes_standard, trivial⟩
  have dotless : (run (empty {}) nestedClasses).Dotless := by decide +kernel
  have lockStep := (path_run (sound_empty {}) admits).lockStep (sound_empty {}) (registered_empty {}) dotless
  have accepted : ((run (empty {}) nestedClasses).move ⟨2⟩ ⟨1⟩ "Y").isOk = true := by decide +kernel
  cases moved : (run (empty {}) nestedClasses).move ⟨2⟩ ⟨1⟩ "Y" with
  | error refusal =>
      rw [moved] at accepted
      cases accepted
  | ok h =>
      obtain ⟨named, below, outside⟩ := move_references lockStep dotless.segmented (by decide +kernel)
        (by decide) (by decide +kernel) moved
      have old : (run (empty {}) nestedClasses).fullName ⟨4⟩ = "a.X.I.f" := by decide +kernel
      have names : (run (empty {}) nestedClasses).namesBelow ⟨2⟩ ⟨4⟩ = ["I", "f"] := by decide +kernel
      obtain ⟨_, found, freed, resolved⟩ := below ⟨4⟩ (by decide +kernel)
      obtain ⟨targetName, _⟩ := outside ⟨1⟩ (by decide +kernel) (by decide +kernel)
      obtain ⟨_, _, _, kept⟩ := outside ⟨0⟩ (by decide +kernel) (by decide +kernel)
      have here : (run (empty {}) nestedClasses).fullName ⟨1⟩ = "b" := by decide +kernel
      have there : (run (empty {}) nestedClasses).fullName ⟨0⟩ = "a" := by decide +kernel
      rw [targetName, here] at named
      rw [named, names] at found
      rw [old] at freed resolved
      rw [there] at kept
      exact ⟨h, rfl, named, found, freed, resolved (by rw [names]; decide +kernel), kept⟩

end DocGraph.Graph
