import DocGraph.Proofs.Names.Expansion

namespace DocGraph.Graph

open Dotted (IsSegment)

variable {g : Graph} {scope owner id : EntityId} {name dotted : String}

/-- All that stands above an entity is a module or a class. -/
def Open (g : Graph) (id : EntityId) : Prop :=
  ∀ upper ∈ (g.ancestors id).tail, (g.entity upper).isContainer = true

instance (g : Graph) (id : EntityId) : Decidable (g.Open id) := inferInstanceAs (Decidable (∀ _ ∈ _, _))

theorem Open.isContainer {upper : EntityId} (wide : g.Open id) (rooted : g.Rooted) (inside : g.Has id)
    (above : g.Above upper id) (apart : upper ≠ id) : (g.entity upper).isContainer = true := by
  have member := (mem_ancestors rooted inside).mpr above
  rw [ancestors_eq_cons inside] at member
  exact wide upper ((List.mem_cons.mp member).resolve_left apart)

theorem Open.parent (rooted : g.Rooted) (held : g.IsParent owner id) (wide : g.Open id) :
    (g.entity owner).isContainer = true ∧ g.Open owner := by
  have chain := ancestors_of_child rooted held
  rw [Open, chain, List.tail_cons, ancestors_eq_cons (rooted.parentHas held)] at wide
  exact ⟨wide owner List.mem_cons_self, fun upper member => wide upper (List.mem_cons_of_mem _ member)⟩

theorem LockStep.resolveIn_of_expand (lockStep : g.LockStep) (inside : g.Has id)
    (expanded : g.expand scope dotted = g.fullName id) : g.resolveIn scope dotted = some id := by
  rw [resolveIn, expanded]
  exact lockStep.resolve_fullName inside

/-- A name that expands to the full name of an entity leads to it, unless a function or an attribute stands
above the entity. -/
theorem leads_of_expand (lockStep : g.LockStep) (segmented : g.Segmented) (inside : g.Has id) (wide : g.Open id)
    (expanded : g.expand scope dotted = g.fullName id) : g.Leads scope (Dotted.parts dotted) id := by
  have resolved := lockStep.resolveIn_of_expand inside expanded
  rcases leads_or_stops lockStep segmented resolved with leads | ⟨owner, segment, stops, _⟩
  · exact leads
  -- What the expansion stopped at stands above the entity, so that it is a module or class.
  · obtain ⟨rest, wholly, whole, joined⟩ := stops.expand
    have listed := lockStep.lookup_fullName inside
    rw [← expanded, joined] at listed
    obtain ⟨child, shorter, below⟩ := lockStep.lookup_join segmented wholly listed
    obtain ⟨upper, above, bound⟩ := lockStep.lookup_extend segmented whole shorter
    obtain rfl := Option.some.inj ((lockStep.lookup_fullName (stops.has lockStep)).symm.trans above)
    have held : g.IsParent owner child := ((lockStep.bound _ _ _).mp bound).1
    have apart : owner ≠ id := by
      rintro rfl
      exact lockStep.rooted.not_above_parent held below
    have container := wide.isContainer lockStep.rooted inside (.head held below) apart
    exact absurd expanded (stops.own_alias lockStep segmented container resolved).2.2

/-- What a name stands for is an entity's full name exactly where the name denotes the entity. -/
theorem LockStep.fullName_eq_iff (lockStep : g.LockStep) (inside : g.Has id) :
    ((g.resolve name).map g.fullName).getD name = g.fullName id ↔ g.resolve name = some id := by
  cases resolved : g.resolve name with
  | some next =>
      rw [Option.map_some, Option.getD_some, Option.some.injEq]
      exact ⟨lockStep.fullName _ _ (lockStep.has_of_resolve resolved) inside, congrArg g.fullName⟩
  | none =>
      rw [Option.map_none, Option.getD_none]
      refine ⟨fun same => ?_, nofun⟩
      rw [same, lockStep.resolve_fullName inside] at resolved
      cases resolved

theorem type_of_find (found : g.find owner name = some id) : (g.entity owner).type = .class := by
  rw [← Entity.class?_isSome]
  unfold find at found
  split at found
  · cases found
  · rename_i info isClass
    rw [isClass]
    rfl

/-- Behind a class that a name leads to, a member the class does not bind is looked up in the scopes around the
class, and in the bases only where these do not bind it either. -/
theorem Leads.expand_extend (leads : g.Leads scope (Dotted.parts dotted) owner) (lockStep : g.LockStep)
    (whole : IsSegment name) (unbound : g.ownBinding? owner name = none) (found : g.find owner name = some id) :
    g.expand scope (Dotted.extend dotted name) =
      if g.nameAround owner name = name then g.fullName id
      else ((g.resolve (g.nameAround owner name)).map g.fullName).getD (g.nameAround owner name) := by
  have type := type_of_find found
  have around : g.localName owner name = g.nameAround owner name := by
    rw [localName_of_container (by simp [Entity.isContainer, type]), unbound, Option.getD_none, if_pos type]
  rw [Graph.expand, Dotted.parts_extend whole, leads.expandSegments, expandMembers]
  by_cases free : g.nameAround owner name = name
  · rw [reachMember_of_inherited lockStep whole (around.trans free) found, if_pos free]
    rfl
  · rw [reachMember_of_bound (around ▸ free), around, follow, if_neg free]
    cases g.resolve (g.nameAround owner name) with
    | some next => rfl
    | none => simp [Dotted.join]

theorem StopsAt.expand_extend {upper : EntityId} {segment : String} (stops : g.StopsAt scope dotted upper segment)
    (whole : IsSegment name) :
    g.expand scope (Dotted.extend dotted name) = Dotted.extend (g.expand scope dotted) name := by
  obtain ⟨front, rest, parts, leads, misses⟩ := stops
  have longer : Dotted.parts (Dotted.extend dotted name) = front ++ segment :: (rest ++ [name]) := by
    rw [Dotted.parts_extend whole, parts, List.append_assoc, List.cons_append]
  rw [Graph.expand, Graph.expand, longer, parts, leads.expandSegments, leads.expandSegments, expandMembers,
    expandMembers, reachMember_of_misses misses]
  exact Dotted.join_concat (List.cons_ne_nil _ rest) name

/-- What an inherited member's name expands to behind a name of the class. It is the full name of the member
where the name of the class leads to it and no scope around the class makes something else of the member's name. -/
theorem expand_inherited (lockStep : g.LockStep) (segmented : g.Segmented)
    (expanded : g.expand scope dotted = g.fullName owner) (unbound : g.ownBinding? owner name = none)
    (found : g.find owner name = some id) :
    (g.Open owner → g.Leads scope (Dotted.parts dotted) owner) ∧
      (g.Leads scope (Dotted.parts dotted) owner →
        (g.expand scope (Dotted.extend dotted name) = g.fullName id ↔
          g.nameAround owner name = name ∨ g.resolve (g.nameAround owner name) = some id) ∧
        (g.nameAround owner name ≠ name → g.expand scope (Dotted.extend dotted name) =
          ((g.resolve (g.nameAround owner name)).map g.fullName).getD (g.nameAround owner name))) ∧
      (¬ g.Leads scope (Dotted.parts dotted) owner →
        g.expand scope (Dotted.extend dotted name) = Dotted.extend (g.fullName owner) name ∧
          g.expand scope (Dotted.extend dotted name) ≠ g.fullName id) := by
  have outer : g.Has owner := g.has_of_isContainer (by simp [Entity.isContainer, type_of_find found])
  obtain ⟨base, held, named⟩ := held_of_find lockStep found
  have inside := g.has_of_parent held
  have whole : IsSegment name := named ▸ segmented id inside
  refine ⟨fun wide => leads_of_expand lockStep segmented outer wide expanded, fun leads => ?_, fun astray => ?_⟩
  · rw [leads.expand_extend lockStep whole unbound found]
    by_cases free : g.nameAround owner name = name
    · simp [free]
    · simp only [free, if_false, false_or, ne_eq, not_false_eq_true, true_implies, and_true]
      exact lockStep.fullName_eq_iff inside
  · have resolved := lockStep.resolveIn_of_expand outer expanded
    rcases leads_or_stops lockStep segmented resolved with leads | ⟨upper, segment, stops, _⟩
    · exact absurd leads astray
    -- The longer name would be registered, and the class would bind its last segment.
    · rw [stops.expand_extend whole, expanded]
      refine ⟨rfl, fun same => ?_⟩
      have listed := lockStep.lookup_fullName inside
      rw [← same] at listed
      obtain ⟨parent, shorter, bound⟩ := lockStep.lookup_extend segmented whole listed
      obtain rfl := Option.some.inj ((lockStep.lookup_fullName outer).symm.trans shorter)
      have child := lockStep.ownBinding?_child ((lockStep.bound _ _ _).mp bound).1
      rw [named, unbound] at child
      cases child

/-- A class that inherits a method, in a module that may declare a function of the same name. -/
def inheritedMethod (functions : List Stmt) : List Call :=
  [.addModule "m" false,
    .build Hook.standard ⟨0⟩ (.ok
      { body :=
          [.classDef { name := "Base", line := 1 } [.function { name := "f", line := 2 } []],
            .classDef { name := "D", bases := [.name "Base"], line := 3 } []] ++ functions })]

theorem expand_inheritedMethod :
    (run (empty {}) (inheritedMethod [])).expand ⟨0⟩ "D.f" = "m.Base.f" := by
  have admits : (empty {}).Admits (inheritedMethod []) := ⟨trivial, Hook.describes_standard, trivial⟩
  have attained := attained_run admits (by decide +kernel)
  obtain ⟨leads, behind, _⟩ := expand_inherited attained.lockStep attained.segmented
    (by decide +kernel : (run (empty {}) (inheritedMethod [])).expand ⟨0⟩ "D" = _)
    (by decide +kernel : (run (empty {}) (inheritedMethod [])).ownBinding? ⟨3⟩ "f" = none)
    (by decide +kernel : (run (empty {}) (inheritedMethod [])).find ⟨3⟩ "f" = some ⟨2⟩)
  have inherited := (behind (leads (by decide +kernel))).1.mpr (.inl (by decide +kernel))
  have named : (run (empty {}) (inheritedMethod [])).fullName ⟨2⟩ = "m.Base.f" := by decide +kernel
  exact inherited.trans named

/-- A function beside the class hides the method that the class inherits. -/
theorem expand_hiddenMethod :
    let g := run (empty {}) (inheritedMethod [.function { name := "f", line := 4 } []])
    g.Dotless ∧ (g.entity ⟨3⟩).type = .class ∧ g.expand ⟨0⟩ "D" = g.fullName ⟨3⟩ ∧ g.ownBinding? ⟨3⟩ "f" = none ∧
      g.find ⟨3⟩ "f" = some ⟨2⟩ ∧ g.fullName ⟨2⟩ = "m.Base.f" ∧ g.expand ⟨0⟩ "D.f" = "m.f" := by
  decide +kernel

theorem localName_of_module (type : (g.entity scope).type = .module) (unbound : g.ownBinding? scope name = none) :
    g.localName scope name = name := by
  rw [localName_of_container (by simp [Entity.isContainer, type]), unbound, type]
  rfl

/-- A full name leads to its entity from a module that does not bind the first segment. -/
theorem leads_fullName (lockStep : g.LockStep) (segmented : g.Segmented) (type : (g.entity scope).type = .module)
    (inside : g.Has id) (wide : g.Open id) (unbound : g.ownBinding? scope (Dotted.head (g.fullName id)) = none) :
    g.Leads scope (Dotted.parts (g.fullName id)) id := by
  have rooted := lockStep.rooted
  induction id using rooted.wellFounded.induction with
  | _ id ih =>
      have whole := segmented id inside
      cases above : (g.entity id).parent with
      | none =>
          have named := fullName_of_root rooted inside above
          rw [named, Dotted.head_of_isSegment whole] at unbound
          rw [named, Dotted.parts_of_isSegment whole]
          refine .first ?_
          rw [reachFirst, localName_of_module type unbound, follow_eq_entity, ← named]
          exact lockStep.resolve_fullName inside
      | some owner =>
          have held : g.IsParent owner id := above
          have named := fullName_of_child rooted held
          obtain ⟨container, wideAbove⟩ := wide.parent rooted held
          rw [named, Dotted.head_extend whole] at unbound
          rw [named, Dotted.parts_extend whole]
          refine .member (ih owner held (rooted.parentHas held) wideAbove unbound) ?_
          have own : g.localName owner (g.entity id).name = g.fullName id := by
            rw [localName_of_container container, lockStep.ownBinding?_child held, Option.getD_some]
          have unlike : g.localName owner (g.entity id).name ≠ (g.entity id).name := by
            rw [own]
            exact fun same => not_isSegment_fullName rooted held (same ▸ whole)
          rw [reachMember_of_bound unlike, own, follow_eq_entity]
          exact lockStep.resolve_fullName inside

/-- A name that begins like no root module leads nowhere from there, and is left as it is. -/
theorem expand_of_no_root (lockStep : g.LockStep) (type : (g.entity scope).type = .module)
    (unbound : g.ownBinding? scope (Dotted.head dotted) = none)
    (unlike : ∀ root ∈ g.roots, (g.entity root).name ≠ Dotted.head dotted) : g.expand scope dotted = dotted := by
  obtain ⟨rest, parts⟩ := Dotted.exists_parts_eq_head dotted
  have whole : IsSegment (Dotted.head dotted) :=
    Dotted.isSegment_of_mem_parts (parts ▸ List.mem_cons_self)
  have unknown : g.resolve (Dotted.head dotted) = none := by
    rw [resolve_of_isSegment whole]
    refine Option.eq_none_iff_forall_ne_some.mpr fun id listed => ?_
    obtain ⟨inside, named⟩ := (lockStep.index _ _).mp listed
    cases above : (g.entity id).parent with
    | none =>
        rw [fullName_of_root lockStep.rooted inside above] at named
        exact unlike id ((lockStep.roots id).mpr ⟨inside, above⟩) named
    | some owner => exact not_isSegment_fullName lockStep.rooted above (named ▸ whole)
  have joined := Dotted.join_parts dotted
  rw [parts] at joined
  rw [expand, parts, expandSegments, reachFirst, localName_of_module type unbound,
    follow_eq_outside.mpr ⟨unknown, rfl⟩]
  exact joined

/-- Names that expand to themselves from a module that does not bind the first segment. -/
theorem expand_absolute (attained : g.Attained) (type : (g.entity scope).type = .module)
    (unbound : g.ownBinding? scope (Dotted.head dotted) = none) :
    ((∃ id, g.Has id ∧ g.Open id ∧ g.fullName id = dotted) → g.expand scope dotted = dotted) ∧
      ((∀ root ∈ g.roots, (g.entity root).name ≠ Dotted.head dotted) → g.expand scope dotted = dotted) := by
  refine ⟨?_, expand_of_no_root attained.lockStep type unbound⟩
  rintro ⟨id, inside, wide, rfl⟩
  exact (leads_fullName attained.lockStep attained.segmented type inside wide unbound).expand

theorem expand_absolute_importsInTurn :
    (run (empty {}) importsInTurn).expand ⟨2⟩ "a.X" = "a.X" ∧
      (run (empty {}) importsInTurn).expand ⟨2⟩ "os..path" = "os..path" := by
  have admits : (empty {}).Admits importsInTurn :=
    ⟨trivial, trivial, trivial, trivial, trivial, Hook.describes_standard, Hook.describes_standard,
      Hook.describes_standard, Hook.describes_standard, Hook.describes_standard, trivial⟩
  have attained := attained_run admits (by decide +kernel)
  have type : ((run (empty {}) importsInTurn).entity ⟨2⟩).type = .module := by decide +kernel
  exact ⟨(expand_absolute attained type (by decide +kernel)).1 ⟨⟨5⟩, by decide +kernel⟩,
    (expand_absolute attained type (by decide +kernel)).2 (by decide +kernel)⟩

end DocGraph.Graph
