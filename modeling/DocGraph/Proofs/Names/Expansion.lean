import DocGraph.Proofs.Names.Parts
import DocGraph.Proofs.Names.Denotation

/-!
How a dotted name is expanded. Every segment leads to an entity, in which the next one is looked up, until
none is left or one leads out of the graph; what is left is then appended. Where tree and index are in lock
step, a name outside the graph does not come back into it by what is appended, so an expansion denotes an
entity only if it is the full name of that entity. The one exception is a segment that expansion takes for
unbound, since it is bound to its own name.
-/
namespace DocGraph.Graph

open Dotted (IsSegment)

variable {g : Graph} {scope owner id : EntityId} {name segment dotted : String} {front rest segments : List String}
  {height : Nat}

theorem resolve_eq_some_iff :
    g.resolve name = some id ↔ ∃ height ≤ g.options.maxAliasDepth, g.Denotes height name id :=
  resolve_withLimit_eq_some_iff (g := g)

theorem resolve_of_isSegment (whole : IsSegment name) : g.resolve name = g.lookup name := by
  have uncut : Dotted.qualifier? name = none := by
    rw [Dotted.qualifier?, Option.map_eq_none_iff]
    exact Dotted.cutLast?_eq_none.mpr whole
  rw [resolve, resolveWithin, uncut]
  cases g.lookup name <;> rfl

theorem not_isSegment_fullName (rooted : g.Rooted) (held : g.IsParent owner id) : ¬ IsSegment (g.fullName id) := by
  rw [fullName_of_child rooted held]
  exact Dotted.not_isSegment_extend _ _

namespace LockStep

variable (lockStep : g.LockStep)

include lockStep

theorem lookup_fullName (inside : g.Has id) : g.lookup (g.fullName id) = some id :=
  (lockStep.index _ _).mpr ⟨inside, rfl⟩

theorem resolve_fullName (inside : g.Has id) : g.resolve (g.fullName id) = some id :=
  resolve_eq_some_iff.mpr ⟨0, Nat.zero_le _, .registered (lockStep.lookup_fullName inside)⟩

theorem has_of_resolve (resolved : g.resolve name = some id) : g.Has id := by
  obtain ⟨height, -, denotes⟩ := resolve_eq_some_iff.mp resolved
  clear resolved
  induction denotes with
  | registered listed => exact ((lockStep.index _ _).mp listed).1
  | child _ _ _ _ bound => exact g.has_of_parent ((lockStep.bound _ _ _).mp bound).1
  | aliased _ _ _ _ _ _ _ _ _ onward => exact onward

variable (segmented : g.Segmented)

include segmented

theorem lookup_extend (whole : IsSegment segment) (listed : g.lookup (Dotted.extend name segment) = some id) :
    ∃ owner, g.lookup name = some owner ∧ (g.entity owner).contents.get? segment = some id := by
  obtain ⟨inside, named⟩ := (lockStep.index _ _).mp listed
  cases above : (g.entity id).parent with
  | none =>
      rw [fullName_of_root lockStep.rooted inside above] at named
      exact absurd (named ▸ segmented id inside) (Dotted.not_isSegment_extend _ _)
  | some owner =>
      have held : g.IsParent owner id := above
      rw [fullName_of_child lockStep.rooted held] at named
      obtain ⟨rfl, own⟩ := Dotted.extend_injective (segmented id inside) whole named
      exact ⟨owner, lockStep.lookup_fullName (lockStep.rooted.parentHas held),
        (lockStep.bound _ _ _).mpr ⟨above, own⟩⟩

theorem lookup_join (wholly : ∀ segment ∈ rest, IsSegment segment)
    (listed : g.lookup (Dotted.join (name :: rest)) = some id) :
    ∃ upper, g.lookup name = some upper ∧ g.Above upper id := by
  induction rest generalizing name with
  | nil => exact ⟨id, by simpa [Dotted.join] using listed, .refl⟩
  | cons segment rest ih =>
      rw [Dotted.join_cons_cons] at listed
      obtain ⟨upper, longer, above⟩ :=
        ih (fun segment member => wholly segment (List.mem_cons_of_mem _ member)) listed
      obtain ⟨owner, shorter, bound⟩ :=
        lockStep.lookup_extend segmented (wholly segment List.mem_cons_self) longer
      exact ⟨owner, shorter, .head ((lockStep.bound _ _ _).mp bound).1 above⟩

/-- What a name denotes that extends the full name of an entity, the tables of the entity say. -/
theorem denotes_extend (inside : g.Has owner) (whole : IsSegment segment)
    (denotes : g.Denotes height (Dotted.extend (g.fullName owner) segment) id) :
    (g.entity owner).contents.get? segment = some id ∨
      ∃ target further, (g.entity owner).aliases[segment]? = some target ∧ g.Denotes further target id := by
  have listed := lockStep.lookup_fullName inside
  generalize longer : Dotted.extend (g.fullName owner) segment = name at denotes
  cases denotes with
  | registered found =>
      obtain ⟨upper, above, bound⟩ := lockStep.lookup_extend segmented whole (longer ▸ found)
      obtain rfl := Option.some.inj (listed.symm.trans above)
      exact .inl bound
  | child _ cut wholly above bound =>
      obtain ⟨rfl, rfl⟩ := Dotted.extend_injective whole wholly (longer.trans cut)
      obtain ⟨_, rfl⟩ := (denotes_iff_of_lookup listed).mp above
      exact .inl bound
  | aliased _ cut wholly above _ entry _ onward =>
      obtain ⟨rfl, rfl⟩ := Dotted.extend_injective whole wholly (longer.trans cut)
      obtain ⟨_, rfl⟩ := (denotes_iff_of_lookup listed).mp above
      exact .inr ⟨_, _, entry, onward⟩

theorem resolve_extend_eq_none (whole : IsSegment segment) (unresolved : g.resolve name = none) :
    g.resolve (Dotted.extend name segment) = none := by
  have missing (found : EntityId) : g.resolve name ≠ some found := by
    rw [unresolved]
    simp
  refine Option.eq_none_iff_forall_ne_some.mpr fun id resolved => ?_
  obtain ⟨height, low, denotes⟩ := resolve_eq_some_iff.mp resolved
  generalize longer : Dotted.extend name segment = long at denotes
  cases denotes with
  | registered found =>
      obtain ⟨owner, shorter, _⟩ := lockStep.lookup_extend segmented whole (longer ▸ found)
      exact missing owner (resolve_eq_some_iff.mpr ⟨0, Nat.zero_le _, .registered shorter⟩)
  | child _ cut wholly above _ =>
      obtain ⟨rfl, rfl⟩ := Dotted.extend_injective whole wholly (longer.trans cut)
      exact missing _ (resolve_eq_some_iff.mpr ⟨_, by omega, above⟩)
  | aliased _ cut wholly above _ _ _ _ =>
      obtain ⟨rfl, rfl⟩ := Dotted.extend_injective whole wholly (longer.trans cut)
      exact missing _ (resolve_eq_some_iff.mpr ⟨_, by omega, above⟩)

theorem resolve_join_eq_none (wholly : ∀ segment ∈ rest, IsSegment segment) (unresolved : g.resolve name = none) :
    g.resolve (Dotted.join (name :: rest)) = none := by
  induction rest generalizing name with
  | nil => simpa [Dotted.join] using unresolved
  | cons segment rest ih =>
      rw [Dotted.join_cons_cons]
      exact ih (fun segment member => wholly segment (List.mem_cons_of_mem _ member))
        (lockStep.resolve_extend_eq_none segmented (wholly segment List.mem_cons_self) unresolved)

end LockStep

theorem ancestors_eq_cons (inside : g.Has id) : g.ancestors id = id :: (g.ancestors id).tail := by
  obtain ⟨fuel, size⟩ : ∃ fuel, g.size = fuel + 1 := ⟨g.size - 1, by have := inside; unfold Has at this; omega⟩
  rw [ancestors, size, ancestorsFrom]
  split <;> rfl

/-- What the scopes around an entity make of a name; the name itself if none of them binds it. -/
def nameAround (g : Graph) (id : EntityId) (name : String) : String :=
  g.localNameAlong name (g.ancestors id).tail

/-- A module or class looks into its own tables first, and a class then into the scopes around it. -/
theorem localName_of_container (container : (g.entity owner).isContainer = true) (name : String) :
    g.localName owner name = (g.ownBinding? owner name).getD
      (if (g.entity owner).type = .class then g.nameAround owner name else name) := by
  have chain := ancestors_eq_cons (g.has_of_isContainer container)
  rw [localName, nameAround, chain, localNameAlong]
  cases type : (g.entity owner).type <;> simp [Entity.isContainer, type] at container ⊢

theorem LockStep.ownBinding?_child (lockStep : g.LockStep) (held : g.IsParent owner id) :
    g.ownBinding? owner (g.entity id).name = some (g.fullName id) := by
  rw [ownBinding?, (lockStep.bound _ _ _).mpr ⟨held, rfl⟩]

theorem held_of_find (lockStep : g.LockStep) (found : g.find owner name = some id) :
    ∃ base, g.IsParent base id ∧ (g.entity id).name = name := by
  unfold find at found
  split at found
  · cases found
  · obtain ⟨base, _, bound⟩ := List.exists_of_findSome?_eq_some found
    exact ⟨base, (lockStep.bound _ _ _).mp bound⟩

theorem follow_eq_entity : g.follow name = .entity id ↔ g.resolve name = some id := by
  unfold follow
  cases g.resolve name <;> simp

theorem follow_eq_outside {other : String} :
    g.follow name = .outside other ↔ g.resolve name = none ∧ name = other := by
  unfold follow
  cases g.resolve name <;> simp

/-- The segment is taken for unbound: no scope gives it another name, and no member of that name is inherited. -/
def Misses (g : Graph) (owner : EntityId) (segment : String) : Prop :=
  g.localName owner segment = segment ∧ g.find owner segment = none

theorem reachMember_of_misses (misses : g.Misses owner segment) :
    g.reachMember owner segment = .outside (Dotted.extend (g.fullName owner) segment) := by
  simp [reachMember, misses.1, misses.2]

theorem reachMember_of_bound (other : g.localName owner segment ≠ segment) :
    g.reachMember owner segment = g.follow (g.localName owner segment) := by
  simp [reachMember, other]

theorem reachMember_of_inherited (lockStep : g.LockStep) (whole : IsSegment segment)
    (unbound : g.localName owner segment = segment) (found : g.find owner segment = some id) :
    g.reachMember owner segment = .entity id := by
  obtain ⟨base, held, _⟩ := held_of_find lockStep found
  have unlike : g.fullName id ≠ segment := fun same =>
    not_isSegment_fullName lockStep.rooted held (same ▸ whole)
  simp only [reachMember, unbound, found, ne_eq, not_true_eq_false, if_false, if_neg unlike]
  exact follow_eq_entity.mpr (lockStep.resolve_fullName (g.has_of_parent held))

/-- A segment leads out of the graph to a name that denotes nothing, or because it is taken for unbound. -/
theorem outside_cases (lockStep : g.LockStep) (whole : IsSegment segment)
    (missed : g.reachMember owner segment = .outside name) :
    g.resolve name = none ∨ (g.Misses owner segment ∧ Dotted.extend (g.fullName owner) segment = name) := by
  by_cases bound : g.localName owner segment = segment
  · cases found : g.find owner segment with
    | some member =>
        rw [reachMember_of_inherited lockStep whole bound found] at missed
        cases missed
    | none =>
        rw [reachMember_of_misses ⟨bound, found⟩] at missed
        exact .inr ⟨⟨bound, found⟩, Reach.outside.inj missed⟩
  · rw [reachMember_of_bound bound, follow_eq_outside] at missed
    exact .inl (missed.2 ▸ missed.1)

/-- What segments lead to, one after the other: the first from a scope, every other one from the entity that
those before it lead to. -/
inductive Leads (g : Graph) (scope : EntityId) : List String → EntityId → Prop
  | first {segment : String} {id : EntityId} (reached : g.reachFirst scope segment = .entity id) :
      Leads g scope [segment] id
  | member {front : List String} {segment : String} {owner id : EntityId} (before : Leads g scope front owner)
      (reached : g.reachMember owner segment = .entity id) : Leads g scope (front ++ [segment]) id

/-- How segments are expanded: they lead to an entity, or one of them leads out of the graph. -/
inductive Expands (g : Graph) (scope : EntityId) : List String → String → Prop
  | through {segments : List String} {id : EntityId} (leads : g.Leads scope segments id) :
      Expands g scope segments (g.fullName id)
  | unknown {segment name : String} (rest : List String) (missed : g.reachFirst scope segment = .outside name) :
      Expands g scope (segment :: rest) (Dotted.join (name :: rest))
  | halted {front : List String} {segment name : String} {owner : EntityId} (rest : List String)
      (before : g.Leads scope front owner) (missed : g.reachMember owner segment = .outside name) :
      Expands g scope (front ++ segment :: rest) (Dotted.join (name :: rest))

theorem Leads.expandSegments (leads : g.Leads scope front owner) (rest : List String) :
    g.expandSegments scope (front ++ rest) = g.expandMembers owner rest := by
  induction leads generalizing rest with
  | first reached => simp [Graph.expandSegments, reached]
  | member _ reached ih =>
      rw [List.append_assoc, ih, List.singleton_append, expandMembers, reached]

theorem Leads.expands (leads : g.Leads scope front owner) (rest : List String) :
    g.Expands scope (front ++ rest) (g.expandMembers owner rest) := by
  induction rest generalizing front owner with
  | nil =>
      rw [List.append_nil, expandMembers]
      exact .through leads
  | cons segment rest ih =>
      rw [expandMembers]
      cases reached : g.reachMember owner segment with
      | entity next =>
          rw [List.append_cons]
          exact ih (.member leads reached)
      | outside name => exact .halted rest leads reached

theorem expands_expand (g : Graph) (scope : EntityId) (dotted : String) :
    g.Expands scope (Dotted.parts dotted) (g.expand scope dotted) := by
  rw [expand]
  cases parts : Dotted.parts dotted with
  | nil => exact absurd parts (Dotted.parts_ne_nil dotted)
  | cons segment rest =>
      cases reached : g.reachFirst scope segment with
      | entity next =>
          have leads : g.Leads scope [segment] next := .first reached
          rw [← List.singleton_append, leads.expandSegments]
          exact leads.expands rest
      | outside name =>
          rw [expandSegments, reached]
          exact .unknown rest reached

theorem Leads.expand (leads : g.Leads scope (Dotted.parts dotted) id) :
    g.expand scope dotted = g.fullName id := by
  have through := leads.expandSegments []
  rwa [List.append_nil] at through

theorem Leads.has (lockStep : g.LockStep) (leads : g.Leads scope segments id) : g.Has id := by
  have followed {name : String} (reached : g.follow name = .entity id) : g.Has id :=
    lockStep.has_of_resolve (follow_eq_entity.mp reached)
  cases leads with
  | first reached => exact followed reached
  | @member _ segment owner _ _ reached =>
      simp only [reachMember] at reached
      split at reached
      · exact followed reached
      · split at reached
        · cases reached
        · split at reached
          · cases reached
          · exact followed reached

/-- Expansion stops at a segment behind the first, which it takes for unbound in the entity before it. -/
def StopsAt (g : Graph) (scope : EntityId) (dotted : String) (owner : EntityId) (segment : String) : Prop :=
  ∃ front rest, Dotted.parts dotted = front ++ segment :: rest ∧ g.Leads scope front owner ∧ g.Misses owner segment

theorem StopsAt.expand (stops : g.StopsAt scope dotted owner segment) :
    ∃ rest, (∀ later ∈ rest, IsSegment later) ∧ IsSegment segment ∧
      g.expand scope dotted = Dotted.join (Dotted.extend (g.fullName owner) segment :: rest) := by
  obtain ⟨front, rest, parts, leads, misses⟩ := stops
  have whole {part : String} (member : part ∈ segment :: rest) : IsSegment part :=
    Dotted.isSegment_of_mem_parts (parts ▸ List.mem_append_right front member)
  refine ⟨rest, fun later member => whole (List.mem_cons_of_mem _ member), whole List.mem_cons_self, ?_⟩
  rw [Graph.expand, parts, leads.expandSegments, expandMembers, reachMember_of_misses misses]

theorem StopsAt.has (stops : g.StopsAt scope dotted owner segment) (lockStep : g.LockStep) : g.Has owner := by
  obtain ⟨_, _, _, leads, _⟩ := stops
  exact leads.has lockStep

/-- An expansion that denotes something either went through all segments or stopped at one that the entity
before it binds. -/
theorem leads_or_stops (lockStep : g.LockStep) (segmented : g.Segmented)
    (resolved : g.resolveIn scope dotted = some id) :
    g.Leads scope (Dotted.parts dotted) id ∨
      ∃ owner segment, g.StopsAt scope dotted owner segment ∧ (g.ownBinding? owner segment).isSome := by
  have expands := g.expands_expand scope dotted
  have wholly {part : String} : part ∈ Dotted.parts dotted → IsSegment part := Dotted.isSegment_of_mem_parts
  have known {name : String} {rest : List String} (whole : ∀ part ∈ rest, IsSegment part)
      (resolved : g.resolve (Dotted.join (name :: rest)) = some id) : g.resolve name ≠ none := by
    intro unresolved
    rw [lockStep.resolve_join_eq_none segmented whole unresolved] at resolved
    cases resolved
  rw [resolveIn] at resolved
  generalize parts : Dotted.parts dotted = segments at expands wholly ⊢
  generalize g.expand scope dotted = expanded at expands resolved
  cases expands with
  | through leads =>
      rw [lockStep.resolve_fullName (leads.has lockStep)] at resolved
      exact .inl (Option.some.inj resolved ▸ leads)
  | unknown rest missed =>
      obtain ⟨unresolved, rfl⟩ := follow_eq_outside.mp missed
      exact absurd unresolved (known (fun part member => wholly (List.mem_cons_of_mem _ member)) resolved)
  | @halted front segment name owner rest before missed =>
      have whole : IsSegment segment := wholly (List.mem_append_right _ List.mem_cons_self)
      have later (part : String) (member : part ∈ rest) : IsSegment part :=
        wholly (List.mem_append_right _ (List.mem_cons_of_mem _ member))
      rcases outside_cases lockStep whole missed with unresolved | ⟨misses, rfl⟩
      · exact absurd unresolved (known later resolved)
      · refine .inr ⟨owner, segment, ⟨front, rest, parts, before, misses⟩, ?_⟩
        obtain ⟨found, resolvedHere⟩ := Option.ne_none_iff_exists'.mp (known later resolved)
        obtain ⟨height, _, denotes⟩ := resolve_eq_some_iff.mp resolvedHere
        rcases lockStep.denotes_extend segmented (before.has lockStep) whole denotes with
          bound | ⟨target, _, entry, _⟩
        · simp [ownBinding?, bound]
        · cases bound : (g.entity owner).contents.get? segment <;> simp [ownBinding?, bound, entry]

theorem Misses.get?_eq_none (misses : g.Misses owner segment) (lockStep : g.LockStep)
    (container : (g.entity owner).isContainer = true) (whole : IsSegment segment) :
    (g.entity owner).contents.get? segment = none := by
  refine Option.eq_none_iff_forall_ne_some.mpr fun child bound => ?_
  obtain ⟨held, rfl⟩ := (lockStep.bound _ _ _).mp bound
  have named := misses.1
  rw [localName_of_container container, lockStep.ownBinding?_child held, Option.getD_some] at named
  exact not_isSegment_fullName lockStep.rooted held (named ▸ whole)

/-- Where a module or class binds the segment all the same, it binds it to its own name. The name denotes a
root module then, and the expansion is nobody's full name. -/
theorem StopsAt.own_alias (stops : g.StopsAt scope dotted owner segment) (lockStep : g.LockStep)
    (segmented : g.Segmented) (container : (g.entity owner).isContainer = true)
    (resolved : g.resolveIn scope dotted = some id) :
    (g.entity owner).aliases[segment]? = some segment ∧ (g.lookup segment).isSome ∧
      g.expand scope dotted ≠ g.fullName id := by
  obtain ⟨rest, wholly, whole, expanded⟩ := stops.expand
  obtain ⟨_, _, _, leads, misses⟩ := stops
  have inside := g.has_of_isContainer container
  have unlisted := misses.get?_eq_none lockStep container whole
  rw [resolveIn, expanded] at resolved
  have known : g.resolve (Dotted.extend (g.fullName owner) segment) ≠ none := by
    intro unresolved
    rw [lockStep.resolve_join_eq_none segmented wholly unresolved] at resolved
    cases resolved
  obtain ⟨found, resolvedHere⟩ := Option.ne_none_iff_exists'.mp known
  obtain ⟨height, low, denotes⟩ := resolve_eq_some_iff.mp resolvedHere
  rcases lockStep.denotes_extend segmented inside whole denotes with bound | ⟨target, further, entry, onward⟩
  · rw [unlisted] at bound
    cases bound
  have own : g.ownBinding? owner segment = some target := by simp [ownBinding?, unlisted, entry]
  obtain rfl : target = segment := by
    have named := misses.1
    rwa [localName_of_container container, own, Option.getD_some] at named
  refine ⟨entry, ?_, fun same => ?_⟩
  · cases onward with
    | registered listed => simp [listed]
    | child _ cut | aliased _ cut => exact absurd (cut ▸ whole) (Dotted.not_isSegment_extend _ _)
  · have listed := lockStep.lookup_fullName (lockStep.has_of_resolve resolved)
    rw [← same, expanded] at listed
    obtain ⟨child, shorter, _⟩ := lockStep.lookup_join segmented wholly listed
    obtain ⟨upper, above, bound⟩ := lockStep.lookup_extend segmented whole shorter
    rw [lockStep.lookup_fullName inside] at above
    rw [← Option.some.inj above, unlisted] at bound
    cases bound

/-- An expansion that denotes an entity is the full name of the entity, unless it stopped at a segment that the
entity before it binds. In a module or class, this is an alias that is bound to its own name. -/
theorem expand_canonical (attained : g.Attained) (resolved : g.resolveIn scope dotted = some id) :
    ((∀ owner segment, g.StopsAt scope dotted owner segment → g.ownBinding? owner segment = none) →
        g.expand scope dotted = g.fullName id) ∧
      ∀ owner segment, g.StopsAt scope dotted owner segment → (g.entity owner).isContainer = true →
        (g.entity owner).aliases[segment]? = some segment ∧ (g.lookup segment).isSome ∧
          g.expand scope dotted ≠ g.fullName id := by
  have lockStep := attained.lockStep
  have segmented := attained.segmented
  refine ⟨fun unbound => ?_, fun owner segment stops container =>
    stops.own_alias lockStep segmented container resolved⟩
  rcases leads_or_stops lockStep segmented resolved with leads | ⟨owner, segment, stops, bound⟩
  · exact leads.expand
  · rw [unbound owner segment stops] at bound
    cases bound

theorem expand_importsInTurn :
    (run (empty {}) importsInTurn).expand ⟨2⟩ "b.Y" = (run (empty {}) importsInTurn).fullName ⟨5⟩ := by
  have admits : (empty {}).Admits importsInTurn :=
    ⟨trivial, trivial, trivial, trivial, trivial, Hook.describes_standard, Hook.describes_standard,
      Hook.describes_standard, Hook.describes_standard, Hook.describes_standard, trivial⟩
  have attained := attained_run admits (by decide +kernel)
  refine (expand_canonical attained (by decide +kernel)).1 ?_
  rintro owner segment ⟨front, rest, parts, leads, misses⟩
  have split : ["b", "Y"] = front ++ segment :: rest := parts ▸ (by decide +kernel)
  cases leads with
  | first reached =>
      obtain ⟨rfl, rfl, rfl⟩ : "b" = _ ∧ "Y" = segment ∧ [] = rest := by simpa using split
      have here : (run (empty {}) importsInTurn).resolve
          ((run (empty {}) importsInTurn).localName ⟨2⟩ "b") = some ⟨1⟩ := by decide +kernel
      obtain rfl := Option.some.inj (here.symm.trans (follow_eq_entity.mp reached))
      exact absurd misses.1 (by decide +kernel)
  | @member front middle _ _ before _ =>
      have nonempty : 0 < front.length := by cases before <;> simp
      have short := congrArg List.length split
      simp only [List.length_append, List.length_cons, List.length_nil] at short
      omega

/-- A module that imports another one, under its own name. -/
def importedModule : List Call :=
  [.addModule "os" false, .addModule "m" false,
    .build Hook.standard ⟨1⟩ (.ok { body := [.imports [⟨"os", none⟩] 1] })]

/-- The name of the imported module, written as a member, denotes the module and is not expanded. -/
theorem expand_importedModule :
    (empty {}).Admits importedModule ∧ (run (empty {}) importedModule).Dotless ∧
      (run (empty {}) importedModule).resolveIn ⟨1⟩ "m.os" = some ⟨0⟩ ∧
      (run (empty {}) importedModule).expand ⟨1⟩ "m.os" = "m.os" ∧
      (run (empty {}) importedModule).fullName ⟨0⟩ = "os" := by
  refine ⟨⟨trivial, trivial, Hook.describes_standard, trivial⟩, ?_⟩
  decide +kernel

end DocGraph.Graph
