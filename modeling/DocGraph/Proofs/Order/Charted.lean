import DocGraph.Proofs.Finish.ForwardBases
import DocGraph.Proofs.Order.Chart

namespace DocGraph

open Dotted (Spelled IsSegment spelled_extend)

namespace Graph

variable {g h : Graph} {words : List String} {id parent child : EntityId} {name word : String} {budget : Nat}

/-- The chart of a graph. -/
def chart (g : Graph) : Chart where
  root name := (g.lookup name).map fun id => (g.entity id).type
  held scope name :=
    match g.lookup (Dotted.extend scope name) with
    | some id => some (.child (g.entity id).type)
    | none => (g.lookup scope).bind fun id => (g.entity id).aliases[name]?.map .alias

theorem held_chart_of_child {scope : String} (listed : g.lookup (Dotted.extend scope name) = some child) :
    g.chart.held scope name = some (.child (g.entity child).type) := by
  simp [chart, listed]

theorem held_chart_of_absent {scope : String} (absent : g.lookup (Dotted.extend scope name) = none)
    (listed : g.lookup scope = some id) : g.chart.held scope name = (g.entity id).aliases[name]?.map .alias := by
  simp [chart, absent, listed]

theorem held_chart_of_missing {scope : String} (absent : g.lookup (Dotted.extend scope name) = none)
    (missing : g.lookup scope = none) : g.chart.held scope name = none := by
  simp [chart, absent, missing]

theorem type?_chart (g : Graph) (name : String) :
    g.chart.type? name = (g.lookup name).map fun id => (g.entity id).type := by
  rw [Chart.type?]
  cases parted : Dotted.qualifier? name with
  | none => rfl
  | some pair =>
      obtain ⟨qualifier, last⟩ := pair
      obtain ⟨rfl, _⟩ := Dotted.qualifier?_eq_some parted
      dsimp only [chart]
      cases g.lookup (Dotted.extend qualifier last) with
      | some id => rfl
      | none => cases g.lookup qualifier with
        | none => rfl
        | some id => cases entry : (g.entity id).aliases[last]? <;> simp [entry]

/-- The modules and classes are what is found under names that are spelled in the words, and have such names
themselves. -/
structure Charted (words : List String) (g : Graph) : Prop where
  sound : g.Sound
  inTable : g.UnnumberedInTable none
  named : ∀ {id}, g.Has id → ((g.entity id).name ∈ words ↔ (g.entity id).isContainer = true)
  inside : ∀ {parent id}, (g.entity id).isContainer = true → g.IsParent parent id →
    (g.entity parent).isContainer = true
  listed : ∀ {id}, (g.entity id).isContainer = true → g.lookup (g.fullName id) = some id
  found : ∀ {name id}, Spelled words name → g.lookup name = some id →
    (g.entity id).isContainer = true ∧ g.fullName id = name
  targets : ∀ {id word target}, (g.entity id).isContainer = true → word ∈ words →
    (g.entity id).aliases[word]? = some target → Spelled words target

namespace Charted

variable (vocabulary : Vocabulary words) (charted : g.Charted words)

include charted

theorem eq_of_fullName {other : EntityId} (container : (g.entity id).isContainer = true)
    (otherContainer : (g.entity other).isContainer = true) (same : g.fullName id = g.fullName other) : id = other := by
  have listed := charted.listed container
  rw [same, charted.listed otherContainer] at listed
  exact (Option.some.inj listed).symm

theorem name_mem (container : (g.entity id).isContainer = true) : (g.entity id).name ∈ words :=
  (charted.named (g.has_of_isContainer container)).mpr container

include vocabulary

theorem spelled_fullName (container : (g.entity id).isContainer = true) : Spelled words (g.fullName id) := by
  have rooted := charted.sound.rooted
  induction id using rooted.wellFounded.induction with
  | _ id ih =>
      have own := vocabulary.spelled (charted.name_mem container)
      cases next : (g.entity id).parent with
      | none => rwa [fullName_of_root rooted (g.has_of_isContainer container) next]
      | some parent =>
          rw [fullName_of_child rooted next]
          exact spelled_extend.mpr ⟨ih parent next (charted.inside container next), own⟩

/-- What has a full name with a dot stands in what has the name before it. -/
theorem exists_parent {scope : String} (spelled : Spelled words scope) (member : word ∈ words)
    (listed : g.lookup (Dotted.extend scope word) = some child) :
    ∃ parent, g.IsParent parent child ∧ (g.entity parent).isContainer = true ∧ g.fullName parent = scope ∧
      (g.entity child).name = word := by
  have rooted := charted.sound.rooted
  obtain ⟨inner, full⟩ := charted.found (spelled_extend.mpr ⟨spelled, vocabulary.spelled member⟩) listed
  have whole := vocabulary.segment _ (charted.name_mem inner)
  cases next : (g.entity child).parent with
  | none =>
      rw [fullName_of_root rooted (g.has_of_isContainer inner) next] at full
      exact absurd (full ▸ whole) (Dotted.not_isSegment_extend _ _)
  | some parent =>
      rw [fullName_of_child rooted next] at full
      obtain ⟨same, named⟩ := Dotted.extend_injective whole (vocabulary.segment word member) full
      exact ⟨parent, next, charted.inside inner next, same, named⟩

theorem get?_eq_lookup (container : (g.entity id).isContainer = true) (member : word ∈ words) :
    (g.entity id).contents.get? word = g.lookup (Dotted.extend (g.fullName id) word) := by
  refine Option.ext fun child => ⟨fun bound => ?_, fun listed => ?_⟩
  · obtain ⟨held, named⟩ := charted.sound.tabled.bound bound
    have inner : (g.entity child).isContainer = true :=
      (charted.named (g.has_of_parent held)).mp (named ▸ member)
    have listed := charted.listed inner
    rwa [fullName_of_child charted.sound.rooted held, named] at listed
  · obtain ⟨parent, held, outer, same, named⟩ :=
      charted.exists_parent vocabulary (charted.spelled_fullName vocabulary container) member listed
    -- Full names of modules and classes are their own.
    have listedParent := charted.listed outer
    rw [same, charted.listed container] at listedParent
    obtain rfl := Option.some.inj listedParent
    have inTable := charted.inTable _ _ held (by simp) (named ▸ vocabulary.unnumbered word member)
    rwa [named] at inTable

theorem ownBinding?_eq (container : (g.entity id).isContainer = true) (member : word ∈ words) :
    g.ownBinding? id word = g.chart.own? (g.fullName id) word := by
  rw [ownBinding?, Chart.own?, charted.get?_eq_lookup vocabulary container member]
  dsimp only [chart]
  cases found : g.lookup (Dotted.extend (g.fullName id) word) with
  | some child =>
      have spelled : Spelled words (Dotted.extend (g.fullName id) word) :=
        spelled_extend.mpr ⟨charted.spelled_fullName vocabulary container, vocabulary.spelled member⟩
      simp [(charted.found spelled found).2, Holding.fullName]
  | none =>
      simp only [charted.listed container, Option.bind_some, Option.map_map]
      cases (g.entity id).aliases[word]? <;> rfl

theorem drawn : g.chart.Drawn words where
  closed {scope word target} spelled member held := by
    dsimp only [chart] at held
    split at held
    · cases held
    · simp only [Option.bind_eq_some_iff, Option.map_eq_some_iff] at held
      obtain ⟨id, listed, _, entry, equal⟩ := held
      cases equal
      exact charted.targets (charted.found spelled listed).1 member entry
  grounded {scope word type} spelled member held := by
    dsimp only [chart] at held
    split at held
    · rename_i child listed
      obtain ⟨parent, _, outer, same, _⟩ := charted.exists_parent vocabulary spelled member listed
      simp [type?_chart, ← same, charted.listed outer]
    · simp only [Option.bind_eq_some_iff, Option.map_eq_some_iff] at held
      obtain ⟨_, _, _, _, equal⟩ := held
      cases equal
  rooted {word} member isClass := by
    obtain ⟨id, listed, type⟩ := Option.map_eq_some_iff.mp isClass
    obtain ⟨container, full⟩ := charted.found (vocabulary.spelled member) listed
    cases next : (g.entity id).parent with
    | none =>
        rw [charted.sound.rootType (g.has_of_isContainer container) next] at type
        cases type
    | some parent =>
        rw [fullName_of_child charted.sound.rooted next] at full
        exact Dotted.not_isSegment_extend _ _ (full ▸ vocabulary.segment word member)

/-- Names denote the same in the graph and on its chart. -/
theorem resolveWithin_eq (budget : Nat) (spelled : Spelled words name) :
    (g.resolveWithin budget name).map g.fullName = g.chart.resolveWithin budget name ∧
      ∀ id, g.resolveWithin budget name = some id → (g.entity id).isContainer = true := by
  induction budget generalizing name with
  | zero => exact ⟨rfl, fun _ none => by cases none⟩
  | succ budget ih =>
      rw [resolveWithin, Chart.resolveWithin, type?_chart]
      cases listed : g.lookup name with
      | some id =>
          obtain ⟨container, full⟩ := charted.found spelled listed
          refine ⟨by simp [full], ?_⟩
          rintro _ ⟨⟩
          exact container
      | none =>
          rcases Chart.spelled_cases spelled with ⟨_, whole⟩ | ⟨qualifier, word, rfl, front, member⟩
          · simp [Dotted.qualifier?_of_isSegment whole]
          obtain ⟨above, containers⟩ := ih front
          simp only [Dotted.qualifier?_extend (vocabulary.segment word member), ← above]
          cases reached : g.resolveWithin budget qualifier with
          | none => simp
          | some scope =>
              have container := containers scope reached
              have spelledScope := charted.spelled_fullName vocabulary container
              simp only [charted.get?_eq_lookup vocabulary container member, Option.map_some]
              cases bound : g.lookup (Dotted.extend (g.fullName scope) word) with
              | some child =>
                  obtain ⟨inner, full⟩ :=
                    charted.found (spelled_extend.mpr ⟨spelledScope, vocabulary.spelled member⟩) bound
                  refine ⟨by simp [full, held_chart_of_child bound], ?_⟩
                  rintro _ ⟨⟩
                  exact inner
              | none =>
                  have held := held_chart_of_absent bound (charted.listed container)
                  cases entry : (g.entity scope).aliases[word]? with
                  | none => simp [held, entry]
                  | some target =>
                      obtain ⟨onward, inner⟩ := ih (charted.targets container member entry)
                      by_cases circle : target = Dotted.extend qualifier word
                      · simp [held, entry, circle]
                      · simpa [held, entry, circle] using ⟨onward, inner⟩

end Charted

/-- The full names of the classes around an entity, itself included, up to its module. -/
def scopesAlong (g : Graph) : List EntityId → List String
  | [] => []
  | id :: rest =>
      match (g.entity id).type with
      | .module => [g.fullName id]
      | .class => g.fullName id :: g.scopesAlong rest
      | _ => g.scopesAlong rest

def scopeNames (g : Graph) (id : EntityId) : List String := g.scopesAlong (g.ancestors id)

namespace Charted

variable (vocabulary : Vocabulary words) (charted : g.Charted words)

include vocabulary charted

theorem spelled_of_mem_scopesAlong {ids : List EntityId} {scope : String} (among : scope ∈ g.scopesAlong ids) :
    Spelled words scope := by
  induction ids with
  | nil => cases among
  | cons id rest ih =>
      rw [scopesAlong] at among
      split at among
      · rename_i type
        rw [List.mem_singleton.mp among]
        exact charted.spelled_fullName vocabulary (by simp [Entity.isContainer, type])
      · rename_i type
        rcases List.mem_cons.mp among with rfl | among
        · exact charted.spelled_fullName vocabulary (by simp [Entity.isContainer, type])
        · exact ih among
      · exact ih among

theorem spelled_scopeNames (id : EntityId) : ∀ scope ∈ g.scopeNames id, Spelled words scope := fun _ among =>
  charted.spelled_of_mem_scopesAlong vocabulary among

theorem localName_eq (member : word ∈ words) (id : EntityId) :
    g.localName id word = g.chart.localName word (g.scopeNames id) := by
  have along (ids : List EntityId) :
      g.localNameAlong word ids = g.chart.localName word (g.scopesAlong ids) := by
    induction ids with
    | nil => rfl
    | cons id rest ih =>
        rw [localNameAlong, scopesAlong]
        cases type : (g.entity id).type with
        | module | «class» =>
            have container : (g.entity id).isContainer = true := by simp [Entity.isContainer, type]
            simp [Chart.localName, charted.ownBinding?_eq vocabulary container member, ih]
        | function | «attribute» => exact ih
  exact along _

/-- Members of modules are looked up in the graph as on its chart, whatever the bases are. -/
theorem expandMembers_eq (rebased : Rebased g h) {owner : EntityId} {rest : List String}
    (container : (g.entity owner).isContainer = true) (members : ∀ word ∈ rest, word ∈ words)
    (through : g.chart.through (g.options.maxAliasDepth + 1) (g.fullName owner) rest = true) :
    h.expandMembers owner rest = g.chart.expandMembers (g.options.maxAliasDepth + 1) (g.fullName owner) rest := by
  induction rest generalizing owner with
  | nil => exact rebased.sameTree.fullName owner
  | cons word rest ih =>
      obtain ⟨member, members⟩ := List.forall_mem_cons.mp members
      simp only [Chart.through, Bool.and_eq_true, decide_eq_true_eq, Option.all_eq_true] at through
      obtain ⟨isModule, through⟩ := through
      rw [type?_chart, charted.listed container, Option.map_some, Option.some.injEq] at isModule
      rw [expandMembers, rebased.reachMember_of_module charted.sound.rooted isModule,
        charted.ownBinding?_eq vocabulary container member, Chart.expandMembers, ← Chart.member?]
      cases own : g.chart.member? (g.fullName owner) word with
      | none => rfl
      | some bound =>
          have onward : Spelled words bound := Chart.spelled_own? vocabulary (charted.drawn vocabulary)
            (charted.spelled_fullName vocabulary container) member (Option.filter_eq_some_iff.mp own).1
          obtain ⟨same, containers⟩ := charted.resolveWithin_eq vocabulary (g.options.maxAliasDepth + 1) onward
          dsimp only [follow]
          rw [rebased.resolve, resolve, ← same]
          cases reached : g.resolveWithin (g.options.maxAliasDepth + 1) bound with
          | none => rfl
          | some next =>
              refine ih (containers next reached) members (through bound own _ ?_)
              rw [← same, reached, Option.map_some]

/-- A name that is clear on the chart denotes what it denotes there, whatever the bases are. -/
theorem resolveIn_eq (rebased : Rebased g h) (spelled : Spelled words name) (id : EntityId)
    (clear : g.chart.clear (g.options.maxAliasDepth + 1) (g.scopeNames id) (Dotted.parts name) = true) :
    h.resolveIn id name =
      g.resolve (g.chart.expand (g.options.maxAliasDepth + 1) (g.scopeNames id) (Dotted.parts name)) := by
  rw [resolveIn, rebased.resolve]
  congr 1
  rw [Spelled] at spelled
  rw [Graph.expand]
  cases segments : Dotted.parts name with
  | nil => exact absurd segments (Dotted.parts_ne_nil name)
  | cons word rest =>
      rw [segments] at spelled clear
      obtain ⟨member, members⟩ := List.forall_mem_cons.mp spelled
      simp only [Chart.clear, Bool.and_eq_true, Option.all_eq_true] at clear
      have first := Chart.spelled_localName vocabulary (charted.drawn vocabulary)
        (charted.spelled_scopeNames vocabulary id) member
      obtain ⟨same, containers⟩ := charted.resolveWithin_eq vocabulary (g.options.maxAliasDepth + 1) first
      rw [expandSegments, reachFirst, follow, rebased.localName, charted.localName_eq vocabulary member,
        Chart.expand, rebased.resolve, resolve, ← same]
      cases reached : g.resolveWithin (g.options.maxAliasDepth + 1) (g.chart.localName word (g.scopeNames id)) with
      | none => rfl
      | some owner =>
          refine charted.expandMembers_eq vocabulary rebased (containers owner reached) members (clear.2 _ ?_)
          rw [← same, reached, Option.map_some]

theorem ignoresBases (spelled : Spelled words name) (id : EntityId)
    (clear : g.chart.clear (g.options.maxAliasDepth + 1) (g.scopeNames id) (Dotted.parts name) = true) :
    g.IgnoresBases id name := fun _ rebased =>
  (charted.resolveIn_eq vocabulary rebased spelled id clear).trans
    (charted.resolveIn_eq vocabulary (.refl g) spelled id clear).symm

/-- The class that a name leads to. -/
theorem leads?_eq (spelled : Spelled words name) (id : EntityId)
    (clear : g.chart.clear (g.options.maxAliasDepth + 1) (g.scopeNames id) (Dotted.parts name) = true) :
    ((g.resolveIn id name).filter fun found => (g.entity found).type == .class).map g.fullName =
      g.chart.leads? (g.options.maxAliasDepth + 1) (g.scopeNames id) name := by
  have there : Spelled words
      (g.chart.expand (g.options.maxAliasDepth + 1) (g.scopeNames id) (Dotted.parts name)) :=
    Chart.spelled_expand vocabulary (charted.drawn vocabulary)
      (charted.spelled_scopeNames vocabulary id) spelled
  obtain ⟨same, containers⟩ := charted.resolveWithin_eq vocabulary (g.options.maxAliasDepth + 1) there
  rw [charted.resolveIn_eq vocabulary (.refl g) spelled id clear, Chart.leads?, ← same, resolve]
  cases reached : g.resolveWithin (g.options.maxAliasDepth + 1) _ with
  | none => rfl
  | some found =>
      have listed := charted.listed (containers found reached)
      rw [Option.map_some, Option.filter_some, Option.filter_some, type?_chart, listed]
      cases type : (g.entity found).type <;> simp [type]

end Charted

end Graph

end DocGraph
