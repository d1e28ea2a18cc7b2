import DocGraph.Proofs.Registry.Numbering
import DocGraph.Proofs.Names.Moved
import DocGraph.Proofs.Run.Trace

namespace DocGraph

/-- A name has been declared again, by what has the name of the entity now. -/
structure Diagnostic.TellsOfDuplicate (d : Diagnostic) : Prop where
  threshold : d.threshold = 1
  topic : d.topic = "ast"
  message : ∃ what, d.message = "duplicate " ++ what ++ " " ++ d.entity

namespace Graph

open Dotted (IsSegment)

variable {g h k : Graph} {id owner parent previous top lower : EntityId} {name key : String} {n : Nat}
  {ids : List EntityId}

/-- Tables and the index are exact, and no name has a dot in it. -/
structure ExactTables (g : Graph) : Prop where
  rooted : g.Rooted
  tabled : g.Tabled
  segmented : g.Segmented
  registered : g.Registered none

theorem LockStep.tables (lockStep : g.LockStep) (segmented : g.Segmented) : g.ExactTables :=
  ⟨lockStep.rooted, lockStep.tabled, segmented, lockStep.registered⟩

namespace ExactTables

variable (tables : g.ExactTables)

include tables

theorem lookup_fullName (inside : g.Has id) : g.lookup (g.fullName id) = some id :=
  (tables.registered.index _ _).mpr ⟨inside, rfl, by simp⟩

theorem fullName_of_bound (bound : (g.entity parent).contents.get? key = some id) :
    g.fullName id = Dotted.extend (g.fullName parent) key := by
  obtain ⟨held, named⟩ := tables.tabled.bound bound
  rw [fullName_of_child tables.rooted held, named]

theorem lookup_extend (inside : g.Has parent) (whole : IsSegment key) :
    g.lookup (Dotted.extend (g.fullName parent) key) = (g.entity parent).contents.get? key := by
  refine Option.ext fun id => ⟨fun listed => ?_, fun bound => ?_⟩
  · obtain ⟨has, named, _⟩ := (tables.registered.index _ _).mp listed
    cases above : (g.entity id).parent with
    | none =>
        rw [fullName_of_root tables.rooted has above] at named
        exact absurd (named ▸ tables.segmented id has) (Dotted.not_isSegment_extend _ _)
    | some upper =>
        rw [fullName_of_child tables.rooted above] at named
        obtain ⟨same, own⟩ := Dotted.extend_injective (tables.segmented id has) whole named
        obtain rfl := fullName_injective tables.rooted tables.segmented tables.registered.complete
          tables.registered.rootsApart (tables.rooted.parentHas above) inside same
        exact own ▸ tables.registered.complete _ _ above (by simp)
  · rw [← tables.fullName_of_bound bound]
    exact tables.lookup_fullName (g.has_of_parent (tables.tabled.bound bound).1)

end ExactTables

/-- A class, a function or an attribute is declared. -/
inductive Adds (parent : EntityId) (name : String) (g : Graph) : Graph → Prop
  | addClass (line : Nat) : Adds parent name g (g.addClass parent name line).1
  | addFunction (line : Nat) : Adds parent name g (g.addFunction parent name line).1
  | addAttribute (kind : Option EntityKind) (line : Nat) :
      Adds parent name g (g.addAttribute parent name kind line).1

/-- The graph in which a new entity has its parent and its name, but stands in no table yet. -/
structure Appended (parent : EntityId) (name : String) (g u : Graph) : Prop where
  has : ∀ {id}, u.Has id ↔ g.Has id ∨ id = ⟨g.size⟩
  old : ∀ {id}, g.Has id → u.entity id = g.entity id
  fullName : ∀ {id}, g.Has id → u.fullName id = g.fullName id
  rooted : u.Rooted
  tabled : u.Tabled
  held : u.IsParent parent ⟨g.size⟩
  named : (u.entity ⟨g.size⟩).name = name
  unlisted : u.Unlisted ⟨g.size⟩
  tables : ∀ owner key, (u.entity owner).contents.get? key = (g.entity owner).contents.get? key
  registered : u.Segmented → (u.attach parent ⟨g.size⟩).Registered none
  rest : u.index = g.index ∧ u.options = g.options ∧ u.diagnostics = g.diagnostics

theorem Adds.exists_attach (adds : Adds parent name g k) (tables : g.ExactTables) (inside : g.Has parent) :
    ∃ u, Appended parent name g u ∧ k = u.attach parent ⟨g.size⟩ := by
  obtain ⟨e, rfl, above, empty, rfl⟩ : ∃ e : Entity, e.name = name ∧ e.parent = some parent ∧
      e.contents = {} ∧ k = (g.alloc e).1.attach parent ⟨g.size⟩ := by
    cases adds with
    | addClass line => exact ⟨g.declared parent name (.class {}) (some .class) line, rfl, rfl, rfl, rfl⟩
    | addFunction line => exact ⟨g.declared parent name (.function {}) _ line, rfl, rfl, rfl, rfl⟩
    | addAttribute kind line => exact ⟨g.declared parent name (.attribute {}) kind line, rfl, rfl, rfl, rfl⟩
  have rooted := rooted_alloc tables.rooted above inside
  have own : (g.alloc e).1.entity ⟨g.size⟩ = e := by rw [entity_alloc, if_pos rfl]
  refine ⟨_, ⟨?_, entity_alloc_of_has _ _, fullName_alloc tables.rooted rooted, rooted,
    tabled_alloc tables.tabled empty, ?_, by rw [own], unlisted_alloc tables.tabled empty, ?_, ?_, rfl, rfl, rfl⟩, rfl⟩
  · exact g.has_alloc e _
  · rw [IsParent, own, above]
  · exact fun owner key => Option.ext fun id => get?_alloc empty
  · exact fun segmented =>
      registered_declare tables.rooted tables.tabled tables.registered segmented above inside empty

namespace Adds

variable (adds : Adds parent name g k) (tables : g.ExactTables) (inside : g.Has parent)

include adds tables inside

theorem has : k.Has id ↔ g.Has id ∨ id = ⟨g.size⟩ := by
  obtain ⟨u, appended, rfl⟩ := adds.exists_attach tables inside
  exact (arranged_attach _ parent ⟨g.size⟩).has.trans appended.has

theorem options : k.options = g.options := by
  obtain ⟨u, appended, rfl⟩ := adds.exists_attach tables inside
  exact (arranged_attach _ parent ⟨g.size⟩).options.trans appended.rest.2.1

theorem isParent_fresh : k.IsParent parent ⟨g.size⟩ := by
  obtain ⟨u, appended, rfl⟩ := adds.exists_attach tables inside
  rw [(arranged_attach u parent ⟨g.size⟩).isParent]
  exact appended.held

theorem parent_of_has (has : g.Has id) : (k.entity id).parent = (g.entity id).parent := by
  obtain ⟨u, appended, rfl⟩ := adds.exists_attach tables inside
  rw [(arranged_attach u parent ⟨g.size⟩).read Entity.parent (fun _ _ _ => rfl), appended.old has]

theorem above (covers : g.Above top lower) : k.Above top lower :=
  Relation.ReflTransGen.mono
    (fun _ _ held => (adds.parent_of_has tables inside (g.has_of_parent held)).trans held) _ _ covers

theorem get?_elsewhere (apart : owner ≠ parent) (key : String) :
    (k.entity owner).contents.get? key = (g.entity owner).contents.get? key := by
  obtain ⟨u, appended, rfl⟩ := adds.exists_attach tables inside
  rw [contents_attach (appended.has.mpr (.inl inside)) appended.unlisted apart, appended.tables]

/-- At most one entity gets another name, a child of the parent. -/
theorem name_of_not_isParent (has : g.Has id) (outside : ¬ g.IsParent parent id) :
    (k.entity id).name = (g.entity id).name := by
  obtain ⟨u, appended, rfl⟩ := adds.exists_attach tables inside
  cases found : (u.entity parent).contents.get? (u.entity ⟨g.size⟩).name with
  | none => rw [attach_of_free found, entity_congr (entities_register _ _), name_bindChild, appended.old has]
  | some previous =>
      have loser := ((contest_roles u previous ⟨g.size⟩).loser_held appended.tabled appended.held rfl found).1
      rw [name_attach_of_taken appended.unlisted found (u.has_of_parent loser), if_neg, appended.old has]
      rintro rfl
      rw [IsParent, appended.old has] at loser
      exact outside loser

theorem table_of_free (free : (g.entity parent).contents.get? name = none) :
    k.diagnostics = g.diagnostics ∧
      ∀ key, (k.entity parent).contents.get? key =
        if name = key then some ⟨g.size⟩ else (g.entity parent).contents.get? key := by
  obtain ⟨u, appended, rfl⟩ := adds.exists_attach tables inside
  have unbound : (u.entity parent).contents.get? (u.entity ⟨g.size⟩).name = none := by
    rw [appended.tables, appended.named, free]
  refine ⟨(diagnostics_attach_of_free unbound).trans appended.rest.2.2, fun key => ?_⟩
  rw [get?_attach_of_free unbound (appended.has.mpr (.inl inside)), appended.tables, appended.named]

theorem table_of_taken (taken : (g.entity parent).contents.get? name = some previous) (key : String) :
    (k.entity parent).contents.get? key =
      if numbered name (g.freeNumber (Dotted.extend (g.fullName parent) name)) = key then
        some (g.contest previous ⟨g.size⟩).2
      else if name = key then some (g.contest previous ⟨g.size⟩).1
      else (g.entity parent).contents.get? key := by
  obtain ⟨u, appended, rfl⟩ := adds.exists_attach tables inside
  obtain ⟨index, options, _⟩ := appended.rest
  have bound : (u.entity parent).contents.get? (u.entity ⟨g.size⟩).name = some previous := by
    rw [appended.tables, appended.named, taken]
  have has : g.Has previous := g.has_of_parent (tables.tabled.bound taken).1
  have number : u.freeNumber (u.fullName previous) =
      g.freeNumber (Dotted.extend (g.fullName parent) name) := by
    rw [appended.fullName has, tables.fullName_of_bound taken]
    refine freeNumber_eq (fun n below => ?_) ?_
    · rw [lookup, index]
      exact isSome_lookup_of_lt_freeNumberFrom (Nat.zero_le n) below
    · rw [lookup, index]
      exact g.lookup_freeNumber _
  have roles : u.contest previous ⟨g.size⟩ = g.contest previous ⟨g.size⟩ := by simp only [contest, options]
  rw [get?_attach_of_taken appended.unlisted bound (appended.has.mpr (.inl inside)), number, roles,
    appended.tables, appended.named]

theorem diagnostics_of_taken (taken : (g.entity parent).contents.get? name = some previous) :
    ∃ d, k.diagnostics.toList = g.diagnostics.toList ++ [d] ∧ d.TellsOfDuplicate ∧
      d.entity = Dotted.extend (g.fullName parent) name := by
  obtain ⟨u, appended, rfl⟩ := adds.exists_attach tables inside
  have bound : (u.entity parent).contents.get? (u.entity ⟨g.size⟩).name = some previous := by
    rw [appended.tables, appended.named, taken]
  have has : g.Has previous := g.has_of_parent (tables.tabled.bound taken).1
  have own : u.fullName ⟨g.size⟩ = Dotted.extend (g.fullName parent) name := by
    rw [fullName_of_child appended.rooted appended.held, appended.named, appended.fullName inside]
  have reports := congrArg Diagnostics.toList (diagnostics_attach_of_taken appended.unlisted bound)
  rw [report, Diagnostics.toList_report, appended.rest.2.2] at reports
  obtain ⟨what, described⟩ : ∃ what, u.describe previous = what ++ " " ++ u.fullName previous := ⟨_, rfl⟩
  refine ⟨_, reports, ⟨rfl, rfl, what, ?_⟩, own⟩
  dsimp only
  rw [described, appended.fullName has, tables.fullName_of_bound taken, own, ← String.append_assoc,
    ← String.append_assoc]

variable (whole : IsSegment name)

include whole

theorem exactTables_after : k.ExactTables := by
  obtain ⟨u, appended, rfl⟩ := adds.exists_attach tables inside
  have segmented : u.Segmented := by
    intro id has
    rcases appended.has.mp has with old | rfl
    · rw [appended.old old]
      exact tables.segmented id old
    · rw [appended.named]
      exact whole
  exact ⟨(arranged_attach _ parent ⟨g.size⟩).rooted appended.rooted,
    tabled_attach appended.rooted appended.tabled appended.unlisted appended.held,
    segmented_attach appended.tabled appended.unlisted appended.held segmented, appended.registered segmented⟩

theorem fullName_of_above (covers : g.Above top parent) : k.fullName top = g.fullName top := by
  have has : g.Has top := covers.has tables.rooted inside
  refine fullName_eq_of_above tables.rooted (adds.exactTables_after tables inside whole).rooted has
    ((adds.has tables inside).mpr (.inl has)) (fun upper above => ?_) fun upper above => ?_
  · refine adds.name_of_not_isParent tables inside (above.has tables.rooted has) fun held => ?_
    exact tables.rooted.not_above_parent held (above.trans covers)
  · exact adds.parent_of_has tables inside (above.has tables.rooted has)

end Adds

/-- Declarations below an entity, one after the other. -/
inductive Grows (top : EntityId) (g : Graph) : Graph → Prop
  | refl : Grows top g g
  | adds {h k : Graph} {owner : EntityId} {own : String} (grows : Grows top g h) (below : h.Above top owner)
      (whole : IsSegment own) (adds : Adds owner own h k) : Grows top g k

/-- Declarations of children of one name, each with what is declared below it before the next one. -/
inductive Series (parent : EntityId) (name : String) (g : Graph) : List EntityId → Graph → Prop
  | start : Series parent name g [] g
  | next {ids : List EntityId} {h k l : Graph} (series : Series parent name g ids h)
      (adds : Adds parent name h k) (grows : Grows ⟨h.size⟩ k l) :
      Series parent name g (ids ++ [⟨h.size⟩]) l

/-- The one of several namesakes that has the name. -/
def keeper? (policy : DuplicatePolicy) (ids : List EntityId) : Option EntityId :=
  match policy with
  | .laterWins => ids.getLast?
  | .firstWins => ids.head?

/-- The namesakes that are numbered, in the order of their numbers. -/
def demoted (policy : DuplicatePolicy) (ids : List EntityId) : List EntityId :=
  match policy with
  | .laterWins => ids.dropLast
  | .firstWins => ids.tail

/-- One more namesake contests the name with the one that has it. -/
theorem keeper?_concat (later : EntityId) (found : keeper? g.options.duplicatePolicy ids = some previous) :
    keeper? g.options.duplicatePolicy (ids ++ [later]) = some (g.contest previous later).1 ∧
      demoted g.options.duplicatePolicy (ids ++ [later]) =
        demoted g.options.duplicatePolicy ids ++ [(g.contest previous later).2] := by
  unfold contest
  revert found
  cases g.options.duplicatePolicy with
  | laterWins =>
      intro found
      obtain ⟨before, rfl⟩ := List.getLast?_eq_some_iff.mp found
      simp [keeper?, demoted]
  | firstWins =>
      intro found
      obtain ⟨behind, rfl⟩ := List.head?_eq_some_iff.mp found
      simp [keeper?, demoted]

theorem keeper?_eq_none {policy : DuplicatePolicy} : keeper? policy ids = none ↔ ids = [] := by
  cases policy <;> simp [keeper?]

/-- Diagnostics of names that are declared again: so many about the children of one name, and the others
about what stands below a child. -/
structure Reports (path name : String) (count : Nat) (reports : List Diagnostic) : Prop where
  duplicates : ∀ d ∈ reports, d.TellsOfDuplicate
  own : (reports.filter fun d => d.entity = Dotted.extend path name).length = count
  others : ∀ d ∈ reports, d.entity = Dotted.extend path name ∨
    ∃ upper lower, d.entity = Dotted.extend (Dotted.extend path upper) lower

namespace Reports

variable {path : String} {count : Nat} {reports : List Diagnostic} {d : Diagnostic}

theorem nil : Reports path name 0 [] := ⟨by simp, rfl, by simp⟩

theorem concat_own (all : Reports path name count reports) (duplicate : d.TellsOfDuplicate)
    (own : d.entity = Dotted.extend path name) : Reports path name (count + 1) (reports ++ [d]) := by
  refine ⟨?_, ?_, ?_⟩
  · simpa [or_imp, forall_and, duplicate] using all.duplicates
  · simp [List.filter_append, own, all.own]
  · simpa [or_imp, forall_and, own] using all.others

theorem concat_other (all : Reports path name count reports) (duplicate : d.TellsOfDuplicate)
    (whole : IsSegment name) {upper lower : String} (segment : IsSegment lower)
    (about : d.entity = Dotted.extend (Dotted.extend path upper) lower) :
    Reports path name count (reports ++ [d]) := by
  have apart : d.entity ≠ Dotted.extend path name := by
    intro same
    have shorter := (Dotted.extend_injective segment whole (about.symm.trans same)).1
    have lengths := congrArg (fun text => text.toList.length) shorter
    simp [Dotted.toList_extend] at lengths
  refine ⟨?_, ?_, ?_⟩
  · simpa [or_imp, forall_and, duplicate] using all.duplicates
  · simp [List.filter_append, apart, all.own]
  · intro other member
    rcases List.mem_append.mp member with before | last
    · exact all.others other before
    · rw [List.mem_singleton.mp last]
      exact .inr ⟨upper, lower, about⟩

end Reports

/-- Where the namesakes stand behind a part of a series, and what has been reported. -/
structure Numbers (parent : EntityId) (name : String) (g : Graph) (ids : List EntityId) (h : Graph) : Prop where
  tables : h.ExactTables
  options : h.options = g.options
  grown : ∀ {id}, g.Has id → h.Has id
  fullName : h.fullName parent = g.fullName parent
  keeper : (h.entity parent).contents.get? name = keeper? g.options.duplicatePolicy ids
  demoted : ∀ n, (h.entity parent).contents.get? (numbered name n) =
    (demoted g.options.duplicatePolicy ids)[n]?
  below : ∀ {id}, h.Has id → ¬ g.Has id → ∃ top ∈ ids, h.Above top id
  reports : ∃ reports, h.diagnostics.toList = g.diagnostics.toList ++ reports ∧
    Reports (g.fullName parent) name (ids.length - 1) reports

namespace Numbers

theorem start (tables : g.ExactTables) (free : (g.entity parent).contents.get? name = none)
    (numbers : ∀ n, (g.entity parent).contents.get? (numbered name n) = none) : Numbers parent name g [] g := by
  refine ⟨tables, rfl, fun has => has, rfl, free.trans (keeper?_eq_none.mpr rfl).symm, fun n => ?_,
    fun has outside => absurd has outside, [], by simp, .nil⟩
  rw [numbers]
  cases g.options.duplicatePolicy <;> rfl

variable (numbers : Numbers parent name g ids h)

include numbers

theorem freeNumber (inside : g.Has parent) (whole : IsSegment name) :
    h.freeNumber (Dotted.extend (h.fullName parent) name) =
      (Graph.demoted g.options.duplicatePolicy ids).length := by
  have lookup (n : Nat) : h.lookup (numbered (Dotted.extend (h.fullName parent) name) n) =
      (Graph.demoted g.options.duplicatePolicy ids)[n]? := by
    rw [numbered_extend, numbers.tables.lookup_extend (numbers.grown inside) (isSegment_numbered.mpr whole),
      numbers.demoted]
  refine freeNumber_eq (fun n below => ?_) ?_
  · rw [lookup, List.getElem?_eq_getElem below]
    rfl
  · rw [lookup]
    exact List.getElem?_eq_none (Nat.le_refl _)

theorem adds (inside : g.Has parent) (whole : IsSegment name) (adds : Adds parent name h k) :
    Numbers parent name g (ids ++ [⟨h.size⟩]) k := by
  have tables := numbers.tables
  have has := numbers.grown inside
  obtain ⟨reports, listed, all⟩ := numbers.reports
  -- What the table and the diagnostics are behind the declaration is said case by case, the rest at once.
  suffices step : (k.entity parent).contents.get? name =
        keeper? g.options.duplicatePolicy (ids ++ [⟨h.size⟩]) ∧
      (∀ n, (k.entity parent).contents.get? (numbered name n) =
        (Graph.demoted g.options.duplicatePolicy (ids ++ [⟨h.size⟩]))[n]?) ∧
      ∃ reports, k.diagnostics.toList = g.diagnostics.toList ++ reports ∧
        Reports (g.fullName parent) name ids.length reports by
    refine ⟨adds.exactTables_after tables has whole, (adds.options tables has).trans numbers.options,
      fun old => (adds.has tables has).mpr (.inl (numbers.grown old)),
      (adds.fullName_of_above tables has whole .refl).trans numbers.fullName, step.1, step.2.1,
      fun after outside => ?_, by simpa using step.2.2⟩
    rcases (adds.has tables has).mp after with before | rfl
    · obtain ⟨top, member, above⟩ := numbers.below before outside
      exact ⟨top, List.mem_append_left _ member, adds.above tables has above⟩
    · exact ⟨⟨h.size⟩, by simp, .refl⟩
  cases taken : (h.entity parent).contents.get? name with
  | none =>
      have empty : ids = [] := keeper?_eq_none.mp (numbers.keeper.symm.trans taken)
      subst empty
      obtain ⟨silent, table⟩ := adds.table_of_free tables has taken
      refine ⟨?_, fun n => ?_, reports, silent ▸ listed, all⟩
      · rw [table, if_pos rfl]
        cases g.options.duplicatePolicy <;> rfl
      · rw [table, if_neg (numbered_ne name n).symm, numbers.demoted]
        cases g.options.duplicatePolicy <;> rfl
  | some previous =>
      have found : keeper? h.options.duplicatePolicy ids = some previous := by
        rw [numbers.options, ← numbers.keeper, taken]
      obtain ⟨keeper, demoted⟩ := keeper?_concat ⟨h.size⟩ found
      rw [numbers.options] at keeper demoted
      have table := adds.table_of_taken tables has taken
      rw [numbers.freeNumber inside whole] at table
      have nonempty : ids ≠ [] := by
        rintro rfl
        rw [keeper?_eq_none.mpr rfl] at found
        cases found
      obtain ⟨d, told, duplicate, about⟩ := adds.diagnostics_of_taken tables has taken
      rw [numbers.fullName] at about
      have count : ids.length - 1 + 1 = ids.length :=
        Nat.sub_add_cancel (List.length_pos_iff.mpr nonempty)
      refine ⟨?_, fun n => ?_, reports ++ [d], ?_, count ▸ all.concat_own duplicate about⟩
      · rw [table, if_neg (numbered_ne _ _), if_pos rfl, keeper]
      · rw [table, demoted, if_neg (numbered_ne name n).symm, numbers.demoted, List.getElem?_append]
        by_cases last : n = (Graph.demoted g.options.duplicatePolicy ids).length
        · simp [last]
        · rw [if_neg fun same => last (numbered_injective same).symm]
          split
          · rfl
          · rw [List.getElem?_eq_none (by omega), List.getElem?_eq_none (by simp; omega)]
      · rw [told, listed, List.append_assoc]

/-- What stands below a child of the parent has a full name that goes on behind that of the parent. -/
theorem exists_fullName_of_below (held : h.IsParent parent top) (below : h.Above top lower) :
    ∃ rest, h.fullName lower = Dotted.extend (g.fullName parent) rest := by
  induction below with
  | refl => exact ⟨_, numbers.fullName ▸ fullName_of_child numbers.tables.rooted held⟩
  | @tail middle lower _ last ih =>
      obtain ⟨rest, equal⟩ := ih
      refine ⟨Dotted.extend rest (h.entity lower).name, ?_⟩
      rw [fullName_of_child numbers.tables.rooted last, equal]
      simp only [Dotted.extend, String.append_assoc]

theorem addsBelow {own : String} (whole : IsSegment name) (member : top ∈ ids) (held : h.IsParent parent top)
    (below : h.Above top owner) (segment : IsSegment own) (adds : Adds owner own h k) :
    Numbers parent name g ids k := by
  have tables := numbers.tables
  have has : h.Has owner := below.has_below (h.has_of_parent held)
  have covers : h.Above parent owner := .head held below
  have apart : parent ≠ owner := by
    rintro rfl
    exact tables.rooted.not_above_parent held below
  have table := adds.get?_elsewhere tables has apart
  obtain ⟨reports, listed, all⟩ := numbers.reports
  refine ⟨adds.exactTables_after tables has segment, (adds.options tables has).trans numbers.options,
    fun old => (adds.has tables has).mpr (.inl (numbers.grown old)),
    (adds.fullName_of_above tables has segment covers).trans numbers.fullName, (table _).trans numbers.keeper,
    fun n => (table _).trans (numbers.demoted n), fun after outside => ?_, ?_⟩
  · rcases (adds.has tables has).mp after with before | rfl
    · obtain ⟨upper, member, above⟩ := numbers.below before outside
      exact ⟨upper, member, adds.above tables has above⟩
    · exact ⟨top, member, (adds.above tables has below).tail (adds.isParent_fresh tables has)⟩
  · cases taken : (h.entity owner).contents.get? own with
    | none => exact ⟨reports, (adds.table_of_free tables has taken).1 ▸ listed, all⟩
    | some previous =>
        obtain ⟨d, told, duplicate, about⟩ := adds.diagnostics_of_taken tables has taken
        obtain ⟨rest, named⟩ := numbers.exists_fullName_of_below held below
        rw [named] at about
        exact ⟨reports ++ [d], by rw [told, listed, List.append_assoc],
          all.concat_other duplicate whole segment about⟩

theorem grows {l : Graph} (whole : IsSegment name) (member : top ∈ ids) (held : h.IsParent parent top)
    (grows : Grows top h l) : Numbers parent name g ids l ∧ l.IsParent parent top := by
  induction grows with
  | refl => exact ⟨numbers, held⟩
  | @adds middle _ owner _ _ below segment adds ih =>
      obtain ⟨before, stays⟩ := ih
      have has : middle.Has owner := below.has_below (middle.has_of_parent stays)
      exact ⟨before.addsBelow whole member stays below segment adds,
        (adds.parent_of_has before.tables has (middle.has_of_parent stays)).trans stays⟩

end Numbers

theorem Series.numbers (tables : g.ExactTables) (inside : g.Has parent) (whole : IsSegment name)
    (free : (g.entity parent).contents.get? name = none)
    (freeNumbers : ∀ n, (g.entity parent).contents.get? (numbered name n) = none)
    (series : Series parent name g ids h) : Numbers parent name g ids h := by
  induction series with
  | start => exact .start tables free freeNumbers
  | @next ids middle _ _ _ adds grows ih =>
      have fresh := adds.isParent_fresh ih.tables (ih.grown inside)
      exact ((ih.adds inside whole adds).grows whole (by simp) fresh grows).1

/-- The name in the end of one of several namesakes, by its place among them. -/
def seriesName (policy : DuplicatePolicy) (name : String) (count place : Nat) : String :=
  match policy with
  | .laterWins => if place + 1 = count then name else numbered name place
  | .firstWins => if place = 0 then name else numbered name (place - 1)

theorem Numbers.bound {place : Nat} (numbers : Numbers parent name g ids h) (among : ids[place]? = some top) :
    (h.entity parent).contents.get? (seriesName g.options.duplicatePolicy name ids.length place) =
      some top := by
  have keeper := numbers.keeper
  have demoted := numbers.demoted
  obtain ⟨within, rfl⟩ := List.getElem?_eq_some_iff.mp among
  cases policy : g.options.duplicatePolicy with
  | laterWins =>
      simp only [policy, keeper?, Graph.demoted] at keeper demoted
      simp only [seriesName]
      split
      · rename_i last
        rw [keeper, List.getLast?_eq_getElem?, ← last, Nat.add_sub_cancel, among]
      · rw [demoted, List.getElem?_dropLast, if_pos (by omega), among]
  | firstWins =>
      simp only [policy, keeper?, Graph.demoted] at keeper demoted
      simp only [seriesName]
      split
      · rename_i first
        rw [keeper, List.head?_eq_getElem?, ← first, among]
      · rw [demoted, List.getElem?_tail, Nat.sub_add_cancel (by omega), among]

theorem series_numbering (lockStep : g.LockStep) (segmented : g.Segmented) (inside : g.Has parent)
    (whole : IsSegment name) (free : (g.entity parent).contents.get? name = none)
    (freeNumbers : ∀ n, (g.entity parent).contents.get? (numbered name n) = none)
    (series : Series parent name g ids h) :
    (∀ place top, ids[place]? = some top →
        h.IsParent parent top ∧
        (h.entity top).name = seriesName g.options.duplicatePolicy name ids.length place ∧
        (h.entity parent).contents.get? (h.entity top).name = some top ∧
        h.fullName top = Dotted.extend (g.fullName parent) (h.entity top).name ∧
        ∀ lower, h.isAncestor top lower = true →
          h.lookup (Dotted.join (h.fullName top :: h.namesBelow top lower)) = some lower) ∧
      (∀ id, h.Has id → ¬ g.Has id → ∃ top ∈ ids, h.isAncestor top id = true) ∧
      ∃ reports, h.diagnostics.toList = g.diagnostics.toList ++ reports ∧
        Reports (g.fullName parent) name (ids.length - 1) reports := by
  have numbers := series.numbers (lockStep.tables segmented) inside whole free freeNumbers
  have tables := numbers.tables
  refine ⟨fun place top among => ?_, fun id has outside => ?_, numbers.reports⟩
  · have bound := numbers.bound among
    obtain ⟨held, named⟩ := tables.tabled.bound bound
    refine ⟨held, named, named ▸ bound, ?_, fun lower ancestor => ?_⟩
    · rw [fullName_of_child tables.rooted held, numbers.fullName]
    · have below : h.Above top lower := above_of_mem_ancestorsFrom (List.contains_iff_mem.mp ancestor)
      have has := h.has_of_parent held
      rw [← (DiffersAt.refl h held).fullName_below tables.rooted tables.rooted has below]
      exact tables.lookup_fullName (below.has_below has)
  · obtain ⟨top, member, above⟩ := numbers.below has outside
    exact ⟨top, member, (isAncestor_iff tables.rooted has).mpr above⟩

theorem LockStep.unbound (lockStep : g.LockStep)
    (plain : ∀ key ∈ (g.entity parent).contents.order, Unnumbered key) (name : String) (n : Nat) :
    (g.entity parent).contents.get? (numbered name n) = none := by
  refine Option.not_isSome_iff_eq_none.mp fun bound => ?_
  exact not_unnumbered name n (plain _ (((lockStep.listed parent).mem_order _).mpr bound))

/-- A module with nothing in it, where the first of several namesakes keeps the name. -/
def emptyModule : Graph := run (empty { duplicatePolicy := .firstWins }) [.addModule "m" false]

/-- A function, a class with a method and an attribute, all of one name. -/
def threefold : Graph :=
  ((((emptyModule.addFunction ⟨0⟩ "X" 1).1.addClass ⟨0⟩ "X" 2).1.addFunction ⟨2⟩ "f" 3).1.addAttribute
    ⟨0⟩ "X" none 4).1

theorem series_threefold : Series ⟨0⟩ "X" emptyModule [⟨1⟩, ⟨2⟩, ⟨4⟩] threefold := by
  have whole : IsSegment "f" := by decide
  have first : Series ⟨0⟩ "X" emptyModule [⟨1⟩] (emptyModule.addFunction ⟨0⟩ "X" 1).1 :=
    .next .start (.addFunction 1) .refl
  have second : Series ⟨0⟩ "X" emptyModule [⟨1⟩, ⟨2⟩]
      (((emptyModule.addFunction ⟨0⟩ "X" 1).1.addClass ⟨0⟩ "X" 2).1.addFunction ⟨2⟩ "f" 3).1 :=
    .next first (.addClass 2) (.adds .refl .refl whole (.addFunction 3))
  exact .next second (.addAttribute none 4) .refl

theorem series_numbering_threefold :
    threefold.fullName ⟨1⟩ = "m.X" ∧ threefold.fullName ⟨2⟩ = "m.X 0" ∧ threefold.fullName ⟨4⟩ = "m.X 1" ∧
      threefold.lookup "m.X 0.f" = some ⟨3⟩ ∧
      (threefold.diagnostics.toList.filter fun d => d.entity = "m.X").length = 2 := by
  have dotless : emptyModule.Dotless := by decide +kernel
  have admits : (empty { duplicatePolicy := .firstWins }).Admits [.addModule "m" false] := ⟨trivial, trivial⟩
  have lockStep : emptyModule.LockStep := (attained_run admits dotless).lockStep
  have top : emptyModule.fullName ⟨0⟩ = "m" := by decide +kernel
  obtain ⟨children, _, reports, listed, all⟩ := series_numbering lockStep dotless.segmented (by decide +kernel)
    (by decide) (by decide +kernel) (lockStep.unbound (by decide +kernel) "X") series_threefold
  rw [top] at children all
  obtain ⟨_, named, _, first, _⟩ := children 0 ⟨1⟩ rfl
  obtain ⟨_, namedSecond, _, second, below⟩ := children 1 ⟨2⟩ rfl
  obtain ⟨_, namedThird, _, third, _⟩ := children 2 ⟨4⟩ rfl
  rw [named] at first
  rw [namedSecond] at second
  rw [namedThird] at third
  have found := below ⟨3⟩ (by decide +kernel)
  have names : threefold.namesBelow ⟨2⟩ ⟨3⟩ = ["f"] := by decide +kernel
  rw [second, names] at found
  have silent : emptyModule.diagnostics.toList = [] := by decide +kernel
  rw [silent, List.nil_append] at listed
  exact ⟨first, second, third, found, listed ▸ all.own⟩

/-- A class with a class in it that has two methods of one name. -/
def innerNamesakes : List Call :=
  [.addModule "m" false,
    .build Hook.standard ⟨0⟩ (.ok
      { body :=
          [.classDef { name := "C", line := 1 }
            [.classDef { name := "x", line := 2 }
              [.function { name := "setter", line := 3 } [], .function { name := "setter", line := 4 } []]]] })]

/-- A name with a dot in it can be registered already where the table of the parent has no such name. -/
theorem series_dottedName_renumbered :
    ∃ ids h, (run (empty {}) innerNamesakes).LockStep ∧
      ((run (empty {}) innerNamesakes).entity ⟨1⟩).contents.get? "x.setter" = none ∧
      (∀ n, ((run (empty {}) innerNamesakes).entity ⟨1⟩).contents.get? (numbered "x.setter" n) = none) ∧
      Series ⟨1⟩ "x.setter" (run (empty {}) innerNamesakes) ids h ∧ ids.length = 2 ∧
      (ids.map fun id => (h.entity id).name) = ["x.setter 1", "x.setter"] := by
  have dotless : (run (empty {}) innerNamesakes).Dotless := by decide +kernel
  have admits : (empty {}).Admits innerNamesakes := ⟨trivial, Hook.describes_standard, trivial⟩
  have lockStep := (attained_run admits dotless).lockStep
  have series (g : Graph) : Series ⟨1⟩ "x.setter" g [⟨g.size⟩, ⟨(g.addFunction ⟨1⟩ "x.setter" 5).1.size⟩]
      ((g.addFunction ⟨1⟩ "x.setter" 5).1.addFunction ⟨1⟩ "x.setter" 6).1 :=
    .next (.next .start (.addFunction 5) .refl) (.addFunction 6) .refl
  exact ⟨_, _, lockStep, by decide +kernel, lockStep.unbound (by decide +kernel) _, series _, rfl,
    by decide +kernel⟩

end Graph

end DocGraph
