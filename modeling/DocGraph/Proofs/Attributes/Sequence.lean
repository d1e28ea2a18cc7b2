import DocGraph.Proofs.Attributes.Recorded

namespace DocGraph

namespace Assignment

/-- The value that an assignment gives. An augmented one gives an operand instead. -/
def given? (a : Assignment) : Option Expr := if a.isBinding then a.value else none

def operand? (a : Assignment) : Option (BinaryOp × Expr) :=
  match a.op, a.value with
  | some op, some value => some (op, value)
  | _, _ => none

/-- A value combined with operands, one after the other. -/
def combined (value : Expr) (operands : List (BinaryOp × Expr)) : Expr :=
  operands.foldl (fun left operand => .binary left operand.1 operand.2) value

/-- The last value given, combined with the operands behind it. -/
def lastValue : List Assignment → Option Expr
  | [] => none
  | a :: rest => (lastValue rest).or (a.given?.map (combined · (rest.filterMap operand?)))

def lastHint (as : List Assignment) : Option Expr := (as.filterMap Assignment.hint).getLast?

/-- The last assignment has a value, and none is there before it. -/
def givesConstant (as : List Assignment) : Bool :=
  as.getLast?.any (·.value.isSome) && (lastValue as.dropLast).isNone

/-- What is kept of a sequence of assignments. -/
def summary (as : List Assignment) : AttributeInfo := { hint := lastHint as, value := lastValue as }

/-- The kind of a name of a module behind a sequence of assignments. -/
def kindOf (name : String) (as : List Assignment) : EntityKind :=
  if Text.isUpper name && givesConstant as then .constant else .variable

/-- The value is a literal, and an augmented assignment has no hint. -/
structure Simple (a : Assignment) : Prop where
  literal : ∀ value ∈ a.value, value.isLiteral = true
  unhinted : a.isBinding = false → a.hint = none

variable {a : Assignment} {as : List Assignment}

theorem lastValue_concat (as : List Assignment) (a : Assignment) :
    lastValue (as ++ [a]) = Graph.assignedValue (lastValue as) a := by
  obtain ⟨hint, value, line, op⟩ := a
  induction as with
  | nil => cases value <;> cases op <;> rfl
  | cons first rest ih =>
      rw [List.cons_append, lastValue, ih, lastValue, List.filterMap_append]
      cases value with
      | none => cases op <;> simp [Graph.assignedValue, List.filterMap_cons, operand?]
      | some value =>
          cases op with
          | none => rfl
          | some op =>
              -- The operand is behind the value, whether that is among the rest or comes first.
              simp only [Graph.assignedValue, operand?, List.filterMap_cons, List.filterMap_nil, combined,
                List.foldl_append, List.foldl_cons, List.foldl_nil]
              cases lastValue rest <;> cases first.given? <;> rfl

theorem lastHint_concat (as : List Assignment) (a : Assignment) :
    lastHint (as ++ [a]) = a.hint.or (lastHint as) := by
  rw [lastHint, List.filterMap_append, List.getLast?_append, lastHint]
  cases given : a.hint <;> simp [given]

theorem givesConstant_concat (as : List Assignment) (a : Assignment) :
    givesConstant (as ++ [a]) = (a.value.isSome && (lastValue as).isNone) := by
  simp [givesConstant]

theorem kindOf_cases (name : String) (as : List Assignment) :
    kindOf name as = .constant ∨ kindOf name as = .variable := by
  unfold kindOf
  split
  · exact .inl rfl
  · exact .inr rfl

theorem lastValue_eq_none : lastValue as = none ↔ ∀ a ∈ as, a.given? = none := by
  induction as with
  | nil => simp [lastValue]
  | cons first rest ih => simp [lastValue, ih, and_comm]

theorem givesConstant_iff (binding : ∀ a ∈ as, a.isBinding = true) :
    givesConstant as = true ↔
      ∃ before a, as = before ++ [a] ∧ a.value.isSome = true ∧ ∀ b ∈ before, b.value = none := by
  have given {b : Assignment} (among : b ∈ as) : b.given? = b.value := by rw [given?, if_pos (binding b among)]
  rcases List.eq_nil_or_concat as with rfl | ⟨before, a, rfl⟩
  · simp [givesConstant]
  · rw [List.concat_eq_append] at given ⊢
    have earlier : lastValue before = none ↔ ∀ b ∈ before, b.value = none := by
      rw [lastValue_eq_none]
      exact forall₂_congr fun b among => by rw [given (List.mem_append_left _ among)]
    rw [givesConstant_concat, Bool.and_eq_true, Option.isNone_iff_eq_none, earlier]
    constructor
    · rintro ⟨valued, only⟩
      exact ⟨before, a, rfl, valued, only⟩
    · rintro ⟨_, _, same, valued, only⟩
      obtain ⟨rfl, last⟩ := List.append_inj' same rfl
      cases last
      exact ⟨valued, only⟩

theorem summary_of_augmented (simple : ∀ a ∈ as, a.Simple) (augmented : ∀ a ∈ as, a.isBinding = false) :
    summary as = {} := by
  have value : lastValue as = none := lastValue_eq_none.mpr fun a among => by simp [given?, augmented a among]
  have hint : lastHint as = none := by
    rw [lastHint, List.getLast?_eq_none_iff, List.filterMap_eq_nil_iff]
    exact fun a among => (simple a among).unhinted (augmented a among)
  rw [summary, value, hint]

theorem mem_of_lastHint {hint : Expr} (last : lastHint as = some hint) : ∃ a ∈ as, a.hint = some hint :=
  List.mem_filterMap.mp (List.mem_of_getLast? last)

theorem lastValue_cases (simple : ∀ a ∈ as, a.Simple) {value : Expr} (last : lastValue as = some value) :
    value.isLiteral = true ∨ ∃ left op right, value = .binary left op right := by
  induction as using List.reverseRecOn generalizing value with
  | nil => cases last
  | append_singleton as a ih =>
      have literal := (simple a (by simp)).literal
      rw [lastValue_concat, Graph.assignedValue] at last
      split at last
      · exact ih (fun a among => simple a (List.mem_append_left _ among)) last
      · rename_i given _
        cases last
        exact .inl (literal _ given)
      · obtain ⟨left, _, rfl⟩ := Option.map_eq_some_iff.mp last
        exact .inr ⟨_, _, _, rfl⟩

end Assignment

namespace Graph

open Assignment

variable {g h : Graph} {module attr : EntityId} {name : String} {as : List Assignment} {a : Assignment}

/-- Whether a type hint is a final marker or marks a type alias. -/
def isMarker (g : Graph) (scope : EntityId) (hint : Option Expr) : Bool :=
  g.isFinal scope hint || (hint.bind (g.hintName? scope)).any g.options.isTypeAliasMarker

/-- None of the hints is a marker. -/
def NoMarkers (g : Graph) (scope : EntityId) (as : List Assignment) : Prop :=
  ∀ a ∈ as, g.isMarker scope a.hint = false

instance (g : Graph) (scope : EntityId) (as : List Assignment) : Decidable (g.NoMarkers scope as) :=
  inferInstanceAs (Decidable (∀ a ∈ as, g.isMarker scope a.hint = false))

theorem Annotated.noMarkers (annotated : Annotated g h) (scope : EntityId) (as : List Assignment) :
    h.NoMarkers scope as ↔ g.NoMarkers scope as := by
  have same : h.hintName? scope = g.hintName? scope := funext (annotated.hintName? scope)
  unfold NoMarkers isMarker
  simp only [annotated.isFinal, annotated.options, same]

theorem noMarkers_member (sound : g.Sound) (held : g.IsParent module attr)
    (type : (g.entity attr).type = .attribute) (as : List Assignment) :
    g.NoMarkers attr as ↔ g.NoMarkers module as := by
  have expand (dotted : String) : g.expand attr dotted = g.expand module dotted := by
    have localName (segment : String) : g.localName attr segment = g.localName module segment := by
      rw [localName, ancestors_of_child sound.rooted held, localNameAlong, type]
      rfl
    unfold expand
    cases Dotted.parts dotted with
    | nil => rfl
    | cons segment rest => rw [expandSegments, expandSegments, reachFirst, reachFirst, localName]
  have read (hint : Expr) : g.hintName? attr hint = g.hintName? module hint := by
    rw [hintName?, hintName?, funext expand]
  unfold NoMarkers isMarker isFinal
  simp only [funext read]

theorem NoMarkers.last {scope : EntityId} (unmarked : g.NoMarkers scope as) :
    g.isMarker scope (lastHint as) = false := by
  cases last : lastHint as with
  | none => rfl
  | some hint =>
      obtain ⟨a, among, given⟩ := mem_of_lastHint last
      exact given ▸ unmarked a among

theorem constancy_summary {kind : EntityKind} (own : kind = .constant ∨ kind = .variable)
    (named : (g.entity attr).name = name) (unmarked : g.NoMarkers attr (as ++ [a])) :
    g.constancy attr (some kind) { hint := a.hint.or (lastHint as), value := lastValue as } a.hint a.value false
      .variable = some (kindOf name (as ++ [a])) := by
  have plain : g.isFinal attr a.hint = false := (Bool.or_eq_false_iff.mp (unmarked a (by simp))).1
  have plainLast : g.isFinal attr (a.hint.or (lastHint as)) = false := by
    rw [← lastHint_concat]
    exact (Bool.or_eq_false_iff.mp unmarked.last).1
  unfold constancy kindOf
  simp only [plain, plainLast, named, givesConstant_concat]
  rcases own with rfl | rfl <;> cases Text.isUpper name <;> cases a.value <;> cases lastValue as <;> rfl

namespace Reads

variable {kind : EntityKind}

theorem record (reads : g.Reads attr (some kind) (summary as)) (own : kind = .constant ∨ kind = .variable)
    (named : (g.entity attr).name = name) (unmarked : g.NoMarkers attr (as ++ [a])) :
    (g.recordAttribute attr a false .variable).Reads attr (some (kindOf name (as ++ [a]))) (summary (as ++ [a])) := by
  have plain : g.isFinal attr a.hint = false := (Bool.or_eq_false_iff.mp (unmarked a (by simp))).1
  have recorded : (g.recordAttribute attr a false .variable).Reads attr
      (g.constancy attr (some kind) { hint := a.hint.or (lastHint as), value := lastValue as } a.hint a.value false
        .variable)
      { hint := a.hint.or (lastHint as), value := assignedValue (lastValue as) a,
        explicitKind := false || g.isFinal attr a.hint } := reads.recordAttribute a false .variable
  rw [constancy_summary own named unmarked, plain] at recorded
  rwa [summary, lastHint_concat, lastValue_concat]

theorem notType {kind : Option EntityKind} (reads : g.Reads attr kind (summary as)) (simple : ∀ a ∈ as, a.Simple)
    (unmarked : g.NoMarkers attr as) : g.isTypeAlias attr = false ∧ g.isTypeVariable attr = false := by
  have hint := (Bool.or_eq_false_iff.mp unmarked.last).2
  unfold isTypeAlias isTypeVariable
  rw [reads.info]
  cases last : lastValue as with
  | none => simp [summary, last]
  | some value =>
      have plain := lastValue_cases simple last
      simp only [summary, last, Option.bind_some, hint, Bool.false_or, buildsType, hintName?]
      cases value <;> simp_all [Expr.isLiteral, Expr.subscripted, Expr.dotted?, Expr.segments?]

section settle

variable {kind : Option EntityKind} {info : AttributeInfo}

theorem unwrapConstants (reads : g.Reads attr kind info) (plain : g.isFinal attr info.hint = false)
    (ids : List EntityId) : (ids.foldl Graph.unwrapConstant g).Reads attr kind info := by
  induction ids generalizing g with
  | nil => exact reads
  | cons other rest ih =>
      have told := told_unwrapConstant g other
      refine ih ?_ ((Annotated.isFinal told.toEntrywise attr info.hint).trans plain)
      by_cases same : other = attr
      · subst same
        have unchanged : g.unwrapConstant other = g := by
          unfold Graph.unwrapConstant unwrapFinal
          simp [reads.info, plain]
        rwa [unchanged]
      · exact reads.told told (Ne.symm same)

theorem inferHints (reads : g.Reads attr kind info) (ids : List EntityId) :
    (ids.foldl Graph.inferHint g).Reads attr kind
      { info with hint := if attr ∈ ids then info.hint.or (info.value.bind Expr.inferType?) else info.hint } := by
  induction ids generalizing g info with
  | nil => exact reads
  | cons other rest ih =>
      have first : (g.inferHint other).Reads attr kind
          { info with hint := if other = attr then info.hint.or (info.value.bind Expr.inferType?) else info.hint } :=
        reads.rehint other fun info => info.hint.or (info.value.bind Expr.inferType?)
      have inferred := ih first
      by_cases same : other = attr
      · simpa [same, Option.or_assoc] using inferred
      · simpa [same, Ne.symm same] using inferred

theorem settle (reads : g.Reads attr kind info) (plain : g.isFinal attr info.hint = false) {scope : EntityId}
    (among : attr ∈ g.attributesOf scope) :
    (g.settleScope scope).Reads attr kind { info with hint := info.hint.or (info.value.bind Expr.inferType?) } := by
  have settled := (reads.unwrapConstants plain (g.attributesOf scope)).inferHints (g.attributesOf scope)
  rwa [if_pos among] at settled

end settle

end Reads

end Graph

end DocGraph
