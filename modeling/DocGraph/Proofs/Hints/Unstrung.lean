import DocGraph.Expr.Hint
import DocGraph.Proofs.Names.Chains
import DocGraph.Proofs.Text.Words

namespace DocGraph.Expr

/-- The text is made of identifiers with dots between them. -/
def Spells (text : String) (segments : List String) : Prop :=
  segments ≠ [] ∧ (∀ segment ∈ segments, Text.isIdentifier segment = true) ∧ Dotted.join segments = text

theorem Spells.parts {text : String} {segments : List String} (spelled : Spells text segments) :
    Dotted.parts text = segments := by
  obtain ⟨nonempty, identifiers, rfl⟩ := spelled
  exact Dotted.parts_join nonempty fun segment member =>
    Text.notMem_of_isIdentifier (identifiers segment member) (by decide +kernel)

theorem isPath_iff {text : String} : isPath text = true ↔ ∃ segments, Spells text segments := by
  constructor
  · intro path
    exact ⟨Dotted.parts text, Dotted.parts_ne_nil text, List.all_eq_true.mp path, Dotted.join_parts text⟩
  · rintro ⟨segments, spelled⟩
    rw [isPath, spelled.parts]
    exact List.all_eq_true.mpr spelled.2.1

/-- A way from an expression into a part of it. -/
inductive Branch where
  | value
  | index
  | element (i : Nat)
  | left
  | right

/-- The part that a branch leads to. Only subscripts, tuples, lists and binary operations have branches. -/
def branch? : Expr → Branch → Option Expr
  | .subscript value _, .value => some value
  | .subscript _ index, .index => some index
  | .tuple elts, .element i => elts[i]?
  | .list elts, .element i => elts[i]?
  | .binary left _ _, .left => some left
  | .binary _ _ right, .right => some right
  | _, _ => none

/-- The part at a place, which is a row of branches. -/
def at? (expr : Expr) : List Branch → Option Expr
  | [] => some expr
  | branch :: place => (expr.branch? branch).bind fun part => part.at? place

/-- What stands at the place of an expression itself, the parts along its branches apart. -/
inductive Label where
  | subscript
  | tuple (size : Nat)
  | list (size : Nat)
  | binary (op : BinaryOp)
  | whole (expr : Expr)

def label : Expr → Label
  | .subscript _ _ => .subscript
  | .tuple elts => .tuple elts.length
  | .list elts => .list elts.length
  | .binary _ op _ => .binary op
  | expr => .whole expr

theorem sizeOf_branch? {expr part : Expr} {branch : Branch} (leads : expr.branch? branch = some part) :
    sizeOf part < sizeOf expr := by
  unfold branch? at leads
  split at leads
  case h_3 | h_4 =>
    have smaller := List.sizeOf_lt_of_mem (List.mem_of_getElem? leads)
    simp only [tuple.sizeOf_spec, list.sizeOf_spec]
    omega
  case h_7 => cases leads
  all_goals
    obtain rfl := Option.some.inj leads
    simp only [subscript.sizeOf_spec, binary.sizeOf_spec]
    omega

theorem branch_induction {motive : Expr → Prop}
    (parts : ∀ expr, (∀ branch part, expr.branch? branch = some part → motive part) → motive expr) (expr : Expr) :
    motive expr := by
  refine parts expr fun branch part leads => ?_
  have smaller := sizeOf_branch? leads
  exact branch_induction parts part
termination_by sizeOf expr

theorem eq_of_label {left right : Expr} (root : left.label = right.label)
    (parts : ∀ branch, left.branch? branch = right.branch? branch) : left = right := by
  have leaf {expr other : Expr} (labelled : expr.label = .whole other) : expr = other := by
    cases expr <;> simp_all [label]
  cases left with
  | subscript =>
      cases right <;> simp [label] at root
      simpa [branch?] using And.intro (parts .value) (parts .index)
  | binary =>
      cases right <;> simp [label] at root
      simpa [branch?, root] using And.intro (parts .left) (parts .right)
  | tuple | list =>
      cases right <;> simp [label] at root
      exact congrArg _ (List.ext_getElem? fun i => parts (.element i))
  | _ => exact (leaf root.symm).symm

theorem eq_of_labels {left right : Expr} (same : ∀ place, (left.at? place).map label = (right.at? place).map label) :
    left = right := by
  induction left using branch_induction generalizing right with
  | parts left ih =>
      refine eq_of_label (by simpa [at?] using same []) fun branch => ?_
      have along (place : List Branch) := same (branch :: place)
      simp only [at?] at along
      cases first : left.branch? branch with
      | none =>
          cases second : right.branch? branch with
          | none => rfl
          | some part => simpa [first, second, at?] using along []
      | some part =>
          cases second : right.branch? branch with
          | none => simpa [first, second, at?] using along []
          | some other => rw [ih branch part first fun place => by simpa [first, second] using along place]

theorem unstringAll_eq_map (elts : List Expr) : unstringAll elts = elts.map unstring := by
  induction elts with
  | nil => rfl
  | cons expr rest ih => rw [unstringAll, ih, List.map_cons]

/-- Any expression but a string that spells a path, blanks around it aside. -/
def IsPlain (expr : Expr) : Prop :=
  ∀ text segments, expr = .constant (.str text) → ¬ Spells (Text.trimText text) segments

theorem isPlain_or_spells (expr : Expr) :
    expr.IsPlain ∨ ∃ text segments, expr = .constant (.str text) ∧ Spells (Text.trimText text) segments := by
  by_cases plain : expr.IsPlain
  · exact .inl plain
  · right
    simpa [IsPlain] using plain

theorem unstring_spelled {text : String} {segments : List String} (spelled : Spells (Text.trimText text) segments) :
    (Expr.constant (.str text)).unstring = ofSegments segments := by
  rw [unstring, if_pos (isPath_iff.mpr ⟨segments, spelled⟩), ofDotted, spelled.parts]

theorem unstring_of_isPlain {text : String} (plain : (Expr.constant (.str text)).IsPlain) :
    (Expr.constant (.str text)).unstring = .constant (.str text) := by
  have other : ¬ isPath (Text.trimText text) = true := fun path => by
    obtain ⟨segments, spelled⟩ := isPath_iff.mp path
    exact plain text segments rfl spelled
  rw [unstring, if_neg other]

theorem isPlain_unstring (hint : Expr) : hint.unstring.IsPlain := by
  rcases isPlain_or_spells hint with plain | ⟨text, segments, rfl, spelled⟩
  · cases hint with
    | constant value =>
        cases value with
        | str text => rwa [unstring_of_isPlain plain]
        | _ => simp [unstring, IsPlain]
    | _ => simp [unstring, IsPlain]
  · intro text' segments' same
    have chain := segments?_ofSegments spelled.1
    rw [unstring_spelled spelled] at same
    rw [same] at chain
    cases chain

theorem label_unstring {hint : Expr} (plain : hint.IsPlain) : hint.unstring.label = hint.label := by
  cases hint with
  | constant value =>
      cases value with
      | str text => rw [unstring_of_isPlain plain]
      | _ => simp [unstring]
  | tuple elts | list elts => simp [unstring, label, unstringAll_eq_map]
  | _ => simp [unstring, label]

theorem branch?_of_segments? {chain : Expr} {segments : List String} (spelled : chain.segments? = some segments)
    (branch : Branch) : chain.branch? branch = none := by
  cases chain <;> simp [segments?] at spelled <;> rfl

/-- Unstringing goes along every branch; the chains that it makes have none. -/
theorem branch?_unstring (hint : Expr) (branch : Branch) :
    hint.unstring.branch? branch = (hint.branch? branch).map unstring := by
  rcases isPlain_or_spells hint with plain | ⟨text, segments, rfl, spelled⟩
  · cases hint with
    | constant value =>
        cases value with
        | str text =>
            rw [unstring_of_isPlain plain]
            rfl
        | _ => simp [unstring, branch?]
    | tuple elts | list elts => cases branch <;> simp [unstring, branch?, unstringAll_eq_map]
    | subscript | binary => cases branch <;> simp [unstring, branch?]
    | _ => simp [unstring, branch?]
  · rw [unstring_spelled spelled, branch?_of_segments? (segments?_ofSegments spelled.1)]
    rfl

theorem at?_unstring (hint : Expr) (place : List Branch) : hint.unstring.at? place = (hint.at? place).map unstring := by
  induction place generalizing hint with
  | nil => rfl
  | cons branch place ih =>
      rw [at?, at?, branch?_unstring]
      cases hint.branch? branch with
      | none => rfl
      | some part => exact ih part

/-- The paths that strings spell have no strings in them. -/
theorem unstring_unstring (hint : Expr) : hint.unstring.unstring = hint.unstring := by
  refine eq_of_labels fun place => ?_
  rw [at?_unstring hint.unstring, at?_unstring hint]
  cases hint.at? place with
  | none => rfl
  | some part => exact congrArg some (label_unstring part.isPlain_unstring)

/-- The other expression is the hint with its strings replaced: at the place of a string that spells a path stands the
chain of the names, and at every other place stands what stood there. -/
structure Unstrung (hint other : Expr) : Prop where
  replaced : ∀ place text segments, hint.at? place = some (.constant (.str text)) →
    Spells (Text.trimText text) segments → ∃ chain, other.at? place = some chain ∧
      chain.segments? = some segments ∧ chain.dotted? = some (Text.trimText text)
  kept : ∀ place, (∀ part, hint.at? place = some part → part.IsPlain) →
    (other.at? place).map label = (hint.at? place).map label

theorem unstrung_unstring (hint : Expr) : hint.Unstrung hint.unstring where
  replaced := by
    intro place text segments found spelled
    have names := segments?_ofSegments spelled.1
    refine ⟨ofSegments segments, ?_, names, ?_⟩
    · rw [at?_unstring, found, Option.map_some, unstring_spelled spelled]
    · rw [dotted?, names, Option.map_some, spelled.2.2]
  kept := by
    intro place plain
    rw [at?_unstring]
    cases found : hint.at? place with
    | none => rfl
    | some part => exact congrArg some (label_unstring (plain part found))

theorem Unstrung.unique {hint left right : Expr} (first : hint.Unstrung left) (second : hint.Unstrung right) :
    left = right := by
  refine eq_of_labels fun place => ?_
  by_cases plain : ∀ part, hint.at? place = some part → part.IsPlain
  · rw [first.kept place plain, second.kept place plain]
  · simp only [not_forall] at plain
    obtain ⟨part, found, string⟩ := plain
    obtain ⟨text, segments, rfl, spelled⟩ := (isPlain_or_spells part).resolve_left string
    obtain ⟨chain, atLeft, names, -⟩ := first.replaced place text segments found spelled
    obtain ⟨chain', atRight, names', -⟩ := second.replaced place text segments found spelled
    rw [atLeft, atRight, eq_ofSegments names, eq_ofSegments names']

/-- A hint is unstrung once and for all: no string that spells a path is left at any place. The result is the one
expression that differs from the hint just in having chains for such strings. -/
theorem unstring_normalizes (hint : Expr) :
    hint.unstring.unstring = hint.unstring ∧
      (∀ place text segments, hint.unstring.at? place = some (.constant (.str text)) →
        ¬ Spells (Text.trimText text) segments) ∧
      ∀ other, hint.Unstrung other ↔ other = hint.unstring := by
  refine ⟨unstring_unstring hint, fun place text segments found => ?_, fun other => ⟨fun unstrung => ?_, ?_⟩⟩
  · rw [at?_unstring] at found
    obtain ⟨part, -, same⟩ := Option.map_eq_some_iff.mp found
    exact part.isPlain_unstring text segments same
  · exact unstrung.unique (unstrung_unstring hint)
  · rintro rfl
    exact unstrung_unstring hint

end DocGraph.Expr
