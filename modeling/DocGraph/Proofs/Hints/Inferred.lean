import Mathlib.Data.List.ReduceOption
import DocGraph.Expr.Literal

namespace DocGraph.Expr

/-- Displays of a row of elements. -/
inductive Sequence where
  | list
  | set
  | tuple

namespace Sequence

def expr : Sequence → List Expr → Expr
  | list => .list
  | set => .set
  | tuple => .tuple

def name : Sequence → String
  | list => "list"
  | set => "set"
  | tuple => "tuple"

/-- What stands in the brackets of a hint. -/
def index : Sequence → String → Expr
  | tuple, type => .tuple [.name type, .constant .ellipsis]
  | _, type => .name type

end Sequence

/-- A constant other than `None`, or a number with a sign, and the name of its type. -/
inductive Scalar : Expr → String → Prop
  | constant {value : Constant} (something : value ≠ .none) : Scalar (.constant value) value.typeName
  | signed {op : UnaryOp} {value : Constant} (sign : op = .uSub ∨ op = .uAdd)
      (number : (Expr.constant value).isNumber = true) : Scalar (.unary op (.constant value)) value.typeName

/-- Scalars, `None`, and containers of literals; a dictionary has all its keys. -/
inductive Literal : Expr → Prop
  | none : Literal (.constant .none)
  | scalar {expr : Expr} {type : String} (single : Scalar expr type) : Literal expr
  | sequence (kind : Sequence) {elts : List Expr} (all : ∀ elt ∈ elts, Literal elt) : Literal (kind.expr elts)
  | dict {keys values : List Expr} (allKeys : ∀ key ∈ keys, Literal key) (allValues : ∀ value ∈ values, Literal value) :
      Literal (.dict (keys.map some) values)

/-- The elements of a container. -/
def elements : Expr → List Expr
  | .list elts => elts
  | .set elts => elts
  | .tuple elts => elts
  | .dict keys values => keys.reduceOption ++ values
  | _ => []

theorem sizeOf_of_mem_elements {expr part : Expr} (member : part ∈ expr.elements) : sizeOf part < sizeOf expr := by
  cases expr with
  | list elts | set elts | tuple elts =>
      rw [elements] at member
      have smaller := List.sizeOf_lt_of_mem member
      simp only [list.sizeOf_spec, set.sizeOf_spec, tuple.sizeOf_spec]
      omega
  | dict keys values =>
      rw [elements, List.mem_append, List.reduceOption_mem_iff] at member
      rcases member with key | value
      · have smaller := List.sizeOf_lt_of_mem key
        simp only [dict.sizeOf_spec, Option.some.sizeOf_spec] at smaller ⊢
        omega
      · have smaller := List.sizeOf_lt_of_mem value
        simp only [dict.sizeOf_spec]
        omega
  | _ => cases member

theorem mem_elements_dict {keys values : List Expr} {part : Expr} :
    part ∈ (Expr.dict (keys.map some) values).elements ↔ part ∈ keys ∨ part ∈ values := by
  simp [elements, List.reduceOption_mem_iff]

theorem elements_sequence (kind : Sequence) (elts : List Expr) : (kind.expr elts).elements = elts := by
  cases kind <;> rfl

theorem element_induction {motive : Expr → Prop}
    (elements : ∀ expr, (∀ part ∈ expr.elements, motive part) → motive expr) (expr : Expr) : motive expr := by
  refine elements expr fun part member => ?_
  have smaller := sizeOf_of_mem_elements member
  exact element_induction elements part
termination_by sizeOf expr

theorem areLiterals_iff {elts : List Expr} : areLiterals elts = true ↔ ∀ elt ∈ elts, elt.isLiteral = true := by
  induction elts with
  | nil => simp [areLiterals]
  | cons expr rest ih => simp [areLiterals, ih]

theorem areLiteralKeys_iff {keys : List (Option Expr)} :
    areLiteralKeys keys = true ↔ ∃ all : List Expr, keys = all.map some ∧ ∀ key ∈ all, key.isLiteral = true := by
  induction keys with
  | nil => simp [areLiteralKeys]
  | cons key rest ih =>
      cases key with
      | none =>
          refine iff_of_false (by simp [areLiteralKeys]) ?_
          rintro ⟨all, same, -⟩
          cases all <;> simp at same
      | some key =>
          rw [areLiteralKeys, Bool.and_eq_true, ih]
          constructor
          · rintro ⟨literal, all, rfl, literals⟩
            exact ⟨key :: all, rfl, by simpa using ⟨literal, literals⟩⟩
          · rintro ⟨all, same, literals⟩
            obtain ⟨first, others, rfl, keySame, rfl⟩ := List.map_eq_cons_iff.mp same.symm
            obtain rfl := Option.some.inj keySame
            exact ⟨literals _ List.mem_cons_self, others, rfl, fun key member =>
              literals key (List.mem_cons_of_mem _ member)⟩

theorem literal_of_isNumber {op : UnaryOp} {operand : Expr} (sign : op = .uSub ∨ op = .uAdd)
    (number : operand.isNumber = true) : (Expr.unary op operand).Literal := by
  cases operand with
  | constant value => exact .scalar (.signed sign number)
  | _ => simp [isNumber] at number

theorem literal_of_areLiterals (kind : Sequence) {elts : List Expr}
    (each : ∀ elt ∈ elts, elt.isLiteral = true → elt.Literal) (literals : areLiterals elts = true) :
    (kind.expr elts).Literal :=
  .sequence kind fun elt member => each elt member (areLiterals_iff.mp literals elt member)

theorem isLiteral_iff {expr : Expr} : expr.isLiteral = true ↔ expr.Literal := by
  constructor
  · intro literal
    induction expr using element_induction with
    | elements expr ih =>
        cases expr with
        | constant value =>
            by_cases nothing : value = .none
            · exact nothing ▸ .none
            · exact .scalar (.constant nothing)
        | unary op operand =>
            cases op with
            | uSub => exact literal_of_isNumber (.inl rfl) (by simpa [isLiteral] using literal)
            | uAdd => exact literal_of_isNumber (.inr rfl) (by simpa [isLiteral] using literal)
            | _ => simp [isLiteral] at literal
        | list elts => exact literal_of_areLiterals .list ih (by simpa [isLiteral] using literal)
        | set elts => exact literal_of_areLiterals .set ih (by simpa [isLiteral] using literal)
        | tuple elts => exact literal_of_areLiterals .tuple ih (by simpa [isLiteral] using literal)
        | dict keys values =>
            rw [isLiteral, Bool.and_eq_true, areLiterals_iff, areLiteralKeys_iff] at literal
            obtain ⟨⟨all, rfl, literalKeys⟩, literalValues⟩ := literal
            exact .dict (fun key member => ih key (mem_elements_dict.mpr (.inl member)) (literalKeys key member))
              fun value member => ih value (mem_elements_dict.mpr (.inr member)) (literalValues value member)
        | _ => simp [isLiteral] at literal
  · intro literal
    induction literal with
    | none => rfl
    | scalar single =>
        cases single with
        | constant => rfl
        | signed sign number => rcases sign with rfl | rfl <;> simpa [isLiteral] using number
    | sequence kind _ ih => cases kind <;> simpa [Sequence.expr, isLiteral, areLiterals_iff] using ih
    | dict _ _ ihKeys ihValues =>
        rw [isLiteral, Bool.and_eq_true, areLiterals_iff, areLiteralKeys_iff]
        exact ⟨⟨_, rfl, ihKeys⟩, ihValues⟩

/-- There are elements, and all are of the type. -/
def OneType (typed : Expr → String → Prop) (type : String) (elts : List Expr) : Prop :=
  elts ≠ [] ∧ ∀ elt ∈ elts, typed elt type

/-- The hint for an expression, given what counts as an element of a type. -/
inductive Describes (typed : Expr → String → Prop) (expr : Expr) : Expr → Prop
  | scalar {type : String} (single : Scalar expr type) : Describes typed expr (.name type)
  | uniform (kind : Sequence) {elts : List Expr} {type : String} (display : expr = kind.expr elts)
      (one : OneType typed type elts) : Describes typed expr (.subscript (.name kind.name) (kind.index type))
  | bare (kind : Sequence) {elts : List Expr} (display : expr = kind.expr elts)
      (various : ∀ type, ¬ OneType typed type elts) : Describes typed expr (.name kind.name)
  | uniformDict {keys values : List Expr} {key value : String} (display : expr = .dict (keys.map some) values)
      (oneKey : OneType typed key keys) (oneValue : OneType typed value values) :
      Describes typed expr (.subscript (.name "dict") (.tuple [.name key, .name value]))
  | bareDict {keys values : List Expr} (display : expr = .dict (keys.map some) values)
      (various : ∀ key value, ¬ (OneType typed key keys ∧ OneType typed value values)) :
      Describes typed expr (.name "dict")

theorem commonName?_eq_some_iff {hints : List (Option Expr)} {type : String} :
    commonName? hints = some type ↔ hints ≠ [] ∧ ∀ hint ∈ hints, hint = some (.name type) := by
  fun_induction commonName? hints with
  | case1 id => simp
  | case2 rest _ shared known ih =>
      rw [known, Option.some.injEq] at ih
      simp only [List.forall_mem_cons, Option.some.injEq, name.injEq]
      exact ⟨fun same => ⟨List.cons_ne_nil _ _, same, (ih.mp same).2⟩, fun all => all.2.1⟩
  | case3 id rest more shared known other ih =>
      refine iff_of_false (by simp) fun all => other ?_
      have first : id = type := by simpa using all.2 _ List.mem_cons_self
      have later := ih.mpr ⟨more, fun hint member => all.2 hint (List.mem_cons_of_mem _ member)⟩
      rw [first]
      exact Option.some.inj (known.symm.trans later)
  | case4 id rest more unknown ih =>
      refine iff_of_false (by simp) fun all => ?_
      have later := ih.mpr ⟨more, fun hint member => all.2 hint (List.mem_cons_of_mem _ member)⟩
      cases unknown.symm.trans later
  | case5 hints _ named =>
      refine iff_of_false (by simp) fun all => ?_
      cases hints with
      | nil => exact all.1 rfl
      | cons hint rest => exact named type rest (by rw [all.2 hint List.mem_cons_self])

theorem suggestions_eq_map (elts : List Expr) : suggestions elts = elts.map suggested? := by
  induction elts with
  | nil => rfl
  | cons expr rest ih => rw [suggestions, ih, List.map_cons]

theorem keySuggestions_map_some (keys : List Expr) : keySuggestions (keys.map some) = keys.map suggested? := by
  induction keys with
  | nil => rfl
  | cons key rest ih => rw [List.map_cons, keySuggestions, ih, List.map_cons]

theorem inferType?_of_literal {expr : Expr} (literal : expr.Literal) : expr.inferType? = expr.suggested? :=
  if_pos (isLiteral_iff.mpr literal)

/-- The hint for the expression is the bare name. -/
def GoesBy (expr : Expr) (type : String) : Prop := expr.inferType? = some (.name type)

theorem commonName?_suggested {elts : List Expr} (literals : ∀ elt ∈ elts, elt.Literal) {type : String} :
    commonName? (elts.map suggested?) = some type ↔ OneType GoesBy type elts := by
  rw [commonName?_eq_some_iff, OneType, ne_eq, List.map_eq_nil_iff, List.forall_mem_map]
  refine and_congr_right fun _ => forall₂_congr fun elt member => ?_
  rw [GoesBy, inferType?_of_literal (literals elt member)]

theorem inferType?_scalar {expr : Expr} {type : String} (single : Scalar expr type) : GoesBy expr type := by
  rw [GoesBy, inferType?_of_literal (.scalar single)]
  cases single with
  | @constant value something => cases value <;> simp [suggested?] at something ⊢
  | @signed op value sign number => cases value <;> simp [isNumber] at number <;> rfl

section containers

variable {elts keys values : List Expr}

theorem suggested?_sequence (kind : Sequence) (elts : List Expr) :
    (kind.expr elts).suggested? = some (container kind.name ((commonName? (elts.map suggested?)).map kind.index)) := by
  cases kind <;> simp [Sequence.expr, suggested?, suggestions_eq_map, Sequence.name] <;> rfl

theorem inferType?_uniform (kind : Sequence) {type : String} (literals : ∀ elt ∈ elts, elt.Literal)
    (one : OneType GoesBy type elts) :
    (kind.expr elts).inferType? = some (.subscript (.name kind.name) (kind.index type)) := by
  rw [inferType?_of_literal (.sequence kind literals), suggested?_sequence, (commonName?_suggested literals).mpr one]
  rfl

theorem inferType?_bare (kind : Sequence) (literals : ∀ elt ∈ elts, elt.Literal)
    (various : ∀ type, ¬ OneType GoesBy type elts) : (kind.expr elts).inferType? = some (.name kind.name) := by
  have unnamed : commonName? (elts.map suggested?) = none :=
    Option.eq_none_iff_forall_ne_some.mpr fun type common => various type ((commonName?_suggested literals).mp common)
  rw [inferType?_of_literal (.sequence kind literals), suggested?_sequence, unnamed]
  rfl

theorem suggested?_dict (keys values : List Expr) :
    (Expr.dict (keys.map some) values).suggested? = some (container "dict"
      ((commonName? (keys.map suggested?)).bind fun key =>
        (commonName? (values.map suggested?)).map fun value => .tuple [.name key, .name value])) := by
  rw [suggested?, keySuggestions_map_some, suggestions_eq_map]
  cases commonName? (keys.map suggested?) with
  | none => rfl
  | some key => cases commonName? (values.map suggested?) <;> rfl

theorem inferType?_uniformDict {key value : String} (literalKeys : ∀ key ∈ keys, key.Literal)
    (literalValues : ∀ value ∈ values, value.Literal) (oneKey : OneType GoesBy key keys)
    (oneValue : OneType GoesBy value values) : (Expr.dict (keys.map some) values).inferType? =
      some (.subscript (.name "dict") (.tuple [.name key, .name value])) := by
  rw [inferType?_of_literal (.dict literalKeys literalValues), suggested?_dict,
    (commonName?_suggested literalKeys).mpr oneKey, (commonName?_suggested literalValues).mpr oneValue]
  rfl

theorem inferType?_bareDict (literalKeys : ∀ key ∈ keys, key.Literal) (literalValues : ∀ value ∈ values, value.Literal)
    (various : ∀ key value, ¬ (OneType GoesBy key keys ∧ OneType GoesBy value values)) :
    (Expr.dict (keys.map some) values).inferType? = some (.name "dict") := by
  rw [inferType?_of_literal (.dict literalKeys literalValues), suggested?_dict]
  cases known : commonName? (keys.map suggested?) with
  | none => rfl
  | some key =>
      cases knownValue : commonName? (values.map suggested?) with
      | none => rfl
      | some value =>
          have oneKey := (commonName?_suggested literalKeys).mp known
          have oneValue := (commonName?_suggested literalValues).mp knownValue
          exact absurd ⟨oneKey, oneValue⟩ (various key value)

end containers

theorem Literal.elements {expr : Expr} (literal : expr.Literal) : ∀ part ∈ expr.elements, part.Literal := by
  cases literal with
  | none => simp [Expr.elements]
  | scalar single => cases single <;> simp [Expr.elements]
  | sequence kind all => rwa [elements_sequence]
  | dict allKeys allValues =>
      intro part member
      rcases mem_elements_dict.mp member with key | value
      · exact allKeys part key
      · exact allValues part value

/-- The hint for a literal is what the rules say when elements count as the names that they go by. -/
theorem inferType?_eq_some_iff {expr hint : Expr} :
    expr.inferType? = some hint ↔ expr.Literal ∧ Describes GoesBy expr hint := by
  constructor
  · intro inferred
    have literal : expr.Literal := by
      rw [inferType?] at inferred
      split at inferred
      · exact isLiteral_iff.mp ‹_›
      · cases inferred
    refine ⟨literal, ?_⟩
    cases literal with
    | none => cases inferred
    | scalar single =>
        obtain rfl := Option.some.inj (inferred.symm.trans (inferType?_scalar single))
        exact .scalar single
    | @sequence kind elts all =>
        by_cases one : ∃ type, OneType GoesBy type elts
        · obtain ⟨type, one⟩ := one
          obtain rfl := Option.some.inj (inferred.symm.trans (inferType?_uniform kind all one))
          exact .uniform kind rfl one
        · rw [not_exists] at one
          obtain rfl := Option.some.inj (inferred.symm.trans (inferType?_bare kind all one))
          exact .bare kind rfl one
    | @dict keys values allKeys allValues =>
        by_cases one : ∃ key value, OneType GoesBy key keys ∧ OneType GoesBy value values
        · obtain ⟨key, value, oneKey, oneValue⟩ := one
          obtain rfl := Option.some.inj
            (inferred.symm.trans (inferType?_uniformDict allKeys allValues oneKey oneValue))
          exact .uniformDict rfl oneKey oneValue
        · simp only [not_exists] at one
          obtain rfl := Option.some.inj (inferred.symm.trans (inferType?_bareDict allKeys allValues one))
          exact .bareDict rfl one
  · rintro ⟨literal, described⟩
    have literals := literal.elements
    cases described with
    | scalar single => exact inferType?_scalar single
    | uniform kind display one =>
        rw [display, elements_sequence] at literals
        rw [display, inferType?_uniform kind literals one]
    | bare kind display various =>
        rw [display, elements_sequence] at literals
        rw [display, inferType?_bare kind literals various]
    | uniformDict display oneKey oneValue =>
        simp only [display, mem_elements_dict] at literals
        rw [display, inferType?_uniformDict (fun key member => literals key (.inl member))
          (fun value member => literals value (.inr member)) oneKey oneValue]
    | bareDict display various =>
        simp only [display, mem_elements_dict] at literals
        rw [display, inferType?_bareDict (fun key member => literals key (.inl member))
          (fun value member => literals value (.inr member)) various]

/-- The hints are those of the rules, an element being counted as the name by which it is hinted itself. -/
def FollowsRules (infer : Expr → Option Expr) : Prop :=
  ∀ expr hint, infer expr = some hint ↔
    expr.Literal ∧ Describes (fun elt type => infer elt = some (.name type)) expr hint

theorem oneType_congr {typed other : Expr → String → Prop} {elts : List Expr} {type : String}
    (same : ∀ elt ∈ elts, typed elt type ↔ other elt type) : OneType typed type elts ↔ OneType other type elts :=
  and_congr_right fun _ => forall₂_congr same

theorem Describes.congr {typed other : Expr → String → Prop} {expr hint : Expr}
    (same : ∀ elt ∈ expr.elements, ∀ type, typed elt type ↔ other elt type) (described : Describes typed expr hint) :
    Describes other expr hint := by
  cases described with
  | scalar single => exact .scalar single
  | uniform kind display one =>
      rw [display, elements_sequence] at same
      exact .uniform kind display ((oneType_congr fun elt member => same elt member _).mp one)
  | bare kind display various =>
      rw [display, elements_sequence] at same
      refine .bare kind display fun type one => various type ?_
      exact (oneType_congr fun elt member => same elt member type).mpr one
  | uniformDict display oneKey oneValue =>
      simp only [display, mem_elements_dict] at same
      exact .uniformDict display ((oneType_congr fun elt member => same elt (.inl member) _).mp oneKey)
        ((oneType_congr fun elt member => same elt (.inr member) _).mp oneValue)
  | bareDict display various =>
      simp only [display, mem_elements_dict] at same
      refine .bareDict display fun key value one => various key value ⟨?_, ?_⟩
      · exact (oneType_congr fun elt member => same elt (.inl member) key).mpr one.1
      · exact (oneType_congr fun elt member => same elt (.inr member) value).mpr one.2

theorem followsRules_inferType? : FollowsRules inferType? := fun _ _ => inferType?_eq_some_iff

/-- The rules look at the elements only, so they leave no choice. -/
theorem FollowsRules.unique {infer other : Expr → Option Expr} (first : FollowsRules infer)
    (second : FollowsRules other) : infer = other := by
  funext expr
  induction expr using element_induction with
  | elements expr ih =>
      refine Option.ext fun hint => ?_
      rw [first expr hint, second expr hint]
      refine and_congr_right fun _ => ⟨.congr fun elt member type => ?_, .congr fun elt member type => ?_⟩
      · rw [ih elt member]
      · rw [ih elt member]

theorem exists_inferType? {expr : Expr} (literal : expr.Literal) (something : expr ≠ .constant .none) :
    ∃ hint, expr.inferType? = some hint := by
  cases literal with
  | none => exact absurd rfl something
  | scalar single => exact ⟨_, inferType?_scalar single⟩
  | sequence kind all => exact ⟨_, (inferType?_of_literal (.sequence kind all)).trans (suggested?_sequence kind _)⟩
  | dict allKeys allValues =>
      exact ⟨_, (inferType?_of_literal (.dict allKeys allValues)).trans (suggested?_dict _ _)⟩

theorem inferType?_eq_none_iff {expr : Expr} : expr.inferType? = none ↔ ¬ expr.Literal ∨ expr = .constant .none := by
  constructor
  · intro nothing
    by_contra both
    rw [not_or, not_not] at both
    obtain ⟨hint, inferred⟩ := exists_inferType? both.1 both.2
    cases nothing.symm.trans inferred
  · rintro (other | rfl)
    · exact if_neg (isLiteral_iff.not.mpr other)
    · rfl

def containerNames : List String := ["list", "set", "tuple", "dict"]

/-- The names in the brackets of a hint. -/
def bracketed : Expr → List String
  | .subscript _ (.name type) => [type]
  | .subscript _ (.tuple elts) => elts.filterMap name?
  | _ => []

theorem bracketed_sequence (kind : Sequence) (type : String) :
    (Expr.subscript (.name kind.name) (kind.index type)).bracketed = [type] := by
  cases kind <;> rfl

theorem bracketed_dict (key value : String) :
    (Expr.subscript (.name "dict") (.tuple [.name key, .name value])).bracketed = [key, value] := rfl

theorem Scalar.notMem_containerNames {expr : Expr} {type : String} (single : Scalar expr type) :
    type ∉ containerNames := by
  cases single with
  | @constant value | @signed op value => cases value <;> simp [Constant.typeName, containerNames]

theorem scalar_of_goesBy {expr : Expr} {type : String} (goes : GoesBy expr type) (other : type ∉ containerNames) :
    Scalar expr type := by
  obtain ⟨-, described⟩ := inferType?_eq_some_iff.mp goes
  cases described with
  | scalar single => exact single
  | bare kind => exact absurd (by cases kind <;> decide) other
  | bareDict => exact absurd (by decide) other

theorem oneType_scalar_iff {elts : List Expr} {type : String} :
    OneType Scalar type elts ↔ OneType GoesBy type elts ∧ type ∉ containerNames := by
  constructor
  · rintro ⟨nonempty, scalars⟩
    obtain ⟨first, listed⟩ := List.exists_mem_of_ne_nil elts nonempty
    refine ⟨⟨nonempty, fun elt member => inferType?_scalar (scalars elt member)⟩, ?_⟩
    exact (scalars first listed).notMem_containerNames
  · rintro ⟨⟨nonempty, named⟩, other⟩
    exact ⟨nonempty, fun elt member => scalar_of_goesBy (named elt member) other⟩

theorem notMem_of_described {expr hint : Expr} (described : Describes Scalar expr hint) :
    ∀ name ∈ hint.bracketed, name ∉ containerNames := by
  cases described with
  | scalar | bare | bareDict => simp [bracketed]
  | uniform kind _ one => simpa [bracketed_sequence] using (oneType_scalar_iff.mp one).2
  | uniformDict _ oneKey oneValue =>
      simpa [bracketed_dict] using And.intro (oneType_scalar_iff.mp oneKey).2 (oneType_scalar_iff.mp oneValue).2

theorem described_by_scalars_iff {expr : Expr} :
    (∀ hint, expr.inferType? = some hint ↔ expr.Literal ∧ Describes Scalar expr hint) ↔
      ∀ hint, expr.inferType? = some hint → ∀ name ∈ hint.bracketed, name ∉ containerNames := by
  refine ⟨fun documented hint inferred => notMem_of_described ((documented hint).mp inferred).2, fun named hint => ?_⟩
  have names {hint : Expr} (literal : expr.Literal) (described : Describes GoesBy expr hint) :=
    named hint (inferType?_eq_some_iff.mpr ⟨literal, described⟩)
  rw [inferType?_eq_some_iff]
  refine and_congr_right fun literal => ⟨fun described => ?_, fun described => ?_⟩
  · have inside := names literal described
    cases described with
    | scalar single => exact .scalar single
    | uniform kind display one =>
        rw [bracketed_sequence, List.forall_mem_singleton] at inside
        exact .uniform kind display (oneType_scalar_iff.mpr ⟨one, inside⟩)
    | bare kind display various =>
        exact .bare kind display fun type one => various type (oneType_scalar_iff.mp one).1
    | uniformDict display oneKey oneValue =>
        rw [bracketed_dict, List.forall_mem_cons, List.forall_mem_singleton] at inside
        exact .uniformDict display (oneType_scalar_iff.mpr ⟨oneKey, inside.1⟩)
          (oneType_scalar_iff.mpr ⟨oneValue, inside.2⟩)
    | bareDict display various =>
        exact .bareDict display fun key value one =>
          various key value ⟨(oneType_scalar_iff.mp one.1).1, (oneType_scalar_iff.mp one.2).1⟩
  -- A container that is bare by its scalars could only have a common name that is bracketed.
  · cases described with
    | scalar single => exact .scalar single
    | uniform kind display one => exact .uniform kind display (oneType_scalar_iff.mp one).1
    | bare kind display various =>
        refine .bare kind display fun type one => various type ?_
        have inside := names literal (.uniform kind display one)
        rw [bracketed_sequence, List.forall_mem_singleton] at inside
        exact oneType_scalar_iff.mpr ⟨one, inside⟩
    | uniformDict display oneKey oneValue =>
        exact .uniformDict display (oneType_scalar_iff.mp oneKey).1 (oneType_scalar_iff.mp oneValue).1
    | bareDict display various =>
        refine .bareDict display fun key value one => various key value ?_
        have inside := names literal (.uniformDict display one.1 one.2)
        rw [bracketed_dict, List.forall_mem_cons, List.forall_mem_singleton] at inside
        exact ⟨oneType_scalar_iff.mpr ⟨one.1, inside.1⟩, oneType_scalar_iff.mpr ⟨one.2, inside.2⟩⟩

/-- The hints are determined by the rules, with elements counted as the names they are hinted by. Nothing is suggested
just for `None` and for what is no literal. The rules with scalars alone as elements hold of an expression exactly when
its hint names no container in brackets. -/
theorem inferType_follows_rules (expr : Expr) :
    (∀ infer, FollowsRules infer ↔ infer = inferType?) ∧
      (expr.inferType? = none ↔ ¬ expr.Literal ∨ expr = .constant .none) ∧
      ((∀ hint, expr.inferType? = some hint ↔ expr.Literal ∧ Describes Scalar expr hint) ↔
        ∀ hint, expr.inferType? = some hint → ∀ name ∈ hint.bracketed, name ∉ containerNames) := by
  refine ⟨fun infer => ⟨fun follows => follows.unique followsRules_inferType?, ?_⟩, inferType?_eq_none_iff,
    described_by_scalars_iff⟩
  rintro rfl
  exact followsRules_inferType?

/-- The list `[[]]` holds no scalar, so its hint by scalars is bare. But the empty list in it goes by the name
`list`. -/
theorem inferType_list_of_empty :
    (Expr.list [.list []]).Literal ∧ Describes Scalar (.list [.list []]) (.name "list") ∧
      (Expr.list [.list []]).inferType? = some (.subscript (.name "list") (.name "list")) := by
  refine ⟨isLiteral_iff.mp rfl, .bare .list rfl fun type one => ?_, rfl⟩
  cases one.2 (.list []) List.mem_cons_self

end DocGraph.Expr
