import DocGraph.Proofs.Tree.Reading

namespace DocGraph

open Json (Decoder Fault Piece Record Variants)
open Json.Decoder (Setting)

def Constant.inRange : Constant → Bool
  | .int value => -9223372036854775808 ≤ value && value ≤ 9223372036854775807
  | _ => true

namespace Expr

mutual

/-- Whether all integers in an expression fit 64 bits. -/
def inRange : Expr → Bool
  | .name _ => true
  | .attribute value _ => value.inRange
  | .constant value => value.inRange
  | .list elts => allInRange elts
  | .tuple elts => allInRange elts
  | .set elts => allInRange elts
  | .dict keys values => optAllInRange keys && allInRange values
  | .call func args keywords => func.inRange && allInRange args && keywordsInRange keywords
  | .subscript value index => value.inRange && index.inRange
  | .slice lower upper step => optInRange lower && optInRange upper && optInRange step
  | .binary left _ right => left.inRange && right.inRange
  | .unary _ operand => operand.inRange
  | .compare left _ comparators => left.inRange && allInRange comparators
  | .starred value => value.inRange
  | .other _ => true

def allInRange : List Expr → Bool
  | [] => true
  | expr :: rest => expr.inRange && allInRange rest

def optInRange : Option Expr → Bool
  | none => true
  | some expr => expr.inRange

def optAllInRange : List (Option Expr) → Bool
  | [] => true
  | none :: rest => optAllInRange rest
  | some expr :: rest => expr.inRange && optAllInRange rest

def keywordsInRange : List Keyword → Bool
  | [] => true
  | ⟨_, value⟩ :: rest => value.inRange && keywordsInRange rest

end

theorem allInRange_eq (elts : List Expr) : allInRange elts = elts.all inRange := by
  induction elts with
  | nil => rfl
  | cons expr rest ih => rw [allInRange, List.all_cons, ih]

theorem optInRange_eq (expr : Option Expr) : optInRange expr = expr.all inRange := by
  cases expr <;> rfl

theorem optAllInRange_eq (keys : List (Option Expr)) :
    optAllInRange keys = keys.all fun key => key.all inRange := by
  induction keys with
  | nil => rfl
  | cons key rest ih => cases key <;> simp [optAllInRange, ih]

theorem keywordsInRange_eq (keywords : List Keyword) :
    keywordsInRange keywords = keywords.all fun keyword => keyword.value.inRange := by
  induction keywords with
  | nil => rfl
  | cons keyword rest ih =>
      cases keyword
      rw [keywordsInRange, List.all_cons, ih]
      rfl

theorem toJsonAll_eq (elts : List Expr) : toJsonAll elts = elts.map toJson := by
  induction elts with
  | nil => rfl
  | cons expr rest ih => rw [toJsonAll, List.map_cons, ih]

theorem toJsonOptAll_eq (keys : List (Option Expr)) : toJsonOptAll keys = keys.map toJsonOpt := by
  induction keys with
  | nil => rfl
  | cons key rest ih => cases key <;> rw [toJsonOptAll, List.map_cons, ih, toJsonOpt]

end Expr

def Keyword.toJson (keyword : Keyword) : Json :=
  .obj [("arg", .optStr keyword.arg), ("value", keyword.value.toJson)]

namespace Expr

theorem toJsonKeywords_eq (keywords : List Keyword) :
    toJsonKeywords keywords = keywords.map Keyword.toJson := by
  induction keywords with
  | nil => rfl
  | cons keyword rest ih =>
      cases keyword
      rw [toJsonKeywords, List.map_cons, ih]
      rfl

theorem toJson_ne_null (expr : Expr) : expr.toJson ≠ .null := by
  cases expr <;> simp [toJson, Json.tagged]

end Expr

theorem BinaryOp.ofJson_tag (op : BinaryOp) : BinaryOp.ofJson .inside (.str op.tag) = .ok op := by
  cases op <;> rfl

theorem UnaryOp.ofJson_tag (op : UnaryOp) : UnaryOp.ofJson .inside (.str op.tag) = .ok op := by
  cases op <;> rfl

theorem CompareOp.ofJson_tag (op : CompareOp) : CompareOp.ofJson .inside (.str op.tag) = .ok op := by
  cases op <;> rfl

theorem Constant.ofJson_toJson {value : Constant} (inRange : value.inRange = true) :
    Constant.ofJson .inside value.toJson = .ok value := by
  cases value with
  | int value =>
      simp only [Constant.inRange, Bool.and_eq_true, decide_eq_true_eq] at inRange
      have read := Decoder.i64_int inRange.1 inRange.2
      change (do let constant ← (Decoder.i64 (.int value)).map Constant.int; Except.ok constant) = _
      rw [read]
      rfl
  | _ => rfl

namespace Expr

/-- What a decoder does that reads back every expression up to some height. -/
def ReadBack (expr : Decoder Expr) (levels : Nat) : Prop :=
  ∀ e : Expr, e.inRange = true → e.toJson.height ≤ levels → expr e.toJson = .ok e

namespace ReadBack

variable {expr : Decoder Expr} {levels : Nat}

theorem all (reads : ReadBack expr levels) {elts : List Expr} (inRange : allInRange elts = true)
    (bound : (Json.arr (toJsonAll elts)).height ≤ levels) :
    Decoder.list expr (.arr (toJsonAll elts)) = .ok elts := by
  rw [allInRange_eq, List.all_eq_true] at inRange
  rw [toJsonAll_eq] at bound ⊢
  apply Decoder.list_map
  intro e member
  have below := Json.height_lt_of_mem (List.mem_map_of_mem (f := toJson) member)
  exact reads e (inRange e member) (by omega)

theorem opt (reads : ReadBack expr levels) {e : Option Expr} (inRange : optInRange e = true)
    (bound : (toJsonOpt e).height ≤ levels) : Decoder.orNull expr (toJsonOpt e) = .ok e := by
  cases e with
  | none => rfl
  | some e => exact Decoder.orNull_of_ne_null e.toJson_ne_null (reads e inRange bound)

theorem optAll (reads : ReadBack expr levels) {keys : List (Option Expr)}
    (inRange : optAllInRange keys = true) (bound : (Json.arr (toJsonOptAll keys)).height ≤ levels) :
    Decoder.list (Decoder.orNull expr) (.arr (toJsonOptAll keys)) = .ok keys := by
  rw [optAllInRange_eq, List.all_eq_true] at inRange
  rw [toJsonOptAll_eq] at bound ⊢
  apply Decoder.list_map
  intro key member
  have below := Json.height_lt_of_mem (List.mem_map_of_mem (f := toJsonOpt) member)
  exact reads.opt (optInRange_eq key ▸ inRange key member) (by omega)

theorem keyword (reads : ReadBack expr levels) {keyword : Keyword} (inRange : keyword.value.inRange = true)
    (bound : keyword.toJson.height ≤ levels + 1) : Keyword.ofJson expr keyword.toJson = .ok keyword := by
  simp only [Keyword.toJson, Json.height_obj_le_iff, List.forall_mem_cons] at bound
  cases keyword
  exact Record.ofJson_whole (Piece.seq_value
    (Piece.map_value (Record.optional_value rfl (Decoder.orNull_optStr _)) _)
    (Record.required_value rfl (reads _ inRange bound.2.1)))

theorem keywords (reads : ReadBack expr levels) {keywords : List Keyword}
    (inRange : keywordsInRange keywords = true)
    (bound : (Json.arr (toJsonKeywords keywords)).height ≤ levels) :
    Decoder.list (Keyword.ofJson expr) (.arr (toJsonKeywords keywords)) = .ok keywords := by
  rw [keywordsInRange_eq, List.all_eq_true] at inRange
  rw [toJsonKeywords_eq] at bound ⊢
  apply Decoder.list_map
  intro keyword member
  have below := Json.height_lt_of_mem (List.mem_map_of_mem (f := Keyword.toJson) member)
  exact reads.keyword (inRange keyword member) (by omega)

end ReadBack

theorem decode_tagged {levels : Nat} {setting : Setting} {tag : String} {fields : List (String × Json)}
    {e : Expr} (known : tag ∈ variants.tags) (untagged : ∀ field ∈ fields, field.1 ≠ "type")
    (given : ofRecord (decode levels .inside) tag (Record.ofFields fields) = .value e) :
    decode (levels + 1) setting (.tagged tag fields) = .ok e := by
  rw [decode, Json.split_tagged known untagged]
  change (Record.ofFields fields).whole _ = _
  rw [given]
  rfl

open Json.Piece (map_value seq_value) in
open Json.Record (required_value optional_value defaulted_value) in
theorem readBack_decode (levels : Nat) (setting : Setting) : ReadBack (decode levels setting) levels := by
  induction levels generalizing setting with
  | zero =>
      intro e _ bound
      cases e <;> simp [toJson, Json.tagged, Json.height] at bound
  | succ levels ih =>
      intro e inRange bound
      have reads := ih .inside
      cases e
      all_goals
        simp only [Expr.inRange, Bool.and_eq_true] at inRange
        simp only [toJson, Json.height_tagged_le_iff, List.forall_mem_cons] at bound
        rw [toJson]
        apply decode_tagged (by decide) (by simp)
      case name id => exact map_value (required_value rfl (Decoder.str_str id)) _
      case «attribute» =>
        exact seq_value (map_value (required_value rfl (reads _ inRange bound.1)) _) (required_value rfl rfl)
      case constant => exact map_value (required_value rfl (Constant.ofJson_toJson inRange)) _
      case list => exact map_value (required_value rfl (reads.all inRange bound.1)) _
      case tuple => exact map_value (required_value rfl (reads.all inRange bound.1)) _
      case «set» => exact map_value (required_value rfl (reads.all inRange bound.1)) _
      case dict =>
        exact seq_value (map_value (required_value rfl (reads.optAll inRange.1 bound.1)) _)
          (required_value rfl (reads.all inRange.2 bound.2.1))
      case call =>
        exact seq_value (seq_value (map_value (required_value rfl (reads _ inRange.1.1 bound.1)) _)
          (defaulted_value rfl (reads.all inRange.1.2 bound.2.1)))
          (defaulted_value rfl (reads.keywords inRange.2 bound.2.2.1))
      case subscript =>
        exact seq_value (map_value (required_value rfl (reads _ inRange.1 bound.1)) _)
          (required_value rfl (reads _ inRange.2 bound.2.1))
      case slice =>
        exact seq_value (seq_value (map_value (optional_value rfl (reads.opt inRange.1.1 bound.1)) _)
          (optional_value rfl (reads.opt inRange.1.2 bound.2.1)))
          (optional_value rfl (reads.opt inRange.2 bound.2.2.1))
      case binary op _ =>
        exact seq_value (seq_value (map_value (required_value rfl (reads _ inRange.1 bound.1)) _)
          (required_value rfl op.ofJson_tag)) (required_value rfl (reads _ inRange.2 bound.2.2.1))
      case unary op _ =>
        exact seq_value (map_value (required_value rfl op.ofJson_tag) _)
          (required_value rfl (reads _ inRange bound.2.1))
      case compare ops _ =>
        have readOps : Decoder.list (CompareOp.ofJson .inside) (.strs (ops.map CompareOp.tag)) = .ok ops := by
          rw [Json.strs, List.map_map]
          exact Decoder.list_map fun op _ => op.ofJson_tag
        exact seq_value (seq_value (map_value (required_value rfl (reads _ inRange.1 bound.1)) _)
          (required_value rfl readOps)) (required_value rfl (reads.all inRange.2 bound.2.2.1))
      case starred => exact map_value (required_value rfl (reads _ inRange bound.1)) _
      case other source => exact map_value (required_value rfl (Decoder.str_str source)) _

end Expr

namespace Constant

theorem inRange_of_bare {name : String} {constant value : Constant} {json : Json}
    (inRange : constant.inRange = true) (read : bare name constant json = .ok value) :
    value.inRange = true := by
  unfold bare at read
  split at read
  · cases read
    exact inRange
  · cases read

theorem inRange_of_ofValue {kind : String} {json : Json} {value : Constant}
    (read : ofValue kind json = .ok value) : value.inRange = true := by
  unfold ofValue at read
  split at read
  · exact inRange_of_bare rfl read
  · obtain ⟨value, -, rfl⟩ := Json.map_eq_ok.mp read
    rfl
  · obtain ⟨value, inner, rfl⟩ := Json.map_eq_ok.mp read
    simpa [inRange] using Decoder.bounds_of_int inner
  · obtain ⟨value, -, rfl⟩ := Json.map_eq_ok.mp read
    rfl
  · obtain ⟨value, -, rfl⟩ := Json.map_eq_ok.mp read
    rfl
  · obtain ⟨value, -, rfl⟩ := Json.map_eq_ok.mp read
    rfl
  · exact inRange_of_bare rfl read

theorem inRange_of_ofKind {kind : String} {value : Constant} (read : ofKind kind = .ok value) :
    value.inRange = true := by
  unfold ofKind at read
  split at read <;> cases read <;> rfl

theorem inRange_of_ofFields {setting : Setting} {fields : List (String × Json)} {value : Constant}
    (read : ofFields setting fields = .ok value) : value.inRange = true := by
  unfold ofFields at read
  split at read
  · cases read
  · obtain ⟨kind, -, read⟩ := Json.bind_eq_ok.mp read
    exact inRange_of_ofKind read
  · obtain ⟨kind, -, read⟩ := Json.bind_eq_ok.mp read
    obtain ⟨constant, given, read⟩ := Json.bind_eq_ok.mp read
    dsimp only at read
    split at read <;> cases read
    exact inRange_of_ofValue given
  · obtain ⟨kind, -, read⟩ := Json.bind_eq_ok.mp read
    obtain ⟨constant, given, read⟩ := Json.bind_eq_ok.mp read
    dsimp only at read
    split at read <;> cases read
    exact inRange_of_ofValue given
  · obtain ⟨kind, -, read⟩ := Json.bind_eq_ok.mp read
    cases read
  · cases read
  · cases read

theorem ensures_ofJson (setting : Setting) :
    Decoder.Ensures (ofJson setting) inRange := by
  intro json value read
  unfold ofJson at read
  split at read
  · exact inRange_of_ofFields read
  · split at read
    · cases read
    · obtain ⟨kind, -, read⟩ := Json.bind_eq_ok.mp read
      cases read
    · obtain ⟨kind, -, read⟩ := Json.bind_eq_ok.mp read
      obtain ⟨constant, given, read⟩ := Json.bind_eq_ok.mp read
      split at read <;> cases read
      exact inRange_of_ofValue given
  · cases read

end Constant

namespace Expr

/-- What a decoder does that reads no expression with an integer out of range. -/
abbrev KeepsRange (expr : Decoder Expr) : Prop := Decoder.Ensures expr inRange

namespace KeepsRange

variable {expr : Decoder Expr}

theorem all (keeps : KeepsRange expr) : Decoder.Ensures (Decoder.list expr) allInRange := by
  intro json elts read
  rw [allInRange_eq]
  exact keeps.list json elts read

theorem optAll (keeps : KeepsRange expr) :
    Decoder.Ensures (Decoder.list (Decoder.orNull expr)) optAllInRange := by
  intro json keys read
  rw [optAllInRange_eq]
  exact keeps.orNull.list json keys read

theorem keyword (keeps : KeepsRange expr) :
    Decoder.Ensures (Keyword.ofJson expr) fun keyword => keyword.value.inRange := by
  intro json keyword read
  obtain ⟨r, given⟩ := Record.exists_of_ofJson_whole read
  simp only [Piece.seq_eq_value, Piece.map_eq_value] at given
  obtain ⟨_, ⟨arg, -, rfl⟩, value, readValue, rfl⟩ := given
  exact Record.of_required keeps readValue

theorem keywords (keeps : KeepsRange expr) :
    Decoder.Ensures (Decoder.list (Keyword.ofJson expr)) keywordsInRange := by
  intro json keywords read
  rw [keywordsInRange_eq]
  exact keeps.keyword.list json keywords read

end KeepsRange

open Json.Record (of_required of_optional of_defaulted) in
theorem inRange_of_ofRecord {expr : Decoder Expr} {tag : String} {r : Record} {e : Expr}
    (keeps : KeepsRange expr) (given : ofRecord expr tag r = .value e) : e.inRange = true := by
  unfold ofRecord at given
  split at given
  all_goals simp only [Piece.seq_eq_value, Piece.map_eq_value] at given
  · obtain ⟨id, -, rfl⟩ := given
    rfl
  · obtain ⟨_, ⟨value, readValue, rfl⟩, attr, -, rfl⟩ := given
    simp [Expr.inRange, of_required keeps readValue]
  · obtain ⟨value, readValue, rfl⟩ := given
    simp [Expr.inRange, of_required (Constant.ensures_ofJson .inside) readValue]
  · obtain ⟨elts, readElts, rfl⟩ := given
    simp [Expr.inRange, of_required keeps.all readElts]
  · obtain ⟨elts, readElts, rfl⟩ := given
    simp [Expr.inRange, of_required keeps.all readElts]
  · obtain ⟨elts, readElts, rfl⟩ := given
    simp [Expr.inRange, of_required keeps.all readElts]
  · obtain ⟨_, ⟨keys, readKeys, rfl⟩, values, readValues, rfl⟩ := given
    simp [Expr.inRange, of_required keeps.optAll readKeys, of_required keeps.all readValues]
  · obtain ⟨_, ⟨_, ⟨func, readFunc, rfl⟩, args, readArgs, rfl⟩, keywords, readKeywords, rfl⟩ := given
    simp [Expr.inRange, of_required keeps readFunc, of_defaulted keeps.all rfl readArgs,
      of_defaulted keeps.keywords rfl readKeywords]
  · obtain ⟨_, ⟨value, readValue, rfl⟩, index, readIndex, rfl⟩ := given
    simp [Expr.inRange, of_required keeps readValue, of_required keeps readIndex]
  · obtain ⟨_, ⟨_, ⟨lower, readLower, rfl⟩, upper, readUpper, rfl⟩, step, readStep, rfl⟩ := given
    simp [Expr.inRange, optInRange_eq, of_optional keeps readLower, of_optional keeps readUpper,
      of_optional keeps readStep]
  · obtain ⟨_, ⟨_, ⟨left, readLeft, rfl⟩, op, -, rfl⟩, right, readRight, rfl⟩ := given
    simp [Expr.inRange, of_required keeps readLeft, of_required keeps readRight]
  · obtain ⟨_, ⟨op, -, rfl⟩, operand, readOperand, rfl⟩ := given
    simp [Expr.inRange, of_required keeps readOperand]
  · obtain ⟨_, ⟨_, ⟨left, readLeft, rfl⟩, ops, -, rfl⟩, comparators, readComparators, rfl⟩ := given
    simp [Expr.inRange, of_required keeps readLeft, of_required keeps.all readComparators]
  · obtain ⟨value, readValue, rfl⟩ := given
    simp [Expr.inRange, of_required keeps readValue]
  · obtain ⟨source, -, rfl⟩ := given
    rfl

theorem keepsRange_decode (levels : Nat) (setting : Setting) : KeepsRange (decode levels setting) := by
  induction levels generalizing setting with
  | zero =>
      intro json e read
      cases read
  | succ levels ih =>
      intro json e read
      obtain ⟨split, -, read⟩ := Json.bind_eq_ok.mp read
      exact inRange_of_ofRecord (ih .inside) (Record.eq_value_of_whole read)

theorem keepsRange_ofInner : KeepsRange ofInner :=
  fun json => keepsRange_decode json.height .inside json

end Expr

end DocGraph
