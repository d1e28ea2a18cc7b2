import DocGraph.Proofs.Tree.Expressions

namespace DocGraph

open Json (Decoder Fault Piece Record Variants)
open Json.Decoder (Setting)

def fitsU32 (n : Nat) : Bool := n ≤ 4294967295

def Arg.inRange (arg : Arg) : Bool := Expr.optInRange arg.hint

def Arguments.inRange (args : Arguments) : Bool :=
  args.posOnlyArgs.all Arg.inRange && args.args.all Arg.inRange && args.varArg.all Arg.inRange &&
    args.kwOnlyArgs.all Arg.inRange && Expr.optAllInRange args.kwDefaults &&
    args.kwArg.all Arg.inRange && Expr.allInRange args.defaults

def FunctionHead.inRange (head : FunctionHead) : Bool :=
  Expr.allInRange head.decorators && head.args.inRange && Expr.optInRange head.returns && fitsU32 head.line

def ClassHead.inRange (head : ClassHead) : Bool :=
  Expr.allInRange head.bases && Expr.keywordsInRange head.keywords && Expr.allInRange head.decorators &&
    fitsU32 head.line

namespace Stmt

mutual

/-- Whether all numbers in a statement fit their widths. -/
def inRange : Stmt → Bool
  | .assign targets value _ line => Expr.allInRange targets && value.inRange && fitsU32 line
  | .annAssign target hint value line =>
      target.inRange && hint.inRange && Expr.optInRange value && fitsU32 line
  | .augAssign target _ value line => target.inRange && value.inRange && fitsU32 line
  | .function head body => head.inRange && allInRange body
  | .classDef head body => head.inRange && allInRange body
  | .imports _ line => fitsU32 line
  | .importFrom _ _ level line => fitsU32 level && fitsU32 line
  | .ifElse test body orElse line =>
      test.inRange && allInRange body && allInRange orElse && fitsU32 line
  | .whileLoop test body orElse line =>
      test.inRange && allInRange body && allInRange orElse && fitsU32 line
  | .forLoop target iter body orElse _ line =>
      target.inRange && iter.inRange && allInRange body && allInRange orElse && fitsU32 line
  | .tryExcept body handlers orElse finalBody line =>
      allInRange body && handlersInRange handlers && allInRange orElse && allInRange finalBody &&
        fitsU32 line
  | .withBlock items body _ line => Expr.allInRange items && allInRange body && fitsU32 line
  | .matchCases subject cases line => subject.inRange && casesInRange cases && fitsU32 line
  | .expr value line => value.inRange && fitsU32 line
  | .pass line => fitsU32 line
  | .other line => fitsU32 line

def allInRange : List Stmt → Bool
  | [] => true
  | stmt :: rest => stmt.inRange && allInRange rest

def handlersInRange : List Handler → Bool
  | [] => true
  | ⟨excType, _, body, line⟩ :: rest =>
      Expr.optInRange excType && allInRange body && fitsU32 line && handlersInRange rest

def casesInRange : List Case → Bool
  | [] => true
  | ⟨_, guard, body⟩ :: rest => Expr.optInRange guard && allInRange body && casesInRange rest

end

theorem allInRange_eq (body : List Stmt) : allInRange body = body.all inRange := by
  induction body with
  | nil => rfl
  | cons stmt rest ih => rw [allInRange, List.all_cons, ih]

end Stmt

def Handler.inRange : Handler → Bool
  | ⟨excType, _, body, line⟩ => Expr.optInRange excType && Stmt.allInRange body && fitsU32 line

def Case.inRange : Case → Bool
  | ⟨_, guard, body⟩ => Expr.optInRange guard && Stmt.allInRange body

def Module.inRange (tree : Module) : Bool := Stmt.allInRange tree.body

def Handler.toJson : Handler → Json
  | ⟨excType, name, body, line⟩ =>
      .obj [("exc_type", Expr.toJsonOpt excType), ("name", .optStr name),
        ("body", .arr (Stmt.toJsonAll body)), ("line", .nat line)]

def Case.toJson : Case → Json
  | ⟨pattern, guard, body⟩ =>
      .obj [("pattern", .optStr pattern), ("guard", Expr.toJsonOpt guard),
        ("body", .arr (Stmt.toJsonAll body))]

namespace Stmt

theorem handlersInRange_eq (handlers : List Handler) :
    handlersInRange handlers = handlers.all Handler.inRange := by
  induction handlers with
  | nil => rfl
  | cons handler rest ih =>
      cases handler
      rw [handlersInRange, List.all_cons, ih]
      rfl

theorem casesInRange_eq (cases : List Case) : casesInRange cases = cases.all Case.inRange := by
  induction cases with
  | nil => rfl
  | cons arm rest ih =>
      cases arm
      rw [casesInRange, List.all_cons, ih]
      rfl

theorem toJsonAll_eq (body : List Stmt) : toJsonAll body = body.map toJson := by
  induction body with
  | nil => rfl
  | cons stmt rest ih => rw [toJsonAll, List.map_cons, ih]

theorem toJsonHandlers_eq (handlers : List Handler) :
    toJsonHandlers handlers = handlers.map Handler.toJson := by
  induction handlers with
  | nil => rfl
  | cons handler rest ih =>
      cases handler
      rw [toJsonHandlers, List.map_cons, ih]
      rfl

theorem toJsonCases_eq (cases : List Case) : toJsonCases cases = cases.map Case.toJson := by
  induction cases with
  | nil => rfl
  | cons arm rest ih =>
      cases arm
      rw [toJsonCases, List.map_cons, ih]
      rfl

end Stmt

namespace Expr

theorem ofInner_toJson {e : Expr} (inRange : e.inRange = true) : ofInner e.toJson = .ok e :=
  readBack_decode _ .inside e inRange (Nat.le_refl _)

theorem readBack_ofInner (levels : Nat) : ReadBack ofInner levels :=
  fun _ inRange _ => ofInner_toJson inRange

theorem ofInner_all {elts : List Expr} (inRange : allInRange elts = true) :
    Decoder.list ofInner (.arr (toJsonAll elts)) = .ok elts :=
  (readBack_ofInner _).all inRange (Nat.le_refl _)

theorem ofInner_opt {e : Option Expr} (inRange : optInRange e = true) :
    Decoder.orNull ofInner (toJsonOpt e) = .ok e :=
  (readBack_ofInner _).opt inRange (Nat.le_refl _)

theorem ofInner_optAll {keys : List (Option Expr)} (inRange : optAllInRange keys = true) :
    Decoder.list (Decoder.orNull ofInner) (.arr (toJsonOptAll keys)) = .ok keys :=
  (readBack_ofInner _).optAll inRange (Nat.le_refl _)

theorem ofInner_keywords {keywords : List Keyword} (inRange : keywordsInRange keywords = true) :
    Decoder.list (Keyword.ofJson ofInner) (.arr (toJsonKeywords keywords)) = .ok keywords :=
  (readBack_ofInner _).keywords inRange (Nat.le_refl _)

end Expr

open Json.Piece (map_value seq_value)
open Json.Record (required_value optional_value defaulted_value)

theorem u32_of_fits {n : Nat} (fits : fitsU32 n = true) : Decoder.u32 (.nat n) = .ok n :=
  Decoder.u32_nat (of_decide_eq_true fits)

theorem ImportAlias.ofJson_toJson (item : ImportAlias) : ImportAlias.ofJson item.toJson = .ok item :=
  Record.ofJson_whole (seq_value (map_value (required_value rfl (Decoder.str_str item.name)) _)
    (optional_value rfl (Decoder.orNull_optStr item.asName)))

theorem ImportAlias.ofJson_all (names : List ImportAlias) :
    Decoder.list ImportAlias.ofJson (.arr (names.map ImportAlias.toJson)) = .ok names :=
  Decoder.list_map fun item _ => item.ofJson_toJson

namespace Arg

theorem ofJson_toJson {arg : Arg} (inRange : arg.inRange = true) : Arg.ofJson arg.toJson = .ok arg :=
  Record.ofJson_whole (seq_value (map_value (required_value rfl (Decoder.str_str arg.name)) _)
    (optional_value rfl (Expr.ofInner_opt inRange)))

theorem ofJson_all {args : List Arg} (inRange : args.all Arg.inRange = true) :
    Decoder.list Arg.ofJson (.arr (args.map Arg.toJson)) = .ok args :=
  Decoder.list_map fun arg member => ofJson_toJson (List.all_eq_true.mp inRange arg member)

theorem ofJson_opt {arg : Option Arg} (inRange : arg.all Arg.inRange = true) :
    Decoder.orNull Arg.ofJson (Arg.toJsonOpt arg) = .ok arg := by
  cases arg with
  | none => rfl
  | some arg =>
      refine Decoder.orNull_of_ne_null ?_ (ofJson_toJson inRange)
      simp [toJsonOpt, toJson]

end Arg

theorem Arguments.ofJson_toJson {args : Arguments} (inRange : args.inRange = true) :
    Arguments.ofJson args.toJson = .ok args := by
  simp only [Arguments.inRange, Bool.and_eq_true] at inRange
  obtain ⟨⟨⟨⟨⟨⟨posOnly, positional⟩, varArg⟩, kwOnly⟩, kwDefaults⟩, kwArg⟩, defaults⟩ := inRange
  exact Record.ofJson_whole (seq_value (seq_value (seq_value (seq_value (seq_value (seq_value (map_value
    (defaulted_value rfl (Arg.ofJson_all posOnly)) _)
    (defaulted_value rfl (Arg.ofJson_all positional)))
    (optional_value rfl (Arg.ofJson_opt varArg)))
    (defaulted_value rfl (Arg.ofJson_all kwOnly)))
    (defaulted_value rfl (Expr.ofInner_optAll kwDefaults)))
    (optional_value rfl (Arg.ofJson_opt kwArg)))
    (defaulted_value rfl (Expr.ofInner_all defaults)))

namespace Stmt

/-- What a decoder does that reads back every statement up to some height. -/
def ReadBack (stmt : Decoder Stmt) (levels : Nat) : Prop :=
  ∀ s : Stmt, s.inRange = true → s.toJson.height ≤ levels → stmt s.toJson = .ok s

namespace ReadBack

variable {stmt : Decoder Stmt} {levels : Nat}

theorem all (reads : ReadBack stmt levels) {body : List Stmt} (inRange : allInRange body = true)
    (bound : (Json.arr (toJsonAll body)).height ≤ levels) :
    Decoder.list stmt (.arr (toJsonAll body)) = .ok body := by
  rw [allInRange_eq, List.all_eq_true] at inRange
  rw [toJsonAll_eq] at bound ⊢
  apply Decoder.list_map
  intro s member
  have below := Json.height_lt_of_mem (List.mem_map_of_mem (f := toJson) member)
  exact reads s (inRange s member) (by omega)

theorem handler (reads : ReadBack stmt levels) {handler : Handler} (inRange : handler.inRange = true)
    (bound : handler.toJson.height ≤ levels + 1) : Handler.ofJson stmt handler.toJson = .ok handler := by
  cases handler
  simp only [Handler.toJson, Json.height_obj_le_iff, List.forall_mem_cons] at bound
  simp only [Handler.inRange, Bool.and_eq_true] at inRange
  exact Record.ofJson_whole (seq_value (seq_value (seq_value (map_value
    (optional_value rfl (Expr.ofInner_opt inRange.1.1)) _)
    (optional_value rfl (Decoder.orNull_optStr _)))
    (required_value rfl (reads.all inRange.1.2 bound.2.2.1)))
    (required_value rfl (u32_of_fits inRange.2)))

theorem handlers (reads : ReadBack stmt levels) {handlers : List Handler}
    (inRange : handlersInRange handlers = true)
    (bound : (Json.arr (toJsonHandlers handlers)).height ≤ levels) :
    Decoder.list (Handler.ofJson stmt) (.arr (toJsonHandlers handlers)) = .ok handlers := by
  rw [handlersInRange_eq, List.all_eq_true] at inRange
  rw [toJsonHandlers_eq] at bound ⊢
  apply Decoder.list_map
  intro handler member
  have below := Json.height_lt_of_mem (List.mem_map_of_mem (f := Handler.toJson) member)
  exact reads.handler (inRange handler member) (by omega)

theorem arm (reads : ReadBack stmt levels) {arm : Case} (inRange : arm.inRange = true)
    (bound : arm.toJson.height ≤ levels + 1) : Case.ofJson stmt arm.toJson = .ok arm := by
  cases arm
  simp only [Case.toJson, Json.height_obj_le_iff, List.forall_mem_cons] at bound
  simp only [Case.inRange, Bool.and_eq_true] at inRange
  exact Record.ofJson_whole (seq_value (seq_value (map_value
    (optional_value rfl (Decoder.orNull_optStr _)) _)
    (optional_value rfl (Expr.ofInner_opt inRange.1)))
    (required_value rfl (reads.all inRange.2 bound.2.2.1)))

theorem arms (reads : ReadBack stmt levels) {cases : List Case} (inRange : casesInRange cases = true)
    (bound : (Json.arr (toJsonCases cases)).height ≤ levels) :
    Decoder.list (Case.ofJson stmt) (.arr (toJsonCases cases)) = .ok cases := by
  rw [casesInRange_eq, List.all_eq_true] at inRange
  rw [toJsonCases_eq] at bound ⊢
  apply Decoder.list_map
  intro arm member
  have below := Json.height_lt_of_mem (List.mem_map_of_mem (f := Case.toJson) member)
  exact reads.arm (inRange arm member) (by omega)

end ReadBack

theorem decode_tagged {levels : Nat} {setting : Setting} {tag : String} {fields : List (String × Json)}
    {s : Stmt} (known : tag ∈ variants.tags) (untagged : ∀ field ∈ fields, field.1 ≠ "type")
    (given : ofRecord (decode levels .inside) tag (Record.ofFields fields) = .value s) :
    decode (levels + 1) setting (.tagged tag fields) = .ok s := by
  rw [decode, Json.split_tagged known untagged]
  change (Record.ofFields fields).whole _ = _
  rw [given]
  rfl

theorem readBack_decode (levels : Nat) (setting : Setting) : ReadBack (decode levels setting) levels := by
  induction levels generalizing setting with
  | zero =>
      intro s _ bound
      cases s <;> simp [toJson, Json.tagged, Json.height] at bound
  | succ levels ih =>
      intro s inRange bound
      have reads := ih .inside
      cases s
      all_goals
        simp only [Stmt.inRange, Bool.and_eq_true] at inRange
        simp only [toJson, Json.height_tagged_le_iff, List.forall_mem_cons] at bound
        rw [toJson]
        apply decode_tagged (by decide) (by simp)
      case assign =>
        exact seq_value (seq_value (seq_value (map_value
          (required_value rfl (Expr.ofInner_all inRange.1.1)) _)
          (required_value rfl (Expr.ofInner_toJson inRange.1.2)))
          (optional_value rfl (Decoder.orNull_optStr _)))
          (required_value rfl (u32_of_fits inRange.2))
      case annAssign =>
        exact seq_value (seq_value (seq_value (map_value
          (required_value rfl (Expr.ofInner_toJson inRange.1.1.1)) _)
          (required_value rfl (Expr.ofInner_toJson inRange.1.1.2)))
          (optional_value rfl (Expr.ofInner_opt inRange.1.2)))
          (required_value rfl (u32_of_fits inRange.2))
      case augAssign op _ _ =>
        exact seq_value (seq_value (seq_value (map_value
          (required_value rfl (Expr.ofInner_toJson inRange.1.1)) _)
          (required_value rfl op.ofJson_tag))
          (required_value rfl (Expr.ofInner_toJson inRange.1.2)))
          (required_value rfl (u32_of_fits inRange.2))
      case function head _ =>
        simp only [FunctionHead.inRange, Bool.and_eq_true] at inRange
        refine seq_value (map_value (a := head) ?_ _)
          (defaulted_value rfl (reads.all inRange.2 bound.2.2.2.2.2.1))
        exact seq_value (seq_value (seq_value (seq_value (seq_value (map_value
          (required_value rfl (Decoder.str_str head.name)) _)
          (defaulted_value rfl (Decoder.bool_bool _)))
          (defaulted_value rfl (Expr.ofInner_all inRange.1.1.1.1)))
          (defaulted_value rfl (Arguments.ofJson_toJson inRange.1.1.1.2)))
          (optional_value rfl (Expr.ofInner_opt inRange.1.1.2)))
          (required_value rfl (u32_of_fits inRange.1.2))
      case classDef head _ =>
        simp only [ClassHead.inRange, Bool.and_eq_true] at inRange
        refine seq_value (map_value (a := head) ?_ _)
          (defaulted_value rfl (reads.all inRange.2 bound.2.2.2.2.1))
        exact seq_value (seq_value (seq_value (seq_value (map_value
          (required_value rfl (Decoder.str_str head.name)) _)
          (defaulted_value rfl (Expr.ofInner_all inRange.1.1.1.1)))
          (defaulted_value rfl (Expr.ofInner_keywords inRange.1.1.1.2)))
          (defaulted_value rfl (Expr.ofInner_all inRange.1.1.2)))
          (required_value rfl (u32_of_fits inRange.1.2))
      case imports names _ =>
        exact seq_value (map_value (required_value rfl (ImportAlias.ofJson_all names)) _)
          (required_value rfl (u32_of_fits inRange))
      case importFrom names _ _ =>
        exact seq_value (seq_value (seq_value (map_value
          (optional_value rfl (Decoder.orNull_optStr _)) _)
          (required_value rfl (ImportAlias.ofJson_all names)))
          (defaulted_value rfl (u32_of_fits inRange.1)))
          (required_value rfl (u32_of_fits inRange.2))
      case ifElse =>
        exact seq_value (seq_value (seq_value (map_value
          (required_value rfl (Expr.ofInner_toJson inRange.1.1.1)) _)
          (required_value rfl (reads.all inRange.1.1.2 bound.2.1)))
          (defaulted_value rfl (reads.all inRange.1.2 bound.2.2.1)))
          (required_value rfl (u32_of_fits inRange.2))
      case whileLoop =>
        exact seq_value (seq_value (seq_value (map_value
          (required_value rfl (Expr.ofInner_toJson inRange.1.1.1)) _)
          (required_value rfl (reads.all inRange.1.1.2 bound.2.1)))
          (defaulted_value rfl (reads.all inRange.1.2 bound.2.2.1)))
          (required_value rfl (u32_of_fits inRange.2))
      case forLoop =>
        exact seq_value (seq_value (seq_value (seq_value (seq_value (map_value
          (required_value rfl (Expr.ofInner_toJson inRange.1.1.1.1)) _)
          (required_value rfl (Expr.ofInner_toJson inRange.1.1.1.2)))
          (required_value rfl (reads.all inRange.1.1.2 bound.2.2.1)))
          (defaulted_value rfl (reads.all inRange.1.2 bound.2.2.2.1)))
          (defaulted_value rfl (Decoder.bool_bool _)))
          (required_value rfl (u32_of_fits inRange.2))
      case tryExcept =>
        exact seq_value (seq_value (seq_value (seq_value (map_value
          (required_value rfl (reads.all inRange.1.1.1.1 bound.1)) _)
          (defaulted_value rfl (reads.handlers inRange.1.1.1.2 bound.2.1)))
          (defaulted_value rfl (reads.all inRange.1.1.2 bound.2.2.1)))
          (defaulted_value rfl (reads.all inRange.1.2 bound.2.2.2.1)))
          (required_value rfl (u32_of_fits inRange.2))
      case withBlock =>
        exact seq_value (seq_value (seq_value (map_value
          (defaulted_value rfl (Expr.ofInner_all inRange.1.1)) _)
          (required_value rfl (reads.all inRange.1.2 bound.2.1)))
          (defaulted_value rfl (Decoder.bool_bool _)))
          (required_value rfl (u32_of_fits inRange.2))
      case matchCases =>
        exact seq_value (seq_value (map_value
          (required_value rfl (Expr.ofInner_toJson inRange.1.1)) _)
          (required_value rfl (reads.arms inRange.1.2 bound.2.1)))
          (required_value rfl (u32_of_fits inRange.2))
      case expr =>
        exact seq_value (map_value (required_value rfl (Expr.ofInner_toJson inRange.1)) _)
          (required_value rfl (u32_of_fits inRange.2))
      case pass => exact map_value (required_value rfl (u32_of_fits inRange)) _
      case other => exact map_value (required_value rfl (u32_of_fits inRange)) _

end Stmt

theorem Module.ofJson_toJson {tree : Module} (inRange : tree.inRange = true) :
    Module.ofJson tree.toJson = .ok tree := by
  rw [Module.inRange, Stmt.allInRange_eq, List.all_eq_true] at inRange
  have readBody : Decoder.list Stmt.ofJson (.arr (Stmt.toJsonAll tree.body)) = .ok tree.body := by
    rw [Stmt.toJsonAll_eq]
    exact Decoder.list_map fun s member =>
      Stmt.readBack_decode _ .alone s (inRange s member) (Nat.le_refl _)
  exact Record.ofJson_whole (map_value (defaulted_value rfl readBody) Module.mk)

open Json.Record (of_required of_optional of_defaulted)

theorem ensures_u32 : Decoder.Ensures Decoder.u32 fitsU32 :=
  fun _ _ read => decide_eq_true (Decoder.le_of_u32 read)

theorem Arg.ensures_ofJson : Decoder.Ensures Arg.ofJson Arg.inRange := by
  intro json arg read
  obtain ⟨r, given⟩ := Record.exists_of_ofJson_whole read
  simp only [Piece.seq_eq_value, Piece.map_eq_value] at given
  obtain ⟨_, ⟨name, -, rfl⟩, hint, readHint, rfl⟩ := given
  simp [Arg.inRange, Expr.optInRange_eq, of_optional Expr.keepsRange_ofInner readHint]

theorem Arguments.ensures_ofJson : Decoder.Ensures Arguments.ofJson Arguments.inRange := by
  intro json args read
  obtain ⟨r, given⟩ := Record.exists_of_ofJson_whole read
  simp only [Piece.seq_eq_value, Piece.map_eq_value] at given
  obtain ⟨_, ⟨_, ⟨_, ⟨_, ⟨_, ⟨_, ⟨posOnly, readPosOnly, rfl⟩, positional, readPositional, rfl⟩, varArg,
    readVarArg, rfl⟩, kwOnly, readKwOnly, rfl⟩, kwDefaults, readKwDefaults, rfl⟩, kwArg, readKwArg, rfl⟩,
    defaults, readDefaults, rfl⟩ := given
  have args := Arg.ensures_ofJson
  have exprs := Expr.keepsRange_ofInner
  simp [Arguments.inRange, of_defaulted args.list rfl readPosOnly, of_defaulted args.list rfl readPositional,
    of_optional args readVarArg, of_defaulted args.list rfl readKwOnly,
    of_defaulted exprs.optAll rfl readKwDefaults, of_optional args readKwArg,
    of_defaulted exprs.all rfl readDefaults]

theorem FunctionHead.inRange_of_ofRecord {r : Record} {head : FunctionHead}
    (given : FunctionHead.ofRecord r = .value head) : head.inRange = true := by
  simp only [FunctionHead.ofRecord, Piece.seq_eq_value, Piece.map_eq_value] at given
  obtain ⟨_, ⟨_, ⟨_, ⟨_, ⟨_, ⟨name, -, rfl⟩, isAsync, -, rfl⟩, decorators, readDecorators, rfl⟩, args,
    readArgs, rfl⟩, returns, readReturns, rfl⟩, line, readLine, rfl⟩ := given
  have exprs := Expr.keepsRange_ofInner
  simp [FunctionHead.inRange, Expr.optInRange_eq, of_defaulted exprs.all rfl readDecorators,
    of_defaulted Arguments.ensures_ofJson rfl readArgs, of_optional exprs readReturns,
    of_required ensures_u32 readLine]

theorem ClassHead.inRange_of_ofRecord {r : Record} {head : ClassHead}
    (given : ClassHead.ofRecord r = .value head) : head.inRange = true := by
  simp only [ClassHead.ofRecord, Piece.seq_eq_value, Piece.map_eq_value] at given
  obtain ⟨_, ⟨_, ⟨_, ⟨_, ⟨name, -, rfl⟩, bases, readBases, rfl⟩, keywords, readKeywords, rfl⟩, decorators,
    readDecorators, rfl⟩, line, readLine, rfl⟩ := given
  have exprs := Expr.keepsRange_ofInner
  simp [ClassHead.inRange, of_defaulted exprs.all rfl readBases, of_defaulted exprs.keywords rfl readKeywords,
    of_defaulted exprs.all rfl readDecorators, of_required ensures_u32 readLine]

namespace Stmt

/-- What a decoder does that reads no statement with a number out of range. -/
abbrev KeepsRange (stmt : Decoder Stmt) : Prop := Decoder.Ensures stmt inRange

namespace KeepsRange

variable {stmt : Decoder Stmt}

theorem all (keeps : KeepsRange stmt) : Decoder.Ensures (Decoder.list stmt) allInRange := by
  intro json body read
  rw [allInRange_eq]
  exact keeps.list json body read

theorem handler (keeps : KeepsRange stmt) : Decoder.Ensures (Handler.ofJson stmt) Handler.inRange := by
  intro json handler read
  obtain ⟨r, given⟩ := Record.exists_of_ofJson_whole read
  simp only [Piece.seq_eq_value, Piece.map_eq_value] at given
  obtain ⟨_, ⟨_, ⟨_, ⟨excType, readType, rfl⟩, name, -, rfl⟩, body, readBody, rfl⟩, line, readLine,
    rfl⟩ := given
  simp [Handler.inRange, Expr.optInRange_eq, of_optional Expr.keepsRange_ofInner readType,
    of_required keeps.all readBody, of_required ensures_u32 readLine]

theorem handlers (keeps : KeepsRange stmt) :
    Decoder.Ensures (Decoder.list (Handler.ofJson stmt)) handlersInRange := by
  intro json handlers read
  rw [handlersInRange_eq]
  exact keeps.handler.list json handlers read

theorem arm (keeps : KeepsRange stmt) : Decoder.Ensures (Case.ofJson stmt) Case.inRange := by
  intro json arm read
  obtain ⟨r, given⟩ := Record.exists_of_ofJson_whole read
  simp only [Piece.seq_eq_value, Piece.map_eq_value] at given
  obtain ⟨_, ⟨_, ⟨pattern, -, rfl⟩, guard, readGuard, rfl⟩, body, readBody, rfl⟩ := given
  simp [Case.inRange, Expr.optInRange_eq, of_optional Expr.keepsRange_ofInner readGuard,
    of_required keeps.all readBody]

theorem arms (keeps : KeepsRange stmt) :
    Decoder.Ensures (Decoder.list (Case.ofJson stmt)) casesInRange := by
  intro json cases read
  rw [casesInRange_eq]
  exact keeps.arm.list json cases read

end KeepsRange

theorem inRange_of_ofRecord {stmt : Decoder Stmt} {tag : String} {r : Record} {s : Stmt}
    (keeps : KeepsRange stmt) (given : ofRecord stmt tag r = .value s) : s.inRange = true := by
  have exprs := Expr.keepsRange_ofInner
  have bodies := keeps.all
  unfold ofRecord at given
  dsimp only at given
  split at given
  all_goals simp only [Piece.seq_eq_value, Piece.map_eq_value] at given
  · obtain ⟨_, ⟨_, ⟨_, ⟨targets, readTargets, rfl⟩, value, readValue, rfl⟩, typeComment, -, rfl⟩, line,
      readLine, rfl⟩ := given
    simp [Stmt.inRange, of_required exprs.all readTargets, of_required exprs readValue,
      of_required ensures_u32 readLine]
  · obtain ⟨_, ⟨_, ⟨_, ⟨target, readTarget, rfl⟩, hint, readHint, rfl⟩, value, readValue, rfl⟩, line,
      readLine, rfl⟩ := given
    simp [Stmt.inRange, Expr.optInRange_eq, of_required exprs readTarget, of_required exprs readHint,
      of_optional exprs readValue, of_required ensures_u32 readLine]
  · obtain ⟨_, ⟨_, ⟨_, ⟨target, readTarget, rfl⟩, op, -, rfl⟩, value, readValue, rfl⟩, line, readLine,
      rfl⟩ := given
    simp [Stmt.inRange, of_required exprs readTarget, of_required exprs readValue,
      of_required ensures_u32 readLine]
  · obtain ⟨_, ⟨head, readHead, rfl⟩, body, readBody, rfl⟩ := given
    simp [Stmt.inRange, FunctionHead.inRange_of_ofRecord readHead, of_defaulted bodies rfl readBody]
  · obtain ⟨_, ⟨head, readHead, rfl⟩, body, readBody, rfl⟩ := given
    simp [Stmt.inRange, ClassHead.inRange_of_ofRecord readHead, of_defaulted bodies rfl readBody]
  · obtain ⟨_, ⟨names, -, rfl⟩, line, readLine, rfl⟩ := given
    simp [Stmt.inRange, of_required ensures_u32 readLine]
  · obtain ⟨_, ⟨_, ⟨_, ⟨origin, -, rfl⟩, names, -, rfl⟩, level, readLevel, rfl⟩, line, readLine,
      rfl⟩ := given
    simp [Stmt.inRange, of_defaulted ensures_u32 rfl readLevel, of_required ensures_u32 readLine]
  · obtain ⟨_, ⟨_, ⟨_, ⟨test, readTest, rfl⟩, body, readBody, rfl⟩, orElse, readElse, rfl⟩, line,
      readLine, rfl⟩ := given
    simp [Stmt.inRange, of_required exprs readTest, of_required bodies readBody,
      of_defaulted bodies rfl readElse, of_required ensures_u32 readLine]
  · obtain ⟨_, ⟨_, ⟨_, ⟨test, readTest, rfl⟩, body, readBody, rfl⟩, orElse, readElse, rfl⟩, line,
      readLine, rfl⟩ := given
    simp [Stmt.inRange, of_required exprs readTest, of_required bodies readBody,
      of_defaulted bodies rfl readElse, of_required ensures_u32 readLine]
  · obtain ⟨_, ⟨_, ⟨_, ⟨_, ⟨_, ⟨target, readTarget, rfl⟩, iter, readIter, rfl⟩, body, readBody, rfl⟩,
      orElse, readElse, rfl⟩, isAsync, -, rfl⟩, line, readLine, rfl⟩ := given
    simp [Stmt.inRange, of_required exprs readTarget, of_required exprs readIter,
      of_required bodies readBody, of_defaulted bodies rfl readElse, of_required ensures_u32 readLine]
  · obtain ⟨_, ⟨_, ⟨_, ⟨_, ⟨body, readBody, rfl⟩, handlers, readHandlers, rfl⟩, orElse, readElse, rfl⟩,
      finalBody, readFinal, rfl⟩, line, readLine, rfl⟩ := given
    simp [Stmt.inRange, of_required bodies readBody, of_defaulted keeps.handlers rfl readHandlers,
      of_defaulted bodies rfl readElse, of_defaulted bodies rfl readFinal,
      of_required ensures_u32 readLine]
  · obtain ⟨_, ⟨_, ⟨_, ⟨items, readItems, rfl⟩, body, readBody, rfl⟩, isAsync, -, rfl⟩, line, readLine,
      rfl⟩ := given
    simp [Stmt.inRange, of_defaulted exprs.all rfl readItems, of_required bodies readBody,
      of_required ensures_u32 readLine]
  · obtain ⟨_, ⟨_, ⟨subject, readSubject, rfl⟩, cases, readCases, rfl⟩, line, readLine, rfl⟩ := given
    simp [Stmt.inRange, of_required exprs readSubject, of_required keeps.arms readCases,
      of_required ensures_u32 readLine]
  · obtain ⟨_, ⟨value, readValue, rfl⟩, line, readLine, rfl⟩ := given
    simp [Stmt.inRange, of_required exprs readValue, of_required ensures_u32 readLine]
  · obtain ⟨line, readLine, rfl⟩ := given
    simp [Stmt.inRange, of_required ensures_u32 readLine]
  · obtain ⟨line, readLine, rfl⟩ := given
    simp [Stmt.inRange, of_required ensures_u32 readLine]

theorem keepsRange_decode (levels : Nat) (setting : Setting) : KeepsRange (decode levels setting) := by
  induction levels generalizing setting with
  | zero =>
      intro json s read
      cases read
  | succ levels ih =>
      intro json s read
      obtain ⟨split, -, read⟩ := Json.bind_eq_ok.mp read
      exact inRange_of_ofRecord (ih .inside) (Record.eq_value_of_whole read)

theorem keepsRange_ofJson : KeepsRange Stmt.ofJson :=
  fun json => keepsRange_decode json.height .alone json

end Stmt

theorem Module.ensures_ofJson : Decoder.Ensures Module.ofJson Module.inRange := by
  intro json tree read
  obtain ⟨r, given⟩ := Record.exists_of_ofJson_whole read
  obtain ⟨body, readBody, rfl⟩ := Piece.map_eq_value.mp given
  rw [Module.inRange]
  exact of_defaulted Stmt.keepsRange_ofJson.all rfl readBody

/-- A module is read back as it was written if its numbers fit their widths, and so is every module that
was read, from whichever spelling of it. -/
theorem Module.roundTrip :
    (∀ tree : Module, tree.inRange = true → Module.ofJson tree.toJson = .ok tree) ∧
    (∀ json tree, Module.ofJson json = .ok tree → Module.ofJson tree.toJson = .ok tree) :=
  ⟨fun _ inRange => ofJson_toJson inRange,
    fun json tree read => ofJson_toJson (ensures_ofJson json tree read)⟩

theorem Module.roundTrip_guarded_import :
    let test : Expr := .compare (.name "x") [.lt] [.constant (.int (-9223372036854775808))]
    let tree : Module := ⟨[.ifElse test [.importFrom none [⟨"a", none⟩] 4294967295 2] [] 1, .pass 3]⟩
    let spelled : Json := .arr [.arr [.arr [.str "pass", .nat 3]]]
    tree.inRange = true ∧ Module.ofJson tree.toJson = .ok tree ∧
      Module.ofJson spelled = .ok ⟨[.pass 3]⟩ ∧ Module.ofJson (Module.toJson ⟨[.pass 3]⟩) = .ok ⟨[.pass 3]⟩ :=
  ⟨rfl, roundTrip.1 _ rfl, rfl, roundTrip.2 (.arr [.arr [.arr [.str "pass", .nat 3]]]) _ rfl⟩

end DocGraph
