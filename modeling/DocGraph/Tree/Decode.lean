import DocGraph.Tree.Encode
import DocGraph.Json.Decoder

/-!
Syntax trees from JSON. Unknown fields do not matter; a field is required, may be absent or null,
or has a default when absent. Decoding descends one level of the value at a time and its height
bounds the descent.
-/
namespace DocGraph

open Json (Decoder Fault Piece Record Variants)
open Json.Decoder (Setting)

def BinaryOp.ofJson (setting : Setting) : Decoder BinaryOp :=
  Decoder.choice BinaryOp.all BinaryOp.tag setting

def UnaryOp.ofJson (setting : Setting) : Decoder UnaryOp :=
  Decoder.choice UnaryOp.all UnaryOp.tag setting

def CompareOp.ofJson (setting : Setting) : Decoder CompareOp :=
  Decoder.choice CompareOp.all CompareOp.tag setting

namespace Constant

def kinds : List String := ["none", "bool", "int", "float", "str", "bytes", "ellipsis"]

/-- A kind without a value has null. -/
def bare (name : String) (constant : Constant) : Decoder Constant
  | .null => .ok constant
  | json => .error (.wrongType json ("unit variant Constant::" ++ name))

/-- The constant of a kind with a given value. -/
def ofValue (kind : String) (json : Json) : Except Fault Constant :=
  match kind with
  | "none" => bare "None" .none json
  | "bool" => (Decoder.bool json).map .bool
  | "int" => (Decoder.i64 json).map .int
  | "float" => (Decoder.real json).map .float
  | "str" => (Decoder.str json).map .str
  | "bytes" => (Decoder.str json).map .bytes
  | _ => bare "Ellipsis" .ellipsis json

/-- The constant of a kind without a value. -/
def ofKind (kind : String) : Except Fault Constant :=
  match kind with
  | "none" => .ok .none
  | "ellipsis" => .ok .ellipsis
  | _ => .error (.missing "value")

/-- The kind is read before the value, and a second kind or value is a fault behind both. -/
def ofFields (setting : Setting) (fields : List (String × Json)) : Except Fault Constant := do
  let unique (others : List (String × Json)) (constant : Constant) : Except Fault Constant :=
    match others with
    | [] => .ok constant
    | (name, _) :: _ => .error (.repeated name)
  match fields.filter fun field => field.1 == "kind" || field.1 == "value" with
  | [] => .error (.missing "kind")
  | [("kind", kind)] => ofKind (← Decoder.name kinds setting kind)
  | ("kind", kind) :: ("value", value) :: others =>
      unique others (← ofValue (← Decoder.name kinds setting kind) value)
  | ("value", value) :: ("kind", kind) :: others =>
      unique others (← ofValue (← Decoder.name kinds setting kind) value)
  | ("kind", kind) :: _ =>
      let _ ← Decoder.name kinds setting kind
      .error (.repeated "kind")
  | [_] => .error (.missing "kind")
  | _ => .error (.repeated "value")

def expected : String := "adjacently tagged enum Constant"

/-- An object with the fields `kind` and `value`, or an array of the two, in which the kind is a tag. -/
def ofJson (setting : Setting) : Decoder Constant
  | .obj fields => ofFields setting fields
  | .arr items => do
      match items with
      | [] => .error (.wrongLength 0 expected)
      | [kind] =>
          let _ ← Decoder.tag kinds setting kind
          .error (.wrongLength 1 expected)
      | kind :: value :: others =>
          let constant ← ofValue (← Decoder.tag kinds setting kind) value
          if others.isEmpty then return constant
          else .error (.wrongLength items.length (Json.elements 2 ++ " in sequence"))
  | json => .error (.wrongType json expected)

end Constant

def Keyword.ofJson (expr : Decoder Expr) (json : Json) : Except Fault Keyword := do
  let r ← Record.ofJson "struct Keyword" ["arg", "value"] json
  r.whole (Keyword.mk <$> r.optional "arg" Decoder.str <*> r.required "value" expr)

namespace Expr

def variants : Variants where
  name := "Expr"
  cases :=
    [("name", "struct variant Expr::Name", ["id"]),
      ("attribute", "struct variant Expr::Attribute", ["value", "attr"]),
      ("constant", "struct variant Expr::Constant", ["value"]),
      ("list", "struct variant Expr::List", ["elts"]),
      ("tuple", "struct variant Expr::Tuple", ["elts"]),
      ("set", "struct variant Expr::Set", ["elts"]),
      ("dict", "struct variant Expr::Dict", ["keys", "values"]),
      ("call", "struct variant Expr::Call", ["func", "args", "keywords"]),
      ("subscript", "struct variant Expr::Subscript", ["value", "slice"]),
      ("slice", "struct variant Expr::Slice", ["lower", "upper", "step"]),
      ("bin_op", "struct variant Expr::BinOp", ["left", "op", "right"]),
      ("unary_op", "struct variant Expr::UnaryOp", ["op", "operand"]),
      ("compare", "struct variant Expr::Compare", ["left", "ops", "comparators"]),
      ("starred", "struct variant Expr::Starred", ["value"]),
      ("other", "struct variant Expr::Other", ["source"])]

/-- Decodes one level; `expr` decodes what is below it. -/
def ofRecord (expr : Decoder Expr) (tag : String) (r : Record) : Piece Expr :=
  let exprs := Decoder.list expr
  match tag with
  | "name" => Expr.name <$> r.required "id" Decoder.str
  | "attribute" => Expr.attribute <$> r.required "value" expr <*> r.required "attr" Decoder.str
  | "constant" => Expr.constant <$> r.required "value" (Constant.ofJson .inside)
  | "list" => Expr.list <$> r.required "elts" exprs
  | "tuple" => Expr.tuple <$> r.required "elts" exprs
  | "set" => Expr.set <$> r.required "elts" exprs
  | "dict" =>
      Expr.dict <$> r.required "keys" (Decoder.list (Decoder.orNull expr))
        <*> r.required "values" exprs
  | "call" =>
      Expr.call <$> r.required "func" expr <*> r.defaulted "args" [] exprs
        <*> r.defaulted "keywords" [] (Decoder.list (Keyword.ofJson expr))
  | "subscript" => Expr.subscript <$> r.required "value" expr <*> r.required "slice" expr
  | "slice" =>
      Expr.slice <$> r.optional "lower" expr <*> r.optional "upper" expr <*> r.optional "step" expr
  | "bin_op" =>
      Expr.binary <$> r.required "left" expr <*> r.required "op" (BinaryOp.ofJson .inside)
        <*> r.required "right" expr
  | "unary_op" =>
      Expr.unary <$> r.required "op" (UnaryOp.ofJson .inside) <*> r.required "operand" expr
  | "compare" =>
      Expr.compare <$> r.required "left" expr
        <*> r.required "ops" (Decoder.list (CompareOp.ofJson .inside))
        <*> r.required "comparators" exprs
  | "starred" => Expr.starred <$> r.required "value" expr
  | _ => Expr.other <$> r.required "source" Decoder.str

def decode : Nat → Setting → Decoder Expr
  | 0, _, json => .error (.wrongType json variants.expected)
  | levels + 1, setting, json => do
      let (tag, r) ← variants.split setting json
      r.whole (ofRecord (decode levels .inside) tag r)

/-- An expression that stands alone. -/
def ofJson (json : Json) : Except Fault Expr := decode json.height .alone json

/-- An expression within a statement. -/
def ofInner (json : Json) : Except Fault Expr := decode json.height .inside json

end Expr

def ImportAlias.ofJson (json : Json) : Except Fault ImportAlias := do
  let r ← Record.ofJson "struct ImportAlias" ["name", "asname"] json
  r.whole (ImportAlias.mk <$> r.required "name" Decoder.str <*> r.optional "asname" Decoder.str)

def Arg.ofJson (json : Json) : Except Fault Arg := do
  let r ← Record.ofJson "struct Arg" ["name", "annotation"] json
  r.whole (Arg.mk <$> r.required "name" Decoder.str <*> r.optional "annotation" Expr.ofInner)

def Arguments.ofJson (json : Json) : Except Fault Arguments := do
  let r ← Record.ofJson "struct Arguments"
    ["posonlyargs", "args", "vararg", "kwonlyargs", "kw_defaults", "kwarg", "defaults"] json
  let args := Decoder.list Arg.ofJson
  r.whole (Arguments.mk <$> r.defaulted "posonlyargs" [] args <*> r.defaulted "args" [] args
    <*> r.optional "vararg" Arg.ofJson <*> r.defaulted "kwonlyargs" [] args
    <*> r.defaulted "kw_defaults" [] (Decoder.list (Decoder.orNull Expr.ofInner))
    <*> r.optional "kwarg" Arg.ofJson <*> r.defaulted "defaults" [] (Decoder.list Expr.ofInner))

def FunctionHead.ofRecord (r : Record) : Piece FunctionHead :=
  FunctionHead.mk <$> r.required "name" Decoder.str <*> r.defaulted "is_async" false Decoder.bool
    <*> r.defaulted "decorators" [] (Decoder.list Expr.ofInner)
    <*> r.defaulted "args" {} Arguments.ofJson <*> r.optional "returns" Expr.ofInner
    <*> r.required "line" Decoder.u32

def ClassHead.ofRecord (r : Record) : Piece ClassHead :=
  ClassHead.mk <$> r.required "name" Decoder.str
    <*> r.defaulted "bases" [] (Decoder.list Expr.ofInner)
    <*> r.defaulted "keywords" [] (Decoder.list (Keyword.ofJson Expr.ofInner))
    <*> r.defaulted "decorators" [] (Decoder.list Expr.ofInner) <*> r.required "line" Decoder.u32

def Handler.ofJson (stmt : Decoder Stmt) (json : Json) : Except Fault Handler := do
  let r ← Record.ofJson "struct ExceptHandler" ["exc_type", "name", "body", "line"] json
  r.whole (Handler.mk <$> r.optional "exc_type" Expr.ofInner <*> r.optional "name" Decoder.str
    <*> r.required "body" (Decoder.list stmt) <*> r.required "line" Decoder.u32)

def Case.ofJson (stmt : Decoder Stmt) (json : Json) : Except Fault Case := do
  let r ← Record.ofJson "struct MatchCase" ["pattern", "guard", "body"] json
  r.whole (Case.mk <$> r.optional "pattern" Decoder.str <*> r.optional "guard" Expr.ofInner
    <*> r.required "body" (Decoder.list stmt))

namespace Stmt

def variants : Variants where
  name := "Stmt"
  cases :=
    [("assign", "struct variant Stmt::Assign", ["targets", "value", "type_comment", "line"]),
      ("ann_assign", "struct variant Stmt::AnnAssign", ["target", "annotation", "value", "line"]),
      ("aug_assign", "struct variant Stmt::AugAssign", ["target", "op", "value", "line"]),
      ("function_def", "struct FunctionDef",
        ["name", "is_async", "decorators", "args", "returns", "body", "line"]),
      ("class_def", "struct ClassDef",
        ["name", "bases", "keywords", "decorators", "body", "line"]),
      ("import", "struct variant Stmt::Import", ["names", "line"]),
      ("import_from", "struct variant Stmt::ImportFrom", ["module", "names", "level", "line"]),
      ("if", "struct variant Stmt::If", ["test", "body", "orelse", "line"]),
      ("while", "struct variant Stmt::While", ["test", "body", "orelse", "line"]),
      ("for", "struct variant Stmt::For",
        ["target", "iter", "body", "orelse", "is_async", "line"]),
      ("try", "struct variant Stmt::Try", ["body", "handlers", "orelse", "finalbody", "line"]),
      ("with", "struct variant Stmt::With", ["items", "body", "is_async", "line"]),
      ("match", "struct variant Stmt::Match", ["subject", "cases", "line"]),
      ("expr", "struct variant Stmt::Expr", ["value", "line"]),
      ("pass", "struct variant Stmt::Pass", ["line"]),
      ("other", "struct variant Stmt::Other", ["line"])]

/-- Decodes one level; `stmt` decodes the statements below it. Faults of absent fields are looked
for in the order of the fields. -/
def ofRecord (stmt : Decoder Stmt) (tag : String) (r : Record) : Piece Stmt :=
  let expr := Expr.ofInner
  let exprs := Decoder.list expr
  let names := Decoder.list ImportAlias.ofJson
  let stmts := Decoder.list stmt
  let line := r.required "line" Decoder.u32
  match tag with
  | "assign" =>
      Stmt.assign <$> r.required "targets" exprs <*> r.required "value" expr
        <*> r.optional "type_comment" Decoder.str <*> line
  | "ann_assign" =>
      Stmt.annAssign <$> r.required "target" expr <*> r.required "annotation" expr
        <*> r.optional "value" expr <*> line
  | "aug_assign" =>
      Stmt.augAssign <$> r.required "target" expr <*> r.required "op" (BinaryOp.ofJson .inside)
        <*> r.required "value" expr <*> line
  | "function_def" => Stmt.function <$> FunctionHead.ofRecord r <*> r.defaulted "body" [] stmts
  | "class_def" => Stmt.classDef <$> ClassHead.ofRecord r <*> r.defaulted "body" [] stmts
  | "import" => Stmt.imports <$> r.required "names" names <*> line
  | "import_from" =>
      Stmt.importFrom <$> r.optional "module" Decoder.str <*> r.required "names" names
        <*> r.defaulted "level" 0 Decoder.u32 <*> line
  | "if" =>
      Stmt.ifElse <$> r.required "test" expr <*> r.required "body" stmts
        <*> r.defaulted "orelse" [] stmts <*> line
  | "while" =>
      Stmt.whileLoop <$> r.required "test" expr <*> r.required "body" stmts
        <*> r.defaulted "orelse" [] stmts <*> line
  | "for" =>
      Stmt.forLoop <$> r.required "target" expr <*> r.required "iter" expr
        <*> r.required "body" stmts <*> r.defaulted "orelse" [] stmts
        <*> r.defaulted "is_async" false Decoder.bool <*> line
  | "try" =>
      Stmt.tryExcept <$> r.required "body" stmts
        <*> r.defaulted "handlers" [] (Decoder.list (Handler.ofJson stmt))
        <*> r.defaulted "orelse" [] stmts <*> r.defaulted "finalbody" [] stmts <*> line
  | "with" =>
      Stmt.withBlock <$> r.defaulted "items" [] exprs <*> r.required "body" stmts
        <*> r.defaulted "is_async" false Decoder.bool <*> line
  | "match" =>
      Stmt.matchCases <$> r.required "subject" expr
        <*> r.required "cases" (Decoder.list (Case.ofJson stmt)) <*> line
  | "expr" => Stmt.expr <$> r.required "value" expr <*> line
  | "pass" => Stmt.pass <$> line
  | _ => Stmt.other <$> line

def decode : Nat → Setting → Decoder Stmt
  | 0, _, json => .error (.wrongType json variants.expected)
  | levels + 1, setting, json => do
      let (tag, r) ← variants.split setting json
      r.whole (ofRecord (decode levels .inside) tag r)

/-- A statement that stands at the top of its module. -/
def ofJson (json : Json) : Except Fault Stmt := decode json.height .alone json

end Stmt

def Module.ofJson (json : Json) : Except Fault Module := do
  let r ← Record.ofJson "struct Module" ["body"] json
  r.whole (Module.mk <$> r.defaulted "body" [] (Decoder.list Stmt.ofJson))

end DocGraph
