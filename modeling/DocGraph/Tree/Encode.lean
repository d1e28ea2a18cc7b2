import DocGraph.Stmt.Basic
import DocGraph.Json.Basic

/-!
Syntax trees as JSON. A statement or expression is an object tagged by `type`, a constant one
tagged by `kind`. Every field is written, an absent value as null.
-/
namespace DocGraph

def BinaryOp.tag : BinaryOp → String
  | .add => "add"
  | .sub => "sub"
  | .mult => "mult"
  | .matMult => "mat_mult"
  | .div => "div"
  | .mod => "mod"
  | .pow => "pow"
  | .lShift => "l_shift"
  | .rShift => "r_shift"
  | .bitOr => "bit_or"
  | .bitXor => "bit_xor"
  | .bitAnd => "bit_and"
  | .floorDiv => "floor_div"

def UnaryOp.tag : UnaryOp → String
  | .invert => "invert"
  | .not => "not"
  | .uAdd => "u_add"
  | .uSub => "u_sub"

def CompareOp.tag : CompareOp → String
  | .eq => "eq"
  | .notEq => "not_eq"
  | .lt => "lt"
  | .ltE => "lt_e"
  | .gt => "gt"
  | .gtE => "gt_e"
  | .is => "is"
  | .isNot => "is_not"
  | .in => "in"
  | .notIn => "not_in"

def Constant.toJson : Constant → Json
  | .none => .obj [("kind", .str "none")]
  | .bool value => .obj [("kind", .str "bool"), ("value", .bool value)]
  | .int value => .obj [("kind", .str "int"), ("value", .int value)]
  | .float value => .obj [("kind", .str "float"), ("value", .num (.real value))]
  | .str value => .obj [("kind", .str "str"), ("value", .str value)]
  | .bytes value => .obj [("kind", .str "bytes"), ("value", .str value)]
  | .ellipsis => .obj [("kind", .str "ellipsis")]

/-- An object that begins with its tag. -/
def Json.tagged (tag : String) (fields : List (String × Json)) : Json :=
  .obj (("type", .str tag) :: fields)

namespace Expr

mutual

def toJson : Expr → Json
  | .name id => .tagged "name" [("id", .str id)]
  | .attribute value attr => .tagged "attribute" [("value", value.toJson), ("attr", .str attr)]
  | .constant value => .tagged "constant" [("value", value.toJson)]
  | .list elts => .tagged "list" [("elts", .arr (toJsonAll elts))]
  | .tuple elts => .tagged "tuple" [("elts", .arr (toJsonAll elts))]
  | .set elts => .tagged "set" [("elts", .arr (toJsonAll elts))]
  | .dict keys values =>
      .tagged "dict" [("keys", .arr (toJsonOptAll keys)), ("values", .arr (toJsonAll values))]
  | .call func args keywords =>
      .tagged "call" [("func", func.toJson), ("args", .arr (toJsonAll args)),
        ("keywords", .arr (toJsonKeywords keywords))]
  | .subscript value index => .tagged "subscript" [("value", value.toJson), ("slice", index.toJson)]
  | .slice lower upper step =>
      .tagged "slice" [("lower", toJsonOpt lower), ("upper", toJsonOpt upper), ("step", toJsonOpt step)]
  | .binary left op right =>
      .tagged "bin_op" [("left", left.toJson), ("op", .str op.tag), ("right", right.toJson)]
  | .unary op operand => .tagged "unary_op" [("op", .str op.tag), ("operand", operand.toJson)]
  | .compare left ops comparators =>
      .tagged "compare" [("left", left.toJson), ("ops", .strs (ops.map CompareOp.tag)),
        ("comparators", .arr (toJsonAll comparators))]
  | .starred value => .tagged "starred" [("value", value.toJson)]
  | .other source => .tagged "other" [("source", .str source)]

def toJsonAll : List Expr → List Json
  | [] => []
  | expr :: rest => expr.toJson :: toJsonAll rest

def toJsonOpt : Option Expr → Json
  | none => .null
  | some expr => expr.toJson

def toJsonOptAll : List (Option Expr) → List Json
  | [] => []
  | none :: rest => .null :: toJsonOptAll rest
  | some expr :: rest => expr.toJson :: toJsonOptAll rest

def toJsonKeywords : List Keyword → List Json
  | [] => []
  | ⟨arg, value⟩ :: rest => .obj [("arg", .optStr arg), ("value", value.toJson)] :: toJsonKeywords rest

end

end Expr

def ImportAlias.toJson (item : ImportAlias) : Json :=
  .obj [("name", .str item.name), ("asname", .optStr item.asName)]

def Arg.toJson (arg : Arg) : Json :=
  .obj [("name", .str arg.name), ("annotation", Expr.toJsonOpt arg.hint)]

def Arg.toJsonOpt (arg : Option Arg) : Json := (arg.map Arg.toJson).getD .null

def Arguments.toJson (args : Arguments) : Json :=
  .obj [("posonlyargs", .arr (args.posOnlyArgs.map Arg.toJson)),
    ("args", .arr (args.args.map Arg.toJson)),
    ("vararg", Arg.toJsonOpt args.varArg),
    ("kwonlyargs", .arr (args.kwOnlyArgs.map Arg.toJson)),
    ("kw_defaults", .arr (Expr.toJsonOptAll args.kwDefaults)),
    ("kwarg", Arg.toJsonOpt args.kwArg),
    ("defaults", .arr (Expr.toJsonAll args.defaults))]

namespace Stmt

mutual

def toJson : Stmt → Json
  | .assign targets value typeComment line =>
      .tagged "assign" [("targets", .arr (Expr.toJsonAll targets)), ("value", value.toJson),
        ("type_comment", .optStr typeComment), ("line", .nat line)]
  | .annAssign target hint value line =>
      .tagged "ann_assign" [("target", target.toJson), ("annotation", hint.toJson),
        ("value", Expr.toJsonOpt value), ("line", .nat line)]
  | .augAssign target op value line =>
      .tagged "aug_assign" [("target", target.toJson), ("op", .str op.tag),
        ("value", value.toJson), ("line", .nat line)]
  | .function head body =>
      .tagged "function_def" [("name", .str head.name), ("is_async", .bool head.isAsync),
        ("decorators", .arr (Expr.toJsonAll head.decorators)), ("args", head.args.toJson),
        ("returns", Expr.toJsonOpt head.returns), ("body", .arr (toJsonAll body)),
        ("line", .nat head.line)]
  | .classDef head body =>
      .tagged "class_def" [("name", .str head.name), ("bases", .arr (Expr.toJsonAll head.bases)),
        ("keywords", .arr (Expr.toJsonKeywords head.keywords)),
        ("decorators", .arr (Expr.toJsonAll head.decorators)), ("body", .arr (toJsonAll body)),
        ("line", .nat head.line)]
  | .imports names line =>
      .tagged "import" [("names", .arr (names.map ImportAlias.toJson)), ("line", .nat line)]
  | .importFrom origin names level line =>
      .tagged "import_from" [("module", .optStr origin),
        ("names", .arr (names.map ImportAlias.toJson)), ("level", .nat level), ("line", .nat line)]
  | .ifElse test body orElse line =>
      .tagged "if" [("test", test.toJson), ("body", .arr (toJsonAll body)),
        ("orelse", .arr (toJsonAll orElse)), ("line", .nat line)]
  | .whileLoop test body orElse line =>
      .tagged "while" [("test", test.toJson), ("body", .arr (toJsonAll body)),
        ("orelse", .arr (toJsonAll orElse)), ("line", .nat line)]
  | .forLoop target iter body orElse isAsync line =>
      .tagged "for" [("target", target.toJson), ("iter", iter.toJson),
        ("body", .arr (toJsonAll body)), ("orelse", .arr (toJsonAll orElse)),
        ("is_async", .bool isAsync), ("line", .nat line)]
  | .tryExcept body handlers orElse finalBody line =>
      .tagged "try" [("body", .arr (toJsonAll body)), ("handlers", .arr (toJsonHandlers handlers)),
        ("orelse", .arr (toJsonAll orElse)), ("finalbody", .arr (toJsonAll finalBody)),
        ("line", .nat line)]
  | .withBlock items body isAsync line =>
      .tagged "with" [("items", .arr (Expr.toJsonAll items)), ("body", .arr (toJsonAll body)),
        ("is_async", .bool isAsync), ("line", .nat line)]
  | .matchCases subject cases line =>
      .tagged "match" [("subject", subject.toJson), ("cases", .arr (toJsonCases cases)),
        ("line", .nat line)]
  | .expr value line => .tagged "expr" [("value", value.toJson), ("line", .nat line)]
  | .pass line => .tagged "pass" [("line", .nat line)]
  | .other line => .tagged "other" [("line", .nat line)]

def toJsonAll : List Stmt → List Json
  | [] => []
  | stmt :: rest => stmt.toJson :: toJsonAll rest

def toJsonHandlers : List Handler → List Json
  | [] => []
  | ⟨excType, name, body, line⟩ :: rest =>
      .obj [("exc_type", Expr.toJsonOpt excType), ("name", .optStr name),
        ("body", .arr (toJsonAll body)), ("line", .nat line)] :: toJsonHandlers rest

def toJsonCases : List Case → List Json
  | [] => []
  | ⟨pattern, guard, body⟩ :: rest =>
      .obj [("pattern", .optStr pattern), ("guard", Expr.toJsonOpt guard),
        ("body", .arr (toJsonAll body))] :: toJsonCases rest

end

end Stmt

def Module.toJson (tree : Module) : Json := .obj [("body", .arr (Stmt.toJsonAll tree.body))]

end DocGraph
