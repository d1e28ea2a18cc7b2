import DocGraph.Decimal.Binary64

/-!
Expressions of Python source. What the model does not look into is kept as source text.
-/
namespace DocGraph

inductive BinaryOp where
  | add | sub | mult | matMult | div | mod | pow | lShift | rShift | bitOr | bitXor | bitAnd | floorDiv
deriving DecidableEq, Repr

namespace BinaryOp

def symbol : BinaryOp → String
  | add => "+"
  | sub => "-"
  | mult => "*"
  | matMult => "@"
  | div => "/"
  | mod => "%"
  | pow => "**"
  | lShift => "<<"
  | rShift => ">>"
  | bitOr => "|"
  | bitXor => "^"
  | bitAnd => "&"
  | floorDiv => "//"

def all : List BinaryOp :=
  [add, sub, mult, matMult, div, mod, pow, lShift, rShift, bitOr, bitXor, bitAnd, floorDiv]

end BinaryOp

inductive UnaryOp where
  | invert | not | uAdd | uSub
deriving DecidableEq, Repr

namespace UnaryOp

/-- The word operator carries the space behind it. -/
def symbol : UnaryOp → String
  | invert => "~"
  | not => "not "
  | uAdd => "+"
  | uSub => "-"

def all : List UnaryOp := [invert, not, uAdd, uSub]

end UnaryOp

inductive CompareOp where
  | eq | notEq | lt | ltE | gt | gtE | is | isNot | in | notIn
deriving DecidableEq, Repr

namespace CompareOp

def symbol : CompareOp → String
  | eq => "=="
  | notEq => "!="
  | lt => "<"
  | ltE => "<="
  | gt => ">"
  | gtE => ">="
  | is => "is"
  | isNot => "is not"
  | «in» => "in"
  | notIn => "not in"

def all : List CompareOp := [eq, notEq, lt, ltE, gt, gtE, is, isNot, «in», notIn]

end CompareOp

inductive Constant where
  | none
  | bool (value : Bool)
  | int (value : Int)
  | float (value : Binary64)
  | str (value : String)
  | bytes (value : String)
  | ellipsis
deriving DecidableEq, Repr

/-- The name of the type of a constant's value. -/
def Constant.typeName : Constant → String
  | .none => "NoneType"
  | .bool _ => "bool"
  | .int _ => "int"
  | .float _ => "float"
  | .str _ => "str"
  | .bytes _ => "bytes"
  | .ellipsis => "ellipsis"

mutual

inductive Expr where
  | name (id : String)
  | attribute (value : Expr) (attr : String)
  | constant (value : Constant)
  | list (elts : List Expr)
  | tuple (elts : List Expr)
  | set (elts : List Expr)
  /-- A key of `none` unpacks its value, as in `**defaults`. -/
  | dict (keys : List (Option Expr)) (values : List Expr)
  | call (func : Expr) (args : List Expr) (keywords : List Keyword)
  | subscript (value : Expr) (slice : Expr)
  | slice (lower upper step : Option Expr)
  | binary (left : Expr) (op : BinaryOp) (right : Expr)
  | unary (op : UnaryOp) (operand : Expr)
  | compare (left : Expr) (ops : List CompareOp) (comparators : List Expr)
  | starred (value : Expr)
  /-- Any other expression, as its source text. -/
  | other (source : String)

/-- A keyword argument; without a name it unpacks a mapping. -/
inductive Keyword where
  | mk (arg : Option String) (value : Expr)

end

deriving instance BEq, Repr for Expr, Keyword

instance : Inhabited Expr := ⟨.other ""⟩

def Keyword.arg : Keyword → Option String
  | .mk arg _ => arg

def Keyword.value : Keyword → Expr
  | .mk _ value => value

namespace Expr

def str (value : String) : Expr := .constant (.str value)

/-- The text of a string constant. -/
def str? : Expr → Option String
  | .constant (.str value) => some value
  | _ => none

/-- The name of a bare name. -/
def name? : Expr → Option String
  | .name id => some id
  | _ => none

/-- `None`, spelled as a literal, as a bare name or as a string. -/
def isNone : Expr → Bool
  | .constant .none => true
  | .name id => id == "None"
  | .constant (.str value) => value == "None"
  | _ => false

/-- The test `__name__ == "__main__"`, in either order. -/
def isMainTest : Expr → Bool
  | .compare left [.eq] [right] =>
      (left.name? == some "__name__" && right.str? == some "__main__")
        || (left.str? == some "__main__" && right.name? == some "__name__")
  | _ => false

/-- What a subscript applies to; any other expression itself. -/
def subscripted : Expr → Expr
  | .subscript value _ => value
  | expr => expr

end Expr

end DocGraph
