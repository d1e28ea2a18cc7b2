import DocGraph.Expr.Basic
import DocGraph.Decimal.Shortest

/-!
The source text of an expression. Parentheses stand around an operand that is a binary operation,
except on the left of the same operator, and around the operand of a unary operator that is a
binary operation or a comparison.
-/
namespace DocGraph

/-- Whole numbers keep all their digits and one decimal place; others have the fewest digits that
read back. No exponent is written. -/
def Binary64.render (x : Binary64) : String :=
  let sign := if x.negative then "-" else ""
  match x.magnitude? with
  | some whole => sign ++ toString whole ++ ".0"
  | none => sign ++ (Decimal.shortest .up x).positional

namespace Constant

def escapeChar (c : Char) : List Char :=
  if c = '\\' then ['\\', '\\']
  else if c = '\'' then ['\\', '\'']
  else if c = '\n' then ['\\', 'n']
  else if c = '\t' then ['\\', 't']
  else [c]

/-- A text between single quotes. Backslashes, quotes, newlines and tabs are escaped. -/
def quoted (text : List Char) : List Char := '\'' :: (text.flatMap escapeChar ++ ['\''])

def render : Constant → String
  | none => "None"
  | bool value => if value then "True" else "False"
  | int value => toString value
  | float value => value.render
  | str value => String.ofList (quoted value.toList)
  | bytes value => "b" ++ String.ofList (quoted value.toList)
  | ellipsis => "..."

end Constant

namespace Expr

def isBinary : Expr → Bool
  | .binary _ _ _ => true
  | _ => false

def isBinaryExcept (op : BinaryOp) : Expr → Bool
  | .binary _ inner _ => inner != op
  | _ => false

def isOperation : Expr → Bool
  | .binary _ _ _ => true
  | .compare _ _ _ => true
  | _ => false

def parenthesize (needed : Bool) (text : String) : String :=
  if needed then "(" ++ text ++ ")" else text

def renderItem (key : Option String) (value : String) : String :=
  match key with
  | some key => key ++ ": " ++ value
  | none => "**" ++ value

def renderComparison (op : CompareOp) (right : String) : String := " " ++ op.symbol ++ " " ++ right

mutual

def render : Expr → String
  | .name id => id
  | .attribute value attr => value.render ++ "." ++ attr
  | .constant value => value.render
  | .list elts => "[" ++ ", ".intercalate (renderAll elts) ++ "]"
  | .set elts => "\x7b" ++ ", ".intercalate (renderAll elts) ++ "\x7d"
  | .tuple [elt] => "(" ++ elt.render ++ ",)"
  | .tuple elts => "(" ++ ", ".intercalate (renderAll elts) ++ ")"
  | .dict keys values =>
      "\x7b" ++ ", ".intercalate (List.zipWith renderItem (renderKeys keys) (renderAll values))
        ++ "\x7d"
  | .call func args keywords =>
      func.render ++ "(" ++ ", ".intercalate (renderAll args ++ renderKeywords keywords) ++ ")"
  | .subscript value (.tuple (elt :: elts)) =>
      value.render ++ "[" ++ ", ".intercalate (elt.render :: renderAll elts) ++ "]"
  | .subscript value index => value.render ++ "[" ++ index.render ++ "]"
  | .slice lower upper step => renderBound lower ++ ":" ++ renderBound upper ++ renderStep step
  | .binary left op right =>
      parenthesize (left.isBinaryExcept op) left.render ++ " " ++ op.symbol ++ " "
        ++ parenthesize right.isBinary right.render
  | .unary op operand => op.symbol ++ parenthesize operand.isOperation operand.render
  | .compare left ops comparators =>
      left.render ++ String.join (List.zipWith renderComparison ops (renderAll comparators))
  | .starred value => "*" ++ value.render
  | .other source => source

def renderAll : List Expr → List String
  | [] => []
  | expr :: rest => expr.render :: renderAll rest

def renderKeys : List (Option Expr) → List (Option String)
  | [] => []
  | none :: rest => none :: renderKeys rest
  | some key :: rest => some key.render :: renderKeys rest

def renderKeywords : List Keyword → List String
  | [] => []
  | ⟨some arg, value⟩ :: rest => (arg ++ "=" ++ value.render) :: renderKeywords rest
  | ⟨none, value⟩ :: rest => ("**" ++ value.render) :: renderKeywords rest

def renderBound : Option Expr → String
  | none => ""
  | some bound => bound.render

def renderStep : Option Expr → String
  | none => ""
  | some step => ":" ++ step.render

end

end Expr

end DocGraph
