import DocGraph.Expr.Dotted
import DocGraph.Text.Blank
import DocGraph.Text.Identifier

/-!
Type hints written as strings. A string that spells a dotted path of identifiers, blanks around it
aside, stands for that path; any other string stays a string.
-/
namespace DocGraph.Expr

def isPath (text : String) : Bool := (Dotted.parts text).all Text.isIdentifier

mutual

/-- Replaces the strings that spell paths, inside subscripts, tuples, lists and binary operations. -/
def unstring : Expr → Expr
  | .constant (.str value) =>
      if isPath (Text.trimText value) then ofDotted (Text.trimText value) else .constant (.str value)
  | .subscript value index => .subscript value.unstring index.unstring
  | .tuple elts => .tuple (unstringAll elts)
  | .list elts => .list (unstringAll elts)
  | .binary left op right => .binary left.unstring op right.unstring
  | expr => expr

def unstringAll : List Expr → List Expr
  | [] => []
  | expr :: rest => expr.unstring :: unstringAll rest

end

end DocGraph.Expr
