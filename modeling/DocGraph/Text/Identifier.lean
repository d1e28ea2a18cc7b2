import DocGraph.Text.Alphabetic
import DocGraph.Text.Numeric
import DocGraph.Text.Uppercase
import DocGraph.Text.Lowercase

/-!
Names as Python spells them: what an identifier is, and which names count as written in capitals.
-/
namespace DocGraph.Text

def startsIdentifier (c : Char) : Bool := c == '_' || isAlphabetic c

def continuesIdentifier (c : Char) : Bool := c == '_' || isAlphabetic c || isNumeric c

/-- A letter or underscore, then letters, numbers and underscores. -/
def isIdentifierChars : List Char → Bool
  | [] => false
  | c :: rest => startsIdentifier c && rest.all continuesIdentifier

def isIdentifier (name : String) : Bool := isIdentifierChars name.toList

/-- At least one capital letter and no small one. -/
def isUpper (name : String) : Bool :=
  name.toList.any isUppercase && !name.toList.any isLowercase

end DocGraph.Text
