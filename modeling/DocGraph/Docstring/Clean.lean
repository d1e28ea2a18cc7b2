import DocGraph.Text.Blank
import DocGraph.Text.Lines

/-!
Docstrings with their indentation removed. Tabs count as eight spaces. The first line loses its
leading blanks; the other lines lose the least indentation among those that are not blank, measured
in bytes of UTF-8. Blank lines at both ends are dropped.
-/
namespace DocGraph.Docstring

def tab : List Char := List.replicate 8 ' '

def expandTabs (cs : List Char) : List Char := cs.flatMap fun c => if c = '\t' then tab else [c]

def utf8Length (cs : List Char) : Nat := cs.foldr (fun c size => c.utf8Size + size) 0

def indentation (line : List Char) : Nat := utf8Length (line.takeWhile Text.isBlank)

/-- The least indentation of the lines that are not blank; zero when there are none. -/
def margin : List (List Char) → Nat
  | [] => 0
  | lines =>
      match (lines.filter fun line => !Text.isBlankLine line).map indentation with
      | [] => 0
      | first :: rest => rest.foldl min first

/-- The text behind the first `count` bytes, if the cut falls between two characters. -/
def dropBytes? (count : Nat) : List Char → Option (List Char)
  | [] => if count = 0 then some [] else none
  | c :: rest =>
      if count = 0 then some (c :: rest)
      else if c.utf8Size ≤ count then dropBytes? (count - c.utf8Size) rest
      else none

/-- Removes the margin; a line too short for it, or one where it would split a character, loses
its leading blanks instead. -/
def dedent (margin : Nat) (line : List Char) : List Char :=
  (dropBytes? margin line).getD (Text.trimStart line)

def dropBlankEnds (lines : List (List Char)) : List (List Char) :=
  ((lines.dropWhile Text.isBlankLine).reverse.dropWhile Text.isBlankLine).reverse

def cleanLines : List (List Char) → List (List Char)
  | [] => []
  | first :: rest => dropBlankEnds (Text.trimStart first :: rest.map (dedent (margin rest)))

def clean (text : String) : String :=
  String.ofList (Text.joinLines (cleanLines (Text.lines (expandTabs text.toList))))

end DocGraph.Docstring
