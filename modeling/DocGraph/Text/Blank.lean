/-!
Blank characters, those of the Unicode property White_Space, and trimming.
-/
namespace DocGraph.Text

def isBlank (c : Char) : Bool :=
  let code := c.toNat
  (9 ≤ code && code ≤ 13) || code == 32 || code == 0x85 || code == 0xA0 || code == 0x1680 ||
    (0x2000 ≤ code && code ≤ 0x200A) || code == 0x2028 || code == 0x2029 || code == 0x202F ||
    code == 0x205F || code == 0x3000

def trimStart (cs : List Char) : List Char := cs.dropWhile isBlank

def trimEnd (cs : List Char) : List Char := (cs.reverse.dropWhile isBlank).reverse

def trim (cs : List Char) : List Char := trimEnd (trimStart cs)

def trimText (text : String) : String := String.ofList (trim text.toList)

/-- A line is blank when nothing but blank characters stands on it. -/
def isBlankLine (cs : List Char) : Bool := cs.all isBlank

/-- The first word of a text, words being separated by blanks. -/
def firstWord? (text : String) : Option String :=
  match trimStart text.toList with
  | [] => none
  | cs => some (String.ofList (cs.takeWhile (fun c => !isBlank c)))

end DocGraph.Text
