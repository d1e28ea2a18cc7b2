import DocGraph.Json.Basic
import DocGraph.Decimal.Shortest

/-!
Writing JSON text, on one line or indented by two spaces. Only quotes, backslashes and control
characters are escaped.
-/
namespace DocGraph.Json

def hexDigit (n : Nat) : Char := if n < 10 then Char.ofNat (48 + n) else Char.ofNat (87 + n)

def escapeChar (c : Char) : List Char :=
  if c = '"' then ['\\', '"']
  else if c = '\\' then ['\\', '\\']
  else if c = '\n' then ['\\', 'n']
  else if c = '\r' then ['\\', 'r']
  else if c = '\t' then ['\\', 't']
  else if c = '\x08' then ['\\', 'b']
  else if c = '\x0c' then ['\\', 'f']
  else if c.toNat < 0x20 then ['\\', 'u', '0', '0', hexDigit (c.toNat / 16), hexDigit (c.toNat % 16)]
  else [c]

def quote (text : String) : String := "\"" ++ String.ofList (text.toList.flatMap escapeChar) ++ "\""

/-- Reals are written with the fewest digits that read back. They are written positionally while
their point lies within the digits, at most four zeros before them or sixteen places after the
first; a whole number shows one decimal place. -/
def writeReal (x : Binary64) : String :=
  let d := Decimal.shortest .even x
  let point := (Decimal.places d.digits : Int) + d.exponent
  let sign := if x.negative then "-" else ""
  let text :=
    if 0 ≤ d.exponent ∧ point ≤ 16 then d.positional ++ ".0"
    else if -5 < point ∧ point ≤ 16 then d.positional
    else d.scientific
  sign ++ text

def Number.write : Number → String
  | .int value => toString value
  | .real value => writeReal value

mutual

/-- One line, without spaces. -/
def compact : Json → String
  | .null => "null"
  | .bool value => if value then "true" else "false"
  | .num value => value.write
  | .str value => quote value
  | .arr items => "[" ++ ",".intercalate (compactItems items) ++ "]"
  | .obj fields => "\x7b" ++ ",".intercalate (compactFields fields) ++ "\x7d"

def compactItems : List Json → List String
  | [] => []
  | item :: rest => compact item :: compactItems rest

def compactFields : List (String × Json) → List String
  | [] => []
  | (name, value) :: rest => (quote name ++ ":" ++ compact value) :: compactFields rest

end

def indent (level : Nat) : String := "\n" ++ String.ofList (List.replicate (2 * level) ' ')

/-- The parts between brackets, one a line; no parts, no line. -/
def bracket (opening closing : String) (level : Nat) (parts : List String) : String :=
  if parts.isEmpty then opening ++ closing
  else
    opening ++ indent (level + 1) ++ ("," ++ indent (level + 1)).intercalate parts
      ++ indent level ++ closing

mutual

def prettyAt (level : Nat) : Json → String
  | .arr items => bracket "[" "]" level (prettyItems (level + 1) items)
  | .obj fields => bracket "\x7b" "\x7d" level (prettyFields (level + 1) fields)
  | .null => "null"
  | .bool value => if value then "true" else "false"
  | .num value => value.write
  | .str value => quote value

def prettyItems (level : Nat) : List Json → List String
  | [] => []
  | item :: rest => prettyAt level item :: prettyItems level rest

def prettyFields (level : Nat) : List (String × Json) → List String
  | [] => []
  | (name, value) :: rest => (quote name ++ ": " ++ prettyAt level value) :: prettyFields level rest

end

/-- One item a line, indented by two spaces. -/
def pretty (json : Json) : String := prettyAt 0 json

end DocGraph.Json
