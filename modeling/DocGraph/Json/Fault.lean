import DocGraph.Json.Writer
import DocGraph.Text.Quoted

/-!
What can be wrong with a JSON text, and with a JSON value for the use that is made of it. A fault
of a text has a place, given by line and column; columns count bytes.
-/
namespace DocGraph.Json

inductive Fault where
  /-- The text ends within an array. -/
  | endInList
  | endInObject
  | endInString
  | endInValue
  | noColon
  | noListComma
  | noObjectComma
  /-- A word other than `null`, `true` and `false`. -/
  | noWord
  | noValue
  | badEscape
  | badNumber
  /-- A number beyond the greatest real. -/
  | outOfRange
  | controlCharacter
  | keyNotText
  /-- Half of a surrogate pair. -/
  | loneSurrogate
  /-- The second half of a surrogate pair does not follow the first. -/
  | brokenPair
  | trailingComma
  | trailingText
  | tooDeep
  | wrongType (found : Json) (expected : String)
  | wrongValue (found : Json) (expected : String)
  | wrongLength (found : Nat) (expected : String)
  | missing (field : String)
  | repeated (field : String)
  | unknownVariant (name : String) (known : List String)

namespace Fault

/-- A value as messages name it. -/
def describe : Json → String
  | .null => "null"
  | .bool value => "boolean `" ++ (if value then "true" else "false") ++ "`"
  | .num (.int value) => "integer `" ++ toString value ++ "`"
  | .num (.real value) => "floating point `" ++ writeReal value ++ "`"
  | .str value => "string " ++ Text.quoted value
  | .arr _ => "sequence"
  | .obj _ => "map"

def ticked (name : String) : String := "`" ++ name ++ "`"

/-- The choice between some names. -/
def oneOf : List String → String
  | [] => "there are no variants"
  | [name] => "expected " ++ ticked name
  | [first, second] => "expected " ++ ticked first ++ " or " ++ ticked second
  | names => "expected one of " ++ ", ".intercalate (names.map ticked)

def message : Fault → String
  | endInList => "EOF while parsing a list"
  | endInObject => "EOF while parsing an object"
  | endInString => "EOF while parsing a string"
  | endInValue => "EOF while parsing a value"
  | noColon => "expected `:`"
  | noListComma => "expected `,` or `]`"
  | noObjectComma => "expected `,` or `\x7d`"
  | noWord => "expected ident"
  | noValue => "expected value"
  | badEscape => "invalid escape"
  | badNumber => "invalid number"
  | outOfRange => "number out of range"
  | controlCharacter => "control character (\\u0000-\\u001F) found while parsing a string"
  | keyNotText => "key must be a string"
  | loneSurrogate => "lone leading surrogate in hex escape"
  | brokenPair => "unexpected end of hex escape"
  | trailingComma => "trailing comma"
  | trailingText => "trailing characters"
  | tooDeep => "recursion limit exceeded"
  | wrongType found expected => "invalid type: " ++ describe found ++ ", expected " ++ expected
  | wrongValue found expected => "invalid value: " ++ describe found ++ ", expected " ++ expected
  | wrongLength found expected => "invalid length " ++ toString found ++ ", expected " ++ expected
  | missing field => "missing field " ++ ticked field
  | repeated field => "duplicate field " ++ ticked field
  | unknownVariant name known => "unknown variant " ++ ticked name ++ ", " ++ oneOf known

end Fault

/-- Where reading stopped: the text that was left, and how many of its bytes belong to the fault.
The fault of a value counts as placed only when what holds the value has been closed. -/
structure Stop where
  fault : Fault
  rest : List Char
  bytes : Nat := 0
  isPlaced : Bool := true

namespace Stop

/-- A fault of what has been read. -/
def here (fault : Fault) (rest : List Char) : Stop := { fault, rest }

/-- A fault of the next byte. -/
def ahead (fault : Fault) (rest : List Char) : Stop := { fault, rest, bytes := 1 }

/-- A fault that gets its place from what holds the value. -/
def loose (fault : Fault) (rest : List Char) : Stop := { fault, rest, isPlaced := false }

/-- Places a fault that has no place behind what `close` consumes. -/
def settle (close : List Char → List Char) (stop : Stop) : Stop :=
  if stop.isPlaced then stop else here stop.fault (close stop.rest)

end Stop

/-- A fault with its line and column. -/
structure LocatedFault where
  fault : Fault
  line : Nat
  column : Nat

namespace LocatedFault

def newline : UInt8 := 10

def of (text : List Char) (stop : Stop) : LocatedFault :=
  let before := (text.take (text.length - stop.rest.length)).flatMap String.utf8EncodeChar
  let bytes := before ++ (stop.rest.flatMap String.utf8EncodeChar).take stop.bytes
  { fault := stop.fault
    line := bytes.count newline + 1
    column := (bytes.reverse.takeWhile (· != newline)).length }

def message (located : LocatedFault) : String :=
  located.fault.message ++ " at line " ++ toString located.line ++ " column " ++ toString located.column

end LocatedFault

end DocGraph.Json
