import DocGraph.Json.Fault

/-!
Decoding JSON values. A decoder gives a value or tells what is wrong. Of several faults of a record
the one that stands first in it counts, and fields that are absent come last; unknown fields do not
matter.
-/
namespace DocGraph.Json

abbrev Decoder (α : Type) := Json → Except Fault α

namespace Decoder

variable {α : Type}

def str : Decoder String
  | .str value => .ok value
  | json => .error (.wrongType json "a string")

def bool : Decoder Bool
  | .bool value => .ok value
  | json => .error (.wrongType json "a boolean")

/-- Integers within bounds only: `1.0` is none. -/
def int (name : String) (low high : Int) : Decoder Int
  | .num (.int value) =>
      if low ≤ value ∧ value ≤ high then .ok value else .error (.wrongValue (.int value) name)
  | json => .error (.wrongType json name)

/-- An integer of 32 bits without sign. -/
def u32 (json : Json) : Except Fault Nat := (int "u32" 0 4294967295 json).map Int.toNat

/-- An integer of 64 bits without sign. -/
def u64 (json : Json) : Except Fault Nat := (int "usize" 0 18446744073709551615 json).map Int.toNat

/-- An integer of 8 bits with sign. -/
def i8 : Decoder Int := int "i8" (-128) 127

/-- An integer of 64 bits with sign. -/
def i64 : Decoder Int := int "i64" (-9223372036854775808) 9223372036854775807

/-- Any number; an integer is rounded. -/
def real : Decoder Binary64
  | .num (.real value) => .ok value
  | .num (.int value) =>
      match Binary64.ofNat? value.natAbs with
      | some magnitude => .ok (if value < 0 then magnitude.neg else magnitude)
      | none => .error (.wrongValue (.int value) "f64")
  | json => .error (.wrongType json "f64")

def list (decode : Decoder α) : Decoder (List α)
  | .arr items => items.mapM decode
  | json => .error (.wrongType json "a sequence")

/-- Null is an absent value. -/
def orNull (decode : Decoder α) : Decoder (Option α)
  | .null => .ok none
  | json => (decode json).map some

/-- Whether a value stands alone or within a tagged value, where two more spellings are read: a tag
may be given by its number, and an empty object stands for null behind a chosen name. -/
inductive Setting where
  | alone
  | inside
deriving DecidableEq

/-- What stands behind a chosen name. -/
def unit (setting : Setting) : Decoder Unit
  | .null => .ok ()
  | .obj [] =>
      match setting with
      | .alone => .error (.wrongType (.obj []) "unit")
      | .inside => .ok ()
  | json => .error (.wrongType json "unit")

/-- One of some members by its name, given as a string or as the only field of an object. -/
def choice (members : List α) (name : α → String) (setting : Setting) (json : Json) :
    Except Fault α := do
  let member (text : String) : Except Fault α :=
    match members.find? fun member => name member == text with
    | some member => .ok member
    | none => .error (.unknownVariant text (members.map name))
  match json with
  | .str text => member text
  | .obj [(text, content)] =>
      let chosen ← member text
      unit setting content
      return chosen
  | .obj fields => .error (.wrongValue (.obj fields) "map with a single key")
  | json => .error (.wrongType json "string or map")

/-- One of some names. -/
def name (names : List String) (setting : Setting) : Decoder String := choice names id setting

/-- A tag, by its name or within a tagged value also by its number. -/
def tag (names : List String) (setting : Setting) : Decoder String
  | .str text => if text ∈ names then .ok text else .error (.unknownVariant text names)
  | .num (.int value) =>
      if setting = .alone ∨ value < 0 then .error (.wrongType (.int value) "variant identifier")
      else
        match names[value.toNat]? with
        | some text => .ok text
        | none =>
            .error (.wrongValue (.int value) ("variant index 0 <= i < " ++ toString names.length))
  | json => .error (.wrongType json "variant identifier")

end Decoder

/-- What decoding one piece of a record gives: a value, or a fault and its place in the record. -/
inductive Piece (α : Type) where
  | value (value : α)
  | fault (place : Nat) (reason : Fault)

namespace Piece

variable {α β : Type}

def map (f : α → β) : Piece α → Piece β
  | value a => .value (f a)
  | fault place reason => .fault place reason

/-- Of two faults the earlier one stays. -/
def apply : Piece (α → β) → Piece α → Piece β
  | value f, piece => piece.map f
  | fault place reason, value _ => .fault place reason
  | fault place reason, fault later other =>
      if later < place then .fault later other else .fault place reason

instance : Applicative Piece where
  pure := value
  map := map
  seq f a := apply f (a ())

end Piece

/-- How messages count the parts of something. -/
def elements (count : Nat) : String :=
  toString count ++ (if count = 1 then " element" else " elements")

/-- The fields of a value, in order. -/
structure Record where
  fields : List (String × Json)
  /-- What is wrong when a field is absent. -/
  absent : String → Fault
  /-- What is wrong when there are more values than fields. -/
  surplus : Option Fault

namespace Record

variable {α : Type}

def ofFields (fields : List (String × Json)) : Record := ⟨fields, .missing, none⟩

/-- Values by position. -/
def ofItems (expected : String) (names : List String) (items : List Json) : Record where
  fields := names.zip items
  absent field :=
    .wrongLength (names.idxOf field) (expected ++ " with " ++ elements names.length)
  surplus :=
    if names.length < items.length then
      some (.wrongLength items.length (elements names.length ++ " in sequence"))
    else none

/-- A record is an object, or an array that gives the first of its fields by position. -/
def ofJson (expected : String) (names : List String) : Decoder Record
  | .obj fields => .ok (ofFields fields)
  | .arr items => .ok (ofItems expected names items)
  | json => .error (.wrongType json expected)

/-- The values of a name, each with its place; the first field has the given place. -/
def occurrences (name : String) : Nat → List (String × Json) → List (Nat × Json)
  | _, [] => []
  | place, field :: rest =>
      if field.1 = name then (place, field.2) :: occurrences name (place + 1) rest
      else occurrences name (place + 1) rest

/-- The value of a field. A second value for one name is a fault. -/
def field (r : Record) (name : String) (decode : Decoder α) (absent : Piece α) : Piece α :=
  match occurrences name 0 r.fields with
  | [] => absent
  | (place, json) :: others =>
      match decode json, others with
      | .error reason, _ => .fault place reason
      | .ok value, [] => .value value
      | .ok _, (second, _) :: _ => .fault second (.repeated name)

def required (r : Record) (name : String) (decode : Decoder α) : Piece α :=
  r.field name decode (.fault r.fields.length (r.absent name))

/-- Absent or null gives no value. -/
def optional (r : Record) (name : String) (decode : Decoder α) : Piece (Option α) :=
  r.field name (Decoder.orNull decode) (.value none)

/-- Absent gives the default; null does not. -/
def defaulted (r : Record) (name : String) (default : α) (decode : Decoder α) : Piece α :=
  r.field name decode (.value default)

/-- The whole, if every piece has a value and no value is left over. -/
def whole (r : Record) : Piece α → Except Fault α
  | .value value =>
      match r.surplus with
      | none => .ok value
      | some reason => .error reason
  | .fault _ reason => .error reason

end Record

/-- The variants of a tagged type: for each tag the name of the variant in messages and its fields
in order. -/
structure Variants where
  name : String
  cases : List (String × String × List String)

namespace Variants

def tags (variants : Variants) : List String := variants.cases.map (·.1)

def expected (variants : Variants) : String := "internally tagged enum " ++ variants.name

/-- The values behind a tag, by position. -/
def record (variants : Variants) (tag : String) (items : List Json) : Record :=
  match variants.cases.lookup tag with
  | some (name, fields) => Record.ofItems name fields items
  | none => Record.ofFields []

/-- The tag and the fields of a tagged value: an object with the tag in the field `type`, or an
array that begins with it. -/
def split (variants : Variants) (setting : Decoder.Setting) : Decoder (String × Record)
  | .obj fields => do
      match Record.occurrences "type" 0 fields with
      | [] => .error (.missing "type")
      | [(_, json)] =>
          let tag ← Decoder.tag variants.tags setting json
          return (tag, Record.ofFields (fields.filter fun field => field.1 != "type"))
      | (_, json) :: _ =>
          let _ ← Decoder.tag variants.tags setting json
          .error (.repeated "type")
  | .arr [] => .error (.missing "type")
  | .arr (json :: items) => do
      let tag ← Decoder.tag variants.tags setting json
      return (tag, variants.record tag items)
  | json => .error (.wrongType json variants.expected)

end Variants

end DocGraph.Json
