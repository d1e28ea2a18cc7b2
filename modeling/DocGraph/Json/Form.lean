import DocGraph.Json.Reader

/-!
Reading JSON text as a form asks. A form says what is expected of a value and names the fields of a
record; all other fields are skipped. What does not fit is a fault of the place where reading has
come to when it shows.
-/
namespace DocGraph.Json

/-- What is expected of a value. -/
inductive Form where
  | string
  | boolean
  | integer (name : String) (low high : Int)
  /-- One of some names, given as a string or as the only field of an object, with null behind it. -/
  | choice (names : List String)
  | list (item : Form)
  /-- Null, or as another form asks. -/
  | optional (form : Form)
  /-- An object with known fields, or an array of the first of them. -/
  | record (name : String) (required : List String) (fields : List (String × Form))
  /-- An object with a tag in the field `type`, or an array that begins with it. The rest is read as
  it stands and then checked. -/
  | tagged (name : String) (tags : List String) (check : Json → Except Fault Unit)

namespace Reader

open Scan (skipSpaces)

/-- The fault of a value that is not of the expected type. -/
def mismatch (expected : String) (cs : List Char) : Stop :=
  match cs with
  | '[' :: _ => .here (.wrongType (.arr []) expected) cs
  | '\x7b' :: _ => .here (.wrongType (.obj []) expected) cs
  | cs =>
      match Scan.scalar? cs with
      | some (.ok (found, rest)) => .here (.wrongType found expected) rest
      | some (.error stop) => stop
      | none => .ahead .noValue cs

/-- A scalar that `accept` takes. -/
def scalar (accept : Json → Except Fault Json) (expected : String) (starts : Char → Bool)
    (cs : List Char) : Attempt (Json × List Char) :=
  match skipSpaces cs with
  | [] => .error (.ahead .endInValue [])
  | c :: rest =>
      if starts c then
        match Scan.scalar? (c :: rest) with
        | some (.ok (found, rest)) =>
            match accept found with
            | .ok json => .ok (json, rest)
            | .error fault => .error (.here fault rest)
        | some (.error stop) => .error stop
        | none => .error (.ahead .noValue (c :: rest))
      else .error (mismatch expected (c :: rest))

def string : List Char → Attempt (Json × List Char) := scalar .ok "a string" (· == '"')

def boolean : List Char → Attempt (Json × List Char) := scalar .ok "a boolean" fun c => c == 't' || c == 'f'

def null : List Char → Attempt (Json × List Char) := scalar .ok "unit" (· == 'n')

/-- An integer within bounds. -/
def acceptInteger (name : String) (low high : Int) : Json → Except Fault Json
  | .num (.int value) =>
      if low ≤ value ∧ value ≤ high then .ok (.int value) else .error (.wrongValue (.int value) name)
  | json => .error (.wrongType json name)

def integer (name : String) (low high : Int) : List Char → Attempt (Json × List Char) :=
  scalar (acceptInteger name low high) name fun c => c == '-' || c.isDigit

/-- One of some names. -/
def acceptName (names : List String) : Json → Except Fault Json
  | .str name => if name ∈ names then .ok (.str name) else .error (.unknownVariant name names)
  | json => .error (.wrongType json "variant identifier")

def name (names : List String) : List Char → Attempt (Json × List Char) :=
  scalar (acceptName names) "variant identifier" (· == '"')

def choice (names : List String) (room : Nat) (cs : List Char) : Attempt (Json × List Char) :=
  match skipSpaces cs with
  | [] => .error (.ahead .endInValue [])
  | '"' :: rest => name names ('"' :: rest)
  | '\x7b' :: rest => do
      let _ ← enter room ('\x7b' :: rest)
      let (chosen, cs) ← name names rest
      let (_, cs) ← null (← colon cs)
      match skipSpaces cs with
      | '\x7d' :: rest => return (chosen, rest)
      | [] => .error (.here .endInObject [])
      | cs => .error (.here .noValue cs)
  | cs => .error (.ahead .noValue cs)

/-- The fields behind the tag and around it, in the order written. -/
def taggedFields (tags : List String) (room : Nat) :
    Nat → Bool → List (String × Json) → List Char → Attempt ((List (String × Json)) × List Char)
  | 0, _, _, cs => .error (.ahead .noValue cs)
  | fuel + 1, isTagged, done, cs =>
      match nextKey done.isEmpty cs with
      | .error stop => .error stop
      | .ok (false, rest) =>
          if isTagged then .ok (done.reverse, rest)
          else .error (.loose (.missing "type") ('\x7d' :: rest))
      | .ok (true, rest) =>
          match do
            let (key, rest) ← Scan.string rest
            if key = "type" then
              if isTagged then .error (.loose (.repeated "type") rest)
              else
                let (tag, rest) ← name tags (← colon rest)
                return ((key, tag), rest)
            else
              let (content, rest) ← value fuel room (← colon rest)
              return ((key, content), rest) with
          | .error stop => .error stop
          | .ok (field, rest) =>
              taggedFields tags room fuel (isTagged || field.1 == "type") (field :: done) rest

def taggedItems (tags : List String) (fuel room : Nat) (cs : List Char) : Attempt (List Json × List Char) := do
  match ← nextItem true cs with
  | (false, rest) => .error (.loose (.missing "type") (']' :: rest))
  | (true, rest) =>
      let (tag, rest) ← name tags rest
      let (later, rest) ← items fuel room [] false rest
      return (tag :: later, rest)

def tagged (expected : String) (tags : List String) (check : Json → Except Fault Unit)
    (fuel room : Nat) (cs : List Char) : Attempt (Json × List Char) := do
  let (json, cs) ←
    match skipSpaces cs with
    | [] => .error (.ahead .endInValue [])
    | '[' :: rest => do
        let room ← enter room ('[' :: rest)
        match taggedItems tags fuel room rest with
        | .ok (items, cs) => .ok (.arr items, cs)
        | .error stop => .error (stop.settle closeList)
    | '\x7b' :: rest => do
        let room ← enter room ('\x7b' :: rest)
        match taggedFields tags room fuel false [] rest with
        | .ok (fields, cs) => .ok (.obj fields, cs)
        | .error stop => .error (stop.settle closeObject)
    | cs => .error (mismatch expected cs)
  match check json with
  | .ok _ => return (json, cs)
  | .error fault => .error (.loose fault cs)

/-- How messages count the fields of a record. -/
def withElements (name : String) (count : Nat) : String :=
  name ++ " with " ++ toString count ++ (if count = 1 then " element" else " elements")

/-- The fault of an array that is not closed where its record ends. -/
def surplus (cs : List Char) : Stop :=
  match skipSpaces cs with
  | [] => .ahead .endInList []
  | ',' :: rest =>
      match skipSpaces rest with
      | ']' :: rest => .ahead .trailingComma (']' :: rest)
      | cs => .ahead .trailingText cs
  | cs => .ahead .trailingText cs

mutual

def form : Nat → Form → Nat → List Char → Attempt (Json × List Char)
  | 0, _, _, cs => .error (.ahead .noValue cs)
  | _, .string, _, cs => string cs
  | _, .boolean, _, cs => boolean cs
  | _, .integer name low high, _, cs => integer name low high cs
  | _, .choice names, room, cs => choice names room cs
  | fuel + 1, .tagged name tags check, room, cs => tagged name tags check fuel room cs
  | fuel + 1, .optional inner, room, cs =>
      match skipSpaces cs with
      | 'n' :: rest => null ('n' :: rest)
      | cs => form fuel inner room cs
  | fuel + 1, .list item, room, cs =>
      match skipSpaces cs with
      | [] => .error (.ahead .endInValue [])
      | '[' :: rest => do
          let room ← enter room ('[' :: rest)
          match listItems fuel item room [] true rest with
          | .ok (items, cs) => .ok (.arr items, cs)
          | .error stop => .error (stop.settle closeList)
      | cs => .error (mismatch "a sequence" cs)
  | fuel + 1, .record name required known, room, cs =>
      match skipSpaces cs with
      | [] => .error (.ahead .endInValue [])
      | '[' :: rest => do
          let room ← enter room ('[' :: rest)
          match recordItems fuel (withElements name known.length) required known 0 room [] rest with
          | .ok (fields, cs) => .ok (.obj fields, cs)
          | .error stop => .error (stop.settle closeList)
      | '\x7b' :: rest => do
          let room ← enter room ('\x7b' :: rest)
          match recordFields fuel required known room true [] rest with
          | .ok (fields, cs) => .ok (.obj fields, cs)
          | .error stop => .error (stop.settle closeObject)
      | cs => .error (mismatch name cs)

def listItems : Nat → Form → Nat → List Json → Bool → List Char → Attempt (List Json × List Char)
  | 0, _, _, _, _, cs => .error (.ahead .noValue cs)
  | fuel + 1, item, room, done, isFirst, cs =>
      match nextItem isFirst cs with
      | .error stop => .error stop
      | .ok (false, rest) => .ok (done.reverse, rest)
      | .ok (true, rest) =>
          match form fuel item room rest with
          | .error stop => .error stop
          | .ok (json, rest) => listItems fuel item room (json :: done) false rest

/-- The known fields of an object, in the order written. -/
def recordFields : Nat → List String → List (String × Form) → Nat → Bool → List (String × Json) →
    List Char → Attempt ((List (String × Json)) × List Char)
  | 0, _, _, _, _, _, cs => .error (.ahead .noValue cs)
  | fuel + 1, required, known, room, isFirst, done, cs =>
      match nextKey isFirst cs with
      | .error stop => .error stop
      | .ok (false, rest) =>
          match required.find? fun field => (done.lookup field).isNone with
          | some field => .error (.loose (.missing field) ('\x7d' :: rest))
          | none => .ok (done.reverse, rest)
      | .ok (true, rest) =>
          match do
            let (key, rest) ← Scan.string rest
            match known.lookup key with
            | none => return (done, ← skip (← colon rest))
            | some wanted =>
                if (done.lookup key).isSome then .error (.loose (.repeated key) rest)
                else
                  let (json, rest) ← form fuel wanted room (← colon rest)
                  return ((key, json) :: done, rest) with
          | .error stop => .error stop
          | .ok (done, rest) => recordFields fuel required known room false done rest

/-- The fields of a record by position. -/
def recordItems : Nat → String → List String → List (String × Form) → Nat → Nat →
    List (String × Json) → List Char → Attempt ((List (String × Json)) × List Char)
  | 0, _, _, _, _, _, _, cs => .error (.ahead .noValue cs)
  | _, _, _, [], _, _, done, cs =>
      match skipSpaces cs with
      | ']' :: rest => .ok (done.reverse, rest)
      | cs => .error (surplus cs)
  | fuel + 1, expected, required, (key, wanted) :: later, index, room, done, cs =>
      match nextItem (index == 0) cs with
      | .error stop => .error stop
      | .ok (false, rest) =>
          if (key :: later.map (·.1)).any (required.contains ·) then
            let place := index + ((key :: later.map (·.1)).takeWhile (!required.contains ·)).length
            .error (.loose (.wrongLength place expected) (']' :: rest))
          else .ok (done.reverse, rest)
      | .ok (true, rest) =>
          match form fuel wanted room rest with
          | .error stop => .error stop
          | .ok (json, rest) =>
              recordItems fuel expected required later (index + 1) room ((key, json) :: done) rest

end

end Reader

/-- The value that a text denotes, read as a form asks. -/
def read (form : Form) (text : String) : Except LocatedFault Json :=
  readWhole (fun fuel room cs => Reader.form fuel form room cs) text

end DocGraph.Json
