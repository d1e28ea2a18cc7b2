import DocGraph.Json.Scan

/-!
Reading JSON text from left to right, so that the first fault of a text is the one reported. A
value is skipped, whatever its depth and size, or read as it stands; what is read may nest 127
levels deep.
-/
namespace DocGraph.Json

namespace Reader

open Scan (skipSpaces)

/-- The next item of an array, or none at its end. -/
def nextItem (isFirst : Bool) (cs : List Char) : Attempt (Bool × List Char) :=
  match skipSpaces cs with
  | [] => .error (.ahead .endInList [])
  | ']' :: rest => .ok (false, rest)
  | c :: rest =>
      if isFirst then .ok (true, c :: rest)
      else if c = ',' then
        match skipSpaces rest with
        | [] => .error (.ahead .endInValue [])
        | ']' :: rest => .error (.ahead .trailingComma (']' :: rest))
        | cs => .ok (true, cs)
      else .error (.ahead .noListComma (c :: rest))

/-- The opening quote of the next name of an object, or none at its end. -/
def nextKey (isFirst : Bool) (cs : List Char) : Attempt (Bool × List Char) :=
  match skipSpaces cs with
  | [] => .error (.ahead .endInObject [])
  | '\x7d' :: rest => .ok (false, rest)
  | c :: rest =>
      if isFirst then
        if c = '"' then .ok (true, rest) else .error (.ahead .keyNotText (c :: rest))
      else if c = ',' then
        match skipSpaces rest with
        | [] => .error (.ahead .endInValue [])
        | '"' :: rest => .ok (true, rest)
        | '\x7d' :: rest => .error (.ahead .trailingComma ('\x7d' :: rest))
        | cs => .error (.ahead .keyNotText cs)
      else .error (.ahead .noObjectComma (c :: rest))

def colon (cs : List Char) : Attempt (List Char) :=
  match skipSpaces cs with
  | [] => .error (.ahead .endInObject [])
  | ':' :: rest => .ok rest
  | cs => .error (.ahead .noColon cs)

/-- What closing an array consumes behind a fault. -/
def closeList (cs : List Char) : List Char :=
  match skipSpaces cs with
  | ']' :: rest => rest
  | ',' :: rest => skipSpaces rest
  | cs => cs

/-- What closing an object consumes behind a fault. -/
def closeObject (cs : List Char) : List Char :=
  match skipSpaces cs with
  | '\x7d' :: rest => rest
  | cs => cs

/-- Nothing but spaces may follow. -/
def finish (cs : List Char) : Attempt Unit :=
  match skipSpaces cs with
  | [] => .ok ()
  | cs => .error (.ahead .trailingText cs)

inductive Bracket where
  | square
  | curly
deriving DecidableEq

namespace Bracket

def closing : Bracket → Char
  | square => ']'
  | curly => '\x7d'

def endFault : Bracket → Fault
  | square => .endInList
  | curly => .endInObject

def commaFault : Bracket → Fault
  | square => .noListComma
  | curly => .noObjectComma

end Bracket

/-- Skips a name and the colon behind it. -/
def skipKey (cs : List Char) : Attempt (List Char) :=
  match skipSpaces cs with
  | [] => .error (.ahead .endInObject [])
  | '"' :: rest => do colon (← Scan.skipString rest)
  | cs => .error (.ahead .keyNotText cs)

/-- What stands before the next value within a bracket. -/
def skipLead : Bracket → List Char → Attempt (List Char)
  | .square, cs => .ok cs
  | .curly, cs => skipKey cs

/-- What may come next while skipping: a value, the first one within a bracket, or what follows a
value. -/
inductive Phase where
  | value
  | opened
  | after

/-- Skips the rest of a value within some open brackets, the innermost one first. -/
def skipFrom : Nat → Phase → List Bracket → List Char → Attempt (List Char)
  | 0, _, _, cs => .error (.ahead .noValue cs)
  | fuel + 1, .value, brackets, cs =>
      match skipSpaces cs with
      | [] => .error (.ahead .endInValue [])
      | '[' :: rest => skipFrom fuel .opened (.square :: brackets) rest
      | '\x7b' :: rest => skipFrom fuel .opened (.curly :: brackets) rest
      | cs =>
          match Scan.skipScalar? cs with
          | some (.ok rest) => skipFrom fuel .after brackets rest
          | some (.error stop) => .error stop
          | none => .error (.ahead .noValue cs)
  | _, _, [], cs => .ok cs
  | fuel + 1, phase, bracket :: outer, cs =>
      match skipSpaces cs with
      | [] => .error (.ahead bracket.endFault [])
      | c :: rest =>
          if c = bracket.closing then skipFrom fuel .after outer rest
          else
            let lead :=
              match phase, c with
              | .after, ',' => skipLead bracket rest
              | .after, _ => .error (.ahead bracket.commaFault (c :: rest))
              | _, _ => skipLead bracket (c :: rest)
            match lead with
            | .ok rest => skipFrom fuel .value (bracket :: outer) rest
            | .error stop => .error stop

/-- Skips a value. Two steps take at least one character. -/
def skip (cs : List Char) : Attempt (List Char) := skipFrom (2 * cs.length + 2) .value [] cs

/-- How many arrays and objects may be open at once. -/
def depthLimit : Nat := 127

/-- The room left within one more bracket. -/
def enter (room : Nat) (cs : List Char) : Attempt Nat :=
  if room = 0 then .error (.ahead .tooDeep cs) else .ok (room - 1)

mutual

def value : Nat → Nat → List Char → Attempt (Json × List Char)
  | 0, _, cs => .error (.ahead .noValue cs)
  | fuel + 1, room, cs =>
      match skipSpaces cs with
      | [] => .error (.ahead .endInValue [])
      | '[' :: rest => do
          let (items, cs) ← items fuel (← enter room ('[' :: rest)) [] true rest
          return (.arr items, cs)
      | '\x7b' :: rest => do
          let (fields, cs) ← fields fuel (← enter room ('\x7b' :: rest)) [] rest
          return (.obj fields, cs)
      | cs => (Scan.scalar? cs).getD (.error (.ahead .noValue cs))

/-- The items from here to the end of an array; `done` holds those before, last one first. -/
def items : Nat → Nat → List Json → Bool → List Char → Attempt (List Json × List Char)
  | 0, _, _, _, cs => .error (.ahead .noValue cs)
  | fuel + 1, room, done, isFirst, cs =>
      match nextItem isFirst cs with
      | .error stop => .error stop
      | .ok (false, rest) => .ok (done.reverse, rest)
      | .ok (true, rest) =>
          match value fuel room rest with
          | .error stop => .error stop
          | .ok (item, rest) => items fuel room (item :: done) false rest

def fields : Nat → Nat → List (String × Json) → List Char → Attempt ((List (String × Json)) × List Char)
  | 0, _, _, cs => .error (.ahead .noValue cs)
  | fuel + 1, room, done, cs =>
      match nextKey done.isEmpty cs with
      | .error stop => .error stop
      | .ok (false, rest) => .ok (done.reverse, rest)
      | .ok (true, rest) =>
          match do
            let (name, rest) ← Scan.string rest
            let (content, rest) ← value fuel room (← colon rest)
            return ((name, content), rest) with
          | .error stop => .error stop
          | .ok (field, rest) => fields fuel room (field :: done) rest

end

end Reader

/-- What `read` gives for the whole of a text. -/
def readWhole (read : Nat → Nat → List Char → Attempt (Json × List Char)) (text : String) :
    Except LocatedFault Json :=
  let cs := text.toList
  let result : Attempt Json := do
    let (json, rest) ← read (2 * cs.length + 2) Reader.depthLimit cs
    Reader.finish rest
    return json
  result.mapError (LocatedFault.of cs)

/-- The value that a text denotes. -/
def parse (text : String) : Except LocatedFault Json := readWhole Reader.value text

end DocGraph.Json
