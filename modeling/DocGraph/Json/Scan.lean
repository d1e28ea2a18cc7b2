import DocGraph.Json.Fault
import DocGraph.Decimal.Reading

/-!
The scalars of JSON text: words, numbers and strings. They are scanned to be read or to be
skipped. What is skipped need not denote anything: its numbers may lie beyond the greatest real and
its strings may hold half of a surrogate pair.
-/
namespace DocGraph.Json

/-- What reading gives; behind what has been read stands the rest of the text. -/
abbrev Attempt := Except Stop

namespace Scan

def isSpace (c : Char) : Bool := c == ' ' || c == '\n' || c == '\t' || c == '\r'

def skipSpaces (cs : List Char) : List Char := cs.dropWhile isSpace

def digit? (c : Char) : Option Nat := if c.isDigit then some (c.toNat - 48) else none

def hexDigit? (c : Char) : Option Nat :=
  if c.isDigit then some (c.toNat - 48)
  else if 'a' ≤ c ∧ c ≤ 'f' then some (c.toNat - 87)
  else if 'A' ≤ c ∧ c ≤ 'F' then some (c.toNat - 55)
  else none

/-- The rest of a word whose first letter has been read. -/
def word : List Char → List Char → Attempt (List Char)
  | [], cs => .ok cs
  | _ :: _, [] => .error (.here .endInValue [])
  | letter :: letters, c :: rest =>
      if c = letter then word letters rest else .error (.ahead .noWord (c :: rest))

/-- The parts of a number as written. -/
structure Numeral where
  negative : Bool
  whole : List Nat
  fraction : List Nat
  power : Int
  /-- Written without a fraction and without an exponent. -/
  plain : Bool
deriving Repr

def digitLimit : Nat := Nat.pow 2 64

/-- Takes digits while the number stays below 2 ^ 64; gives it and the count of digits taken. -/
def takeDigits (value taken : Nat) : List Nat → Nat × Nat
  | [] => (value, taken)
  | d :: rest =>
      if value * 10 + d < digitLimit then takeDigits (value * 10 + d) (taken + 1) rest
      else (value, taken)

/-- The digits below 2 ^ 64 count, and those of the whole part beyond them are zeros. -/
def Numeral.real? (n : Numeral) : Option Binary64 :=
  let (whole, taken) := takeDigits 0 0 n.whole
  let dropped : Int := (n.whole.length - taken : Nat)
  let (digits, behind) := takeDigits whole 0 n.fraction
  (Binary64.ofDecimal? digits (dropped - behind + n.power)).map fun magnitude =>
    if n.negative then magnitude.neg else magnitude

/-- An integer of 64 bits, signed or not, is an integer; all else is real, and so is `-0`. -/
def Numeral.number? (n : Numeral) : Option Number :=
  let (value, taken) := takeDigits 0 0 n.whole
  if n.plain ∧ taken = n.whole.length ∧ ¬ n.negative then some (.int value)
  else if n.plain ∧ taken = n.whole.length ∧ 0 < value ∧ value ≤ Nat.pow 2 63 then some (.int (-value))
  else n.real?.map .real

def spanDigits (cs : List Char) : List Nat × List Char :=
  ((cs.takeWhile Char.isDigit).filterMap digit?, cs.dropWhile Char.isDigit)

def natOfDigits (digits : List Nat) : Nat := digits.foldl (fun value d => value * 10 + d) 0

/-- What is wrong when the text ends within a number. -/
def endOfNumber (isSkipped : Bool) : Fault := if isSkipped then .badNumber else .endInValue

/-- The whole part. A leading zero stands alone. -/
def wholePart (isSkipped : Bool) : List Char → Attempt (List Nat × List Char)
  | [] => .error (.here (endOfNumber isSkipped) [])
  | '0' :: rest =>
      match spanDigits rest with
      | ([], _) => .ok ([0], rest)
      | _ => .error (.ahead .badNumber rest)
  | c :: rest =>
      match spanDigits (c :: rest) with
      | ([], _) => .error (.ahead .badNumber (c :: rest))
      | spanned => .ok spanned

/-- The fraction, if there is a point; at least one digit follows it. -/
def fractionPart (isSkipped : Bool) : List Char → Attempt (Option (List Nat) × List Char)
  | '.' :: rest =>
      match spanDigits rest with
      | ([], []) => .error (.ahead (endOfNumber isSkipped) [])
      | ([], rest) => .error (.ahead .badNumber rest)
      | (digits, rest) => .ok (some digits, rest)
  | cs => .ok (none, cs)

def dropSign : List Char → Bool × List Char
  | '-' :: rest => (true, rest)
  | '+' :: rest => (false, rest)
  | cs => (false, cs)

/-- The power, if there is a mark; at least one digit follows it and its sign. -/
def powerPart (isSkipped : Bool) : List Char → Attempt (Option Int × List Char)
  | 'e' :: rest | 'E' :: rest =>
      let (negative, rest) := dropSign rest
      match spanDigits rest with
      | ([], []) => .error (.here (endOfNumber isSkipped) [])
      | ([], rest) => .error (.ahead .badNumber rest)
      | (digits, rest) =>
          let power : Int := natOfDigits digits
          .ok (some (if negative then -power else power), rest)
  | cs => .ok (none, cs)

/-- The parts of a number behind its sign. -/
def numeral (isSkipped negative : Bool) (cs : List Char) : Attempt (Numeral × List Char) := do
  let (whole, cs) ← wholePart isSkipped cs
  let (fraction, cs) ← fractionPart isSkipped cs
  let (power, cs) ← powerPart isSkipped cs
  return ({ negative, whole, fraction := fraction.getD [], power := power.getD 0,
            plain := fraction.isNone && power.isNone }, cs)

def powerLimit : Nat := 2147483647

/-- Drops digits up to the one with which the power exceeds its limit, if one does. -/
def dropPower (power : Nat) : List Char → List Char
  | [] => []
  | c :: rest =>
      match digit? c with
      | none => c :: rest
      | some d => if 10 * power + d > powerLimit then rest else dropPower (10 * power + d) rest

/-- Where a number is found to be beyond the greatest real: at its end, or within an endless
power. -/
def rangeEnd (cs : List Char) : List Char :=
  match cs.dropWhile fun c => c.isDigit || c == '.' with
  | [] => []
  | c :: rest => if c = 'e' ∨ c = 'E' then dropPower 0 (dropSign rest).2 else c :: rest

/-- The number behind an optional minus sign. -/
def number (negative : Bool) (cs : List Char) : Attempt (Number × List Char) := do
  let (numeral, rest) ← numeral false negative cs
  match numeral.number? with
  | some number => return (number, rest)
  | none => .error (.here .outOfRange (rangeEnd cs))

def skipNumber (cs : List Char) : Attempt (List Char) := do return (← numeral true false cs).2

/-- The number of four hexadecimal digits. Four bytes are taken whatever they are. -/
def hex4 (cs : List Char) : Attempt (Nat × List Char) :=
  if ((cs.take 4).flatMap String.utf8EncodeChar).length < 4 then .error (.here .endInString [])
  else
    match cs with
    | a :: b :: c :: d :: rest =>
        match hexDigit? a, hexDigit? b, hexDigit? c, hexDigit? d with
        | some a, some b, some c, some d => .ok (((a * 16 + b) * 16 + c) * 16 + d, rest)
        | _, _, _, _ => .error { fault := .badEscape, rest := cs, bytes := 4 }
    | _ => .error { fault := .badEscape, rest := cs, bytes := 4 }

theorem hex4_shortens {cs rest : List Char} {code : Nat} (scanned : hex4 cs = .ok (code, rest)) :
    rest.length < cs.length := by
  unfold hex4 at scanned
  split at scanned
  · cases scanned
  · split at scanned
    · split at scanned
      · cases scanned
        simp only [List.length_cons]
        omega
      · cases scanned
    · cases scanned

def isLeading (code : Nat) : Bool := 0xD800 ≤ code && code ≤ 0xDBFF

def isTrailing (code : Nat) : Bool := 0xDC00 ≤ code && code ≤ 0xDFFF

/-- The given character that must follow the first half of a surrogate pair. -/
def pairMark (mark : Char) : List Char → Attempt (List Char)
  | [] => .error (.here .endInString [])
  | c :: rest => if c = mark then .ok rest else .error (.ahead .brokenPair (c :: rest))

theorem pairMark_shortens {cs rest : List Char} {mark : Char} (scanned : pairMark mark cs = .ok rest) :
    rest.length < cs.length := by
  unfold pairMark at scanned
  split at scanned
  · cases scanned
  · split at scanned
    · cases scanned
      simp
    · cases scanned

/-- The character of an escape `\u`; two escapes give the halves of a surrogate pair. -/
def unicodeEscape (cs : List Char) : Attempt (Char × List Char) := do
  let (code, cs) ← hex4 cs
  if isTrailing code then .error (.here .loneSurrogate cs)
  else if isLeading code then
    let (second, cs) ← hex4 (← pairMark 'u' (← pairMark '\\' cs))
    if isTrailing second then
      return (Char.ofNat (0x10000 + (code - 0xD800) * 0x400 + (second - 0xDC00)), cs)
    else .error (.here .loneSurrogate cs)
  else return (Char.ofNat code, cs)

theorem unicodeEscape_shortens {cs rest : List Char} {c : Char}
    (scanned : unicodeEscape cs = .ok (c, rest)) : rest.length < cs.length := by
  unfold unicodeEscape at scanned
  cases first : hex4 cs with
  | error stop => simp [first, bind, Except.bind] at scanned
  | ok found =>
    obtain ⟨code, afterFirst⟩ := found
    have firstShorter := hex4_shortens first
    simp only [first, bind, Except.bind] at scanned
    split at scanned
    · cases scanned
    · split at scanned
      · cases mark : pairMark '\\' afterFirst with
        | error stop => simp [mark] at scanned
        | ok afterMark =>
          have markShorter := pairMark_shortens mark
          cases letter : pairMark 'u' afterMark with
          | error stop => simp [mark, letter] at scanned
          | ok afterLetter =>
            have letterShorter := pairMark_shortens letter
            cases second : hex4 afterLetter with
            | error stop => simp [mark, letter, second] at scanned
            | ok found =>
              obtain ⟨code, afterSecond⟩ := found
              have secondShorter := hex4_shortens second
              simp only [mark, letter, second] at scanned
              split at scanned
              · simp only [pure, Except.pure, Except.ok.injEq, Prod.mk.injEq] at scanned
                rw [← scanned.2]
                omega
              · cases scanned
      · simp only [pure, Except.pure, Except.ok.injEq, Prod.mk.injEq] at scanned
        rw [← scanned.2]
        exact firstShorter

def simpleEscape? : Char → Option Char
  | '"' => some '"'
  | '\\' => some '\\'
  | '/' => some '/'
  | 'b' => some '\x08'
  | 'f' => some '\x0c'
  | 'n' => some '\n'
  | 'r' => some '\r'
  | 't' => some '\t'
  | _ => none

/-- The character of an escape behind its backslash. -/
def escape : List Char → Attempt (Char × List Char)
  | [] => .error (.here .endInString [])
  | 'u' :: rest => unicodeEscape rest
  | c :: rest =>
      match simpleEscape? c with
      | some meant => .ok (meant, rest)
      | none => .error (.ahead .badEscape (c :: rest))

theorem escape_shortens {cs rest : List Char} {c : Char} (scanned : escape cs = .ok (c, rest)) :
    rest.length < cs.length := by
  unfold escape at scanned
  split at scanned
  · cases scanned
  · exact Nat.lt_succ_of_lt (unicodeEscape_shortens scanned)
  · split at scanned
    · cases scanned
      simp
    · cases scanned

/-- Reads up to the closing quote. `done` holds the characters read, last one first. -/
def stringFrom (done : List Char) (cs : List Char) : Attempt (String × List Char) :=
  match cs with
  | [] => .error (.here .endInString [])
  | '"' :: rest => .ok (String.ofList done.reverse, rest)
  | '\\' :: rest =>
      match _scanned : escape rest with
      | .ok (c, later) => stringFrom (c :: done) later
      | .error stop => .error stop
  | c :: rest =>
      if c.toNat < 0x20 then .error (.here .controlCharacter rest) else stringFrom (c :: done) rest
termination_by cs.length
decreasing_by
  · exact Nat.lt_succ_of_lt (escape_shortens (by assumption))
  · simp

/-- The string behind its opening quote. -/
def string (cs : List Char) : Attempt (String × List Char) := stringFrom [] cs

def skipEscape : List Char → Attempt (List Char)
  | [] => .error (.here .endInString [])
  | 'u' :: rest => (hex4 rest).map (·.2)
  | c :: rest =>
      match simpleEscape? c with
      | some _ => .ok rest
      | none => .error (.ahead .badEscape (c :: rest))

theorem skipEscape_shortens {cs rest : List Char} (skipped : skipEscape cs = .ok rest) :
    rest.length < cs.length := by
  unfold skipEscape at skipped
  split at skipped
  · cases skipped
  · rename_i later
    cases scanned : hex4 later with
    | error stop => simp [scanned, Except.map] at skipped
    | ok found =>
      simp only [scanned, Except.map] at skipped
      cases skipped
      exact Nat.lt_succ_of_lt (hex4_shortens scanned)
  · split at skipped
    · cases skipped
      simp
    · cases skipped

/-- Skips up to the closing quote and over it. -/
def skipString (cs : List Char) : Attempt (List Char) :=
  match cs with
  | [] => .error (.here .endInString [])
  | '"' :: rest => .ok rest
  | '\\' :: rest =>
      match _skipped : skipEscape rest with
      | .ok later => skipString later
      | .error stop => .error stop
  | c :: rest =>
      if c.toNat < 0x20 then .error (.here .controlCharacter (c :: rest)) else skipString rest
termination_by cs.length
decreasing_by
  · exact Nat.lt_succ_of_lt (skipEscape_shortens (by assumption))
  · simp

/-- A scalar, if one begins here; its first character decides. -/
def scalar? : List Char → Option (Attempt (Json × List Char))
  | 'n' :: rest => some ((word ['u', 'l', 'l'] rest).map fun rest => (.null, rest))
  | 't' :: rest => some ((word ['r', 'u', 'e'] rest).map fun rest => (.bool true, rest))
  | 'f' :: rest => some ((word ['a', 'l', 's', 'e'] rest).map fun rest => (.bool false, rest))
  | '"' :: rest => some ((string rest).map fun (text, rest) => (.str text, rest))
  | '-' :: rest => some ((number true rest).map fun (value, rest) => (.num value, rest))
  | c :: rest =>
      if c.isDigit then some ((number false (c :: rest)).map fun (value, rest) => (.num value, rest))
      else none
  | [] => none

/-- Skips a scalar, if one begins here. -/
def skipScalar? : List Char → Option (Attempt (List Char))
  | 'n' :: rest => some (word ['u', 'l', 'l'] rest)
  | 't' :: rest => some (word ['r', 'u', 'e'] rest)
  | 'f' :: rest => some (word ['a', 'l', 's', 'e'] rest)
  | '"' :: rest => some (skipString rest)
  | '-' :: rest => some (skipNumber rest)
  | c :: rest => if c.isDigit then some (skipNumber (c :: rest)) else none
  | [] => none

end Scan

end DocGraph.Json
