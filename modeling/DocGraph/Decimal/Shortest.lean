import DocGraph.Decimal.Binary64

/-!
The shortest decimal that reads back as a given binary64 number. The decimals that round to a
number form an interval around it, its ends included when the significand is even. For each count
of digits the two neighbours of the number on that decimal grid are tried; the first grid with a
neighbour inside the interval gives the answer, the nearer one if both are inside. Of two equally
near ones each kind of text has its own choice.
-/
namespace DocGraph

/-- `digits * 10 ^ exponent`. -/
structure Decimal where
  digits : Nat
  exponent : Int
deriving DecidableEq, Repr

/-- Which of two equally near neighbours is taken. -/
inductive Tie where
  | up
  | even
deriving DecidableEq, Repr

/-- Whether the upper of two equally near neighbours is taken, the lower one being given. -/
def Tie.goesUp : Tie → Nat → Bool
  | up, _ => true
  | even, lower => lower % 2 == 1

namespace Decimal

def places (n : Nat) : Nat := (Nat.toDigits 10 n).length

/-- Moves final zeros of the digits into the exponent, `fuel` of them at most. -/
def dropZeros : Nat → Decimal → Decimal
  | 0, d => d
  | fuel + 1, d =>
      if d.digits ≠ 0 ∧ d.digits % 10 = 0 then dropZeros fuel ⟨d.digits / 10, d.exponent + 1⟩
      else d

/-- The reals that round to a number, as numerators over one denominator. -/
structure Interval where
  low : Nat
  value : Nat
  high : Nat
  unit : Nat
  closed : Bool

/-- The gap below a power of two is half the gap above it. -/
def Interval.of (x : Binary64) : Interval :=
  let below := if x.significand = Nat.pow 2 52 ∧ x.exponent > Binary64.leastExponent then 1 else 2
  let (scale, unit) :=
    if x.exponent ≥ 0 then (Nat.pow 2 x.exponent.toNat, 4) else (1, 4 * Nat.pow 2 (-x.exponent).toNat)
  { low := (4 * x.significand - below) * scale
    value := 4 * x.significand * scale
    high := (4 * x.significand + 2) * scale
    unit
    closed := x.significand % 2 == 0 }

/-- The interval measured in units of `10 ^ exponent`. -/
def Interval.rescale (i : Interval) (exponent : Int) : Interval :=
  if exponent ≥ 0 then { i with unit := i.unit * Nat.pow 10 exponent.toNat }
  else
    let factor := Nat.pow 10 (-exponent).toNat
    { i with low := i.low * factor, value := i.value * factor, high := i.high * factor }

def Interval.contains (i : Interval) (n : Nat) : Bool :=
  let point := n * i.unit
  if i.closed then i.low ≤ point && point ≤ i.high else i.low < point && point < i.high

/-- How many places stand before the point, negative for zeros behind it. -/
def Interval.pointPosition (i : Interval) : Int :=
  if i.unit ≤ i.value then places (i.value / i.unit) else 1 - (places (i.unit / i.value) : Int)

/-- Whether the number is nearer to the next integer than to the one below it. -/
def Interval.roundsUp (i : Interval) (tie : Tie) : Bool :=
  let twice := 2 * (i.value % i.unit)
  if twice = i.unit then tie.goesUp (i.value / i.unit) else i.unit < twice

/-- The neighbour on the integer grid that lies in the interval, if one does. -/
def Interval.neighbour? (i : Interval) (tie : Tie) : Option Nat :=
  let floor := i.value / i.unit
  match i.contains floor, i.contains (floor + 1) with
  | true, true => some (if i.roundsUp tie then floor + 1 else floor)
  | true, false => some floor
  | false, true => some (floor + 1)
  | false, false => none

/-- Tries grids of `count`, `count + 1`, … digits; 17 always suffice. -/
def search (tie : Tie) (i : Interval) (position : Int) : Nat → Nat → Decimal
  | 0, _ => ⟨0, 0⟩
  | fuel + 1, count =>
      let exponent := position - count
      match (i.rescale exponent).neighbour? tie with
      | some digits => ⟨digits, exponent⟩
      | none => search tie i position fuel (count + 1)

/-- The shortest decimal of a magnitude. -/
def shortest (tie : Tie) (x : Binary64) : Decimal :=
  if x.isZero then ⟨0, 0⟩
  else
    let i := Interval.of x
    dropZeros 20 (search tie i i.pointPosition 18 1)

/-- Positional notation, without an exponent and without a final point. -/
def positional (d : Decimal) : String :=
  let text := Nat.toDigits 10 d.digits
  if d.exponent ≥ 0 then String.ofList (text ++ List.replicate d.exponent.toNat '0')
  else
    let behind := (-d.exponent).toNat
    if text.length ≤ behind then
      "0." ++ String.ofList (List.replicate (behind - text.length) '0' ++ text)
    else
      let before := text.length - behind
      String.ofList (text.take before) ++ "." ++ String.ofList (text.drop before)

/-- Scientific notation with one digit before the point and a sign at the power. -/
def scientific (d : Decimal) : String :=
  match Nat.toDigits 10 d.digits with
  | [] => ""
  | first :: rest =>
      let power := d.exponent + rest.length
      let fraction := if rest.isEmpty then "" else "." ++ String.ofList rest
      first.toString ++ fraction ++ "e" ++ (if power < 0 then "-" else "+") ++ toString power.natAbs

end Decimal

end DocGraph
