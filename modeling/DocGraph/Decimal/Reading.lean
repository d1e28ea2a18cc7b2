import DocGraph.Decimal.Binary64

/-!
The binary64 number of a decimal `digits * 10 ^ exponent`. The digits, below 2 ^ 64, are rounded
first, and the power of ten is applied to the rounded number, so a long decimal may land on a
neighbour of the nearest number.
-/
namespace DocGraph.Binary64

def greatestPower : Nat := 308

def powerOfTen? (n : Nat) : Option Binary64 := ofNat? (Nat.pow 10 n)

/-- Multiplies by `10 ^ power`; `none` beyond the greatest number. -/
def scaleUp? (x : Binary64) (power : Nat) : Option Binary64 :=
  if power ≤ greatestPower then do x.mul? (← powerOfTen? power)
  else if x.isZero then some x
  else none

/-- Divides by `10 ^ power`, in two steps when the power is beyond the greatest. What two greatest
powers do not exhaust rounds to zero. -/
def scaleDown? (x : Binary64) (power : Nat) : Option Binary64 :=
  if power ≤ greatestPower then do x.div? (← powerOfTen? power)
  else if power ≤ 2 * greatestPower then do
    (← x.div? (← powerOfTen? greatestPower)).div? (← powerOfTen? (power - greatestPower))
  else some zero

def ofDecimal? (digits : Nat) (exponent : Int) : Option Binary64 := do
  let x ← ofNat? digits
  if exponent ≥ 0 then x.scaleUp? exponent.toNat else x.scaleDown? (-exponent).toNat

end DocGraph.Binary64
