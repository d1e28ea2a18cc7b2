/-!
Sets of characters given by spans of code points. A span runs from `first` to `last` in steps of
`step`, so that alphabets which interleave upper and lower case take one span each.
-/
namespace DocGraph.Text

structure Span where
  first : Nat
  last : Nat
  step : Nat
deriving DecidableEq, Repr

def Span.contains (span : Span) (code : Nat) : Bool :=
  span.first ≤ code && code ≤ span.last && (code - span.first) % span.step == 0

/-- Membership in a list of spans in ascending order. The search ends at the first span that
begins above the code point. -/
def covers : List Span → Nat → Bool
  | [], _ => false
  | span :: rest, code =>
      if code < span.first then false else span.contains code || covers rest code

/-- The same for spans without gaps, given by their ends. -/
def coversSolid : List (Nat × Nat) → Nat → Bool
  | [], _ => false
  | (first, last) :: rest, code => if code < first then false else code ≤ last || coversSolid rest code

end DocGraph.Text
