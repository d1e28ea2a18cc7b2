/-!
Dotted names. A name is read as its parts, cut at every dot, and written by joining parts with
dots; the two are inverse on every text, empty parts included.
-/
namespace DocGraph.Dotted

/-- The parts of a dotted name; a text without a dot is one part. -/
def cut : List Char → List (List Char)
  | [] => [[]]
  | c :: rest =>
      if c = '.' then [] :: cut rest
      else match cut rest with
        | [] => [[c]]
        | part :: later => (c :: part) :: later

def parts (name : String) : List String := (cut name.toList).map String.ofList

def join (segments : List String) : String := ".".intercalate segments

/-- `name` extended by one more segment. -/
def extend (name segment : String) : String := name ++ "." ++ segment

/-- Cuts at the last dot. -/
def cutLast? : List Char → Option (List Char × List Char)
  | [] => none
  | c :: rest =>
      match cutLast? rest with
      | some (before, after) => some (c :: before, after)
      | none => if c = '.' then some ([], rest) else none

/-- The qualifier and the last segment of a name that has a dot. -/
def qualifier? (name : String) : Option (String × String) :=
  (cutLast? name.toList).map fun (before, after) => (String.ofList before, String.ofList after)

def head (name : String) : String := String.ofList (name.toList.takeWhile (· ≠ '.'))

/-- The number of dots in a name. -/
def depth (name : String) : Nat := name.toList.count '.'

theorem cut_ne_nil (cs : List Char) : cut cs ≠ [] := by
  cases cs with
  | nil => simp [cut]
  | cons c rest =>
      unfold cut
      split
      · simp
      · split <;> simp

theorem intercalate_cut (cs : List Char) : ['.'].intercalate (cut cs) = cs := by
  induction cs with
  | nil => rfl
  | cons c rest ih =>
      cases pieces : cut rest with
      | nil => exact absurd pieces (cut_ne_nil rest)
      | cons part later =>
          rw [pieces] at ih
          by_cases dot : c = '.'
          · subst dot
            simp only [cut, ↓reduceIte, pieces]
            rw [List.intercalate_cons_cons, ih]
            rfl
          · simp only [cut, if_neg dot, pieces]
            cases later with
            | nil => simpa using ih
            | cons next later =>
                rw [List.intercalate_cons_cons] at ih ⊢
                simpa using ih

end DocGraph.Dotted
