/-!
Merging orders. Given several sequences, the merge repeatedly takes the first head that stands in
no tail, which gives one sequence that keeps the order of each; it fails when every head stands in
some tail.
-/
namespace DocGraph.Linearization

variable {α : Type} [DecidableEq α]

/-- Whether an element stands behind the head of some sequence. -/
def inSomeTail (seqs : List (List α)) (x : α) : Bool := seqs.any fun seq => seq.tail.contains x

/-- The first head that stands in no tail. -/
def freeHead? (seqs : List (List α)) : Option α :=
  (seqs.filterMap List.head?).find? fun head => !inSomeTail seqs head

/-- Removes an element that stands at the head. -/
def dropHead (x : α) : List α → List α
  | [] => []
  | y :: rest => if y = x then rest else y :: rest

def totalLength (seqs : List (List α)) : Nat := seqs.flatten.length

def mergeWithin : Nat → List (List α) → Option (List α)
  | 0, _ => some []
  | fuel + 1, seqs =>
      if seqs.all List.isEmpty then some []
      else
        match freeHead? seqs with
        | none => none
        | some head => (mergeWithin fuel (seqs.map (dropHead head))).map (head :: ·)

/-- The merge of some sequences. Each element taken shortens one of them. -/
def merge (seqs : List (List α)) : Option (List α) := mergeWithin (totalLength seqs) seqs

end DocGraph.Linearization
