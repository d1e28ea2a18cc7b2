import Mathlib.Algebra.Order.BigOperators.Group.List
import Mathlib.Algebra.Order.Group.Nat
import Mathlib.Data.List.Nodup
import DocGraph.Linearization

namespace DocGraph.Linearization

variable {α : Type} {seqs : List (List α)} {seq order : List α} {result : Option (List α)} {x head : α}

/-- An order without repetition that every sequence can be read off. -/
structure Joins (order : List α) (seqs : List (List α)) : Prop where
  nodup : order.Nodup
  keeps : ∀ seq ∈ seqs, seq.Sublist order

/-- Some order joins the sequences. -/
def Consistent (seqs : List (List α)) : Prop := ∃ order : List α, Joins order seqs

variable [DecidableEq α]

theorem inSomeTail_eq_true : inSomeTail seqs x = true ↔ ∃ seq ∈ seqs, x ∈ seq.tail := by
  simp [inSomeTail]

theorem freeHead?_eq_some (free : freeHead? seqs = some head) :
    (∃ rest, head :: rest ∈ seqs) ∧ ∀ seq ∈ seqs, head ∉ seq.tail := by
  constructor
  · obtain ⟨seq, among, first⟩ := List.mem_filterMap.mp (List.mem_of_find?_eq_some free)
    obtain ⟨rest, rfl⟩ := List.head?_eq_some_iff.mp first
    exact ⟨rest, among⟩
  · intro seq among behind
    have loose := List.find?_some free
    rw [inSomeTail_eq_true.mpr ⟨seq, among, behind⟩] at loose
    cases loose

theorem freeHead?_isSome {rest : List α} (among : head :: rest ∈ seqs) (free : ∀ seq ∈ seqs, head ∉ seq.tail) :
    (freeHead? seqs).isSome := by
  refine List.find?_isSome.mpr ⟨head, List.mem_filterMap.mpr ⟨_, among, rfl⟩, ?_⟩
  rw [Bool.not_eq_true', ← Bool.not_eq_true, inSomeTail_eq_true]
  rintro ⟨seq, member, behind⟩
  exact free seq member behind

theorem dropHead_sublist (x : α) (seq : List α) : (dropHead x seq).Sublist seq := by
  cases seq with
  | nil => exact .slnil
  | cons y rest =>
      rw [dropHead]
      split
      · exact List.sublist_cons_self y rest
      · exact .refl _

theorem mem_dropHead_of_ne (member : x ∈ seq) (other : x ≠ head) : x ∈ dropHead head seq := by
  cases seq with
  | nil => cases member
  | cons y rest =>
      rw [dropHead]
      split
      · rename_i same
        exact (List.mem_cons.mp member).resolve_left fun first => other (first.trans same)
      · exact member

theorem notMem_dropHead (free : head ∉ seq.tail) : head ∉ dropHead head seq := by
  cases seq with
  | nil => exact List.not_mem_nil
  | cons y rest =>
      rw [dropHead]
      split
      · exact free
      · rename_i other
        rw [List.mem_cons, not_or]
        exact ⟨Ne.symm other, free⟩

theorem sublist_cons_of_dropHead (kept : (dropHead head seq).Sublist order) : seq.Sublist (head :: order) := by
  cases seq with
  | nil => exact List.nil_sublist _
  | cons y rest =>
      rw [dropHead] at kept
      split at kept
      · rename_i same
        rw [same]
        exact kept.cons_cons head
      · exact kept.cons head

/-- The rounds of a merge, however many: all sequences are used up, or every head stands in some tail, or a
free head is taken off and the rest is merged. -/
inductive Merges : List (List α) → Option (List α) → Prop
  | done {seqs : List (List α)} (empty : ∀ seq ∈ seqs, seq = []) : Merges seqs (some [])
  | stuck {seqs : List (List α)} (nonempty : ∃ seq ∈ seqs, seq ≠ []) (blocked : freeHead? seqs = none) :
      Merges seqs none
  | take {seqs : List (List α)} {head : α} {result : Option (List α)} (free : freeHead? seqs = some head)
      (rest : Merges (seqs.map (dropHead head)) result) : Merges seqs (result.map (head :: ·))

theorem totalLength_map_dropHead (free : freeHead? seqs = some head) :
    totalLength (seqs.map (dropHead head)) < totalLength seqs := by
  obtain ⟨⟨rest, among⟩, _⟩ := freeHead?_eq_some free
  rw [totalLength, totalLength, List.length_flatten, List.length_flatten, List.map_map]
  refine List.sum_lt_sum _ _ (fun seq _ => (dropHead_sublist head seq).length_le) ⟨_, among, ?_⟩
  simp [dropHead]

theorem merges_mergeWithin {fuel : Nat} (enough : totalLength seqs ≤ fuel) :
    Merges seqs (mergeWithin fuel seqs) := by
  induction fuel generalizing seqs with
  | zero =>
      refine .done fun seq among => List.eq_nil_of_length_eq_zero ?_
      have short := (List.sublist_flatten_of_mem among).length_le
      rw [totalLength] at enough
      omega
  | succ fuel ih =>
      rw [mergeWithin]
      split
      · rename_i empty
        exact .done (by simpa using empty)
      · rename_i nonempty
        split
        · rename_i blocked
          exact .stuck (by simpa using nonempty) blocked
        · rename_i head free
          have shorter := totalLength_map_dropHead free
          exact .take free (ih (by omega))

/-- The bound on the rounds is never met. -/
theorem merges_merge (seqs : List (List α)) : Merges seqs (merge seqs) := merges_mergeWithin (Nat.le_refl _)

namespace Merges

theorem mem_iff (merges : Merges seqs result) (merged : result = some order) :
    x ∈ order ↔ ∃ seq ∈ seqs, x ∈ seq := by
  induction merges generalizing order with
  | done empty =>
      cases merged
      refine ⟨fun member => absurd member List.not_mem_nil, ?_⟩
      rintro ⟨seq, among, member⟩
      rw [empty seq among] at member
      cases member
  | stuck => cases merged
  | @take seqs head result free _ ih =>
      obtain ⟨order, equal, rfl⟩ := Option.map_eq_some_iff.mp merged
      obtain ⟨⟨rest, first⟩, _⟩ := freeHead?_eq_some free
      rw [List.mem_cons, ih equal]
      constructor
      · rintro (rfl | ⟨_, among, member⟩)
        · exact ⟨_, first, List.mem_cons_self⟩
        · obtain ⟨seq, listed, rfl⟩ := List.mem_map.mp among
          exact ⟨seq, listed, (dropHead_sublist head seq).mem member⟩
      · rintro ⟨seq, among, member⟩
        by_cases taken : x = head
        · exact .inl taken
        · exact .inr ⟨_, List.mem_map_of_mem among, mem_dropHead_of_ne member taken⟩

theorem joins (merges : Merges seqs result) (merged : result = some order) : Joins order seqs := by
  induction merges generalizing order with
  | done empty =>
      cases merged
      refine ⟨List.nodup_nil, fun seq among => ?_⟩
      rw [empty seq among]
  | stuck => cases merged
  | @take seqs head result free rest ih =>
      obtain ⟨order, equal, rfl⟩ := Option.map_eq_some_iff.mp merged
      have joins := ih equal
      refine ⟨List.nodup_cons.mpr ⟨fun again => ?_, joins.nodup⟩, fun seq among => ?_⟩
      · -- The head was in no tail, so nothing of it is left for the later rounds.
        obtain ⟨_, among, member⟩ := (rest.mem_iff equal).mp again
        obtain ⟨seq, listed, rfl⟩ := List.mem_map.mp among
        exact notMem_dropHead ((freeHead?_eq_some free).2 seq listed) member
      · exact sublist_cons_of_dropHead (joins.keeps _ (List.mem_map_of_mem among))

end Merges

theorem Joins.freeHead?_isSome (joins : Joins order seqs) (nonempty : ∃ seq ∈ seqs, seq ≠ []) :
    (freeHead? seqs).isSome := by
  induction order with
  | nil =>
      obtain ⟨seq, among, left⟩ := nonempty
      exact absurd (List.sublist_nil.mp (joins.keeps seq among)) left
  | cons first order ih =>
      obtain ⟨fresh, nodup⟩ := List.nodup_cons.mp joins.nodup
      by_cases heads : ∃ rest, first :: rest ∈ seqs
      · -- Behind the first element of the order comes what the tails are read off.
        obtain ⟨rest, among⟩ := heads
        exact Linearization.freeHead?_isSome among fun seq member behind =>
          fresh ((joins.keeps seq member).tail.mem behind)
      · refine ih ⟨nodup, fun seq among => ?_⟩
        cases joins.keeps seq among with
        | cons _ kept => exact kept
        | cons_cons _ kept => exact absurd ⟨_, among⟩ heads

theorem Joins.map_dropHead (joins : Joins order seqs) (head : α) : Joins order (seqs.map (dropHead head)) := by
  refine ⟨joins.nodup, fun _ among => ?_⟩
  obtain ⟨seq, listed, rfl⟩ := List.mem_map.mp among
  exact (dropHead_sublist head seq).trans (joins.keeps seq listed)

theorem Merges.not_consistent (merges : Merges seqs result) (failed : result = none) : ¬ Consistent seqs := by
  induction merges with
  | done => cases failed
  | stuck nonempty blocked =>
      rintro ⟨order, joins⟩
      have free := joins.freeHead?_isSome nonempty
      rw [blocked] at free
      cases free
  | take _ _ ih =>
      rintro ⟨order, joins⟩
      exact ih (Option.map_eq_none_iff.mp failed) ⟨order, joins.map_dropHead _⟩

theorem joins_merge (merged : merge seqs = some order) : Joins order seqs := (merges_merge seqs).joins merged

theorem mem_merge (merged : merge seqs = some order) : x ∈ order ↔ ∃ seq ∈ seqs, x ∈ seq :=
  (merges_merge seqs).mem_iff merged

theorem merge_eq_none (failed : merge seqs = none) : ¬ Consistent seqs :=
  (merges_merge seqs).not_consistent failed

/-- The merge succeeds exactly if some order joins the sequences. -/
theorem merge_isSome_iff (seqs : List (List α)) : (merge seqs).isSome ↔ Consistent seqs := by
  cases merged : merge seqs with
  | none =>
      exact ⟨fun found => absurd found Bool.false_ne_true, fun consistent => absurd consistent (merge_eq_none merged)⟩
  | some order => exact ⟨fun _ => ⟨order, joins_merge merged⟩, fun _ => rfl⟩

end DocGraph.Linearization
