import Mathlib.Data.List.Nodup
import Mathlib.Data.List.Perm.Subperm
import Mathlib.Tactic.ByContra
import Std.Data.String.ToNat
import DocGraph.Graph.Attach

namespace DocGraph

namespace Dotted

/-- A name that is one segment: no dot stands in it. -/
def IsSegment (name : String) : Prop := '.' ∉ name.toList

instance (name : String) : Decidable (IsSegment name) :=
  inferInstanceAs (Decidable (¬ _))

theorem toList_extend (name segment : String) :
    (extend name segment).toList = name.toList ++ '.' :: segment.toList := by
  simp [extend]

theorem not_isSegment_extend (name segment : String) : ¬ IsSegment (extend name segment) := by
  simp [IsSegment, toList_extend]

theorem join_concat {segments : List String} (nonempty : segments ≠ []) (segment : String) :
    join (segments ++ [segment]) = extend (join segments) segment := by
  simp only [join, extend]
  rw [String.intercalate_append_of_ne_nil nonempty (by simp), String.intercalate_singleton]

theorem cutLast?_eq_none {cs : List Char} : cutLast? cs = none ↔ '.' ∉ cs := by
  induction cs with
  | nil => simp [cutLast?]
  | cons c rest ih =>
      unfold cutLast?
      cases cutting : cutLast? rest with
      | some pair =>
          have dotted : '.' ∈ rest := by
            by_contra absent
            rw [ih.mpr absent] at cutting
            cases cutting
          simp [dotted]
      | none =>
          have dotless := ih.mp cutting
          by_cases dot : c = '.'
          · simp [dot]
          · simp [dot, dotless, Ne.symm dot]

theorem cutLast?_eq_some {cs before after : List Char} (cutting : cutLast? cs = some (before, after)) :
    cs = before ++ '.' :: after ∧ '.' ∉ after := by
  induction cs generalizing before with
  | nil => cases cutting
  | cons c rest ih =>
      unfold cutLast? at cutting
      cases later : cutLast? rest with
      | some pair =>
          obtain ⟨middle, last⟩ := pair
          simp only [later, Option.some.injEq, Prod.mk.injEq] at cutting
          obtain ⟨rfl, rfl⟩ := cutting
          obtain ⟨text, dotless⟩ := ih later
          exact ⟨by simp [text], dotless⟩
      | none =>
          simp only [later] at cutting
          split at cutting
          · rename_i dot
            cases cutting
            exact ⟨by simp [dot], cutLast?_eq_none.mp later⟩
          · cases cutting

theorem cutLast?_append {after : List Char} (dotless : '.' ∉ after) (before : List Char) :
    cutLast? (before ++ '.' :: after) = some (before, after) := by
  induction before with
  | nil => simp [cutLast?, cutLast?_eq_none.mpr dotless]
  | cons c rest ih => simp [cutLast?, ih]

theorem qualifier?_eq_some {name before own : String} (parted : qualifier? name = some (before, own)) :
    name = extend before own ∧ IsSegment own := by
  simp only [qualifier?, Option.map_eq_some_iff] at parted
  obtain ⟨⟨front, back⟩, cutting, pair⟩ := parted
  simp only [Prod.mk.injEq] at pair
  obtain ⟨rfl, rfl⟩ := pair
  obtain ⟨text, dotless⟩ := cutLast?_eq_some cutting
  refine ⟨String.toList_inj.mp ?_, by simpa [IsSegment] using dotless⟩
  simp [toList_extend, text]

theorem qualifier?_extend {segment : String} (dotless : IsSegment segment) (name : String) :
    qualifier? (extend name segment) = some (name, segment) := by
  simp [qualifier?, toList_extend, cutLast?_append dotless]

theorem extend_injective {left right first second : String}
    (firstSegment : IsSegment first) (secondSegment : IsSegment second)
    (same : extend left first = extend right second) : left = right ∧ first = second := by
  have cuts := congrArg qualifier? same
  rw [qualifier?_extend firstSegment, qualifier?_extend secondSegment] at cuts
  simpa using cuts

end Dotted

namespace Graph

open Dotted (IsSegment)

theorem numbered_extend (name segment : String) (n : Nat) :
    numbered (Dotted.extend name segment) n = Dotted.extend name (numbered segment n) := by
  simp [numbered, Dotted.extend, String.append_assoc]

theorem numbered_injective {name : String} {m n : Nat} (same : numbered name m = numbered name n) :
    m = n := by
  have texts := congrArg String.toList same
  simp only [numbered, String.toList_append, List.append_assoc, List.append_cancel_left_eq] at texts
  exact Nat.repr_injective (String.toList_inj.mp texts)

theorem numbered_ne (name : String) (n : Nat) : numbered name n ≠ name := by
  intro same
  have lengths := congrArg (fun text => text.toList.length) same
  simp [numbered] at lengths

theorem isSegment_numbered {name : String} {n : Nat} : IsSegment (numbered name n) ↔ IsSegment name := by
  have digits : '.' ∉ (toString n).toList := by
    intro member
    have digit := Nat.isDigit_of_mem_toDigits (by decide) (by decide) (Nat.toList_repr ▸ member)
    revert digit
    decide
  simp only [IsSegment, numbered, String.toList_append, List.mem_append, digits, or_false]
  simp

theorem freeNumberFrom_spec (g : Graph) (name : String) (fuel n : Nat) :
    (g.lookup (numbered name (g.freeNumberFrom name fuel n)) = none ∧
        g.freeNumberFrom name fuel n < n + fuel) ∨
      ∀ k, n ≤ k → k < n + fuel → (g.lookup (numbered name k)).isSome := by
  induction fuel generalizing n with
  | zero => exact .inr (by omega)
  | succ fuel ih =>
      unfold freeNumberFrom
      split
      · rename_i taken
        rcases ih (n + 1) with ⟨free, bound⟩ | full
        · exact .inl ⟨free, by omega⟩
        · refine .inr fun k lower upper => ?_
          rcases Nat.eq_or_lt_of_le lower with rfl | later
          · exact taken
          · exact full k later (by omega)
      · rename_i free
        exact .inl ⟨by simpa using free, by omega⟩

/-- The index has fewer names than there are numbers tried, so one of them is free. -/
theorem lookup_freeNumber (g : Graph) (name : String) :
    g.lookup (numbered name (g.freeNumber name)) = none := by
  rcases freeNumberFrom_spec g name (g.index.size + 1) 0 with ⟨free, _⟩ | full
  · exact free
  · exfalso
    let tried := (List.range (g.index.size + 1)).map (numbered name)
    have distinct : tried.Nodup :=
      List.Nodup.map (fun _ _ => numbered_injective) List.nodup_range
    have taken : tried ⊆ g.index.keys := by
      intro key member
      obtain ⟨k, below, rfl⟩ := List.mem_map.mp member
      have found := full k (Nat.zero_le _) (by simpa using below)
      rw [Std.ExtTreeMap.mem_keys, ← Std.ExtTreeMap.isSome_getElem?_iff_mem]
      exact found
    have bound := (distinct.subperm taken).length_le
    simp only [tried, List.length_map, List.length_range, Std.ExtTreeMap.length_keys] at bound
    omega

end Graph

end DocGraph
