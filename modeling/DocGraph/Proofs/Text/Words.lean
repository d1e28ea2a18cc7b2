import Mathlib.Data.List.TakeWhile
import DocGraph.Text.Identifier

namespace DocGraph.Text

section runs

variable {inside : Char → Bool} {word other rest tail : List Char}

/-- The text does not go on with a character of the class. -/
def Stops (inside : Char → Bool) (text : List Char) : Prop := ∀ c ∈ text.head?, inside c = false

theorem stops_nil : Stops inside [] := by simp [Stops]

theorem stops_cons {c : Char} (outside : inside c = false) : Stops inside (c :: rest) := by
  simpa [Stops] using outside

theorem takeWhile_run (all : ∀ c ∈ word, inside c = true) (stops : Stops inside rest) :
    (word ++ rest).takeWhile inside = word := by
  rw [List.takeWhile_append_of_pos all]
  cases rest with
  | nil => simp
  | cons c rest =>
      have outside : inside c = false := stops c rfl
      rw [List.takeWhile_cons_of_neg (by simp [outside]), List.append_nil]

theorem run_unique (all : ∀ c ∈ word, inside c = true) (allOther : ∀ c ∈ other, inside c = true)
    (stops : Stops inside rest) (stopsOther : Stops inside tail) (same : word ++ rest = other ++ tail) :
    word = other ∧ rest = tail := by
  have words : word = other := by
    rw [← takeWhile_run all stops, same, takeWhile_run allOther stopsOther]
  subst words
  exact ⟨rfl, List.append_cancel_left same⟩

end runs

section identifiers

variable {name : String} {c : Char}

theorem continues_of_starts (starts : startsIdentifier c = true) : continuesIdentifier c = true := by
  simp only [startsIdentifier, continuesIdentifier, Bool.or_eq_true] at starts ⊢
  exact .inl starts

theorem exists_of_isIdentifier (identifier : isIdentifier name = true) :
    ∃ first rest, name.toList = first :: rest ∧ startsIdentifier first = true ∧
      ∀ c ∈ rest, continuesIdentifier c = true := by
  unfold isIdentifier at identifier
  cases text : name.toList with
  | nil => simp [text, isIdentifierChars] at identifier
  | cons first rest =>
      rw [text, isIdentifierChars, Bool.and_eq_true, List.all_eq_true] at identifier
      exact ⟨first, rest, rfl, identifier⟩

theorem continues_of_isIdentifier (identifier : isIdentifier name = true) :
    ∀ c ∈ name.toList, continuesIdentifier c = true := by
  obtain ⟨first, rest, text, starts, continues⟩ := exists_of_isIdentifier identifier
  intro c member
  rw [text] at member
  rcases List.mem_cons.mp member with rfl | later
  · exact continues_of_starts starts
  · exact continues c later

theorem notMem_of_isIdentifier (identifier : isIdentifier name = true) (outside : continuesIdentifier c = false) :
    c ∉ name.toList := by
  intro member
  rw [continues_of_isIdentifier identifier c member] at outside
  cases outside

end identifiers

section joined

variable {mark : Char} {more : List Char} {parts others : List (List Char)}

theorem intercalate_cons_eq (separator part : List Char) (parts : List (List Char)) :
    separator.intercalate (part :: parts) = part ++ parts.flatMap (separator ++ ·) := by
  induction parts generalizing part with
  | nil => simp
  | cons next parts ih => rw [List.intercalate_cons_cons, ih, List.flatMap_cons, List.append_assoc, List.append_assoc]

theorem stops_flatMap (parts : List (List Char)) : Stops (· != mark) (parts.flatMap (mark :: more ++ ·)) := by
  cases parts with
  | nil => exact stops_nil
  | cons part parts => exact stops_cons (by simp)

theorem apart_of_notMem {part : List Char} (clean : mark ∉ part) : ∀ c ∈ part, (c != mark) = true := by
  intro c member
  simpa using fun equal : c = mark => clean (equal ▸ member)

theorem flatMap_separated_injective (clean : ∀ part ∈ parts, mark ∉ part) (cleanOthers : ∀ part ∈ others, mark ∉ part)
    (same : parts.flatMap (mark :: more ++ ·) = others.flatMap (mark :: more ++ ·)) : parts = others := by
  induction parts generalizing others with
  | nil =>
      cases others with
      | nil => rfl
      | cons other others => simp at same
  | cons part parts ih =>
      cases others with
      | nil => simp at same
      | cons other others =>
          rw [List.flatMap_cons, List.flatMap_cons, List.append_assoc, List.append_assoc] at same
          obtain ⟨rfl, later⟩ := run_unique (apart_of_notMem (clean part List.mem_cons_self))
            (apart_of_notMem (cleanOthers other List.mem_cons_self)) (stops_flatMap _) (stops_flatMap _)
            (List.append_cancel_left same)
          rw [ih (fun part among => clean part (List.mem_cons_of_mem _ among))
            (fun part among => cleanOthers part (List.mem_cons_of_mem _ among)) later]

/-- Parts that are not empty and free of the separator's first character can be read off the joined text. -/
theorem intercalate_injective (clean : ∀ part ∈ parts, part ≠ [] ∧ mark ∉ part)
    (cleanOthers : ∀ part ∈ others, part ≠ [] ∧ mark ∉ part)
    (same : (mark :: more).intercalate parts = (mark :: more).intercalate others) : parts = others := by
  cases parts with
  | nil =>
      cases others with
      | nil => rfl
      | cons other others =>
          rw [intercalate_cons_eq] at same
          simp [(cleanOthers other List.mem_cons_self).1] at same
  | cons part parts =>
      cases others with
      | nil =>
          rw [intercalate_cons_eq] at same
          simp [(clean part List.mem_cons_self).1] at same
      | cons other others =>
          rw [intercalate_cons_eq, intercalate_cons_eq] at same
          obtain ⟨rfl, later⟩ := run_unique (apart_of_notMem (clean part List.mem_cons_self).2)
            (apart_of_notMem (cleanOthers other List.mem_cons_self).2) (stops_flatMap _) (stops_flatMap _) same
          rw [flatMap_separated_injective (fun part among => (clean part (List.mem_cons_of_mem _ among)).2)
            (fun part among => (cleanOthers part (List.mem_cons_of_mem _ among)).2) later]

end joined

end DocGraph.Text
