import Mathlib.Data.List.DropRight
import DocGraph.Docstring.Clean
import DocGraph.Proofs.Text.Lines

namespace DocGraph.Docstring

open Text

variable {line : List Char} {rows : List (List Char)} {count : Nat}

theorem content_expandTabs (cs : List Char) : content (expandTabs cs) = content cs := by
  induction cs with
  | nil => rfl
  | cons c cs ih =>
      have front : content (if c = '\t' then tab else [c]) = content [c] := by
        split
        · rename_i tabbed
          subst tabbed
          rfl
        · rfl
      rw [expandTabs, List.flatMap_cons, content_append, front, ← expandTabs, ih, ← content_cons]

theorem indentation_cons (c : Char) (line : List Char) :
    indentation (c :: line) = if isBlank c then c.utf8Size + indentation line else 0 := by
  rw [indentation, List.takeWhile_cons]
  split <;> rfl

theorem isSuffix_of_dropBytes? {rest : List Char} (cut : dropBytes? count line = some rest) : rest <:+ line := by
  fun_induction dropBytes? count line with
  | case1 | case3 =>
      obtain rfl := Option.some.inj cut
      exact List.suffix_rfl
  | case2 | case5 => cases cut
  | case4 _ _ _ _ _ ih => exact (ih cut).trans (List.suffix_cons _ _)

theorem content_dropBytes? {rest : List Char} (cut : dropBytes? count line = some rest)
    (within : count ≤ indentation line) : content rest = content line := by
  fun_induction dropBytes? count line with
  | case1 | case3 => rw [Option.some.inj cut]
  | case2 | case5 => cases cut
  | case4 count c line some _ ih =>
      rw [indentation_cons] at within
      split at within
      · rename_i blank
        rw [content_cons_of_isBlank blank]
        exact ih cut (by omega)
      · omega

theorem content_dedent (within : isBlankLine line = false → count ≤ indentation line) :
    content (dedent count line) = content line := by
  rw [dedent]
  cases cut : dropBytes? count line with
  | none => exact content_trimStart line
  | some rest =>
      cases blank : isBlankLine line with
      | false => exact content_dropBytes? cut (within blank)
      | true =>
          have empty := content_eq_nil_iff.mpr blank
          have shorter : content rest <:+ content line := (isSuffix_of_dropBytes? cut).filter _
          rw [empty] at shorter
          rw [empty]
          exact List.suffix_nil.mp shorter

theorem isSuffix_dedent (count : Nat) (line : List Char) : dedent count line <:+ line := by
  rw [dedent]
  cases cut : dropBytes? count line with
  | none => exact List.dropWhile_suffix _
  | some rest => exact isSuffix_of_dropBytes? cut

/-- The lines that are not blank. -/
def written (rows : List (List Char)) : List (List Char) := rows.filter fun line => !isBlankLine line

theorem mem_written : line ∈ written rows ↔ line ∈ rows ∧ isBlankLine line = false := by
  simp [written]

theorem written_append (front back : List (List Char)) : written (front ++ back) = written front ++ written back :=
  List.filter_append ..

theorem margin_eq (rows : List (List Char)) : margin rows = ((written rows).map indentation).min?.getD 0 := by
  cases rows with
  | nil => rfl
  | cons first rest =>
      rw [margin, ← written]
      · cases (written (first :: rest)).map indentation <;> rfl
      · exact List.cons_ne_nil _ _

theorem margin_le (member : line ∈ written rows) : margin rows ≤ indentation line := by
  rw [margin_eq]
  cases least : ((written rows).map indentation).min? with
  | none => exact Nat.zero_le _
  | some least' => exact (List.min?_eq_some_iff.mp least).2 _ (List.mem_map_of_mem member)

theorem exists_indentation_eq_margin (nonempty : written rows ≠ []) :
    ∃ line ∈ written rows, indentation line = margin rows := by
  rw [margin_eq]
  cases least : ((written rows).map indentation).min? with
  | none => simp [nonempty] at least
  | some least' => exact List.mem_map.mp (List.min?_eq_some_iff.mp least).1

theorem content_dedent_margin (member : line ∈ rows) : content (dedent (margin rows) line) = content line :=
  content_dedent fun text => margin_le (mem_written.mpr ⟨member, text⟩)

theorem exists_dropBlankEnds (rows : List (List Char)) :
    ∃ front back, rows = front ++ dropBlankEnds rows ++ back ∧ written front = [] ∧ written back = [] := by
  refine ⟨rows.takeWhile isBlankLine, (rows.dropWhile isBlankLine).rtakeWhile isBlankLine, ?_, ?_, ?_⟩
  · calc rows = rows.takeWhile isBlankLine ++ rows.dropWhile isBlankLine := List.takeWhile_append_dropWhile.symm
      _ = _ := by rw [List.append_assoc]; exact congrArg _ List.rdropWhile_append_rtakeWhile.symm
  · simpa [written] using fun line member => List.all_eq_true.mp List.all_takeWhile line member
  · simpa [written] using fun line member => List.mem_rtakeWhile_imp member

theorem written_dropBlankEnds (rows : List (List Char)) : written (dropBlankEnds rows) = written rows := by
  obtain ⟨front, back, whole, blank, blankBack⟩ := exists_dropBlankEnds rows
  conv_rhs => rw [whole]
  rw [written_append, written_append, blank, blankBack, List.nil_append, List.append_nil]

theorem isBlankLine_first {first : List Char} {rest : List (List Char)} (begins : dropBlankEnds rows = first :: rest) :
    isBlankLine first = false := by
  have front : first :: rest <+: rows.dropWhile isBlankLine := begins ▸ List.rdropWhile_prefix _ _
  have head := front.head (List.cons_ne_nil _ _)
  rw [List.head_cons] at head
  rw [head]
  exact List.head_dropWhile_not _ _

theorem isBlankLine_last {last : List Char} {front : List (List Char)} (ends : dropBlankEnds rows = front ++ [last]) :
    isBlankLine last = false := by
  have nonempty : dropBlankEnds rows ≠ [] := by simp [ends]
  have text : ¬ isBlankLine ((dropBlankEnds rows).getLast nonempty) = true := List.rdropWhile_last_not _ _ nonempty
  simpa [ends] using text

/-- The lines before blank ones are dropped at both ends. -/
def dedented : List (List Char) → List (List Char)
  | [] => []
  | first :: rest => trimStart first :: rest.map (dedent (margin rest))

theorem cleanLines_eq (rows : List (List Char)) : cleanLines rows = dropBlankEnds (dedented rows) := by
  cases rows <;> rfl

theorem isSuffix_of_mem_dedented (member : line ∈ dedented rows) : ∃ row ∈ rows, line <:+ row := by
  cases rows with
  | nil => cases member
  | cons first rest =>
      rcases List.mem_cons.mp member with rfl | later
      · exact ⟨first, List.mem_cons_self, List.dropWhile_suffix _⟩
      · obtain ⟨row, among, rfl⟩ := List.mem_map.mp later
        exact ⟨row, List.mem_cons_of_mem _ among, isSuffix_dedent _ _⟩

theorem isSuffix_of_mem_cleanLines (member : line ∈ cleanLines rows) : ∃ row ∈ rows, line <:+ row := by
  obtain ⟨front, back, whole, -⟩ := exists_dropBlankEnds (dedented rows)
  refine isSuffix_of_mem_dedented ?_
  rw [whole, ← cleanLines_eq]
  simp [member]

theorem flatMap_content_written (rows : List (List Char)) : (written rows).flatMap content = rows.flatMap content := by
  induction rows with
  | nil => rfl
  | cons line rest ih =>
      rw [written] at ih ⊢
      cases blank : isBlankLine line with
      | true => simp [blank, ih, content_eq_nil_iff.mpr blank]
      | false => simp [blank, ih]

theorem flatMap_content_dedented (rows : List (List Char)) :
    (dedented rows).flatMap content = rows.flatMap content := by
  cases rows with
  | nil => rfl
  | cons first rest =>
      have later : rest.flatMap (fun line => content (dedent (margin rest) line)) = rest.flatMap content :=
        List.flatMap_congr fun line member => content_dedent_margin member
      rw [dedented, List.flatMap_cons, content_trimStart, List.flatMap_map, later, List.flatMap_cons]

theorem content_clean (text : String) : content (clean text).toList = content text.toList := by
  rw [clean, String.toList_ofList, content_joinLines, cleanLines_eq, ← flatMap_content_written, written_dropBlankEnds,
    flatMap_content_written, flatMap_content_dedented, flatMap_content_lines, content_expandTabs]

/-- The lines of a cleaned text. -/
def cleaned (text : String) : List (List Char) := cleanLines (Text.lines (expandTabs text.toList))

theorem clean_eq (text : String) : clean text = String.ofList (joinLines (cleaned text)) := rfl

theorem lines_clean {text : String} {front : List (List Char)} {last : List Char}
    (ends : cleaned text = front ++ [last]) : Text.lines (clean text).toList = front.map chomp ++ [last] := by
  have whole : ∀ line ∈ front ++ [last], '\n' ∉ line := by
    intro line member newline
    rw [← ends] at member
    obtain ⟨row, among, suffix⟩ := isSuffix_of_mem_cleanLines member
    exact notMem_of_mem_lines among (suffix.subset newline)
  rw [List.forall_mem_append, List.forall_mem_singleton] at whole
  have text : isBlankLine last = false := isBlankLine_last ((cleanLines_eq _).symm.trans ends)
  rw [clean_eq, String.toList_ofList, ends]
  refine lines_joinLines whole.1 whole.2 ?_
  rintro rfl
  cases text

theorem clean_ends (text : String) :
    clean text = "" ∨ (∃ first ∈ (Text.lines (clean text).toList).head?, isBlankLine first = false) ∧
      ∃ last ∈ (Text.lines (clean text).toList).getLast?, isBlankLine last = false := by
  rcases List.eq_nil_or_concat (cleaned text) with empty | ⟨front, last, ends⟩
  · left
    rw [clean_eq, empty]
    rfl
  · right
    rw [List.concat_eq_append] at ends
    rw [lines_clean ends]
    have lastText : isBlankLine last = false := isBlankLine_last ((cleanLines_eq _).symm.trans ends)
    refine ⟨?_, last, List.getLast?_concat, lastText⟩
    cases front with
    | nil => exact ⟨last, rfl, lastText⟩
    | cons first front =>
        refine ⟨chomp first, rfl, ?_⟩
        rw [isBlankLine_chomp]
        exact isBlankLine_first ((cleanLines_eq _).symm.trans ends)

/-- The number of spaces that a line begins with. -/
def leadingSpaces (line : List Char) : Nat := (line.takeWhile (· == ' ')).length

theorem leadingSpaces_cons (c : Char) (line : List Char) :
    leadingSpaces (c :: line) = if c = ' ' then leadingSpaces line + 1 else 0 := by
  rw [leadingSpaces, List.takeWhile_cons]
  simp only [beq_iff_eq]
  split <;> rfl

theorem indentation_eq_leadingSpaces (spaces : ∀ c ∈ line, isBlank c = true → c = ' ') :
    indentation line = leadingSpaces line := by
  induction line with
  | nil => rfl
  | cons c line ih =>
      rw [List.forall_mem_cons] at spaces
      rw [indentation_cons, leadingSpaces_cons, ih spaces.2]
      by_cases space : c = ' '
      · subst space
        exact Nat.add_comm ..
      · rw [if_neg space, if_neg fun blank => space (spaces.1 blank)]

theorem dropBytes?_of_le_leadingSpaces (within : count ≤ leadingSpaces line) :
    dropBytes? count line = some (line.drop count) := by
  induction line generalizing count with
  | nil =>
      obtain rfl : count = 0 := Nat.le_zero.mp within
      rfl
  | cons c line ih =>
      cases count with
      | zero => rfl
      | succ count =>
          rw [leadingSpaces_cons] at within
          split at within
          · rename_i space
            subst space
            have size : ' '.utf8Size = 1 := rfl
            rw [dropBytes?, if_neg (Nat.succ_ne_zero count), size, if_pos (Nat.succ_le_succ (Nat.zero_le count)),
              Nat.add_sub_cancel, ih (Nat.le_of_succ_le_succ within), List.drop_succ_cons]
          · omega

theorem dedent_of_le_leadingSpaces (within : count ≤ leadingSpaces line) : dedent count line = line.drop count := by
  rw [dedent, dropBytes?_of_le_leadingSpaces within, Option.getD_some]

theorem expandTabs_of_notMem {cs : List Char} (plain : '\t' ∉ cs) : expandTabs cs = cs := by
  induction cs with
  | nil => rfl
  | cons c cs ih =>
      rw [List.mem_cons, not_or] at plain
      rw [expandTabs, List.flatMap_cons, if_neg (Ne.symm plain.1), ← expandTabs, ih plain.2]
      rfl

theorem lines_clean_of_notMem {text : String} (plain : '\r' ∉ expandTabs text.toList) :
    Text.lines (clean text).toList = cleaned text := by
  rcases List.eq_nil_or_concat (cleaned text) with empty | ⟨front, last, ends⟩
  · rw [clean_eq, empty]
    rfl
  · rw [List.concat_eq_append] at ends
    have same : front.map chomp = front.map id := List.map_congr_left fun line member => by
      have among : line ∈ cleaned text := by simp [ends, member]
      obtain ⟨row, listed, suffix⟩ := isSuffix_of_mem_cleanLines among
      exact chomp_of_notMem fun carriage => plain (mem_of_mem_lines listed (suffix.subset carriage))
    rw [lines_clean ends, ends, same, List.map_id]

theorem written_map {f : List Char → List Char} (same : ∀ line ∈ rows, content (f line) = content line) :
    written (rows.map f) = (written rows).map f := by
  rw [written, List.filter_map, written]
  refine congrArg _ (List.filter_congr fun line member => ?_)
  rw [Function.comp_apply, isBlankLine_congr (same line member)]

theorem written_dedented (rows : List (List Char)) : written (dedented rows) =
    (written (rows.take 1)).map trimStart ++ (written rows.tail).map (dedent (margin rows.tail)) := by
  cases rows with
  | nil => rfl
  | cons first rest =>
      have front : written ([first].map trimStart) = (written [first]).map trimStart :=
        written_map fun line _ => content_trimStart line
      have later : written (rest.map (dedent (margin rest))) = (written rest).map (dedent (margin rest)) :=
        written_map fun line member => content_dedent_margin member
      have parts : dedented (first :: rest) = [first].map trimStart ++ rest.map (dedent (margin rest)) := rfl
      rw [parts, written_append, front, later]
      rfl

/-- The lines behind the first lose a margin of spaces, the least that one of them begins with. Blank lines do not
count. -/
structure LosesMargin (before after : List (List Char)) (margin : Nat) : Prop where
  within : ∀ line ∈ written before.tail, margin ≤ leadingSpaces line
  attained : written before.tail ≠ [] → ∃ line ∈ written before.tail, leadingSpaces line = margin
  kept : written after = (written (before.take 1)).map trimStart ++ (written before.tail).map (List.drop margin)

theorem losesMargin_clean {text : String} (spaced : ∀ c ∈ text.toList, isBlank c = true → c = ' ' ∨ c = '\n') :
    LosesMargin (Text.lines text.toList) (Text.lines (clean text).toList) (margin (Text.lines text.toList).tail) := by
  have plain : ∀ c, isBlank c = true → c ≠ ' ' → c ≠ '\n' → c ∉ text.toList := fun c blank other another member =>
    (spaced c member blank).elim other another
  have untabbed : expandTabs text.toList = text.toList := expandTabs_of_notMem (plain '\t' rfl (by decide) (by decide))
  have carriage : '\r' ∉ expandTabs text.toList := by
    rw [untabbed]
    exact plain '\r' rfl (by decide) (by decide)
  -- A line has no newline on it, so its blanks are spaces.
  have widths : ∀ line ∈ written (Text.lines text.toList).tail, indentation line = leadingSpaces line := by
    intro line member
    have listed := List.mem_of_mem_tail (mem_written.mp member).1
    refine indentation_eq_leadingSpaces fun c among blank => ?_
    rcases spaced c (mem_of_mem_lines listed among) blank with space | rfl
    · exact space
    · exact absurd among (notMem_of_mem_lines listed)
  have within : ∀ line ∈ written (Text.lines text.toList).tail,
      margin (Text.lines text.toList).tail ≤ leadingSpaces line := fun line member =>
    widths line member ▸ margin_le member
  refine ⟨within, fun nonempty => ?_, ?_⟩
  · obtain ⟨line, member, least⟩ := exists_indentation_eq_margin nonempty
    exact ⟨line, member, widths line member ▸ least⟩
  · rw [lines_clean_of_notMem carriage, cleaned, untabbed, cleanLines_eq, written_dropBlankEnds, written_dedented]
    exact congrArg _ (List.map_congr_left fun line member => dedent_of_le_leadingSpaces (within line member))

/-- Cleaning a docstring keeps every character that is not blank, in order. What is left is empty or has text on its
first and its last line. Where all blanks are spaces and newlines, the lines behind the first lose one margin. -/
theorem clean_keeps_text (text : String) :
    content (clean text).toList = content text.toList ∧
      (clean text = "" ∨ (∃ first ∈ (Text.lines (clean text).toList).head?, isBlankLine first = false) ∧
        ∃ last ∈ (Text.lines (clean text).toList).getLast?, isBlankLine last = false) ∧
      ((∀ c ∈ text.toList, isBlank c = true → c = ' ' ∨ c = '\n') →
        ∃ margin, LosesMargin (Text.lines text.toList) (Text.lines (clean text).toList) margin) :=
  ⟨content_clean text, clean_ends text, fun spaced => ⟨_, losesMargin_clean spaced⟩⟩

def indented : String := "a\n\n  b\n    c\n "

theorem clean_indented : clean indented = "a\n\nb\n  c" ∧
    ∃ margin, LosesMargin (Text.lines indented.toList) (Text.lines (clean indented).toList) margin := by
  have spaced : (indented.toList.all fun c => !isBlank c || c == ' ' || c == '\n') = true := by decide +kernel
  refine ⟨by decide +kernel, (clean_keeps_text indented).2.2 fun c member blank => ?_⟩
  simpa [blank] using List.all_eq_true.mp spaced c member

end DocGraph.Docstring
