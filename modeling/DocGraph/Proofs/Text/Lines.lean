import DocGraph.Text.Blank
import DocGraph.Text.Lines

namespace DocGraph.Text

variable {line cs rest : List Char}

/-- The characters that are not blank. -/
def content (cs : List Char) : List Char := cs.filter fun c => !isBlank c

@[simp] theorem content_nil : content [] = [] := rfl

@[simp] theorem content_append (front back : List Char) : content (front ++ back) = content front ++ content back :=
  List.filter_append ..

theorem content_cons (c : Char) (cs : List Char) : content (c :: cs) = content [c] ++ content cs :=
  content_append [c] cs

theorem content_cons_of_isBlank {c : Char} (blank : isBlank c = true) (cs : List Char) :
    content (c :: cs) = content cs := by
  simp [content, blank]

theorem content_eq_nil_iff : content cs = [] ↔ isBlankLine cs = true := by
  simp [content, isBlankLine]

theorem isBlankLine_congr {other : List Char} (same : content cs = content other) :
    isBlankLine cs = isBlankLine other := by
  rw [Bool.eq_iff_iff, ← content_eq_nil_iff, ← content_eq_nil_iff, same]

theorem content_trimStart (cs : List Char) : content (trimStart cs) = content cs := by
  have front : content (cs.takeWhile isBlank) = [] := content_eq_nil_iff.mpr List.all_takeWhile
  calc content (trimStart cs) = content (cs.takeWhile isBlank) ++ content (cs.dropWhile isBlank) := by
        rw [front, List.nil_append, trimStart]
    _ = content cs := by rw [← content_append, List.takeWhile_append_dropWhile]

theorem flatMap_content_lines (cs : List Char) : (lines cs).flatMap content = content cs := by
  fun_induction lines cs with
  | case1 => rfl
  | case2 rest ih =>
      rw [content_cons_of_isBlank rfl, content_cons_of_isBlank rfl, ← ih, List.flatMap_cons, content_nil,
        List.nil_append]
  | case3 rest ih => rw [content_cons_of_isBlank rfl, ← ih, List.flatMap_cons, content_nil, List.nil_append]
  | case4 c rest _ _ last => rw [lines_eq_nil last, List.flatMap_singleton]
  | case5 c rest _ _ line later cut ih =>
      rw [cut] at ih
      rw [content_cons c rest, ← ih, List.flatMap_cons, List.flatMap_cons, content_cons c line, List.append_assoc]

theorem joinLines_cons {parts : List (List Char)} (more : parts ≠ []) (line : List Char) :
    joinLines (line :: parts) = line ++ '\n' :: joinLines parts := by
  cases parts with
  | nil => exact absurd rfl more
  | cons next later => simp [joinLines, List.intercalate_cons_cons]

theorem content_joinLines (parts : List (List Char)) : content (joinLines parts) = parts.flatMap content := by
  induction parts with
  | nil => rfl
  | cons line rest ih =>
      by_cases last : rest = []
      · subst last
        simp [joinLines]
      · rw [joinLines_cons last, content_append, content_cons_of_isBlank rfl, ih, List.flatMap_cons]

theorem notMem_of_mem_lines (member : line ∈ lines cs) : '\n' ∉ line := by
  fun_induction lines cs generalizing line with
  | case1 => cases member
  | case2 rest ih | case3 rest ih =>
      rcases List.mem_cons.mp member with rfl | later
      · simp
      · exact ih later
  | case4 c rest _ other =>
      rw [List.mem_singleton.mp member, List.mem_singleton]
      exact fun same => other same.symm
  | case5 c rest _ other first later cut ih =>
      rw [cut] at ih
      rcases List.mem_cons.mp member with rfl | among
      · rw [List.mem_cons, not_or]
        exact ⟨fun same => other same.symm, ih List.mem_cons_self⟩
      · exact ih (List.mem_cons_of_mem _ among)

theorem mem_of_mem_lines {c : Char} (among : line ∈ lines cs) (member : c ∈ line) : c ∈ cs := by
  fun_induction lines cs generalizing line with
  | case1 => cases among
  | case2 rest ih =>
      rcases List.mem_cons.mp among with rfl | later
      · cases member
      · exact List.mem_cons_of_mem _ (List.mem_cons_of_mem _ (ih later member))
  | case3 rest ih =>
      rcases List.mem_cons.mp among with rfl | later
      · cases member
      · exact List.mem_cons_of_mem _ (ih later member)
  | case4 d rest _ _ last =>
      rwa [lines_eq_nil last, ← List.mem_singleton.mp among]
  | case5 d rest _ _ first later cut ih =>
      rw [cut] at ih
      rcases List.mem_cons.mp among with rfl | behind
      · rcases List.mem_cons.mp member with rfl | member
        · exact List.mem_cons_self
        · exact List.mem_cons_of_mem _ (ih List.mem_cons_self member)
      · exact List.mem_cons_of_mem _ (ih (List.mem_cons_of_mem _ behind) member)

/-- The line without a carriage return at its end. -/
def chomp (line : List Char) : List Char := if line.getLast? = some '\r' then line.dropLast else line

theorem isBlankLine_chomp (line : List Char) : isBlankLine (chomp line) = isBlankLine line := by
  unfold chomp
  split
  · rename_i ends
    obtain ⟨front, rfl⟩ := List.getLast?_eq_some_iff.mp ends
    simp [isBlankLine, isBlank]
  · rfl

theorem chomp_of_notMem (plain : '\r' ∉ line) : chomp line = line :=
  if_neg fun ends => plain (List.mem_of_getLast? ends)

theorem chomp_cons (c : Char) (more : line ≠ []) : chomp (c :: line) = c :: chomp line := by
  obtain ⟨front, last, rfl⟩ : ∃ front last, line = front ++ [last] := ⟨_, _, (List.dropLast_concat_getLast more).symm⟩
  rw [chomp, chomp, ← List.cons_append, List.getLast?_concat, List.getLast?_concat, List.dropLast_concat,
    List.dropLast_concat]
  split <;> rfl

theorem lines_cons {c : Char} {first : List Char} {later : List (List Char)} (other : c ≠ '\n')
    (apart : c = '\r' → ∀ after, rest ≠ '\n' :: after) (cut : lines rest = first :: later) :
    lines (c :: rest) = (c :: first) :: later := by
  rw [lines, cut]
  · exact fun after carriage newline => apart carriage after newline
  · exact other

theorem lines_append_newline (whole : '\n' ∉ line) (rest : List Char) :
    lines (line ++ '\n' :: rest) = chomp line :: lines rest := by
  induction line with
  | nil => simp [lines, chomp]
  | cons c line ih =>
      rw [List.mem_cons, not_or] at whole
      have cut := ih whole.2
      cases line with
      | nil =>
          by_cases carriage : c = '\r'
          · subst carriage
            simp [lines, chomp]
          · rw [List.cons_append, lines_cons (Ne.symm whole.1) (fun same => absurd same carriage) cut]
            simp [chomp, carriage]
      | cons next line =>
          rw [chomp_cons c (List.cons_ne_nil _ _)]
          refine lines_cons (Ne.symm whole.1) (fun _ after same => ?_) cut
          have newline : next = '\n' := (List.cons.inj same).1
          exact whole.2 (newline ▸ List.mem_cons_self)

theorem lines_of_notMem (whole : '\n' ∉ line) (nonempty : line ≠ []) : lines line = [line] := by
  induction line with
  | nil => exact absurd rfl nonempty
  | cons c line ih =>
      rw [List.mem_cons, not_or] at whole
      cases line with
      | nil =>
          rw [lines]
          · rfl
          · intro _ _ same
            cases same
          · exact Ne.symm whole.1
      | cons next line =>
          refine lines_cons (Ne.symm whole.1) (fun _ after same => ?_) (ih whole.2 (List.cons_ne_nil _ _))
          exact whole.2 (same ▸ List.mem_cons_self)

theorem lines_joinLines {front : List (List Char)} {last : List Char} (whole : ∀ line ∈ front, '\n' ∉ line)
    (lastWhole : '\n' ∉ last) (nonempty : last ≠ []) :
    lines (joinLines (front ++ [last])) = front.map chomp ++ [last] := by
  induction front with
  | nil => simpa [joinLines] using lines_of_notMem lastWhole nonempty
  | cons line front ih =>
      rw [List.forall_mem_cons] at whole
      rw [List.cons_append, joinLines_cons (by simp), lines_append_newline whole.1, ih whole.2]
      rfl

end DocGraph.Text
