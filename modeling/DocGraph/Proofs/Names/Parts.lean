import DocGraph.Proofs.Registry.Segment

namespace DocGraph.Dotted

variable {name segment : String}

theorem cut_append (front back : List Char) : cut (front ++ '.' :: back) = cut front ++ cut back := by
  induction front with
  | nil => simp [cut]
  | cons c rest ih =>
      rw [List.cons_append, cut, cut, ih]
      split
      · rfl
      · cases pieces : cut rest with
        | nil => exact absurd pieces (cut_ne_nil rest)
        | cons part later => rfl

theorem not_mem_of_mem_cut {cs piece : List Char} (member : piece ∈ cut cs) : '.' ∉ piece := by
  induction cs generalizing piece with
  | nil =>
      rw [cut, List.mem_singleton] at member
      simp [member]
  | cons c rest ih =>
      rw [cut] at member
      split at member
      · rcases List.mem_cons.mp member with rfl | later
        · simp
        · exact ih later
      · rename_i dotless
        cases pieces : cut rest with
        | nil => exact absurd pieces (cut_ne_nil rest)
        | cons part more =>
            rw [pieces] at ih
            rw [pieces, List.mem_cons] at member
            rcases member with rfl | later
            · simpa [Ne.symm dotless] using ih List.mem_cons_self
            · exact ih (List.mem_cons_of_mem _ later)

theorem head?_cut (cs : List Char) : (cut cs).head? = some (cs.takeWhile (· ≠ '.')) := by
  induction cs with
  | nil => rfl
  | cons c rest ih =>
      rw [cut]
      by_cases dot : c = '.'
      · simp [dot]
      · cases pieces : cut rest with
        | nil => exact absurd pieces (cut_ne_nil rest)
        | cons part more =>
            rw [pieces, List.head?_cons, Option.some.injEq] at ih
            simp [dot, ih]

theorem join_parts (name : String) : join (parts name) = name := by
  refine String.toList_inj.mp ?_
  rw [join, parts, String.toList_intercalate, List.map_map]
  simpa [Function.comp_def] using intercalate_cut name.toList

theorem parts_ne_nil (name : String) : parts name ≠ [] := by
  simpa [parts] using cut_ne_nil name.toList

theorem isSegment_of_mem_parts (member : segment ∈ parts name) : IsSegment segment := by
  obtain ⟨piece, among, rfl⟩ := List.mem_map.mp member
  simpa [IsSegment] using not_mem_of_mem_cut among

theorem parts_of_isSegment (whole : IsSegment segment) : parts segment = [segment] := by
  have cut (cs : List Char) (dotless : '.' ∉ cs) : Dotted.cut cs = [cs] := by
    induction cs with
    | nil => rfl
    | cons c rest ih =>
        rw [List.mem_cons, not_or] at dotless
        rw [Dotted.cut, if_neg (Ne.symm dotless.1), ih dotless.2]
  rw [parts, cut _ whole]
  simp

theorem parts_extend (whole : IsSegment segment) (name : String) :
    parts (extend name segment) = parts name ++ [segment] := by
  have last := parts_of_isSegment whole
  rw [parts] at last ⊢
  rw [toList_extend, cut_append, List.map_append, last, parts]

theorem exists_parts_eq_head (name : String) : ∃ rest, parts name = head name :: rest := by
  obtain ⟨rest, pieces⟩ := List.head?_eq_some_iff.mp (head?_cut name.toList)
  exact ⟨rest.map String.ofList, by rw [parts, pieces, List.map_cons, head]⟩

theorem head_of_isSegment (whole : IsSegment segment) : head segment = segment := by
  obtain ⟨rest, parts⟩ := exists_parts_eq_head segment
  rw [parts_of_isSegment whole, List.cons.injEq] at parts
  exact parts.1.symm

theorem head_extend (whole : IsSegment segment) (name : String) : head (extend name segment) = head name := by
  obtain ⟨rest, short⟩ := exists_parts_eq_head name
  obtain ⟨more, long⟩ := exists_parts_eq_head (extend name segment)
  rw [parts_extend whole, short, List.cons_append, List.cons.injEq] at long
  exact long.1.symm

theorem join_cons_cons (name segment : String) (rest : List String) :
    join (name :: segment :: rest) = join (extend name segment :: rest) := by
  cases rest with
  | nil => simp [join, extend, String.intercalate_cons_cons]
  | cons next rest => simp [join, extend, String.intercalate_cons_cons, String.append_assoc]

end DocGraph.Dotted
