import DocGraph.Expr.Render

namespace DocGraph.Constant

/-- Reads up to the first quote that is not escaped, where a backslash escapes the character behind it. Gives what
stands before the quote and what stands behind it. The flag says that the next character is escaped. -/
def upToQuote? : Bool → List Char → Option (List Char × List Char)
  | _, [] => Option.none
  | true, c :: rest => (upToQuote? false rest).map (Prod.map (c :: ·) id)
  | false, c :: rest =>
      if c = '\'' then some ([], rest) else (upToQuote? (c == '\\') rest).map (Prod.map (c :: ·) id)

/-- The character that a backslash and the given character stand for. -/
def escaped? (c : Char) : Option Char :=
  if c = '\\' then some '\\'
  else if c = '\'' then some '\''
  else if c = 'n' then some '\n'
  else if c = 't' then some '\t'
  else Option.none

/-- Undoes the four escapes. Another escape, or a backslash at the end, stands for nothing. -/
def unescape? : List Char → Option (List Char)
  | [] => some []
  | '\\' :: c :: rest => (escaped? c).bind fun plain => (unescape? rest).map (plain :: ·)
  | c :: rest => if c = '\\' then Option.none else (unescape? rest).map (c :: ·)

theorem unescape?_cons {c : Char} (plain : c ≠ '\\') (rest : List Char) :
    unescape? (c :: rest) = (unescape? rest).map (c :: ·) := by
  rw [unescape?, if_neg plain]
  rintro code tail rfl
  exact absurd rfl plain

/-- A character is written as itself, if it is neither a backslash nor a quote, or as a backslash and one of the
characters that have a meaning behind it. -/
theorem escapeChar_cases (c : Char) :
    (escapeChar c = [c] ∧ c ≠ '\\' ∧ c ≠ '\'') ∨ ∃ code, escapeChar c = ['\\', code] ∧ escaped? code = some c := by
  by_cases backslash : c = '\\'
  · exact .inr ⟨'\\', by simp [escapeChar, backslash], by simp [escaped?, backslash]⟩
  by_cases quote : c = '\''
  · exact .inr ⟨'\'', by simp [escapeChar, quote], by simp [escaped?, quote]⟩
  by_cases newline : c = '\n'
  · exact .inr ⟨'n', by simp [escapeChar, newline], by simp [escaped?, newline]⟩
  by_cases tab : c = '\t'
  · exact .inr ⟨'t', by simp [escapeChar, tab], by simp [escaped?, tab]⟩
  · exact .inl ⟨by simp [escapeChar, backslash, quote, newline, tab], backslash, quote⟩

theorem upToQuote?_escapeChar (c : Char) (rest : List Char) :
    upToQuote? false (escapeChar c ++ rest) = (upToQuote? false rest).map (Prod.map (escapeChar c ++ ·) id) := by
  rcases escapeChar_cases c with ⟨written, backslash, quote⟩ | ⟨code, written, -⟩
  · have ready : (c == '\\') = false := by simpa using backslash
    simp [written, upToQuote?, quote, ready]
  · -- The backslash sets the flag and the character behind it clears it, even if that is a quote.
    cases later : upToQuote? false rest <;> simp [written, upToQuote?, later, Prod.map]

theorem unescape?_escapeChar (c : Char) (rest : List Char) :
    unescape? (escapeChar c ++ rest) = (unescape? rest).map (c :: ·) := by
  rcases escapeChar_cases c with ⟨written, backslash, -⟩ | ⟨code, written, meaning⟩
  · rw [written, List.singleton_append, unescape?_cons backslash]
  · simp [written, unescape?, meaning]

theorem upToQuote?_flatMap (text behind : List Char) :
    upToQuote? false (text.flatMap escapeChar ++ '\'' :: behind) = some (text.flatMap escapeChar, behind) := by
  induction text with
  | nil => simp [upToQuote?]
  | cons c text ih => simp [upToQuote?_escapeChar, ih]

theorem unescape?_flatMap (text : List Char) : unescape? (text.flatMap escapeChar) = some text := by
  induction text with
  | nil => rfl
  | cons c text ih => rw [List.flatMap_cons, unescape?_escapeChar, ih, Option.map_some]

theorem toList_render_str (value : String) :
    (str value).render.toList = '\'' :: (value.toList.flatMap escapeChar ++ ['\'']) := by
  simp [render, quoted]

theorem toList_render_bytes (value : String) :
    (bytes value).render.toList = 'b' :: '\'' :: (value.toList.flatMap escapeChar ++ ['\'']) := by
  simp [render, quoted]

theorem render_str_inj {value other : String} : (str value).render = (str other).render ↔ value = other := by
  refine ⟨fun same => ?_, fun equal => by rw [equal]⟩
  have texts := congrArg String.toList same
  rw [toList_render_str, toList_render_str, List.cons.injEq, List.append_left_inj] at texts
  have plain := congrArg unescape? texts.2
  rw [unescape?_flatMap, unescape?_flatMap] at plain
  exact String.toList_inj.mp (Option.some.inj plain)

/-- The text of a string constant is closed by its last character and by no earlier one, and can be decoded. -/
theorem render_str_decodable (value : String) :
    (∃ inside, (str value).render.toList = '\'' :: (inside ++ ['\'']) ∧
      (∀ behind, upToQuote? false (inside ++ '\'' :: behind) = some (inside, behind)) ∧
      unescape? inside = some value.toList) ∧
      (∀ other, (str value).render = (str other).render ↔ value = other) ∧
      ∀ other, (str value).render ≠ (bytes other).render := by
  refine ⟨⟨value.toList.flatMap escapeChar, toList_render_str value, ?_, unescape?_flatMap _⟩, ?_, ?_⟩
  · exact upToQuote?_flatMap value.toList
  · exact fun other => render_str_inj
  · intro other same
    have texts := congrArg String.toList same
    rw [toList_render_str, toList_render_bytes] at texts
    simp at texts

example : (str "\\n\n'\\").render = "'\\\\n\\n\\'\\\\'" := by decide +kernel

end DocGraph.Constant
