import DocGraph.Expr.Render
import DocGraph.Proofs.Text.Words

namespace DocGraph

open Text

namespace Expr

/-- Expressions made of names, attributes, binary and unary operators and single comparisons. The word `not` is
an operator, and no name. -/
inductive OfOperators : Expr → Prop
  | name {id : String} (identifier : isIdentifier id = true) (word : id ≠ "not") : OfOperators (.name id)
  | member {value : Expr} {attr : String} (inner : OfOperators value) (identifier : isIdentifier attr = true) :
      OfOperators (.attribute value attr)
  | binary {left right : Expr} (op : BinaryOp) (first : OfOperators left) (second : OfOperators right) :
      OfOperators (.binary left op right)
  | unary {operand : Expr} (op : UnaryOp) (inner : OfOperators operand) : OfOperators (.unary op operand)
  | compare {left right : Expr} (op : CompareOp) (first : OfOperators left) (second : OfOperators right) :
      OfOperators (.compare left [op] [right])

/-- An operator between two operands. -/
inductive Operator where
  | binary (op : BinaryOp)
  | compare (op : CompareOp)
deriving DecidableEq, Repr

inductive Lexeme where
  | name (id : String)
  /-- The access to an attribute, with its dot. -/
  | member (attr : String)
  /-- An operator before its operand. -/
  | sign (op : UnaryOp)
  | operator (op : Operator)
  | opening
  | closing
deriving DecidableEq, Repr

namespace Operator

def symbol : Operator → String
  | binary op => op.symbol
  | compare op => op.symbol

/-- The text of an operator, with a space on both sides. -/
def text (op : Operator) : List Char := ' ' :: (op.symbol.toList ++ [' '])

/-- The operators that are one lexeme: `is not` is read as `is` and a sign. -/
def all : List Operator := BinaryOp.all.map binary ++ (CompareOp.all.erase .isNot).map compare

theorem mem_all {op : Operator} (single : op ≠ compare .isNot) : op ∈ all := by
  cases op with
  | binary op => cases op <;> decide
  | compare op => cases op <;> revert single <;> decide

theorem text_prefix_free : ∀ op ∈ all, ∀ other ∈ all, op.text <+: other.text → op = other := by decide +kernel

end Operator

def Lexeme.text : Lexeme → List Char
  | .name id => id.toList
  | .member attr => '.' :: attr.toList
  | .sign op => op.symbol.toList
  | .operator op => op.text
  | .opening => ['(']
  | .closing => [')']

def texts (lexemes : List Lexeme) : List Char := lexemes.flatMap Lexeme.text

@[simp] theorem texts_nil : texts [] = [] := rfl

@[simp] theorem texts_cons (lexeme : Lexeme) (rest : List Lexeme) :
    texts (lexeme :: rest) = lexeme.text ++ texts rest := rfl

@[simp] theorem texts_append (first second : List Lexeme) : texts (first ++ second) = texts first ++ texts second :=
  List.flatMap_append

/-- The lexemes of an operand, in parentheses if they are needed. -/
def grouped (needed : Bool) (lexemes : List Lexeme) : List Lexeme :=
  if needed then .opening :: (lexemes ++ [.closing]) else lexemes

def comparison (op : CompareOp) (right : List Lexeme) : List Lexeme :=
  match op with
  | .isNot => .operator (.compare .is) :: .sign .not :: right
  | op => .operator (.compare op) :: right

mutual

def lexemes : Expr → List Lexeme
  | .name id => [.name id]
  | .attribute value attr => value.lexemes ++ [.member attr]
  | .binary left op right =>
      grouped (left.isBinaryExcept op) left.lexemes
        ++ .operator (.binary op) :: grouped right.isBinary right.lexemes
  | .unary op operand => .sign op :: grouped operand.isOperation operand.lexemes
  | .compare left ops comparators =>
      left.lexemes ++ (List.zipWith comparison ops (lexemesAll comparators)).flatten
  | _ => []

def lexemesAll : List Expr → List (List Lexeme)
  | [] => []
  | expr :: rest => expr.lexemes :: lexemesAll rest

end

theorem texts_grouped (needed : Bool) (lexemes : List Lexeme) {text : String} (same : text.toList = texts lexemes) :
    (parenthesize needed text).toList = texts (grouped needed lexemes) := by
  cases needed <;> simp [parenthesize, grouped, same, Lexeme.text]

theorem lexemes_compare (left : Expr) (op : CompareOp) (right : Expr) :
    (Expr.compare left [op] [right]).lexemes = left.lexemes ++ comparison op right.lexemes := by
  simp [lexemes, lexemesAll]

theorem toList_renderComparison (op : CompareOp) {text : String} {lexemes : List Lexeme}
    (same : text.toList = texts lexemes) : (renderComparison op text).toList = texts (comparison op lexemes) := by
  cases op <;> simp [renderComparison, comparison, same, Lexeme.text, Operator.text, Operator.symbol, CompareOp.symbol,
    UnaryOp.symbol]

theorem toList_render {expr : Expr} (operators : expr.OfOperators) : expr.render.toList = texts expr.lexemes := by
  induction operators with
  | name => simp [render, lexemes, Lexeme.text]
  | member _ _ ih => simp [render, lexemes, ih, Lexeme.text]
  | binary op _ _ ihFirst ihSecond =>
      simp [render, lexemes, texts_grouped _ _ ihFirst, texts_grouped _ _ ihSecond, Lexeme.text, Operator.text,
        Operator.symbol]
  | unary op _ ih => simp [render, lexemes, texts_grouped _ _ ih, Lexeme.text]
  | compare op _ _ ihFirst ihSecond =>
      rw [lexemes_compare, texts_append, ← ihFirst, ← toList_renderComparison op ihSecond]
      simp [render, renderAll, String.join]

/-- Lexemes in an order that can be read: `true` while an operand is to come, `false` behind one. -/
inductive Phrase : Bool → List Lexeme → Prop
  | done : Phrase false []
  | name {id : String} {rest : List Lexeme} (identifier : isIdentifier id = true) (word : id ≠ "not")
      (behind : Phrase false rest) : Phrase true (.name id :: rest)
  | sign {rest : List Lexeme} (op : UnaryOp) (operand : Phrase true rest) : Phrase true (.sign op :: rest)
  | opening {rest : List Lexeme} (operand : Phrase true rest) : Phrase true (.opening :: rest)
  | member {attr : String} {rest : List Lexeme} (identifier : isIdentifier attr = true)
      (behind : Phrase false rest) : Phrase false (.member attr :: rest)
  | closing {rest : List Lexeme} (behind : Phrase false rest) : Phrase false (.closing :: rest)
  | operator {op : Operator} {rest : List Lexeme} (single : op ≠ .compare .isNot) (operand : Phrase true rest) :
      Phrase false (.operator op :: rest)

theorem phrase_grouped (needed : Bool) {lexemes : List Lexeme}
    (reads : ∀ {rest : List Lexeme}, Phrase false rest → Phrase true (lexemes ++ rest)) {rest : List Lexeme}
    (behind : Phrase false rest) : Phrase true (grouped needed lexemes ++ rest) := by
  cases needed with
  | false => exact reads behind
  | true => simpa [grouped] using Phrase.opening (reads (.closing behind))

theorem phrase_comparison (op : CompareOp) {right : List Lexeme} (operand : Phrase true right) :
    Phrase false (comparison op right) := by
  cases op with
  | isNot => exact .operator (by decide) (.sign _ operand)
  | _ => exact .operator (by decide) operand

theorem phrase_lexemes {expr : Expr} (operators : expr.OfOperators) {rest : List Lexeme}
    (behind : Phrase false rest) : Phrase true (expr.lexemes ++ rest) := by
  induction operators generalizing rest with
  | name identifier word => simpa [lexemes] using Phrase.name identifier word behind
  | member _ identifier ih => simpa [lexemes] using ih (.member identifier behind)
  | @binary left right op _ _ ihFirst ihSecond =>
      have follows : Phrase false (.operator (.binary op) :: (grouped right.isBinary right.lexemes ++ rest)) :=
        .operator (by simp) (phrase_grouped _ ihSecond behind)
      simpa [lexemes] using phrase_grouped (left.isBinaryExcept op) ihFirst follows
  | unary op _ ih => simpa [lexemes] using Phrase.sign op (phrase_grouped _ ih behind)
  | compare op _ _ ihFirst ihSecond =>
      have follows : Phrase false (comparison op (_ ++ rest)) := phrase_comparison op (ihSecond behind)
      have moved : ∀ right, comparison op right ++ rest = comparison op (right ++ rest) := by
        intro right
        cases op <;> rfl
      rw [lexemes_compare, List.append_assoc, moved]
      exact ihFirst follows

theorem stops_texts {lexemes : List Lexeme} (behind : Phrase false lexemes) :
    Stops continuesIdentifier (texts lexemes) := by
  cases behind with
  | done => exact stops_nil
  | member => exact stops_cons (by decide)
  | closing => exact stops_cons (by decide)
  | operator => exact stops_cons (by decide)

theorem ne_of_startsIdentifier {c first : Char} (starts : startsIdentifier first = true)
    (outside : continuesIdentifier c = false) : first ≠ c := by
  rintro rfl
  rw [continues_of_starts starts] at outside
  cases outside

section leads

variable {id : String} {rest : List Lexeme} {tail : List Char}

/-- A name is not read as a sign. The sign `not` is a word, and the name would have to be that word. -/
theorem name_ne_sign (identifier : isIdentifier id = true) (word : id ≠ "not") (behind : Phrase false rest)
    (op : UnaryOp) : id.toList ++ texts rest ≠ op.symbol.toList ++ tail := by
  intro same
  obtain ⟨first, others, text, starts, _⟩ := exists_of_isIdentifier identifier
  have leads : op ≠ .not → ∃ c, op.symbol.toList.head? = some c ∧ continuesIdentifier c = false := by
    intro other
    cases op with
    | invert => exact ⟨'~', rfl, by decide⟩
    | not => exact absurd rfl other
    | uAdd => exact ⟨'+', rfl, by decide⟩
    | uSub => exact ⟨'-', rfl, by decide⟩
  by_cases negation : op = .not
  · subst negation
    have split : UnaryOp.not.symbol.toList ++ tail = "not".toList ++ ' ' :: tail := rfl
    rw [split] at same
    have letters : isIdentifier "not" = true := by decide
    have words := run_unique (continues_of_isIdentifier identifier) (continues_of_isIdentifier letters)
      (stops_texts behind) (stops_cons (by decide)) same
    exact word (String.toList_inj.mp words.1)
  · obtain ⟨c, leading, outside⟩ := leads negation
    have heads := congrArg List.head? same
    rw [text, List.cons_append, List.head?_cons, List.head?_append, leading] at heads
    exact ne_of_startsIdentifier starts outside (Option.some.inj heads)

theorem name_ne_opening (identifier : isIdentifier id = true) : id.toList ++ texts rest ≠ '(' :: tail := by
  intro same
  obtain ⟨first, others, text, starts, _⟩ := exists_of_isIdentifier identifier
  rw [text] at same
  exact ne_of_startsIdentifier starts (by decide) (List.cons.inj same).1

theorem sign_ne_opening (op : UnaryOp) (front : List Char) : op.symbol.toList ++ front ≠ '(' :: tail := by
  cases op <;> simp [UnaryOp.symbol]

theorem sign_unique {op other : UnaryOp} {front : List Char}
    (same : op.symbol.toList ++ front = other.symbol.toList ++ tail) : op = other ∧ front = tail := by
  cases op <;> cases other <;> simp_all [UnaryOp.symbol]

theorem operator_unique {op other : Operator} (single : op ≠ .compare .isNot)
    (singleOther : other ≠ .compare .isNot) {front : List Char} (same : op.text ++ front = other.text ++ tail) :
    op = other ∧ front = tail := by
  have equal : op = other := by
    have first : op.text <+: other.text ++ tail := ⟨front, same⟩
    have second : other.text <+: other.text ++ tail := ⟨tail, rfl⟩
    rcases List.prefix_or_prefix_of_prefix first second with before | before
    · exact Operator.text_prefix_free _ (Operator.mem_all single) _ (Operator.mem_all singleOther) before
    · exact (Operator.text_prefix_free _ (Operator.mem_all singleOther) _ (Operator.mem_all single) before).symm
  subst equal
  exact ⟨rfl, List.append_cancel_left same⟩

end leads

/-- The text of lexemes in a readable order determines them. -/
theorem texts_injective {operand : Bool} {first second : List Lexeme} (readable : Phrase operand first)
    (readableOther : Phrase operand second) (same : texts first = texts second) : first = second := by
  induction readable generalizing second with
  | done => cases readableOther <;> simp_all [Lexeme.text, Operator.text]
  | name identifier word behind ih =>
      cases readableOther with
      | name identifierOther _ behindOther =>
          obtain ⟨words, rests⟩ := run_unique (continues_of_isIdentifier identifier)
            (continues_of_isIdentifier identifierOther) (stops_texts behind) (stops_texts behindOther) same
          rw [String.toList_inj.mp words, ih behindOther rests]
      | sign op => exact absurd same (name_ne_sign identifier word behind op)
      | opening => exact absurd same (name_ne_opening identifier)
  | sign op _ ih =>
      cases readableOther with
      | name identifier word behind => exact absurd same.symm (name_ne_sign identifier word behind op)
      | sign other operand =>
          obtain ⟨rfl, rests⟩ := sign_unique same
          rw [ih operand rests]
      | opening => exact absurd same (sign_ne_opening op _)
  | opening _ ih =>
      cases readableOther with
      | name identifier => exact absurd same.symm (name_ne_opening identifier)
      | sign op => exact absurd same.symm (sign_ne_opening op _)
      | opening operand => rw [ih operand (List.cons.inj same).2]
  | member identifier behind ih =>
      cases readableOther with
      | member identifierOther behindOther =>
          obtain ⟨words, rests⟩ := run_unique (continues_of_isIdentifier identifier)
            (continues_of_isIdentifier identifierOther) (stops_texts behind) (stops_texts behindOther)
            (List.cons.inj same).2
          rw [String.toList_inj.mp words, ih behindOther rests]
      | _ => simp [Lexeme.text, Operator.text] at same
  | closing _ ih =>
      cases readableOther with
      | closing behind => rw [ih behind (List.cons.inj same).2]
      | _ => simp [Lexeme.text, Operator.text] at same
  | operator single _ ih =>
      cases readableOther with
      | operator singleOther operand =>
          obtain ⟨rfl, rests⟩ := operator_unique single singleOther same
          rw [ih operand rests]
      | _ => simp [Lexeme.text, Operator.text] at same

theorem render_eq_iff_lexemes {left right : Expr} (operators : left.OfOperators) (others : right.OfOperators) :
    left.render = right.render ↔ left.lexemes = right.lexemes := by
  have readable := phrase_lexemes operators .done
  have readableOther := phrase_lexemes others .done
  rw [List.append_nil] at readable readableOther
  rw [← String.toList_inj, toList_render operators, toList_render others]
  exact ⟨texts_injective readable readableOther, congrArg texts⟩

end Expr

end DocGraph
