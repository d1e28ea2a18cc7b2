import DocGraph.Expr.Dotted
import DocGraph.Proofs.Rendering.Lexemes

/-!
Which expressions their text determines. Parentheses stand only where an operand of an operator is a binary
operation, and around comparisons behind a sign. So the text of an expression can be read back when attributes are
taken of dotted names only, no comparison is an operand of an operator or of another comparison, and no `not`
follows `is`. Without these conditions different expressions share a text.
-/
namespace DocGraph.Expr

open Text

def isCompare : Expr → Bool
  | .compare _ _ _ => true
  | _ => false

/-- The operands that are written without parentheses need none. -/
inductive Delimited : Expr → Prop
  | name (id : String) : Delimited (.name id)
  | member {value : Expr} (attr : String) (inner : Delimited value) (path : value.segments?.isSome = true) :
      Delimited (.attribute value attr)
  | binary {left right : Expr} (op : BinaryOp) (first : Delimited left) (second : Delimited right)
      (plain : left.isCompare = false) (plainRight : right.isCompare = false) : Delimited (.binary left op right)
  | unary {operand : Expr} (op : UnaryOp) (inner : Delimited operand) : Delimited (.unary op operand)
  | compare {left right : Expr} (op : CompareOp) (first : Delimited left) (second : Delimited right)
      (plain : left.isCompare = false) (plainRight : right.isCompare = false)
      (apart : op = .is → right.lexemes.head? ≠ some (.sign .not)) : Delimited (.compare left [op] [right])

/-- What waits for an operand on its right. -/
inductive Frame where
  | sign (op : UnaryOp)
  | left (operand : Expr) (op : BinaryOp)
  | against (operand : Expr) (op : CompareOp)
  | group

namespace Frame

def plug : Frame → Expr → Expr
  | sign op, operand => .unary op operand
  | left first op, operand => .binary first op operand
  | against first op, operand => .compare first [op] [operand]
  | group, operand => operand

def isGroup : Frame → Bool
  | group => true
  | _ => false

/-- Frames that an operator between two operands does not close. -/
def isOuter : Frame → Bool
  | against _ _ => true
  | group => true
  | _ => false

def isSign : Frame → Bool
  | sign _ => true
  | _ => false

/-- Frames closed around an operand, the innermost first. -/
def plugAll (frames : List Frame) (operand : Expr) : Expr := frames.foldl (fun inner frame => frame.plug inner) operand

theorem plugAll_concat (frames : List Frame) (frame : Frame) (operand : Expr) :
    plugAll (frames ++ [frame]) operand = frame.plug (plugAll frames operand) := by
  simp [plugAll]

theorem isOuter_of_isGroup {frame : Frame} (kept : frame.isGroup = true) : frame.isOuter = true := by
  cases frame <;> simp_all [isGroup, isOuter]

theorem isGroup_of_isOuter {frame : Frame} (closes : (!frame.isOuter) = true) : (!frame.isGroup) = true := by
  cases frame <;> simp_all [isGroup, isOuter]

theorem isOuter_of_isSign {frame : Frame} (closes : frame.isSign = true) : (!frame.isOuter) = true := by
  cases frame <;> simp_all [isSign, isOuter]

end Frame

/-- A point in the lexemes: the frames that are still open, and the operand read last. -/
structure Reading where
  frames : List Frame
  operand : Expr

namespace Reading

/-- Closes the frames up to the first that is kept. -/
def close (keeps : Frame → Bool) : List Frame → Expr → Reading
  | [], operand => ⟨[], operand⟩
  | frame :: rest, operand =>
      if keeps frame then ⟨frame :: rest, operand⟩ else close keeps rest (frame.plug operand)

def sign (op : UnaryOp) (frames : List Frame) (operand : Expr) : Reading :=
  match op, frames with
  | .not, .against left .is :: rest => ⟨.against left .isNot :: rest, operand⟩
  | op, frames => ⟨.sign op :: frames, operand⟩

def step (point : Reading) : Lexeme → Reading
  | .name id => ⟨point.frames, .name id⟩
  | .member attr => ⟨point.frames, .attribute point.operand attr⟩
  | .sign op => sign op point.frames point.operand
  | .operator (.binary op) =>
      let closed := close Frame.isOuter point.frames point.operand
      ⟨.left closed.operand op :: closed.frames, closed.operand⟩
  | .operator (.compare op) =>
      let closed := close Frame.isGroup point.frames point.operand
      ⟨.against closed.operand op :: closed.frames, closed.operand⟩
  | .opening => ⟨.group :: point.frames, point.operand⟩
  | .closing =>
      let closed := close Frame.isGroup point.frames point.operand
      ⟨closed.frames.tail, closed.operand⟩

def run (start : Reading) (lexemes : List Lexeme) : Reading := lexemes.foldl step start

@[simp] theorem run_nil (start : Reading) : start.run [] = start := rfl

@[simp] theorem run_cons (start : Reading) (lexeme : Lexeme) (rest : List Lexeme) :
    start.run (lexeme :: rest) = (start.step lexeme).run rest := rfl

@[simp] theorem run_append (start : Reading) (first second : List Lexeme) :
    start.run (first ++ second) = (start.run first).run second := List.foldl_append

/-- Frames whose innermost is kept. -/
def Kept (keeps : Frame → Bool) (frames : List Frame) : Prop := ∀ frame ∈ frames.head?, keeps frame = true

theorem close_append {keeps : Frame → Bool} {frames outer : List Frame} (operand : Expr)
    (closes : ∀ frame ∈ frames, keeps frame = false) (kept : Kept keeps outer) :
    close keeps (frames ++ outer) operand = ⟨outer, Frame.plugAll frames operand⟩ := by
  induction frames generalizing operand with
  | nil =>
      cases outer with
      | nil => rfl
      | cons frame rest => simp [close, kept frame rfl, Frame.plugAll]
  | cons frame rest ih =>
      have first : keeps frame = false := closes frame List.mem_cons_self
      have later : ∀ frame ∈ rest, keeps frame = false := fun frame member =>
        closes frame (List.mem_cons_of_mem _ member)
      simp [close, first, ih (frame.plug operand) later, Frame.plugAll]

end Reading

/-- The expression that lexemes spell. -/
def ofLexemes (lexemes : List Lexeme) : Expr :=
  let final := Reading.run ⟨[], .name ""⟩ lexemes
  (Reading.close Frame.isGroup final.frames final.operand).operand

/-- A `not` in front of the expression does not go with an `is` before it. -/
def Apart (frames : List Frame) (expr : Expr) : Prop :=
  ∀ left rest, frames = .against left .is :: rest → expr.lexemes.head? ≠ some (.sign .not)

theorem sign_apart {op : UnaryOp} {frames : List Frame} (operand : Expr)
    (apart : op = .not → ∀ left rest, frames ≠ .against left .is :: rest) :
    Reading.sign op frames operand = ⟨.sign op :: frames, operand⟩ := by
  unfold Reading.sign
  split
  · exact absurd rfl (apart rfl _ _)
  · rfl

/-- The lexemes open loose frames only, and closing these gives the expression. -/
def Leaves (loose : Frame → Bool) (start : Reading) (lexemes : List Lexeme) (expr : Expr) : Prop :=
  ∃ opened operand, start.run lexemes = ⟨opened ++ start.frames, operand⟩ ∧
    Frame.plugAll opened operand = expr ∧ ∀ frame ∈ opened, loose frame = true

/-- Lexemes that open one frame, and behind them its operand. -/
theorem Leaves.push {loose inner : Frame → Bool} {start : Reading} {frame : Frame} {before expr : Expr}
    {first rest : List Lexeme} (reached : start.run first = ⟨frame :: start.frames, before⟩)
    (leaves : Leaves inner ⟨frame :: start.frames, before⟩ rest expr)
    (wider : ∀ frame, inner frame = true → loose frame = true) (outermost : loose frame = true) :
    Leaves loose start (first ++ rest) (frame.plug expr) := by
  obtain ⟨opened, operand, ran, plugged, all⟩ := leaves
  refine ⟨opened ++ [frame], operand, ?_, ?_, ?_⟩
  · rw [Reading.run_append, reached, ran]
    simp
  · rw [Frame.plugAll_concat, plugged]
  · intro other member
    rcases List.mem_append.mp member with deeper | last
    · exact wider other (all other deeper)
    · rwa [List.mem_singleton.mp last]

/-- Inside such frames the expression is read back. -/
def ReadsBack (inside : List Frame → Prop) (loose : Frame → Bool) (expr : Expr) : Prop :=
  ∀ frames before, inside frames → Apart frames expr → Leaves loose ⟨frames, before⟩ expr.lexemes expr

/-- An operand: only signs stay open. -/
def ReadsOperand : Expr → Prop := ReadsBack (fun _ => True) Frame.isSign

/-- A chain of operators. -/
def ReadsChain : Expr → Prop := ReadsBack (Reading.Kept Frame.isOuter) (fun frame => !frame.isOuter)

/-- Whatever can stand alone or in parentheses. -/
def ReadsWhole : Expr → Prop := ReadsBack (Reading.Kept Frame.isGroup) (fun frame => !frame.isGroup)

section levels

variable {expr : Expr}

theorem ReadsBack.mono {inside inside' : List Frame → Prop} {loose loose' : Frame → Bool}
    (reads : ReadsBack inside loose expr) (narrower : ∀ frames, inside' frames → inside frames)
    (wider : ∀ frame, loose frame = true → loose' frame = true) : ReadsBack inside' loose' expr := by
  intro frames before within apart
  obtain ⟨opened, operand, ran, plugged, all⟩ := reads frames before (narrower frames within) apart
  exact ⟨opened, operand, ran, plugged, fun frame member => wider frame (all frame member)⟩

theorem ReadsOperand.chain (reads : ReadsOperand expr) : ReadsChain expr :=
  ReadsBack.mono reads (fun _ _ => trivial) (fun _ => Frame.isOuter_of_isSign)

theorem kept_isOuter {frames : List Frame} (kept : Reading.Kept Frame.isGroup frames) :
    Reading.Kept Frame.isOuter frames :=
  fun frame member => Frame.isOuter_of_isGroup (kept frame member)

theorem ReadsChain.whole (reads : ReadsChain expr) : ReadsWhole expr :=
  ReadsBack.mono reads (fun _ => kept_isOuter) (fun _ => Frame.isGroup_of_isOuter)

theorem ReadsWhole.grouped (reads : ReadsWhole expr) (frames : List Frame) (before : Expr) :
    Reading.run ⟨frames, before⟩ (grouped true expr.lexemes) = ⟨frames, expr⟩ := by
  have kept : Reading.Kept Frame.isGroup (.group :: frames) := by simp [Reading.Kept, Frame.isGroup]
  obtain ⟨opened, operand, ran, plugged, all⟩ := reads (.group :: frames) before kept (by simp [Apart])
  have closes : ∀ frame ∈ opened, frame.isGroup = false := fun frame member => by simpa using all frame member
  simp only [Expr.grouped, if_true, Reading.run_cons, Reading.run_append, Reading.run_nil, Reading.step, ran,
    Reading.close_append operand closes kept, List.tail_cons, plugged]

/-- An operand in its place, with or without parentheses. -/
theorem leaves_grouped {inside : List Frame → Prop} {loose : Frame → Bool} {needed : Bool}
    (whole : ReadsWhole expr) (reads : needed = false → ReadsBack inside loose expr) (frames : List Frame)
    (before : Expr) (within : inside frames) (apart : needed = false → Apart frames expr) :
    Leaves loose ⟨frames, before⟩ (Expr.grouped needed expr.lexemes) expr := by
  cases needed with
  | false => exact reads rfl frames before within (apart rfl)
  | true => exact ⟨[], expr, whole.grouped frames before, rfl, by simp⟩

/-- How far an expression can be read, by its kind. -/
structure Reads (expr : Expr) : Prop where
  operand : expr.isOperation = false → ReadsOperand expr
  chain : expr.isCompare = false → ReadsChain expr
  whole : ReadsWhole expr

theorem ReadsOperand.reads (reads : ReadsOperand expr) : Reads expr :=
  ⟨fun _ => reads, fun _ => reads.chain, reads.chain.whole⟩

theorem Apart.of_head {frames : List Frame} {first : Expr} (apart : Apart frames expr)
    (leads : first.lexemes.head? = some (.sign .not) → expr.lexemes.head? = some (.sign .not)) :
    Apart frames first :=
  fun left rest same head => apart left rest same (leads head)

end levels

section kinds

variable {left right operand : Expr}

theorem run_path {value : Expr} (delimited : value.Delimited) (path : value.segments?.isSome = true)
    (frames : List Frame) (before : Expr) : Reading.run ⟨frames, before⟩ value.lexemes = ⟨frames, value⟩ := by
  induction delimited generalizing before with
  | name => simp [lexemes, Reading.step]
  | member attr inner path' ih => simp [lexemes, ih path' before, Reading.step]
  | _ => simp [segments?] at path

theorem readsOperand_path {value : Expr} (delimited : value.Delimited) (path : value.segments?.isSome = true) :
    ReadsOperand value := by
  intro frames before _ _
  exact ⟨[], value, run_path delimited path frames before, rfl, by simp⟩

theorem readsOperand_unary (op : UnaryOp) (inner : Reads operand) : ReadsOperand (.unary op operand) := by
  intro frames before _ apart
  have opens : Reading.run ⟨frames, before⟩ [.sign op] = ⟨.sign op :: frames, before⟩ := by
    refine sign_apart before fun negation left rest same => ?_
    exact apart left rest same (by simp [lexemes, negation])
  have leaves := leaves_grouped inner.whole inner.operand (.sign op :: frames) before trivial (fun _ => by simp [Apart])
  rw [lexemes]
  exact leaves.push opens (fun _ sign => sign) rfl

theorem readsChain_binary (op : BinaryOp) (first : Reads left) (second : Reads right) (plain : left.isCompare = false)
    (plainRight : right.isCompare = false) : ReadsChain (.binary left op right) := by
  intro frames before kept apart
  have leads : left.isBinaryExcept op = false → Apart frames left := by
    intro bare
    exact apart.of_head fun head => by simp [lexemes, grouped, bare, head]
  obtain ⟨opened, last, ran, plugged, loose⟩ :=
    leaves_grouped first.whole (fun _ => first.chain plain) frames before kept leads
  have closes : ∀ frame ∈ opened, frame.isOuter = false := fun frame member => by simpa using loose frame member
  have opens : Reading.run ⟨frames, before⟩
      (grouped (left.isBinaryExcept op) left.lexemes ++ [.operator (.binary op)]) = ⟨.left left op :: frames, left⟩ := by
    simp [ran, Reading.step, Reading.close_append last closes kept, plugged]
  -- Without parentheses the right operand is no operation: a binary one has them, and a comparison is excluded.
  have bare : right.isBinary = false → right.isOperation = false := by
    intro single
    cases right <;> simp_all [isBinary, isOperation, isCompare]
  have leaves := leaves_grouped second.whole (fun single => second.operand (bare single)) (.left left op :: frames) left
    trivial (fun _ => by simp [Apart])
  rw [lexemes, List.append_cons]
  exact leaves.push opens (fun _ => Frame.isOuter_of_isSign) rfl

theorem readsWhole_compare (op : CompareOp) (first : Reads left) (second : Reads right)
    (plain : left.isCompare = false) (plainRight : right.isCompare = false)
    (apartRight : op = .is → right.lexemes.head? ≠ some (.sign .not)) :
    ReadsWhole (.compare left [op] [right]) := by
  intro frames before kept apart
  have leads : Apart frames left := apart.of_head fun head => by simp [lexemes_compare, head]
  obtain ⟨opened, last, ran, plugged, loose⟩ := first.chain plain frames before (kept_isOuter kept) leads
  have closes : ∀ frame ∈ opened, frame.isGroup = false := fun frame member => by
    simpa using Frame.isGroup_of_isOuter (loose frame member)
  have opens : Reading.run ⟨frames, before⟩ (left.lexemes ++ comparison op []) = ⟨.against left op :: frames, left⟩ := by
    rw [Reading.run_append, ran]
    cases op <;> simp [comparison, Reading.step, Reading.close_append last closes kept, plugged, Reading.sign]
  have leadsRight : Apart (.against left op :: frames) right := by
    intro left' rest same
    have compared : op = .is := by simp_all
    exact apartRight compared
  have leaves := second.chain plainRight (.against left op :: frames) left (by simp [Reading.Kept, Frame.isOuter])
    leadsRight
  have split : comparison op right.lexemes = comparison op [] ++ right.lexemes := by cases op <;> rfl
  rw [lexemes_compare, split, ← List.append_assoc]
  exact leaves.push opens (fun _ => Frame.isGroup_of_isOuter) rfl

end kinds

theorem reads_of_delimited {expr : Expr} (delimited : expr.Delimited) : Reads expr := by
  induction delimited with
  | name id => exact (readsOperand_path (.name id) rfl).reads
  | @member value attr inner path _ =>
      have whole : (Expr.attribute value attr).segments?.isSome = true := by simpa [segments?] using path
      exact (readsOperand_path (.member attr inner path) whole).reads
  | unary op _ ih => exact (readsOperand_unary op ih).reads
  | binary op _ _ plain plainRight ihFirst ihSecond =>
      have chain := readsChain_binary op ihFirst ihSecond plain plainRight
      exact ⟨by simp [isOperation], fun _ => chain, chain.whole⟩
  | compare op _ _ plain plainRight apart ihFirst ihSecond =>
      have whole := readsWhole_compare op ihFirst ihSecond plain plainRight apart
      exact ⟨by simp [isOperation], by simp [isCompare], whole⟩

/-- Reading the lexemes of an expression gives it back. -/
theorem ofLexemes_lexemes {expr : Expr} (delimited : expr.Delimited) : ofLexemes expr.lexemes = expr := by
  obtain ⟨opened, operand, ran, plugged, loose⟩ :=
    (reads_of_delimited delimited).whole [] (.name "") (by simp [Reading.Kept]) (by simp [Apart])
  have closes : ∀ frame ∈ opened, frame.isGroup = false := fun frame member => by simpa using loose frame member
  have kept : Reading.Kept Frame.isGroup [] := by simp [Reading.Kept]
  simp only [ofLexemes, ran, Reading.close_append operand closes kept, plugged]

theorem ofOperators_letter {id : String} (letter : id ∈ ["a", "b", "c"]) : (Expr.name id).OfOperators := by
  have plain : ∀ id ∈ ["a", "b", "c"], isIdentifier id = true ∧ id ≠ "not" := by decide +kernel
  exact .name (plain id letter).1 (plain id letter).2

/-- `(a + b) * -a.c is not c` -/
def productOfSum : Expr :=
  .compare (.binary (.binary (.name "a") .add (.name "b")) .mult (.unary .uSub (.attribute (.name "a") "c")))
    [.isNot] [.name "c"]

/-- `a + (b * -a.c) is not c` -/
def sumOfProduct : Expr :=
  .compare (.binary (.name "a") .add (.binary (.name "b") .mult (.unary .uSub (.attribute (.name "a") "c"))))
    [.isNot] [.name "c"]

/-- Two expressions have one text just when their lexemes are the same. Where the operands without parentheses
need none, that is when the expressions are. -/
theorem render_determines {left right : Expr} (operators : left.OfOperators) (others : right.OfOperators) :
    (left.render = right.render ↔ left.lexemes = right.lexemes) ∧
      (left.Delimited → right.Delimited → (left.render = right.render ↔ left = right)) := by
  refine ⟨render_eq_iff_lexemes operators others, fun delimited delimitedOther =>
    ⟨fun same => ?_, congrArg render⟩⟩
  have lexed := (render_eq_iff_lexemes operators others).mp same
  calc left = ofLexemes left.lexemes := (ofLexemes_lexemes delimited).symm
    _ = ofLexemes right.lexemes := by rw [lexed]
    _ = right := ofLexemes_lexemes delimitedOther

theorem render_productOfSum : productOfSum.OfOperators ∧ sumOfProduct.OfOperators ∧ productOfSum.Delimited ∧
    sumOfProduct.Delimited ∧ productOfSum.render ≠ sumOfProduct.render := by
  have a : (Expr.name "a").OfOperators := ofOperators_letter (by decide)
  have b : (Expr.name "b").OfOperators := ofOperators_letter (by decide)
  have c : (Expr.name "c").OfOperators := ofOperators_letter (by decide)
  have negated : (Expr.unary .uSub (.attribute (.name "a") "c")).OfOperators := .unary _ (.member a (by decide))
  have delimited : (Expr.unary .uSub (.attribute (.name "a") "c")).Delimited :=
    .unary _ (.member _ (.name _) rfl)
  have first : productOfSum.OfOperators := .compare _ (.binary _ (.binary _ a b) negated) c
  have second : sumOfProduct.OfOperators := .compare _ (.binary _ a (.binary _ b negated)) c
  have clear : productOfSum.Delimited :=
    .compare _ (.binary _ (.binary _ (.name _) (.name _) rfl rfl) delimited rfl rfl) (.name _) rfl rfl (by simp)
  have clearOther : sumOfProduct.Delimited :=
    .compare _ (.binary _ (.name _) (.binary _ (.name _) delimited rfl rfl) rfl rfl) (.name _) rfl rfl (by simp)
  refine ⟨first, second, clear, clearOther, fun same => ?_⟩
  have equal := ((render_determines first second).2 clear clearOther).mp same
  simp [productOfSum, sumOfProduct] at equal

/-- Different expressions of operators that have one text. -/
def Collide (left right : Expr) : Prop :=
  left.OfOperators ∧ right.OfOperators ∧ left.render = right.render ∧ left ≠ right

/-- No condition on the operands without parentheses can be dropped: a comparison under a binary operator on either
side, an attribute of a binary or a unary operation, a comparison under a comparison, and `not` behind `is`. -/
theorem render_collides :
    Collide (.binary (.compare (.name "a") [.lt] [.name "b"]) .add (.name "c"))
        (.compare (.name "a") [.lt] [.binary (.name "b") .add (.name "c")]) ∧
      Collide (.binary (.name "a") .add (.compare (.name "b") [.lt] [.name "c"]))
        (.compare (.binary (.name "a") .add (.name "b")) [.lt] [.name "c"]) ∧
      Collide (.attribute (.binary (.name "a") .add (.name "b")) "c")
        (.binary (.name "a") .add (.attribute (.name "b") "c")) ∧
      Collide (.attribute (.unary .uSub (.name "a")) "b") (.unary .uSub (.attribute (.name "a") "b")) ∧
      Collide (.compare (.compare (.name "a") [.lt] [.name "b"]) [.lt] [.name "c"])
        (.compare (.name "a") [.lt] [.compare (.name "b") [.lt] [.name "c"]]) ∧
      Collide (.compare (.name "a") [.is] [.unary .not (.name "b")]) (.compare (.name "a") [.isNot] [.name "b"]) := by
  have a : (Expr.name "a").OfOperators := ofOperators_letter (by decide)
  have b : (Expr.name "b").OfOperators := ofOperators_letter (by decide)
  have c : (Expr.name "c").OfOperators := ofOperators_letter (by decide)
  refine ⟨?_, ?_, ?_, ?_, ?_, ?_⟩
  · exact ⟨.binary _ (.compare _ a b) c, .compare _ a (.binary _ b c), by decide +kernel, by simp⟩
  · exact ⟨.binary _ a (.compare _ b c), .compare _ (.binary _ a b) c, by decide +kernel, by simp⟩
  · exact ⟨.member (.binary _ a b) (by decide), .binary _ a (.member b (by decide)), by decide +kernel, by simp⟩
  · exact ⟨.member (.unary _ a) (by decide), .unary _ (.member a (by decide)), by decide +kernel, by simp⟩
  · exact ⟨.compare _ (.compare _ a b) c, .compare _ a (.compare _ b c), by decide +kernel, by simp⟩
  · exact ⟨.compare _ a (.unary _ b), .compare _ a b, by decide +kernel, by simp⟩

end DocGraph.Expr
