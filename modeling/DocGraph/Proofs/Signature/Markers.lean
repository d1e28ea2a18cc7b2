import DocGraph.Proofs.Signature.Built
import DocGraph.Proofs.Text.Words

namespace DocGraph

open Text

/-- A parameter that is written as its name and stars alone. -/
structure Parameter.Bare (param : Parameter) : Prop where
  name : isIdentifier param.name = true
  default : param.default = none
  hint : param.hint = none

/-- The place of a kind in the order of the groups. -/
def ParamKind.rank : ParamKind → Nat
  | positionalOnly => 0
  | positionalOrKeyword => 1
  | varPositional => 2
  | keywordOnly => 3
  | varKeyword => 4

namespace Signature

variable {param : Parameter} {params : List Parameter} {slash star : Bool} {name : String} {rest : List String}
  {args : Arguments}

/-- The names and kinds of the parameters that a list of parts shows. `star` says that a star has been read. -/
def readParts (star : Bool) : List String → List (String × ParamKind)
  | [] => []
  | part :: rest =>
      if part = "/" then readParts star rest
      else if part = "*" then readParts true rest
      else match part.toList with
        | '*' :: '*' :: name => (String.ofList name, .varKeyword) :: readParts star rest
        | '*' :: name => (String.ofList name, .varPositional) :: readParts true rest
        | _ =>
            let kind :=
              if star then .keywordOnly else if "/" ∈ rest then .positionalOnly else .positionalOrKeyword
            (part, kind) :: readParts star rest

theorem readParts_slash : readParts star ("/" :: rest) = readParts star rest := by simp [readParts]

theorem readParts_star : readParts star ("*" :: rest) = readParts true rest := by simp [readParts]

theorem exists_first (identifier : isIdentifier name = true) :
    ∃ first later, name.toList = first :: later ∧ '*' ≠ first ∧ '/' ≠ first := by
  obtain ⟨first, later, text, starts, _⟩ := exists_of_isIdentifier identifier
  refine ⟨first, later, text, ?_, ?_⟩
  all_goals
    rintro rfl
    revert starts
    decide

theorem readParts_name (identifier : isIdentifier name = true) :
    readParts star (name :: rest) =
      (name, if star then .keywordOnly else if "/" ∈ rest then .positionalOnly else .positionalOrKeyword) ::
        readParts star rest := by
  obtain ⟨first, later, text, noStar, noSlash⟩ := exists_first identifier
  have apart {c : Char} {more : List Char} (other : c ≠ first) : name.toList ≠ c :: more :=
    fun same => other (List.cons.inj (same.symm.trans text)).1
  rw [readParts, if_neg fun same => apart noSlash (congrArg String.toList same),
    if_neg fun same => apart noStar (congrArg String.toList same)]
  split
  · rename_i stars
    cases apart noStar stars
  · rename_i stars
    cases apart noStar stars
  · rfl

theorem readParts_varPositional (identifier : isIdentifier name = true) :
    readParts star (("*" ++ name) :: rest) = (name, .varPositional) :: readParts true rest := by
  obtain ⟨first, later, text, noStar, _⟩ := exists_first identifier
  have written : ("*" ++ name).toList = '*' :: first :: later := by simp [text]
  rw [readParts, if_neg (by intro same; simp [same] at written), if_neg (by intro same; simp [same] at written)]
  split
  · rename_i stars
    cases noStar (List.cons.inj (List.cons.inj (stars.symm.trans written)).2).1
  · rename_i stars
    rw [← (List.cons.inj (written.symm.trans stars)).2, ← text, String.ofList_toList]
  · rename_i other
    cases other _ written

theorem readParts_varKeyword (identifier : isIdentifier name = true) :
    readParts star (("**" ++ name) :: rest) = (name, .varKeyword) :: readParts star rest := by
  obtain ⟨first, later, text, _⟩ := exists_first identifier
  have written : ("**" ++ name).toList = '*' :: '*' :: first :: later := by simp [text]
  rw [readParts, if_neg (by intro same; simp [same] at written), if_neg (by intro same; simp [same] at written)]
  simp only [written, ← text, String.ofList_toList]

theorem render_bare (bare : param.Bare) : param.render = param.kind.stars ++ param.name := by
  simp [Parameter.render, bare.default, bare.hint]

/-- The slash behind positional-only parameters. -/
def closing (slash : Bool) : List String := if slash then ["/"] else []

theorem readParts_closing : readParts star (closing slash ++ rest) = readParts star rest := by
  cases slash with
  | false => rfl
  | true => exact readParts_slash

section kinds

variable (bare : param.Bare)

include bare

theorem partsFrom_positionalOnly (kind : param.kind = .positionalOnly) :
    partsFrom slash star (param :: params) = param.name :: partsFrom true star params := by
  rw [partsFrom, render_bare bare, kind]
  cases slash <;> cases star <;> simp [ParamKind.stars] <;> rfl

theorem partsFrom_positionalOrKeyword (kind : param.kind = .positionalOrKeyword) :
    partsFrom slash star (param :: params) = closing slash ++ param.name :: partsFrom false star params := by
  rw [partsFrom, render_bare bare, kind]
  cases slash <;> cases star <;> simp [ParamKind.stars, closing] <;> rfl

theorem partsFrom_varPositional (kind : param.kind = .varPositional) :
    partsFrom slash star (param :: params) = closing slash ++ ("*" ++ param.name) :: partsFrom false true params := by
  rw [partsFrom, render_bare bare, kind]
  cases slash <;> cases star <;> simp [ParamKind.stars, closing] <;> rfl

theorem partsFrom_keywordOnly (kind : param.kind = .keywordOnly) :
    partsFrom slash star (param :: params) =
      closing slash ++ (if star then [] else ["*"]) ++ param.name :: partsFrom false true params := by
  rw [partsFrom, render_bare bare, kind]
  cases slash <;> cases star <;> simp [ParamKind.stars, closing] <;> rfl

theorem partsFrom_varKeyword (kind : param.kind = .varKeyword) :
    partsFrom slash star (param :: params) = closing slash ++ ("**" ++ param.name) :: partsFrom false star params := by
  rw [partsFrom, render_bare bare, kind]
  cases slash <;> cases star <;> simp [ParamKind.stars, closing] <;> rfl

end kinds

theorem slash_mem_partsFrom (star : Bool) (params : List Parameter) : "/" ∈ partsFrom true star params := by
  induction params generalizing star with
  | nil => simp [partsFrom]
  | cons param params ih =>
      rw [partsFrom]
      by_cases positional : param.kind = .positionalOnly
      · simp [positional, ih]
      · simp [positional]

theorem slash_ne_part (bare : param.Bare) : "/" ≠ param.kind.stars ++ param.name := by
  obtain ⟨first, later, text, noStar, noSlash⟩ := exists_first bare.name
  intro same
  have texts := congrArg String.toList same
  rw [String.toList_append, text] at texts
  cases kind : param.kind
  all_goals
    rw [kind] at texts
    simp only [ParamKind.stars, String.reduceToList, List.nil_append, List.cons_append, List.cons.injEq] at texts
  · exact noSlash texts.1
  · exact noSlash texts.1
  · cases texts.1
  · exact noSlash texts.1
  · cases texts.1

theorem slash_notMem_partsFrom (bare : ∀ param ∈ params, param.Bare)
    (closed : ∀ param ∈ params, param.kind ≠ .positionalOnly) : "/" ∉ partsFrom false star params := by
  induction params generalizing star with
  | nil => simp [partsFrom]
  | cons param params ih =>
      have bareHere := bare param List.mem_cons_self
      rw [partsFrom]
      simp only [Bool.false_eq_true, false_and, ↓reduceIte, List.nil_append, List.mem_append, render_bare bareHere,
        List.mem_cons, beq_false_of_ne (closed param List.mem_cons_self), not_or]
      refine ⟨?_, slash_ne_part bareHere, ih (fun param among => bare param (List.mem_cons_of_mem _ among))
        (fun param among => closed param (List.mem_cons_of_mem _ among))⟩
      split <;> simp

/-- The parameters stand in the order of the groups. -/
def Ordered (params : List Parameter) : Prop :=
  params.Pairwise fun before behind => before.kind.rank ≤ behind.kind.rank

theorem readParts_partsFrom (bare : ∀ param ∈ params, param.Bare) (ordered : Ordered params)
    (behind : star = true → ∀ param ∈ params, ParamKind.varPositional.rank ≤ param.kind.rank) :
    readParts star (partsFrom slash star params) = params.map fun param => (param.name, param.kind) := by
  induction params generalizing slash star with
  | nil => cases slash <;> simp [partsFrom, readParts]
  | cons param params ih =>
      obtain ⟨above, ordered⟩ := List.pairwise_cons.mp ordered
      have bareHere := bare param List.mem_cons_self
      have named := bareHere.name
      have bareLater : ∀ param ∈ params, param.Bare := fun param among => bare param (List.mem_cons_of_mem _ among)
      have later (opened : Bool) : readParts star (partsFrom opened star params) =
          params.map fun param => (param.name, param.kind) :=
        ih bareLater ordered fun passed param among => behind passed param (List.mem_cons_of_mem _ among)
      rw [List.map_cons]
      cases kind : param.kind with
      | positionalOnly =>
          have unstarred : star = false := by
            simpa [kind, ParamKind.rank] using fun passed => behind passed param List.mem_cons_self
          rw [partsFrom_positionalOnly bareHere kind, readParts_name named, later, unstarred]
          simp [slash_mem_partsFrom]
      | positionalOrKeyword =>
          have unstarred : star = false := by
            simpa [kind, ParamKind.rank] using fun passed => behind passed param List.mem_cons_self
          have closed : "/" ∉ partsFrom false star params := by
            refine slash_notMem_partsFrom bareLater fun later among positional => ?_
            simpa [kind, positional, ParamKind.rank] using above later among
          rw [partsFrom_positionalOrKeyword bareHere kind, readParts_closing, readParts_name named, later, unstarred]
          simp [unstarred ▸ closed]
      | varPositional =>
          rw [partsFrom_varPositional bareHere kind, readParts_closing, readParts_varPositional named]
          rw [ih bareLater ordered fun _ later among => kind ▸ above later among]
      | keywordOnly =>
          have passed : ∀ later ∈ params, ParamKind.varPositional.rank ≤ later.kind.rank :=
            fun later among => Nat.le_trans (kind ▸ by decide) (above later among)
          rw [partsFrom_keywordOnly bareHere kind, List.append_assoc, readParts_closing]
          cases star with
          | false => simp [readParts_star, readParts_name named, ih bareLater ordered fun _ => passed]
          | true => simp [readParts_name named, ih bareLater ordered fun _ => passed]
      | varKeyword =>
          rw [partsFrom_varKeyword bareHere kind, readParts_closing, readParts_varKeyword named, later]

/-- The parts of a signature, group by group: the slash closes positional-only parameters, and a bare star opens
keyword-only ones unless a parameter with a star does. -/
def layout (args : Arguments) : List String :=
  args.posOnlyArgs.map Arg.name ++ closing (!args.posOnlyArgs.isEmpty) ++ args.args.map Arg.name
    ++ (match args.varArg with
      | some arg => ["*" ++ arg.name]
      | none => if args.kwOnlyArgs.isEmpty then [] else ["*"])
    ++ args.kwOnlyArgs.map Arg.name ++ args.kwArg.toList.map fun arg => "**" ++ arg.name

/-- A parameter with a name and a kind alone. -/
def named (kind : ParamKind) (arg : Arg) : Parameter := { name := arg.name, kind, default := none, hint := none }

theorem bare_named (kind : ParamKind) {arg : Arg} (identifier : isIdentifier arg.name = true) :
    (named kind arg).Bare := ⟨identifier, rfl, rfl⟩

section groups

variable {group : List Arg} (identifiers : ∀ arg ∈ group, isIdentifier arg.name = true)

include identifiers

theorem partsFrom_positionalOnlys :
    partsFrom slash star (group.map (named .positionalOnly) ++ params) =
      group.map Arg.name ++ partsFrom (slash || !group.isEmpty) star params := by
  induction group generalizing slash with
  | nil => simp
  | cons arg group ih =>
      rw [List.map_cons, List.cons_append, partsFrom_positionalOnly (bare_named _ (identifiers arg List.mem_cons_self)) rfl,
        ih fun arg among => identifiers arg (List.mem_cons_of_mem _ among)]
      simp [named]

theorem partsFrom_positionalOrKeywords :
    partsFrom false star (group.map (named .positionalOrKeyword) ++ params) =
      group.map Arg.name ++ partsFrom false star params := by
  induction group with
  | nil => rfl
  | cons arg group ih =>
      rw [List.map_cons, List.cons_append,
        partsFrom_positionalOrKeyword (bare_named _ (identifiers arg List.mem_cons_self)) rfl,
        ih fun arg among => identifiers arg (List.mem_cons_of_mem _ among)]
      rfl

theorem partsFrom_keywordOnlys :
    partsFrom false star (group.map (named .keywordOnly) ++ params) =
      (if star || group.isEmpty then [] else ["*"]) ++ group.map Arg.name ++
        partsFrom false (star || !group.isEmpty) params := by
  induction group generalizing star with
  | nil => simp
  | cons arg group ih =>
      rw [List.map_cons, List.cons_append, partsFrom_keywordOnly (bare_named _ (identifiers arg List.mem_cons_self)) rfl,
        ih fun arg among => identifiers arg (List.mem_cons_of_mem _ among)]
      cases star <;> simp [named, closing]

theorem partsFrom_varKeywords :
    partsFrom false star (group.map (named .varKeyword)) = group.map fun arg => "**" ++ arg.name := by
  induction group with
  | nil => rfl
  | cons arg group ih =>
      rw [List.map_cons, partsFrom_varKeyword (bare_named _ (identifiers arg List.mem_cons_self)) rfl,
        ih fun arg among => identifiers arg (List.mem_cons_of_mem _ among)]
      rfl

end groups

/-- Parameters of other kinds close the positional-only ones before them. -/
theorem partsFrom_closing (others : ∀ param ∈ params, param.Bare ∧ param.kind ≠ .positionalOnly) :
    partsFrom slash star params = closing slash ++ partsFrom false star params := by
  cases params with
  | nil => cases slash <;> rfl
  | cons param params =>
      obtain ⟨bare, other⟩ := others param List.mem_cons_self
      cases kind : param.kind with
      | positionalOnly => cases other kind
      | positionalOrKeyword => simp [partsFrom_positionalOrKeyword bare kind, closing]
      | varPositional => simp [partsFrom_varPositional bare kind, closing]
      | keywordOnly => simp [partsFrom_keywordOnly bare kind, closing]
      | varKeyword => simp [partsFrom_varKeyword bare kind, closing]

theorem partsFrom_listed (identifiers : ∀ entry ∈ args.listed, isIdentifier entry.1.name = true) :
    partsFrom false false (args.listed.map fun entry => named entry.2 entry.1) = layout args := by
  simp only [Arguments.listed, List.forall_mem_append, List.forall_mem_map] at identifiers
  obtain ⟨⟨⟨⟨positionalOnly, positionalOrKeyword⟩, varPositional⟩, keywordOnly⟩, varKeyword⟩ := identifiers
  simp only [Arguments.listed, List.map_append, List.map_map, Function.comp_def, List.append_assoc]
  rw [partsFrom_positionalOnlys positionalOnly, partsFrom_closing, partsFrom_positionalOrKeywords positionalOrKeyword,
    layout]
  · simp only [List.append_assoc, Bool.false_or, List.append_cancel_left_eq]
    cases var : args.varArg with
    | none =>
        rw [Option.toList_none, List.map_nil, List.nil_append, partsFrom_keywordOnlys keywordOnly,
          partsFrom_varKeywords varKeyword]
        simp
    | some arg =>
        have identifier := varPositional arg (by simp [var])
        rw [Option.toList_some, List.map_singleton, List.singleton_append,
          partsFrom_varPositional (bare_named _ identifier) rfl, partsFrom_keywordOnlys keywordOnly,
          partsFrom_varKeywords varKeyword]
        simp [named, closing]
  · simp only [List.forall_mem_append, List.forall_mem_map]
    exact ⟨fun arg among => ⟨bare_named _ (positionalOrKeyword arg among), by simp [named]⟩,
      fun arg among => ⟨bare_named _ (varPositional arg among), by simp [named]⟩,
      fun arg among => ⟨bare_named _ (keywordOnly arg among), by simp [named]⟩,
      fun arg among => ⟨bare_named _ (varKeyword arg among), by simp [named]⟩⟩

/-- A signature without defaults and hints. -/
structure Bare (signature : Signature) : Prop where
  params : ∀ param ∈ signature.params, param.Bare
  returns : signature.returns = none

theorem mem_alignStart {length : Nat} {default : Option Expr} {defaults : List (Option Expr)}
    (member : default ∈ alignStart length defaults) : default = none ∨ default ∈ defaults := by
  obtain ⟨j, below, found⟩ := List.getElem_of_mem member
  have aligned := getElem?_alignStart defaults (length_alignStart length defaults ▸ below)
  rw [List.getElem?_eq_getElem below, found, Option.some.injEq] at aligned
  cases given : defaults[j]? with
  | none => exact .inl (by simpa [given] using aligned)
  | some value => exact .inr (aligned ▸ by simpa [given] using List.mem_of_getElem? given)

/-- Arguments that are written as identifiers alone have such a signature. -/
theorem bare_of_build {signature : Signature} (names : ∀ name ∈ args.names, isIdentifier name = true)
    (hints : ∀ entry ∈ args.listed, entry.1.hint = none) (defaults : args.defaults = [])
    (kwDefaults : ∀ default ∈ args.kwDefaults, default = none) (built : build args none = .ok signature) :
    signature.Bare := by
  obtain ⟨fits, _, rfl⟩ := build_eq_ok_iff.mp built
  have absent : ∀ default ∈ defaultsOf args, default = none := by
    simp only [defaultsOf, defaults, alignEnd, List.forall_mem_append, List.forall_mem_map]
    refine ⟨⟨⟨⟨by simp, by simp⟩, by simp⟩, fun default member => ?_⟩, by simp⟩
    exact (mem_alignStart member).elim id (kwDefaults default)
  refine ⟨fun param member => ?_, rfl⟩
  rw [parametersOf_eq_zipWith fits] at member
  obtain ⟨entry, listed, default, among, rfl⟩ := exists_of_mem_zipWith member
  refine ⟨names _ (List.mem_map_of_mem listed), absent default among, ?_⟩
  simp [parameterOf, parameter, hints entry listed]

theorem ordered_of_kinds (kinds : params.map Parameter.kind = args.listed.map Prod.snd) : Ordered params := by
  have ranks : (params.map Parameter.kind).Pairwise fun before behind => before.rank ≤ behind.rank := by
    rw [kinds, List.pairwise_map]
    simp only [Arguments.listed, List.pairwise_append, List.pairwise_map, List.mem_append, List.mem_map]
    grind [ParamKind.rank, List.pairwise_of_forall]
  rwa [List.pairwise_map] at ranks

theorem mem_partsFrom {part : String} (member : part ∈ partsFrom slash star params) :
    part = "/" ∨ part = "*" ∨ ∃ param ∈ params, part = param.render := by
  induction params generalizing slash star with
  | nil =>
      rw [partsFrom] at member
      exact .inl (by cases slash <;> simp_all)
  | cons param params ih =>
      rw [partsFrom, List.mem_append, List.mem_append, List.mem_cons] at member
      rcases member with (slash | star) | here | later
      · exact .inl (by split at slash <;> simp_all)
      · exact .inr (.inl (by split at star <;> simp_all))
      · exact .inr (.inr ⟨param, List.mem_cons_self, here⟩)
      · rcases ih later with slash | star | ⟨other, among, written⟩
        · exact .inl slash
        · exact .inr (.inl star)
        · exact .inr (.inr ⟨other, List.mem_cons_of_mem _ among, written⟩)

theorem clean_part (bare : param.Bare) : param.render.toList ≠ [] ∧ ',' ∉ param.render.toList := by
  obtain ⟨first, later, text, _⟩ := exists_first bare.name
  have free : ',' ∉ param.name.toList := notMem_of_isIdentifier bare.name (by decide)
  have freeStars : ',' ∉ param.kind.stars.toList := by cases param.kind <;> decide
  rw [render_bare bare, String.toList_append]
  exact ⟨by simp [text], by simp [free, freeStars]⟩

theorem clean_parts {signature : Signature} (bare : signature.Bare) :
    ∀ part ∈ signature.parts.map String.toList, part ≠ [] ∧ ',' ∉ part := by
  intro part member
  obtain ⟨written, among, rfl⟩ := List.mem_map.mp member
  rcases mem_partsFrom among with rfl | rfl | ⟨param, listed, rfl⟩
  · decide
  · decide
  · exact clean_part (bare.params param listed)

theorem parts_of_render {signature other : Signature} (bare : signature.Bare) (bareOther : other.Bare)
    (same : signature.render = other.render) : signature.parts = other.parts := by
  simp only [render, bare.returns, bareOther.returns, String.append_empty] at same
  have texts := congrArg String.toList same
  simp only [String.toList_append, List.append_cancel_left_eq, List.append_cancel_right_eq,
    String.toList_intercalate] at texts
  have parts := intercalate_injective (clean_parts bare) (clean_parts bareOther) texts
  exact List.map_injective_iff.mpr (fun _ _ => String.toList_inj.mp) parts

theorem eq_map_of_bare (bare : ∀ param ∈ params, param.Bare) :
    params = (params.map fun param => (param.name, param.kind)).map fun shown => named shown.2 ⟨shown.1, none⟩ := by
  rw [List.map_map]
  refine (List.map_id params).symm.trans (List.map_congr_left fun param among => ?_)
  obtain ⟨_, default, hint⟩ := bare param among
  cases param
  simp_all [named]

section built

variable {returns : Option Expr} {signature : Signature} (built : build args returns = .ok signature)

include built

theorem shown_of_build :
    signature.params.map (fun param => (param.name, param.kind)) =
      args.listed.map fun entry => (entry.1.name, entry.2) := by
  obtain ⟨fits, _, rfl⟩ := build_eq_ok_iff.mp built
  exact map_parametersOf (fun _ _ => rfl) fits

theorem readParts_of_build (bare : signature.Bare) :
    readParts false signature.parts = signature.params.map fun param => (param.name, param.kind) := by
  have kinds := congrArg (List.map Prod.snd) (shown_of_build built)
  rw [List.map_map, List.map_map] at kinds
  exact readParts_partsFrom bare.params (ordered_of_kinds kinds) (by simp)

theorem parts_of_build (bare : signature.Bare) : signature.parts = layout args := by
  have shown := shown_of_build built
  have params : signature.params = args.listed.map fun entry => named entry.2 entry.1 := by
    rw [eq_map_of_bare bare.params, shown, List.map_map]
    rfl
  rw [parts, params]
  refine partsFrom_listed fun entry among => ?_
  have listed : named entry.2 entry.1 ∈ signature.params := params ▸ List.mem_map_of_mem among
  exact (bare.params _ listed).name

end built

/-- Of two signatures that are written without defaults and hints, the texts are the same just when the names and
kinds are. The slash and the bare star stand where the groups need them. -/
theorem render_shows_kinds {args others : Arguments} {returns hint : Option Expr} {signature other : Signature}
    (built : build args returns = .ok signature) (builtOther : build others hint = .ok other)
    (bare : signature.Bare) (bareOther : other.Bare) :
    (signature.render = other.render ↔
        signature.params.map (fun param => (param.name, param.kind)) =
          other.params.map (fun param => (param.name, param.kind))) ∧
      signature.parts = layout args := by
  refine ⟨⟨fun same => ?_, fun shown => ?_⟩, parts_of_build built bare⟩
  · rw [← readParts_of_build built bare, ← readParts_of_build builtOther bareOther,
      parts_of_render bare bareOther same]
  · have params : signature.params = other.params := by
      rw [eq_map_of_bare bare.params, shown, ← eq_map_of_bare bareOther.params]
    rw [render, render, parts, parts, params, bare.returns, bareOther.returns]

/-- Parameters of one kind each, by position and by keyword. -/
def strict : Arguments := { posOnlyArgs := [⟨"a", none⟩], kwOnlyArgs := [⟨"c", none⟩] }

def lenient : Arguments := { args := [⟨"a", none⟩, ⟨"c", none⟩] }

theorem render_strict_lenient :
    ∃ first second, build strict none = .ok first ∧ build lenient none = .ok second ∧ first.Bare ∧ second.Bare ∧
      first.parts = ["a", "/", "*", "c"] ∧ second.parts = ["a", "c"] ∧ first.render ≠ second.render := by
  have built : build strict none = .ok ⟨parametersOf strict, none⟩ := rfl
  have builtOther : build lenient none = .ok ⟨parametersOf lenient, none⟩ := rfl
  have bare := bare_of_build (by decide) (by simp [strict, Arguments.listed]) rfl (by simp [strict]) built
  have bareOther := bare_of_build (by decide) (by simp [lenient, Arguments.listed]) rfl (by simp [lenient]) builtOther
  obtain ⟨texts, layout⟩ := render_shows_kinds built builtOther bare bareOther
  obtain ⟨_, layoutOther⟩ := render_shows_kinds builtOther built bareOther bare
  exact ⟨_, _, built, builtOther, bare, bareOther, layout, layoutOther, mt texts.mp (by decide)⟩

end Signature

end DocGraph
