import Mathlib.Data.List.Nodup
import DocGraph.Signature

namespace DocGraph

variable {args : Arguments}

namespace Arguments

/-- The number of parameters that may be given by position. -/
def positionals (args : Arguments) : Nat := args.posOnlyArgs.length + args.args.length

/-- The parameters of all groups, in order, with their kinds. -/
def listed (args : Arguments) : List (Arg × ParamKind) :=
  args.posOnlyArgs.map (·, .positionalOnly) ++ args.args.map (·, .positionalOrKeyword)
    ++ args.varArg.toList.map (·, .varPositional) ++ args.kwOnlyArgs.map (·, .keywordOnly)
    ++ args.kwArg.toList.map (·, .varKeyword)

def names (args : Arguments) : List String := args.listed.map fun entry => entry.1.name

end Arguments

namespace Signature

theorem length_positional (args : Arguments) : (positional args).length = args.positionals := by
  simp [positional, Arguments.positionals]

theorem listed_eq (args : Arguments) :
    args.listed = positional args ++ args.varArg.toList.map (·, .varPositional)
      ++ args.kwOnlyArgs.map (·, .keywordOnly) ++ args.kwArg.toList.map (·, .varKeyword) := rfl

theorem length_alignEnd {length : Nat} {defaults : List Expr} (fits : defaults.length ≤ length) :
    (alignEnd length defaults).length = length := by
  simp [alignEnd]
  omega

theorem getElem?_alignEnd {length i : Nat} {defaults : List Expr} (fits : defaults.length ≤ length)
    (below : i < length) :
    (alignEnd length defaults)[i]? =
      some (if length - defaults.length ≤ i then defaults[i - (length - defaults.length)]? else none) := by
  rw [alignEnd, List.getElem?_append, List.length_replicate]
  by_cases early : i < length - defaults.length
  · rw [if_pos early, if_neg (by omega), List.getElem?_replicate, if_pos early]
  · have within : i - (length - defaults.length) < defaults.length := by omega
    rw [if_neg early, if_pos (by omega), List.getElem?_map, List.getElem?_eq_getElem within, Option.map_some]

theorem length_alignStart (length : Nat) (defaults : List (Option Expr)) :
    (alignStart length defaults).length = length := by
  fun_induction alignStart length defaults with
  | case1 => rfl
  | case2 length ih => rw [List.length_cons, ih]
  | case3 length default rest ih => rw [List.length_cons, ih]

theorem getElem?_alignStart {length j : Nat} (defaults : List (Option Expr)) (below : j < length) :
    (alignStart length defaults)[j]? = some defaults[j]?.join := by
  induction length generalizing j defaults with
  | zero => omega
  | succ length ih =>
      cases defaults with
      | nil =>
          rw [alignStart]
          cases j with
          | zero => rfl
          | succ j => simpa using ih [] (by omega)
      | cons default rest =>
          rw [alignStart]
          cases j with
          | zero => rfl
          | succ j => simpa using ih rest (by omega)

/-- The defaults of all parameters, in order. -/
def defaultsOf (args : Arguments) : List (Option Expr) :=
  alignEnd args.positionals args.defaults ++ args.varArg.toList.map (fun _ => none)
    ++ alignStart args.kwOnlyArgs.length args.kwDefaults ++ args.kwArg.toList.map (fun _ => none)

def parameterOf (entry : Arg × ParamKind) (default : Option Expr) : Parameter := parameter entry.2 entry.1 default

theorem zipWith_none (kind : ParamKind) (arg : Option Arg) :
    List.zipWith parameterOf (arg.toList.map (·, kind)) (arg.toList.map fun _ => none) =
      arg.toList.map (parameter kind · none) := by
  cases arg <;> rfl

theorem parametersOf_eq_zipWith (fits : args.defaults.length ≤ args.positionals) :
    parametersOf args = List.zipWith parameterOf args.listed (defaultsOf args) := by
  have along : (positional args).length = (alignEnd args.positionals args.defaults).length := by
    rw [length_positional, length_alignEnd fits]
  rw [listed_eq, defaultsOf, List.zipWith_append, List.zipWith_append, List.zipWith_append along, zipWith_none,
    zipWith_none, List.zipWith_map_left, parametersOf, length_positional]
  · rfl
  · rw [List.length_append, List.length_append, List.length_map, List.length_map]
    exact congrArg (· + _) along
  · rw [List.length_append, List.length_append, List.length_append, List.length_append, List.length_map,
      List.length_map, List.length_map, length_alignStart]
    exact congrArg (· + _ + _) along

theorem length_defaultsOf (fits : args.defaults.length ≤ args.positionals) :
    (defaultsOf args).length = args.listed.length := by
  simp [defaultsOf, listed_eq, length_alignEnd fits, length_alignStart, length_positional]

theorem map_parametersOf {α : Type*} {read : Parameter → α} {given : Arg × ParamKind → α}
    (same : ∀ entry default, read (parameterOf entry default) = given entry)
    (fits : args.defaults.length ≤ args.positionals) : (parametersOf args).map read = args.listed.map given := by
  rw [parametersOf_eq_zipWith fits, List.map_zipWith]
  refine List.ext_getElem ?_ fun i _ _ => ?_
  · simp [length_defaultsOf fits]
  · simp [same]

theorem map_default_parametersOf (fits : args.defaults.length ≤ args.positionals) :
    (parametersOf args).map Parameter.default = defaultsOf args := by
  rw [parametersOf_eq_zipWith fits, List.map_zipWith]
  refine List.ext_getElem ?_ fun i _ _ => ?_
  · simp [length_defaultsOf fits]
  · simp [parameterOf, parameter]

theorem getElem?_defaultsOf_positional (fits : args.defaults.length ≤ args.positionals) {i : Nat}
    (below : i < args.positionals) :
    (defaultsOf args)[i]? =
      some (if args.positionals - args.defaults.length ≤ i
        then args.defaults[i - (args.positionals - args.defaults.length)]? else none) := by
  have early : i < (alignEnd args.positionals args.defaults).length := by rwa [length_alignEnd fits]
  rw [defaultsOf, List.append_assoc, List.append_assoc, List.getElem?_append_left early, getElem?_alignEnd fits below]

theorem getElem?_defaultsOf_keywordOnly (fits : args.defaults.length ≤ args.positionals) {j : Nat}
    (below : j < args.kwOnlyArgs.length) :
    (defaultsOf args)[args.positionals + args.varArg.toList.length + j]? = some args.kwDefaults[j]?.join := by
  have before : (alignEnd args.positionals args.defaults ++
      args.varArg.toList.map (fun _ => (none : Option Expr))).length =
        args.positionals + args.varArg.toList.length := by
    rw [List.length_append, length_alignEnd fits, List.length_map]
  rw [defaultsOf, List.append_assoc, List.getElem?_append_right (by omega), before, Nat.add_sub_cancel_left,
    List.getElem?_append_left (by rwa [length_alignStart]), getElem?_alignStart _ below]

theorem exists_of_mem_zipWith {α β γ : Type*} {f : α → β → γ} {left : List α} {right : List β} {c : γ}
    (member : c ∈ List.zipWith f left right) : ∃ a ∈ left, ∃ b ∈ right, c = f a b := by
  rw [← List.map_uncurry_zip_eq_zipWith] at member
  obtain ⟨pair, among, rfl⟩ := List.mem_map.mp member
  exact ⟨pair.1, (List.of_mem_zip among).1, pair.2, (List.of_mem_zip among).2, rfl⟩

theorem default_of_rest {param : Parameter} (member : param ∈ parametersOf args)
    (rest : param.kind = .varPositional ∨ param.kind = .varKeyword) : param.default = none := by
  simp only [parametersOf, List.mem_append] at member
  rcases member with ((positionals | var) | keywords) | var
  · obtain ⟨entry, among, _, _, rfl⟩ := exists_of_mem_zipWith positionals
    simp only [positional, List.mem_append, List.mem_map] at among
    rcases among with ⟨_, _, rfl⟩ | ⟨_, _, rfl⟩ <;> simp [parameter] at rest
  · obtain ⟨_, _, rfl⟩ := List.mem_map.mp var
    rfl
  · obtain ⟨_, _, _, _, rfl⟩ := exists_of_mem_zipWith keywords
    simp [parameter] at rest
  · obtain ⟨_, _, rfl⟩ := List.mem_map.mp var
    rfl

theorem firstRepeated?_eq_none_iff {seen names : List String} :
    firstRepeated? seen names = none ↔ names.Nodup ∧ ∀ name ∈ names, name ∉ seen := by
  induction names generalizing seen with
  | nil => simp [firstRepeated?]
  | cons name rest ih =>
      rw [firstRepeated?]
      by_cases repeated : name ∈ seen
      · simp [repeated]
      · rw [if_neg repeated, ih, List.nodup_cons]
        constructor
        · rintro ⟨distinct, apart⟩
          refine ⟨⟨fun again => apart name again List.mem_cons_self, distinct⟩, fun other among => ?_⟩
          rcases List.mem_cons.mp among with rfl | later
          · exact repeated
          · exact fun earlier => apart other later (List.mem_cons_of_mem _ earlier)
        · rintro ⟨⟨once, distinct⟩, apart⟩
          refine ⟨distinct, fun other later again => ?_⟩
          rcases List.mem_cons.mp again with rfl | earlier
          · exact once later
          · exact apart other (List.mem_cons_of_mem _ later) earlier

theorem build_eq_ok_iff {returns : Option Expr} {signature : Signature} :
    build args returns = .ok signature ↔
      args.defaults.length ≤ args.positionals ∧ args.names.Nodup ∧
        signature = { params := parametersOf args
                      returns := (returns.filter fun expr => !expr.isNone).map Expr.unstring } := by
  rw [build, length_positional]
  split
  · rename_i excess
    simp
    omega
  · rename_i within
    have fits := Nat.le_of_not_lt within
    have names : (parametersOf args).map Parameter.name = args.names := map_parametersOf (fun _ _ => rfl) fits
    dsimp only
    rw [names]
    cases found : firstRepeated? [] args.names with
    | none =>
        have distinct := (firstRepeated?_eq_none_iff.mp found).1
        simp [fits, distinct, eq_comm]
    | some name =>
        have repeated : ¬ args.names.Nodup := fun distinct => by
          rw [firstRepeated?_eq_none_iff.mpr ⟨distinct, by simp⟩] at found
          cases found
        simp [repeated]

/-- A definition has a signature just when its defaults fit and its names differ. The parameters are then the
listed ones in order, the last positional ones and the keyword-only ones with the defaults along them. -/
theorem build_faithful (args : Arguments) (returns : Option Expr) :
    let m := args.posOnlyArgs.length + args.args.length
    let d := args.defaults.length
    ((∃ signature, build args returns = .ok signature) ↔ d ≤ m ∧ args.names.Nodup) ∧
      ∀ signature, build args returns = .ok signature →
        signature.params.map (fun param => (param.name, param.kind, param.hint)) =
            args.listed.map (fun entry => (entry.1.name, entry.2, entry.1.hint.map Expr.unstring)) ∧
          (∀ i < m, signature.params[i]?.map Parameter.default =
            some (if m - d ≤ i then args.defaults[i - (m - d)]? else none)) ∧
          (∀ j < args.kwOnlyArgs.length,
            signature.params[m + args.varArg.toList.length + j]?.map Parameter.default =
              some args.kwDefaults[j]?.join) ∧
          (∀ param ∈ signature.params, param.kind = .varPositional ∨ param.kind = .varKeyword →
            param.default = none) ∧
          signature.returns = (returns.filter fun expr => !expr.isNone).map Expr.unstring := by
  intro m d
  refine ⟨?_, fun signature built => ?_⟩
  · simp only [build_eq_ok_iff]
    exact ⟨fun built => ⟨built.choose_spec.1, built.choose_spec.2.1⟩, fun fits => ⟨_, fits.1, fits.2, rfl⟩⟩
  · obtain ⟨fits, _, rfl⟩ := build_eq_ok_iff.mp built
    have defaults (i : Nat) : (parametersOf args)[i]?.map Parameter.default = (defaultsOf args)[i]? := by
      rw [← map_default_parametersOf fits, List.getElem?_map]
    refine ⟨map_parametersOf (fun _ _ => rfl) fits, fun i below => ?_, fun j below => ?_, ?_, rfl⟩
    · exact (defaults i).trans (getElem?_defaultsOf_positional fits below)
    · exact (defaults _).trans (getElem?_defaultsOf_keywordOnly fits below)
    · exact fun _ member rest => default_of_rest member rest

/-- Parameters of every kind, with fewer defaults than positional parameters and a gap among the others. -/
def everyKind : Arguments :=
  { posOnlyArgs := [⟨"a", none⟩], args := [⟨"b", some (.str "int")⟩], varArg := some ⟨"rest", none⟩
    kwOnlyArgs := [⟨"c", none⟩, ⟨"d", none⟩], kwDefaults := [none, some (.constant (.int 2))]
    kwArg := some ⟨"options", none⟩, defaults := [.constant (.int 1)] }

theorem build_faithful_everyKind :
    everyKind.names.Nodup ∧ ∃ signature, build everyKind none = .ok signature ∧
      signature.params.map (fun param => (param.name, param.kind, param.hint)) =
        [("a", .positionalOnly, none), ("b", .positionalOrKeyword, some (.name "int")),
          ("rest", .varPositional, none), ("c", .keywordOnly, none), ("d", .keywordOnly, none),
          ("options", .varKeyword, none)] ∧
      (∀ i < 2, signature.params[i]?.map Parameter.default =
        some (if 1 ≤ i then [.constant (.int 1)][i - 1]? else none)) ∧
      signature.params[4]?.map Parameter.default = some (some (.constant (.int 2))) := by
  obtain ⟨succeeds, each⟩ := build_faithful everyKind none
  obtain ⟨signature, built⟩ := succeeds.mpr ⟨by decide, by decide⟩
  obtain ⟨listed, positionals, keywords, _⟩ := each signature built
  have hint : Expr.unstring (.str "int") = .name "int" := by cbv
  refine ⟨by decide, signature, built, listed.trans ?_, positionals, keywords 1 (by decide)⟩
  simp [everyKind, Arguments.listed, hint]

end Signature

end DocGraph
