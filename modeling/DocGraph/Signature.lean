import DocGraph.Stmt.Basic
import DocGraph.Expr.Render
import DocGraph.Expr.Hint

/-!
Signatures of functions. A signature lists its parameters in the order of Python's grammar, each
with its kind, and is written with the markers `/` and `*` where the kinds change.
-/
namespace DocGraph

inductive ParamKind where
  | positionalOnly
  | positionalOrKeyword
  | varPositional
  | keywordOnly
  | varKeyword
deriving DecidableEq, Repr

structure Parameter where
  name : String
  kind : ParamKind
  default : Option Expr
  hint : Option Expr
deriving BEq, Repr

/-- The return hint of a function that returns `None` is left out. -/
structure Signature where
  params : List Parameter := []
  returns : Option Expr := none
deriving BEq, Repr

namespace ParamKind

/-- The stars before a parameter's name. -/
def stars : ParamKind → String
  | varPositional => "*"
  | varKeyword => "**"
  | _ => ""

def tag : ParamKind → String
  | positionalOnly => "positional_only"
  | positionalOrKeyword => "positional_or_keyword"
  | varPositional => "var_positional"
  | keywordOnly => "keyword_only"
  | varKeyword => "var_keyword"

def all : List ParamKind :=
  [positionalOnly, positionalOrKeyword, varPositional, keywordOnly, varKeyword]

end ParamKind

def Parameter.render (param : Parameter) : String :=
  let hint :=
    match param.hint with
    | some hint => ": " ++ hint.render
    | none => ""
  let default :=
    match param.default with
    | some value => (if param.hint.isSome then " = " else "=") ++ value.render
    | none => ""
  param.kind.stars ++ param.name ++ hint ++ default

namespace Signature

/-- The parts between the parentheses. `slash` says that positional-only parameters are still open,
`star` that a star has been written. -/
def partsFrom (slash star : Bool) : List Parameter → List String
  | [] => if slash then ["/"] else []
  | param :: rest =>
      let closing := if slash ∧ param.kind ≠ .positionalOnly then ["/"] else []
      let opening := if param.kind = .keywordOnly ∧ ¬ star then ["*"] else []
      let slash := param.kind == .positionalOnly
      let star := star || param.kind == .keywordOnly || param.kind == .varPositional
      closing ++ opening ++ param.render :: partsFrom slash star rest

def parts (signature : Signature) : List String := partsFrom false false signature.params

def render (signature : Signature) : String :=
  let returns :=
    match signature.returns with
    | some hint => " -> " ++ hint.render
    | none => ""
  "(" ++ ", ".intercalate signature.parts ++ ")" ++ returns

end Signature

/-- Why the parameters of a definition have no signature. -/
inductive SignatureError where
  | tooManyDefaults
  | duplicateName (name : String)
deriving DecidableEq, Repr

def SignatureError.message : SignatureError → String
  | .tooManyDefaults => "more defaults than positional parameters"
  | .duplicateName name => "duplicate parameter name: '" ++ name ++ "'"

namespace Signature

def parameter (kind : ParamKind) (arg : Arg) (default : Option Expr) : Parameter :=
  { name := arg.name, kind, default, hint := arg.hint.map Expr.unstring }

/-- Positional parameters with their kinds, positional-only ones first. -/
def positional (args : Arguments) : List (Arg × ParamKind) :=
  args.posOnlyArgs.map (·, .positionalOnly) ++ args.args.map (·, .positionalOrKeyword)

/-- Defaults padded on the left to a given length. -/
def alignEnd (length : Nat) (defaults : List Expr) : List (Option Expr) :=
  List.replicate (length - defaults.length) none ++ defaults.map some

/-- Defaults cut or padded on the right to a given length. -/
def alignStart : Nat → List (Option Expr) → List (Option Expr)
  | 0, _ => []
  | length + 1, [] => none :: alignStart length []
  | length + 1, default :: rest => default :: alignStart length rest

def parametersOf (args : Arguments) : List Parameter :=
  let positional := positional args
  List.zipWith (fun (arg, kind) default => parameter kind arg default) positional
      (alignEnd positional.length args.defaults)
    ++ args.varArg.toList.map (parameter .varPositional · none)
    ++ List.zipWith (parameter .keywordOnly) args.kwOnlyArgs
      (alignStart args.kwOnlyArgs.length args.kwDefaults)
    ++ args.kwArg.toList.map (parameter .varKeyword · none)

/-- The first name that also stands earlier in the list. -/
def firstRepeated? (seen : List String) : List String → Option String
  | [] => none
  | name :: rest => if name ∈ seen then some name else firstRepeated? (name :: seen) rest

/-- The signature of a definition's parameters and return hint. -/
def build (args : Arguments) (returns : Option Expr) : Except SignatureError Signature :=
  if args.defaults.length > (positional args).length then .error .tooManyDefaults
  else
    let params := parametersOf args
    match firstRepeated? [] (params.map Parameter.name) with
    | some name => .error (.duplicateName name)
    | none =>
        .ok { params, returns := (returns.filter fun expr => !expr.isNone).map Expr.unstring }

end Signature

end DocGraph
