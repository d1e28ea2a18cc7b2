import DocGraph.Expr.Basic

/-!
Literals, and the type hint that the shape of a literal suggests. A scalar suggests the name of
its type. A container whose elements are scalars of one type suggests the container of that type;
every other container suggests its bare name, and `None` suggests nothing.
-/
namespace DocGraph.Expr

def isNumber : Expr → Bool
  | .constant (.int _) => true
  | .constant (.float _) => true
  | _ => false

mutual

/-- Constants, signed numbers, and containers of literals. -/
def isLiteral : Expr → Bool
  | .constant _ => true
  | .list elts => areLiterals elts
  | .tuple elts => areLiterals elts
  | .set elts => areLiterals elts
  | .dict keys values => areLiteralKeys keys && areLiterals values
  | .unary .uSub operand => operand.isNumber
  | .unary .uAdd operand => operand.isNumber
  | _ => false

def areLiterals : List Expr → Bool
  | [] => true
  | expr :: rest => expr.isLiteral && areLiterals rest

def areLiteralKeys : List (Option Expr) → Bool
  | [] => true
  | none :: _ => false
  | some key :: rest => key.isLiteral && areLiteralKeys rest

end

/-- The one name that all suggestions agree on. -/
def commonName? : List (Option Expr) → Option String
  | [some (.name id)] => some id
  | some (.name id) :: rest =>
      match commonName? rest with
      | some shared => if shared = id then some id else none
      | none => none
  | _ => none

/-- `container[element]`, or the bare container when no element type is known. -/
def container (name : String) (element : Option Expr) : Expr :=
  match element with
  | some element => .subscript (.name name) element
  | none => .name name

mutual

/-- The type hint suggested by a value. -/
def suggested? : Expr → Option Expr
  | .constant .none => none
  | .constant value => some (.name value.typeName)
  | .unary _ operand => operand.suggested?
  | .list elts => some (container "list" ((commonName? (suggestions elts)).map .name))
  | .set elts => some (container "set" ((commonName? (suggestions elts)).map .name))
  | .tuple elts =>
      some (container "tuple"
        ((commonName? (suggestions elts)).map fun element =>
          .tuple [.name element, .constant .ellipsis]))
  | .dict keys values =>
      some (container "dict"
        (match commonName? (keySuggestions keys), commonName? (suggestions values) with
        | some key, some value => some (.tuple [.name key, .name value])
        | _, _ => none))
  | _ => none

def suggestions : List Expr → List (Option Expr)
  | [] => []
  | expr :: rest => expr.suggested? :: suggestions rest

def keySuggestions : List (Option Expr) → List (Option Expr)
  | [] => []
  | none :: rest => keySuggestions rest
  | some key :: rest => key.suggested? :: keySuggestions rest

end

/-- The type hint for a literal; nothing for other expressions. -/
def inferType? (expr : Expr) : Option Expr := if expr.isLiteral then expr.suggested? else none

end DocGraph.Expr
