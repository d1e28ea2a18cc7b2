import DocGraph.Expr.Basic

/-!
Statements of Python source, each with the line it starts on. A function or class is split into
its head, which holds no statements, and its body.
-/
namespace DocGraph

structure ImportAlias where
  name : String
  asName : Option String
deriving DecidableEq, Repr

/-- The name that an import binds. -/
def ImportAlias.bound (item : ImportAlias) : String := item.asName.getD item.name

structure Arg where
  name : String
  hint : Option Expr
deriving BEq, Repr

/-- The parameters of a function in the groups of Python's grammar. `defaults` belong to the last
positional parameters; `kwDefaults` run along the keyword-only ones, with gaps. -/
structure Arguments where
  posOnlyArgs : List Arg := []
  args : List Arg := []
  varArg : Option Arg := none
  kwOnlyArgs : List Arg := []
  kwDefaults : List (Option Expr) := []
  kwArg : Option Arg := none
  defaults : List Expr := []
deriving BEq, Repr

/-- All of a function definition but its body. The line is that of the first decorator. -/
structure FunctionHead where
  name : String
  isAsync : Bool := false
  decorators : List Expr := []
  args : Arguments := {}
  returns : Option Expr := none
  line : Nat
deriving BEq, Repr

/-- All of a class definition but its body. The line is that of the first decorator. -/
structure ClassHead where
  name : String
  bases : List Expr := []
  keywords : List Keyword := []
  decorators : List Expr := []
  line : Nat
deriving BEq, Repr

mutual

inductive Stmt where
  | assign (targets : List Expr) (value : Expr) (typeComment : Option String) (line : Nat)
  | annAssign (target hint : Expr) (value : Option Expr) (line : Nat)
  | augAssign (target : Expr) (op : BinaryOp) (value : Expr) (line : Nat)
  | function (head : FunctionHead) (body : List Stmt)
  | classDef (head : ClassHead) (body : List Stmt)
  | imports (names : List ImportAlias) (line : Nat)
  | importFrom (origin : Option String) (names : List ImportAlias) (level line : Nat)
  | ifElse (test : Expr) (body orElse : List Stmt) (line : Nat)
  | whileLoop (test : Expr) (body orElse : List Stmt) (line : Nat)
  | forLoop (target iter : Expr) (body orElse : List Stmt) (isAsync : Bool) (line : Nat)
  | tryExcept (body : List Stmt) (handlers : List Handler) (orElse finalBody : List Stmt) (line : Nat)
  | withBlock (items : List Expr) (body : List Stmt) (isAsync : Bool) (line : Nat)
  | matchCases (subject : Expr) (cases : List Case) (line : Nat)
  | expr (value : Expr) (line : Nat)
  | pass (line : Nat)
  /-- Any other statement. -/
  | other (line : Nat)

/-- One `except` clause. -/
inductive Handler where
  | mk (excType : Option Expr) (name : Option String) (body : List Stmt) (line : Nat)

/-- One arm of a `match`; its pattern is source text. -/
inductive Case where
  | mk (pattern : Option String) (guard : Option Expr) (body : List Stmt)

end

deriving instance BEq, Repr for Stmt, Handler, Case

instance : Inhabited Stmt := ⟨.pass 0⟩

namespace Stmt

def line : Stmt → Nat
  | .assign _ _ _ line => line
  | .annAssign _ _ _ line => line
  | .augAssign _ _ _ line => line
  | .function head _ => head.line
  | .classDef head _ => head.line
  | .imports _ line => line
  | .importFrom _ _ _ line => line
  | .ifElse _ _ _ line => line
  | .whileLoop _ _ _ line => line
  | .forLoop _ _ _ _ _ line => line
  | .tryExcept _ _ _ _ line => line
  | .withBlock _ _ _ line => line
  | .matchCases _ _ line => line
  | .expr _ line => line
  | .pass line => line
  | .other line => line

/-- The text of a statement that is nothing but a string. -/
def docstring? : Stmt → Option String
  | .expr value _ => value.str?
  | _ => none

end Stmt

/-- The docstring of a body and its line: the string statement that opens it. -/
def leadingDocstring? : List Stmt → Option (String × Nat)
  | [] => none
  | first :: _ => first.docstring?.map fun text => (text, first.line)

/-- The statements of one source module. -/
structure Module where
  body : List Stmt := []
deriving BEq, Repr

end DocGraph
