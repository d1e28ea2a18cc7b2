import DocGraph.Stmt.Basic

/-!
Short ways to write trees: the common forms of each construct, the rest of its fields empty.
-/
namespace DocGraph

namespace Expr

def dictOf (items : List (Expr × Expr)) : Expr :=
  .dict (items.map fun item => some item.1) (items.map Prod.snd)

def callOf (func : Expr) (args : List Expr) : Expr := .call func args []

def compareOf (left : Expr) (op : CompareOp) (right : Expr) : Expr := .compare left [op] [right]

end Expr

namespace Stmt

def assignName (name : String) (value : Expr) (line : Nat) : Stmt :=
  .assign [.name name] value none line

def annAssignName (name : String) (hint : Expr) (value : Option Expr) (line : Nat) : Stmt :=
  .annAssign (.name name) hint value line

def augAssignName (name : String) (op : BinaryOp) (value : Expr) (line : Nat) : Stmt :=
  .augAssign (.name name) op value line

def docstring (text : String) (line : Nat) : Stmt := .expr (.str text) line

def importsOf (names : List (String × Option String)) (line : Nat) : Stmt :=
  .imports (names.map fun (name, asName) => ⟨name, asName⟩) line

def importFromOf (origin : Option String) (names : List (String × Option String))
    (level line : Nat) : Stmt :=
  .importFrom origin (names.map fun (name, asName) => ⟨name, asName⟩) level line

/-- The handlers catch everything and stand on the line of the `try`. -/
def tryOf (body : List Stmt) (handlers : List (List Stmt)) (orElse finalBody : List Stmt)
    (line : Nat) : Stmt :=
  .tryExcept body (handlers.map fun body => .mk none none body line) orElse finalBody line

def forOf (target : String) (body : List Stmt) (line : Nat) : Stmt :=
  .forLoop (.name target) (.name "items") body [] false line

/-- The body of a definition that states none: a `pass` on the next line. -/
def passBody (line : Nat) : List Stmt := [.pass (line + 1)]

end Stmt

/-- Parameters that may be passed by position or by keyword. -/
def Arguments.simple (names : List String) : Arguments :=
  { args := names.map fun name => ⟨name, none⟩ }

end DocGraph
