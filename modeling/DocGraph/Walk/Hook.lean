import DocGraph.Graph.Attributes

/-!
Hooks: what others do to the graph while a module is walked. A hook sees every statement that is
walked, once before the statements inside it and once behind them.
-/
namespace DocGraph

/-- The two functions of a hook are given the graph, the scope that is open, the module being built
and the statement. -/
structure Hook where
  visit : Graph → EntityId → EntityId → Stmt → Graph := fun g _ _ _ => g
  depart : Graph → EntityId → EntityId → Stmt → Graph := fun g _ _ _ => g

namespace Hook

/-- Classifies the attribute of a scope that a target names. -/
def classifyTarget (scope : EntityId) (g : Graph) (target : Expr) : Graph :=
  match target.name?.bind (g.entity scope).contents.get? with
  | some attr => g.classifyType attr
  | none => g

/-- The names that a statement assigns. -/
def targetsOf : Stmt → List Expr
  | .assign targets _ _ _ => targets
  | .annAssign target _ _ _ => [target]
  | _ => []

/-- Finds type aliases and type variables behind each assignment. -/
def typeAliases : Hook :=
  { visit := fun g scope _ stmt => (targetsOf stmt).foldl (classifyTarget scope) g }

def traceLine (word : String) (g : Graph) (module : EntityId) (stmt : Stmt) : String :=
  word ++ " " ++ toString stmt.line ++ " " ++ g.fullName module

def note (text : String) (e : Entity) : Entity := { e with notes := e.notes ++ [text] }

/-- Notes on each scope the statements walked in it. -/
def trace : Hook :=
  { visit := fun g scope module stmt => g.modify scope (note (traceLine "visit" g module stmt))
    depart := fun g scope module stmt => g.modify scope (note (traceLine "depart" g module stmt)) }

/-- The hooks of every build. -/
def standard : List Hook := [typeAliases]

end Hook

end DocGraph
