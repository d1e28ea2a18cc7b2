import DocGraph.Walk.Assignment

/-!
Docstrings given outside the head of a body: the string behind an assignment, and assignments to
`__doc__`.
-/
namespace DocGraph.Walk

/-- The scope and name that a target binds, if it binds one. -/
def documentedName? (w : Walk) : Expr → Option (EntityId × String)
  | .name id => some (w.current, id)
  | .attribute (.name owner) attr =>
      if owner = "self" then w.methodClass?.map (·, attr) else none
  | _ => none

/-- A string statement right behind an assignment documents the target. -/
def documentTarget (w : Walk) (target : Expr) (next : Option Stmt) : Graph :=
  let documented := do
    let next ← next
    let text ← next.docstring?
    let (scope, name) ← w.documentedName? target
    let entity ← (w.graph.entity scope).contents.get? name
    return w.graph.setDocstring entity text next.line
  documented.getD w.graph

def warnDoc (w : Walk) (message : String) (line : Nat) : Graph := w.reportAt message "ast" line (-1)

/-- The entity whose docstring is assigned; what cannot be found is reported. -/
def docTarget (w : Walk) (target : Expr) (line : Nat) : Graph × Option EntityId :=
  match target.dotted? with
  | none => (w.warnDoc "Unable to figure out target for __doc__ assignment" line, none)
  | some dotted =>
      let name := w.graph.expand w.current dotted
      match w.graph.lookup name with
      | some found => (w.graph, some found)
      | none =>
          (w.warnDoc ("Unable to figure out target for __doc__ assignment: "
            ++ "computed full name not found: " ++ name) line, none)

/-- `target.__doc__ = value`. -/
def assignDoc (w : Walk) (target : Expr) (a : Assignment) : Graph :=
  if w.scope.type = .function then w.graph
  else
    let (g, found) := w.docTarget target a.line
    let w := { w with graph := g }
    match a.value.bind Expr.str? with
    | some text =>
        match found with
        | some id => g.setDocstring id text a.line
        | none => g
    | none =>
        if (a.value.map Expr.isLiteral).getD false then
          w.warnDoc "Ignoring value assigned to __doc__: not a string" a.line
        else
          w.warnDoc "Unable to figure out value for __doc__ assignment, maybe too complex" a.line

/-- An assignment to any target, and whether a docstring may follow it. -/
def assign (w : Walk) (target : Expr) (a : Assignment) : Graph × Bool :=
  match target with
  | .name id => w.assignName id a
  | .attribute base attr =>
      if !a.isBinding then (w.graph, false)
      else if attr = "__doc__" then (w.assignDoc base a, false)
      else if base.name? = some "self" then w.assignInstance attr a
      else (w.graph, true)
  | target =>
      (w.reportAt ("ignoring assignment to " ++ target.render ++ ": not a name") "ast" a.line 2,
        false)

/-- One target of an assignment, with the statement that follows. -/
def assignTarget (a : Assignment) (next : Option Stmt) (w : Walk) (target : Expr) : Walk :=
  match w.assign target a with
  | (g, true) =>
      let w := { w with graph := g }
      { w with graph := w.documentTarget target next }
  | (g, false) => { w with graph := g }

end DocGraph.Walk
