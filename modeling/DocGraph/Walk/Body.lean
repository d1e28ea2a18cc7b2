import DocGraph.Walk.Import
import DocGraph.Walk.Docstring
import DocGraph.Walk.Definition

/-!
The walk through the statements of a module. Each statement is handled, shown to the hooks, its
inner statements are walked, and the hooks are shown it again. Arms that stand in for others, `else`
and `except`, are walked under a guard; what runs only as a script is not walked, nor are the `else`
arms of loops.
-/
namespace DocGraph.Walk

/-- What a simple statement does to the graph. -/
def handle (w : Walk) (stmt : Stmt) (next : Option Stmt) : Walk :=
  match stmt with
  | .assign targets value typeComment line =>
      let hint := typeComment.map fun text => (Expr.str text).unstring
      targets.foldl (assignTarget { hint, value := some value, line } next) w
  | .annAssign target hint value line =>
      w.assignTarget { hint := some hint.unstring, value, line } next target
  | .augAssign target op value line =>
      { w with graph := (w.assign target { value := some value, line, op := some op }).1 }
  | .imports names _ => { w with graph := w.importModules names }
  | .importFrom origin names level line => { w with graph := w.importFrom origin names level line }
  | _ => w

/-- Records a definition and, if it opens a scope, walks its body in that scope. -/
def walkDefinition (stmt : Stmt) (declared : Graph × Option EntityId) (walkBody : Walk → Walk)
    (w : Walk) : Walk :=
  let (g, opened) := declared
  let w := { w with graph := g }
  match opened with
  | some id => ((walkBody ((w.enter id).visit stmt)).depart stmt).leave id
  | none => (w.visit stmt).depart stmt

mutual

def walkBody : List Stmt → Walk → Walk
  | [], w => w
  | stmt :: rest, w => walkBody rest (walkStmt stmt rest.head? w)

/-- Walks a statement; `next` is the one behind it. -/
def walkStmt : Stmt → Option Stmt → Walk → Walk
  | .classDef head body, _, w =>
      walkDefinition (.classDef head body) (w.declareClass head body) (walkBody body) w
  | .function head body, _, w =>
      walkDefinition (.function head body) (w.declareFunction head body) (walkBody body) w
  | .ifElse test body orElse line, _, w =>
      let stmt := .ifElse test body orElse line
      let w := w.visit stmt
      let w := if test.isMainTest then w else inBlock (walkBody body) w
      let w := if orElse.isEmpty then w else guarded (inBlock (walkBody orElse)) w
      w.depart stmt
  | .whileLoop test body orElse line, _, w =>
      let stmt := .whileLoop test body orElse line
      (inBlock (walkBody body) (w.visit stmt)).depart stmt
  | .forLoop target iter body orElse isAsync line, _, w =>
      let stmt := .forLoop target iter body orElse isAsync line
      (inBlock (walkBody body) (w.visit stmt)).depart stmt
  | .withBlock items body isAsync line, _, w =>
      let stmt := .withBlock items body isAsync line
      (inBlock (walkBody body) (w.visit stmt)).depart stmt
  | .tryExcept body handlers orElse finalBody line, _, w =>
      let stmt := .tryExcept body handlers orElse finalBody line
      let w := inBlock (walkBody body) (w.visit stmt)
      let w := inBlock (walkBody finalBody) (inBlock (walkBody orElse) w)
      let w := if handlers.isEmpty then w else guarded (walkHandlers handlers) w
      w.depart stmt
  | .matchCases subject cases line, _, w =>
      let stmt := .matchCases subject cases line
      (walkCases cases (w.visit stmt)).depart stmt
  | stmt, next, w => ((w.handle stmt next).visit stmt).depart stmt

def walkHandlers : List Handler → Walk → Walk
  | [], w => w
  | .mk _ _ body _ :: rest, w => walkHandlers rest (inBlock (walkBody body) w)

def walkCases : List Case → Walk → Walk
  | [], w => w
  | .mk _ _ body :: rest, w => walkCases rest (inBlock (walkBody body) w)

end

/-- Walks a whole module: its own scope is open from the first statement to the last. -/
def walkModule (body : List Stmt) (w : Walk) : Walk :=
  let w := w.enter w.module
  let w :=
    match leadingDocstring? body with
    | some (text, line) => w.update (·.setDocstring w.module text line)
    | none => w
  (walkBody body w).leave w.module

end DocGraph.Walk
