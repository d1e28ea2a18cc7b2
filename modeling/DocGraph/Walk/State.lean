import DocGraph.Walk.Hook

/-!
The state of a walk through one module: the graph, the scopes that are open, the guard that keeps
names from being bound again, and how deep the walk is in blocks of control flow.
-/
namespace DocGraph

/-- The names of a scope that an alternative arm leaves as they are. -/
structure Guard where
  scope : EntityId
  names : List String
deriving DecidableEq, Repr

structure Walk where
  graph : Graph
  /-- The module being built. -/
  module : EntityId
  hooks : List Hook
  /-- The open scopes, innermost first. -/
  scopes : List EntityId := []
  guard : Option Guard := none
  flowDepth : Nat := 0

namespace Walk

/-- The innermost open scope. -/
def current (w : Walk) : EntityId := w.scopes.head?.getD w.module

def scope (w : Walk) : Entity := w.graph.entity w.current

def inFlow (w : Walk) : Bool := 0 < w.flowDepth

/-- The class whose method is being walked. -/
def methodClass? (w : Walk) : Option EntityId :=
  if w.scope.type = .function then
    w.scope.parent.filter fun parent => (w.graph.entity parent).type == .class
  else none

def update (w : Walk) (f : Graph → Graph) : Walk := { w with graph := f w.graph }

/-- Reports on the module, with a line of its source. -/
def reportAt (w : Walk) (message topic : String) (line : Nat) (threshold : Int) : Graph :=
  w.graph.report w.module message topic line threshold

def enter (w : Walk) (id : EntityId) : Walk := { w with scopes := id :: w.scopes }

/-- Closes the innermost scope, which is `id`. -/
def leave (w : Walk) (id : EntityId) : Walk :=
  let g := w.graph
  { w with
    scopes := w.scopes.tail
    graph := if (g.entity id).isContainer then g.settleScope id else g }

/-- Whether the guard keeps a name of a scope. -/
def isGuarded (w : Walk) (scope : EntityId) (name : String) : Bool :=
  w.guard.any fun guard => guard.scope == scope && guard.names.contains name

/-- The names of a scope that the guard keeps. -/
def guardedNames (w : Walk) (scope : EntityId) : List String :=
  match w.guard with
  | some guard => if guard.scope = scope then guard.names else []
  | none => []

/-- The guard over all that is bound around the open scope. -/
def guardHere (w : Walk) : Guard :=
  let scope := w.graph.scopeContainer w.current
  { scope, names := w.graph.localNames scope }

/-- Walks under a guard over all that is bound so far, which takes the place of any other guard. -/
def guarded (walk : Walk → Walk) (w : Walk) : Walk :=
  { walk { w with guard := some w.guardHere } with guard := w.guard }

/-- Walks a block of control flow. -/
def inBlock (walk : Walk → Walk) (w : Walk) : Walk :=
  let after := walk { w with flowDepth := w.flowDepth + 1 }
  { after with flowDepth := after.flowDepth - 1 }

def visit (w : Walk) (stmt : Stmt) : Walk :=
  w.update (w.hooks.foldl fun g hook => hook.visit g w.current w.module stmt)

def depart (w : Walk) (stmt : Stmt) : Walk :=
  w.update (w.hooks.foldl fun g hook => hook.depart g w.current w.module stmt)

end Walk

end DocGraph
