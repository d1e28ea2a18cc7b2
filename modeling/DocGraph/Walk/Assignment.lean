import DocGraph.Walk.State
import DocGraph.Graph.Decorators
import DocGraph.Graph.Declare

/-!
Assignments. At the top of a module and in a class a dotted name as value makes an alias; any other
value makes or changes an attribute. In a method, assigning to a member of `self` makes an instance
variable of the class.
-/
namespace DocGraph

/-- What an assignment gives to its target. -/
structure Assignment where
  hint : Option Expr := none
  value : Option Expr := none
  line : Nat
  /-- The operator of an augmented assignment. -/
  op : Option BinaryOp := none
deriving BEq, Repr

/-- An assignment without an operator binds its target. -/
def Assignment.isBinding (a : Assignment) : Bool := a.op.isNone

namespace Graph

/-- Binds a new name to the full name of a dotted value; nothing if the name is that of a child or
the value is no dotted name. -/
def recordAlias? (g : Graph) (scope : EntityId) (name : String) (a : Assignment) : Option Graph :=
  if a.isBinding && !(g.entity scope).contents.contains name then
    (a.value.bind Expr.dotted?).map fun dotted =>
      g.modify scope (Entity.bindAlias name (g.expand scope dotted))
  else none

/-- The value of an attribute after an assignment. An augmented one combines it with the old value,
and does nothing where there is none. -/
def assignedValue (old : Option Expr) (a : Assignment) : Option Expr :=
  match a.value, a.op with
  | none, _ => old
  | some value, none => some value
  | some value, some op => old.map fun old => .binary old op value

def recordHint (g : Graph) (attr : EntityId) (a : Assignment) : Graph :=
  g.modify attr fun e =>
    (e.setLine a.line).modifyAttribute fun info =>
      { info with hint := a.hint.or info.hint }

def recordValue (g : Graph) (attr : EntityId) (a : Assignment) : Graph :=
  g.modify attr (Entity.modifyAttribute fun info => { info with value := assignedValue info.value a })

/-- Stores an assignment in an attribute: the type hint first, then what it says about constants,
then the value. -/
def recordAttribute (g : Graph) (attr : EntityId) (a : Assignment) (inFlow : Bool)
    (usual : EntityKind) : Graph :=
  ((g.recordHint attr a).classifyConstant attr a.hint a.value inFlow usual).recordValue
    attr a

/-- Whether a class may have an attribute of a name: unless the name is that of a member, its own or
inherited, which is none. -/
def mayBeAttribute (g : Graph) (owner : EntityId) (name : String) : Bool :=
  match g.find owner name with
  | some found => (g.entity found).type == .attribute
  | none => true

/-- The child of a name, or a new attribute. An augmented assignment makes none. -/
def attributeFor (g : Graph) (scope : EntityId) (name : String) (kind : Option EntityKind)
    (a : Assignment) : Graph × Option EntityId :=
  match (g.entity scope).contents.get? name with
  | some existing => (g, some existing)
  | none =>
      if a.isBinding then
        let (g, id) := g.addAttribute scope name kind a.line
        (g, some id)
      else (g, none)

/-- Gives the kind of its legacy decorator to a method of a class. -/
def retagMethod? (g : Graph) (owner : EntityId) (name : String) (a : Assignment) : Option Graph :=
  if a.isBinding then do
    let kind ← a.value.bind (legacyMethodKind? name)
    let method ← (g.entity owner).contents.get? name
    if (g.entity method).type = .function then some (g.modify method (Entity.setKind kind)) else none
  else none

end Graph

namespace Walk

/-- Names that speak about their module and are no attributes of it. -/
def metaNames : List String := ["__all__", "__docformat__"]

/-! Each of the following gives the graph behind the assignment, and whether a docstring may follow
it. -/

def assignInModule (w : Walk) (name : String) (a : Assignment) : Graph × Bool :=
  let g := w.graph
  if name ∈ metaNames then (g, false)
  else
    match g.recordAlias? w.current name a with
    | some g => (g, false)
    | none =>
        match g.attributeFor w.current name (some .variable) a with
        | (g, none) => (g, true)
        | (g, some attr) =>
            if (g.entity attr).type = .attribute then
              (g.recordAttribute attr a w.inFlow .variable, true)
            else (g, false)

def assignInClass (w : Walk) (name : String) (a : Assignment) : Graph × Bool :=
  let g := w.graph
  match g.recordAlias? w.current name a with
  | some g => (g, false)
  | none =>
      if g.mayBeAttribute w.current name then
        match g.attributeFor w.current name none a with
        | (g, none) => (g, true)
        | (g, some attr) =>
            let g := g.modify attr fun e => { e with kind := e.kind.or (some .classVariable) }
            (g.recordAttribute attr a w.inFlow .classVariable, true)
      else (g, false)

/-- `self.name = value` in a method. -/
def assignInstance (w : Walk) (name : String) (a : Assignment) : Graph × Bool :=
  let g := w.graph
  match w.methodClass? with
  | none => (g, false)
  | some owner =>
      if g.mayBeAttribute owner name && !w.isGuarded owner name then
        match g.attributeFor owner name none a with
        | (g, none) => (g, true)
        | (g, some attr) =>
            (((g.recordHint attr a).modify attr (Entity.setKind .instanceVariable)).recordValue
              attr a, true)
      else (g, false)

/-- An assignment to a bare name. In a function it makes a local variable, which is not kept. -/
def assignName (w : Walk) (name : String) (a : Assignment) : Graph × Bool :=
  if w.isGuarded w.current name then (w.graph, false)
  else
    match w.scope.type with
    | .module => w.assignInModule name a
    | .class =>
        match w.graph.retagMethod? w.current name a with
        | some g => (g, true)
        | none => w.assignInClass name a
    | _ => (w.graph, true)

end Walk

end DocGraph
