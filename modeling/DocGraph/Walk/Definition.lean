import DocGraph.Walk.State
import DocGraph.Graph.Decorators
import DocGraph.Graph.Declare
import DocGraph.Docstring.Fields

/-!
Definitions of classes, functions and properties. Definitions of one function that are marked as
overloads are gathered in one entity, which the definition without the mark completes. A definition
inside a function is not recorded.
-/
namespace DocGraph

/-- The decorators of a function definition and what they make of it. -/
structure Decorated where
  decorators : List Decorator
  /-- The name that a setter or deleter is stored under. -/
  accessor : Option String

namespace Decorated

def has (d : Decorated) (role : DecoratorRole) : Bool := d.decorators.any fun dec => dec.role == role

/-- An accessor of a property is an ordinary method. -/
def isProperty (d : Decorated) : Bool := d.has .property && d.accessor.isNone

def isOverload (d : Decorated) : Bool := d.has .overload

/-- The kind that the decorators give to a method; none when they disagree. -/
def kind? (d : Decorated) : Option EntityKind :=
  match d.has .classMethod, d.has .staticMethod with
  | true, false => some .classMethod
  | false, true => some .staticMethod
  | _, _ => none

end Decorated

namespace Graph

/-- `x.setter` and `x.deleter` name the accessors of `x`. -/
def accessorName? (inClass : Bool) (expr : Expr) : Option String := do
  let segments ← expr.callee.1.segments?
  let (owner, last) ← DecoratorRole.lastPair? segments
  if inClass && (last == "setter" || last == "deleter") then some (Dotted.extend owner last) else none

def decorated (g : Graph) (scope : EntityId) (decorators : List Expr) : Decorated :=
  let inClass := (g.entity scope).type == .class
  { decorators := decorators.map fun expr => (g.decorator? scope inClass expr).getD (plainDecorator expr)
    accessor := (decorators.filterMap (accessorName? inClass)).getLast? }

/-- A warning about an entity, which begins with its full name. -/
def warnAbout (g : Graph) (id : EntityId) (text : String) (offset : Int) : Graph :=
  g.report id (g.fullName id ++ text) "ast" offset (-1)

/-- Reads the fields of a property's docstring. -/
def documentProperty (g : Graph) (attr : EntityId) (text : String) (line : Nat) : Graph :=
  let doc := Docstring.PropertyText.parse (Docstring.clean text)
  let g :=
    if doc.onlyReturns then
      g.report attr (g.fullName attr
        ++ " docstring has only a return field, using it as the description") "docstring" 0 1
    else g
  g.modify attr fun e =>
    { e with docstring := some ⟨doc.text, line⟩ }.modifyAttribute fun info =>
      { info with parsedType := doc.returnType.map String.ofList }

def declareProperty (g : Graph) (scope : EntityId) (head : FunctionHead) (body : List Stmt)
    (d : Decorated) : Graph :=
  let (g, attr) := g.addAttribute scope head.name (some .property) head.line
  let g :=
    match leadingDocstring? body with
    | some (text, line) => g.documentProperty attr text line
    | none => g
  let g := g.modify attr (Entity.modifyAttribute fun info =>
    { info with hint := head.returns.map Expr.unstring, decorators := d.decorators })
  let g :=
    if d.has .classMethod then g.warnAbout attr " is both property and classmethod" 0 else g
  if d.has .staticMethod then g.warnAbout attr " is both property and staticmethod" 0 else g

/-- What a definition does to the child that has its name. -/
inductive FunctionSlot where
  | fresh
  /-- It joins the overloads of a function. -/
  | extend (id : EntityId)
  /-- It is an overload of a function that is complete. -/
  | late (id : EntityId)
deriving DecidableEq, Repr

def functionSlot (g : Graph) (module scope : EntityId) (name : String) (isOverload : Bool) :
    FunctionSlot :=
  match (g.entity scope).contents.get? name with
  | none => .fresh
  | some existing =>
      if (g.entity existing).home ≠ some module then .fresh
      else
        match (g.entity existing).function? with
        | none => .fresh
        | some info =>
            if isOverload ∧ info.signature.isSome then .late existing
            else if info.overloads.isEmpty then .fresh
            else .extend existing

/-- How far a line is below the line of an entity. -/
def offsetFrom (g : Graph) (id : EntityId) (line : Nat) : Int := line - (g.entity id).line

def documentFunction (g : Graph) (id : EntityId) (body : List Stmt) (isOverload : Bool) : Graph :=
  match leadingDocstring? body with
  | none => g
  | some (text, line) =>
      if isOverload then
        g.warnAbout id " overload has docstring, unsupported" (g.offsetFrom id line)
      else g.setDocstring id text line

/-- Adds a definition to what is known of a function. -/
def recordDefinition (id : EntityId) (head : FunctionHead) (d : Decorated)
    (signature : Option Signature) (info : FunctionInfo) : FunctionInfo :=
  let info := { info with isAsync := head.isAsync, decorators := d.decorators }
  if d.isOverload then
    { info with
      overloads := info.overloads
        ++ [{ signature, decorators := d.decorators, primary := id, line := head.line }] }
  else { info with signature }

/-- Stores a definition in the function `id`. -/
def defineFunction (g : Graph) (id : EntityId) (head : FunctionHead) (body : List Stmt)
    (d : Decorated) : Graph :=
  let g := g.documentFunction id body d.isOverload
  let g :=
    if d.has .classMethod && d.has .staticMethod then
      g.warnAbout id " is both classmethod and staticmethod" 0
    else g
  let (g, signature) :=
    match Signature.build head.args head.returns with
    | .ok signature => (g, some signature)
    | .error reason => (g.warnAbout id (" has invalid parameters: " ++ reason.message) 0, none)
  g.modify id fun e =>
    { e with kind := d.kind?.or e.kind }.modifyFunction (recordDefinition id head d signature)

end Graph

namespace Walk

/-- Records a function definition, and gives the function if its body is to be walked. -/
def declareFunction (w : Walk) (head : FunctionHead) (body : List Stmt) : Graph × Option EntityId :=
  let g := w.graph
  let d := g.decorated w.current head.decorators
  let name := d.accessor.getD head.name
  if w.scope.type = .function ∨ w.isGuarded w.current name then (g, none)
  else if d.isProperty then (g.declareProperty w.current head body d, none)
  else
    match g.functionSlot w.module w.current name d.isOverload with
    | .fresh =>
        let (g, id) := g.addFunction w.current name head.line
        (g.defineFunction id head body d, some id)
    | .extend id => (g.defineFunction id head body d, some id)
    | .late id =>
        (g.warnAbout id " overload appeared after primary function" (g.offsetFrom id head.line), none)

end Walk

namespace Graph

/-- Appends one base of a class, its name looked up in the scope of the class. -/
def readBase (g : Graph) (scope : EntityId) (bases : BaseLists) (expr : Expr) : BaseLists :=
  let text := expr.subscripted.dotted?.getD expr.render
  let name := g.expand scope text
  bases.push { text, expr } name ((g.resolve name).filter fun id => (g.entity id).type == .class)

/-- Looks at one decorator of a class. -/
def classDecorator (scope id : EntityId) (state : Graph × List Decorator) (expr : Expr) :
    Graph × List Decorator :=
  let (g, decorators) := state
  match g.decorator? scope false expr with
  | some decorator => (g, decorators ++ [decorator])
  | none => (g.report id "cannot make sense of class decorator" "ast" 0 (-1), decorators)

def defineClass (g : Graph) (scope : EntityId) (head : ClassHead) (body : List Stmt) :
    Graph × EntityId :=
  let bases := head.bases.foldl (g.readBase scope) {}
  let (g, id) := g.addClass scope head.name head.line
  let (g, decorators) := head.decorators.foldl (classDecorator scope id) (g, [])
  let g := g.modify id (Entity.modifyClass fun _ => { bases, decorators })
  match leadingDocstring? body with
  | some (text, line) => (g.setDocstring id text line, id)
  | none => (g, id)

end Graph

namespace Walk

/-- Records a class definition, and gives the class if its body is to be walked. -/
def declareClass (w : Walk) (head : ClassHead) (body : List Stmt) : Graph × Option EntityId :=
  if w.scope.type = .function ∨ w.isGuarded w.current head.name then (w.graph, none)
  else
    let (g, id) := w.graph.defineClass w.current head body
    (g, some id)

end Walk

end DocGraph
