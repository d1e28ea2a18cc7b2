import DocGraph.Entity.Kind
import DocGraph.Entity.Contents
import DocGraph.Signature

/-!
Entities: the declarations of a code base. Every entity has a name within its parent, a table of
children and a table of aliases, and data of its own type. References to other entities are by
number.
-/
namespace DocGraph

/-- A docstring with its indentation removed, and the line it starts on. -/
structure Docstring where
  text : String
  line : Nat
deriving DecidableEq, Repr

/-- What a decorator does to the definition under it. -/
inductive DecoratorRole where
  | property
  | setter
  | deleter
  | classMethod
  | staticMethod
  | overload
  | other
deriving DecidableEq, Repr

def DecoratorRole.tag : DecoratorRole → String
  | .property => "property"
  | .setter => "setter"
  | .deleter => "deleter"
  | .classMethod => "class_method"
  | .staticMethod => "static_method"
  | .overload => "overload"
  | .other => "other"

structure Decorator where
  /-- The expanded name of the callable. -/
  name : String
  /-- The arguments, if the decorator is a call. -/
  args : Option (List Expr)
  role : DecoratorRole
  /-- The callable itself, if it is in the graph. -/
  target : Option EntityId
deriving BEq, Repr

/-- A base of a class as it is written. -/
structure RawBase where
  /-- The dotted name, without a subscript, or else the source text. -/
  text : String
  expr : Expr
deriving BEq, Repr

/-- The bases of a class, in three lists side by side. -/
structure BaseLists where
  raw : List RawBase := []
  /-- The expanded names. -/
  names : List String := []
  /-- The classes that they denote, once known. -/
  targets : List (Option EntityId) := []
deriving BEq, Repr

namespace BaseLists

def push (bases : BaseLists) (raw : RawBase) (name : String) (target : Option EntityId) : BaseLists :=
  { raw := bases.raw ++ [raw], names := bases.names ++ [name], targets := bases.targets ++ [target] }

/-- The places of the bases that are not known, with what is written there. -/
def unknown (bases : BaseLists) : List (Nat × String) :=
  bases.targets.zipIdx.filterMap fun slot =>
    if slot.1.isNone then bases.raw[slot.2]?.map fun raw => (slot.2, raw.text) else none

/-- Makes a base known, at its place. -/
def settle (bases : BaseLists) (place : Nat) (name : String) (target : EntityId) : BaseLists :=
  { bases with names := bases.names.set place name, targets := bases.targets.set place (some target) }

/-- Makes some bases known, each at its place and under the name of its class. -/
def settleAll (bases : BaseLists) (name : EntityId → String) (found : List (Nat × EntityId)) : BaseLists :=
  found.foldl (fun bases base => bases.settle base.1 (name base.2) base.2) bases

/-- The classes that are known, in the order declared. -/
def known (bases : BaseLists) : List EntityId := bases.targets.filterMap id

end BaseLists

/-- One alternative signature of a function. -/
structure Overload where
  /-- Absent when the parameters were invalid. -/
  signature : Option Signature
  decorators : List Decorator
  /-- The function it belongs to. -/
  primary : EntityId
  line : Nat
deriving BEq, Repr

/-- An import from a module that had not been built when the import was read. -/
inductive PendingImport where
  /-- An exported name. -/
  | reexport (origin name asName : String) (line : Nat)
  /-- All public names, into `scope`, save those that were blocked. -/
  | star (origin : String) (into : EntityId) (blocked : List String) (line : Nat)
deriving DecidableEq, Repr

structure ModuleInfo where
  isPackage : Bool := false
  /-- The names of `__all__`. -/
  exports : Option (List String) := none
  /-- The markup named by `__docformat__`. -/
  docFormat : Option String := none
  state : BuildState := .notProcessed
  pending : List PendingImport := []
  /-- The tree it was built from, until trees are dropped. -/
  tree : Option Module := none
deriving BEq, Repr

structure ClassInfo where
  bases : BaseLists := {}
  subclasses : List EntityId := []
  decorators : List Decorator := []
  /-- The method resolution order, the class itself first. -/
  mro : Option (List EntityId) := none
deriving BEq, Repr

structure FunctionInfo where
  isAsync : Bool := false
  decorators : List Decorator := []
  /-- Absent until a definition that is no overload is seen. -/
  signature : Option Signature := none
  overloads : List Overload := []
deriving BEq, Repr

structure AttributeInfo where
  hint : Option Expr := none
  value : Option Expr := none
  /-- The kind was stated by a marker. -/
  explicitKind : Bool := false
  decorators : List Decorator := []
  /-- The type named by a property's docstring. -/
  parsedType : Option String := none
deriving BEq, Repr

inductive Payload where
  | module (info : ModuleInfo)
  | «class» (info : ClassInfo)
  | function (info : FunctionInfo)
  | attribute (info : AttributeInfo)
deriving BEq, Repr

def Payload.type : Payload → EntityType
  | .module _ => .module
  | .class _ => .class
  | .function _ => .function
  | .attribute _ => .attribute

structure Entity where
  name : String
  parent : Option EntityId
  /-- The module that declares it; a module declares itself. -/
  home : Option EntityId := none
  /-- It has been moved to another parent. -/
  moved : Bool := false
  kind : Option EntityKind := none
  line : Nat := 0
  docstring : Option Docstring := none
  /-- What the hooks noted about it. -/
  notes : List String := []
  contents : Contents := {}
  /-- Names bound to something declared elsewhere, by its full name. -/
  aliases : NameMap String := ∅
  payload : Payload

namespace Entity

/-- What stands for an entity that a graph does not have. -/
def absent : Entity := { name := "", parent := none, payload := .attribute {} }

instance : Inhabited Entity := ⟨absent⟩

def type (e : Entity) : EntityType := e.payload.type

/-- Modules and classes hold children and aliases. -/
def isContainer (e : Entity) : Bool := e.type == .module || e.type == .class

def module? (e : Entity) : Option ModuleInfo :=
  match e.payload with
  | .module info => some info
  | _ => none

def class? (e : Entity) : Option ClassInfo :=
  match e.payload with
  | .class info => some info
  | _ => none

def function? (e : Entity) : Option FunctionInfo :=
  match e.payload with
  | .function info => some info
  | _ => none

def attribute? (e : Entity) : Option AttributeInfo :=
  match e.payload with
  | .attribute info => some info
  | _ => none

def modifyModule (f : ModuleInfo → ModuleInfo) (e : Entity) : Entity :=
  match e.payload with
  | .module info => { e with payload := .module (f info) }
  | _ => e

def modifyClass (f : ClassInfo → ClassInfo) (e : Entity) : Entity :=
  match e.payload with
  | .class info => { e with payload := .class (f info) }
  | _ => e

def modifyFunction (f : FunctionInfo → FunctionInfo) (e : Entity) : Entity :=
  match e.payload with
  | .function info => { e with payload := .function (f info) }
  | _ => e

def modifyAttribute (f : AttributeInfo → AttributeInfo) (e : Entity) : Entity :=
  match e.payload with
  | .attribute info => { e with payload := .attribute (f info) }
  | _ => e

/-- The first line other than zero stays. -/
def setLine (line : Nat) (e : Entity) : Entity := if e.line = 0 then { e with line } else e

def setKind (kind : EntityKind) (e : Entity) : Entity := { e with kind := some kind }

def bindAlias (name target : String) (e : Entity) : Entity :=
  { e with aliases := e.aliases.insert name target }

/-- The resolved bases of a class in the order declared; none for other entities. -/
def bases (e : Entity) : List EntityId :=
  match e.payload with
  | .class info => info.bases.known
  | _ => []

end Entity

end DocGraph
