import DocGraph.Graph.Attach
import DocGraph.Graph.Error
import DocGraph.Docstring.Clean

/-!
Declaring entities: modules by full name, under a package that is already there, and classes,
functions and attributes under a parent.
-/
namespace DocGraph.Graph

/-- Appends an entity and gives its number. -/
def alloc (g : Graph) (entity : Entity) : Graph × EntityId :=
  ({ g with entities := g.entities.push entity }, ⟨g.size⟩)

def isModule (g : Graph) (id : EntityId) : Bool := (g.entity id).type == .module

def isPackage (g : Graph) (id : EntityId) : Bool :=
  ((g.entity id).module?.map ModuleInfo.isPackage).getD false

/-- Where a module of a given full name goes: the package above it, if any, and its own name. -/
def modulePlace (g : Graph) (name : String) : Except GraphError (Option EntityId × String) :=
  match Dotted.qualifier? name with
  | none => .ok (none, name)
  | some (parentName, own) =>
      match g.lookup parentName with
      | none => .error (.missingParentPackage name parentName)
      | some parent =>
          if g.isPackage parent then .ok (some parent, own)
          else .error (.notAPackage name parentName)

def newModule (name : String) (parent : Option EntityId) (isPackage : Bool) (id : EntityId) :
    Entity :=
  { name, parent, home := some id, kind := some (if isPackage then .package else .module)
    payload := .module { isPackage } }

/-- Registers a module or package. -/
def addModule (g : Graph) (name : String) (isPackage : Bool) : Except GraphError (Graph × EntityId) :=
  if ((g.lookup name).map g.isModule).getD false then .error (.duplicateModule name)
  else
    match g.modulePlace name with
    | .error refusal => .error refusal
    | .ok (parent, own) =>
        let (g, id) := g.alloc (newModule own parent isPackage ⟨g.size⟩)
        match parent with
        | some parent => .ok (g.attach parent id, id)
        | none => .ok (({ g with roots := g.roots ++ [id] }).register id, id)

/-- Declares an entity under a parent, in the parent's module. -/
def addEntity (g : Graph) (parent : EntityId) (name : String) (payload : Payload)
    (kind : Option EntityKind) (line : Nat) : Graph × EntityId :=
  let (g, id) :=
    g.alloc { name, parent := some parent, home := (g.entity parent).home, kind, line, payload }
  (g.attach parent id, id)

def addClass (g : Graph) (parent : EntityId) (name : String) (line : Nat) : Graph × EntityId :=
  g.addEntity parent name (.class {}) (some .class) line

/-- A function under a class is a method. -/
def addFunction (g : Graph) (parent : EntityId) (name : String) (line : Nat) : Graph × EntityId :=
  let kind := if (g.entity parent).type = .class then .method else .function
  g.addEntity parent name (.function {}) (some kind) line

def addAttribute (g : Graph) (parent : EntityId) (name : String) (kind : Option EntityKind)
    (line : Nat) : Graph × EntityId :=
  g.addEntity parent name (.attribute {}) kind line

/-- The cleaned text of a docstring. -/
def setDocstring (g : Graph) (id : EntityId) (text : String) (line : Nat) : Graph :=
  g.modify id fun e => { e with docstring := some ⟨Docstring.clean text, line⟩ }

end DocGraph.Graph
