/-!
What an entity is: its type, which says what data it carries; its kind, which is how it is
documented; and the state of a module's build.
-/
namespace DocGraph

inductive EntityType where
  | module
  | «class»
  | function
  | attribute
deriving DecidableEq, Repr

def EntityType.tag : EntityType → String
  | .module => "module"
  | .class => "class"
  | .function => "function"
  | .attribute => "attribute"

def EntityType.all : List EntityType := [.module, .class, .function, .attribute]

inductive EntityKind where
  | package
  | module
  | «class»
  | exception
  | function
  | method
  | classMethod
  | staticMethod
  | property
  | variable
  | classVariable
  | instanceVariable
  | constant
  | typeAlias
  | typeVariable
deriving DecidableEq, Repr

namespace EntityKind

/-- The words for a kind. -/
def text : EntityKind → String
  | .package => "package"
  | .module => "module"
  | .class => "class"
  | .exception => "exception"
  | .function => "function"
  | .method => "method"
  | .classMethod => "class method"
  | .staticMethod => "static method"
  | .property => "property"
  | .variable => "variable"
  | .classVariable => "class variable"
  | .instanceVariable => "instance variable"
  | .constant => "constant"
  | .typeAlias => "type alias"
  | .typeVariable => "type variable"

/-- The words joined by underscores. -/
def tag (kind : EntityKind) : String :=
  String.ofList (kind.text.toList.map fun c => if c = ' ' then '_' else c)

def all : List EntityKind :=
  [.package, .module, .class, .exception, .function, .method, .classMethod, .staticMethod, .property,
    .variable, .classVariable, .instanceVariable, .constant, .typeAlias, .typeVariable]

end EntityKind

inductive BuildState where
  | notProcessed
  | processing
  | processed
  | errored
deriving DecidableEq, Repr

namespace BuildState

def isTerminal : BuildState → Bool
  | processed => true
  | errored => true
  | _ => false

def text : BuildState → String
  | notProcessed => "not processed"
  | processing => "processing"
  | processed => "processed"
  | errored => "errored"

def tag : BuildState → String
  | notProcessed => "not_processed"
  | processing => "processing"
  | processed => "processed"
  | errored => "errored"

def all : List BuildState := [notProcessed, processing, processed, errored]

end BuildState

end DocGraph
