import DocGraph.Build
import DocGraph.Report
import DocGraph.Files.Node
import DocGraph.Tree.Decode

/-!
Building a set of modules at once. Packages are registered before what they hold, then all modules
are built in the same order, and the graph is finished.
-/
namespace DocGraph

open Json (Decoder Fault Form Record)

/-- A module to be built: its tree, or why there is none. -/
structure SourceModule where
  name : String
  isPackage : Bool
  source : Except SourceError Module

namespace SourceModule

def depth (input : SourceModule) : Nat := Dotted.depth input.name

def form : Form :=
  .record "struct InputDocument" ["name"]
    [("name", .string), ("is_package", .boolean),
      ("tree", .optional (.record "struct Module" []
        [("body", .list (.tagged Stmt.variants.expected Stmt.variants.tags fun json => do
          let _ ← Stmt.ofJson json))])),
      ("error", .optional .string)]

/-- The source that a file gives: a stated error counts before a tree. -/
def sourceOf (name : String) (tree : Option Module) (error : Option String) :
    Except SourceError Module :=
  match error, tree with
  | some reason, _ => .error (.unparseable name reason)
  | none, some tree => .ok tree
  | none, none => .error (.unparseable name "input has neither a tree nor an error")

def make (name : String) (isPackage : Bool) (tree : Option Module) (error : Option String) :
    SourceModule :=
  { name, isPackage, source := sourceOf name tree error }

def ofJson (json : Json) : Except Fault SourceModule := do
  let r ← Record.ofJson "struct InputDocument" ["name", "is_package", "tree", "error"] json
  r.whole (make <$> r.required "name" Decoder.str <*> r.defaulted "is_package" false Decoder.bool
    <*> r.optional "tree" Module.ofJson <*> r.optional "error" Decoder.str)

/-- The module that a text describes, or what is wrong with the text. -/
def ofText (text : String) : Except String SourceModule := do
  let json ← (Json.read form text).mapError Json.LocatedFault.message
  (ofJson json).mapError Fault.message

/-- The module that a file describes, or why it describes none. -/
def read (path : String) (content : ByteArray) : Except SourceError SourceModule :=
  match String.fromUTF8? content with
  | none => .error (.unreadable path)
  | some text => (ofText text).mapError (.unparseable path)

/-- A module of which nothing is known but its file. -/
def failed (path : String) (error : SourceError) : SourceModule :=
  { name := Path.stem path, isPackage := false, source := .error error }

/-- The module that a file describes. A file that does not describe one gives a module without a
tree, under the name of the file. -/
def load (path : String) (content : ByteArray) : SourceModule :=
  match read path content with
  | .ok input => input
  | .error error => failed path error

end SourceModule

namespace Batch

/-- Keeps the first of neighbours that name one path. -/
def dropRepeats : List (String × ByteArray) → List (String × ByteArray)
  | [] => []
  | first :: rest =>
      match dropRepeats rest with
      | [] => [first]
      | next :: later =>
          if Path.components first.1 = Path.components next.1 then first :: later
          else first :: next :: later

/-- The module files at some paths, in the order of their paths. `look` gives what stands at one. -/
def collect (look : String → Option Node) (paths : List String) :
    Except Failure (List (String × ByteArray)) := do
  let found ← paths.mapM fun path =>
    match look path with
    | some node => .ok (node.filesAt path)
    | none => .error (.fileNotFound path)
  return dropRepeats (found.flatten.mergeSort fun left right => Path.le left.1 right.1)

def register (state : Graph × List (EntityId × SourceModule)) (input : SourceModule) :
    Except Failure (Graph × List (EntityId × SourceModule)) :=
  match state.1.addModule input.name input.isPackage with
  | .ok (g, id) => .ok (g, state.2 ++ [(id, input)])
  | .error reason => .error (.moduleRegistration input.name reason.message)

def buildOne (g : Graph) (entry : EntityId × SourceModule) : Except Failure Graph :=
  match g.build Hook.standard entry.1 entry.2.source with
  | .ok (g, _) => .ok g
  | .error reason => .error (.internal reason.message)

def finish (g : Graph) : Except Failure (Graph × Summary) :=
  match g.finish with
  | .ok finished => .ok finished
  | .error reason => .error (.internal reason.message)

/-- Modules with fewer dots come first; apart from that their order stays. -/
def byDepth (inputs : List SourceModule) : List SourceModule :=
  inputs.mergeSort fun left right => left.depth ≤ right.depth

def build (options : Options) (inputs : List SourceModule) : Except Failure Report := do
  let (g, entries) ← (byDepth inputs).foldlM register (Graph.empty options, [])
  let g ← entries.foldlM buildOne g
  let (g, summary) ← finish g
  return Report.ofGraph g.dropTrees summary

end Batch

end DocGraph
