import DocGraph.Files.Path

/-!
Trees of files. A path is followed segment by segment from a directory, and every segment, also an
empty one, must be applied to a directory.
-/
namespace DocGraph

inductive Node where
  | file (content : ByteArray)
  | directory (entries : List (String × Node))

namespace Node

def empty : Node := .directory []

/-- Follows segments from the first of `stack`, the nodes above it behind. -/
def follow : List String → List Node → Option Node
  | [], stack => stack.head?
  | segment :: rest, .directory entries :: above =>
      if segment = "" ∨ segment = "." then follow rest (.directory entries :: above)
      else if segment = ".." then follow rest above
      else
        match entries.lookup segment with
        | some child => follow rest (child :: .directory entries :: above)
        | none => none
  | _ :: _, _ => none

/-- What stands at a relative path. -/
def at? (root : Node) (path : String) : Option Node :=
  match path.toList with
  | [] => none
  | '/' :: _ => none
  | _ => follow (Path.segments path) [root]

def setEntry (name : String) (node : Node) : List (String × Node) → List (String × Node)
  | [] => [(name, node)]
  | entry :: rest => if entry.1 = name then (name, node) :: rest else entry :: setEntry name node rest

/-- Changes what stands at the end of some segments; directories on the way are made. -/
def plant (change : Node → Node) : List String → Node → Node
  | [], node => change node
  | segment :: rest, .directory entries =>
      if segment = "" ∨ segment = "." then plant change rest (.directory entries)
      else
        .directory (setEntry segment (plant change rest ((entries.lookup segment).getD empty)) entries)
  | _ :: _, .file content => .file content

def addDirectory (root : Node) (path : String) : Node := root.plant id (Path.segments path)

def addFile (root : Node) (path : String) (content : ByteArray) : Node :=
  root.plant (fun _ => .file content) (Path.segments path)

mutual

/-- The files below a node that stands at `path`, with their contents, if they hold JSON by name. -/
def jsonFiles (path name : String) : Node → List (String × ByteArray)
  | .file content => if Path.isJson name then [(path, content)] else []
  | .directory entries => jsonFilesIn path entries

def jsonFilesIn (directory : String) : List (String × Node) → List (String × ByteArray)
  | [] => []
  | (name, node) :: rest => jsonFiles (Path.join directory name) name node ++ jsonFilesIn directory rest

end

/-- A file as it is given, or the JSON files below a directory. -/
def filesAt (path : String) : Node → List (String × ByteArray)
  | .file content => [(path, content)]
  | .directory entries => jsonFilesIn path entries

end Node

end DocGraph
