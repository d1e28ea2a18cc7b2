/-!
Paths. Two texts name one path when their components agree: slashes may be doubled or stand at the
end, and a dot counts only at the front. Paths are ordered by component.
-/
namespace DocGraph.Path

/-- The texts between slashes. -/
def cut : List Char → List (List Char)
  | [] => [[]]
  | c :: rest =>
      if c = '/' then [] :: cut rest
      else
        match cut rest with
        | [] => [[c]]
        | part :: later => (c :: part) :: later

def segments (path : String) : List String := (cut path.toList).map String.ofList

inductive Component where
  | root
  | here
  | up
  | named (name : String)
deriving DecidableEq, Repr

namespace Component

def rank : Component → Nat
  | root => 0
  | here => 1
  | up => 2
  | named _ => 3

def lt : Component → Component → Bool
  | named left, named right => left < right
  | left, right => left.rank < right.rank

/-- A segment behind the first; blank ones and dots do not count. -/
def ofInner? (segment : String) : Option Component :=
  if segment = "" ∨ segment = "." then none
  else if segment = ".." then some up
  else some (named segment)

/-- The first segment, which is empty in an absolute path. -/
def ofFirst (segment : String) : Component :=
  if segment = "" then root
  else if segment = "." then here
  else if segment = ".." then up
  else named segment

end Component

def components (path : String) : List Component :=
  match segments path with
  | [] => []
  | first :: rest =>
      (if path = "" then [] else [Component.ofFirst first]) ++ rest.filterMap Component.ofInner?

def componentsLe : List Component → List Component → Bool
  | [], _ => true
  | _ :: _, [] => false
  | left :: lefts, right :: rights =>
      if left = right then componentsLe lefts rights else left.lt right

/-- Ascending order of paths. -/
def le (left right : String) : Bool := componentsLe (components left) (components right)

/-- The path of an entry of a directory. -/
def join (directory name : String) : String :=
  if directory.toList.getLast? = some '/' then directory ++ name else directory ++ "/" ++ name

/-- The last component, if it is a name. -/
def fileName? (path : String) : Option String :=
  match (components path).getLast? with
  | some (.named name) => some name
  | _ => none

/-- The stem and the extension of a name. A dot at the front opens no extension. -/
def cutExtension (name : String) : String × Option String :=
  let reversed := name.toList.reverse
  let extension := reversed.takeWhile (· ≠ '.')
  match reversed.dropWhile (· ≠ '.') with
  | _ :: stem =>
      if stem.isEmpty then (name, none)
      else (String.ofList stem.reverse, some (String.ofList extension.reverse))
  | [] => (name, none)

/-- The name of a file without its extension; the whole path when it ends in no name. -/
def stem (path : String) : String := ((fileName? path).map fun name => (cutExtension name).1).getD path

def isJson (name : String) : Bool := (cutExtension name).2 == some "json"

end DocGraph.Path
