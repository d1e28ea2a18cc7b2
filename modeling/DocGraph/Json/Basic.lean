import DocGraph.Decimal.Binary64

/-!
JSON values. Integers that fit 64 bits are kept apart from other numbers, so `1` and `1.0` differ.
An object keeps its fields in the order written, repeated names included.
-/
namespace DocGraph

inductive Json.Number where
  | int (value : Int)
  | real (value : Binary64)
deriving DecidableEq, Repr

inductive Json where
  | null
  | bool (value : Bool)
  | num (value : Json.Number)
  | str (value : String)
  | arr (items : List Json)
  | obj (fields : List (String × Json))
deriving BEq, Repr

namespace Json

instance : Inhabited Json := ⟨.null⟩

def int (value : Int) : Json := .num (.int value)

def nat (value : Nat) : Json := .num (.int value)

/-- A string, or null for an absent one. -/
def optStr (value : Option String) : Json := (value.map Json.str).getD .null

def strs (values : List String) : Json := .arr (values.map Json.str)

mutual

/-- How deeply arrays and objects nest; a scalar has height zero. -/
def height : Json → Nat
  | .arr items => heights items + 1
  | .obj fields => fieldHeights fields + 1
  | _ => 0

def heights : List Json → Nat
  | [] => 0
  | item :: rest => max (height item) (heights rest)

def fieldHeights : List (String × Json) → Nat
  | [] => 0
  | (_, value) :: rest => max (height value) (fieldHeights rest)

end

mutual

/-- The same value with the fields of every object in ascending order of their names. -/
def sortKeys : Json → Json
  | .arr items => .arr (sortItems items)
  | .obj fields => .obj (sortFields fields)
  | json => json

def sortItems : List Json → List Json
  | [] => []
  | item :: rest => sortKeys item :: sortItems rest

def sortFields : List (String × Json) → List (String × Json)
  | [] => []
  | (name, value) :: rest => place (name, sortKeys value) (sortFields rest)

/-- Puts a field before the first one whose name is not below its own. -/
def place (field : String × Json) : List (String × Json) → List (String × Json)
  | [] => [field]
  | other :: rest => if other.1 < field.1 then other :: place field rest else field :: other :: rest

end

end Json

end DocGraph
