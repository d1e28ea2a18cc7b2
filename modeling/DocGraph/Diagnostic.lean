import DocGraph.Json.Basic

/-!
Diagnostics: what a build found odd in the source it read. All are kept; those whose threshold is
at most the verbosity are visible.
-/
namespace DocGraph

structure Diagnostic where
  /-- The module it was found in. -/
  module : String
  /-- The entity it is about. -/
  entity : String
  topic : String
  line : Nat
  message : String
  threshold : Int := -1
deriving DecidableEq, Repr

namespace Diagnostic

def render (d : Diagnostic) : String := d.module ++ ":" ++ toString d.line ++ ": " ++ d.message

def toJson (d : Diagnostic) : Json :=
  .obj [("module", .str d.module), ("entity", .str d.entity), ("section", .str d.topic),
    ("line", .nat d.line), ("message", .str d.message), ("thresh", .int d.threshold)]

end Diagnostic

structure Diagnostics where
  verbosity : Int := 0
  items : Array Diagnostic := #[]
deriving DecidableEq, Repr

namespace Diagnostics

def report (ds : Diagnostics) (d : Diagnostic) : Diagnostics := { ds with items := ds.items.push d }

def size (ds : Diagnostics) : Nat := ds.items.size

def toList (ds : Diagnostics) : List Diagnostic := ds.items.toList

def visible (ds : Diagnostics) : List Diagnostic :=
  ds.toList.filter fun d => d.threshold ≤ ds.verbosity

def inSection (ds : Diagnostics) (name : String) : List Diagnostic :=
  ds.toList.filter fun d => d.topic == name

def clear (ds : Diagnostics) : Diagnostics := { ds with items := #[] }

@[simp]
theorem toList_report (ds : Diagnostics) (d : Diagnostic) :
    (ds.report d).toList = ds.toList ++ [d] := by
  simp [toList, report]

end Diagnostics

end DocGraph
