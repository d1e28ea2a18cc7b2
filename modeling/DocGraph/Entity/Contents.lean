import DocGraph.NameMap

/-!
The table of an entity's children by name. Names keep the order in which they were first bound:
binding a name again puts the new child at the old place, and a name that was removed and bound
again goes to the end. An index beside the order finds a child by its name.
-/
namespace DocGraph

/-- The number of an entity in its graph. -/
structure EntityId where
  index : Nat
deriving DecidableEq, Repr

def EntityId.render (id : EntityId) : String := "ent_" ++ toString id.index

structure Contents where
  /-- The names that are bound, in the order of their first binding. -/
  order : List String := []
  index : NameMap EntityId := ∅

namespace Contents

def get? (contents : Contents) (name : String) : Option EntityId := contents.index[name]?

def contains (contents : Contents) (name : String) : Bool := (contents.get? name).isSome

def insert (contents : Contents) (name : String) (id : EntityId) : Contents :=
  { order := if contents.contains name then contents.order else contents.order ++ [name]
    index := contents.index.insert name id }

def erase (contents : Contents) (name : String) : Contents :=
  { order := contents.order.filter fun other => other != name
    index := contents.index.erase name }

/-- Binds a name. Also gives the child that it was bound to before. -/
def bind (contents : Contents) (name : String) (id : EntityId) : Option EntityId × Contents :=
  (contents.get? name, contents.insert name id)

/-- Takes a name out. Also gives the child that it was bound to; without one, nothing changes. -/
def unbind (contents : Contents) (name : String) : Option EntityId × Contents :=
  match contents.get? name with
  | none => (none, contents)
  | some removed => (some removed, contents.erase name)

/-- The names with their children, in order. -/
def entries (contents : Contents) : List (String × EntityId) :=
  contents.order.filterMap fun name => (contents.get? name).map (name, ·)

def names (contents : Contents) : List String := contents.order

def ids (contents : Contents) : List EntityId := contents.entries.map Prod.snd

def size (contents : Contents) : Nat := contents.order.length

def isEmpty (contents : Contents) : Bool := contents.order.isEmpty

theorem get?_insert (contents : Contents) (name other : String) (id : EntityId) :
    (contents.insert name id).get? other = if name = other then some id else contents.get? other :=
  NameMap.get_insert contents.index name other id

theorem get?_erase (contents : Contents) (name other : String) :
    (contents.erase name).get? other = if name = other then none else contents.get? other :=
  NameMap.get_erase contents.index name other

end Contents

end DocGraph
