import DocGraph.Graph.Basic

/-!
Attaching an entity to a parent. The child is bound in the parent's table under its name, and it
and all below it are registered under their full names. When the name is taken, one of the two
declarations keeps it and the other is renamed to the name, a space and the least free number.
-/
namespace DocGraph.Graph

def subtreeFrom (g : Graph) : Nat → EntityId → List EntityId
  | 0, _ => []
  | fuel + 1, id => id :: (g.entity id).contents.ids.flatMap (g.subtreeFrom fuel)

/-- An entity and all below it, parents before children. -/
def subtree (g : Graph) (id : EntityId) : List EntityId := g.subtreeFrom g.size id

def registerOne (g : Graph) (id : EntityId) : Graph :=
  { g with index := g.index.insert (g.fullName id) id }

/-- Frees the full name of an entity, unless it stands for another one. -/
def unregisterOne (g : Graph) (id : EntityId) : Graph :=
  let name := g.fullName id
  if g.lookup name = some id then { g with index := g.index.erase name } else g

def register (g : Graph) (id : EntityId) : Graph := (g.subtree id).foldl registerOne g

def unregister (g : Graph) (id : EntityId) : Graph := (g.subtree id).foldl unregisterOne g

def bindChild (g : Graph) (parent : EntityId) (name : String) (child : EntityId) : Graph :=
  g.modify parent fun e => { e with contents := e.contents.insert name child }

def rename (g : Graph) (id : EntityId) (name : String) : Graph :=
  g.modify id fun e => { e with name }

/-- A name with a number behind it. -/
def numbered (name : String) (n : Nat) : String := name ++ " " ++ toString n

def freeNumberFrom (g : Graph) (name : String) : Nat → Nat → Nat
  | 0, n => n
  | fuel + 1, n =>
      if (g.lookup (numbered name n)).isSome then g.freeNumberFrom name fuel (n + 1) else n

/-- The least number under which a name is free. One of the first numbers is, one more of them than
the index has names. -/
def freeNumber (g : Graph) (name : String) : Nat := g.freeNumberFrom name (g.index.size + 1) 0

/-- The declaration that keeps a name, and the one that loses it. -/
def contest (g : Graph) (previous later : EntityId) : EntityId × EntityId :=
  match g.options.duplicatePolicy with
  | .laterWins => (later, previous)
  | .firstWins => (previous, later)

/-- Binds `winner` under a name and `loser` under the numbered name. -/
def demote (g : Graph) (parent winner loser : EntityId) (name : String) (number : Nat) : Graph :=
  ((((g.unregister loser).rename loser (numbered name number)).bindChild parent name winner).bindChild
    parent (numbered name number) loser).register loser |>.register winner

def attachDuplicate (g : Graph) (parent child previous : EntityId) : Graph :=
  let (winner, loser) := g.contest previous child
  let number := g.freeNumber (g.fullName previous)
  (g.report child ("duplicate " ++ g.describe previous) "ast" 0 1).demote parent winner loser
    (g.entity child).name number

def attach (g : Graph) (parent child : EntityId) : Graph :=
  let name := (g.entity child).name
  match (g.entity parent).contents.get? name with
  | none => (g.bindChild parent name child).register child
  | some previous =>
      if previous = child then (g.bindChild parent name child).register child
      else g.attachDuplicate parent child previous

end DocGraph.Graph
