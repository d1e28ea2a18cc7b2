import DocGraph.Graph.Bases

/-!
Names in scopes. Expansion turns a dotted name written in some scope into a full name; resolution
finds the entity that a full name denotes, following aliases across modules. Neither fails: a name
that nothing binds expands to what was written and resolves to nothing.
-/
namespace DocGraph.Graph

/-- The nearest module or class around an entity, itself included; the root if there is none. -/
def scopeContainer (g : Graph) (id : EntityId) : EntityId :=
  let chain := g.ancestors id
  ((chain.find? fun ancestor => (g.entity ancestor).isContainer).or chain.getLast?).getD id

/-- Names bound in a scope: children in order, then aliases. A number behind a name hides it. -/
def localNames (g : Graph) (id : EntityId) : List String :=
  let entity := g.entity id
  (entity.contents.names.filter fun name => !name.toList.contains ' ')
    ++ entity.aliases.keys.filter fun name => !entity.contents.contains name

/-- The full name bound to a name in one entity's own tables. -/
def ownBinding? (g : Graph) (id : EntityId) (name : String) : Option String :=
  let entity := g.entity id
  match entity.contents.get? name with
  | some child => some (g.fullName child)
  | none => entity.aliases[name]?

/-- Looks a name up along a chain of scopes, innermost first. A module ends the search; functions
and attributes bind nothing. -/
def localNameAlong (g : Graph) (name : String) : List EntityId → String
  | [] => name
  | id :: rest =>
      match (g.entity id).type with
      | .module => (g.ownBinding? id name).getD name
      | .class => (g.ownBinding? id name).getD (g.localNameAlong name rest)
      | _ => g.localNameAlong name rest

/-- The full name that a single name stands for in a scope; the name itself if nothing binds it. -/
def localName (g : Graph) (id : EntityId) (name : String) : String :=
  g.localNameAlong name (g.ancestors id)

/-- `budget` bounds the names still to be looked at on the way to one answer. -/
def resolveWithin (g : Graph) : Nat → String → Option EntityId
  | 0, _ => none
  | budget + 1, name =>
      match g.lookup name with
      | some id => some id
      | none =>
          match Dotted.qualifier? name with
          | none => none
          | some (qualifier, last) =>
              match g.resolveWithin budget qualifier with
              | none => none
              | some container =>
                  match (g.entity container).contents.get? last with
                  | some child => some child
                  | none =>
                      match (g.entity container).aliases[last]? with
                      | none => none
                      | some target => if target = name then none else g.resolveWithin budget target

/-- The entity that a full name denotes. -/
def resolve (g : Graph) (name : String) : Option EntityId :=
  g.resolveWithin (g.options.maxAliasDepth + 1) name

/-- Where one segment of a name leads. -/
inductive Reach where
  /-- To an entity, in which the next segment is looked up. -/
  | entity (id : EntityId)
  /-- To a name outside the graph, to which the other segments are appended. -/
  | outside (name : String)

def follow (g : Graph) (name : String) : Reach :=
  match g.resolve name with
  | some id => .entity id
  | none => .outside name

/-- The first segment, looked up in the scope and around it. -/
def reachFirst (g : Graph) (scope : EntityId) (segment : String) : Reach :=
  g.follow (g.localName scope segment)

/-- A member segment. What no scope binds is sought among inherited members. -/
def reachMember (g : Graph) (owner : EntityId) (segment : String) : Reach :=
  let bound := g.localName owner segment
  if bound ≠ segment then g.follow bound
  else
    match g.find owner segment with
    | none => .outside (Dotted.extend (g.fullName owner) segment)
    | some member =>
        if g.fullName member = segment then .outside (Dotted.extend (g.fullName owner) segment)
        else g.follow (g.fullName member)

/-- Continues from an entity through the remaining segments. -/
def expandMembers (g : Graph) (owner : EntityId) : List String → String
  | [] => g.fullName owner
  | segment :: rest =>
      match g.reachMember owner segment with
      | .entity next => g.expandMembers next rest
      | .outside name => Dotted.join (name :: rest)

def expandSegments (g : Graph) (scope : EntityId) : List String → String
  | [] => ""
  | segment :: rest =>
      match g.reachFirst scope segment with
      | .entity next => g.expandMembers next rest
      | .outside name => Dotted.join (name :: rest)

/-- The full name of a dotted name written in a scope. -/
def expand (g : Graph) (scope : EntityId) (dotted : String) : String :=
  g.expandSegments scope (Dotted.parts dotted)

/-- The entity that a dotted name written in a scope denotes. -/
def resolveIn (g : Graph) (scope : EntityId) (dotted : String) : Option EntityId :=
  g.resolve (g.expand scope dotted)

/-- The module registered under a full name. -/
def lookupModule (g : Graph) (name : String) : Option EntityId :=
  (g.lookup name).filter fun id => (g.entity id).type == .module

end DocGraph.Graph
