import DocGraph.Graph.Names

/-!
Decorators. The role of a decorator follows from its name as written, for what only members of a
class can be, and from its expanded name.
-/
namespace DocGraph

namespace DecoratorRole

/-- Names of properties end in the word `property`, capital or not. -/
def isPropertyName (name : String) : Bool :=
  "property".toList.isSuffixOf name.toList || "Property".toList.isSuffixOf name.toList

/-- The last segment of a dotted name and the one before it. -/
def lastPair? (segments : List String) : Option (String × String) :=
  match segments.reverse with
  | last :: owner :: _ => some (owner, last)
  | _ => none

/-- The role that only a decorator of a class member can have. -/
def ofMember? (segments : List String) : Option DecoratorRole :=
  if (segments.getLast?.map isPropertyName).getD false then some property
  else if segments = ["classmethod"] then some classMethod
  else if segments = ["staticmethod"] then some staticMethod
  else
    match lastPair? segments with
    | some (_, last) =>
        if last = "setter" then some setter else if last = "deleter" then some deleter else none
    | none => none

/-- The role of a decorator written as `segments` whose full name is `expanded`. -/
def classify (options : Options) (segments : List String) (expanded : String) (inClass : Bool) :
    DecoratorRole :=
  ((if inClass then ofMember? segments else none)).getD
    (if options.isOverloadMarker expanded then overload else other)

end DecoratorRole

/-- The callable of a decorator and, if the decorator is a call, its arguments. -/
def Expr.callee : Expr → Expr × Option (List Expr)
  | .call func args _ => (func, some args)
  | expr => (expr, none)

namespace Graph

/-- The decorator that an expression names in a scope; nothing if it names none. -/
def decorator? (g : Graph) (scope : EntityId) (inClass : Bool) (expr : Expr) : Option Decorator :=
  expr.callee.1.segments?.map fun segments =>
    let name := g.expand scope (Dotted.join segments)
    { name, args := expr.callee.2, role := DecoratorRole.classify g.options segments name inClass
      target := g.resolve name }

/-- A decorator of which nothing is known but its source text. -/
def plainDecorator (expr : Expr) : Decorator :=
  { name := expr.callee.1.render, args := expr.callee.2, role := .other, target := none }

end Graph

/-- The kind that `name = classmethod(name)` or its static twin gives to the method. -/
def legacyMethodKind? (target : String) : Expr → Option EntityKind
  | .call (.name func) [.name arg] _ =>
      if arg = target then
        if func = "staticmethod" then some .staticMethod
        else if func = "classmethod" then some .classMethod
        else none
      else none
  | _ => none

end DocGraph
