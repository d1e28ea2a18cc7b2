import DocGraph.Walk.State
import DocGraph.Graph.Reexport

/-!
Import statements. An import binds aliases in the open scope; an exported name is moved instead.
What is imported from a module that is not built yet waits until all modules are.
-/
namespace DocGraph.Walk

/-- `import a.b` binds `a`, and `import a.b as c` binds `c` to `a.b`. -/
def importBinding (item : ImportAlias) : String × String :=
  match item.asName with
  | some asName => (asName, item.name)
  | none => (Dotted.head item.name, Dotted.head item.name)

def importModule (w : Walk) (g : Graph) (item : ImportAlias) : Graph :=
  let (name, target) := importBinding item
  if w.isGuarded w.current name then g else g.modify w.current (Entity.bindAlias name target)

def importModules (w : Walk) (names : List ImportAlias) : Graph :=
  if w.scope.isContainer then names.foldl w.importModule w.graph else w.graph

/-- How far a relative import climbs from its module: a package is its own first level. -/
def climb (isPackage : Bool) (level : Nat) : Nat := if isPackage then level - 1 else level

/-- The full name of the module that an import names; nothing if its level leads out of the root. -/
def originName? (w : Walk) (name : Option String) (level : Nat) : Option String :=
  if level = 0 then some (name.getD "")
  else
    (w.graph.ancestors w.module)[climb (w.graph.isPackage w.module) level]?.map fun base =>
      match name with
      | some name => Dotted.extend (w.graph.fullName base) name
      | none => w.graph.fullName base

/-- What an import moves rather than binds: the exports of the module, at its top level. -/
def exports (w : Walk) : List String :=
  if w.current = w.module then w.graph.exportsOf w.module else []

/-- A name that cannot be looked at before its module is built. -/
def isUnbuilt (g : Graph) (origin : EntityId) (name : String) : Bool :=
  g.moduleState? origin == some .notProcessed && !(g.entity origin).contents.contains name

/-- Binds one name imported from `origin`. -/
def importName (w : Walk) (exports : List String) (origin : String) (originId : Option EntityId)
    (line : Nat) (g : Graph) (item : ImportAlias) : Graph :=
  let bind (g : Graph) : Graph :=
    g.modify w.current (Entity.bindAlias item.bound (Dotted.extend origin item.name))
  if w.isGuarded w.current item.bound then g
  else
    match originId with
    | none => bind g
    | some id =>
        if isUnbuilt g id item.name && exports.contains item.bound then
          bind (g.deferImport w.module (.reexport origin item.name item.bound line))
        else
          match g.reexport w.current exports id item.name item.bound line with
          | (g, true) => g
          | (g, false) => bind g

def importNames (w : Walk) (origin : String) (names : List ImportAlias) (line : Nat) : Graph :=
  names.foldl (w.importName w.exports origin (w.graph.lookupModule origin) line) w.graph

/-- `from origin import *`. -/
def importAll (w : Walk) (origin : String) (line : Nat) : Graph :=
  match w.graph.lookupModule origin with
  | none => w.reportAt ("import * from unknown " ++ origin) "import" line 1
  | some id =>
      let g := w.reportAt ("import * from " ++ origin) "import" line 1
      let blocked := w.guardedNames w.current
      if g.moduleState? id = some .notProcessed then
        g.deferImport w.module (.star origin w.current blocked line)
      else (g.importStar w.current id w.exports blocked line).1

/-- Whether an import takes all names: a star, and nothing beside it. -/
def isStar : List ImportAlias → Bool
  | [item] => item.name == "*"
  | _ => false

def importFrom (w : Walk) (name : Option String) (names : List ImportAlias) (level line : Nat) :
    Graph :=
  if w.scope.isContainer then
    match w.originName? name level with
    | none =>
        w.reportAt ("relative import level (" ++ toString level ++ ") too high") "import" line (-1)
    | some origin => if isStar names then w.importAll origin line else w.importNames origin names line
  else w.graph

end DocGraph.Walk
