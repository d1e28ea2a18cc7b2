import DocGraph.Finish
import DocGraph.Failure

/-!
The report of a build: what is known of every module and entity, in the order of their full names,
what was finished, and the diagnostics that are visible. What an entity does not have is left out of
its JSON.
-/
namespace DocGraph

structure ModuleRecord where
  name : String
  state : BuildState
  isPackage : Bool
  exports : Option (List String)
  docFormat : Option String
deriving DecidableEq, Repr

structure EntityRecord where
  fullName : String
  type : EntityType
  kind : Option EntityKind
  line : Nat
  docstring : Option String
  bases : List String := []
  /-- Along `bases`; nothing where a base is unknown. -/
  resolvedBases : List (Option String) := []
  subclasses : List String := []
  mro : Option (List String) := none
  signature : Option String := none
  overloads : Nat := 0
  hint : Option String := none
  value : Option String := none
  notes : List String
deriving DecidableEq, Repr

structure Report where
  modules : List ModuleRecord
  entities : List EntityRecord
  summary : Summary
  diagnostics : List Diagnostic
deriving DecidableEq, Repr

namespace ModuleRecord

def ofInfo (g : Graph) (id : EntityId) (info : ModuleInfo) : ModuleRecord :=
  { name := g.fullName id, state := info.state, isPackage := info.isPackage
    exports := info.exports, docFormat := info.docFormat }

def toJson (r : ModuleRecord) : Json :=
  .obj ([("name", .str r.name), ("state", .str r.state.tag), ("is_package", .bool r.isPackage)]
    ++ r.exports.toList.map (fun names => ("all", .strs names))
    ++ r.docFormat.toList.map (fun name => ("docformat", .str name)))

end ModuleRecord

namespace EntityRecord

/-- What is known of every entity. -/
def common (g : Graph) (id : EntityId) : EntityRecord :=
  let e := g.entity id
  { fullName := g.fullName id, type := e.type, kind := e.kind, line := e.line
    docstring := e.docstring.map Docstring.text, notes := e.notes }

def ofEntity (g : Graph) (id : EntityId) : EntityRecord :=
  let record := common g id
  match (g.entity id).payload with
  | .module _ => record
  | .class info =>
      { record with
        bases := info.bases.names
        resolvedBases := info.bases.targets.map fun target => target.map g.fullName
        subclasses := info.subclasses.map g.fullName
        mro := info.mro.map fun order => order.map g.fullName }
  | .function info =>
      { record with
        signature := info.signature.map Signature.render
        overloads := info.overloads.length }
  | .attribute info =>
      { record with
        hint := info.hint.map Expr.render
        value := info.value.map Expr.render }

/-- A field for a list, unless it is empty. -/
def listField (name : String) (items : List Json) : List (String × Json) :=
  if items.isEmpty then [] else [(name, .arr items)]

def textField (name : String) (text : Option String) : List (String × Json) :=
  text.toList.map fun text => (name, .str text)

def toJson (r : EntityRecord) : Json :=
  .obj ([("full_name", .str r.fullName), ("type", .str r.type.tag)]
    ++ textField "kind" (r.kind.map EntityKind.tag)
    ++ [("line", .nat r.line)]
    ++ textField "docstring" r.docstring
    ++ listField "bases" (r.bases.map Json.str)
    ++ listField "resolved_bases" (r.resolvedBases.map Json.optStr)
    ++ listField "subclasses" (r.subclasses.map Json.str)
    ++ r.mro.toList.map (fun names => ("mro", .strs names))
    ++ textField "signature" r.signature
    ++ (if r.overloads = 0 then [] else [("overloads", .nat r.overloads)])
    ++ textField "annotation" r.hint
    ++ textField "value" r.value
    ++ listField "extra_info" (r.notes.map Json.str))

end EntityRecord

namespace Report

def ofGraph (g : Graph) (summary : Summary) : Report :=
  let modules := g.ids.filterMap fun id => (g.entity id).module?.map (ModuleRecord.ofInfo g id)
  let entities := (g.ids.filter fun id => !g.isModule id).map (EntityRecord.ofEntity g)
  { modules := modules.mergeSort fun left right => left.name ≤ right.name
    entities := entities.mergeSort fun left right => left.fullName ≤ right.fullName
    summary, diagnostics := g.diagnostics.visible }

def entity? (r : Report) (name : String) : Option EntityRecord :=
  r.entities.find? fun entity => entity.fullName == name

def module? (r : Report) (name : String) : Option ModuleRecord :=
  r.modules.find? fun module => module.name == name

def toJson (r : Report) : Json :=
  .obj (Response.header "ok"
    ++ [("modules", .arr (r.modules.map ModuleRecord.toJson)),
      ("entities", .arr (r.entities.map EntityRecord.toJson)),
      ("post_process", r.summary.toJson),
      ("diagnostics", .arr (r.diagnostics.map Diagnostic.toJson))])

end Report

end DocGraph
