import DocGraph.Graph.Basic
import DocGraph.Expr.Literal
import DocGraph.Text.Blank
import DocGraph.Text.Lowering

/-!
What a module says about itself at its top level: the names it exports, in `__all__`, and the markup
of its docstrings, in `__docformat__`. Both are read before the module is walked.
-/
namespace DocGraph

/-- The name of the type of a literal. -/
def Expr.literalTypeName : Expr → String
  | .constant value => value.typeName
  | .list _ => "list"
  | .tuple _ => "tuple"
  | .set _ => "set"
  | .dict _ _ => "dict"
  | .unary _ operand => operand.literalTypeName
  | _ => "object"

namespace Graph

/-- The elements of a list or tuple. -/
def elements? : Expr → Option (List Expr)
  | .list elts => some elts
  | .tuple elts => some elts
  | _ => none

/-- What is wrong with an element of `__all__`. -/
def exportProblem (index : Nat) (element : Expr) : String :=
  if element.isLiteral then
    "Element " ++ toString index ++ " of \"__all__\" has type \"" ++ element.literalTypeName
      ++ "\", expected \"str\""
  else "Cannot parse element " ++ toString index ++ " of \"__all__\""

/-- The complaints about the elements from `index` on that are no strings. -/
def exportProblems (index : Nat) : List Expr → List String
  | [] => []
  | element :: rest =>
      match element.str? with
      | some _ => exportProblems (index + 1) rest
      | none => exportProblem index element :: exportProblems (index + 1) rest

def readExports (g : Graph) (module : EntityId) (value : Expr) (line : Nat) : Graph :=
  let warn (g : Graph) (message : String) : Graph := g.report module message "all" line (-1)
  match elements? value with
  | none => warn g "Cannot parse value assigned to \"__all__\""
  | some elements =>
      let g := (exportProblems 0 elements).foldl warn g
      let before := (g.entity module).module?.bind ModuleInfo.exports
      let g := g.modify module (Entity.modifyModule fun info =>
        { info with exports := some (elements.filterMap Expr.str?) })
      if before.isSome then warn g "Assignment to \"__all__\" overrides previous assignment" else g

def readDocFormat (g : Graph) (module : EntityId) (value : Expr) (line : Nat) : Graph :=
  let warn (g : Graph) (message : String) : Graph := g.report module message "docformat" line (-1)
  match value.str? with
  | none => warn g "Cannot parse value assigned to \"__docformat__\": not a string"
  | some text =>
      match Text.firstWord? text with
      | none => warn g "Cannot parse value assigned to \"__docformat__\": empty value"
      | some word =>
          let before := (g.entity module).module?.bind ModuleInfo.docFormat
          let g := g.modify module (Entity.modifyModule fun info =>
            { info with docFormat := some (Text.lower word) })
          if before.isSome then warn g "Assignment to \"__docformat__\" overrides previous assignment"
          else g

def readMetadataOf (module : EntityId) (g : Graph) (stmt : Stmt) : Graph :=
  match stmt with
  | .assign [.name name] value _ line =>
      if name = "__all__" then g.readExports module value line
      else if name = "__docformat__" then g.readDocFormat module value line
      else g
  | _ => g

/-- Reads what the top level of a module says about the module. -/
def readMetadata (g : Graph) (module : EntityId) (body : List Stmt) : Graph :=
  body.foldl (readMetadataOf module) g

end Graph

end DocGraph
