import DocGraph.Graph.Names
import DocGraph.Expr.Literal
import DocGraph.Text.Identifier

/-!
What an attribute is, by its type hint, its value and its name: a constant, a type alias, a type
variable, or a plain variable. A final marker makes a constant for good; a name in capitals makes
one as long as it is given a single value outside blocks of control flow.
-/
namespace DocGraph.Graph

/-- The full name of a type hint in a scope, its subscript aside. -/
def hintName? (g : Graph) (scope : EntityId) (hint : Expr) : Option String :=
  hint.subscripted.dotted?.map (g.expand scope)

/-- Whether a type hint is a final marker. -/
def isFinal (g : Graph) (scope : EntityId) (hint : Option Expr) : Bool :=
  (hint.bind (g.hintName? scope)).any g.options.isFinalMarker

/-- Whether an expression builds a type. -/
def buildsType (g : Graph) (scope : EntityId) (expr : Expr) : Bool :=
  (g.hintName? scope expr).any g.options.isTypeConstructor

/-- Whether giving `value` to an attribute under `hint` makes it a constant. -/
def isConstant (g : Graph) (attr : EntityId) (hint value : Option Expr) (inFlow : Bool) :
    Bool :=
  let entity := g.entity attr
  g.isFinal attr hint
    || (value.isSome && !(entity.attribute?.bind AttributeInfo.value).isSome && !inFlow
      && Text.isUpper entity.name)

/-- Makes an attribute a constant, or ends its being one, for one assignment. The hint of the
assignment has been stored, its value has not. -/
def classifyConstant (g : Graph) (attr : EntityId) (hint value : Option Expr) (inFlow : Bool)
    (usual : EntityKind) : Graph :=
  let entity := g.entity attr
  if g.isConstant attr hint value inFlow then
    let explicit := g.isFinal attr hint
    g.modify attr fun e =>
      (e.setKind .constant).modifyAttribute fun info =>
        { info with explicitKind := info.explicitKind || explicit }
  else if entity.kind = some .constant
      ∧ ¬ (entity.attribute?.map AttributeInfo.explicitKind).getD false
      ∧ ¬ g.isFinal attr (entity.attribute?.bind AttributeInfo.hint) then
    g.modify attr (Entity.setKind usual)
  else g

/-- The attributes among the children of an entity. -/
def attributesOf (g : Graph) (scope : EntityId) : List EntityId :=
  (g.entity scope).contents.ids.filter fun id => (g.entity id).type == .attribute

/-- Whether a subscript is a slice or a tuple, which no final marker takes. -/
def isSliced : Expr → Bool
  | .slice _ _ _ => true
  | .tuple _ => true
  | _ => false

def setHint (g : Graph) (attr : EntityId) (hint : Option Expr) : Graph :=
  g.modify attr (Entity.modifyAttribute fun info => { info with hint })

/-- Replaces a final marker by the type it holds, or else by the type of the value. -/
def unwrapFinal (g : Graph) (attr : EntityId) : Graph :=
  match (g.entity attr).attribute? with
  | none => g
  | some info =>
      if g.isFinal attr info.hint then
        let inferred := info.value.bind Expr.inferType?
        match info.hint with
        | some (.subscript _ index) =>
            if isSliced index then
              (g.report attr "Annotation is invalid, it should not contain slices." "ast" 0
                (-1)).setHint attr inferred
            else g.setHint attr (some index)
        | _ => g.setHint attr inferred
      else g

def unwrapConstant (g : Graph) (attr : EntityId) : Graph :=
  if (g.entity attr).kind = some .constant then g.unwrapFinal attr else g

/-- Gives an attribute without a hint the type of its value. -/
def inferHint (g : Graph) (attr : EntityId) : Graph :=
  g.modify attr (Entity.modifyAttribute fun info =>
    { info with hint := info.hint.or (info.value.bind Expr.inferType?) })

/-- What is done to the attributes of a scope when it is left. -/
def settleScope (g : Graph) (scope : EntityId) : Graph :=
  let attributes := g.attributesOf scope
  attributes.foldl inferHint (attributes.foldl unwrapConstant g)

/-- An attribute whose value is a type, or which is marked as an alias of one. -/
def isTypeAlias (g : Graph) (attr : EntityId) : Bool :=
  match (g.entity attr).attribute? with
  | none => false
  | some info =>
      match info.value with
      | none => false
      | some value =>
          (info.hint.bind (g.hintName? attr)).any g.options.isTypeAliasMarker
            || g.buildsType ((g.entity attr).parent.getD attr) value

/-- An attribute whose value is a call that makes a type variable. -/
def isTypeVariable (g : Graph) (attr : EntityId) : Bool :=
  match (g.entity attr).attribute?.bind AttributeInfo.value with
  | some (.call func _ _) => (func.dotted?.map (g.expand attr)).any g.options.isTypeVariableConstructor
  | _ => false

/-- Marks an attribute that is a type alias or a type variable. The value of an alias is read as a
type hint. -/
def classifyType (g : Graph) (attr : EntityId) : Graph :=
  if (g.entity attr).type ≠ .attribute then g
  else if g.isTypeAlias attr then
    g.modify attr fun e =>
      (e.setKind .typeAlias).modifyAttribute fun info =>
        { info with value := info.value.map Expr.unstring }
  else if g.isTypeVariable attr then g.modify attr (Entity.setKind .typeVariable)
  else g

end DocGraph.Graph
