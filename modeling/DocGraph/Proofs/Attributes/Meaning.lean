import DocGraph.Proofs.Bases.Locality
import DocGraph.Proofs.Finish.ForwardBases
import DocGraph.Proofs.Hints.Unstrung

namespace DocGraph

namespace Expr

theorem unstring_of_dotted? {expr : Expr} {dotted : String} (spelled : expr.dotted? = some dotted) :
    expr.unstring = expr := by
  cases expr <;> simp [dotted?, segments?, unstring] at spelled ⊢

theorem dotted?_subscripted_unstring {expr : Expr} {dotted : String}
    (spelled : expr.subscripted.dotted? = some dotted) : expr.unstring.subscripted.dotted? = some dotted := by
  cases expr with
  | subscript value index =>
      rw [subscripted] at spelled
      rw [unstring, subscripted, unstring_of_dotted? spelled, spelled]
  | name | «attribute» => simpa [unstring] using spelled
  | _ => simp [subscripted, dotted?, segments?] at spelled

end Expr

namespace Entity

theorem attribute?_modifyAttribute (e : Entity) (f : AttributeInfo → AttributeInfo) :
    (e.modifyAttribute f).attribute? = e.attribute?.map f := by
  unfold modifyAttribute
  split <;> simp_all [attribute?]

theorem attribute?_isSome (e : Entity) : e.attribute?.isSome ↔ e.type = .attribute := by
  cases payload : e.payload <;> simp [attribute?, type, Payload.type, payload]

theorem type_of_attribute? {e : Entity} {info : AttributeInfo} (found : e.attribute? = some info) :
    e.type = .attribute := by
  rw [← attribute?_isSome, found]
  rfl

theorem modifyAttribute_eq_self {e : Entity} {f : AttributeInfo → AttributeInfo}
    (fixed : ∀ info, e.attribute? = some info → f info = info) : e.modifyAttribute f = e := by
  unfold modifyAttribute
  split
  · rename_i info payload
    rw [fixed info (by simp [attribute?, payload]), ← payload]
  · rfl

end Entity

namespace Graph

variable {g h : Graph} {id attr scope : EntityId}

theorem find_congr {name : String} (class? : ∀ id, (h.entity id).class? = (g.entity id).class?)
    (bound : ∀ scope, (h.entity scope).contents.get? name = (g.entity scope).contents.get? name) (id : EntityId) :
    h.find id name = g.find id name := by
  have bases (id : EntityId) : h.basesOf id = g.basesOf id := by
    rw [basesOf, basesOf, Entity.bases_eq, Entity.bases_eq, class?]
  have alike : SameBases (fun _ => True) g h := ⟨fun _ => bases _, fun _ _ => trivial⟩
  unfold Graph.find
  rw [class?]
  simp only [bound, searchOrder, alike.depthFirstBases trivial]

namespace Annotated

variable (annotated : Annotated g h)

include annotated

theorem rebased : Rebased g h :=
  Entrywise.imp (fun same => ⟨same.toOverlaid, same.aliases⟩) annotated

theorem find (id : EntityId) (name : String) : h.find id name = g.find id name :=
  find_congr (fun id => (annotated.entity id).class?) (fun scope => by rw [(annotated.entity scope).contents]) id

theorem expand (scope : EntityId) (dotted : String) : h.expand scope dotted = g.expand scope dotted := by
  have rebased := annotated.rebased
  have follow (name : String) : h.follow name = g.follow name := by
    rw [Graph.follow, rebased.resolve, Graph.follow]
  have members (owner : EntityId) (segments : List String) :
      h.expandMembers owner segments = g.expandMembers owner segments := by
    induction segments generalizing owner with
    | nil => exact rebased.sameTree.fullName owner
    | cons segment rest ih =>
        have reached : h.reachMember owner segment = g.reachMember owner segment := by
          unfold reachMember
          simp only [rebased.localName, follow, annotated.find, rebased.sameTree.fullName]
        rw [expandMembers, expandMembers, reached]
        simp only [ih]
  unfold Graph.expand
  cases Dotted.parts dotted with
  | nil => rfl
  | cons segment rest =>
      rw [expandSegments, expandSegments, reachFirst, reachFirst, rebased.localName, follow]
      simp only [members]

theorem hintName? (scope : EntityId) (hint : Expr) : h.hintName? scope hint = g.hintName? scope hint := by
  unfold Graph.hintName?
  congr 1
  funext dotted
  exact annotated.expand scope dotted

theorem isFinal (scope : EntityId) (hint : Option Expr) : h.isFinal scope hint = g.isFinal scope hint := by
  unfold Graph.isFinal
  simp only [annotated.options, annotated.hintName?]

theorem buildsType (scope : EntityId) (expr : Expr) : h.buildsType scope expr = g.buildsType scope expr := by
  rw [Graph.buildsType, Graph.buildsType, annotated.hintName?, annotated.options]

section same

variable (same : (h.entity attr).attribute? = (g.entity attr).attribute?)

include same

theorem isTypeAlias : h.isTypeAlias attr = g.isTypeAlias attr := by
  unfold Graph.isTypeAlias
  simp only [same, annotated.options, annotated.hintName?, annotated.buildsType, (annotated.entity attr).parent]

theorem isTypeVariable : h.isTypeVariable attr = g.isTypeVariable attr := by
  have expanded : h.expand attr = g.expand attr := funext (annotated.expand attr)
  unfold Graph.isTypeVariable
  rw [same, annotated.options, expanded]

end same

end Annotated

/-- What the classification of types makes of an entity. -/
def retyped (g : Graph) (id : EntityId) : Entity :=
  if g.isTypeAlias id then
    ((g.entity id).setKind .typeAlias).modifyAttribute fun info =>
      { info with value := info.value.map Expr.unstring }
  else if g.isTypeVariable id then (g.entity id).setKind .typeVariable
  else g.entity id

theorem isTypeAlias_of_other (other : (g.entity id).type ≠ .attribute) : g.isTypeAlias id = false := by
  have none : (g.entity id).attribute? = none := by
    rw [← Option.not_isSome_iff_eq_none, Entity.attribute?_isSome]
    exact other
  simp [isTypeAlias, none]

theorem isTypeVariable_of_other (other : (g.entity id).type ≠ .attribute) : g.isTypeVariable id = false := by
  have none : (g.entity id).attribute? = none := by
    rw [← Option.not_isSome_iff_eq_none, Entity.attribute?_isSome]
    exact other
  simp [isTypeVariable, none]

theorem classifyType_eq (g : Graph) (attr : EntityId) :
    g.classifyType attr = g.modify attr fun _ => g.retyped attr := by
  have changed (f : Entity → Entity) : g.modify attr f = g.modify attr fun _ => f (g.entity attr) := by
    have entities : g.entities.modify attr.index f =
        g.entities.modify attr.index fun _ => f (g.entity attr) := by
      refine Array.ext (by simp) fun i bound _ => ?_
      rw [Array.size_modify] at bound
      rw [Array.getElem_modify, Array.getElem_modify]
      split
      · rename_i same
        subst same
        simp [entity, bound]
      · rfl
    rw [modify, modify, entities]
  have unchanged : g.modify attr (fun _ => g.entity attr) = g := modify_eq_self rfl
  unfold classifyType retyped
  split
  · rename_i other
    rw [isTypeAlias_of_other other, isTypeVariable_of_other other]
    exact unchanged.symm
  · split
    · exact changed _
    · split
      · exact changed _
      · exact unchanged.symm

theorem entity_classifyType (g : Graph) (attr id : EntityId) :
    (g.classifyType attr).entity id = if attr = id then g.retyped id else g.entity id := by
  rw [classifyType_eq, entity_modify]
  by_cases same : attr = id
  · subst same
    by_cases inside : g.Has attr
    · simp [inside]
    · have empty := g.entity_of_not_has inside
      simp [inside, retyped, isTypeAlias, isTypeVariable, empty, Entity.absent, Entity.attribute?]
  · simp [same]

theorem isTypeAlias_unstring (annotated : Annotated g h) (isAlias : g.isTypeAlias attr = true)
    (read : (h.entity attr).attribute? = (g.entity attr).attribute?.map fun info =>
      { info with value := info.value.map Expr.unstring }) : h.isTypeAlias attr = true := by
  unfold isTypeAlias at isAlias ⊢
  rw [read]
  cases stored : (g.entity attr).attribute? with
  | none => simp [stored] at isAlias
  | some info =>
      cases given : info.value with
      | none => simp [stored, given] at isAlias
      | some value =>
          simp only [stored, given, Option.map_some, Bool.or_eq_true] at isAlias ⊢
          refine isAlias.imp (fun marked => ?_) fun built => ?_
          · simpa only [annotated.options, annotated.hintName?] using marked
          · rw [(annotated.entity attr).parent, annotated.buildsType]
            unfold buildsType hintName? at built ⊢
            cases spelled : value.subscripted.dotted? with
            | none => simp [spelled] at built
            | some dotted =>
                rw [Expr.dotted?_subscripted_unstring spelled]
                rwa [spelled] at built

theorem retyped_classifyType (g : Graph) (attr id : EntityId) : (g.classifyType attr).retyped id = g.retyped id := by
  have annotated : Annotated g (g.classifyType attr) := (told_classifyType g attr).toEntrywise
  have entity := entity_classifyType g attr id
  generalize g.classifyType attr = h at annotated entity
  by_cases same : attr = id
  · subst same
    rw [if_pos rfl] at entity
    by_cases isAlias : g.isTypeAlias attr = true
    · have marked : g.retyped attr = ((g.entity attr).setKind .typeAlias).modifyAttribute fun info =>
          { info with value := info.value.map Expr.unstring } := by rw [retyped, if_pos isAlias]
      have read : (h.entity attr).attribute? = (g.entity attr).attribute?.map fun info =>
          { info with value := info.value.map Expr.unstring } := by
        rw [entity, marked, Entity.attribute?_modifyAttribute]
        rfl
      rw [retyped, if_pos (isTypeAlias_unstring annotated isAlias read), entity]
      -- The kind is set, and a value that has been read as a hint reads the same again.
      have kind : (g.retyped attr).setKind .typeAlias = g.retyped attr := by
        have stored : (g.retyped attr).kind = some .typeAlias := by
          rw [marked, Entity.kind_modifyAttribute]
          rfl
        rw [Entity.setKind, ← stored]
      rw [kind]
      refine Entity.modifyAttribute_eq_self fun info found => ?_
      rw [← entity, read] at found
      obtain ⟨before, _, rfl⟩ := Option.map_eq_some_iff.mp found
      simp only [Option.map_map, Function.comp_def, Expr.unstring_unstring]
    · rw [Bool.not_eq_true] at isAlias
      by_cases isVariable : g.isTypeVariable attr = true
      · have marked : g.retyped attr = (g.entity attr).setKind .typeVariable := by
          rw [retyped, if_neg (by simp [isAlias]), if_pos isVariable]
        have info : (h.entity attr).attribute? = (g.entity attr).attribute? := by
          rw [entity, marked]
          rfl
        rw [retyped, annotated.isTypeAlias info, isAlias, annotated.isTypeVariable info, if_neg (by simp),
          if_pos isVariable, entity, marked]
        rfl
      · rw [Bool.not_eq_true] at isVariable
        have unmarked : g.retyped attr = g.entity attr := by
          rw [retyped, isAlias, isVariable]
          rfl
        rw [unmarked] at entity
        have info := congrArg Entity.attribute? entity
        rw [retyped, annotated.isTypeAlias info, isAlias, annotated.isTypeVariable info, isVariable, unmarked]
        simpa using entity
  · rw [if_neg same] at entity
    have info := congrArg Entity.attribute? entity
    rw [retyped, annotated.isTypeAlias info, annotated.isTypeVariable info, entity, retyped]

/-- The entities of a scope that targets name. -/
def named (g : Graph) (scope : EntityId) (targets : List Expr) : List EntityId :=
  targets.filterMap fun target => target.name?.bind (g.entity scope).contents.get?

theorem foldl_classifyTarget (g : Graph) (scope : EntityId) (targets : List Expr) :
    targets.foldl (Hook.classifyTarget scope) g = (g.named scope targets).foldl classifyType g := by
  induction targets generalizing g with
  | nil => rfl
  | cons target rest ih =>
      rw [List.foldl_cons, ih, Hook.classifyTarget]
      unfold named
      rw [List.filterMap_cons]
      cases found : target.name?.bind (g.entity scope).contents.get? with
      | none => rfl
      | some attr =>
          rw [List.foldl_cons]
          simp only [((told_classifyType g attr).entity scope).contents]

theorem entity_foldl_classifyType (g : Graph) (attributes : List EntityId) (id : EntityId) :
    (attributes.foldl classifyType g).entity id = if id ∈ attributes then g.retyped id else g.entity id := by
  induction attributes generalizing g with
  | nil => rfl
  | cons attr rest ih =>
      rw [List.foldl_cons, ih, retyped_classifyType, entity_classifyType]
      by_cases same : attr = id
      · simp [same]
      · simp [same, Ne.symm same]

theorem foldl_classifyType_eq (g : Graph) (attributes : List EntityId) :
    attributes.foldl classifyType g = { g with entities := (attributes.foldl classifyType g).entities } := by
  induction attributes generalizing g with
  | nil => rfl
  | cons attr rest ih =>
      rw [List.foldl_cons, ih, classifyType_eq]
      rfl

/-- Classifying an entity changes its kind and its value only. -/
theorem retyped_parts (g : Graph) (id : EntityId) :
    (g.retyped id).aliases = (g.entity id).aliases ∧
      (g.retyped id).contents = (g.entity id).contents ∧
      (g.retyped id).docstring = (g.entity id).docstring ∧
      (g.retyped id).line = (g.entity id).line ∧
      (g.retyped id).attribute?.map AttributeInfo.hint = (g.entity id).attribute?.map AttributeInfo.hint := by
  unfold retyped
  split
  · unfold Entity.modifyAttribute
    split <;> simp_all [Entity.setKind, Entity.attribute?]
  · split <;> exact ⟨rfl, rfl, rfl, rfl, rfl⟩

/-- The classification of types has nothing to add to an attribute. -/
def Classified (g : Graph) (attr : EntityId) : Prop :=
  if g.isTypeAlias attr then
    (g.entity attr).kind = some .typeAlias ∧
      ∀ info ∈ (g.entity attr).attribute?, info.value.map Expr.unstring = info.value
  else g.isTypeVariable attr = true → (g.entity attr).kind = some .typeVariable

theorem retyped_eq_self_iff (g : Graph) (attr : EntityId) :
    g.retyped attr = g.entity attr ↔ g.Classified attr := by
  have setKind (kind : EntityKind) :
      (g.entity attr).setKind kind = g.entity attr ↔ (g.entity attr).kind = some kind :=
    ⟨fun same => same ▸ rfl, fun stored => by rw [Entity.setKind, ← stored]⟩
  unfold retyped Classified
  split
  · refine ⟨fun same => ⟨?_, fun info found => ?_⟩, fun stored => ?_⟩
    · rw [← same, Entity.kind_modifyAttribute]
      rfl
    · have read := congrArg Entity.attribute? same
      have kept : ((g.entity attr).setKind .typeAlias).attribute? = some info := Option.mem_def.mp found
      rw [Entity.attribute?_modifyAttribute, kept, Option.mem_def.mp found] at read
      exact congrArg AttributeInfo.value (Option.some.inj read)
    · rw [(setKind _).mpr stored.1]
      refine Entity.modifyAttribute_eq_self fun info found => ?_
      rw [stored.2 info found]
  · split
    · rename_i isVariable
      simp [setKind, isVariable]
    · simp_all

theorem foldl_classifyType_eq_self_iff (g : Graph) (attributes : List EntityId) :
    attributes.foldl classifyType g = g ↔ ∀ attr ∈ attributes, g.Classified attr := by
  refine ⟨fun same attr among => ?_, fun stored => ?_⟩
  · have entity := entity_foldl_classifyType g attributes attr
    rw [same, if_pos among] at entity
    exact (retyped_eq_self_iff g attr).mp entity.symm
  · induction attributes with
    | nil => rfl
    | cons attr rest ih =>
        have first := (retyped_eq_self_iff g attr).mpr (stored attr List.mem_cons_self)
        rw [List.foldl_cons, classifyType_eq, modify_eq_self first]
        exact ih fun other among => stored other (List.mem_cons_of_mem _ among)

end Graph

end DocGraph
