import DocGraph.Proofs.Attributes.Stored

namespace DocGraph

namespace Graph

variable {g h : Graph} {attr : EntityId} {kind : Option EntityKind} {info : AttributeInfo}

/-- What the graph holds of an attribute. -/
structure Reads (g : Graph) (attr : EntityId) (kind : Option EntityKind) (info : AttributeInfo) : Prop where
  has : g.Has attr
  kind : (g.entity attr).kind = kind
  info : (g.entity attr).attribute? = some info

/-- The kind of an attribute behind an assignment whose hint has been stored. -/
def constancy (g : Graph) (attr : EntityId) (kind : Option EntityKind) (info : AttributeInfo)
    (hint value : Option Expr) (inFlow : Bool) (usual : EntityKind) : Option EntityKind :=
  if g.isFinal attr hint || (value.isSome && !info.value.isSome && !inFlow && Text.isUpper (g.entity attr).name) then
    some .constant
  else if kind = some .constant ∧ ¬ info.explicitKind ∧ ¬ g.isFinal attr info.hint then some usual
  else kind

theorem Annotated.constancy (annotated : Annotated g h) (attr : EntityId) (kind : Option EntityKind)
    (info : AttributeInfo) (hint value : Option Expr) (inFlow : Bool) (usual : EntityKind) :
    h.constancy attr kind info hint value inFlow usual = g.constancy attr kind info hint value inFlow usual := by
  simp only [Graph.constancy, annotated.isFinal, (annotated.entity attr).name]

namespace Reads

theorem type (reads : g.Reads attr kind info) : (g.entity attr).type = .attribute :=
  Entity.type_of_attribute? reads.info

theorem intact {about : EntityId → Prop} (reads : g.Reads attr kind info) (intact : Intact about g h)
    (apart : ¬ about attr) : h.Reads attr kind info :=
  ⟨intact.has reads.has, (intact.kind reads.has apart reads.type).trans reads.kind,
    (intact.attribute? reads.has apart).trans reads.info⟩

theorem told {about : EntityId → Prop} (reads : g.Reads attr kind info) (told : Told about g h)
    (apart : ¬ about attr) : h.Reads attr kind info := by
  refine ⟨?_, ?_, ?_⟩
  · rw [Has, told.size]
    exact reads.has
  · rw [told.elsewhere apart, reads.kind]
  · rw [told.elsewhere apart, reads.info]

theorem modify {f : Entity → Entity} {kind' : Option EntityKind} {info' : AttributeInfo}
    (reads : g.Reads attr kind info) (kinded : (f (g.entity attr)).kind = kind')
    (informed : (f (g.entity attr)).attribute? = some info') : (g.modify attr f).Reads attr kind' info' := by
  refine ⟨(g.has_modify attr f attr).mpr reads.has, ?_, ?_⟩
  · rw [entity_modify_self _ _ _ reads.has, kinded]
  · rw [entity_modify_self _ _ _ reads.has, informed]

theorem setKind (reads : g.Reads attr kind info) (kind' : EntityKind) :
    (g.modify attr (Entity.setKind kind')).Reads attr (some kind') info :=
  reads.modify rfl reads.info

theorem recordHint (reads : g.Reads attr kind info) (a : Assignment) :
    (g.recordHint attr a).Reads attr kind { info with hint := a.hint.or info.hint } := by
  have line : ((g.entity attr).setLine a.line).attribute? = some info := by
    unfold Entity.setLine
    split <;> exact reads.info
  refine reads.modify ?_ ?_
  · rw [Entity.kind_modifyAttribute, Entity.kind_setLine, reads.kind]
  · rw [Entity.attribute?_modifyAttribute, line, Option.map_some]

theorem recordValue (reads : g.Reads attr kind info) (a : Assignment) :
    (g.recordValue attr a).Reads attr kind { info with value := assignedValue info.value a } := by
  refine reads.modify ?_ ?_
  · rw [Entity.kind_modifyAttribute, reads.kind]
  · rw [Entity.attribute?_modifyAttribute, reads.info, Option.map_some]

theorem classifyConstant (reads : g.Reads attr kind info) (hint value : Option Expr) (inFlow : Bool)
    (usual : EntityKind) :
    (g.classifyConstant attr hint value inFlow usual).Reads attr
      (g.constancy attr kind info hint value inFlow usual)
      { info with explicitKind := info.explicitKind || g.isFinal attr hint } := by
  unfold Graph.classifyConstant isConstant constancy
  simp only [reads.kind, reads.info, Option.bind_some, Option.map_some, Option.getD_some]
  split
  · refine reads.modify ?_ ?_
    · rw [Entity.kind_modifyAttribute]
      rfl
    · rw [Entity.attribute?_modifyAttribute]
      exact congrArg _ reads.info
  · rename_i other
    have unmarked : g.isFinal attr hint = false := by simp_all
    rw [unmarked, Bool.or_false]
    split
    · exact reads.setKind usual
    · exact reads

theorem recordAttribute (reads : g.Reads attr kind info) (a : Assignment) (inFlow : Bool) (usual : EntityKind) :
    (g.recordAttribute attr a inFlow usual).Reads attr
      (g.constancy attr kind { info with hint := a.hint.or info.hint } a.hint a.value inFlow usual)
      { info with
        hint := a.hint.or info.hint
        value := assignedValue info.value a
        explicitKind := info.explicitKind || g.isFinal attr a.hint } := by
  have annotated : Annotated g (g.recordHint attr a) := (told_recordHint g attr a).toEntrywise
  have recorded := ((reads.recordHint a).classifyConstant a.hint a.value inFlow usual).recordValue a
  rwa [annotated.constancy, annotated.isFinal] at recorded

theorem rehint (reads : g.Reads attr kind info) (other : EntityId) (f : AttributeInfo → Option Expr) :
    (g.modify other (Entity.modifyAttribute fun info => { info with hint := f info })).Reads attr kind
      { info with hint := if other = attr then f info else info.hint } := by
  by_cases same : other = attr
  · subst same
    refine reads.modify ?_ ?_
    · rw [Entity.kind_modifyAttribute, reads.kind]
    · rw [Entity.attribute?_modifyAttribute, reads.info, if_pos rfl]
      rfl
  · rw [if_neg same]
    refine ⟨(g.has_modify other _ attr).mpr reads.has, ?_, ?_⟩
    · rw [entity_modify_of_ne _ _ _ same, reads.kind]
    · rw [entity_modify_of_ne _ _ _ same, reads.info]

theorem report (reads : g.Reads attr kind info) (id : EntityId) (message topic : String) (offset threshold : Int) :
    (g.report id message topic offset threshold).Reads attr kind info :=
  ⟨reads.has, reads.kind, reads.info⟩

theorem unwrapConstant (reads : g.Reads attr kind info) (other : EntityId) :
    ∃ hint, (g.unwrapConstant other).Reads attr kind { info with hint } := by
  have hinted {k : Graph} (reads : k.Reads attr kind info) (given : Option Expr) :
      ∃ hint, (k.setHint other given).Reads attr kind { info with hint } := ⟨_, reads.rehint other fun _ => given⟩
  unfold Graph.unwrapConstant unwrapFinal
  split
  · split
    · exact ⟨_, reads⟩
    · split
      · dsimp only
        split
        · split
          · exact hinted (reads.report _ _ _ _ _) _
          · exact hinted reads _
        · exact hinted reads _
      · exact ⟨_, reads⟩
  · exact ⟨_, reads⟩

theorem settleScope (reads : g.Reads attr kind info) (scope : EntityId) :
    ∃ hint, (g.settleScope scope).Reads attr kind { info with hint } := by
  have each {step : Graph → EntityId → Graph}
      (kept : ∀ {k : Graph} {info : AttributeInfo}, k.Reads attr kind info → ∀ other,
        ∃ hint, (step k other).Reads attr kind { info with hint })
      (ids : List EntityId) {k : Graph} {info : AttributeInfo} (reads : k.Reads attr kind info) :
      ∃ hint, (ids.foldl step k).Reads attr kind { info with hint } := by
    induction ids generalizing k info with
    | nil => exact ⟨_, reads⟩
    | cons other rest ih =>
        obtain ⟨_, stepped⟩ := kept reads other
        obtain ⟨hint, later⟩ := ih stepped
        exact ⟨hint, later⟩
  obtain ⟨_, unwrapped⟩ := each (fun reads other => reads.unwrapConstant other) (g.attributesOf scope) reads
  obtain ⟨hint, inferred⟩ := each (fun reads other => ⟨_, reads.rehint other _⟩) (g.attributesOf scope) unwrapped
  exact ⟨hint, inferred⟩

/-- What the classification of types makes of an attribute that is among those looked at. -/
theorem classifyTypes (reads : g.Reads attr kind info) (ids : List EntityId) :
    ∃ kind' value, (ids.foldl classifyType g).Reads attr kind' { info with value } ∧
      ((attr ∈ ids ∧ (g.isTypeAlias attr = true ∨ g.isTypeVariable attr = true)) ∧
          (kind' = some .typeAlias ∨ kind' = some .typeVariable) ∨
        ¬ (attr ∈ ids ∧ (g.isTypeAlias attr = true ∨ g.isTypeVariable attr = true)) ∧
          kind' = kind ∧ value = info.value) := by
  have entity := entity_foldl_classifyType g ids attr
  have size : (ids.foldl classifyType g).Has attr := by
    have told : Told (fun _ => True) g (ids.foldl classifyType g) :=
      Told.foldl (fun k id _ => (told_classifyType k id).mono fun _ => trivial) g
    rw [Has, told.size]
    exact reads.has
  by_cases among : attr ∈ ids
  · rw [if_pos among, retyped] at entity
    split at entity
    · rename_i isAlias
      refine ⟨_, info.value.map Expr.unstring, ⟨size, rfl, ?_⟩, .inl ⟨⟨among, .inl isAlias⟩, .inl ?_⟩⟩
      · rw [entity, Entity.attribute?_modifyAttribute]
        exact congrArg _ reads.info
      · rw [entity, Entity.kind_modifyAttribute]
        rfl
    · rename_i other
      split at entity
      · rename_i isVariable
        refine ⟨_, info.value, ⟨size, rfl, ?_⟩, .inl ⟨⟨among, .inr isVariable⟩, .inr ?_⟩⟩
        · rw [entity]
          exact reads.info
        · rw [entity]
          rfl
      · rename_i plain
        refine ⟨kind, info.value, ⟨size, ?_, ?_⟩, ?_⟩
        · rw [entity, reads.kind]
        · rw [entity, reads.info]
        · simp [other, plain]
  · rw [if_neg among] at entity
    refine ⟨kind, info.value, ⟨size, ?_, ?_⟩, by simp [among]⟩
    · rw [entity, reads.kind]
    · rw [entity, reads.info]

end Reads

end Graph

open DocGraph.Graph

namespace Walk

variable {w : Walk} {target : Expr} {a : Assignment} {name : String} {attr : EntityId} {kind : EntityKind}
  {info : AttributeInfo}

section bound

variable (bound : (w.graph.entity w.current).contents.get? name = some attr)

include bound

theorem recordAlias?_of_bound (a : Assignment) : w.graph.recordAlias? w.current name a = none := by
  simp [recordAlias?, Contents.contains, bound]

variable (reads : w.graph.Reads attr (some kind) info)

include reads

theorem assignInModule_of_bound (listed : name ∉ metaNames) (a : Assignment) :
    w.assignInModule name a = (w.graph.recordAttribute attr a w.inFlow .variable, true) := by
  simp only [assignInModule, if_neg listed, recordAlias?_of_bound bound, attributeFor, bound, reads.type, if_true]

/-- In a class the kind is there already, so that none is given to it. -/
theorem assignInClass_of_bound (a : Assignment) :
    w.graph.retagMethod? w.current name a = none ∧
      w.assignInClass name a =
        if w.graph.mayBeAttribute w.current name then
          (w.graph.recordAttribute attr a w.inFlow .classVariable, true)
        else (w.graph, false) := by
  have kinded : w.graph.modify attr (fun e => { e with kind := e.kind.or (some .classVariable) }) = w.graph := by
    refine modify_eq_self ?_
    rw [reads.kind, Option.some_or, ← reads.kind]
  constructor
  · unfold retagMethod?
    split
    · cases a.value.bind (legacyMethodKind? name) with
      | none => rfl
      | some _ => simp [bound, reads.type]
    · rfl
  · simp only [assignInClass, recordAlias?_of_bound bound, attributeFor, bound, kinded]

end bound

/-- The assignment is one to a member in a method, which makes an instance variable of an attribute that is
there. -/
structure Claims (w : Walk) (attr : EntityId) (target : Expr) (a : Assignment) : Prop where
  binding : a.isBinding = true
  member : ∃ owner name, target = .attribute (.name "self") name ∧ name ≠ "__doc__" ∧
    w.methodClass? = some owner ∧ w.isGuarded owner name = false ∧ w.graph.mayBeAttribute owner name = true ∧
    (w.graph.entity owner).contents.get? name = some attr

theorem Claims.boundAt (claims : w.Claims attr target a) : w.graph.BoundAt (w.At target) attr := by
  obtain ⟨owner, name, rfl, _, method, _, _, bound⟩ := claims.member
  exact ⟨owner, name, by simp [At, documentedName?, method, Entity.isContainer, type_of_methodClass? method], bound⟩

/-- What one assignment does to an attribute: nothing, or it is recorded there, or it makes an instance
variable of it. -/
inductive Affects (w : Walk) (attr : EntityId) (kind : EntityKind) (info : AttributeInfo) (target : Expr)
    (a : Assignment) : Graph → Prop
  | none {h : Graph} (unclaimed : ¬ w.Claims attr target a) (same : h.Reads attr (some kind) info) :
      Affects w attr kind info target a h
  | recorded (container : w.scope.isContainer = true) (usual : EntityKind) :
      Affects w attr kind info target a (w.graph.recordAttribute attr a w.inFlow usual)
  | claimed (claims : w.Claims attr target a) :
      Affects w attr kind info target a
        (((w.graph.recordHint attr a).modify attr (Entity.setKind .instanceVariable)).recordValue attr a)

theorem not_claims_name : ¬ w.Claims attr (.name name) a := by
  rintro ⟨_, _, _, same, _⟩
  cases same

theorem claims_self_iff {owner : EntityId} (method : w.methodClass? = some owner)
    (bound : (w.graph.entity owner).contents.get? name = some attr) :
    w.Claims attr (.attribute (.name "self") name) a ↔ a.isBinding = true ∧ name ≠ "__doc__" ∧
      w.isGuarded owner name = false ∧ w.graph.mayBeAttribute owner name = true := by
  constructor
  · rintro ⟨binding, _, _, same, named, found, free, permitted, _⟩
    cases same
    cases method.symm.trans found
    exact ⟨binding, named, free, permitted⟩
  · rintro ⟨binding, named, free, permitted⟩
    exact ⟨binding, owner, name, rfl, named, method, free, permitted, bound⟩

section affects

variable (reads : w.graph.Reads attr (some kind) info)

include reads

theorem affects_assignName (container : w.scope.isContainer = true)
    (bound : (w.graph.entity w.current).contents.get? name = some attr) (a : Assignment) :
    w.Affects attr kind info (.name name) a (w.assignName name a).1 := by
  rw [assignName]
  split
  · exact .none not_claims_name reads
  · split
    · by_cases listed : name ∈ metaNames
      · rw [assignInModule]
        simp only [listed, if_true]
        exact .none not_claims_name reads
      · rw [assignInModule_of_bound bound reads listed]
        exact .recorded container _
    · obtain ⟨retagged, assigned⟩ := assignInClass_of_bound bound reads a
      rw [retagged]
      dsimp only
      rw [assigned]
      split
      · exact .recorded container _
      · exact .none not_claims_name reads
    · exact .none not_claims_name reads

/-- An assignment to a member of the class whose method is walked. -/
theorem affects_assignSelf {owner : EntityId} (method : w.methodClass? = some owner)
    (bound : (w.graph.entity owner).contents.get? name = some attr) (a : Assignment) :
    w.Affects attr kind info (.attribute (.name "self") name) a
      (w.assign (.attribute (.name "self") name) a).1 := by
  have claims := claims_self_iff (a := a) method bound
  rw [assign]
  split
  · rename_i augmented
    exact .none (by simp_all) reads
  · rename_i binding
    split
    · rename_i doc
      have documented : Stores (fun _ _ => False) w.graph (w.assignDoc (.name "self") a) :=
        stores_assignDoc w _ a
      refine .none (by simp_all) (reads.intact documented.toIntact ?_)
      rintro ⟨_, _, none, _⟩
      exact none
    · rename_i named
      have self : (Expr.name "self").name? = some "self" := rfl
      rw [if_pos self, assignInstance]
      simp only [method]
      split
      · rename_i permitted
        rw [Bool.and_eq_true, Bool.not_eq_true'] at permitted
        simp only [attributeFor, bound]
        exact .claimed (claims.mpr ⟨by simpa using binding, named, permitted.2, permitted.1⟩)
      · rename_i refused
        refine .none (fun claimed => refused ?_) reads
        obtain ⟨_, _, free, permitted⟩ := claims.mp claimed
        rw [free, permitted]
        rfl

theorem affects_assign (target : Expr) (a : Assignment) :
    w.Affects attr kind info target a (w.assign target a).1 := by
  by_cases stored : w.graph.BoundAt (w.At target) attr
  · obtain ⟨scope, name, ⟨place, container⟩, bound⟩ := stored
    unfold documentedName? at place
    split at place
    · cases place
      exact affects_assignName reads container bound a
    · split at place
      · rename_i self
        subst self
        obtain ⟨_, method, same⟩ := Option.map_eq_some_iff.mp place
        cases same
        exact affects_assignSelf reads method bound a
      · cases place
    · cases place
  · exact .none (fun claims => stored claims.boundAt) (reads.intact (stores_assign w target a).toIntact stored)

end affects

theorem reads_assignNext {kind : Option EntityKind} {item : Expr × Assignment}
    (reads : (w.assign item.1 item.2).1.Reads attr kind info) (next : Option Stmt) :
    (assignNext next w item).graph.Reads attr kind info := by
  unfold assignNext
  split
  · unfold assignTarget
    split
    · rename_i g assigned
      rw [assigned] at reads
      have documented : Stores (fun _ _ => False) g ({ w with graph := g }.documentTarget item.1 next) :=
        stores_documentTarget { w with graph := g } item.1 next
      refine reads.intact documented.toIntact ?_
      rintro ⟨_, _, none, _⟩
      exact none
    · rename_i assigned
      rwa [assigned] at reads
  · exact reads

theorem claims_assignNext (inBuild : w.InStandardBuild) (inside : w.graph.Has attr) (next : Option Stmt)
    (item : Expr × Assignment) :
    (assignNext next w item).Claims attr target a ↔ w.Claims attr target a := by
  have walks := walks_assignNext next w item
  have stores := stores_assignNext next w item
  have valid := inBuild.valid
  have method := walks.methodClass? valid
  have guarded (scope : EntityId) (name : String) :
      (assignNext next w item).isGuarded scope name = w.isGuarded scope name := by
    rw [isGuarded, walks.framed.guard, isGuarded]
  have permitted {owner : EntityId} {name : String} (method : w.methodClass? = some owner)
      (bound : (w.graph.entity owner).contents.get? name = some attr) :
      (assignNext next w item).graph.mayBeAttribute owner name = w.graph.mayBeAttribute owner name := by
    refine stores.mayBeAttribute valid.sound.tabled bound fun {other} place => ?_
    -- In a method all places are in the class.
    rcases documentedName?_place place.1 with rfl | found
    · have function : w.scope.type = .function := by
        unfold methodClass? at method
        split at method
        · assumption
        · cases method
      have container := place.2
      rw [← Walk.scope, Entity.isContainer, function] at container
      cases container
    · exact Option.some.inj (found.symm.trans method)
  constructor
  · rintro ⟨binding, owner, name, shape, named, found, free, may, bound⟩
    rw [method] at found
    rw [guarded] at free
    have held := stores.known bound inside
    rw [permitted found held] at may
    exact ⟨binding, owner, name, shape, named, found, free, may, held⟩
  · rintro ⟨binding, owner, name, shape, named, found, free, may, bound⟩
    refine ⟨binding, owner, name, shape, named, method.trans found, (guarded _ _).trans free, ?_, stores.bound bound⟩
    rw [permitted found bound]
    exact may

end Walk

end DocGraph
