import DocGraph.Proofs.Attributes.Guarded
import DocGraph.Proofs.Attributes.Sequence

namespace DocGraph

open DocGraph.Graph

namespace Graph

variable {g h : Graph} {module attr scope : EntityId} {kind : Option EntityKind} {info : AttributeInfo}

theorem reads_addAttribute (g : Graph) (parent : EntityId) (name : String) (kind : Option EntityKind) (line : Nat) :
    (g.addAttribute parent name kind line).1.Reads ⟨g.size⟩ kind {} := by
  have read {α : Type} (part : Entity → α)
      (blind : ∀ e name contents, part { e with name, contents } = part e) :=
    read_addEntity g parent name (.attribute {}) kind line part blind
  refine ⟨?_, read Entity.kind fun _ _ _ => rfl, read Entity.attribute? fun _ _ _ => rfl⟩
  exact (arranged_addEntity _ _ _ _ _ _).has.mpr ((has_alloc _ _ _).mpr (.inr rfl))

theorem not_about_of_held (tabled : g.Tabled) (held : g.IsParent module attr)
    (type : (g.entity attr).type = .attribute) (apart : scope ≠ module)
    (other : (g.entity scope).type ≠ .attribute) : ¬ g.About attr scope := by
  rintro (rfl | ⟨name, bound⟩)
  · exact other type
  · exact apart (Option.some.inj ((tabled.bound bound).1.symm.trans held))

end Graph

namespace Walk

variable {w : Walk} {attr : EntityId} {kind : Option EntityKind} {info : AttributeInfo} {stmt : Stmt}

theorem not_boundAt_of_nested (inBuild : w.InStandardBuild) (nested : w.current ≠ w.module)
    (held : w.graph.IsParent w.module attr) (items : List (Expr × Assignment)) :
    ¬ w.graph.BoundAt (w.AtAny items) attr := by
  have valid := inBuild.valid
  rintro ⟨scope, name, ⟨item, _, place⟩, bound⟩
  obtain rfl : scope = w.module := Option.some.inj ((valid.sound.tabled.bound bound).1.symm.trans held)
  rcases documentedName?_place place.1 with here | method
  · exact nested here.symm
  · have type := type_of_methodClass? method
    rw [valid.module] at type
    cases type

theorem told_visit (hooks : w.hooks = Hook.standard) (stmt : Stmt) :
    Told (w.graph.About · w.current) w.graph (w.visit stmt).graph := by
  rw [visit, hooks]
  exact Hook.told_typeAliases w.graph w.current w.module stmt

/-- A definition leaves an attribute of its module if the statements inside it do. -/
theorem reads_walkDefinition {walk : Walk → Walk} (inBuild : w.InStandardBuild) (made : Made True walk)
    (defines : stmt.isDefinition = true) (reads : w.graph.Reads attr kind info)
    (held : (walkDefinition stmt (w.declared stmt) walk w).graph.IsParent w.module attr)
    (inside : ∀ {v : Walk}, v.InStandardBuild → v.current ≠ v.module → v.graph.IsParent v.module attr →
      v.graph.Reads attr kind info → (walk v).graph.Reads attr kind info) :
    (walkDefinition stmt (w.declared stmt) walk w).graph.Reads attr kind info := by
  have declared : (w.declared stmt).1.Reads attr kind info :=
    reads.intact (intact_declared w stmt : Intact (fun _ => False) _ _) fun none => none
  have behind := inBuild.declared stmt
  cases opened : (w.declared stmt).2 with
  | none =>
      rw [Script.walkDefinition_skipped opened, visit_definition behind.hooks defines, depart_standard behind.hooks]
      exact declared
  | some id =>
      have entered := inBuild.enter stmt opened
      have declares : Declares (.any True) w (w.declared stmt) := Script.declares_declared w stmt
      have apart : id ≠ w.module :=
        inBuild.valid.opened_ne_module behind.valid (declares.opens id opened)
      let v := walk ({ w with graph := (w.declared stmt).1 }.enter id)
      have walks : Walks (.any True) ({ w with graph := (w.declared stmt).1 }.enter id) v := made _
      have inBuildInside : v.InStandardBuild := entered.walks walks
      rw [Script.walkDefinition_opened opened, visit_definition entered.hooks defines,
        depart_standard inBuildInside.hooks] at held ⊢
      have valid := inBuildInside.valid
      -- Inside the definition nothing is moved, so the attribute is in the module all along.
      have heldInside : v.graph.IsParent w.module attr := ((told_leave v id).entity attr).parent.symm.trans held
      have heldBefore : (w.declared stmt).1.IsParent w.module attr :=
        (walks.parent entered.valid apart declared.has).symm.trans heldInside
      have walked : v.graph.Reads attr kind info := inside entered apart heldBefore declared
      have among : id ∈ v.scopes := by
        rw [walks.framed.scopes]
        exact List.mem_cons_self
      exact walked.told (told_leave v id)
        (not_about_of_held valid.sound.tabled heldInside walked.type apart (valid.scopes id among).1)

/-- However deep they are nested, the statements inside a definition leave the attributes of the module. -/
theorem Script.Performs.reads {script : Script} {walk : Walk → Walk} {stmts : List Stmt}
    (performs : Script.Performs script walk stmts) (inBuild : w.InStandardBuild) (nested : w.current ≠ w.module)
    (held : w.graph.IsParent w.module attr) (reads : w.graph.Reads attr kind info) :
    (walk w).graph.Reads attr kind info := by
  induction performs generalizing w with
  | skip => exact reads
  | andThen before behind ihBefore ihBehind =>
      have walks := before.made w
      have valid := inBuild.valid
      refine ihBehind (inBuild.walks walks) ?_ ?_ (ihBefore inBuild nested held reads)
      · rwa [walks.framed.current, walks.framed.module]
      · rw [walks.framed.module]
        exact (walks.parent valid nested reads.has).trans held
  | inBlock _ inside => exact inside (inBuild.setFlow _) nested held reads
  | guarded _ inside => exact inside (inBuild.setGuard _) nested held reads
  | @plain script walk stmt next other performed inside =>
      have valid := inBuild.valid
      have handles : Walks (.any True) w (w.handle stmt next) := walks_handle w (fun _ => trivial) next
      have handled := reads.intact (intact_handle inBuild stmt next) (not_boundAt_of_nested inBuild nested held _)
      have inBuildHandled := inBuild.handle stmt next
      have told := told_visit inBuildHandled.hooks stmt
      have nestedHandled : (w.handle stmt next).current ≠ w.module := by rwa [handles.framed.current]
      have heldHandled : (w.handle stmt next).graph.IsParent w.module attr :=
        (handles.parent valid nested reads.has).trans held
      have visited : ((w.handle stmt next).visit stmt).graph.Reads attr kind info := by
        refine handled.told told (not_about_of_held inBuildHandled.valid.sound.tabled heldHandled handled.type
          nestedHandled inBuildHandled.valid.current_type.1)
      have inBuildVisited := inBuildHandled.visit stmt
      have behind := inBuildVisited.walks (performed.made ((w.handle stmt next).visit stmt))
      change ((walk ((w.handle stmt next).visit stmt)).depart stmt).graph.Reads attr kind info
      rw [depart_standard behind.hooks]
      refine inside inBuildVisited ?_ ?_ visited
      · change (w.handle stmt next).current ≠ (w.handle stmt next).module
        rwa [handles.framed.module]
      · change ((w.handle stmt next).visit stmt).graph.IsParent (w.handle stmt next).module attr
        rw [handles.framed.module]
        exact (told.entity attr).parent.trans heldHandled
  | @definition script walk stmt defines performed inside =>
      have walks := (Script.Performs.definition defines performed).made w
      exact reads_walkDefinition inBuild performed.made defines reads
        ((walks.parent inBuild.valid nested reads.has).trans held) inside

/-- The walk is at the top of its module, outside of arms and blocks. -/
structure AtTop (w : Walk) : Prop where
  inBuild : w.InStandardBuild
  current : w.current = w.module
  guard : w.guard = none
  flowDepth : w.flowDepth = 0

namespace AtTop

variable {v : Walk} {target : Expr} {name : String} (top : w.AtTop)

include top

theorem walks {may : Licence} (walks : Walks may w v) : v.AtTop := by
  have framed := walks.framed
  refine ⟨top.inBuild.walks walks, ?_, framed.guard.trans top.guard, walks.flowDepth.trans top.flowDepth⟩
  rw [framed.current, top.current, framed.module]

theorem type : w.scope.type = .module := by
  rw [Walk.scope, top.current, top.inBuild.valid.module]

theorem name?_of_at {scope : EntityId} (place : w.At target scope name) :
    scope = w.module ∧ target.name? = some name := by
  have named := place.1
  unfold documentedName? at named
  split at named
  · cases named
    exact ⟨top.current, rfl⟩
  · simp [methodClass?, top.type] at named
  · cases named

theorem assign_name (name : String) (a : Assignment) : w.assign (.name name) a = w.assignInModule name a := by
  have free : w.isGuarded w.current name = false := by
    rw [isGuarded, top.guard]
    rfl
  rw [assign, assignName, if_neg (by simp [free])]
  simp only [top.type]

end AtTop

/-- An assignment makes the attribute of a name that is unbound; an augmented one does not. -/
theorem assignInModule_of_unbound {name : String} {a : Assignment} (listed : name ∉ metaNames)
    (free : (w.graph.entity w.current).contents.get? name = none) (simple : a.Simple) :
    w.assignInModule name a =
      if a.isBinding then
        ((w.graph.addAttribute w.current name (some .variable) a.line).1.recordAttribute ⟨w.graph.size⟩ a w.inFlow
          .variable, true)
      else (w.graph, true) := by
  have noAlias : w.graph.recordAlias? w.current name a = none := by
    have undotted : a.value.bind Expr.dotted? = none := by
      rw [Option.bind_eq_none_iff]
      intro value given
      have literal := simple.literal value given
      cases value <;> simp_all [Expr.isLiteral, Expr.dotted?, Expr.segments?]
    simp [recordAlias?, undotted]
  have type : ((w.graph.addAttribute w.current name (some .variable) a.line).1.entity ⟨w.graph.size⟩).type =
      .attribute :=
    read_addEntity w.graph w.current name (.attribute {}) _ a.line Entity.type fun _ _ _ => rfl
  have second : (w.graph.addAttribute w.current name (some .variable) a.line).2 = ⟨w.graph.size⟩ := rfl
  unfold assignInModule
  simp only [if_neg listed, noAlias, attributeFor, free]
  cases a.isBinding with
  | true => simp [second, type]
  | false => rfl

theorem annotated_assignNext (next : Option Stmt) (w : Walk) (item : Expr × Assignment) :
    Annotated (w.assign item.1 item.2).1 (assignNext next w item).graph := by
  have same (g : Graph) : Annotated g g := (Told.refl g : Told (fun _ => False) g g).toEntrywise
  unfold assignNext
  split
  · unfold assignTarget
    split
    · rename_i g assigned
      rw [assigned]
      exact (told_documentTarget { w with graph := g } item.1 next).toEntrywise
    · rename_i assigned
      rw [assigned]
      exact same _
  · exact same _

end Walk

/-- The assignments among some that are to a name. -/
def assignmentsTo (name : String) (items : List (Expr × Assignment)) : List Assignment :=
  items.filterMap fun item => if item.1.name? = some name then some item.2 else none

/-- A name of the module is unbound if assignments have not bound it, and is an attribute with what they leave
otherwise. -/
structure Graph.Reflects (module : EntityId) (name : String) (as : List Assignment) (g : Graph) : Prop where
  simple : ∀ a ∈ as, a.Simple
  unbound : (∀ a ∈ as, a.isBinding = false) → (g.entity module).contents.get? name = none
  bound : ∀ a ∈ as, a.isBinding = true → ∃ attr, (g.entity module).contents.get? name = some attr ∧
    g.Reads attr (some (Assignment.kindOf name as)) (Assignment.summary as)

namespace Walk

open Assignment

variable {w : Walk} {name : String} {as : List Assignment} {a : Assignment} {next : Option Stmt} {stmt : Stmt}

/-- The states between the assignments of a statement, with the first and the last one. -/
def between (next : Option Stmt) : List (Expr × Assignment) → Walk → List Walk
  | [], w => [w]
  | item :: rest, w => w :: between next rest (assignNext next w item)

theorem foldl_mem_between (next : Option Stmt) (items : List (Expr × Assignment)) (w : Walk) :
    items.foldl (assignNext next) w ∈ between next items w := by
  induction items generalizing w with
  | nil => exact List.mem_cons_self
  | cons item rest ih => exact List.mem_cons_of_mem _ (ih _)

theorem start_mem_between (next : Option Stmt) (items : List (Expr × Assignment)) (w : Walk) :
    w ∈ between next items w := by
  cases items <;> exact List.mem_cons_self

/-- An attribute that is bound to the name takes up one more assignment. -/
theorem reflects_recorded {g : Graph} {attr : EntityId} {kind : EntityKind} (sound : g.Sound)
    (bound : (g.entity w.module).contents.get? name = some attr)
    (reads : g.Reads attr (some kind) (summary as)) (own : kind = .constant ∨ kind = .variable)
    (simple : ∀ b ∈ as ++ [a], b.Simple) (binding : ∃ b ∈ as ++ [a], b.isBinding = true)
    (assigned : (w.assign (.name name) a).1 = g.recordAttribute attr a false .variable)
    (unmarked : (assignNext next w (.name name, a)).graph.NoMarkers w.module (as ++ [a])) :
    Reflects w.module name (as ++ [a]) (assignNext next w (.name name, a)).graph := by
  have recorded : Annotated g (g.recordAttribute attr a false .variable) :=
    (told_recordAttribute (fun _ => reads.type) a false (by decide)).toEntrywise
  have documented := annotated_assignNext next w (.name name, a)
  rw [assigned] at documented
  obtain ⟨held, named⟩ := sound.tabled.bound bound
  -- Neither the record nor a docstring changes what hints mean.
  rw [documented.noMarkers, recorded.noMarkers, ← noMarkers_member sound held reads.type] at unmarked
  have behind := reads.record own named unmarked
  rw [← assigned] at behind
  refine ⟨simple, fun augmented => ?_, fun b _ _ => ⟨attr, ?_, reads_assignNext behind next⟩⟩
  · obtain ⟨b, among, binds⟩ := binding
    rw [augmented b among] at binds
    cases binds
  · rw [(documented.entity w.module).contents, (recorded.entity w.module).contents, bound]

theorem reflects_assign (top : w.AtTop) (listed : name ∉ metaNames) (reflects : Reflects w.module name as w.graph)
    (simple : a.Simple) (unmarked : (assignNext next w (.name name, a)).graph.NoMarkers w.module (as ++ [a])) :
    Reflects w.module name (as ++ [a]) (assignNext next w (.name name, a)).graph := by
  have valid := top.inBuild.valid
  have flow : w.inFlow = false := by simp [inFlow, top.flowDepth]
  have assigned := top.assign_name name a
  have all : ∀ b ∈ as ++ [a], b.Simple := List.forall_mem_append.mpr ⟨reflects.simple, by simpa using simple⟩
  by_cases augmented : ∀ b ∈ as, b.isBinding = false
  · have free := reflects.unbound augmented
    rw [← top.current] at free
    rw [assignInModule_of_unbound listed free simple, flow] at assigned
    cases binds : a.isBinding with
    | false =>
        have unchanged : (assignNext next w (.name name, a)).graph = w.graph := by
          simp [assignNext, binds, assigned]
        have none : ∀ b ∈ as ++ [a], b.isBinding = false :=
          List.forall_mem_append.mpr ⟨augmented, by simpa using binds⟩
        rw [unchanged]
        refine ⟨all, fun _ => reflects.unbound augmented, fun b among bound => ?_⟩
        rw [none b among] at bound
        cases bound
    | true =>
        rw [binds, if_pos rfl] at assigned
        have inside := valid.has_current
        let g := (w.graph.addAttribute w.current name (some .variable) a.line).1
        have path : Path w.graph g := path_addAttribute inside
        have bound : (g.entity w.module).contents.get? name = some ⟨w.graph.size⟩ := by
          rw [← top.current]
          exact get?_addEntity_of_free inside free _ _ _
        have reads : g.Reads ⟨w.graph.size⟩ (some .variable) (summary as) := by
          rw [summary_of_augmented reflects.simple augmented]
          exact reads_addAttribute _ _ _ _ _
        exact reflects_recorded (path.sound valid.sound) bound reads (.inr rfl) all ⟨a, by simp, binds⟩
          (congrArg Prod.fst assigned) unmarked
  · simp only [not_forall, Bool.not_eq_false] at augmented
    obtain ⟨b, among, binds⟩ := augmented
    obtain ⟨attr, bound, reads⟩ := reflects.bound b among binds
    have here := bound
    rw [← top.current] at here
    rw [assignInModule_of_bound here reads listed, flow] at assigned
    exact reflects_recorded valid.sound bound reads (kindOf_cases name as) all
      ⟨b, List.mem_append_left _ among, binds⟩ (congrArg Prod.fst assigned) unmarked

/-- What leaves the entry of the name and its attribute leaves what the graph reflects. -/
theorem reflects_of_reads {g h : Graph} {module : EntityId} (reflects : Reflects module name as g)
    (same : (h.entity module).contents.get? name = (g.entity module).contents.get? name)
    (kept : ∀ {attr kind}, (g.entity module).contents.get? name = some attr → g.Reads attr kind (summary as) →
      h.Reads attr kind (summary as)) : Reflects module name as h := by
  refine ⟨reflects.simple, fun augmented => same.trans (reflects.unbound augmented), fun a among binds => ?_⟩
  obtain ⟨attr, bound, reads⟩ := reflects.bound a among binds
  exact ⟨attr, same.trans bound, kept bound reads⟩

theorem reflects_assignOther (top : w.AtTop) {item : Expr × Assignment} (other : item.1.name? ≠ some name)
    (reflects : Reflects w.module name as w.graph) :
    Reflects w.module name as (assignNext next w item).graph := by
  have stores := stores_assignNext next w item
  have tabled := top.inBuild.valid.sound.tabled
  refine reflects_of_reads reflects (stores.elsewhere fun place => other (top.name?_of_at place).2) ?_
  intro attr kind bound reads
  refine reads.intact stores.toIntact ?_
  rintro ⟨scope, key, place, there⟩
  -- What is bound at the place is of that name.
  have named := (top.name?_of_at place).2
  rw [← (tabled.bound there).2, (tabled.bound bound).2] at named
  exact other named

/-- The assignments of a statement are taken up in order, and those to other names leave everything. -/
theorem reflects_foldl (top : w.AtTop) (listed : name ∉ metaNames) (items : List (Expr × Assignment))
    (reflects : Reflects w.module name as w.graph) (simple : ∀ a ∈ assignmentsTo name items, a.Simple)
    (unmarked : assignmentsTo name items ≠ [] → ∀ u ∈ between next items w,
      u.graph.NoMarkers w.module (as ++ assignmentsTo name items)) :
    Reflects w.module name (as ++ assignmentsTo name items) (items.foldl (assignNext next) w).graph := by
  induction items generalizing w as with
  | nil => simpa [assignmentsTo] using reflects
  | cons item rest ih =>
      have walks := walks_assignNext next w item
      have module := walks.framed.module
      have topBehind := top.walks walks
      by_cases here : item.1.name? = some name
      · obtain ⟨target, a⟩ := item
        have shape : target = .name name := by cases target <;> simp_all [Expr.name?]
        subst shape
        have given : assignmentsTo name ((.name name, a) :: rest) = [a] ++ assignmentsTo name rest := by
          simp [assignmentsTo, Expr.name?]
        rw [given, ← List.append_assoc] at unmarked ⊢
        rw [given] at simple
        have unmarked := unmarked (by simp)
        have first := reflects_assign top listed reflects (simple a (by simp)) fun b among =>
          unmarked _ (List.mem_cons_of_mem _ (start_mem_between next rest _)) b (List.mem_append_left _ among)
        rw [← module] at first
        have later := ih topBehind first (fun b among => simple b (List.mem_append_right _ among)) fun _ u among => by
          rw [module]
          exact unmarked u (List.mem_cons_of_mem _ among)
        rwa [module] at later
      · have skipped : assignmentsTo name (item :: rest) = assignmentsTo name rest := by
          simp [assignmentsTo, here]
        rw [skipped] at simple unmarked ⊢
        have first : Reflects w.module name as (assignNext next w item).graph := reflects_assignOther top here reflects
        rw [← module] at first
        have later := ih topBehind first simple fun some u among => by
          rw [module]
          exact unmarked some u (List.mem_cons_of_mem _ among)
        rwa [module] at later

theorem mem_assignments_of_targetsOf {target : Expr} (among : target ∈ Hook.targetsOf stmt) :
    ∃ a, (target, a) ∈ stmt.assignments := by
  cases stmt with
  | assign targets => exact ⟨_, List.mem_map.mpr ⟨target, among, rfl⟩⟩
  | annAssign => exact ⟨_, List.mem_singleton.mpr (by rw [List.mem_singleton.mp among])⟩
  | _ => cases among

theorem reflects_visit (top : w.AtTop) (reflects : Reflects w.module name as w.graph)
    (unmarked : assignmentsTo name stmt.assignments ≠ [] → w.graph.NoMarkers w.module as) :
    Reflects w.module name as (w.visit stmt).graph := by
  have sound := top.inBuild.valid.sound
  have told := told_visit top.inBuild.hooks stmt
  refine reflects_of_reads reflects (by rw [(told.entity w.module).contents]) fun {attr kind} bound reads => ?_
  obtain ⟨held, named⟩ := sound.tabled.bound bound
  obtain ⟨_, _, typed, outcome⟩ := reads.classifyTypes (w.addressed stmt)
  have graph : (w.visit stmt).graph = (w.addressed stmt).foldl classifyType w.graph := by
    rw [visit_standard top.inBuild.hooks]
    rfl
  rw [graph]
  rcases outcome with ⟨⟨among, isType⟩, _⟩ | ⟨_, rfl, rfl⟩
  · -- The name is a target of the statement then.
    simp only [addressed, Graph.named, List.mem_filterMap, Option.bind_eq_some_iff] at among
    obtain ⟨target, listed, key, spelled, there⟩ := among
    have same : key = name := (sound.tabled.bound there).2.symm.trans named
    obtain ⟨a, assigned⟩ := mem_assignments_of_targetsOf listed
    have some : assignmentsTo name stmt.assignments ≠ [] :=
      List.ne_nil_of_mem (List.mem_filterMap.mpr ⟨_, assigned, if_pos (same ▸ spelled)⟩)
    have plain := (noMarkers_member sound held reads.type as).mpr (unmarked some)
    obtain ⟨notAlias, notVariable⟩ := reads.notType reflects.simple plain
    simp [notAlias, notVariable] at isType
  · exact typed

end Walk

end DocGraph
