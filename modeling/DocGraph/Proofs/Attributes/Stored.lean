import DocGraph.Proofs.Attributes.Intact

namespace DocGraph

open DocGraph.Graph

namespace Graph

variable {g h k : Graph} {places wider : EntityId → String → Prop} {id attr scope : EntityId} {name : String}

/-- Something is bound at one of the places. -/
def BoundAt (g : Graph) (places : EntityId → String → Prop) (id : EntityId) : Prop :=
  ∃ scope name, places scope name ∧ (g.entity scope).contents.get? name = some id

/-- What is done at some places only: unbound names may be bound to new entities, and attributes that are
bound there may be changed. -/
structure Stores (places : EntityId → String → Prop) (g h : Graph) : Prop extends Intact (g.BoundAt places) g h where
  type : ∀ {id}, g.Has id → (h.entity id).type = (g.entity id).type
  class? : ∀ id, (h.entity id).class? = (g.entity id).class?
  bound : ∀ {scope name id}, (g.entity scope).contents.get? name = some id →
    (h.entity scope).contents.get? name = some id
  known : ∀ {scope name id}, (h.entity scope).contents.get? name = some id → g.Has id →
    (g.entity scope).contents.get? name = some id
  elsewhere : ∀ {scope name}, ¬ places scope name →
    (h.entity scope).contents.get? name = (g.entity scope).contents.get? name

namespace Stores

theorem refl (g : Graph) : Stores places g g :=
  ⟨.refl g, fun _ => rfl, fun _ => rfl, fun bound => bound, fun bound _ => bound, fun _ => rfl⟩

theorem boundAt (stores : Stores places g h) (inside : g.Has id) : h.BoundAt places id ↔ g.BoundAt places id := by
  constructor
  · rintro ⟨scope, name, place, bound⟩
    exact ⟨scope, name, place, stores.known bound inside⟩
  · rintro ⟨scope, name, place, bound⟩
    exact ⟨scope, name, place, stores.bound bound⟩

theorem trans (first : Stores places g h) (second : Stores places h k) : Stores places g k where
  toIntact := by
    -- What is bound at a place has been so from the start, or is new.
    have apart {id : EntityId} (inside : g.Has id) (apart : ¬ g.BoundAt places id) : ¬ h.BoundAt places id :=
      mt (first.boundAt inside).mp apart
    refine ⟨fun inside => second.has (first.has inside), fun inside far => ?_, fun inside far type => ?_⟩
    · exact (second.attribute? (first.has inside) (apart inside far)).trans (first.attribute? inside far)
    · exact (second.kind (first.has inside) (apart inside far) (first.toIntact.type inside far type)).trans
        (first.kind inside far type)
  type inside := (second.type (first.has inside)).trans (first.type inside)
  class? id := (second.class? id).trans (first.class? id)
  bound found := second.bound (first.bound found)
  known found inside := first.known (second.known found (first.has inside)) inside
  elsewhere apart := (second.elsewhere apart).trans (first.elsewhere apart)

theorem mono (stores : Stores places g h) (more : ∀ {scope name}, places scope name → wider scope name) :
    Stores wider g h where
  toIntact := stores.toIntact.mono fun _ => by
    rintro ⟨scope, name, place, bound⟩
    exact ⟨scope, name, more place, bound⟩
  type := stores.type
  class? := stores.class?
  bound := stores.bound
  known := stores.known
  elsewhere apart := stores.elsewhere fun place => apart (more place)

theorem report (g : Graph) (id : EntityId) (message topic : String) (offset threshold : Int) :
    Stores places g (g.report id message topic offset threshold) :=
  ⟨.of_labelled (labelled_report g _ _ _ _ _), fun _ => rfl, fun _ => rfl, fun bound => bound, fun bound _ => bound,
    fun _ => rfl⟩

/-- A change of one entity that is none of an attribute. -/
theorem modify {f : Entity → Entity} (attribute? : (f (g.entity id)).attribute? = (g.entity id).attribute?)
    (kind : (g.entity id).type = .attribute → (f (g.entity id)).kind = (g.entity id).kind)
    (type : (f (g.entity id)).type = (g.entity id).type) (class? : (f (g.entity id)).class? = (g.entity id).class?)
    (contents : (f (g.entity id)).contents = (g.entity id).contents) : Stores places g (g.modify id f) := by
  have read {α : Type} (part : Entity → α) (kept : part (f (g.entity id)) = part (g.entity id)) (other : EntityId) :
      part ((g.modify id f).entity other) = part (g.entity other) := by
    rw [entity_modify]
    split
    · rename_i same
      rw [← same.1]
      exact kept
    · rfl
  have table (scope : EntityId) : ((g.modify id f).entity scope).contents = (g.entity scope).contents :=
    read Entity.contents contents scope
  refine ⟨⟨(g.has_modify id f _).mpr, fun _ _ => read Entity.attribute? attribute? _, fun {other} _ _ typed => ?_⟩,
    fun _ => read Entity.type type _, fun _ => read Entity.class? class? _, ?_, ?_, ?_⟩
  · rw [entity_modify]
    split
    · rename_i same
      rw [← same.1] at typed ⊢
      exact kind typed
    · rfl
  · intro scope name id found
    rwa [table]
  · intro scope name id found _
    rwa [table] at found
  · intro scope name _
    rw [table]

theorem setDocstring (g : Graph) (id : EntityId) (text : String) (line : Nat) :
    Stores places g (g.setDocstring id text line) :=
  .modify (by rfl) (by intro; rfl) (by rfl) (by rfl) (by rfl)

theorem edit {f : Entity → Entity} (stores : Stores places g h) (own : g.Has attr → g.BoundAt places attr)
    (annotated : ∀ e : Entity, e.Annotated (f e)) : Stores places g (h.modify attr f) := by
  have read {α : Type} (part : Entity → α) (kept : ∀ e, part (f e) = part e) (other : EntityId) :
      part ((h.modify attr f).entity other) = part (h.entity other) := read_modify h attr f part kept other
  have away {id : EntityId} (inside : g.Has id) (apart : ¬ g.BoundAt places id) :
      (h.modify attr f).entity id = h.entity id := by
    refine entity_modify_of_ne h attr f ?_
    rintro rfl
    exact apart (own inside)
  have table (scope : EntityId) : ((h.modify attr f).entity scope).contents = (h.entity scope).contents :=
    read Entity.contents (fun e => (annotated e).contents) scope
  refine ⟨⟨fun inside => (h.has_modify attr f _).mpr (stores.has inside), fun inside apart => ?_,
    fun inside apart type => ?_⟩, fun inside => ?_, fun id => ?_, ?_, ?_, ?_⟩
  · rw [away inside apart, stores.attribute? inside apart]
  · rw [away inside apart, stores.kind inside apart type]
  · rw [read Entity.type fun e => (annotated e).type, stores.type inside]
  · rw [read Entity.class? fun e => (annotated e).class?, stores.class?]
  · intro scope name id found
    rw [table]
    exact stores.bound found
  · intro scope name id found inside
    rw [table] at found
    exact stores.known found inside
  · intro scope name apart
    rw [table, stores.elsewhere apart]

theorem addAttribute (inside : g.Has scope) (free : (g.entity scope).contents.get? name = none)
    (place : places scope name) (kind : Option EntityKind) (line : Nat) :
    Stores places g (g.addAttribute scope name kind line).1 := by
  have arranged := arranged_addEntity g scope name (.attribute {}) kind line
  have table := contents_addEntity_of_free inside free (.attribute {}) kind line
  have read {α : Type} (part : Entity → α) (blind : ∀ e name contents, part { e with name, contents } = part e)
      {id : EntityId} (inside : g.Has id) :
      part ((g.addAttribute scope name kind line).1.entity id) = part (g.entity id) := by
    rw [Graph.addAttribute, arranged.read part blind, entity_alloc_of_has _ _ inside]
  refine ⟨.addEntity _ _ _ _ _ _, read Entity.type fun _ _ _ => rfl, fun id => ?_, ?_, ?_, ?_⟩
  · rw [Graph.addAttribute, arranged.read Entity.class? fun _ _ _ => rfl, entity_alloc]
    split
    · rename_i fresh
      rw [fresh, g.entity_of_not_has g.not_has_fresh]
      rfl
    · rfl
  · intro other key id found
    rw [Graph.addAttribute, table, if_neg, found]
    rintro ⟨rfl, rfl⟩
    rw [free] at found
    cases found
  · intro other key id found known
    rw [Graph.addAttribute, table] at found
    split at found
    · cases found
      exact absurd known g.not_has_fresh
    · exact found
  · intro other key apart
    rw [Graph.addAttribute, table, if_neg]
    rintro ⟨rfl, rfl⟩
    exact apart place

theorem attributeFor {kind : Option EntityKind} {a : Assignment}
    (found : g.attributeFor scope name kind a = (k, some attr)) (inside : g.Has scope) (place : places scope name) :
    Stores places g k ∧ (g.Has attr → g.BoundAt places attr) := by
  unfold Graph.attributeFor at found
  split at found
  · rename_i bound
    cases found
    exact ⟨.refl g, fun _ => ⟨scope, name, place, bound⟩⟩
  · rename_i free
    split at found
    · cases found
      exact ⟨.addAttribute inside free place kind a.line, fun known => absurd known g.not_has_fresh⟩
    · cases found

/-- What a class may have of a name that it binds is not changed by what it is given besides. -/
theorem mayBeAttribute (stores : Stores places g h) (tabled : g.Tabled)
    (bound : (g.entity scope).contents.get? name = some attr)
    (only : ∀ {other}, places other name → other = scope) :
    h.mayBeAttribute scope name = g.mayBeAttribute scope name := by
  have tables (other : EntityId) :
      (h.entity other).contents.get? name = (g.entity other).contents.get? name := by
    by_cases same : other = scope
    · rw [same, stores.bound bound, bound]
    · exact stores.elsewhere fun place => same (only place)
  unfold Graph.mayBeAttribute
  rw [find_congr stores.class? tables]
  cases found : g.find scope name with
  | none => rfl
  | some member =>
      have held : ∃ other, (g.entity other).contents.get? name = some member := by
        unfold find at found
        split at found
        · cases found
        · obtain ⟨other, _, held⟩ := List.exists_of_findSome?_eq_some found
          exact ⟨other, held⟩
      obtain ⟨other, held⟩ := held
      dsimp only
      rw [stores.type (g.has_of_parent (tabled.bound held).1)]

section records

variable (own : g.Has attr → g.BoundAt places attr) (a : Assignment)

include own

theorem recordHint (stores : Stores places g h) : Stores places g (h.recordHint attr a) :=
  stores.edit own fun e => (e.annotated_setLine a.line).trans (Entity.annotated_modifyAttribute _ _)

theorem recordValue (stores : Stores places g h) : Stores places g (h.recordValue attr a) :=
  stores.edit own fun e => e.annotated_modifyAttribute _

theorem recordAttribute (stores : Stores places g h) (inFlow : Bool) (usual : EntityKind) :
    Stores places g (h.recordAttribute attr a inFlow usual) := by
  have classified {k : Graph} (stores : Stores places g k) :
      Stores places g (k.classifyConstant attr a.hint a.value inFlow usual) := by
    unfold classifyConstant
    dsimp only
    split
    · exact stores.edit own fun e => (e.annotated_setKind _).trans (Entity.annotated_modifyAttribute _ _)
    · split
      · exact stores.edit own fun e => e.annotated_setKind _
      · exact stores
  exact (classified (stores.recordHint own a)).recordValue own a

end records

end Stores

end Graph

namespace Walk

variable {w v : Walk} {target : Expr} {a : Assignment} {name : String} {places : EntityId → String → Prop}

/-- The place that a target names. In a function names have none, since local variables are not kept. -/
def At (w : Walk) (target : Expr) (scope : EntityId) (name : String) : Prop :=
  w.documentedName? target = some (scope, name) ∧ (w.graph.entity scope).isContainer = true

theorem stores_recordAlias? {g : Graph} (recorded : w.graph.recordAlias? w.current name a = some g) :
    Stores places w.graph g := by
  unfold recordAlias? at recorded
  split at recorded
  · obtain ⟨dotted, _, rfl⟩ := Option.map_eq_some_iff.mp recorded
    exact .modify (by rfl) (by intro; rfl) (by rfl) (by rfl) (by rfl)
  · cases recorded

theorem stores_retagMethod? {g : Graph} (retagged : w.graph.retagMethod? w.current name a = some g) :
    Stores places w.graph g := by
  unfold retagMethod? at retagged
  split at retagged
  · simp only [Option.bind_eq_bind, Option.bind_eq_some_iff] at retagged
    obtain ⟨kind, _, method, _, stored⟩ := retagged
    split at stored
    · rename_i function
      cases stored
      refine .modify (by rfl) (fun other => ?_) (by rfl) (by rfl) (by rfl)
      rw [function] at other
      cases other
    · cases stored
  · cases retagged

theorem stores_assignInModule (type : w.scope.type = .module) (name : String) (a : Assignment) :
    Stores (w.At (.name name)) w.graph (w.assignInModule name a).1 := by
  have inside : w.graph.Has w.current := w.graph.has_of_type (by rw [← Walk.scope, type]; decide)
  have container : w.scope.isContainer = true := by simp [Entity.isContainer, type]
  have here : w.At (.name name) w.current name := ⟨rfl, container⟩
  unfold assignInModule
  dsimp only
  split
  · exact .refl _
  · split
    · rename_i recorded
      exact stores_recordAlias? recorded
    · split
      · rename_i found
        rw [attributeFor_eq_none found]
        exact .refl _
      · rename_i found
        obtain ⟨stores, own⟩ := Stores.attributeFor found inside here
        split
        · exact stores.recordAttribute own a _ _
        · exact stores

theorem stores_assignInClass (type : w.scope.type = .class) (name : String) (a : Assignment) :
    Stores (w.At (.name name)) w.graph (w.assignInClass name a).1 := by
  have inside : w.graph.Has w.current := w.graph.has_of_type (by rw [← Walk.scope, type]; decide)
  have container : w.scope.isContainer = true := by simp [Entity.isContainer, type]
  have here : w.At (.name name) w.current name := ⟨rfl, container⟩
  unfold assignInClass
  dsimp only
  split
  · rename_i recorded
    exact stores_recordAlias? recorded
  · split
    · split
      · rename_i found
        rw [attributeFor_eq_none found]
        exact .refl _
      · rename_i found
        obtain ⟨stores, own⟩ := Stores.attributeFor found inside here
        exact (stores.edit own fun e => e.annotated_margin _ e.line e.docstring e.notes).recordAttribute own a _ _
    · exact .refl _

theorem stores_assignName (w : Walk) (name : String) (a : Assignment) :
    Stores (w.At (.name name)) w.graph (w.assignName name a).1 := by
  unfold assignName
  split
  · exact .refl _
  · split
    · rename_i type
      exact stores_assignInModule type name a
    · rename_i type
      split
      · rename_i retagged
        exact stores_retagMethod? retagged
      · exact stores_assignInClass type name a
    · exact .refl _

theorem stores_assignInstance (w : Walk) (name : String) (a : Assignment) :
    Stores (w.At (.attribute (.name "self") name)) w.graph (w.assignInstance name a).1 := by
  unfold assignInstance
  dsimp only
  split
  · exact .refl _
  · rename_i owner method
    have here : w.At (.attribute (.name "self") name) owner name := by
      simp [At, documentedName?, method, Entity.isContainer, type_of_methodClass? method]
    have inside : w.graph.Has owner := w.graph.has_of_type (by rw [type_of_methodClass? method]; decide)
    split
    · split
      · rename_i found
        rw [attributeFor_eq_none found]
        exact .refl _
      · rename_i found
        obtain ⟨stores, own⟩ := Stores.attributeFor found inside here
        exact ((stores.recordHint own a).edit own fun e => e.annotated_setKind _).recordValue own a
    · exact .refl _

theorem stores_assignDoc (w : Walk) (target : Expr) (a : Assignment) :
    Stores places w.graph (w.assignDoc target a) := by
  unfold assignDoc
  split
  · exact .refl _
  · have sought : Stores places w.graph (w.docTarget target a.line).1 := by
      unfold docTarget
      split
      · exact .report _ _ _ _ _ _
      · dsimp only
        split
        · exact .refl _
        · exact .report _ _ _ _ _ _
    generalize w.docTarget target a.line = result at sought ⊢
    obtain ⟨g, found⟩ := result
    dsimp only at sought ⊢
    split
    · split
      · exact sought.trans (.setDocstring _ _ _ _)
      · exact sought
    · split
      · exact sought.trans (.report _ _ _ _ _ _)
      · exact sought.trans (.report _ _ _ _ _ _)

theorem stores_assign (w : Walk) (target : Expr) (a : Assignment) :
    Stores (w.At target) w.graph (w.assign target a).1 := by
  unfold assign
  split
  · exact stores_assignName w _ a
  · rename_i base attr
    split
    · exact .refl _
    · split
      · exact stores_assignDoc w base a
      · split
        · rename_i own
          have self : base = .name "self" := by
            cases base <;> simp [Expr.name?] at own
            rw [own]
          rw [self]
          exact stores_assignInstance w attr a
        · exact .refl _
  · exact .report _ _ _ _ _ _

theorem stores_documentTarget (w : Walk) (target : Expr) (next : Option Stmt) :
    Stores places w.graph (w.documentTarget target next) := by
  have settled {documented : Option Graph} (each : ∀ g, documented = some g → Stores places w.graph g) :
      Stores places w.graph (documented.getD w.graph) := by
    cases documented with
    | none => exact .refl _
    | some g => exact each g rfl
  refine settled fun g documented => ?_
  simp only [Option.bind_eq_bind, Option.bind_eq_some_iff] at documented
  obtain ⟨next, _, text, _, place, _, entity, _, stored⟩ := documented
  cases stored
  exact .setDocstring _ _ _ _

theorem stores_assignTarget (w : Walk) (a : Assignment) (next : Option Stmt) (target : Expr) :
    Stores (w.At target) w.graph (w.assignTarget a next target).graph := by
  have assigned := stores_assign w target a
  unfold assignTarget
  split
  · rename_i g equal
    rw [equal] at assigned
    exact assigned.trans (stores_documentTarget { w with graph := g } target next)
  · rename_i equal
    rwa [equal] at assigned

end Walk

/-- The assignments that a statement makes, in order. -/
def Stmt.assignments : Stmt → List (Expr × Assignment)
  | .assign targets value typeComment line =>
      let hint := typeComment.map fun text => (Expr.str text).unstring
      targets.map (·, { hint, value := some value, line })
  | .annAssign target hint value line => [(target, { hint := some hint.unstring, value, line })]
  | .augAssign target op value line => [(target, { value := some value, line, op := some op })]
  | _ => []

namespace Walk

variable {w v : Walk} {stmt : Stmt} {next : Option Stmt}

/-- One assignment of a statement. Only one that binds its target may have a docstring behind it. -/
def assignNext (next : Option Stmt) (w : Walk) (item : Expr × Assignment) : Walk :=
  if item.2.isBinding then w.assignTarget item.2 next item.1
  else { w with graph := (w.assign item.1 item.2).1 }

theorem handle_eq_foldl (w : Walk) (assigns : stmt.assignments ≠ []) (next : Option Stmt) :
    w.handle stmt next = stmt.assignments.foldl (assignNext next) w := by
  cases stmt with
  | assign targets value typeComment line =>
      rw [Stmt.assignments, List.foldl_map]
      rfl
  | annAssign | augAssign => rfl
  | _ => exact absurd rfl assigns

theorem intact_handle_of_assignments {about : EntityId → Prop} (w : Walk) (none : stmt.assignments = [])
    (next : Option Stmt) : Intact about w.graph (w.handle stmt next).graph := by
  cases stmt with
  | assign targets value typeComment line =>
      rw [Stmt.assignments, List.map_eq_nil_iff] at none
      rw [none]
      exact .refl _
  | annAssign | augAssign => cases none
  | imports names => exact Intact.carriesImports.importModules w _
  | importFrom => exact Intact.carriesImports.importFrom w _ _ _ _
  | _ => exact .refl _

theorem walks_assignNext (next : Option Stmt) (w : Walk) (item : Expr × Assignment) :
    Walks (.any True) w (assignNext next w item) := by
  unfold assignNext
  split
  · exact walks_assignTarget w item.2 next (fun _ => trivial) fun _ _ => trivial
  · exact walks_assign w (fun _ => trivial) (fun _ _ => trivial) item.2

theorem stores_assignNext (next : Option Stmt) (w : Walk) (item : Expr × Assignment) :
    Stores (w.At item.1) w.graph (assignNext next w item).graph := by
  unfold assignNext
  split
  · exact stores_assignTarget w item.2 next item.1
  · exact stores_assign w item.1 item.2

theorem at_of_walks (inBuild : w.InStandardBuild) (walks : Walks (.any True) w v) : v.At = w.At := by
  have framed := walks.framed
  have valid := inBuild.valid
  have type {id : EntityId} (inside : w.graph.Has id) : (v.graph.entity id).type = (w.graph.entity id).type :=
    ((walks.path valid).lasts valid.sound inside).2.type
  funext target scope name
  have named : v.documentedName? target = w.documentedName? target := by
    unfold documentedName?
    rw [framed.current, walks.methodClass? valid]
  refine propext ⟨fun place => ?_, fun place => ?_⟩
  · rw [At, named] at place
    refine ⟨place.1, ?_⟩
    have inside : w.graph.Has scope := by
      rcases documentedName?_place place.1 with rfl | method
      · exact valid.has_current
      · exact w.graph.has_of_type (by rw [type_of_methodClass? method]; decide)
    exact Entity.isContainer_of_type place.2 (type inside).symm
  · refine ⟨named.trans place.1, ?_⟩
    exact Entity.isContainer_of_type place.2 (type (w.graph.has_of_isContainer place.2))

/-- The places of some targets. -/
def AtAny (w : Walk) (items : List (Expr × Assignment)) (scope : EntityId) (name : String) : Prop :=
  ∃ item ∈ items, w.At item.1 scope name

theorem stores_foldl (inBuild : w.InStandardBuild) (next : Option Stmt) (items : List (Expr × Assignment)) :
    Stores (w.AtAny items) w.graph (items.foldl (assignNext next) w).graph := by
  induction items generalizing w with
  | nil => exact .refl _
  | cons item rest ih =>
      have walks := walks_assignNext next w item
      have first := (stores_assignNext next w item).mono fun {scope name} place =>
        (⟨item, List.mem_cons_self, place⟩ : w.AtAny (item :: rest) scope name)
      refine first.trans ((ih (inBuild.walks walks)).mono ?_)
      rintro scope name ⟨other, among, place⟩
      rw [at_of_walks inBuild walks] at place
      exact ⟨other, List.mem_cons_of_mem _ among, place⟩

theorem stores_handle (inBuild : w.InStandardBuild) (assigns : stmt.assignments ≠ []) (next : Option Stmt) :
    Stores (w.AtAny stmt.assignments) w.graph (w.handle stmt next).graph := by
  rw [handle_eq_foldl w assigns]
  exact stores_foldl inBuild next stmt.assignments

theorem intact_handle (inBuild : w.InStandardBuild) (stmt : Stmt) (next : Option Stmt) :
    Intact (w.graph.BoundAt (w.AtAny stmt.assignments)) w.graph (w.handle stmt next).graph := by
  by_cases assigns : stmt.assignments = []
  · exact intact_handle_of_assignments w assigns next
  · exact (stores_handle inBuild assigns next).toIntact

end Walk

end DocGraph
