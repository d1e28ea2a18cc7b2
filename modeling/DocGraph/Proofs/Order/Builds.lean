import DocGraph.Proofs.Order.Charting

namespace DocGraph

open DocGraph.Graph
open Dotted (Spelled)

/-- The names that a statement at the top of a module may make its exports. -/
def Stmt.exported : Stmt → List String
  | .assign [.name name] value _ _ =>
      if name = "__all__" then ((elements? value).getD []).filterMap Expr.str? else []
  | _ => []

/-- A module that is registered and nothing more. -/
def Entity.Bare (e : Entity) : Prop :=
  e.type = .module ∧ e.aliases = ∅ ∧ e.pending = [] ∧ e.module?.map ModuleInfo.state = some .notProcessed

def Module.exported (tree : Module) : List String := tree.body.flatMap Stmt.exported

namespace Graph

variable {g h k : Graph} {words : List String} {id : EntityId} {outline bindings done : List Binding} {tree : Module}

theorem exportsOf_modifyExports (exports : List String) (id : EntityId) :
    (g.modify id (Entity.modifyModule fun info => { info with exports := some exports })).exportsOf id ⊆ exports := by
  unfold exportsOf
  by_cases inside : g.Has id
  · rw [entity_modify_self _ _ _ inside, Entity.module?_modifyModule]
    cases (g.entity id).module? <;> simp
  · rw [entity_of_not_has _ (by simpa using inside)]
    simp [Entity.absent, Entity.module?]

theorem exportsOf_readExports (g : Graph) (id : EntityId) (value : Expr) (line : Nat) :
    (g.readExports id value line).exportsOf id ⊆ g.exportsOf id ++ ((elements? value).getD []).filterMap Expr.str? := by
  unfold readExports
  cases elements? value with
  | none => exact List.subset_append_left _ _
  | some elements =>
      have stored (k : Graph) : (k.modify id (Entity.modifyModule fun info =>
          { info with exports := some (elements.filterMap Expr.str?) })).exportsOf id ⊆
            g.exportsOf id ++ elements.filterMap Expr.str? :=
        List.Subset.trans (exportsOf_modifyExports _ id) (List.subset_append_right _ _)
      dsimp only
      split
      · exact stored _
      · exact stored _

theorem exportsOf_readMetadata_subset (g : Graph) (id : EntityId) (body : List Stmt) :
    (g.readMetadata id body).exportsOf id ⊆ g.exportsOf id ++ body.flatMap Stmt.exported := by
  unfold readMetadata
  induction body generalizing g with
  | nil => exact List.subset_append_left _ _
  | cons stmt rest ih =>
      have first : (readMetadataOf id g stmt).exportsOf id ⊆ g.exportsOf id ++ stmt.exported := by
        by_cases silent : stmt.setsExports = false
        · rw [exportsOf_readMetadataOf silent]
          exact List.subset_append_left _ _
        · unfold Stmt.setsExports at silent
          split at silent
          · rename_i name value _ line
            obtain rfl : name = "__all__" := by simpa using silent
            exact exportsOf_readExports g id value line
          · exact absurd rfl silent
      intro name among
      rw [List.flatMap_cons, ← List.append_assoc]
      rcases List.mem_append.mp (ih _ among) with before | later
      · exact List.mem_append_left _ (first before)
      · exact List.mem_append_right _ later

/-- Modules are registered, each with its name and whether it is a package. -/
def registering (modules : List (String × Bool)) : List Call :=
  modules.map fun entry => .addModule entry.1 entry.2

/-- Nothing but modules that have yet to be built. -/
def Bare (g : Graph) : Prop := ∀ id, g.Has id → (g.entity id).Bare

theorem Bare.addModule {name : String} {isPackage : Bool} (bare : g.Bare)
    (added : g.addModule name isPackage = .ok (h, id)) : h.Bare := by
  obtain ⟨size, own, parent, read⟩ := read_addModule added
  intro other inside
  rw [read Entity.Bare (fun _ _ _ => rfl), entity_alloc]
  split
  · exact ⟨rfl, rfl, rfl, rfl⟩
  · rename_i old
    refine bare other (Nat.lt_of_le_of_ne (Nat.lt_succ_iff.mp ?_) fun same => old ?_)
    · rwa [Has, size] at inside
    · exact congrArg EntityId.mk same

theorem bare_registering (options : Options) (modules : List (String × Bool)) :
    (run (empty options) (registering modules)).Bare := by
  have behind (g : Graph) (bare : g.Bare) : (run g (registering modules)).Bare := by
    induction modules generalizing g with
    | nil => exact bare
    | cons entry rest ih =>
        refine ih _ ?_
        have outcome := (Call.addModule entry.1 entry.2).outcome_apply g
        generalize (Call.addModule entry.1 entry.2).apply g = h at outcome ⊢
        cases outcome with
        | refused => exact bare
        | addModule added => exact bare.addModule added
  exact behind _ fun id inside => absurd inside (by simp [Has, size, empty])

theorem admits_registering (modules : List (String × Bool)) : g.Admits (registering modules) := by
  induction modules generalizing g with
  | nil => trivial
  | cons entry rest ih => exact ⟨trivial, ih⟩

theorem charted_registering (vocabulary : Vocabulary words) (options : Options) (modules : List (String × Bool))
    (named : ∀ id ∈ (run (empty options) (registering modules)).ids,
      ((run (empty options) (registering modules)).entity id).name ∈ words) :
    (run (empty options) (registering modules)).Charted words := by
  have bare := bare_registering options modules
  have path := path_run (sound_empty options) (admits_registering modules)
  generalize run (empty options) (registering modules) = g at *
  have name {id : EntityId} (inside : g.Has id) : (g.entity id).name ∈ words := named id (g.mem_ids.mpr inside)
  have container {id : EntityId} (inside : g.Has id) : (g.entity id).isContainer = true := by
    simp [Entity.isContainer, (bare id inside).1]
  have unaliased {id : EntityId} {key : String} (inside : g.Has id) : (g.entity id).aliases[key]? = none := by
    rw [(bare id inside).2.1]
    exact Std.ExtTreeMap.getElem?_empty
  have dotless : g.Dotless :=
    ⟨fun inside => vocabulary.segment _ (name inside), fun inside bound => by simp [unaliased inside] at bound⟩
  have lockStep := path.lockStep (sound_empty options) (registered_empty options) dotless
  refine ⟨path.sound (sound_empty options), path.inTable (sound_empty options) (unnumberedInTable_empty options),
    fun inside => iff_of_true (name inside) (container inside), fun _ held => container (lockStep.rooted.parentHas held),
    fun inner => (lockStep.index _ _).mpr ⟨g.has_of_isContainer inner, rfl⟩, fun _ listed => ?_,
    fun inner _ entry => ?_⟩
  · obtain ⟨inside, full⟩ := (lockStep.index _ _).mp listed
    exact ⟨container inside, full⟩
  · rw [unaliased (g.has_of_isContainer inner)] at entry
    cases entry

/-- What relative imports of a module go by. -/
def originOf (g : Graph) (id : EntityId) : Option String → Nat → Option String :=
  Walk.originName? { graph := g, module := id, hooks := [] }

def moduleSites (g : Graph) (id : EntityId) (tree : Module) : List Site :=
  Stmt.sitesAll [g.fullName id] false tree.body

/-- What a tree gives names to, if it is that of a registered module. -/
def moduleOutline (g : Graph) (id : EntityId) (tree : Module) : List Binding :=
  outlineOf (g.originOf id) (g.moduleSites id tree)

theorem scopeNames_of_module (sound : g.Sound) (isModule : (g.entity id).type = .module) :
    g.scopeNames id = [g.fullName id] := by
  have inside : g.Has id := g.has_of_type (by rw [isModule]; decide)
  cases above : (g.entity id).parent with
  | none => rw [scopeNames, ancestors_of_root sound.rooted inside above, scopesAlong, isModule]
  | some upper => rw [scopeNames, ancestors_of_child sound.rooted above, scopesAlong, isModule]

section build

variable {hooks : List Hook} (describes : ∀ hook ∈ hooks, hook.Describes) (vocabulary : Vocabulary words)
  (charted : g.Charted words) (drawn : Draws words outline done g h)
  (unbuilt : h.moduleState? id = some .notProcessed)

include describes vocabulary charted drawn unbuilt

/-- The walk of a module begins in its scope. -/
theorem ready_atBody (unclaimed : h.Unclaimed) (tree : Module) :
    Draws words outline [] h ((Walk.opening h hooks id tree).atBody tree.body).graph ∧
      ((Walk.opening h hooks id tree).atBody tree.body).Ready words tree.exported outline (g.originOf id)
        [g.fullName id] false := by
  let w := Walk.opening h hooks id tree
  have noted : Noted id h w.graph := noted_metadata h id tree.body
  have isModule := type_of_moduleState unbuilt
  have opened : Draws words outline [] h w.graph :=
    .of_quiet drawn.charted drawn.placed vocabulary (.of_noted noted) (.retouch noted.retouched)
  have told := Walk.told_documented w tree.body
  have documented : Draws words outline [] w.graph (w.documented tree.body) :=
    .of_described opened.charted opened.placed vocabulary told.described
  have both := opened.trans documented
  have lasting : Lasting words g (w.documented tree.body) := (drawn.trans both).widens.toLasting
  have sound := documented.charted.sound
  have inside : g.Has id := drawn.modules isModule
  have isModuleBefore : (g.entity id).type = .module := (drawn.widens.entity inside).type.symm.trans isModule
  have isModuleBehind : ((w.documented tree.body).entity id).type = .module :=
    (lasting.entity inside).type.trans isModuleBefore
  have valid : w.Valid :=
    ⟨opened.charted.sound, (noted.retouched.entity id).type.trans isModule, by simp [w, Walk.opening], describes⟩
  have container : (g.entity id).isContainer = true := by simp [Entity.isContainer, isModuleBefore]
  refine ⟨both, valid.atBody tree.body, documented.charted, documented.placed, fun _ => ⟨?_, ?_⟩, by simp,
    fun _ guarded => absurd guarded.symm (Option.some_ne_none _), ?_, ?_⟩
  · exact (lasting.entity inside).isContainer.trans container
  · refine (scopeNames_of_module sound isModuleBehind).trans ?_
    rw [charted.fullName_eq lasting sound vocabulary container]
  · have kept : (w.documented tree.body).exportsOf id = w.graph.exportsOf id := by
      rw [Graph.exportsOf, (told.entity id).module?]
      rfl
    have stated := exportsOf_readMetadata_subset (h.setState id .processing) id tree.body
    have before : (h.setState id .processing).exportsOf id = [] := by
      rw [setState, exportsOf_modifyModule (by intro; rfl), unclaimed.exports unbuilt]
    rw [before] at stated
    exact kept ▸ stated
  · exact Walk.originName?_of_lasting (w := { graph := g, module := id, hooks := [] }) isModuleBefore charted vocabulary rfl
      lasting sound

/-- The build of a module succeeds, and extends the graph by the outline of its tree. -/
theorem build_draws (unclaimed : h.Unclaimed)
    (fits : Walk.Fits words tree.exported outline (g.originOf id) (g.moduleSites id tree) h) :
    ∃ k, h.build hooks id (.ok tree) = .ok (k, .processed) ∧
      Draws words outline (g.moduleOutline id tree) h k := by
  obtain ⟨opened, ready⟩ := ready_atBody describes vocabulary charted drawn unbuilt unclaimed tree
  have walked := (Walk.Script.performs_ofBody tree.body).charts vocabulary ready (fits.behind opened.widens)
  have left := walked.trans_nil (.of_described walked.charted walked.placed vocabulary
    (Walk.told_leave _ id).described)
  have populated : h.populate hooks id tree =
      ((Walk.walkBody tree.body ((Walk.opening h hooks id tree).atBody tree.body)).leave id).graph :=
    congrArg Walk.graph (Walk.walkModule_eq (Walk.opening h hooks id tree) tree.body)
  have noted : Noted id (h.populate hooks id tree) _ :=
    (noted_setState _ id .processed).trans
      (noted_modifyModule _ id (f := fun info => { info with tree := some tree }) (fun _ => rfl) fun _ => rfl)
  refine ⟨_, by rw [build, unbuilt], opened.trans (left.trans_nil ?_)⟩
  rw [← populated] at left ⊢
  exact .of_quiet left.charted left.placed vocabulary (.of_noted noted) (.retouch noted.retouched)

end build

def building (hooks : List Hook) (builds : List (EntityId × Module)) : List Call :=
  builds.map fun entry => .build hooks entry.1 (.ok entry.2)

/-- What trees give names to, together. -/
def outlineOfAll (g : Graph) (builds : List (EntityId × Module)) : List Binding :=
  builds.flatMap fun entry => g.moduleOutline entry.1 entry.2

/-- Behind some of the builds: the graph is extended by the outlines of their trees, and the modules that are left
have not been built. -/
structure Underway (words : List String) (outline done : List Binding) (todo : List EntityId) (g h : Graph) : Prop
    extends Draws words outline done g h where
  unclaimed : h.Unclaimed
  unbuilt : ∀ id ∈ todo, h.moduleState? id = some .notProcessed
  built : ∀ id, (h.entity id).type = .module → id ∉ todo → h.moduleState? id = some .processed

theorem moduleState?_built {hooks : List Hook} {state : BuildState}
    (built : h.build hooks id (.ok tree) = .ok (k, state)) (isModule : (k.entity id).type = .module) :
    k.moduleState? id = some .processed := by
  unfold build at built
  split at built
  · cases built
  · cases built
    have kept : ((h.populate hooks id tree).entity id).type = .module := by
      rwa [read_modify _ _ _ Entity.type fun e => e.type_modifyModule _, setState,
        read_modify _ _ _ Entity.type fun e => e.type_modifyModule _] at isModule
    rw [moduleState?_modify, ← moduleState?, setState, moduleState?_modify]
    cases payload : ((h.populate hooks id tree).entity id).payload with
    | module info => simp [Entity.module?, payload]
    | _ => simp [Entity.type, Payload.type, payload] at kept
  · cases built

theorem Underway.build {hooks : List Hook} (describes : ∀ hook ∈ hooks, hook.Describes) (vocabulary : Vocabulary words)
    (charted : g.Charted words) {todo : List EntityId} (underway : Underway words outline done (id :: todo) g h)
    (once : id ∉ todo)
    (fits : Walk.Fits words tree.exported outline (g.originOf id) (g.moduleSites id tree) h) :
    Widens words (g.moduleOutline id tree) h ((Call.build hooks id (.ok tree)).apply h) ∧
      Underway words outline (done ++ g.moduleOutline id tree) todo g ((Call.build hooks id (.ok tree)).apply h) := by
  obtain ⟨k, built, draws⟩ := build_draws describes vocabulary charted underway.toDraws
    (underway.unbuilt id List.mem_cons_self) underway.unclaimed fits
  have applied : (Call.build hooks id (.ok tree)).apply h = k := by
    simp [Call.apply, built, Except.map, Except.toOption]
  have unclaimed : ((Call.build hooks id (.ok tree)).apply h).Unclaimed := unclaimed_apply describes underway.unclaimed
  rw [applied] at unclaimed
  have upkept : Upkept (· = id) h k :=
    build_related .refl .trans .of_noted (fun told => .of_described told.described)
      (fun same act => (act.upkept (same ▸ describes)).mono) built
  have kept {other : EntityId} (inside : h.Has other) (apart : other ≠ id) :
      k.moduleState? other = h.moduleState? other := by
    rw [moduleState?_eq, upkept.claims inside apart, ← moduleState?_eq]
  rw [applied]
  refine ⟨draws.widens, underway.toDraws.trans draws, unclaimed, fun other among => ?_,
    fun other isModule outside => ?_⟩
  · have state := underway.unbuilt other (List.mem_cons_of_mem _ among)
    have inside : h.Has other := h.has_of_type (by rw [type_of_moduleState state]; decide)
    rw [kept inside (fun same => once (same ▸ among)), state]
  · by_cases same : other = id
    · subst same
      exact moduleState?_built built isModule
    · have inside := draws.modules isModule
      have before := (draws.widens.entity inside).type.symm.trans isModule
      rw [kept inside same]
      exact underway.built other before (by simp [same, outside])

theorem Underway.run {hooks : List Hook} (describes : ∀ hook ∈ hooks, hook.Describes) (vocabulary : Vocabulary words)
    (charted : g.Charted words) {builds : List (EntityId × Module)} (once : (builds.map Prod.fst).Nodup)
    (plain : ∀ entry ∈ builds, ∀ site ∈ g.moduleSites entry.1 entry.2, site.Plain words entry.2.exported)
    (fresh : Binding.Fresh words (g.outlineOfAll builds) h) (among : g.outlineOfAll builds ⊆ outline)
    (underway : Underway words outline done (builds.map Prod.fst) g h) :
    Underway words outline (done ++ g.outlineOfAll builds) [] g (Graph.run h (building hooks builds)) := by
  induction builds generalizing done h with
  | nil =>
      rw [outlineOfAll, List.flatMap_nil, List.append_nil]
      exact underway
  | cons entry rest ih =>
      rw [outlineOfAll, List.flatMap_cons] at fresh among
      rw [List.map_cons, List.nodup_cons] at once
      obtain ⟨first, others⟩ := List.append_subset.mp among
      have fits : Walk.Fits words entry.2.exported outline (g.originOf entry.1) (g.moduleSites entry.1 entry.2) h :=
        ⟨plain entry List.mem_cons_self, fresh.left, first⟩
      obtain ⟨widens, behind⟩ := underway.build describes vocabulary charted once.1 fits
      have all := ih once.2 (fun entry later => plain entry (List.mem_cons_of_mem _ later)) (fresh.right widens) others
        behind
      rw [List.append_assoc] at all
      exact all

end Graph

end DocGraph
