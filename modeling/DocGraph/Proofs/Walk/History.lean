import DocGraph.Proofs.Walk.Confined
import DocGraph.Proofs.Walk.Guard
import DocGraph.Proofs.Walk.Scopes
import DocGraph.Proofs.Walk.Visits

namespace DocGraph

open DocGraph.Graph

namespace Walk

variable {w v : Walk} {may : Licence}

/-- What holds in all states in which a build walks statements. -/
structure InStandardBuild (w : Walk) : Prop extends ValidInTable w where
  atHome : w.AtHome
  hooks : w.hooks = Hook.standard

namespace InStandardBuild

theorem confined (inBuild : w.InStandardBuild) : ∀ hook ∈ w.hooks, hook.Confined :=
  inBuild.hooks ▸ Hook.confined_standard

theorem walks (inBuild : w.InStandardBuild) (walks : Walks may w v) : v.InStandardBuild :=
  ⟨inBuild.toValidInTable.walks walks, inBuild.atHome.walks walks, walks.framed.hooks.trans inBuild.hooks⟩

theorem setGuard (inBuild : w.InStandardBuild) (guard : Option Guard) : { w with guard }.InStandardBuild := by
  obtain ⟨⟨valid, inTable⟩, atHome, hooks⟩ := inBuild
  exact ⟨⟨⟨valid.sound, valid.module, valid.scopes, valid.hooks⟩, inTable⟩,
    ⟨atHome.module, atHome.scopes, atHome.hooks⟩, hooks⟩

theorem setFlow (inBuild : w.InStandardBuild) (flowDepth : Nat) : { w with flowDepth }.InStandardBuild := by
  obtain ⟨⟨valid, inTable⟩, atHome, hooks⟩ := inBuild
  exact ⟨⟨⟨valid.sound, valid.module, valid.scopes, valid.hooks⟩, inTable⟩,
    ⟨atHome.module, atHome.scopes, atHome.hooks⟩, hooks⟩

theorem handle (inBuild : w.InStandardBuild) (stmt : Stmt) (next : Option Stmt) :
    (w.handle stmt next).InStandardBuild := by
  have walked : Walks (.any True) w (w.handle stmt next) := walks_handle w (fun _ => trivial) next
  exact inBuild.walks walked

theorem visit (inBuild : w.InStandardBuild) (stmt : Stmt) : (w.visit stmt).InStandardBuild := by
  have walked : Walks (.any True) w (w.visit stmt) := walks_visit w stmt
  exact inBuild.walks walked

theorem declared (inBuild : w.InStandardBuild) (stmt : Stmt) :
    { w with graph := (w.declared stmt).1 }.InStandardBuild := by
  have declares : Declares (.any True) w (w.declared stmt) := Script.declares_declared w stmt
  exact inBuild.walks declares.recorded

theorem enter {id : EntityId} (inBuild : w.InStandardBuild) (stmt : Stmt) (opened : (w.declared stmt).2 = some id) :
    ({ w with graph := (w.declared stmt).1 }.enter id).InStandardBuild := by
  have declares : Declares (.any True) w (w.declared stmt) := Script.declares_declared w stmt
  have behind := inBuild.declared stmt
  exact ⟨inBuild.toValidInTable.enter declares opened,
    behind.atHome.enter (inBuild.atHome.opened (declares.opens id opened)), inBuild.hooks⟩

end InStandardBuild

theorem Reached.inBuild (reached : w.Reached) : w.InStandardBuild := by
  induction reached with
  | @start options calls module admits unbuilt body =>
      have type := type_of_moduleState unbuilt
      have noted := noted_metadata (run (empty options) calls) module body
      have home := noted.home.trans ((unclaimed_run admits).home type)
      refine ⟨validInTable_start admits unbuilt body, ⟨home, fun id opened => ?_, fun hook among => ?_⟩, rfl⟩
      · rwa [List.mem_singleton.mp opened]
      · exact (Hook.describes_standard hook among).keepsHomes
  | @document w _ text line ih =>
      have told : Told (fun _ => True) w.graph (w.graph.setDocstring w.module text line) :=
        (told_setDocstring _ _ _ _).mono fun _ => trivial
      have walked : Walks (.any True) w (w.update (·.setDocstring w.module text line)) := .act (.document trivial told)
      exact ih.walks walked
  | visit _ stmt ih => exact ih.visit stmt
  | @walk w _ stmt next ih =>
      have walked : Walks (.any True) w (walkStmt stmt next w) := made_walkStmt stmt (fun _ => trivial) next w
      exact ih.walks walked
  | @openClass w _ _ _ head body declared ih =>
      have entered := ih.enter (.classDef head body) (congrArg Prod.snd declared)
      rwa [Walk.declared, declared] at entered
  | @openFunction w _ _ _ head body declared ih =>
      have entered := ih.enter (.function head body) (congrArg Prod.snd declared)
      rwa [Walk.declared, declared] at entered
  | block _ ih => exact ih.setFlow _
  | @unblock w _ body ih =>
      have walked : Walks (.any True) w (inBlock (walkBody body) w) := (made_walkBody body fun _ => trivial).inBlock w
      exact ih.walks walked
  | arm _ ih => exact ih.setGuard _

/-- The state in which the first statement of a module is walked. -/
def top (g : Graph) (module : EntityId) (tree : Module) : Walk :=
  { start g module tree.body with graph := (opening g Hook.standard module tree).documented tree.body }

theorem reached_top {options : Options} {calls : List Call} {module : EntityId}
    (admits : (empty options).Admits calls)
    (unbuilt : (run (empty options) calls).moduleState? module = some .notProcessed) (tree : Module) :
    (top (run (empty options) calls) module tree).Reached := by
  have started := Reached.start admits unbuilt tree.body
  unfold top documented
  split
  · exact started.document _ _
  · exact started

theorem build_eq_top {g : Graph} {module : EntityId} (unbuilt : g.moduleState? module = some .notProcessed)
    (tree : Module) :
    g.build Hook.standard module (.ok tree) =
      let built := ((walkBody tree.body (top g module tree)).leave module).graph.setState module .processed
      .ok (built.modify module (Entity.modifyModule fun info => { info with tree := some tree }), .processed) := by
  have walked : g.populate Hook.standard module tree =
      ((walkBody tree.body (top g module tree)).leave module).graph := by
    unfold populate walkModule top documented
    dsimp only
    cases leadingDocstring? tree.body <;> rfl
  rw [build, unbuilt]
  dsimp only
  rw [walked]

theorem described_visit (valid : w.Valid) (stmt : Stmt) : Described w.graph (w.visit stmt).graph :=
  List.foldlRecOn (motive := fun (g : Graph) => Described w.graph g) w.hooks _ (.refl _)
    fun _ before hook among => before.trans ((valid.hooks hook among).visit _ _ _ _)

/-- The hooks of every build find nothing in a definition itself, and nothing behind a statement. -/
theorem visit_definition (hooks : w.hooks = Hook.standard) {stmt : Stmt} (defines : stmt.isDefinition = true) :
    w.visit stmt = w := by
  rw [visit, hooks]
  cases stmt with
  | classDef | function => rfl
  | _ => cases defines

theorem depart_standard (hooks : w.hooks = Hook.standard) (stmt : Stmt) : w.depart stmt = w := by
  rw [depart, hooks]
  rfl

namespace Script

variable {script : Script} {walk : Walk → Walk} {stmts : List Stmt}

/-- The property holds now, and did where the walk came to each statement of the history. -/
def AllAlong (property : List (Walk × Stmt) → Graph → Prop) (module : EntityId) (past : List (Walk × Stmt))
    (g : Graph) : Prop :=
  property past g ∧ ∀ before u stmt after, past = before ++ (u, stmt) :: after →
    u.InStandardBuild ∧ u.module = module ∧ property before u.graph

theorem AllAlong.concat {property : List (Walk × Stmt) → Graph → Prop} {module : EntityId}
    {past : List (Walk × Stmt)} {u : Walk} {stmt : Stmt} {g : Graph} (before : AllAlong property module past u.graph)
    (inBuild : u.InStandardBuild) (here : u.module = module) (behind : property (past ++ [(u, stmt)]) g) :
    AllAlong property module (past ++ [(u, stmt)]) g := by
  refine ⟨behind, fun earlier v other later equal => ?_⟩
  -- The statement is the last one, or it was in the history before.
  rcases List.eq_nil_or_concat later with rfl | ⟨later, last, rfl⟩
  · obtain ⟨rfl, same⟩ := List.append_inj' equal rfl
    cases same
    exact ⟨inBuild, here, before.1⟩
  · rw [List.concat_eq_append, ← List.cons_append, ← List.append_assoc] at equal
    exact before.2 earlier v other later (List.append_inj' equal rfl).1

section follow

variable {property : List (Walk × Stmt) → Graph → Prop} {all : List (Walk × Stmt)} {module : EntityId}
  (plain : ∀ {past rest} {u : Walk} {stmt} (next : Option Stmt), all = past ++ (u, stmt) :: rest → u.InStandardBuild →
    u.module = module → stmt.isDefinition = false → property past u.graph →
    property (past ++ [(u, stmt)]) ((u.handle stmt next).visit stmt).graph)
  (definition : ∀ {past rest} {u : Walk} {stmt}, all = past ++ (u, stmt) :: rest → u.InStandardBuild →
    u.module = module → stmt.isDefinition = true → property past u.graph →
    property (past ++ [(u, stmt)]) (u.declared stmt).1)
  (leave : ∀ {past} {u : Walk} {id}, u.InStandardBuild → u.module = module → property past u.graph →
    property past (u.leave id).graph)

include plain definition leave

/-- What each statement keeps, once it is recorded and shown to the hooks, and what scopes keep when they
are left, a walk keeps. -/
theorem Performs.follow (performs : Performs script walk stmts) {past rest : List (Walk × Stmt)}
    (inBuild : w.InStandardBuild)
    (here : w.module = module) (split : all = past ++ reached w (script w) ++ rest) (start : property past w.graph) :
    property (past ++ reached w (script w)) (walk w).graph := by
  induction performs generalizing w past rest with
  | skip => simpa [Script.skip, reached] using start
  | andThen before behind ihBefore ihBehind =>
      rw [Script.andThen, reached_append, before.leads] at split ⊢
      rw [← List.append_assoc]
      have made := before.made w
      refine ihBehind (inBuild.walks made) (made.framed.module.trans here) (by simpa using split) ?_
      exact ihBefore inBuild here (by simpa using split) start
  | @inBlock script walk _ _ inside =>
      let deeper : Walk := { w with flowDepth := w.flowDepth + 1 }
      have states : reached w (script.inBlock w) = reached deeper (script deeper) := reached_between rfl rfl _ _
      rw [states] at split ⊢
      exact inside (inBuild.setFlow _) here split start
  | @guarded script walk _ _ inside =>
      let shielded : Walk := { w with guard := some w.guardHere }
      have states : reached w (script.guarded w) = reached shielded (script shielded) := reached_between rfl rfl _ _
      rw [states] at split ⊢
      exact inside (inBuild.setGuard _) here split start
  | @plain script walk stmt next other performed inside =>
      rw [reached_plain] at split ⊢
      have handled := plain next (by simpa using split) inBuild here other start
      have inBuildHandled := (inBuild.handle stmt next).visit stmt
      have module : ((w.handle stmt next).visit stmt).module = module :=
        (walks_handle w (fun _ => trivial) next).framed.module.trans here
      have behind := inBuildHandled.walks (performed.made ((w.handle stmt next).visit stmt))
      change property _ ((walk ((w.handle stmt next).visit stmt)).depart stmt).graph
      rw [depart_standard behind.hooks]
      rw [List.append_cons] at split ⊢
      exact inside inBuildHandled module split handled
  | @definition script walk stmt defines performed inside =>
      change property _ (walkDefinition stmt (w.declared stmt) walk w).graph
      cases opened : (w.declared stmt).2 with
      | none =>
          rw [reached_definition_skipped opened] at split ⊢
          have recorded := definition (by simpa using split) inBuild here defines start
          rw [walkDefinition_skipped opened, visit_definition (inBuild.declared stmt).hooks defines,
            depart_standard (inBuild.declared stmt).hooks]
          exact recorded
      | some id =>
          have entered := inBuild.enter stmt opened
          rw [reached_definition_opened opened, visit_definition entered.hooks defines] at split ⊢
          have recorded := definition (by simpa using split) inBuild here defines start
          have behind := entered.walks (performed.made _)
          rw [walkDefinition_opened opened, visit_definition entered.hooks defines, depart_standard behind.hooks]
          rw [List.append_cons] at split ⊢
          have module : (walk ({ w with graph := (w.declared stmt).1 }.enter id)).module = module :=
            (performed.made _).framed.module.trans here
          exact leave behind module (inside entered here split recorded)

/-- It holds also wherever the walk comes to a statement. -/
theorem Performs.follow_each (performs : Performs script walk stmts) (inBuild : w.InStandardBuild)
    (here : w.module = module)
    (split : all = reached w (script w)) (start : property [] w.graph) {before after : List (Walk × Stmt)} {u : Walk}
    {stmt : Stmt} (among : all = before ++ (u, stmt) :: after) :
    u.InStandardBuild ∧ u.module = module ∧ property before u.graph := by
  have only : all = [] ++ reached w (script w) ++ [] := by simpa using split
  have whole : AllAlong property module ([] ++ reached w (script w)) (walk w).graph := by
    refine performs.follow ?_ ?_ ?_ inBuild here only ⟨start, ?_⟩
    · exact fun next split inBuild here other before =>
        before.concat inBuild here (plain next split inBuild here other before.1)
    · exact fun split inBuild here defines before =>
        before.concat inBuild here (definition split inBuild here defines before.1)
    · exact fun inBuild here before => ⟨leave inBuild here before.1, before.2⟩
    · intro before u stmt after empty
      simp at empty
  rw [List.nil_append, ← split] at whole
  exact whole.2 before u stmt after among

end follow

section history

variable {property : List (Walk × Stmt) → Graph → Prop} {all : List (Walk × Stmt)} {module : EntityId}
  (quiet : ∀ {past g h}, Described g h → Confined (fun _ => False) g h → property past g → property past h)
  (plain : ∀ {past rest} {u : Walk} {stmt} (next : Option Stmt), all = past ++ (u, stmt) :: rest → u.InStandardBuild →
    u.module = module → stmt.isDefinition = false → property past u.graph →
    property (past ++ [(u, stmt)]) (u.handle stmt next).graph)
  (definition : ∀ {past rest} {u : Walk} {stmt}, all = past ++ (u, stmt) :: rest → u.InStandardBuild →
    u.module = module → stmt.isDefinition = true → property past u.graph →
    property (past ++ [(u, stmt)]) (u.declared stmt).1)

include quiet plain definition

/-- What recorded statements keep, with themselves added to the history, a walk keeps. -/
theorem Performs.history (performs : Performs script walk stmts) {past rest : List (Walk × Stmt)}
    (inBuild : w.InStandardBuild)
    (here : w.module = module) (split : all = past ++ reached w (script w) ++ rest) (start : property past w.graph) :
    property (past ++ reached w (script w)) (walk w).graph := by
  refine performs.follow (fun {_ _ _ stmt} next split inBuild here other before => ?_) definition
    (fun {_ u id} _ _ before => ?_) inBuild here split start
  · have handled := inBuild.handle stmt next
    exact quiet (described_visit handled.valid stmt) (confined_visit handled.confined stmt)
      (plain next split inBuild here other before)
  · exact quiet (told_leave u id).described (.of_told (told_leave u id)) before

/-- It holds also wherever the walk comes to a statement. -/
theorem Performs.history_each (performs : Performs script walk stmts) (inBuild : w.InStandardBuild)
    (here : w.module = module)
    (split : all = reached w (script w)) (start : property [] w.graph) {before after : List (Walk × Stmt)} {u : Walk}
    {stmt : Stmt} (among : all = before ++ (u, stmt) :: after) :
    u.InStandardBuild ∧ u.module = module ∧ property before u.graph := by
  refine performs.follow_each (fun {_ _ _ stmt} next split inBuild here other before => ?_) definition
    (fun {_ u id} _ _ before => ?_) inBuild here split start among
  · have handled := inBuild.handle stmt next
    exact quiet (described_visit handled.valid stmt) (confined_visit handled.confined stmt)
      (plain next split inBuild here other before)
  · exact quiet (told_leave u id).described (.of_told (told_leave u id)) before

end history

end Script

end Walk

end DocGraph
