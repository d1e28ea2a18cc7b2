import DocGraph.Proofs.Run.Unbuilt
import DocGraph.Proofs.Walk.Arrivals

namespace DocGraph

open DocGraph.Graph

namespace Graph

variable {g h k : Graph}

/-- What is at home in a module stays at home there. -/
def SameHomes (g h : Graph) : Prop :=
  ∀ id module, (g.entity id).home = some module → (h.entity id).home = some module

namespace SameHomes

theorem refl (g : Graph) : SameHomes g g := fun _ _ home => home

theorem trans (first : SameHomes g h) (second : SameHomes h k) : SameHomes g k :=
  fun id module home => second id module (first id module home)

theorem of_upkept {building : EntityId → Prop} (upkept : Upkept building g h) : SameHomes g h := by
  intro id module home
  by_cases inside : g.Has id
  · rw [upkept.home inside, home]
  · rw [g.entity_of_not_has inside] at home
    cases home

theorem of_described (described : Described g h) : SameHomes g h := fun id _ home =>
  (described.entity id).home.trans home

end SameHomes

end Graph

/-- A hook under which entities stay at home where they are. -/
structure Hook.KeepsHomes (hook : Hook) : Prop where
  visit : ∀ g scope module stmt, SameHomes g (hook.visit g scope module stmt)
  depart : ∀ g scope module stmt, SameHomes g (hook.depart g scope module stmt)

theorem Hook.Describes.keepsHomes {hook : Hook} (describes : hook.Describes) : hook.KeepsHomes :=
  ⟨fun _ _ _ _ => .of_described (describes.visit _ _ _ _), fun _ _ _ _ => .of_described (describes.depart _ _ _ _)⟩

namespace Walk

variable {w v : Walk} {may : Licence}

/-- An act is one of a hook, or one that would be done without hooks too. -/
theorem Act.of_hooks {g : Graph} (act : w.Act may g) :
    (∃ hook ∈ w.hooks, ∃ stmt, g = hook.visit w.graph w.current w.module stmt ∨
      g = hook.depart w.graph w.current w.module stmt) ∨
    Act may { w with hooks := [] } g := by
  cases act with
  | visit among stmt => exact .inl ⟨_, among, stmt, .inl rfl⟩
  | depart among stmt => exact .inl ⟨_, among, stmt, .inr rfl⟩
  | describe told functions => exact .inr (.describe told functions)
  | document distant told => exact .inr (.document distant told)
  | bind name target free named => exact .inr (.bind name target free named)
  | defer into later => exact .inr (.defer into later)
  | declare blank above type home order place free told suited named kind plain =>
      exact .inr (.declare blank above type home order place free told suited named kind plain)
  | define id bases decorators type slots subclasses classes order above kind =>
      exact .inr (.define id bases decorators type slots subclasses classes order above kind)
  | reexport free tried moved => exact .inr (.reexport free tried moved)

theorem Act.sameHomes {g : Graph} (act : w.Act may g) (keeps : ∀ hook ∈ w.hooks, hook.KeepsHomes) :
    SameHomes w.graph g := by
  rcases act.of_hooks with ⟨hook, among, stmt, rfl | rfl⟩ | act
  · exact (keeps hook among).visit _ _ _ _
  · exact (keeps hook among).depart _ _ _ _
  · exact .of_upkept (act.upkept fun hook among => absurd among List.not_mem_nil)

/-- The module and the open scopes are at home in the module, and the hooks keep it so. -/
structure AtHome (w : Walk) : Prop where
  module : (w.graph.entity w.module).home = some w.module
  scopes : ∀ id ∈ w.scopes, (w.graph.entity id).home = some w.module
  hooks : ∀ hook ∈ w.hooks, hook.KeepsHomes

namespace AtHome

theorem current (atHome : w.AtHome) : (w.graph.entity w.current).home = some w.module := by
  unfold Walk.current
  cases opened : w.scopes.head? with
  | none => exact atHome.module
  | some id => exact atHome.scopes id (List.mem_of_head? opened)

theorem of_sameHomes {g : Graph} (atHome : w.AtHome) (same : SameHomes w.graph g) : { w with graph := g }.AtHome :=
  ⟨same _ _ atHome.module, fun id opened => same _ _ (atHome.scopes id opened), atHome.hooks⟩

theorem enter {id : EntityId} (atHome : w.AtHome) (home : (w.graph.entity id).home = some w.module) :
    (w.enter id).AtHome := by
  refine ⟨atHome.module, fun other opened => ?_, atHome.hooks⟩
  rcases List.mem_cons.mp opened with rfl | opened
  · exact home
  · exact atHome.scopes other opened

theorem sameHomes (atHome : w.AtHome) (walks : Walks may w v) : SameHomes w.graph v.graph :=
  walks.related .refl .trans (fun equal act => act.sameHomes (equal ▸ atHome.hooks)) rfl

theorem walks (atHome : w.AtHome) (walks : Walks may w v) : v.AtHome := by
  rw [walks.eq_graph]
  exact atHome.of_sameHomes (atHome.sameHomes walks)

theorem opened {g : Graph} {id : EntityId} (atHome : w.AtHome) (opens : w.Opens g id) :
    (g.entity id).home = some w.module := by
  cases opens with
  | fresh _ _ _ home => rw [home, atHome.current]
  | again same _ _ home => rw [(same.entity id).home, home]

end AtHome

/-- The property holds of each step in the state in which it is taken. -/
def Throughout (property : Walk → Step → Prop) : Walk → List Step → Prop
  | _, [] => True
  | w, step :: rest => property w step ∧ Throughout property (step.take w) rest

section Throughout

variable {property : Walk → Step → Prop} {steps : List Step}

theorem throughout_append {first second : List Step} :
    Throughout property w (first ++ second) ↔
      Throughout property w first ∧ Throughout property (w.replay first) second := by
  induction first generalizing w with
  | nil => simp [Throughout]
  | cons step rest ih => simp [Throughout, ih, and_assoc]

theorem Throughout.at {before after : List Step} {step : Step}
    (throughout : Throughout property w (before ++ step :: after)) : property (w.replay before) step :=
  (throughout_append.mp throughout).2.1

theorem throughout_of_forall (all : ∀ step ∈ steps, ∀ w, property w step) : Throughout property w steps := by
  induction steps generalizing w with
  | nil => trivial
  | cons step rest ih =>
      exact ⟨all step List.mem_cons_self w, ih fun step among => all step (List.mem_cons_of_mem _ among)⟩

end Throughout

theorem module_replay (w : Walk) (steps : List Step) : (w.replay steps).module = w.module := by
  induction steps generalizing w with
  | nil => rfl
  | cons step rest ih =>
      rw [replay_cons, ih]
      cases step <;> rfl

theorem scopes_walkModule (w : Walk) (body : List Stmt) : (walkModule body w).scopes = w.scopes := by
  have inside (v : Walk) : (walkBody body v).scopes = v.scopes :=
    (made_walkBody body (fun _ => trivial) v).framed.scopes
  unfold walkModule
  cases leadingDocstring? body <;> exact congrArg List.tail (inside _)

/-- What is opened is at home in the module, and what is closed is the innermost scope. -/
def Step.Balanced (w : Walk) : Step → Prop
  | .enter id => (w.graph.entity id).home = some w.module
  | .leave id => w.scopes.head? = some id
  | _ => True

namespace Script

variable {script : Script} {walk : Walk → Walk} {stmts : List Stmt}

theorem balanced_callAll (phase : Phase) (stmt : Stmt) (w : Walk) :
    Throughout Step.Balanced w (callAll phase stmt w) := by
  refine throughout_of_forall fun step among w => ?_
  obtain ⟨entry, _, rfl⟩ := List.mem_map.mp among
  trivial

theorem balanced_around
    (inside : ∀ {w : Walk}, w.AtHome → Throughout Step.Balanced w (script w)) (stmt : Stmt) (atHome : w.AtHome) :
    Throughout Step.Balanced w (script.around stmt w) := by
  have visited : w.replay (callAll .visit stmt w) = w.visit stmt := replay_callAll .visit stmt w
  have walked : Walks (.any True) w (w.visit stmt) := walks_visit w stmt
  refine throughout_append.mpr ⟨balanced_callAll .visit stmt w, throughout_append.mpr ⟨?_, balanced_callAll _ _ _⟩⟩
  rw [visited]
  exact inside (atHome.walks walked)

theorem Performs.balanced (performs : Performs script walk stmts) (atHome : w.AtHome) :
    Throughout Step.Balanced w (script w) := by
  induction performs generalizing w with
  | skip => trivial
  | andThen first _ before behind =>
      refine throughout_append.mpr ⟨before atHome, ?_⟩
      rw [first.leads]
      exact behind (atHome.walks (first.made w))
  | inBlock _ inside =>
      have deeper : ({ w with flowDepth := w.flowDepth + 1 } : Walk).AtHome :=
        ⟨atHome.module, atHome.scopes, atHome.hooks⟩
      exact throughout_append.mpr ⟨⟨trivial, trivial⟩, throughout_append.mpr ⟨inside deeper, trivial, trivial⟩⟩
  | guarded _ inside =>
      have shielded : ({ w with guard := some w.guardHere } : Walk).AtHome :=
        ⟨atHome.module, atHome.scopes, atHome.hooks⟩
      exact ⟨trivial, throughout_append.mpr ⟨inside shielded, trivial, trivial⟩⟩
  | @plain _ _ stmt next _ performs inside =>
      have handled : Walks (.any True) w (w.handle stmt next) := walks_handle w (fun _ => trivial) next
      have atHome := atHome.walks handled
      rw [handled.eq_graph] at atHome
      exact ⟨trivial, trivial, balanced_around inside stmt atHome⟩
  | @definition script walk stmt _ performs inside =>
      obtain ⟨recorded, opens⟩ : Declares (.any True) w (w.declared stmt) := declares_declared w stmt
      have behind := atHome.walks recorded
      cases declared : w.declared stmt with
      | mk g opened =>
          rw [declared] at behind opens
          cases opened with
          | none =>
              have passed {w : Walk} (_ : w.AtHome) : Throughout Step.Balanced w (Script.skip w) := trivial
              rw [definition_skipped declared]
              exact ⟨trivial, trivial, balanced_around passed stmt behind⟩
          | some id =>
              have home := atHome.opened (opens id rfl)
              have entered := behind.enter home
              rw [definition_opened declared]
              refine ⟨trivial, trivial, home, throughout_append.mpr ⟨balanced_around inside stmt entered, ?_, trivial⟩⟩
              -- The walk inside comes back to the scope that was opened.
              have framed := (performs.made.around stmt ({ w with graph := g }.enter id)).framed
              rw [← performs.leads.around stmt] at framed
              exact congrArg List.head? framed.scopes

theorem balanced_ofModule (body : List Stmt) (atHome : w.AtHome) :
    Throughout Step.Balanced w (ofModule body w) := by
  have entered := atHome.enter atHome.module
  let v : Walk := { w.enter w.module with graph := w.documented body }
  have inside : v.AtHome := entered.of_sameHomes (.of_described (told_documented w body).described)
  have framed := ((performs_ofBody body).made v).framed
  refine ⟨atHome.module, trivial, throughout_append.mpr ⟨(performs_ofBody body).balanced inside, ?_, trivial⟩⟩
  change (v.replay (ofBody body v)).scopes.head? = some w.module
  rw [(performs_ofBody body).leads, framed.scopes]
  rfl

end Script

end Walk

namespace Graph

/-- While a module is built, every scope that is opened is at home in the module, every scope that is
closed is the one that was opened last, and each statement and each body is left with the scopes, the
guard and the depth with which it was come to. -/
theorem build_scopes_balanced {options : Options} {calls : List Call} (admits : (empty options).Admits calls)
    {module : EntityId} (unbuilt : (run (empty options) calls).moduleState? module = some .notProcessed)
    {hooks : List Hook} (keeps : ∀ hook ∈ hooks, hook.KeepsHomes) (tree : Module) :
    let g := run (empty options) calls
    let w := Walk.opening g hooks module tree
    let steps := Walk.Script.ofModule tree.body w
    g.build hooks module (.ok tree) =
        .ok (((w.replay steps).graph.setState module .processed).modify module
          (Entity.modifyModule fun info => { info with tree := some tree }), .processed) ∧
      (∀ before id after, steps = before ++ .enter id :: after →
        ((w.replay before).graph.entity id).home = some module) ∧
      (∀ before id after, steps = before ++ .leave id :: after → (w.replay before).scopes.head? = some id) ∧
      (w.replay steps).scopes = [] ∧
      (∀ (v : Walk) (stmt : Stmt) (next : Option Stmt),
        Walk.walkStmt stmt next v = { v with graph := (Walk.walkStmt stmt next v).graph }) ∧
      ∀ (v : Walk) (body : List Stmt), Walk.walkBody body v = { v with graph := (Walk.walkBody body v).graph } := by
  intro g w steps
  have unclaimed := unclaimed_run admits
  have type := type_of_moduleState unbuilt
  have noted : Noted module g w.graph := noted_metadata g module tree.body
  have home : (w.graph.entity module).home = some module := noted.home.trans (unclaimed.home type)
  have atHome : w.AtHome := ⟨home, fun id opened => absurd opened List.not_mem_nil, keeps⟩
  have balanced : Walk.Throughout Walk.Step.Balanced w steps := Walk.Script.balanced_ofModule tree.body atHome
  refine ⟨?_, fun before id after split => ?_, fun before id after split => ?_, ?_, fun v stmt next => ?_,
    fun v body => ?_⟩
  · exact build_eq_replay unbuilt hooks tree
  · have home := (split ▸ balanced).at
    rwa [Walk.Step.Balanced, Walk.module_replay] at home
  · exact (split ▸ balanced).at
  · rw [Walk.Script.leads_ofModule, Walk.scopes_walkModule]
    rfl
  · exact ((Walk.Script.performs_ofStmt stmt next).made v).eq_graph
  · exact ((Walk.Script.performs_ofBody body).made v).eq_graph

/-- A method of a class in an `else` arm. -/
def armed : Module where
  body :=
    [.ifElse (.name "fast") [.pass 1]
      [.classDef { name := "C", line := 3 } [.function { name := "f", line := 4 } [.pass 5]]] 1]

/-- Its walk, as the first of all modules. -/
def armedOpening : Walk := Walk.opening (run (empty {}) [.addModule "m" false]) Hook.standard ⟨0⟩ armed

theorem build_armed_scopes :
    (empty {}).Admits [.addModule "m" false] ∧
      (run (empty {}) [.addModule "m" false]).moduleState? ⟨0⟩ = some .notProcessed ∧
      (∀ hook ∈ Hook.standard, hook.KeepsHomes) ∧
      ∃ before after, Walk.Script.ofModule armed.body armedOpening = before ++ .enter ⟨2⟩ :: after ∧
        ((armedOpening.replay before).graph.entity ⟨2⟩).home = some ⟨0⟩ := by
  have admits : (empty {}).Admits [.addModule "m" false] := ⟨trivial, trivial⟩
  have unbuilt : (run (empty {}) [.addModule "m" false]).moduleState? ⟨0⟩ = some .notProcessed := by decide +kernel
  have keeps : ∀ hook ∈ Hook.standard, hook.KeepsHomes := fun hook among =>
    (Hook.describes_standard hook among).keepsHomes
  obtain ⟨_, opened, _⟩ := build_scopes_balanced admits unbuilt keeps armed
  have entered : Walk.Step.enter ⟨2⟩ ∈ Walk.Script.ofModule armed.body armedOpening :=
    List.mem_of_getElem? (i := 19) rfl
  obtain ⟨before, after, split⟩ := List.append_of_mem entered
  exact ⟨admits, unbuilt, keeps, before, after, split, opened before ⟨2⟩ after split⟩

end Graph

end DocGraph
