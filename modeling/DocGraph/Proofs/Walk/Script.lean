import DocGraph.Build
import DocGraph.Proofs.Run.Statements

/-!
The steps of a walk, one by one: the scopes that it opens and closes, the hooks that it calls, the
guards that it sets, and what it records in the graph. A script gives the steps that are taken from a
state. The main statement is that the script of a body, taken step by step, leads to where the walk
through the body leads, and that all scripts are put together in six ways.
-/
namespace DocGraph

def Handler.body : Handler → List Stmt
  | .mk _ _ body _ => body

def Case.body : Case → List Stmt
  | .mk _ _ body => body

namespace Stmt

def isDefinition : Stmt → Bool
  | .classDef _ _ => true
  | .function _ _ => true
  | _ => false

/-- The statements that are walked inside a statement, in the order in which they are walked. -/
def inner : Stmt → List Stmt
  | .classDef _ body => body
  | .function _ body => body
  | .ifElse test body orElse _ => (if test.isMainTest then [] else body) ++ orElse
  | .whileLoop _ body _ _ => body
  | .forLoop _ _ body _ _ _ => body
  | .withBlock _ body _ _ => body
  | .tryExcept body handlers orElse finalBody _ =>
      body ++ orElse ++ finalBody ++ handlers.flatMap Handler.body
  | .matchCases _ cases _ => cases.flatMap Case.body
  | _ => []

end Stmt

namespace Walk

/-- A hook is called before the statements inside a statement, and behind them. -/
inductive Phase where
  | visit
  | depart
deriving DecidableEq, Repr

def Phase.run : Phase → Hook → Graph → EntityId → EntityId → Stmt → Graph
  | .visit, hook => hook.visit
  | .depart, hook => hook.depart

/-- What a hook is told: when it is called, the open scope, and the statement. -/
structure HookCall where
  phase : Phase
  scope : EntityId
  stmt : Stmt

inductive Step where
  /-- The walk comes to a statement. -/
  | reach (stmt : Stmt)
  | record (graph : Graph)
  | enter (id : EntityId)
  | leave (id : EntityId)
  /-- The hook at a place of the list is called. -/
  | call (hook : Nat) (told : HookCall)
  | setGuard (guard : Option Guard)
  | setFlow (depth : Nat)

def Step.take (w : Walk) : Step → Walk
  | .reach _ => w
  | .record graph => { w with graph }
  | .enter id => w.enter id
  | .leave id => w.leave id
  | .call hook told =>
      w.update fun g => (w.hooks[hook]?.map fun hook => told.phase.run hook g told.scope w.module told.stmt).getD g
  | .setGuard guard => { w with guard }
  | .setFlow flowDepth => { w with flowDepth }

/-- The state behind some steps. -/
def replay (w : Walk) (steps : List Step) : Walk := steps.foldl Step.take w

@[simp] theorem replay_nil (w : Walk) : w.replay [] = w := rfl

@[simp] theorem replay_cons (w : Walk) (step : Step) (rest : List Step) :
    w.replay (step :: rest) = (step.take w).replay rest := rfl

@[simp] theorem replay_append (w : Walk) (first second : List Step) :
    w.replay (first ++ second) = (w.replay first).replay second :=
  List.foldl_append

/-- What a definition makes of the graph, and the scope that it opens, if any. -/
def declared (w : Walk) : Stmt → Graph × Option EntityId
  | .classDef head body => w.declareClass head body
  | .function head body => w.declareFunction head body
  | _ => (w.graph, none)

/-- The graph once the docstring of the module is read. -/
def documented (w : Walk) (body : List Stmt) : Graph :=
  match leadingDocstring? body with
  | some (text, line) => w.graph.setDocstring w.module text line
  | none => w.graph

/-- The steps that are taken from a state. -/
def Script : Type := Walk → List Step

namespace Script

def skip : Script := fun _ => []

def one (step : Walk → Step) : Script := fun w => [step w]

def andThen (first second : Script) : Script := fun w => first w ++ second (w.replay (first w))

/-- All hooks are called, in the order of the list. -/
def callAll (phase : Phase) (stmt : Stmt) : Script := fun w =>
  w.hooks.zipIdx.map fun entry => .call entry.2 { phase, scope := w.current, stmt }

def around (stmt : Stmt) (inside : Script) : Script :=
  (callAll .visit stmt).andThen (inside.andThen (callAll .depart stmt))

def inBlock (inside : Script) : Script :=
  (one fun w => .setFlow (w.flowDepth + 1)).andThen (inside.andThen (one fun w => .setFlow (w.flowDepth - 1)))

def guarded (inside : Script) : Script := fun w =>
  .setGuard (some w.guardHere) :: inside { w with guard := some w.guardHere } ++ [.setGuard w.guard]

/-- A statement that opens no scope. -/
def plain (stmt : Stmt) (next : Option Stmt) (inside : Script) : Script :=
  (one fun _ => .reach stmt).andThen
    ((one fun w => .record (w.handle stmt next).graph).andThen (inside.around stmt))

/-- A definition, which is passed over if it opens no scope. -/
def definition (stmt : Stmt) (inside : Script) : Script := fun w =>
  .reach stmt :: .record (w.declared stmt).1 ::
    match w.declared stmt with
    | (g, some id) => .enter id :: inside.around stmt ({ w with graph := g }.enter id) ++ [.leave id]
    | (g, none) => skip.around stmt { w with graph := g }

mutual

def ofBody : List Stmt → Script
  | [] => skip
  | stmt :: rest => (ofStmt stmt rest.head?).andThen (ofBody rest)

def ofStmt : Stmt → Option Stmt → Script
  | .classDef head body, _ => definition (.classDef head body) (ofBody body)
  | .function head body, _ => definition (.function head body) (ofBody body)
  | .ifElse test body orElse line, next =>
      plain (.ifElse test body orElse line) next
        ((if test.isMainTest then skip else inBlock (ofBody body)).andThen
          (if orElse.isEmpty then skip else guarded (inBlock (ofBody orElse))))
  | .whileLoop test body orElse line, next =>
      plain (.whileLoop test body orElse line) next (inBlock (ofBody body))
  | .forLoop target iter body orElse isAsync line, next =>
      plain (.forLoop target iter body orElse isAsync line) next (inBlock (ofBody body))
  | .withBlock items body isAsync line, next =>
      plain (.withBlock items body isAsync line) next (inBlock (ofBody body))
  | .tryExcept body handlers orElse finalBody line, next =>
      plain (.tryExcept body handlers orElse finalBody line) next
        ((((inBlock (ofBody body)).andThen (inBlock (ofBody orElse))).andThen (inBlock (ofBody finalBody))).andThen
          (if handlers.isEmpty then skip else guarded (ofHandlers handlers)))
  | .matchCases subject cases line, next => plain (.matchCases subject cases line) next (ofCases cases)
  | stmt, next => plain stmt next skip

def ofHandlers : List Handler → Script
  | [] => skip
  | .mk _ _ body _ :: rest => (inBlock (ofBody body)).andThen (ofHandlers rest)

def ofCases : List Case → Script
  | [] => skip
  | .mk _ _ body :: rest => (inBlock (ofBody body)).andThen (ofCases rest)

end

/-- A whole module: its scope is opened, its docstring is read, and the scope is closed at the end. -/
def ofModule (body : List Stmt) : Script := fun w =>
  .enter w.module ::
    (.record (w.documented body) :: ofBody body { w.enter w.module with graph := w.documented body }) ++
    [.leave w.module]

/-- The script takes the steps of the walk, which goes through the statements. -/
inductive Performs : Script → (Walk → Walk) → List Stmt → Prop
  | skip : Performs skip (fun w => w) []
  | andThen {first second : Script} {walk next : Walk → Walk} {stmts later : List Stmt}
      (before : Performs first walk stmts) (behind : Performs second next later) :
      Performs (first.andThen second) (fun w => next (walk w)) (stmts ++ later)
  | inBlock {script : Script} {walk : Walk → Walk} {stmts : List Stmt} (inside : Performs script walk stmts) :
      Performs script.inBlock (Walk.inBlock walk) stmts
  | guarded {script : Script} {walk : Walk → Walk} {stmts : List Stmt} (inside : Performs script walk stmts) :
      Performs script.guarded (Walk.guarded walk) stmts
  | plain {script : Script} {walk : Walk → Walk} {stmt : Stmt} (next : Option Stmt)
      (other : stmt.isDefinition = false) (inside : Performs script walk stmt.inner) :
      Performs (script.plain stmt next) (fun w => (walk ((w.handle stmt next).visit stmt)).depart stmt) [stmt]
  | definition {script : Script} {walk : Walk → Walk} {stmt : Stmt} (defines : stmt.isDefinition = true)
      (inside : Performs script walk stmt.inner) :
      Performs (script.definition stmt) (fun w => walkDefinition stmt (w.declared stmt) walk w) [stmt]

theorem replay_one (step : Walk → Step) (w : Walk) : w.replay (one step w) = (step w).take w := rfl

theorem replay_andThen (first second : Script) (w : Walk) :
    w.replay (first.andThen second w) = (w.replay (first w)).replay (second (w.replay (first w))) :=
  replay_append _ _ _

theorem replay_callAll (phase : Phase) (stmt : Stmt) (w : Walk) :
    w.replay (callAll phase stmt w) =
      w.update (w.hooks.foldl fun g hook => phase.run hook g w.current w.module stmt) := by
  -- The calls go through the list of hooks together with their places in it.
  have along (entries : List (Hook × Nat)) (listed : ∀ entry ∈ entries, w.hooks[entry.2]? = some entry.1)
      (g : Graph) :
      { w with graph := g }.replay
          (entries.map fun entry => Step.call (Prod.snd entry) { phase, scope := w.current, stmt }) =
        { w with graph :=
            (entries.map Prod.fst).foldl (fun g hook => phase.run hook g w.current w.module stmt) g } := by
    induction entries generalizing g with
    | nil => rfl
    | cons entry rest ih =>
        rw [List.map_cons, replay_cons, List.map_cons, List.foldl_cons]
        refine Eq.trans ?_ (ih (fun entry among => listed entry (List.mem_cons_of_mem _ among)) _)
        simp [Step.take, update, listed entry List.mem_cons_self]
  have all := along w.hooks.zipIdx (fun entry among => List.mem_zipIdx_iff_getElem?.mp among) w.graph
  rwa [List.zipIdx_map_fst] at all

/-- The steps of the script lead to where the walk leads. -/
def Leads (script : Script) (walk : Walk → Walk) : Prop := ∀ w : Walk, w.replay (script w) = walk w

theorem Leads.around {script : Script} {walk : Walk → Walk} (leads : script.Leads walk) (stmt : Stmt) :
    (script.around stmt).Leads fun w => (walk (w.visit stmt)).depart stmt := by
  intro w
  have visited : w.replay (callAll .visit stmt w) = w.visit stmt := replay_callAll .visit stmt w
  rw [Script.around, replay_andThen, replay_andThen, visited, leads]
  exact replay_callAll .depart stmt _

end Script

theorem Walks.flowDepth {may : Licence} {w v : Walk} (walks : Walks may w v) : v.flowDepth = w.flowDepth := by
  induction walks with
  | refl | act => rfl
  | trans _ _ first second => exact second.trans first
  | scope _ _ _ _ inner => exact inner
  | arm _ inner => exact inner
  | block _ inner => exact congrArg (· - 1) inner

theorem Walks.eq_graph {may : Licence} {w v : Walk} (walks : Walks may w v) : v = { w with graph := v.graph } := by
  obtain ⟨module, hooks, scopes, guard⟩ := walks.framed
  have depth := walks.flowDepth
  cases v
  simp_all

namespace Script

variable {script : Script} {walk : Walk → Walk} {stmts : List Stmt}

/-- The steps of a definition that opens a scope. -/
theorem definition_opened {w : Walk} {stmt : Stmt} {g : Graph} {id : EntityId}
    (opens : w.declared stmt = (g, some id)) :
    script.definition stmt w =
      .reach stmt :: .record g ::
        (.enter id :: script.around stmt ({ w with graph := g }.enter id) ++ [.leave id]) := by
  rw [definition, opens]

theorem definition_skipped {w : Walk} {stmt : Stmt} {g : Graph} (closed : w.declared stmt = (g, none)) :
    script.definition stmt w = .reach stmt :: .record g :: Script.skip.around stmt { w with graph := g } := by
  rw [definition, closed]

theorem Leads.definition (leads : script.Leads walk) (stmt : Stmt) :
    (script.definition stmt).Leads fun w => walkDefinition stmt (w.declared stmt) walk w := by
  intro w
  dsimp only
  cases declared : w.declared stmt with
  | mk g opened =>
      cases opened with
      | none =>
          have passed : Leads Script.skip fun w => w := fun _ => rfl
          rw [definition_skipped declared]
          exact passed.around stmt { w with graph := g }
      | some id =>
          have inside := leads.around stmt ({ w with graph := g }.enter id)
          rw [definition_opened declared, replay_cons, replay_cons, List.cons_append, replay_cons, replay_append]
          exact congrArg (fun v => Step.take v (.leave id)) inside

theorem Performs.leads (performs : Performs script walk stmts) : script.Leads walk := by
  induction performs with
  | skip => exact fun _ => rfl
  | andThen _ _ before behind =>
      intro w
      rw [replay_andThen, before, behind]
  | inBlock _ inside =>
      intro w
      rw [Script.inBlock, replay_andThen, replay_andThen, replay_one, inside]
      rfl
  | guarded _ inside =>
      intro w
      rw [Script.guarded, List.cons_append, replay_cons, replay_append]
      exact congrArg (fun v => Step.take v (.setGuard w.guard)) (inside _)
  | @plain _ walk stmt next _ _ inside =>
      intro w
      have handled : Walks (.any True) w (w.handle stmt next) := walks_handle w (fun _ => trivial) next
      rw [Script.plain, replay_andThen, replay_andThen, replay_one, replay_one, inside.around]
      exact congrArg (fun v => (walk (Walk.visit v stmt)).depart stmt) handled.eq_graph.symm
  | definition _ _ inside => exact inside.definition _

theorem declares_of_allows {may : Licence} {w : Walk} {stmt : Stmt} (allows : may.Allows w stmt) :
    Declares may w (w.declared stmt) := by
  cases stmt with
  | classDef head body =>
      exact declares_declareClass w (allows.classes rfl) (allows.binds _ (List.mem_singleton_self _)) body
  | function head body => exact declares_declareFunction w allows.binds body (allows.defines head body rfl)
  | _ => exact ⟨.refl w, fun id none => by cases none⟩

theorem declares_declared (w : Walk) (stmt : Stmt) : Declares (.any True) w (w.declared stmt) :=
  declares_of_allows (Licence.allows_any w fun _ => trivial)

theorem Performs.made (performs : Performs script walk stmts) : Made True walk := by
  induction performs with
  | skip => exact .refl
  | andThen _ _ before behind => exact before.comp behind
  | inBlock _ inside => exact inside.inBlock
  | guarded _ inside => exact inside.guarded
  | @plain _ _ stmt next _ _ inside =>
      exact fun w => (walks_handle w (fun _ => trivial) next).trans (inside.around stmt _)
  | @definition _ _ stmt _ _ inside =>
      exact fun w => walks_walkDefinition (declares_declared w stmt) fun _ _ => inside _

theorem Performs.of_eq {other : Walk → Walk} (performs : Performs script walk stmts) (same : ∀ w, other w = walk w) :
    Performs script other stmts := by
  rwa [funext same]

theorem Performs.ite (performs : Performs script walk stmts) (condition : Prop) [Decidable condition] :
    Performs (if condition then Script.skip else script) (fun w => if condition then w else walk w)
      (if condition then [] else stmts) := by
  split
  · exact .skip
  · exact performs

theorem Performs.unless (performs : Performs script walk stmts) (condition : Prop) [Decidable condition]
    (nothing : condition → [] = stmts) :
    Performs (if condition then Script.skip else script) (fun w => if condition then w else walk w) stmts := by
  have performs := performs.ite condition
  rwa [ite_eq_right_iff.mpr nothing] at performs

mutual

theorem performs_ofBody (body : List Stmt) : Performs (ofBody body) (walkBody body) body := by
  cases body with
  | nil =>
      rw [ofBody]
      exact Performs.skip.of_eq fun w => by rw [walkBody]
  | cons stmt rest =>
      rw [ofBody]
      exact ((performs_ofStmt stmt rest.head?).andThen (performs_ofBody rest)).of_eq fun w => by rw [walkBody]

theorem performs_ofStmt (stmt : Stmt) (next : Option Stmt) :
    Performs (ofStmt stmt next) (walkStmt stmt next) [stmt] := by
  cases stmt with
  | classDef head body =>
      rw [ofStmt]
      refine (Performs.definition rfl (performs_ofBody body)).of_eq fun w => ?_
      rw [walkStmt]
      rfl
  | function head body =>
      rw [ofStmt]
      refine (Performs.definition rfl (performs_ofBody body)).of_eq fun w => ?_
      rw [walkStmt]
      rfl
  | ifElse test body orElse line =>
      rw [ofStmt]
      have first := (performs_ofBody body).inBlock.ite (test.isMainTest = true)
      have second := (performs_ofBody orElse).inBlock.guarded.unless (orElse.isEmpty = true) fun empty =>
        (List.isEmpty_iff.mp empty).symm
      refine (Performs.plain next rfl (first.andThen second)).of_eq fun w => ?_
      rw [walkStmt]
      rfl
  | whileLoop test body orElse line =>
      rw [ofStmt]
      refine (Performs.plain next rfl (performs_ofBody body).inBlock).of_eq fun w => ?_
      rw [walkStmt]
      rfl
  | forLoop target iter body orElse isAsync line =>
      rw [ofStmt]
      refine (Performs.plain next rfl (performs_ofBody body).inBlock).of_eq fun w => ?_
      rw [walkStmt]
      rfl
  | withBlock items body isAsync line =>
      rw [ofStmt]
      refine (Performs.plain next rfl (performs_ofBody body).inBlock).of_eq fun w => ?_
      rw [walkStmt]
      rfl
  | tryExcept body handlers orElse finalBody line =>
      rw [ofStmt]
      have arms := (performs_ofHandlers handlers).guarded.unless (handlers.isEmpty = true) fun empty => by
        rw [List.isEmpty_iff.mp empty, List.flatMap_nil]
      have bodies := ((performs_ofBody body).inBlock.andThen (performs_ofBody orElse).inBlock).andThen
        (performs_ofBody finalBody).inBlock
      refine (Performs.plain next rfl (bodies.andThen arms)).of_eq fun w => ?_
      rw [walkStmt]
      rfl
  | matchCases subject cases line =>
      rw [ofStmt]
      refine (Performs.plain next rfl (performs_ofCases cases)).of_eq fun w => ?_
      rw [walkStmt]
      rfl
  | _ =>
      rw [ofStmt]
      · refine (Performs.plain next rfl Performs.skip).of_eq fun w => ?_
        rw [walkStmt]
        all_goals nofun
      all_goals nofun

theorem performs_ofHandlers (handlers : List Handler) :
    Performs (ofHandlers handlers) (walkHandlers handlers) (handlers.flatMap Handler.body) := by
  cases handlers with
  | nil =>
      rw [ofHandlers]
      exact Performs.skip.of_eq fun w => by rw [walkHandlers]
  | cons handler rest =>
      cases handler with
      | mk excType name body line =>
          rw [ofHandlers]
          exact ((performs_ofBody body).inBlock.andThen (performs_ofHandlers rest)).of_eq fun w => by rw [walkHandlers]

theorem performs_ofCases (cases : List Case) :
    Performs (ofCases cases) (walkCases cases) (cases.flatMap Case.body) := by
  cases cases with
  | nil =>
      rw [ofCases]
      exact Performs.skip.of_eq fun w => by rw [walkCases]
  | cons arm rest =>
      cases arm with
      | mk pattern guard body =>
          rw [ofCases]
          exact ((performs_ofBody body).inBlock.andThen (performs_ofCases rest)).of_eq fun w => by rw [walkCases]

end

theorem leads_ofModule (body : List Stmt) : (ofModule body).Leads (walkModule body) := by
  intro w
  have inside := (performs_ofBody body).leads { w.enter w.module with graph := w.documented body }
  rw [ofModule, List.cons_append, replay_cons, List.cons_append, replay_cons, replay_append]
  refine (congrArg (fun v => Step.take v (.leave w.module)) inside).trans ?_
  unfold walkModule documented
  cases leadingDocstring? body <;> rfl

end Script

/-- The state in which the walk of a module is begun. -/
def opening (g : Graph) (hooks : List Hook) (module : EntityId) (tree : Module) : Walk :=
  { graph := (g.setState module .processing).readMetadata module tree.body, module, hooks }

theorem populate_eq_replay (g : Graph) (hooks : List Hook) (module : EntityId) (tree : Module) :
    g.populate hooks module tree =
      ((opening g hooks module tree).replay (Script.ofModule tree.body (opening g hooks module tree))).graph :=
  congrArg Walk.graph (Script.leads_ofModule tree.body (opening g hooks module tree)).symm

end Walk

/-- A module that has not been built is built by the steps of its walk. -/
theorem Graph.build_eq_replay {g : Graph} {module : EntityId} (unbuilt : g.moduleState? module = some .notProcessed)
    (hooks : List Hook) (tree : Module) :
    g.build hooks module (.ok tree) =
      let w := Walk.opening g hooks module tree
      let built := (w.replay (Walk.Script.ofModule tree.body w)).graph.setState module .processed
      .ok (built.modify module (Entity.modifyModule fun info => { info with tree := some tree }), .processed) := by
  rw [build, unbuilt, Walk.populate_eq_replay]

end DocGraph
