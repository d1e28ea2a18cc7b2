import DocGraph.Proofs.Run.Trace
import DocGraph.Proofs.Walk.Arrivals

namespace DocGraph

namespace Walk

open DocGraph.Graph

variable {w : Walk} {hook : Nat}

def Step.shownTo (hook : Nat) : Step → Option HookCall
  | .call place told => if place = hook then some told else none
  | _ => none

/-- What one hook is shown, in order. -/
def shown (hook : Nat) (steps : List Step) : List HookCall := steps.filterMap (Step.shownTo hook)

theorem shown_append (hook : Nat) (first second : List Step) :
    shown hook (first ++ second) = shown hook first ++ shown hook second :=
  List.filterMap_append

section silent

variable {first last : Step} (silent : first.isSilent = true) (silentLast : last.isSilent = true) (steps : List Step)

include silent silentLast

theorem shown_between (hook : Nat) : shown hook (first :: steps ++ [last]) = shown hook steps := by
  have unseen {step : Step} (silent : step.isSilent = true) : Step.shownTo hook step = none := by
    cases step <;> first | rfl | cases silent
  simp [shown, unseen silent, unseen silentLast]

end silent

/-- The calls of a hook for statements that are walked in a scope, and the states in which the walk came
to them and to all that is walked inside them. -/
inductive Nested : EntityId → List Stmt → List HookCall → List (Walk × Stmt) → Prop
  | nil {scope : EntityId} : Nested scope [] [] []
  /-- What is no definition is walked in the scope in which it stands. -/
  | plain {scope : EntityId} {stmt : Stmt} {rest : List Stmt} {w : Walk} {inside calls : List HookCall}
      {within later : List (Walk × Stmt)} (other : stmt.isDefinition = false) (here : w.current = scope)
      (inner : Nested scope stmt.inner inside within) (behind : Nested scope rest calls later) :
      Nested scope (stmt :: rest) (⟨.visit, scope, stmt⟩ :: inside ++ ⟨.depart, scope, stmt⟩ :: calls)
        ((w, stmt) :: within ++ later)
  /-- A definition is walked in the scope that it opens. -/
  | opened {scope id : EntityId} {stmt : Stmt} {rest : List Stmt} {w : Walk} {inside calls : List HookCall}
      {within later : List (Walk × Stmt)} (defines : stmt.isDefinition = true) (here : w.current = scope)
      (opens : (w.declared stmt).2 = some id) (inner : Nested id stmt.inner inside within)
      (behind : Nested scope rest calls later) :
      Nested scope (stmt :: rest) (⟨.visit, id, stmt⟩ :: inside ++ ⟨.depart, id, stmt⟩ :: calls)
        ((w, stmt) :: within ++ later)
  /-- A definition that opens no scope is passed over. -/
  | skipped {scope : EntityId} {stmt : Stmt} {rest : List Stmt} {w : Walk} {calls : List HookCall}
      {later : List (Walk × Stmt)} (defines : stmt.isDefinition = true) (here : w.current = scope)
      (closed : (w.declared stmt).2 = none) (behind : Nested scope rest calls later) :
      Nested scope (stmt :: rest) (⟨.visit, scope, stmt⟩ :: ⟨.depart, scope, stmt⟩ :: calls) ((w, stmt) :: later)

namespace Nested

variable {scope : EntityId} {stmts more : List Stmt} {calls later : List HookCall}
  {states others : List (Walk × Stmt)}

theorem append (first : Nested scope stmts calls states) (second : Nested scope more later others) :
    Nested scope (stmts ++ more) (calls ++ later) (states ++ others) := by
  induction first with
  | nil => exact second
  | plain other here inner _ _ behind =>
      simpa using Nested.plain other here inner (behind second)
  | opened defines here opens inner _ _ behind =>
      simpa using Nested.opened defines here opens inner (behind second)
  | skipped defines here closed _ behind => exact .skipped defines here closed (behind second)

/-- The visits are of the statements that the walk comes to, in the order in which it does. -/
theorem visited (nested : Nested scope stmts calls states) :
    (calls.filter (·.phase = .visit)).map HookCall.stmt = states.map Prod.snd := by
  induction nested with
  | nil => rfl
  | plain _ _ _ _ inner behind => simp [inner, behind]
  | opened _ _ _ _ _ inner behind => simp [inner, behind]
  | skipped _ _ _ _ behind => simp [behind]

end Nested

namespace Script

variable {script : Script} {walk : Walk → Walk} {stmts : List Stmt}

theorem shown_callAll (phase : Phase) (stmt : Stmt) (among : hook < w.hooks.length) :
    shown hook (callAll phase stmt w) = [⟨phase, w.current, stmt⟩] := by
  have once (places : List Nat) (told : HookCall) :
      places.filterMap (fun place => if place = hook then some told else none) =
        List.replicate (places.count hook) told := by
    induction places with
    | nil => rfl
    | cons place rest ih => by_cases same : place = hook <;> simp [same, ih, List.replicate_succ]
  have listed : (List.range' 0 w.hooks.length).count hook = 1 :=
    List.count_eq_one_of_mem List.nodup_range' (by simpa using among)
  have calls : shown hook (callAll phase stmt w) = (w.hooks.zipIdx.map Prod.snd).filterMap
      fun place => if place = hook then some ⟨phase, w.current, stmt⟩ else none := by
    rw [shown, callAll, List.filterMap_map, List.filterMap_map]
    rfl
  rw [calls, List.zipIdx_map_snd, once, listed]
  rfl

/-- The hook is called before and behind what is walked inside, in the same scope. -/
theorem shown_around (performs : Performs script walk stmts) (stmt : Stmt) (among : hook < w.hooks.length) :
    shown hook (script.around stmt w) =
        ⟨.visit, w.current, stmt⟩ :: shown hook (script (w.visit stmt)) ++ [⟨.depart, w.current, stmt⟩] ∧
      reached w (script.around stmt w) = reached (w.visit stmt) (script (w.visit stmt)) := by
  have visited : w.replay (callAll .visit stmt w) = w.visit stmt := replay_callAll .visit stmt w
  have walked : Walks (.any True) w (walk (w.visit stmt)) := (walks_visit w stmt).trans (performs.made _)
  have framed := walked.framed
  have departed : shown hook (callAll .depart stmt (walk (w.visit stmt))) = [⟨.depart, w.current, stmt⟩] := by
    rw [shown_callAll .depart stmt (framed.hooks ▸ among), framed.current]
  constructor
  · rw [around, andThen, andThen, shown_append, shown_append, shown_callAll .visit stmt among, visited,
      performs.leads, departed]
    rfl
  · rw [around, andThen, andThen, reached_append, reached_append, reached_callAll, visited, reached_callAll,
      List.nil_append, List.append_nil]

theorem Performs.nested (performs : Performs script walk stmts) (among : hook < w.hooks.length) :
    Nested w.current stmts (shown hook (script w)) (reached w (script w)) := by
  induction performs generalizing w with
  | skip => exact .nil
  | andThen first _ before behind =>
      have framed := (first.made w).framed
      rw [Script.andThen, shown_append, reached_append, first.leads]
      refine (before among).append ?_
      have behind := behind (framed.hooks ▸ among)
      rwa [framed.current] at behind
  | @inBlock script _ _ _ inside =>
      let deeper : Walk := { w with flowDepth := w.flowDepth + 1 }
      have steps : script.inBlock w = .setFlow (w.flowDepth + 1) :: script deeper ++
          [.setFlow ((deeper.replay (script deeper)).flowDepth - 1)] := rfl
      rw [steps, shown_between rfl rfl, reached_between rfl rfl]
      exact @inside deeper among
  | guarded _ inside =>
      rw [Script.guarded, shown_between rfl rfl, reached_between rfl rfl]
      exact @inside { w with guard := some w.guardHere } among
  | @plain script _ stmt next other performs inside =>
      let handled : Walk := { w with graph := (w.handle stmt next).graph }
      obtain ⟨calls, states⟩ := shown_around performs stmt (w := handled) among
      have nested := Nested.plain (w := w) other rfl (@inside (handled.visit stmt) among) .nil
      rw [List.append_nil] at nested
      change Nested w.current [stmt] (shown hook (script.around stmt handled))
        ((w, stmt) :: reached handled (script.around stmt handled))
      rwa [calls, states]
  | @definition script _ stmt defines performs inside =>
      cases declared : w.declared stmt with
      | mk g opened =>
          cases opened with
          | none =>
              obtain ⟨calls, states⟩ := shown_around .skip stmt (w := { w with graph := g }) among
              rw [definition_skipped declared]
              change Nested w.current [stmt] (shown hook (Script.skip.around stmt { w with graph := g }))
                ((w, stmt) :: reached { w with graph := g } (Script.skip.around stmt { w with graph := g }))
              rw [calls, states]
              exact .skipped defines rfl (congrArg Prod.snd declared) .nil
          | some id =>
              let entered : Walk := { w with graph := g }.enter id
              obtain ⟨calls, states⟩ := shown_around performs stmt (w := entered) among
              have nested := Nested.opened defines rfl (congrArg Prod.snd declared)
                (@inside (entered.visit stmt) among) .nil
              rw [List.append_nil] at nested
              rw [definition_opened declared]
              change Nested w.current [stmt] (shown hook (.enter id :: script.around stmt entered ++ [.leave id]))
                ((w, stmt) :: reached { w with graph := g } (.enter id :: script.around stmt entered ++ [.leave id]))
              rw [shown_between rfl rfl, reached_between rfl rfl, calls]
              exact states ▸ nested

theorem nested_ofModule (body : List Stmt) (among : hook < w.hooks.length) :
    Nested w.module body (shown hook (ofModule body w)) (reached w (ofModule body w)) := by
  let v : Walk := { w.enter w.module with graph := w.documented body }
  rw [ofModule, shown_between rfl rfl, reached_between rfl rfl]
  exact @Performs.nested v _ _ _ _ (performs_ofBody body) among

end Script

end Walk

/-- While a module is built, the calls of each hook nest as the statements of the module do, and the
visits are of the statements that the walk comes to. -/
theorem Graph.build_hooks_nested {g : Graph} {module : EntityId}
    (unbuilt : g.moduleState? module = some .notProcessed) (hooks : List Hook) (tree : Module) :
    let w := Walk.opening g hooks module tree
    let steps := Walk.Script.ofModule tree.body w
    g.build hooks module (.ok tree) =
        .ok (((w.replay steps).graph.setState module .processed).modify module
          (Entity.modifyModule fun info => { info with tree := some tree }), .processed) ∧
      ∀ hook : Fin hooks.length,
        Walk.Nested module tree.body (Walk.shown hook steps) (Walk.reached w steps) ∧
        ((Walk.shown hook steps).filter (·.phase = .visit)).map Walk.HookCall.stmt =
          (Walk.reached w steps).map Prod.snd := by
  intro w steps
  refine ⟨build_eq_replay unbuilt hooks tree, fun hook => ?_⟩
  have nested : Walk.Nested module tree.body (Walk.shown hook steps) (Walk.reached w steps) :=
    Walk.Script.nested_ofModule (w := w) tree.body hook.isLt
  exact ⟨nested, nested.visited⟩

namespace Graph

/-- A class that the `except` arm would define again, so that it is passed over there. -/
def rescued : Module where
  body :=
    [.tryExcept [.classDef { name := "C", line := 2 } [.pass 3]]
      [.mk none none [.classDef { name := "C", line := 5 } [.pass 6]] 4] [.pass 8] [.pass 10] 1]

def rescuedOpening : Walk := Walk.opening (run (empty {}) [.addModule "m" false]) Hook.standard ⟨0⟩ rescued

theorem build_rescued_hooks :
    (run (empty {}) [.addModule "m" false]).moduleState? ⟨0⟩ = some .notProcessed ∧
      Walk.Nested ⟨0⟩ rescued.body (Walk.shown 0 (Walk.Script.ofModule rescued.body rescuedOpening))
        (Walk.reached rescuedOpening (Walk.Script.ofModule rescued.body rescuedOpening)) ∧
      (Walk.shown 0 (Walk.Script.ofModule rescued.body rescuedOpening)).map
          (fun told => (told.phase, told.scope, told.stmt.line)) =
        [(.visit, ⟨0⟩, 1), (.visit, ⟨1⟩, 2), (.visit, ⟨1⟩, 3), (.depart, ⟨1⟩, 3), (.depart, ⟨1⟩, 2), (.visit, ⟨0⟩, 8),
          (.depart, ⟨0⟩, 8), (.visit, ⟨0⟩, 10), (.depart, ⟨0⟩, 10), (.visit, ⟨0⟩, 5), (.depart, ⟨0⟩, 5),
          (.depart, ⟨0⟩, 1)] := by
  have unbuilt : (run (empty {}) [.addModule "m" false]).moduleState? ⟨0⟩ = some .notProcessed := by decide +kernel
  obtain ⟨_, nested⟩ := build_hooks_nested unbuilt Hook.standard rescued
  exact ⟨unbuilt, (nested ⟨0, by decide⟩).1, by decide +kernel⟩

end Graph

end DocGraph
