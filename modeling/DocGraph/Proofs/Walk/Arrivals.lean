import DocGraph.Proofs.Run.Walking
import DocGraph.Proofs.Walk.Script

namespace DocGraph

namespace Walk

open DocGraph.Graph

variable {w : Walk}

/-- The statements that the walk comes to, in order, each with the state of the walk then. -/
def reached : Walk → List Step → List (Walk × Stmt)
  | _, [] => []
  | w, .reach stmt :: rest => (w, stmt) :: reached w rest
  | w, step :: rest => reached (step.take w) rest

theorem reached_append (w : Walk) (first second : List Step) :
    reached w (first ++ second) = reached w first ++ reached (w.replay first) second := by
  fun_induction reached w first with
  | case1 => rfl
  | case2 w stmt rest ih => exact congrArg ((w, stmt) :: ·) ih
  | case3 w step rest other ih =>
      rw [List.cons_append, reached, ih, replay_cons]
      exact other

/-- A step that no hook is shown, and that comes to no statement. -/
def Step.isSilent : Step → Bool
  | .reach _ => false
  | .call _ _ => false
  | _ => true

theorem reached_between {first last : Step} (silent : first.isSilent = true) (silentLast : last.isSilent = true)
    (steps : List Step) (w : Walk) : reached w (first :: steps ++ [last]) = reached (first.take w) steps := by
  have passed {step : Step} (silent : step.isSilent = true) (w : Walk) (rest : List Step) :
      reached w (step :: rest) = reached (step.take w) rest := by
    cases step <;> first | rfl | cases silent
  rw [List.cons_append, passed silent, reached_append, passed silentLast, reached, List.append_nil]

namespace Script

variable {script : Script} {walk : Walk → Walk} {stmts : List Stmt}

theorem reached_callAll (phase : Phase) (stmt : Stmt) (w : Walk) : reached w (callAll phase stmt w) = [] := by
  have along (v : Walk) (entries : List (Hook × Nat)) :
      reached v (entries.map fun entry => Step.call (Prod.snd entry) { phase, scope := w.current, stmt }) = [] := by
    induction entries generalizing v with
    | nil => rfl
    | cons entry rest ih => exact ih _
  exact along w w.hooks.zipIdx

theorem reached_around (script : Script) (stmt : Stmt) (w : Walk) :
    reached w (script.around stmt w) = reached (w.visit stmt) (script (w.visit stmt)) := by
  have visited : w.replay (callAll .visit stmt w) = w.visit stmt := replay_callAll .visit stmt w
  rw [around, andThen, andThen, reached_append, reached_append, reached_callAll, visited, reached_callAll,
    List.nil_append, List.append_nil]

theorem reached_plain (script : Script) (stmt : Stmt) (next : Option Stmt) (w : Walk) :
    reached w (script.plain stmt next w) =
      (w, stmt) :: reached ((w.handle stmt next).visit stmt) (script ((w.handle stmt next).visit stmt)) := by
  have handled : Walks (.any True) w (w.handle stmt next) := walks_handle w (fun _ => trivial) next
  rw [handled.eq_graph, ← reached_around]
  rfl

theorem reached_definition_opened {stmt : Stmt} {id : EntityId} (opened : (w.declared stmt).2 = some id) :
    reached w (script.definition stmt w) =
      (w, stmt) :: reached (({ w with graph := (w.declared stmt).1 }.enter id).visit stmt)
        (script (({ w with graph := (w.declared stmt).1 }.enter id).visit stmt)) := by
  rw [definition_opened (Prod.ext rfl opened), ← reached_around]
  exact congrArg ((w, stmt) :: ·) (reached_between rfl rfl _ _)

theorem reached_definition_skipped {stmt : Stmt} (closed : (w.declared stmt).2 = none) :
    reached w (script.definition stmt w) = [(w, stmt)] := by
  rw [definition_skipped (Prod.ext rfl closed)]
  exact congrArg ((w, stmt) :: ·) (reached_around skip stmt { w with graph := (w.declared stmt).1 })

theorem walkDefinition_skipped {stmt : Stmt} (closed : (w.declared stmt).2 = none) :
    walkDefinition stmt (w.declared stmt) walk w =
      ({ w with graph := (w.declared stmt).1 }.visit stmt).depart stmt := by
  simp only [walkDefinition, closed]

theorem walkDefinition_opened {stmt : Stmt} {id : EntityId} (opened : (w.declared stmt).2 = some id) :
    walkDefinition stmt (w.declared stmt) walk w =
      ((walk (({ w with graph := (w.declared stmt).1 }.enter id).visit stmt)).depart stmt).leave id := by
  simp only [walkDefinition, opened]

theorem Performs.of_reached (performs : Performs script walk stmts) (valid : w.Valid) {u : Walk} {stmt : Stmt}
    (among : (u, stmt) ∈ reached w (script w)) : u.Valid ∧ Path w.graph u.graph := by
  induction performs generalizing w with
  | skip => cases among
  | andThen before _ ihBefore ihBehind =>
      have made := before.made w
      rw [Script.andThen, reached_append, before.leads] at among
      rcases List.mem_append.mp among with first | second
      · exact ihBefore valid first
      · obtain ⟨valid', path⟩ := ihBehind (made.valid valid) second
        exact ⟨valid', (made.path valid).trans path⟩
  | @inBlock script _ _ _ inside =>
      let deeper : Walk := { w with flowDepth := w.flowDepth + 1 }
      have states : reached w (script.inBlock w) = reached deeper (script deeper) := reached_between rfl rfl _ _
      rw [states] at among
      exact @inside deeper ⟨valid.sound, valid.module, valid.scopes, valid.hooks⟩ among
  | @guarded script _ _ _ inside =>
      let shielded : Walk := { w with guard := some w.guardHere }
      have states : reached w (script.guarded w) = reached shielded (script shielded) := reached_between rfl rfl _ _
      rw [states] at among
      exact @inside shielded ⟨valid.sound, valid.module, valid.scopes, valid.hooks⟩ among
  | @plain _ _ stmt next _ _ inside =>
      rw [reached_plain] at among
      rcases List.mem_cons.mp among with here | later
      · cases here
        exact ⟨valid, .refl _⟩
      · have handled : Walks (.any True) w ((w.handle stmt next).visit stmt) :=
          (walks_handle w (fun _ => trivial) next).trans (walks_visit _ stmt)
        obtain ⟨valid', path⟩ := inside (handled.valid valid) later
        exact ⟨valid', (handled.path valid).trans path⟩
  | @definition _ _ stmt _ _ inside =>
      have declares : Declares (.any True) w (w.declared stmt) := declares_declared w stmt
      cases opened : (w.declared stmt).2 with
      | none =>
          rw [reached_definition_skipped opened, List.mem_singleton] at among
          cases among
          exact ⟨valid, .refl _⟩
      | some id =>
          rw [reached_definition_opened opened] at among
          rcases List.mem_cons.mp among with here | later
          · cases here
            exact ⟨valid, .refl _⟩
          · have entered := valid.enter (declares.opens id opened) (declares.recorded.valid valid)
            have visited : Walks (.any True) _ (({ w with graph := (w.declared stmt).1 }.enter id).visit stmt) :=
              walks_visit _ stmt
            obtain ⟨valid', path⟩ := inside (visited.valid entered) later
            exact ⟨valid', ((declares.recorded.path valid).trans (visited.path entered)).trans path⟩

end Script

/-- The re-exports that are tried at the statements that the walk comes to, in order. -/
def tried (w : Walk) (steps : List Step) : List Attempt :=
  (reached w steps).flatMap fun (u, stmt) => u.attempts stmt

/-- A walk that may try these re-exports. -/
def Licence.only (attempts : List Attempt) : Licence :=
  { Licence.any True with tries := (· ∈ attempts) }

theorem Licence.allows_only {stmt : Stmt} {attempts : List Attempt} (among : w.attempts stmt ⊆ attempts) :
    (Licence.only attempts).Allows w stmt where
  afar _ := trivial
  binds _ _ := trivial
  classes _ := trivial
  tries _ tried := among tried
  imports _ := ⟨fun _ => trivial, trivial⟩
  defines _ _ _ _ _ := trivial

theorem Walks.wider {v : Walk} {attempts more : List Attempt} (walks : Walks (.only attempts) w v)
    (among : attempts ⊆ more) : Walks (.only more) w v :=
  walks.mono ⟨fun _ => trivial, fun tried => among tried, fun _ => trivial, fun _ => trivial, fun _ => trivial,
    fun _ => trivial⟩

namespace Script

variable {script : Script} {walk : Walk → Walk} {stmts : List Stmt}

/-- A walk tries no re-export but those of the statements that it comes to. -/
theorem Performs.walks (performs : Performs script walk stmts) (w : Walk) :
    Walks (.only (tried w (script w))) w (walk w) := by
  induction performs generalizing w with
  | skip => exact .refl w
  | andThen before _ ihBefore ihBehind =>
      rw [tried, Script.andThen, reached_append, before.leads, List.flatMap_append]
      exact ((ihBefore w).wider (List.subset_append_left _ _)).trans
        ((ihBehind _).wider (List.subset_append_right _ _))
  | @inBlock script _ _ _ inside =>
      let deeper : Walk := { w with flowDepth := w.flowDepth + 1 }
      have states : reached w (script.inBlock w) = reached deeper (script deeper) := reached_between rfl rfl _ _
      rw [tried, states]
      exact .block (inside deeper)
  | @guarded script _ _ _ inside =>
      let shielded : Walk := { w with guard := some w.guardHere }
      have states : reached w (script.guarded w) = reached shielded (script shielded) := reached_between rfl rfl _ _
      rw [tried, states]
      exact .arm (inside shielded)
  | @plain _ _ stmt next _ _ inside =>
      rw [tried, reached_plain, List.flatMap_cons]
      have handled : Walks (.only (w.attempts stmt)) w (w.handle stmt next) :=
        walks_handle_of_allows (Licence.allows_only fun _ among => among) next
      refine (handled.wider (List.subset_append_left _ _)).trans ?_
      exact ((walks_visit _ stmt).trans ((inside _).wider (List.subset_append_right _ _))).trans (walks_depart _ stmt)
  | @definition script _ stmt defines _ inside =>
      have none : w.attempts stmt = [] := by cases stmt <;> first | rfl | cases defines
      have declares : Declares (.only (tried w (script.definition stmt w))) w (w.declared stmt) :=
        declares_of_allows (Licence.allows_only (none ▸ List.nil_subset _))
      refine walks_walkDefinition declares fun id opened => ?_
      rw [tried, reached_definition_opened opened, List.flatMap_cons]
      exact (inside _).wider (List.subset_append_right _ _)

end Script

theorem told_documented (w : Walk) (body : List Stmt) : Told (· = w.module) w.graph (w.documented body) := by
  unfold documented
  split
  · exact told_setDocstring _ _ _ _
  · exact .refl _

/-- The state in which the first statement of a module is walked. -/
def atBody (w : Walk) (body : List Stmt) : Walk := { w.enter w.module with graph := w.documented body }

theorem Valid.atBody (valid : w.Valid) (body : List Stmt) : (w.atBody body).Valid := by
  have path : Path w.graph (w.documented body) := .retouch (told_documented w body).described.retouched
  have framed : Framed (w.enter w.module) (w.atBody body) := ⟨rfl, rfl, rfl, rfl⟩
  exact framed.valid path valid.enter_module

theorem walkModule_eq (w : Walk) (body : List Stmt) :
    walkModule body w = (walkBody body (w.atBody body)).leave w.module := by
  unfold walkModule atBody documented
  cases leadingDocstring? body <;> rfl

theorem reached_ofModule (w : Walk) (body : List Stmt) :
    reached w (Script.ofModule body w) = reached (w.atBody body) (Script.ofBody body (w.atBody body)) :=
  reached_between rfl rfl _ _

end Walk

end DocGraph
