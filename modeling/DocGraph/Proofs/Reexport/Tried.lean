import DocGraph.Proofs.Run.Trace
import DocGraph.Proofs.Walk.Arrivals

namespace DocGraph

namespace Graph

/-- The re-exports that are tried while a module is built. -/
def buildAttempts (g : Graph) (hooks : List Hook) (module : EntityId) (source : Except SourceError Module) :
    List Attempt :=
  match g.moduleState? module, source with
  | some .notProcessed, .ok tree =>
      let w := Walk.opening g hooks module tree
      w.tried (Walk.Script.ofModule tree.body w)
  | _, _ => []

theorem buildAttempts_of_unbuilt {g : Graph} {hooks : List Hook} {module : EntityId} {tree : Module}
    (unbuilt : g.moduleState? module = some .notProcessed) : g.buildAttempts hooks module (.ok tree) =
      (Walk.opening g hooks module tree).tried
        (Walk.Script.ofModule tree.body (Walk.opening g hooks module tree)) := by
  simp only [buildAttempts, unbuilt]

end Graph

/-- The re-exports that a call tries, in order. -/
def Call.attempts (g : Graph) : Call → List Attempt
  | .build hooks module source => g.buildAttempts hooks module source
  | .reexport scope exports origin name asName line => [{ graph := g, scope, exports, origin, name, asName, line }]
  | .finish => if g.pendingModules = [] then g.finishAttempts else []
  | _ => []

/-- The re-export is tried behind the graph, for a scope that there is. -/
structure Attempt.Behind (g : Graph) (attempt : Attempt) : Prop where
  path : Graph.Path g attempt.graph
  inside : attempt.graph.Has attempt.scope

theorem Attempt.Behind.trans {g h : Graph} {attempt : Attempt} (path : Graph.Path g h) (behind : attempt.Behind h) :
    attempt.Behind g :=
  ⟨path.trans behind.path, behind.inside⟩

namespace Graph

variable {g : Graph} {scope origin module : EntityId} {exports blocked : List String} {line : Nat} {attempt : Attempt}

theorem behind_of_star (sound : g.Sound) (inside : g.Has scope)
    (tried : attempt ∈ g.starAttempts scope origin exports blocked line) : attempt.Behind g := by
  obtain ⟨⟨state, name⟩, among, rfl⟩ := List.mem_map.mp tried
  have path : Path g state.1 := by
    refine of_mem_along (motive := fun state => Path g state.1) (.refl g) (fun {state name} _ before => ?_) among
    exact before.trans (path_importStarName (before.has sound inside) origin exports line state.2 name)
  exact ⟨path, path.has sound inside⟩

theorem behind_of_resumed (sound : g.Sound) (inside : g.Has module) {pending : PendingImport}
    (into : ∀ {origin scope blocked line}, pending = .star origin scope blocked line → g.Has scope)
    (tried : attempt ∈ g.resumedAttempts module exports pending) : attempt.Behind g := by
  cases pending with
  | reexport origin name asName line =>
      cases found : g.lookupModule origin with
      | none => simp [resumedAttempts, found] at tried
      | some id =>
          simp only [resumedAttempts, found, List.mem_singleton] at tried
          subst tried
          exact ⟨.refl g, inside⟩
  | star origin scope blocked line =>
      cases found : g.lookupModule origin with
      | none => simp [resumedAttempts, found] at tried
      | some id =>
          simp only [resumedAttempts, found] at tried
          exact behind_of_star sound (into rfl) tried

theorem behind_of_pending (sound : g.Sound) (inside : g.Has module) (tried : attempt ∈ g.pendingAttempts module) :
    attempt.Behind g := by
  obtain ⟨⟨k, pending⟩, among, tried⟩ := List.mem_flatMap.mp tried
  have cleared : Path g (g.modify module (Entity.modifyModule fun info => { info with pending := [] })) :=
    .touch (.resume module)
  have into {k : Graph} {pending : PendingImport} (path : Path g k)
      (among : pending ∈ ((g.entity module).module?.map ModuleInfo.pending).getD []) :
      ∀ {origin scope blocked line}, pending = .star origin scope blocked line → k.Has scope := by
    rintro origin scope blocked line rfl
    exact path.has sound (sound.pending among)
  have path : Path g k := by
    refine of_mem_along (motive := fun k => Path g k) cleared (fun {k pending} listed before => ?_) among
    exact before.trans (path_resumeImport (before.sound sound) (before.has sound inside) _ (into before listed))
  exact .trans path (behind_of_resumed (path.sound sound) (path.has sound inside)
    (into path (mem_of_mem_along among)) tried)

theorem behind_of_finish (sound : g.Sound) (tried : attempt ∈ g.finishAttempts) : attempt.Behind g := by
  obtain ⟨⟨k, module⟩, among, tried⟩ := List.mem_flatMap.mp tried
  have inside {module : EntityId} (listed : module ∈ g.idsOfType .module) : g.Has module :=
    (g.mem_idsOfType.mp listed).1
  have path : Path g k := by
    refine of_mem_along (motive := fun k => Path g k) (.refl g) (fun {k module} listed before => ?_) among
    exact before.trans (path_resumeImports (before.sound sound) (before.has sound (inside listed)))
  exact .trans path (behind_of_pending (path.sound sound) (path.has sound (inside (mem_of_mem_along among))) tried)

end Graph

namespace Walk

open DocGraph.Graph

variable {w : Walk} {origin : String} {line : Nat} {attempt : Attempt}

theorem behind_of_names (valid : w.Valid) {names : List ImportAlias}
    (tried : attempt ∈ w.namesAttempts origin names line) : attempt.Behind w.graph := by
  obtain ⟨⟨g, item⟩, among, tried⟩ := List.mem_filterMap.mp tried
  have walks : w.Exporting w.exports g ∧ Walks (.any True) w { w with graph := g } := by
    refine of_mem_along (motive := fun g => w.Exporting w.exports g ∧ Walks (.any True) w { w with graph := g })
      ⟨rfl, .refl w⟩ (fun {k item} _ before => ?_) among
    obtain ⟨exporting, step⟩ : _ ∧ Walks (.any True) { w with graph := k }
        { w with graph := w.importName w.exports origin (w.graph.lookupModule origin) line k item } :=
      walks_importName before.1 (fun _ => trivial) trivial origin fun _ _ => trivial
    exact ⟨exporting, before.2.trans step⟩
  have path := walks.2.path valid
  simp only [nameAttempt?] at tried
  split at tried
  · cases tried
  · obtain ⟨id, _, made⟩ := Option.bind_eq_some_iff.mp tried
    split at made
    · cases made
    · cases made
      exact ⟨path, path.has valid.sound valid.has_current⟩

theorem behind_of_all (valid : w.Valid) (tried : attempt ∈ w.allAttempts origin line) : attempt.Behind w.graph := by
  unfold allAttempts at tried
  split at tried
  · cases tried
  · dsimp only at tried
    split at tried
    · cases tried
    · have told : Told (fun _ => False) w.graph (w.reportAt ("import * from " ++ origin) "import" line 1) :=
        told_report _ _ _ _ _ (by decide)
      have reported : Path w.graph (w.reportAt ("import * from " ++ origin) "import" line 1) :=
        .retouch told.described.retouched
      exact .trans reported (behind_of_star (reported.sound valid.sound)
        (reported.has valid.sound valid.has_current) tried)

theorem behind_of_attempts (valid : w.Valid) {stmt : Stmt} (tried : attempt ∈ w.attempts stmt) :
    attempt.Behind w.graph := by
  unfold attempts at tried
  split at tried
  · split at tried
    · split at tried
      · cases tried
      · split at tried
        · exact behind_of_all valid tried
        · exact behind_of_names valid tried
    · cases tried
  · cases tried

end Walk

namespace Graph

variable {g : Graph} {attempt : Attempt}

theorem valid_opening {hooks : List Hook} (describes : ∀ hook ∈ hooks, hook.Describes) (sound : g.Sound)
    {module : EntityId} (unbuilt : g.moduleState? module = some .notProcessed) (tree : Module) :
    (Walk.opening g hooks module tree).Valid := by
  have noted := noted_metadata g module tree.body
  exact ⟨Path.sound (.retouch noted.retouched) sound,
    (noted.retouched.entity module).type.trans (type_of_moduleState unbuilt), by simp [Walk.opening], describes⟩

theorem behind_of_build {hooks : List Hook} (describes : ∀ hook ∈ hooks, hook.Describes) (sound : g.Sound)
    {module : EntityId} {source : Except SourceError Module}
    (tried : attempt ∈ g.buildAttempts hooks module source) : attempt.Behind g := by
  unfold buildAttempts at tried
  split at tried
  · rename_i tree unbuilt
    obtain ⟨⟨u, stmt⟩, among, tried⟩ := List.mem_flatMap.mp tried
    have valid := valid_opening describes sound unbuilt tree
    have first : Path g (Walk.opening g hooks module tree).graph :=
      .retouch (noted_metadata g module tree.body).retouched
    have documented := (Walk.told_documented (Walk.opening g hooks module tree) tree.body).described
    rw [Walk.reached_ofModule] at among
    obtain ⟨validThere, path⟩ := (Walk.Script.performs_ofBody tree.body).of_reached (valid.atBody tree.body) among
    exact .trans ((first.trans (.retouch documented.retouched)).trans path)
      (Walk.behind_of_attempts validThere tried)
  · cases tried

theorem behind_of_call {call : Call} (sound : g.Sound) (fits : call.Fits g) (tried : attempt ∈ call.attempts g) :
    attempt.Behind g := by
  cases call with
  | build hooks module source => exact behind_of_build fits sound tried
  | reexport scope exports origin name asName line =>
      rw [Call.attempts, List.mem_singleton] at tried
      subst tried
      exact ⟨.refl g, fits⟩
  | finish =>
      rw [Call.attempts] at tried
      split at tried
      · exact behind_of_finish sound tried
      · cases tried
  | _ => cases tried

end Graph

end DocGraph
