import DocGraph.Proofs.Run.Trace
import DocGraph.Proofs.Walk.Script

namespace DocGraph

namespace Diagnostic

/-- What is reported while entities are bound and moved: a duplicate, an import that fails, or one of all names. -/
def OfBinding (d : Diagnostic) : Prop :=
  (d.topic = "ast" ∨ d.topic = "import") ∧ d.message.toList.head? ≠ some 'r'

theorem OfBinding.ofBuild {d : Diagnostic} (binding : d.OfBinding) : d.OfBuild := by
  unfold OfBuild
  rcases binding.1 with topic | topic <;> rw [topic] <;> decide

end Diagnostic

open Diagnostic (OfBinding OfBuild)

namespace Graph

variable {g h : Graph} {id : EntityId} {p : Diagnostic → Prop}

theorem head?_append {first : String} {c : Char} (begins : first.toList.head? = some c) (rest : String) :
    (first ++ rest).toList.head? = some c := by
  rw [String.toList_append, List.head?_append, begins, Option.some_or]

theorem reportsOnly_binding (g : Graph) (id : EntityId) {message topic : String} (offset threshold : Int) {c : Char}
    (begins : message.toList.head? = some c) (other : c ≠ 'r') (known : topic = "ast" ∨ topic = "import") :
    ReportsOnly OfBinding g (g.report id message topic offset threshold) := by
  refine .report g id offset threshold fun d same topics => ⟨topics ▸ known, ?_⟩
  rw [same, begins]
  exact fun equal => other (Option.some.inj equal)

/-- What is told of method resolution orders. -/
def orderReports (g : Graph) : List Diagnostic := g.diagnostics.inSection "mro"

@[simp] theorem orderReports_modify (id : EntityId) (f : Entity → Entity) :
    (g.modify id f).orderReports = g.orderReports := rfl

theorem ReportsOnly.orderReports (reports : ReportsOnly OfBuild g h) : h.orderReports = g.orderReports :=
  reports.filter_eq _ fun d other => by simpa [OfBuild] using other

@[simp] theorem diagnostics_register (g : Graph) (id : EntityId) : (g.register id).diagnostics = g.diagnostics := by
  rw [register_eq]

@[simp] theorem diagnostics_unregister (g : Graph) (id : EntityId) :
    (g.unregister id).diagnostics = g.diagnostics := by
  rw [unregister_eq]

theorem reportsOnly_attach (g : Graph) (parent child : EntityId) : ReportsOnly OfBinding g (g.attach parent child) := by
  unfold attach
  dsimp only
  split
  · exact .of_eq (by simp [bindChild])
  · split
    · exact .of_eq (by simp [bindChild])
    · rename_i previous _ _
      have begins : ("duplicate " ++ g.describe previous).toList.head? = some 'd' := head?_append (by decide) _
      exact (reportsOnly_binding g child 0 1 begins (by decide) (.inl rfl)).trans
        (.of_eq (by simp [attachDuplicate, demote, bindChild, rename]))

theorem reportsOnly_declare (g : Graph) (e : Entity) (parent child : EntityId) :
    ReportsOnly OfBinding g ((g.alloc e).1.attach parent child) := by
  have allocated : (g.alloc e).1.diagnostics = g.diagnostics := rfl
  exact (ReportsOnly.of_eq allocated).trans (reportsOnly_attach _ parent child)

theorem reportsOnly_addModule {name : String} {isPackage : Bool} (added : g.addModule name isPackage = .ok (h, id)) :
    ReportsOnly OfBinding g h := by
  obtain ⟨_, _, rfl | ⟨_, _, _, _, _, _, rfl⟩⟩ := addModule_cases added
  · exact .of_eq (diagnostics_register _ _)
  · exact reportsOnly_declare g _ _ _

theorem reportsOnly_move {target : EntityId} {name : String} (moved : g.move id target name = .ok h) :
    ReportsOnly OfBinding g h := by
  rcases move_cases moved with ⟨rfl, _, _⟩ | ⟨oldParent, _, _, _, _, rfl⟩
  · exact .refl h
  · have uprooted : (g.uproot id oldParent target (g.entity id).name name).diagnostics = g.diagnostics := by
      simp [uproot]
    exact ((ReportsOnly.of_eq uprooted).trans (reportsOnly_attach _ target id)).modify _ _

theorem head?_of_move_error {target : EntityId} {name : String} {refusal : GraphError}
    (refused : g.move id target name = .error refusal) : refusal.message.toList.head? = some 'c' := by
  have cannot (reason : MoveRefusal) : (GraphError.cannotMove (g.fullName id) reason).message.toList.head? = some 'c' :=
    head?_append (head?_append (head?_append (by decide) _) _) _
  unfold move at refused
  dsimp only at refused
  split at refused
  · cases refused
  · split at refused
    · cases refused
      exact cannot _
    · split at refused
      · cases refused
        exact cannot _
      · cases refused

theorem reportsOnly_reexport (g : Graph) (scope : EntityId) (exports : List String) (origin : EntityId)
    (name asName : String) (line : Nat) :
    ReportsOnly OfBinding g (g.reexport scope exports origin name asName line).1 := by
  have told (message : String) (begins : message.toList.head? = some 'c') :
      ReportsOnly OfBinding g (g.report ((g.entity scope).home.getD scope) message "import" line 1) :=
    reportsOnly_binding _ _ _ _ begins (by decide) (.inr rfl)
  have unresolved : "cannot resolve re-exported name :".toList.head? = some 'c' := by decide
  unfold reexport
  dsimp only
  split
  · split
    · exact told _ (head?_append unresolved _)
    · split
      · exact .refl g
      · split
        · rename_i moved
          exact reportsOnly_move moved
        · rename_i refused
          exact told _ (head?_of_move_error refused)
  · exact .refl g

theorem reportsOnly_importStar (g : Graph) (scope origin : EntityId) (exports blocked : List String) (line : Nat) :
    ReportsOnly OfBinding g (g.importStar scope origin exports blocked line).1 := by
  refine .foldl Prod.fst (fun state name => ?_) _ (g, 0)
  have tried := reportsOnly_reexport state.1 scope exports origin name name line
  unfold importStarName
  dsimp only
  split
  all_goals
    rename_i equal
    rw [equal] at tried
  · exact tried
  · exact tried.trans (.of_eq rfl)

/-- A definition gives rise to no reports but three. -/
theorem ReportsOnly.defineFunction (g : Graph) (id : EntityId) (head : FunctionHead) (body : List Stmt) (d : Decorated)
    (overload : ∀ k offset, ReportsOnly p k (warnAbout k id " overload has docstring, unsupported" offset))
    (both : ∀ k, ReportsOnly p k (warnAbout k id " is both classmethod and staticmethod" 0))
    (invalid : ∀ k reason, Signature.build head.args head.returns = .error reason →
      ReportsOnly p k (warnAbout k id (" has invalid parameters: " ++ reason.message) 0)) :
    ReportsOnly p g (g.defineFunction id head body d) := by
  have documented : ReportsOnly p g (g.documentFunction id body d.isOverload) := by
    unfold documentFunction
    split
    · exact .refl g
    · exact .ite (overload g _) (.of_eq rfl)
  have warned (k : Graph) (condition : Bool) :
      ReportsOnly p k (if condition then k.warnAbout id " is both classmethod and staticmethod" 0 else k) :=
    .ite (both k) (.refl k)
  unfold Graph.defineFunction
  dsimp only
  refine .trans (documented.trans (warned _ (d.has .classMethod && d.has .staticMethod))) ?_
  cases built : Signature.build head.args head.returns with
  | ok signature => exact .of_eq rfl
  | error reason => exact (invalid _ reason built).trans (.of_eq rfl)

end Graph

open DocGraph.Graph

namespace Walk

theorem reportsOnly_importNames (w : Walk) (origin : String) (names : List ImportAlias) (line : Nat) :
    ReportsOnly OfBinding w.graph (w.importNames origin names line) := by
  refine .foldl (fun g => g) (fun g item => ?_) names w.graph
  unfold importName
  dsimp only
  split
  · exact .refl g
  · split
    · exact .of_eq rfl
    · rename_i id _
      have tried := reportsOnly_reexport g w.current w.exports id item.name item.bound line
      split
      · exact .of_eq rfl
      · split
        all_goals
          rename_i equal
          rw [equal] at tried
        · exact tried
        · exact tried.trans (.of_eq rfl)

theorem reportsOnly_importAll (w : Walk) (origin : String) (line : Nat) :
    ReportsOnly OfBinding w.graph (w.importAll origin line) := by
  have told (message : String) (begins : message.toList.head? = some 'i') :
      ReportsOnly OfBinding w.graph (w.reportAt message "import" line 1) :=
    reportsOnly_binding _ _ _ _ begins (by decide) (.inr rfl)
  unfold importAll
  split
  · exact told ("import * from unknown " ++ origin) (head?_append (by decide) _)
  · have reported := told ("import * from " ++ origin) (head?_append (by decide) _)
    dsimp only
    split
    · exact reported.trans (.of_eq rfl)
    · exact reported.trans (reportsOnly_importStar _ _ _ _ _ _)

end Walk

/-- A hook that reports nothing about method resolution orders. -/
structure Hook.Quiet (hook : Hook) : Prop where
  visit : ∀ g scope module stmt, (hook.visit g scope module stmt).orderReports = g.orderReports
  depart : ∀ g scope module stmt, (hook.depart g scope module stmt).orderReports = g.orderReports

theorem Hook.quiet_standard : ∀ hook ∈ Hook.standard, hook.Quiet := by
  intro hook among
  rw [Hook.standard, List.mem_singleton] at among
  rw [among]
  exact ⟨fun g scope module stmt => (Hook.told_typeAliases g scope module stmt).reports.orderReports, fun _ _ _ _ => rfl⟩

theorem Walk.Act.orderReports {w : Walk} {may : Licence} {g : Graph} (act : w.Act may g)
    (quiet : ∀ hook ∈ w.hooks, hook.Quiet) : g.orderReports = w.graph.orderReports := by
  have bound {g h : Graph} (reports : ReportsOnly OfBinding g h) : h.orderReports = g.orderReports :=
    (reports.mono fun _ => OfBinding.ofBuild).orderReports
  cases act with
  | describe told | document _ told => exact told.reports.orderReports
  | visit among stmt => exact (quiet _ among).visit _ _ _ _
  | depart among stmt => exact (quiet _ among).depart _ _ _ _
  | bind | defer | define => rfl
  | declare _ _ _ _ _ _ _ told => exact told.reports.orderReports.trans (bound (reportsOnly_declare _ _ _ _))
  | @reexport _ origin name asName line _ _ moved =>
      have reports := reportsOnly_reexport w.graph w.current w.exports origin name asName line
      rw [moved] at reports
      exact bound reports

namespace Graph

theorem orderReports_build {g h : Graph} {id : EntityId} {hooks : List Hook} (quiet : ∀ hook ∈ hooks, hook.Quiet)
    {source : Except SourceError Module} {state : BuildState} (built : g.build hooks id source = .ok (h, state)) :
    h.orderReports = g.orderReports :=
  build_related (r := fun g h => h.orderReports = g.orderReports) (fun _ => rfl)
    (fun first second => second.trans first) (fun noted => noted.reports.orderReports)
    (fun told => told.reports.orderReports) (fun same act => act.orderReports (same ▸ quiet)) built

end Graph

end DocGraph
