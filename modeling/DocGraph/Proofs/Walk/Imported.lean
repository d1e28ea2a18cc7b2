import DocGraph.Proofs.Run.Imports

namespace DocGraph

namespace Graph

variable {r : Graph → Graph → Prop}

/-- The relation holds across the steps of an import. -/
structure CarriesImports (r : Graph → Graph → Prop) : Prop where
  trans : ∀ {g h k}, r g h → r h k → r g k
  told : ∀ {g h}, Told (fun _ => False) g h → r g h
  bind : ∀ g scope name target, r g (g.modify scope (Entity.bindAlias name target))
  defer : ∀ g module pending, r g (g.deferImport module pending)
  move : ∀ {g h id target name}, g.move id target name = .ok h → r g h

namespace CarriesImports

variable (carries : CarriesImports r)

include carries

theorem refl (g : Graph) : r g g := carries.told (.refl g)

theorem report (g : Graph) (id : EntityId) (message : String) (offset threshold : Int) :
    r g (g.report id message "import" offset threshold) := carries.told (told_report g _ _ _ _ (by decide))

theorem foldl {σ α : Type*} (graph : σ → Graph) {step : σ → α → σ}
    (each : ∀ state item, r (graph state) (graph (step state item))) (items : List α) (start : σ) :
    r (graph start) (graph (items.foldl step start)) := by
  induction items generalizing start with
  | nil => exact carries.refl _
  | cons item rest ih => exact carries.trans (each start item) (ih _)

theorem reexport (g : Graph) (scope : EntityId) (exports : List String) (origin : EntityId)
    (name asName : String) (line : Nat) : r g (g.reexport scope exports origin name asName line).1 :=
  reexport_related carries.move carries.told rfl

theorem importStar (g : Graph) (scope origin : EntityId) (exports blocked : List String) (line : Nat) :
    r g (g.importStar scope origin exports blocked line).1 := by
  refine carries.foldl Prod.fst (fun state name => ?_) _ (g, 0)
  have moved := carries.reexport state.1 scope exports origin name name line
  unfold importStarName
  dsimp only
  split
  · rename_i equal
    rwa [equal] at moved
  · rename_i equal
    rw [equal] at moved
    exact carries.trans moved (carries.bind _ _ _ _)

variable (w : Walk)

theorem importModules (names : List ImportAlias) : r w.graph (w.importModules names) := by
  unfold Walk.importModules
  split
  · refine carries.foldl (fun g => g) (fun g item => ?_) names w.graph
    unfold Walk.importModule
    dsimp only
    split
    · exact carries.refl g
    · exact carries.bind g _ _ _
  · exact carries.refl _

theorem importNames (origin : String) (names : List ImportAlias) (line : Nat) :
    r w.graph (w.importNames origin names line) := by
  refine carries.foldl (fun g => g) (fun g item => ?_) names w.graph
  unfold Walk.importName
  dsimp only
  split
  · exact carries.refl g
  · split
    · exact carries.bind g _ _ _
    · split
      · exact carries.trans (carries.defer g _ _) (carries.bind _ _ _ _)
      · rename_i id _ _
        have moved := carries.reexport g w.current w.exports id item.name item.bound line
        split
        · rename_i equal
          rwa [equal] at moved
        · rename_i equal
          rw [equal] at moved
          exact carries.trans moved (carries.bind _ _ _ _)

theorem importAll (origin : String) (line : Nat) : r w.graph (w.importAll origin line) := by
  unfold Walk.importAll
  split
  · exact carries.report _ _ _ _ _
  · have reported : r w.graph (w.reportAt ("import * from " ++ origin) "import" line 1) :=
      carries.report _ _ _ _ _
    dsimp only
    split
    · exact carries.trans reported (carries.defer _ _ _)
    · exact carries.trans reported (carries.importStar _ _ _ _ _ _)

theorem importFrom (name : Option String) (names : List ImportAlias) (level line : Nat) :
    r w.graph (w.importFrom name names level line) := by
  unfold Walk.importFrom
  split
  · split
    · exact carries.report _ _ _ _ _
    · split
      · exact carries.importAll w _ _
      · exact carries.importNames w _ _ _
  · exact carries.refl _

end CarriesImports

end Graph

end DocGraph
