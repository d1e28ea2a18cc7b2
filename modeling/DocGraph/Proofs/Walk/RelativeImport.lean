import DocGraph.Proofs.Walk.Guard
import DocGraph.Proofs.Walk.Reports

namespace DocGraph

namespace Graph

variable {g h : Graph} {id parent upper : EntityId} {segments : List String}

/-- The names on the way from a root of the graph down to an entity. -/
inductive Lineage (g : Graph) : EntityId → List String → Prop
  | root {id : EntityId} (inside : g.Has id) (alone : (g.entity id).parent = none) :
      Lineage g id [(g.entity id).name]
  | child {id parent : EntityId} {segments : List String} (held : g.IsParent parent id)
      (above : Lineage g parent segments) : Lineage g id (segments ++ [(g.entity id).name])

theorem exists_lineage (rooted : g.Rooted) (inside : g.Has id) : ∃ segments, g.Lineage id segments := by
  induction id using rooted.wellFounded.induction with
  | _ id ih =>
      cases next : (g.entity id).parent with
      | none => exact ⟨_, .root inside next⟩
      | some parent =>
          obtain ⟨segments, above⟩ := ih parent next (rooted.parentHas next)
          exact ⟨_, .child next above⟩

namespace Lineage

theorem has (lineage : g.Lineage id segments) : g.Has id := by
  cases lineage with
  | root inside => exact inside
  | child held => exact g.has_of_parent held

theorem unique {others : List String} (lineage : g.Lineage id segments) (other : g.Lineage id others) :
    others = segments := by
  induction lineage generalizing others with
  | root _ alone =>
      cases other with
      | root => rfl
      | child held => cases alone.symm.trans held
  | child held _ ih =>
      cases other with
      | root _ alone => cases alone.symm.trans held
      | child held' above' =>
          cases Option.some.inj (held.symm.trans held')
          rw [ih above']

theorem of_above (lineage : g.Lineage id segments) (above : g.Above upper id) :
    ∃ shorter, g.Lineage upper shorter ∧ shorter.length ≤ segments.length := by
  induction above generalizing segments with
  | refl => exact ⟨segments, lineage, Nat.le_refl _⟩
  | tail _ last ih =>
      cases lineage with
      | root _ alone => cases alone.symm.trans last
      | child held inner =>
          cases Option.some.inj (held.symm.trans last)
          obtain ⟨shorter, upper, bound⟩ := ih inner
          exact ⟨shorter, upper, bound.trans (by simp)⟩

theorem nodup_ancestorsFrom (lineage : g.Lineage id segments) (fuel : Nat) : (g.ancestorsFrom fuel id).Nodup := by
  induction lineage generalizing fuel with
  | @root id _ alone =>
      cases fuel with
      | zero => simp [ancestorsFrom]
      | succ fuel => simp [ancestorsFrom, alone]
  | @child id parent segments held above ih =>
      have next : (g.entity id).parent = some parent := held
      cases fuel with
      | zero => simp [ancestorsFrom]
      | succ fuel =>
          simp only [ancestorsFrom, next, List.nodup_cons]
          refine ⟨fun member => ?_, ih fuel⟩
          -- The lineage of an entity above itself would be shorter than itself.
          obtain ⟨shorter, again, bound⟩ := above.of_above (above_of_mem_ancestorsFrom member)
          rw [(Lineage.child held above).unique again, List.length_append, List.length_singleton] at bound
          omega

theorem names_ancestorsFrom (lineage : g.Lineage id segments) {fuel : Nat} (enough : segments.length ≤ fuel) :
    (g.ancestorsFrom fuel id).reverse.map (fun upper => (g.entity upper).name) = segments := by
  induction lineage generalizing fuel with
  | root _ alone =>
      obtain ⟨fuel, rfl⟩ := Nat.exists_eq_add_of_le' enough
      simp [ancestorsFrom, alone]
  | @child id parent segments held _ ih =>
      have next : (g.entity id).parent = some parent := held
      obtain ⟨fuel, rfl⟩ := Nat.exists_eq_add_of_le' enough
      rw [List.length_append, List.length_singleton, ← Nat.add_assoc, ancestorsFrom]
      simp [next, ih]

theorem length_ancestorsFrom (lineage : g.Lineage id segments) {fuel : Nat} (enough : segments.length ≤ fuel) :
    (g.ancestorsFrom fuel id).length = segments.length := by
  rw [← lineage.names_ancestorsFrom enough, List.length_map, List.length_reverse]

theorem length_le_size (lineage : g.Lineage id segments) : segments.length ≤ g.size := by
  have within : g.ancestorsFrom segments.length id ⊆ g.ids := by
    intro upper member
    obtain ⟨_, lineage, _⟩ := lineage.of_above (above_of_mem_ancestorsFrom member)
    exact g.mem_ids.mpr lineage.has
  have bound := ((lineage.nodup_ancestorsFrom segments.length).subperm within).length_le
  rw [lineage.length_ancestorsFrom (Nat.le_refl _)] at bound
  simpa [ids] using bound

/-- As many steps up as there are segments to leave, and the rest of the segments is the lineage there. -/
theorem climb {steps fuel : Nat} (lineage : g.Lineage id segments) (enough : segments.length ≤ fuel)
    (below : steps < segments.length) :
    ∃ base, (g.ancestorsFrom fuel id)[steps]? = some base ∧
      g.Lineage base (segments.take (segments.length - steps)) := by
  induction lineage generalizing fuel steps with
  | root inside alone =>
      obtain rfl : steps = 0 := by simpa using below
      obtain ⟨fuel, rfl⟩ := Nat.exists_eq_add_of_le' enough
      exact ⟨_, by simp [ancestorsFrom, alone], .root inside alone⟩
  | @child id parent segments held above ih =>
      have next : (g.entity id).parent = some parent := held
      obtain ⟨fuel, rfl⟩ := Nat.exists_eq_add_of_le' enough
      rw [List.length_append, List.length_singleton, ← Nat.add_assoc, ancestorsFrom]
      simp only [next]
      cases steps with
      | zero => exact ⟨id, rfl, by simpa [List.take_of_length_le] using Lineage.child held above⟩
      | succ steps =>
          rw [List.length_append, List.length_singleton, Nat.add_lt_add_iff_right] at below
          obtain ⟨base, found, lineage⟩ := ih (Nat.le_add_left _ fuel) below
          refine ⟨base, found, ?_⟩
          rwa [Nat.add_sub_add_right, List.take_append_of_le_length (Nat.sub_le _ _)]

theorem fullName (lineage : g.Lineage id segments) : g.fullName id = Dotted.join segments := by
  rw [Graph.fullName, ancestors, lineage.names_ancestorsFrom lineage.length_le_size]

end Lineage

/-- The reports on levels of relative imports. -/
def levelReports (g : Graph) : List Diagnostic :=
  g.diagnostics.toList.filter fun d => "relative import level".toList <+: d.message.toList

theorem ReportsOnly.levelReports (reports : ReportsOnly Diagnostic.OfBinding g h) :
    h.levelReports = g.levelReports := by
  refine reports.filter_eq _ fun d binding => decide_eq_false ?_
  rintro ⟨rest, same⟩
  exact binding.2 (by rw [← same]; rfl)

end Graph

namespace Walk

open DocGraph.Graph

variable {w : Walk} {segments : List String}

theorem Reached.exists_lineage (reached : w.Reached) : ∃ segments, w.graph.Lineage w.module segments := by
  have valid := reached.validInTable.valid
  exact Graph.exists_lineage valid.sound.rooted (w.graph.has_of_type (by simp [valid.module]))

/-- The full name that is left when some segments are taken away, with the name behind it. -/
def originFrom (segments : List String) (steps : Nat) (name : Option String) : String :=
  Dotted.join (segments.take (segments.length - steps)) ++ (name.map ("." ++ ·)).getD ""

theorem originName?_eq (lineage : w.graph.Lineage w.module segments) (name : Option String) {level : Nat}
    (relative : 1 ≤ level) :
    let steps := climb (w.graph.isPackage w.module) level
    w.originName? name level =
      if segments.length ≤ steps then none else some (originFrom segments steps name) := by
  intro steps
  have enough := lineage.length_le_size
  rw [originName?, if_neg (by omega), ancestors]
  split
  · rename_i high
    rw [← lineage.length_ancestorsFrom enough] at high
    rw [List.getElem?_eq_none high, Option.map_none]
  · rename_i low
    obtain ⟨base, found, above⟩ := lineage.climb enough (Nat.lt_of_not_le low)
    rw [found, Option.map_some, originFrom, ← above.fullName]
    cases name with
    | none => simp
    | some name => simp [Dotted.extend, String.append_assoc]

/-- The module of every build has its lineage. A relative import is from the segments that its level leaves,
with the name behind them; without any, it is reported once and does nothing else. -/
theorem importFrom_relative (w : Walk) :
    (w.Reached → ∃ segments, w.graph.Lineage w.module segments) ∧
      ∀ segments, w.graph.Lineage w.module segments → ∀ (name : Option String) (level : Nat), 1 ≤ level →
        let steps := if w.graph.isPackage w.module then level - 1 else level
        let origin := originFrom segments steps name
        w.originName? name level = (if steps ≥ segments.length then none else some origin) ∧
          (w.scope.isContainer = true → ∀ (names : List ImportAlias) (line : Nat),
            let g := w.importFrom name names level line
            (steps ≥ segments.length → ∃ d : Diagnostic,
              g = { w.graph with diagnostics := w.graph.diagnostics.report d } ∧
                g.levelReports = w.graph.levelReports ++ [d] ∧
                d.message = "relative import level (" ++ toString level ++ ") too high" ∧
                d.entity = Dotted.join segments ∧ d.topic = "import") ∧
            (steps < segments.length →
              g = (if isStar names then w.importAll origin line else w.importNames origin names line) ∧
                g.levelReports = w.graph.levelReports)) := by
  refine ⟨Reached.exists_lineage, fun segments lineage name level relative => ?_⟩
  intro steps origin
  have named : w.originName? name level = if steps ≥ segments.length then none else some origin :=
    originName?_eq lineage name relative
  refine ⟨named, fun container names line => ⟨fun high => ?_, fun low => ?_⟩⟩
  · rw [if_pos high] at named
    rw [importFrom, if_pos container, named]
    refine ⟨_, rfl, ?_, rfl, lineage.fullName, rfl⟩
    have told : "relative import level".toList <+:
        ("relative import level (" ++ toString level ++ ") too high").toList := by
      rw [String.toList_append, String.toList_append, List.append_assoc]
      exact (by decide : "relative import level".toList <+: "relative import level (".toList).trans
        (List.prefix_append _ _)
    rw [reportAt, levelReports, report, Diagnostics.toList_report, List.filter_append, List.filter_singleton,
      decide_eq_true told, cond_true, levelReports]
  · rw [if_neg (by omega)] at named
    rw [importFrom, if_pos container, named]
    refine ⟨rfl, ?_⟩
    dsimp only
    split
    · exact (reportsOnly_importAll w origin line).levelReports
    · exact (reportsOnly_importNames w origin names line).levelReports

/-- A module two packages deep. -/
def deepModule : Walk :=
  start (run (empty {}) [.addModule "a" true, .addModule "a.b" true, .addModule "a.b.c" false]) ⟨2⟩ []

theorem lineage_deepModule : deepModule.graph.Lineage ⟨2⟩ ["a", "b", "c"] := by
  let g := deepModule.graph
  have outer : (g.entity ⟨1⟩).parent = some ⟨0⟩ := by decide +kernel
  have inner : (g.entity ⟨2⟩).parent = some ⟨1⟩ := by decide +kernel
  have names : [(g.entity ⟨0⟩).name] ++ [(g.entity ⟨1⟩).name] ++ [(g.entity ⟨2⟩).name] = ["a", "b", "c"] := by
    decide +kernel
  have root : g.Lineage ⟨0⟩ [(g.entity ⟨0⟩).name] := .root (by decide +kernel) (by decide +kernel)
  exact names ▸ (root.child outer).child inner

/-- Two levels up from the module is its outer package, and three levels up is nothing. -/
theorem importFrom_relative_deepModule :
    deepModule.Reached ∧ deepModule.graph.Lineage deepModule.module ["a", "b", "c"] ∧
      deepModule.originName? (some "x") 2 = some "a.x" ∧ deepModule.originName? (some "x") 3 = none ∧
      (deepModule.importFrom (some "x") [⟨"y", none⟩] 2 1).levelReports = [] ∧
      ((deepModule.importFrom (some "x") [⟨"y", none⟩] 3 1).levelReports.map Diagnostic.message) =
        ["relative import level (3) too high"] := by
  have unbuilt : (run (empty {}) [.addModule "a" true, .addModule "a.b" true, .addModule "a.b.c" false]).moduleState?
      ⟨2⟩ = some .notProcessed := by decide +kernel
  have admits : (empty {}).Admits [.addModule "a" true, .addModule "a.b" true, .addModule "a.b.c" false] :=
    ⟨trivial, trivial, trivial, trivial⟩
  have plain : deepModule.graph.isPackage deepModule.module = false := by decide +kernel
  have container : deepModule.scope.isContainer = true := by decide +kernel
  have silent : deepModule.graph.levelReports = [] := by decide +kernel
  obtain ⟨_, relative⟩ := importFrom_relative deepModule
  have low := relative _ lineage_deepModule (some "x") 2 (by decide)
  have high := relative _ lineage_deepModule (some "x") 3 (by decide)
  simp only [plain, Bool.false_eq_true, ↓reduceIte, silent] at low high
  obtain ⟨_, _, told, message, _⟩ := (high.2 container [⟨"y", none⟩] 1).1 (by decide)
  refine ⟨.start admits unbuilt [], lineage_deepModule, low.1.trans (by decide), high.1.trans (by decide), ?_, ?_⟩
  · exact ((low.2 container [⟨"y", none⟩] 1).2 (by decide)).2
  · rw [told, List.nil_append, List.map_singleton, message]
    decide

end Walk

end DocGraph
