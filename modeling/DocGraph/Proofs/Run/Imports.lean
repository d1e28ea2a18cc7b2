import DocGraph.Proofs.Run.Acts

namespace DocGraph

namespace Graph

variable {g h : Graph} {id scope : EntityId}

/-- A re-export moves something or leaves the graph as it is, but for a report. -/
theorem reexport_outcome (g : Graph) (scope : EntityId) (exports : List String) (origin : EntityId)
    (name asName : String) (line : Nat) :
    (∃ h found, g.reexport scope exports origin name asName line = (h, true) ∧ asName ∈ exports ∧
      g.offered? origin name = some found ∧ (g.entity found).type ≠ .module ∧
      name ∉ g.exportsOf origin ∧ g.move found scope asName = .ok h) ∨
    ∃ h, g.reexport scope exports origin name asName line = (h, false) ∧ Told (fun _ => False) g h := by
  unfold reexport
  dsimp only
  split
  · rename_i exported
    split
    · exact .inr ⟨_, rfl, told_report _ _ _ _ _ (by decide)⟩
    · rename_i found offered
      split
      · exact .inr ⟨g, rfl, .refl g⟩
      · rename_i free
        split
        · rename_i moved
          refine .inl ⟨_, found, rfl, exported, offered, ?_, fun among => free (.inr among), moved⟩
          exact fun type => free (.inl (by simp [isModule, type]))
        · exact .inr ⟨_, rfl, told_report _ _ _ _ _ (by decide)⟩
  · exact .inr ⟨g, rfl, .refl g⟩

/-- What a move and a report do, a re-export does. -/
theorem reexport_related {r : Graph → Graph → Prop} {exports : List String} {origin : EntityId}
    {name asName : String} {line : Nat} (move : ∀ {id}, g.move id scope asName = .ok h → r g h)
    (told : Told (fun _ => False) g h → r g h)
    (behind : (g.reexport scope exports origin name asName line).1 = h) : r g h := by
  rcases g.reexport_outcome scope exports origin name asName line with
    ⟨k, _, equal, _, _, _, _, moved⟩ | ⟨k, equal, reported⟩
  · cases (congrArg Prod.fst equal).symm.trans behind
    exact move moved
  · cases (congrArg Prod.fst equal).symm.trans behind
    exact told reported

theorem reexport_cases (g : Graph) (scope : EntityId) (exports : List String) (origin : EntityId)
    (name asName : String) (line : Nat) :
    (∃ h found, g.reexport scope exports origin name asName line = (h, true) ∧ asName ∈ exports ∧
      g.offered? origin name = some found ∧ (g.entity found).type ≠ .module ∧
      name ∉ g.exportsOf origin ∧ g.move found scope asName = .ok h) ∨
    ∃ h, g.reexport scope exports origin name asName line = (h, false) ∧ Described g h := by
  rcases g.reexport_outcome scope exports origin name asName line with moved | ⟨h, equal, reported⟩
  · exact .inl moved
  · exact .inr ⟨h, equal, reported.described⟩

theorem exportsOf_congr (same : ∀ id, ((h.entity id).module?.bind ModuleInfo.exports) =
    ((g.entity id).module?.bind ModuleInfo.exports)) : h.exportsOf = g.exportsOf := by
  funext id
  simp [exportsOf, same]

end Graph

open DocGraph.Graph

namespace Walk

variable {w v u : Walk} {g h : Graph} {id : EntityId} {may : Licence}

theorem isGuarded_eq_contains (w : Walk) (scope : EntityId) (name : String) :
    w.isGuarded scope name = (w.guardedNames scope).contains name := by
  unfold isGuarded guardedNames
  cases w.guard with
  | none => rfl
  | some guard => by_cases same : guard.scope = scope <;> simp [same]

theorem walks_importModules (w : Walk) (named : ∀ name, may.binds name) (names : List ImportAlias) :
    Walks may w { w with graph := w.importModules names } := by
  unfold importModules
  split
  · refine Walks.foldl (w := w) (fun g => g) (fun _ => True) w.graph trivial fun {g item} _ _ => ⟨trivial, ?_⟩
    unfold importModule
    dsimp only
    split
    · exact .refl _
    · rename_i open_
      have free : w.isGuarded w.current (importBinding item).1 = false := by simpa using open_
      exact .bind (w := { w with graph := g }) free (named _)
  · exact .refl w

/-- The exports that an import goes by are those that the module has at the time. -/
def Exporting (w : Walk) (exports : List String) (g : Graph) : Prop :=
  { w with graph := g }.exports = exports

theorem Exporting.of_same {exports : List String} (exporting : w.Exporting exports g)
    (same : ∀ id, ((h.entity id).module?.bind ModuleInfo.exports) =
      ((g.entity id).module?.bind ModuleInfo.exports)) : w.Exporting exports h := by
  have equal := exportsOf_congr same
  simp only [Exporting, Walk.exports] at exporting ⊢
  rw [equal]
  exact exporting

theorem Exporting.bind {exports : List String} (exporting : w.Exporting exports g)
    (id : EntityId) (name target : String) :
    w.Exporting exports (g.modify id (Entity.bindAlias name target)) :=
  exporting.of_same (g.read_modify id (Entity.bindAlias name target)
    (fun e => e.module?.bind ModuleInfo.exports) fun _ => rfl)

theorem Exporting.defer {exports : List String} (exporting : w.Exporting exports g)
    (id : EntityId) (pending : PendingImport) : w.Exporting exports (g.deferImport id pending) :=
  exporting.of_same (g.read_modify id _ (fun e => e.module?.bind ModuleInfo.exports) fun e => by
    simp [Entity.module?_modifyModule, Option.bind_map])

/-- A name that is taken over from another module: moved if it is exported, or else left for the
caller to bind. -/
theorem walks_reexport {exports : List String} (exporting : w.Exporting exports g) {origin : EntityId}
    {name asName : String} {line : Nat} (free : w.isGuarded w.current asName = false)
    (tried : may.tries { graph := g, scope := w.current, exports, origin, name, asName, line }) :
    w.Exporting exports (g.reexport w.current exports origin name asName line).1 ∧
      Walks may { w with graph := g }
        { w with graph := (g.reexport w.current exports origin name asName line).1 } := by
  rcases reexport_outcome g w.current exports origin name asName line with
    ⟨h, found, equal, _, _, _, _, moved⟩ | ⟨h, equal, same⟩
  · rw [equal]
    refine ⟨exporting.of_same ?_, .act ?_⟩
    · exact read_move moved (fun e => e.module?.bind ModuleInfo.exports) fun _ _ _ _ _ _ => rfl
    · rw [← exporting] at tried equal
      exact .reexport (w := { w with graph := g }) free tried equal
  · rw [equal]
    exact ⟨exporting.of_same fun id => by rw [(same.entity id).module?],
      .describe (w := { w with graph := g }) (same.mono fun none => none.elim)⟩

theorem walks_importName {exports : List String} (exporting : w.Exporting exports g)
    (named : ∀ name, may.binds name) (later : may.defers) (origin : String) {originId : Option EntityId} {line : Nat}
    {item : ImportAlias}
    (tries : ∀ attempt, w.nameAttempt? exports originId line g item = some attempt → may.tries attempt) :
    w.Exporting exports (w.importName exports origin originId line g item) ∧
      Walks may { w with graph := g }
        { w with graph := w.importName exports origin originId line g item } := by
  unfold importName
  dsimp only
  split
  · exact ⟨exporting, .refl _⟩
  · rename_i open_
    have free : w.isGuarded w.current item.bound = false := by simpa using open_
    have bound (k : Graph) (target : String) : Walks may { w with graph := k }
        { w with graph := k.modify w.current (Entity.bindAlias item.bound target) } :=
      .bind (w := { w with graph := k }) free (named _)
    split
    · exact ⟨exporting.bind _ _ _, bound g _⟩
    · split
      · refine ⟨(exporting.defer _ _).bind _ _ _, Walks.trans (.act ?_) (bound _ _)⟩
        exact .defer (w := { w with graph := g }) (by rintro _ _ _ _ ⟨⟩) later
      · rename_i id ready
        have tried := tries _ (by rw [nameAttempt?, if_neg open_, Option.bind_some, if_neg ready])
        obtain ⟨after, walks⟩ := walks_reexport exporting free tried
        split
        · rename_i equal
          rw [equal] at after walks
          exact ⟨after, walks⟩
        · rename_i equal
          rw [equal] at after walks
          exact ⟨after.bind _ _ _, walks.trans (bound _ _)⟩

theorem walks_importNames (w : Walk) (named : ∀ name, may.binds name) (later : may.defers) {origin : String}
    {names : List ImportAlias} {line : Nat} (tries : ∀ attempt ∈ w.namesAttempts origin names line, may.tries attempt) :
    Walks may w { w with graph := w.importNames origin names line } := by
  refine Walks.foldl (w := w) (fun g => g) (w.Exporting w.exports) w.graph rfl fun {g item} among exporting => ?_
  refine walks_importName exporting named later origin fun attempt tried => tries attempt ?_
  exact List.mem_filterMap.mpr ⟨(g, item), among, tried⟩

theorem walks_importStar {exports : List String} (exporting : w.Exporting exports g)
    (named : ∀ name, may.binds name) {origin : EntityId} {line : Nat}
    (tries : ∀ attempt ∈ g.starAttempts w.current origin exports (w.guardedNames w.current) line,
      may.tries attempt) :
    Walks may { w with graph := g } { w with graph :=
      (g.importStar w.current origin exports (w.guardedNames w.current) line).1 } := by
  refine Walks.foldl (w := w) Prod.fst (fun state => w.Exporting exports state.1) (g, 0) exporting ?_
  rintro ⟨k, moved⟩ name among exporting
  have free : w.isGuarded w.current name = false := by
    rw [isGuarded_eq_contains]
    simpa using (List.mem_filter.mp (mem_of_mem_along among)).2
  have tried : may.tries { graph := k, scope := w.current, exports, origin, name, asName := name, line } :=
    tries _ (List.mem_map.mpr ⟨((k, moved), name), among, rfl⟩)
  obtain ⟨after, walks⟩ := walks_reexport exporting free tried
  unfold importStarName
  dsimp only
  split
  · rename_i equal
    rw [equal] at after walks
    exact ⟨after, walks⟩
  · rename_i k' equal
    rw [equal] at after walks
    exact ⟨after.bind _ _ _, walks.trans (.bind (w := { w with graph := k' }) free (named _))⟩

theorem walks_importAll (w : Walk) (named : ∀ name, may.binds name) (later : may.defers) {origin : String}
    {line : Nat} (tries : ∀ attempt ∈ w.allAttempts origin line, may.tries attempt) :
    Walks may w { w with graph := w.importAll origin line } := by
  unfold importAll
  split
  · exact .describe (told_report _ _ _ _ _ (by decide))
  · rename_i found
    rw [allAttempts, found] at tries
    dsimp only at tries ⊢
    have reported : Walks may w
        { w with graph := w.reportAt ("import * from " ++ origin) "import" line 1 } :=
      .describe (told_report _ _ _ _ _ (by decide))
    split
    · refine reported.trans (.act (.defer ?_ later))
      rintro _ _ _ _ ⟨⟩
      rfl
    · rename_i built
      rw [if_neg built] at tries
      exact reported.trans (walks_importStar (by rfl) named tries)

theorem walks_importFrom (w : Walk) (named : ∀ name, may.binds name) (later : may.defers) {name : Option String}
    {names : List ImportAlias} {level line : Nat}
    (tries : ∀ attempt ∈ w.attempts (.importFrom name names level line), may.tries attempt) :
    Walks may w { w with graph := w.importFrom name names level line } := by
  unfold importFrom
  split
  · rename_i container
    rw [attempts, if_pos container] at tries
    split
    · exact .describe (told_report _ _ _ _ _ (by decide))
    · rename_i found
      rw [found] at tries
      dsimp only at tries
      split
      · rename_i star
        rw [if_pos star] at tries
        exact walks_importAll w named later tries
      · rename_i plain
        rw [if_neg plain] at tries
        exact walks_importNames w named later tries
  · exact .refl w

end Walk

end DocGraph
