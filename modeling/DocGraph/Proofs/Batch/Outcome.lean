import DocGraph.Proofs.Run.Unbuilt
import DocGraph.Proofs.Batch.Registration

namespace DocGraph

/-- How far a module is built, and whether it is a package. -/
def Entity.standing (e : Entity) : Option (BuildState × Bool) :=
  e.module?.map fun info => (info.state, info.isPackage)

theorem Entity.standing_map_snd (e : Entity) :
    e.standing.map Prod.snd = if e.type = .module then some e.isPackage else none := by
  cases payload : e.payload <;> simp [standing, module?, type, Payload.type, isPackage, payload]

theorem Entity.standing_modifyClass (e : Entity) (f : ClassInfo → ClassInfo) :
    (e.modifyClass f).standing = e.standing := by
  cases payload : e.payload <;> simp [modifyClass, payload, standing, module?]

namespace Graph

variable {g h k : Graph} {id : EntityId} {building : EntityId → Prop}

/-- No module comes or goes, and those that are not being built stay as far as they are. -/
structure KeepsModules (building : EntityId → Prop) (g h : Graph) : Prop where
  size : g.size ≤ h.size
  package : ∀ id, (h.entity id).standing.map Prod.snd = (g.entity id).standing.map Prod.snd
  standing : ∀ {id}, ¬ building id → (h.entity id).standing = (g.entity id).standing

namespace KeepsModules

theorem trans (first : KeepsModules building g h) (second : KeepsModules building h k) : KeepsModules building g k :=
  ⟨first.size.trans second.size, fun id => (second.package id).trans (first.package id),
    fun other => (second.standing other).trans (first.standing other)⟩

theorem of_entity (size : g.size ≤ h.size) (standing : ∀ id, (h.entity id).standing = (g.entity id).standing) :
    KeepsModules building g h :=
  ⟨size, fun id => by rw [standing], fun _ => standing _⟩

theorem mono {wider : EntityId → Prop} (keeps : KeepsModules building g h) (within : ∀ {id}, building id → wider id) :
    KeepsModules wider g h :=
  ⟨keeps.size, keeps.package, fun other => keeps.standing fun built => other (within built)⟩

theorem of_described (described : Described g h) : KeepsModules building g h :=
  .of_entity described.size.ge fun id => by rw [Entity.standing, (described.entity id).module?, ← Entity.standing]

theorem refl (g : Graph) : KeepsModules building g g := .of_described (.refl g)

theorem of_noted (noted : Noted id g h) : KeepsModules (· = id) g h := by
  refine ⟨noted.retouched.size.ge, fun other => ?_, fun apart => by rw [noted.elsewhere apart]⟩
  by_cases same : other = id
  · rw [Entity.standing_map_snd, Entity.standing_map_snd, same, (noted.retouched.entity id).type, noted.isPackage]
  · rw [noted.elsewhere same]

theorem modify {f : Entity → Entity} (kept : ∀ e, (f e).standing = e.standing) :
    KeepsModules building g (g.modify id f) :=
  .of_entity (g.size_modify id f).ge (read_modify _ _ _ Entity.standing kept)

theorem modifyModule {f : ModuleInfo → ModuleInfo}
    (kept : ∀ info, ((f info).state, (f info).isPackage) = (info.state, info.isPackage)) :
    KeepsModules building g (g.modify id (Entity.modifyModule f)) := by
  refine .modify fun e => ?_
  simp [Entity.standing, Entity.module?_modifyModule, Function.comp_def, kept]

theorem of_move {target : EntityId} {name : String} (moved : g.move id target name = .ok h) :
    KeepsModules building g h :=
  .of_entity (size_move moved).ge (read_move moved Entity.standing fun _ _ _ _ _ _ => rfl)

theorem declare (g : Graph) {e : Entity} (type : e.type ≠ .module) (parent : EntityId) :
    KeepsModules building g ((g.alloc e).1.attach parent ⟨g.size⟩) := by
  have arranged := arranged_attach (g.alloc e).1 parent ⟨g.size⟩
  have size : ((g.alloc e).1.attach parent ⟨g.size⟩).size = g.size + 1 := arranged.size.trans (g.size_alloc e)
  refine .of_entity (by omega) fun id => ?_
  rw [arranged.read Entity.standing fun _ _ _ => rfl, entity_alloc]
  split
  · rename_i fresh
    have none : e.standing = none := by
      cases payload : e.payload <;> simp_all [Entity.standing, Entity.module?, Entity.type, Payload.type]
    rw [none, fresh, g.entity_of_not_has g.not_has_fresh]
    rfl
  · rfl

end KeepsModules

end Graph

open DocGraph.Graph

theorem Walk.Act.keepsModules {w : Walk} {g : Graph} {may : Licence} {building : EntityId → Prop} (act : w.Act may g)
    (describes : ∀ hook ∈ w.hooks, hook.Describes) : KeepsModules building w.graph g := by
  cases act with
  | describe told => exact .of_described told.described
  | document _ told => exact .of_described told.described
  | visit among stmt => exact .of_described ((describes _ among).visit _ _ _ _)
  | depart among stmt => exact .of_described ((describes _ among).depart _ _ _ _)
  | bind name target _ => exact .modify fun _ => rfl
  | defer _ => exact .modifyModule fun _ => rfl
  | @declare parent _ _ _ _ type _ _ _ _ told _ =>
      exact (KeepsModules.declare w.graph type parent).trans (.of_described told.described)
  | define id bases decorators _ _ _ _ _ _ => exact .modify fun e => e.standing_modifyClass _
  | reexport _ _ moved =>
      exact reexport_related .of_move (fun told => .of_described told.described) (congrArg Prod.fst moved)

namespace Graph

variable {g h : Graph} {id : EntityId} {building : EntityId → Prop}

theorem Resuming.keepsModules (resuming : Resuming g h) : KeepsModules building g h := by
  induction resuming with
  | report same => exact .of_described same.described
  | move moved => exact .of_move moved
  | realias g id rest =>
      refine .modify fun e => ?_
      obtain ⟨aliases, equal⟩ := rest e
      rw [equal]
      rfl
  | clear g id => exact .modifyModule fun _ => rfl
  | trans _ _ first second => exact first.trans second

theorem Stages.keepsModules {resumed upgraded linked ordered : Graph} {s : Summary}
    (stages : Stages g resumed upgraded linked ordered h s) : KeepsModules building g h := by
  have linking : KeepsModules building resumed linked :=
    stages.related_link .refl .trans fun g id f => .modify fun e => e.standing_modifyClass f
  exact (stages.resuming.keepsModules.trans linking).trans (.of_described stages.described)

end Graph

/-- The state in which a module ends. -/
def SourceModule.outcome (input : SourceModule) : BuildState :=
  match input.source with
  | .ok _ => .processed
  | .error _ => .errored

theorem SourceModule.isTerminal_outcome (input : SourceModule) : input.outcome.isTerminal = true := by
  rw [outcome]
  split <;> rfl

namespace Graph

variable {g h : Graph} {id : EntityId}

theorem exists_standing (type : (g.entity id).type = .module) :
    ∃ state isPackage, (g.entity id).standing = some (state, isPackage) := by
  have package := (g.entity id).standing_map_snd
  rw [if_pos type, Option.map_eq_some_iff] at package
  obtain ⟨⟨state, isPackage⟩, standing, _⟩ := package
  exact ⟨state, isPackage, standing⟩

theorem moduleState?_of_standing {state : BuildState} {isPackage : Bool}
    (standing : (g.entity id).standing = some (state, isPackage)) : g.moduleState? id = some state := by
  rw [Entity.standing, Option.map_eq_some_iff] at standing
  obtain ⟨info, found, pair⟩ := standing
  rw [moduleState?, found]
  exact congrArg (some ∘ Prod.fst) pair

/-- Whatever its source, a module that is not built is built, and ends in the state that goes with it. -/
theorem build_of_unbuilt (input : SourceModule)
    (unbuilt : (g.entity id).standing = some (.notProcessed, input.isPackage)) :
    ∃ h, g.build Hook.standard id input.source = .ok (h, input.outcome) ∧ KeepsModules (· = id) g h ∧
      (h.entity id).standing = some (input.outcome, input.isPackage) := by
  have state := moduleState?_of_standing unbuilt
  have answered : ∃ h, g.build Hook.standard id input.source = .ok (h, input.outcome) ∧
      ∀ found, h.moduleState? id = some found → found = input.outcome := by
    rw [SourceModule.outcome]
    cases input.source with
    | error failure =>
        refine ⟨_, by rw [build, state], fun found ends => ?_⟩
        rw [setState, moduleState?_modify, Option.map_eq_some_iff] at ends
        obtain ⟨_, _, rfl⟩ := ends
        rfl
    | ok tree =>
        refine ⟨_, by rw [build, state], fun found ends => ?_⟩
        rw [moduleState?_modify, ← moduleState?, setState, moduleState?_modify, Option.map_eq_some_iff] at ends
        obtain ⟨_, _, rfl⟩ := ends
        rfl
  obtain ⟨h, built, ends⟩ := answered
  have keeps : KeepsModules (· = id) g h :=
    build_related .refl .trans .of_noted (fun told => .of_described told.described)
      (fun same act => act.keepsModules (same ▸ Hook.describes_standard)) built
  have package := keeps.package id
  rw [unbuilt, Option.map_some, Option.map_eq_some_iff] at package
  obtain ⟨⟨reached, isPackage⟩, standing, (same : isPackage = input.isPackage)⟩ := package
  refine ⟨h, built, keeps, ?_⟩
  rw [standing, ends reached (moduleState?_of_standing standing), same]

end Graph

namespace Batch

open DocGraph.Graph

variable {g : Graph}

theorem build_entries {entries : List (EntityId × SourceModule)} (apart : (entries.map Prod.fst).Nodup)
    (sound : g.Sound) (unbuilt : ∀ entry ∈ entries,
      (g.entity entry.1).standing = some (.notProcessed, entry.2.isPackage)) :
    ∃ h, entries.foldlM buildOne g = .ok h ∧ Path g h ∧ KeepsModules (· ∈ entries.map Prod.fst) g h ∧
      ∀ entry ∈ entries, (h.entity entry.1).standing = some (entry.2.outcome, entry.2.isPackage) := by
  induction entries generalizing g with
  | nil => exact ⟨g, rfl, .refl g, .refl g, by simp⟩
  | cons entry rest ih =>
      obtain ⟨id, input⟩ := entry
      obtain ⟨outside, apart⟩ := List.nodup_cons.mp apart
      obtain ⟨h, built, keeps, ends⟩ := build_of_unbuilt input (unbuilt (id, input) List.mem_cons_self)
      have path := path_build Hook.describes_standard sound built
      have others : ∀ entry ∈ rest, (h.entity entry.1).standing = some (.notProcessed, entry.2.isPackage) := by
        intro entry among
        have other : entry.1 ≠ id := by
          rintro rfl
          exact outside (List.mem_map.mpr ⟨entry, among, rfl⟩)
        rw [keeps.standing other]
        exact unbuilt entry (List.mem_cons_of_mem _ among)
      obtain ⟨k, all, behind, keepsBehind, endsBehind⟩ := ih apart (path.sound sound) others
      have first : buildOne g (id, input) = .ok h := by rw [buildOne, built]
      refine ⟨k, by rw [List.foldlM_cons, first]; exact all, path.trans behind, ?_, fun entry among => ?_⟩
      · exact (keeps.mono fun same => by simp [same]).trans
          (keepsBehind.mono fun within => List.mem_cons_of_mem _ within)
      · rcases List.mem_cons.mp among with rfl | among
        · rw [keepsBehind.standing outside, ends]
        · exact endsBehind entry among

theorem finish_of_built
    (built : ∀ id state isPackage, (g.entity id).standing = some (state, isPackage) → state.isTerminal = true) :
    ∃ h s, g.finish = .ok (h, s) := by
  have none : g.pendingModules = [] := by
    rw [pendingModules, List.filter_eq_nil_iff]
    intro id among
    obtain ⟨state, isPackage, standing⟩ := exists_standing ((g.mem_idsOfType).mp among).2
    simp [moduleState?_of_standing standing, built id state isPackage standing]
  rw [Graph.finish, none]
  exact ⟨_, _, rfl⟩

theorem entity_dropTrees (g : Graph) (id : EntityId) :
    g.dropTrees.entity id = (g.entity id).modifyModule fun info => { info with tree := none } := by
  rw [entity, entity, dropTrees, Array.getElem?_map]
  cases g.entities[id.index]? <;> rfl

theorem records_ofGraph (g : Graph) (s : Summary) :
    ((Report.ofGraph g.dropTrees s).modules.map fun record => (record.name, record.state, record.isPackage)).Perm
      (g.ids.filterMap fun id => (g.entity id).standing.map fun standing => (g.fullName id, standing)) := by
  have names (id : EntityId) : g.dropTrees.fullName id = g.fullName id := by
    refine fullName_congr (by simp [Graph.size, dropTrees]) (fun id => ?_) (fun id => ?_) id <;>
      rw [entity_dropTrees, Entity.modifyModule_eq]
  have ids : g.dropTrees.ids = g.ids := by simp [Graph.ids, Graph.size, dropTrees]
  refine ((List.mergeSort_perm _ _).map _).trans (List.Perm.of_eq ?_)
  rw [List.map_filterMap, ids]
  refine congrArg (List.filterMap · g.ids) (funext fun id => ?_)
  simp [entity_dropTrees, Entity.module?_modifyModule, ModuleRecord.ofInfo, Entity.standing, names, Function.comp_def]

theorem filterMap_range_getElem? {α β : Type} (items : List α) (f : Nat → α → β) {bound : Nat}
    (within : items.length ≤ bound) :
    (List.range bound).filterMap (fun place => items[place]?.map (f place)) = items.mapIdx f := by
  induction items generalizing f bound with
  | nil => simp
  | cons item rest ih =>
      obtain ⟨bound, rfl⟩ : ∃ less, bound = less + 1 := ⟨bound - 1, by simp at within; omega⟩
      have tail := ih (fun place => f (place + 1)) (Nat.le_of_succ_le_succ within)
      simp [List.range_succ_eq_map, List.filterMap_map, List.mapIdx_cons, tail]

/-- The records of a graph whose modules are those of a list, all of them built. -/
theorem records_of_built {h : Graph} {inputs : List SourceModule} (size : inputs.length ≤ h.size)
    (standing : ∀ place, (h.entity ⟨place⟩).standing =
      inputs[place]?.map fun input => (input.outcome, input.isPackage)) (s : Summary) :
    ((Report.ofGraph h.dropTrees s).modules.map fun record => (record.name, record.state, record.isPackage)).Perm
      (inputs.mapIdx fun place input => (h.fullName ⟨place⟩, input.outcome, input.isPackage)) := by
  refine (records_ofGraph h s).trans (List.Perm.of_eq ?_)
  rw [Graph.ids, List.filterMap_map, ← filterMap_range_getElem? inputs _ size]
  refine congrArg (List.filterMap · (List.range h.size)) (funext fun place => ?_)
  simp [standing, Function.comp_def]

end Batch

theorem Graph.Path.fullName_of_module {g h : Graph} {id : EntityId} (path : Path g h) (sound : g.Sound)
    (nested : g.Nested) (wins : g.options.duplicatePolicy = .firstWins) (isModule : (g.entity id).type = .module) :
    h.fullName id = g.fullName id := by
  have inside : g.Has id := g.has_of_type (by rw [isModule]; decide)
  have stays : Stays g id h := by
    induction path with
    | refl => exact .refl g id
    | @tail middle last before change ih =>
        intro upper above
        have isUpper := nested.of_above above isModule
        have type : (middle.entity upper).type = .module :=
          (Path.lasts before sound (above.has sound.rooted inside)).2.type.trans isUpper
        obtain ⟨parent, kept | ⟨later, _⟩⟩ := change.module (Path.sound before sound) type
        · exact ⟨kept.trans (ih upper above).1, parent.trans (ih upper above).2⟩
        · rw [Path.options before, wins] at later
          cases later
  exact stays.fullName path sound inside

namespace Batch

open DocGraph.Graph

variable {inputs : List SourceModule}

theorem Placed.standing {options : Options} {g : Graph} (placed : Placed options g inputs) (place : Nat) :
    (g.entity ⟨place⟩).standing = inputs[place]?.map fun input => (.notProcessed, input.isPackage) := by
  cases found : inputs[place]? with
  | some input =>
      rw [Entity.standing, placed.info found]
      rfl
  | none =>
      have outside : ¬ g.Has ⟨place⟩ := by
        rw [Has, placed.size]
        simpa using found
      rw [g.entity_of_not_has outside]
      rfl

/-- Registered modules are all built and finished. -/
theorem Placed.complete {options : Options} {g : Graph} (placed : Placed options g inputs) :
    ∃ built h s, (numberedEntries inputs).foldlM buildOne g = .ok built ∧ built.finish = .ok (h, s) ∧ Path g h ∧
      inputs.length ≤ h.size ∧ ∀ place, (h.entity ⟨place⟩).standing =
        inputs[place]?.map fun input => (input.outcome, input.isPackage) := by
  have unbuilt : ∀ entry ∈ numberedEntries inputs,
      (g.entity entry.1).standing = some (.notProcessed, entry.2.isPackage) := by
    intro entry among
    rw [placed.standing entry.1.index, mem_numberedEntries.mp among]
    rfl
  obtain ⟨k, all, path, keeps, ends⟩ := build_entries (nodup_numberedEntries inputs) placed.sound unbuilt
  have standing (place : Nat) : (k.entity ⟨place⟩).standing =
      inputs[place]?.map fun input => (input.outcome, input.isPackage) := by
    cases found : inputs[place]? with
    | some input => exact ends (⟨place⟩, input) (mem_numberedEntries.mpr found)
    | none =>
        have other : ⟨place⟩ ∉ (numberedEntries inputs).map Prod.fst := by
          intro among
          obtain ⟨entry, within, same⟩ := List.mem_map.mp among
          have taken := mem_numberedEntries.mp within
          rw [same, found] at taken
          cases taken
        rw [keeps.standing other, placed.standing, found]
        rfl
  obtain ⟨h, s, finished⟩ : ∃ h s, k.finish = .ok (h, s) := by
    refine finish_of_built fun id state isPackage stands => ?_
    rw [standing id.index, Option.map_eq_some_iff] at stands
    obtain ⟨input, _, pair⟩ := stands
    cases pair
    exact input.isTerminal_outcome
  obtain ⟨_, _, _, _, stages⟩ := finish_stages finished
  have kept : KeepsModules (fun _ => False) k h := stages.keepsModules
  refine ⟨k, h, s, all, finished, path.trans (stages.path (path.sound placed.sound)), ?_, fun place => ?_⟩
  · exact placed.size ▸ keeps.size.trans kept.size
  · rw [kept.standing not_false, standing]

/-- The modules of a batch were registered under the names of their inputs, and the report is about the graph in which
the entries of the batch have been built and finished. -/
structure Recorded (options : Options) (inputs : List SourceModule) (report : Report)
    (entries : List (EntityId × SourceModule)) (g h : Graph) : Prop where
  registered : (byDepth inputs).foldlM register (Graph.empty options, []) = .ok (g, entries)
  perm : (entries.map Prod.snd).Perm inputs
  apart : (entries.map Prod.fst).Nodup
  named : ∀ entry ∈ entries, g.Named entry.1 entry.2.name
  finished : ∃ built summary, entries.foldlM buildOne g = .ok built ∧ built.finish = .ok (h, summary) ∧
    report = Report.ofGraph h.dropTrees summary
  records : (report.modules.map fun record => (record.name, record.state, record.isPackage)).Perm
    (entries.map fun entry => (h.fullName entry.1, entry.2.outcome, entry.2.isPackage))
  kept : options.duplicatePolicy = .firstWins → ∀ entry ∈ entries, h.fullName entry.1 = entry.2.name

namespace Recorded

variable {options : Options} {report : Report} {entries : List (EntityId × SourceModule)} {g h : Graph}
  (recorded : Recorded options inputs report entries g h)

include recorded

theorem states : (report.modules.map fun record => (record.state, record.isPackage)).Perm
    (inputs.map fun input => (input.outcome, input.isPackage)) := by
  have states := recorded.records.map Prod.snd
  rw [List.map_map, List.map_map] at states
  have inputs := recorded.perm.map fun input => (input.outcome, input.isPackage)
  rw [List.map_map] at inputs
  exact states.trans inputs

theorem names (wins : options.duplicatePolicy = .firstWins) :
    (report.modules.map fun record => (record.name, record.state, record.isPackage)).Perm
      (inputs.map fun input => (input.name, input.outcome, input.isPackage)) := by
  have same : (entries.map fun entry => (h.fullName entry.1, entry.2.outcome, entry.2.isPackage)) =
      (entries.map Prod.snd).map fun input => (input.name, input.outcome, input.isPackage) := by
    rw [List.map_map]
    exact List.map_congr_left fun entry among => by simp [recorded.kept wins entry among]
  exact recorded.records.trans (same ▸ recorded.perm.map _)

end Recorded

theorem build_wellNamed (options : Options) (named : WellNamed inputs) :
    ∃ report entries g h, build options inputs = .ok report ∧ Recorded options inputs report entries g h := by
  obtain ⟨g, registered, placed⟩ := register_inOrder (placed_empty options) ((inOrder_byDepth_iff inputs).mpr named)
  rw [List.nil_append] at registered placed
  obtain ⟨k, h, s, all, finished, path, size, standing⟩ := placed.complete
  have first : (byDepth inputs).foldlM register (Graph.empty options, []) = .ok (g, numberedEntries (byDepth inputs)) :=
    registered
  have answer : build options inputs = .ok (Report.ofGraph h.dropTrees s) := by
    simp [build, first, all, finish, finished, bind, Except.bind, pure, Except.pure]
  have type {entry : EntityId × SourceModule} (among : entry ∈ numberedEntries (byDepth inputs)) :
      (g.entity entry.1).type = .module := Entity.type_of_module? (placed.info (mem_numberedEntries.mp among))
  refine ⟨_, _, g, h, answer, first, ?_, nodup_numberedEntries _, fun entry among => ?_, ⟨k, s, all, finished, rfl⟩, ?_,
    fun wins entry among => ?_⟩
  · have sources : (numberedEntries (byDepth inputs)).map Prod.snd = byDepth inputs := by
      rw [map_numberedEntries]
      exact List.ext_getElem (by simp) (by simp)
    rw [sources]
    exact perm_byDepth inputs
  · have lockStep := placed.registered.lockStep placed.sound placed.segmented
    exact lockStep.named (type among) (placed.fullName (mem_numberedEntries.mp among))
  · have records := records_of_built size standing s
    rwa [map_numberedEntries]
  · rw [path.fullName_of_module placed.sound (placed.path.nested (sound_empty options) (nested_empty options))
      (by rw [placed.path.options]; exact wins) (type among), placed.fullName (mem_numberedEntries.mp among)]

theorem build_misnamed (options : Options) (misnamed : ¬ WellNamed inputs) :
    ∃ input ∈ inputs, ∃ reason, build options inputs = .error (.moduleRegistration input.name reason) := by
  have disordered : ¬ InOrder [] (byDepth inputs) := fun inOrder => misnamed ((inOrder_byDepth_iff inputs).mp inOrder)
  obtain ⟨input, among, reason, refused⟩ := register_disordered (placed_empty options) disordered
  refine ⟨input, (perm_byDepth inputs).mem_iff.mp among, reason, ?_⟩
  change (byDepth inputs).foldlM register (Graph.empty options, []) = _ at refused
  rw [build, refused]
  rfl

/-- A batch succeeds if and only if its modules are well named, whatever their trees and in whatever order they
are given. It fails only with the name of a module that cannot be registered. The report of a batch that
succeeds has one record for each module: whatever wins a name, it is about the module that was registered under
the name of the input and says the state that the source of this input leads to, and where the first
declaration wins it has that name still. -/
theorem build_ok_iff_wellNamed (options : Options) (inputs : List SourceModule) :
    ((∃ report, build options inputs = .ok report) ↔ WellNamed inputs) ∧
    (∀ failure, build options inputs = .error failure →
      ∃ input ∈ inputs, ∃ reason, failure = .moduleRegistration input.name reason) ∧
    (∀ report, build options inputs = .ok report →
      (∃ entries g h, Recorded options inputs report entries g h) ∧
      (report.modules.map fun record => (record.state, record.isPackage)).Perm
        (inputs.map fun input => (input.outcome, input.isPackage)) ∧
      (options.duplicatePolicy = .firstWins →
        (report.modules.map fun record => (record.name, record.state, record.isPackage)).Perm
          (inputs.map fun input => (input.name, input.outcome, input.isPackage)))) ∧
    ∀ other, inputs.Perm other →
      ((∃ report, build options inputs = .ok report) ↔ ∃ report, build options other = .ok report) := by
  have succeeds (inputs : List SourceModule) : (∃ report, build options inputs = .ok report) ↔ WellNamed inputs := by
    constructor
    · rintro ⟨report, answer⟩
      by_contra misnamed
      obtain ⟨_, _, _, refused⟩ := build_misnamed options misnamed
      cases refused.symm.trans answer
    · intro named
      obtain ⟨report, _, _, _, answer, _⟩ := build_wellNamed options named
      exact ⟨report, answer⟩
  refine ⟨succeeds inputs, fun failure failed => ?_, fun report answer => ?_, fun other perm => ?_⟩
  · have misnamed : ¬ WellNamed inputs := by
      intro named
      obtain ⟨_, _, _, _, answer, _⟩ := build_wellNamed options named
      cases failed.symm.trans answer
    obtain ⟨input, among, reason, refused⟩ := build_misnamed options misnamed
    exact ⟨input, among, reason, Except.error.inj (failed.symm.trans refused)⟩
  · obtain ⟨_, entries, g, h, built, recorded⟩ := build_wellNamed options ((succeeds inputs).mp ⟨report, answer⟩)
    cases built.symm.trans answer
    exact ⟨⟨entries, g, h, recorded⟩, recorded.states, recorded.names⟩
  · rw [succeeds, succeeds]
    exact ⟨.perm perm, .perm perm.symm⟩

/-- A package behind the modules in it, of which one could not be read. -/
def shuffled : List SourceModule :=
  [{ name := "p.b", isPackage := false, source := .error (.unparseable "p.b" "unexpected indent") },
    { name := "p.a", isPackage := false, source := .ok { body := [.classDef { name := "a", line := 1 } []] } },
    { name := "p", isPackage := true, source := .ok { body := [.imports [⟨"p.b", none⟩] 1] } }]

theorem build_shuffled :
    ∃ report, build {} shuffled = .ok report ∧ (∃ entries g h, Recorded {} shuffled report entries g h) ∧
      (report.modules.map fun record => (record.state, record.isPackage)).Perm
        [(.errored, false), (.processed, false), (.processed, true)] ∧
      ∃ name reason, build {} (shuffled.take 2) = .error (.moduleRegistration name reason) := by
  have named : WellNamed shuffled := by decide +kernel
  have misnamed : ¬ WellNamed (shuffled.take 2) := by decide +kernel
  obtain ⟨succeeds, _, records, _⟩ := build_ok_iff_wellNamed {} shuffled
  obtain ⟨fails, refused, _, _⟩ := build_ok_iff_wellNamed {} (shuffled.take 2)
  obtain ⟨report, answer⟩ := succeeds.mpr named
  obtain ⟨recorded, states, _⟩ := records report answer
  refine ⟨report, answer, recorded, states, ?_⟩
  cases result : build {} (shuffled.take 2) with
  | ok report => exact absurd (fails.mp ⟨report, result⟩) misnamed
  | error failure =>
      obtain ⟨input, _, reason, rfl⟩ := refused failure result
      exact ⟨input.name, reason, rfl⟩

end Batch

end DocGraph
