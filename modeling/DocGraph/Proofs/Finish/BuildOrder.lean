import DocGraph.Proofs.Order.Builds

/-!
What the order decides in which modules are built, and what it does not. A class goes to the first module that
exports it, and a base is what its name leads to while its module is built, if it leads to a class by then; neither
is gone back on. If nothing is exported from elsewhere, no name is given twice in a scope, and the names of bases
are given in one of the scopes around them only, and lead through modules if they have dots, then all orders end in
the same classes with the same bases.
-/
namespace DocGraph

/-- The texts of the bases of a class. -/
def Binding.bases (b : Binding) : List String :=
  match b.meaning with
  | .class bases => bases
  | .alias _ => []

namespace Graph

open Dotted (Spelled IsSegment)

variable {g h k : Graph} {words : List String} {id : EntityId} {b : Binding} {outline : List Binding}
  {builds first second : List (EntityId × Module)} {hooks : List Hook}

/-- What the chart will be when all these names are given. -/
def chartWith (g : Graph) (outline : List Binding) : Chart where
  root := g.chart.root
  held scope name := (g.chart.held scope name).or (Binding.held outline scope name)

/-- Trees for registered modules, none of which depends on the order in which they are built. The words are the
names of all modules and classes, and those that the names of bases are made of; all other names are of functions
and attributes, and of imports that do not matter. -/
structure Commuting (words : List String) (g : Graph) (builds : List (EntityId × Module)) : Prop where
  vocabulary : Vocabulary words
  named : ∀ id ∈ g.ids, (g.entity id).name ∈ words
  /-- Each module is built once. -/
  once : (builds.map Prod.fst).Perm g.ids
  plain : ∀ entry ∈ builds, ∀ site ∈ g.moduleSites entry.1 entry.2, site.Plain words entry.2.exported
  proper : ∀ b ∈ g.outlineOfAll builds, b.Proper words
  /-- No word is given twice in a scope. -/
  apart : (((g.outlineOfAll builds).filter fun b => b.name ∈ words).map Binding.key).Nodup
  /-- No class has the name of a module. -/
  free : ∀ b ∈ g.outlineOfAll builds, b.isClass = true → (g.chart.held b.scope b.name).isNone = true
  /-- The names of bases are looked up on one way only. -/
  clear : ∀ b ∈ g.outlineOfAll builds, ∀ text ∈ b.bases, Spelled words text →
    (g.chartWith (g.outlineOfAll builds)).clear (g.options.maxAliasDepth + 1) b.chain (Dotted.parts text) = true

instance (words : List String) (g : Graph) (builds : List (EntityId × Module)) : Decidable (Commuting words g builds) :=
  decidable_of_iff (((∀ word ∈ words, IsSegment word) ∧ ∀ word ∈ words, Unnumbered word) ∧
      (∀ id ∈ g.ids, (g.entity id).name ∈ words) ∧ (builds.map Prod.fst).Perm g.ids ∧
      (∀ entry ∈ builds, ∀ site ∈ g.moduleSites entry.1 entry.2, site.Plain words entry.2.exported) ∧
      (∀ b ∈ g.outlineOfAll builds, b.Proper words) ∧
      (((g.outlineOfAll builds).filter fun b => b.name ∈ words).map Binding.key).Nodup ∧
      (∀ b ∈ g.outlineOfAll builds, b.isClass = true → (g.chart.held b.scope b.name).isNone = true) ∧
      ∀ b ∈ g.outlineOfAll builds, ∀ text ∈ b.bases, Spelled words text →
        (g.chartWith (g.outlineOfAll builds)).clear (g.options.maxAliasDepth + 1) b.chain (Dotted.parts text) = true)
    ⟨fun all => ⟨⟨all.1.1, all.1.2⟩, all.2.1, all.2.2.1, all.2.2.2.1, all.2.2.2.2.1, all.2.2.2.2.2.1, all.2.2.2.2.2.2.1,
      all.2.2.2.2.2.2.2⟩,
      fun commuting => ⟨⟨commuting.vocabulary.segment, commuting.vocabulary.unnumbered⟩, commuting.named,
        commuting.once, commuting.plain, commuting.proper, commuting.apart, commuting.free, commuting.clear⟩⟩

theorem Bare.held_ne_alias (bare : g.Bare) (scope name target : String) :
    g.chart.held scope name ≠ some (.alias target) := by
  intro held
  cases below : g.lookup (Dotted.extend scope name) with
  | some child =>
      rw [held_chart_of_child below] at held
      cases held
  | none =>
      cases above : g.lookup scope with
      | none =>
          rw [held_chart_of_missing below above] at held
          cases held
      | some id =>
          rw [held_chart_of_absent below above] at held
          by_cases inside : g.Has id
          · rw [(bare id inside).2.1] at held
            simp at held
          · rw [g.entity_of_not_has inside] at held
            simp [Entity.absent] at held

/-- Trees that do not depend on the order can be built in any order. -/
theorem Commuting.underway (commuting : g.Commuting words first) (perm : first.Perm builds) (bare : g.Bare)
    (charted : g.Charted words) (unclaimed : g.Unclaimed) (describes : ∀ hook ∈ hooks, hook.Describes)
    (among : g.outlineOfAll builds ⊆ outline) :
    Underway words outline (g.outlineOfAll builds) [] g (run g (building hooks builds)) := by
  have vocabulary := commuting.vocabulary
  have outlines : (g.outlineOfAll first).Perm (g.outlineOfAll builds) := perm.flatMap_right _
  have ids : (builds.map Prod.fst).Perm g.ids := (perm.map _).symm.trans commuting.once
  have present {id : EntityId} : id ∈ builds.map Prod.fst ↔ g.Has id := ids.mem_iff.trans g.mem_ids
  have inside {id : EntityId} (isModule : (g.entity id).type = .module) : g.Has id :=
    g.has_of_type (by rw [isModule]; decide)
  have once : (builds.map Prod.fst).Nodup :=
    ids.nodup_iff.mpr (List.nodup_range.map fun _ _ same => congrArg EntityId.index same)
  have fresh : Binding.Fresh words (g.outlineOfAll builds) g := by
    refine ⟨fun b given => commuting.proper b (outlines.mem_iff.mpr given),
      (((outlines.filter fun b => decide (b.name ∈ words)).map Binding.key).nodup_iff).mp commuting.apart,
      fun b given _ => ?_⟩
    unfold Binding.Free
    split
    · rename_i meaning
      exact Option.isNone_iff_eq_none.mp
        (commuting.free b (outlines.mem_iff.mpr given) (by simp [Binding.isClass, meaning]))
    · exact fun target => bare.held_ne_alias _ _ target
  have begun : Underway words outline [] (builds.map Prod.fst) g g := by
    refine ⟨⟨charted, fun id isClass => ?_, charted.widens_of_quiet vocabulary (.refl g), inside⟩, unclaimed,
      fun id todo => (bare id (present.mp todo)).2.2.2,
      fun id isModule left => absurd (present.mpr (inside isModule)) left⟩
    have isModule := (bare id (g.has_of_type (by rw [isClass]; decide))).1
    rw [isClass] at isModule
    cases isModule
  exact begun.run describes vocabulary charted once (fun entry given => commuting.plain entry (perm.mem_iff.mpr given))
    fresh among

/-- The class that a name leads to from a scope, if it is another one than `id`. -/
def leads? (g : Graph) (id parent : EntityId) (name : String) : Option EntityId :=
  (g.resolveIn parent name).filter fun found => found ≠ id ∧ (g.entity found).type = .class

theorem target_upgradeBase_eq (g : Graph) (id parent : EntityId) (base : Base) :
    (g.upgradeBase id parent base).target = base.target.or (g.leads? id parent base.text) := by
  unfold upgradeBase leads?
  cases known : base.target with
  | some target => simp [known]
  | none =>
      cases g.resolveIn parent base.text with
      | none => simp [known]
      | some found =>
          dsimp only
          by_cases fits : found ≠ id ∧ (g.entity found).type = .class
          · rw [if_pos fits, Option.none_or, Option.filter_some, decide_eq_true fits, if_pos rfl]
          · rw [if_neg fits, Option.none_or, Option.filter_some, decide_eq_false fits]
            exact known

/-- A graph whose modules are all built, with no import put off, is finished, and only bases are looked up. -/
theorem Underway.finish {done : List Binding} (underway : Underway words outline done [] g h) (bare : g.Bare) :
    ∃ k s, h.finish = .ok (k, s) ∧ Upgrading h k ∧ ∀ id, (k.entity id).type = .class → Answered h id k := by
  have built : h.pendingModules = [] := by
    refine List.filter_eq_nil_iff.mpr fun id among => ?_
    rw [underway.built id (h.mem_idsOfType.mp among).2 List.not_mem_nil]
    decide
  have pending {id : EntityId} (isModule : (h.entity id).type = .module) : (h.entity id).pending = [] := by
    have inside := underway.modules isModule
    rw [(underway.widens.entity inside).pending, (bare id inside).2.2.1]
  have finished : ∃ k s, h.finish = .ok (k, s) := by
    unfold Graph.finish
    rw [built]
    exact ⟨_, _, rfl⟩
  obtain ⟨k, s, finished⟩ := finished
  obtain ⟨resumed, _, _, _, stages⟩ := finish_stages finished
  -- No import waits, so the graph in which bases are looked up is the one that was built.
  have resume : tally resumeImports (h.idsOfType .module) h = (h, 0) :=
    tally_fixed fun _ member => resumeImports_eq_self (pending (h.mem_idsOfType.mp member).2)
  obtain rfl : h = resumed := congrArg Prod.fst (resume.symm.trans stages.resume)
  exact ⟨k, s, finished, stages.upgrading, fun id isClass => stages.answered isClass⟩

section finished

variable (vocabulary : Vocabulary words) (charted : h.Charted words)

include vocabulary charted

/-- The name of the class that a clear name leads to is on the chart. -/
theorem map_leads? {parent : EntityId} {name : String} (isClass : (h.entity id).type = .class)
    (spelled : Spelled words name)
    (clear : h.chart.clear (h.options.maxAliasDepth + 1) (h.scopeNames parent) (Dotted.parts name) = true) :
    (h.leads? id parent name).map h.fullName =
      (h.chart.leads? (h.options.maxAliasDepth + 1) (h.scopeNames parent) name).filter (· ≠ h.fullName id) := by
  rw [← charted.leads?_eq vocabulary spelled parent clear, leads?]
  cases h.resolveIn parent name with
  | none => rfl
  | some found =>
      by_cases type : (h.entity found).type = .class
      · have apart : h.fullName found = h.fullName id ↔ found = id :=
          ⟨charted.eq_of_fullName (by simp [Entity.isContainer, type]) (by simp [Entity.isContainer, isClass]),
            congrArg h.fullName⟩
        by_cases same : found = id <;> simp [Option.filter_some, type, isClass, same, apart]
      · simp [Option.filter_some, type]

/-- Whether a base was found before or is found when the graph is finished, it is what its text leads to. -/
theorem Stands.map_target {parent : EntityId} {base : Base} (stands : h.Stands words b id)
    (isClass : (h.entity id).type = .class) (around : h.scopeNames parent = b.chain)
    (among : base ∈ (h.entity id).slots) (spelled : Spelled words base.text)
    (clear : h.chart.clear (h.options.maxAliasDepth + 1) b.chain (Dotted.parts base.text) = true) :
    (h.upgradeBase id parent base).target.map h.fullName =
      (h.chart.leads? (h.options.maxAliasDepth + 1) b.chain base.text).filter (· ≠ h.fullName id) := by
  have scopes (scope : String) (inner : scope ∈ b.chain) := stands.spelled charted vocabulary inner
  have leads : (h.leads? id parent base.text).map h.fullName = _ :=
    map_leads? vocabulary charted isClass spelled (around ▸ clear)
  rw [around] at leads
  rw [target_upgradeBase_eq]
  cases known : base.target with
  | none => rw [Option.none_or, leads]
  | some target =>
      obtain ⟨apart, type, c, drawn, le, found⟩ := stands.found base among spelled target known
      have foundHere := Chart.leads?_mono vocabulary le drawn (charted.drawn vocabulary) scopes spelled clear
        (found (Chart.clear_anti vocabulary le drawn (charted.drawn vocabulary) scopes spelled clear))
      have other : h.fullName target ≠ h.fullName id := fun same => apart
        (charted.eq_of_fullName (by simp [Entity.isContainer, type]) (by simp [Entity.isContainer, isClass]) same)
      rw [Option.some_or, Option.map_some, foundHere, Option.filter_some, if_pos (by simpa using other)]

/-- In the finished graph a class has the bases that its binding has, and those that are spelled in the words are what
they lead to on the chart. -/
theorem Stands.finished (stands : h.Stands words b id) (isClass : (h.entity id).type = .class)
    (clear : ∀ text ∈ b.bases, Spelled words text →
      h.chart.clear (h.options.maxAliasDepth + 1) b.chain (Dotted.parts text) = true)
    (upgrading : Upgrading h k) (answered : Answered h id k) :
    List.Forall₂ (fun base text => base.text = text ∧ (Spelled words text → base.target.map k.fullName =
      (h.chart.leads? (h.options.maxAliasDepth + 1) b.chain text).filter (· ≠ h.fullName id)))
      (k.entity id).slots b.bases := by
  obtain ⟨parent, held, around⟩ := stands.above
  have texts : (h.entity id).slots.map Base.text = b.bases := by rw [Binding.bases, stands.texts]
  have textsBehind : (k.entity id).slots.map Base.text = b.bases := (upgrading.texts id).trans texts
  refine List.forall₂_iff_get.mpr ⟨?_, fun i below inside => ?_⟩
  · rw [← textsBehind, List.length_map]
  · have text : ((k.entity id).slots.get ⟨i, below⟩).text = b.bases.get ⟨i, inside⟩ := by
      simp [← textsBehind]
    refine ⟨text, fun spelled => ?_⟩
    obtain ⟨former, slot, sameText⟩ :
        ∃ former, (h.entity id).slots[i]? = some former ∧ former.text = b.bases.get ⟨i, inside⟩ := by
      have found : ((h.entity id).slots.map Base.text)[i]? = some (b.bases.get ⟨i, inside⟩) := by simp [texts]
      simpa [List.getElem?_map] using found
    have clearHere := clear _ (List.get_mem b.bases ⟨i, inside⟩) spelled
    rw [← sameText] at spelled clearHere ⊢
    have answer := answered parent i former held slot
      (charted.ignoresBases vocabulary spelled parent (around ▸ clearHere))
    have same : (k.entity id).slots.get ⟨i, below⟩ = h.upgradeBase id parent former := by
      simpa [List.getElem?_eq_getElem below] using answer
    rw [same, funext upgrading.rebased.sameTree.fullName]
    exact stands.map_target vocabulary charted isClass around (List.mem_of_getElem? slot) spelled clearHere

end finished

theorem Widens.le_of_same {f l : List Binding} (toFirst : Widens words f g h) (toLast : Widens words l g k)
    (same : ∀ scope word, word ∈ words → Binding.held l scope word = Binding.held f scope word) :
    h.chart.Le words k.chart where
  root member := (toLast.root member).trans (toFirst.root member).symm
  held spelled member found := by
    rw [toLast.held spelled member, same _ _ member, ← toFirst.held spelled member, found]

/-- The classes of a finished graph are those of another one, if all that was on the chart before is on the other. -/
theorem exists_class_of_le {h' k' : Graph} (vocabulary : Vocabulary words) (charted : h.Charted words)
    (other : k.Charted words) (le : h.chart.Le words k.chart) (rebased : Rebased h h') (rebasedOther : Rebased k k')
    {name : String} (found : ∃ c, (h'.entity c).type = .class ∧ h'.fullName c = name) :
    ∃ d, (k'.entity d).type = .class ∧ k'.fullName d = name := by
  obtain ⟨c, isClass, rfl⟩ := found
  rw [(rebased.entity c).type] at isClass
  rw [rebased.sameTree.fullName]
  have container : (h.entity c).isContainer = true := by simp [Entity.isContainer, isClass]
  have spelled := charted.spelled_fullName vocabulary container
  have type : h.chart.type? (h.fullName c) = some .class := by
    rw [type?_chart, charted.listed container, Option.map_some, isClass]
  have typeThere := Chart.type?_mono vocabulary le spelled type
  rw [type?_chart, Option.map_eq_some_iff] at typeThere
  obtain ⟨d, listed, typeThere⟩ := typeThere
  exact ⟨d, (rebasedOther.entity d).type.trans typeThere,
    (rebasedOther.sameTree.fullName d).trans (other.found spelled listed).2⟩

theorem Commuting.binding_eq {c : Binding} {other : EntityId} (commuting : g.Commuting words builds)
    (stands : h.Stands words b id) (standsOther : k.Stands words c other) (among : b ∈ g.outlineOfAll builds)
    (amongOther : c ∈ g.outlineOfAll builds) (same : h.fullName id = k.fullName other) : b = c := by
  have member : b.name ∈ words := (commuting.proper b among).name stands.isClass
  have memberOther : c.name ∈ words := (commuting.proper c amongOther).name standsOther.isClass
  rw [stands.full, standsOther.full] at same
  obtain ⟨scope, name⟩ := Dotted.extend_injective (commuting.vocabulary.segment _ member)
    (commuting.vocabulary.segment _ memberOther) same
  exact Binding.eq_of_key commuting.apart among amongOther member (Prod.ext scope name)

/-- The chart behind the builds has on it what the trees give, so the names of bases are clear there. -/
theorem Commuting.clear_chart (commuting : g.Commuting words builds)
    (underway : Underway words outline (g.outlineOfAll builds) [] g h) (stands : h.Stands words b id)
    (among : b ∈ g.outlineOfAll builds) {text : String} (base : text ∈ b.bases) (spelled : Spelled words text) :
    h.chart.clear (h.options.maxAliasDepth + 1) b.chain (Dotted.parts text) = true := by
  have vocabulary := commuting.vocabulary
  have drawn := underway.charted.drawn vocabulary
  have le : h.chart.Le words (g.chartWith (g.outlineOfAll builds)) :=
    ⟨fun member => (underway.widens.root member).symm,
      fun spelled member held => (underway.widens.held spelled member).symm.trans held⟩
  have ge : (g.chartWith (g.outlineOfAll builds)).Le words h.chart :=
    ⟨fun member => underway.widens.root member,
      fun spelled member held => (underway.widens.held spelled member).trans held⟩
  rw [underway.widens.options]
  exact Chart.clear_anti vocabulary le drawn (drawn.of_le vocabulary le ge)
    (fun scope inner => stands.spelled underway.charted vocabulary inner) spelled
    (commuting.clear b among text base spelled)

/-- Registered modules are built in two orders, none of them dependent on the order, and both graphs are finished.
Then the same full names are those of classes in both, and two classes of one full name have bases of the same
texts; those that are spelled in the words are the same class by full name in both graphs, or unknown in both. -/
theorem run_buildOrder {options : Options} {modules : List (String × Bool)}
    (describes : ∀ hook ∈ hooks, hook.Describes)
    (commuting : (run (empty options) (registering modules)).Commuting words first) (perm : first.Perm second) :
    ∃ h s k t, (run (run (empty options) (registering modules)) (building hooks first)).finish = .ok (h, s) ∧
      (run (run (empty options) (registering modules)) (building hooks second)).finish = .ok (k, t) ∧
      (∀ name, (∃ c, (h.entity c).type = .class ∧ h.fullName c = name) ↔
        ∃ d, (k.entity d).type = .class ∧ k.fullName d = name) ∧
      ∀ c d, (h.entity c).type = .class → (k.entity d).type = .class → h.fullName c = k.fullName d →
        List.Forall₂ (fun base other => base.text = other.text ∧
          (Spelled words base.text → base.target.map h.fullName = other.target.map k.fullName))
          (h.entity c).slots (k.entity d).slots := by
  have vocabulary := commuting.vocabulary
  have bare := bare_registering options modules
  have charted := charted_registering vocabulary options modules commuting.named
  have unclaimed : (run (empty options) (registering modules)).Unclaimed := unclaimed_run (admits_registering modules)
  generalize run (empty options) (registering modules) = g at *
  have outlines : (g.outlineOfAll first).Perm (g.outlineOfAll second) := perm.flatMap_right _
  have one := commuting.underway (List.Perm.refl _) bare charted unclaimed describes (List.Subset.refl _)
  have two := commuting.underway perm bare charted unclaimed describes outlines.symm.subset
  have drawn := one.charted.drawn vocabulary
  have drawnOther := two.charted.drawn vocabulary
  have same (scope word : String) (member : word ∈ words) := Binding.held_perm outlines commuting.apart member scope
  have le := one.widens.le_of_same two.widens same
  have ge := two.widens.le_of_same one.widens fun scope word member => (same scope word member).symm
  have budgets := one.widens.options.trans two.widens.options.symm
  obtain ⟨h, s, finished, upgrading, answered⟩ := one.finish bare
  obtain ⟨k, t, finishedOther, upgradingOther, answeredOther⟩ := two.finish bare
  have rebased := upgrading.rebased
  have rebasedOther := upgradingOther.rebased
  refine ⟨h, s, k, t, finished, finishedOther, fun name => ⟨?_, ?_⟩, fun c d isClass isClassOther names => ?_⟩
  · exact exists_class_of_le vocabulary one.charted two.charted le rebased rebasedOther
  · exact exists_class_of_le vocabulary two.charted one.charted ge rebasedOther rebased
  · have answers := answered c isClass
    have answersOther := answeredOther d isClassOther
    rw [(rebased.entity c).type] at isClass
    rw [(rebasedOther.entity d).type] at isClassOther
    rw [rebased.sameTree.fullName, rebasedOther.sameTree.fullName] at names
    -- A full name is bound once, so both classes stand as one binding has them.
    obtain ⟨b, among, stands⟩ := one.placed c isClass
    obtain ⟨b', among', standsOther⟩ := two.placed d isClassOther
    obtain rfl : b = b' := commuting.binding_eq stands standsOther among among' names
    have scopes (scope : String) (inner : scope ∈ b.chain) := stands.spelled one.charted vocabulary inner
    have clear (text : String) (base : text ∈ b.bases) (spelled : Spelled words text) :=
      commuting.clear_chart one stands among base spelled
    have clearOther (text : String) (base : text ∈ b.bases) (spelled : Spelled words text) :=
      Chart.clear_anti vocabulary ge drawnOther drawn scopes spelled (budgets ▸ clear text base spelled)
    have bases := stands.finished vocabulary one.charted isClass clear upgrading answers
    have basesOther := standsOther.finished vocabulary two.charted isClassOther clearOther upgradingOther answersOther
    refine List.forall₂_iff_get.mpr ⟨bases.length_eq.trans basesOther.length_eq.symm, fun i below belowOther => ?_⟩
    have inside := bases.length_eq ▸ below
    obtain ⟨text, target⟩ := bases.get below inside
    obtain ⟨textOther, targetOther⟩ := basesOther.get belowOther inside
    refine ⟨text.trans textOther.symm, fun spelled => ?_⟩
    rw [text] at spelled
    have written : b.bases.get ⟨i, inside⟩ ∈ b.bases := List.get_mem _ _
    have leads := Chart.leads?_eq vocabulary le drawn drawnOther scopes ge spelled
      (budgets ▸ clear _ written spelled) (clearOther _ written spelled)
    rw [target spelled, targetOther spelled, names, budgets, leads]

/-- A package with a module in it, and a module beside it. -/
def forebears : List (String × Bool) := [("p", true), ("p.a", false), ("m", false)]

/-- A class, and in another module two that derive from it, under another name and by its full name. -/
def heirs : List (EntityId × Module) :=
  [(⟨0⟩, { body := [] }),
    (⟨1⟩, { body :=
      [.classDef { name := "X", line := 1 } [.function { name := "run", line := 2 } []],
        .assign [.name "limit"] (.str "1") none 3] }),
    (⟨2⟩, { body :=
      [.imports [⟨"p.a", none⟩] 1, .importFrom (some "p.a") [⟨"X", some "Base"⟩] 0 2,
        .classDef { name := "Y", bases := [.name "Base", .name "object"], line := 3 }
          [.classDef { name := "Z", bases := [.name "Y", .attribute (.attribute (.name "p") "a") "X"], line := 4 } [],
            .function { name := "run", line := 5 } [.assign [.attribute (.name "self") "size"] (.str "1") none 6]]] })]

def heirWords : List String := ["p", "a", "m", "X", "Base", "Y", "Z", "object"]

/-- The full name of an entity and the full names of its bases. -/
def namesOf (g : Graph) (id : EntityId) : String × List (Option String) :=
  (g.fullName id, (g.entity id).slots.map fun base => base.target.map g.fullName)

/-- The bases are found when their module is built, or when the graph is finished. -/
theorem run_buildOrder_heir :
    ∃ h s k t,
      (run (run (empty {}) (registering forebears)) (building Hook.standard heirs)).finish = .ok (h, s) ∧
      (run (run (empty {}) (registering forebears)) (building Hook.standard heirs.reverse)).finish = .ok (k, t) ∧
      (∃ d, (k.entity d).type = .class ∧ k.fullName d = "m.Y.Z") ∧
      h.namesOf ⟨6⟩ = ("m.Y", [some "p.a.X", none]) ∧ h.namesOf ⟨7⟩ = ("m.Y.Z", [some "m.Y", some "p.a.X"]) ∧
      List.Forall₂ (fun base other => base.text = other.text ∧
        (Spelled heirWords base.text → base.target.map h.fullName = other.target.map k.fullName))
        (h.entity ⟨7⟩).slots (k.entity ⟨4⟩).slots := by
  have commuting : (run (empty {}) (registering forebears)).Commuting heirWords heirs := by decide +kernel
  have first : ∃ result ∈ (run (run (empty {}) (registering forebears)) (building Hook.standard heirs)).finish.toOption,
      ((result.1.entity ⟨7⟩).type = .class ∧ result.1.fullName ⟨7⟩ = "m.Y.Z") ∧
        result.1.namesOf ⟨6⟩ = ("m.Y", [some "p.a.X", none]) ∧
        result.1.namesOf ⟨7⟩ = ("m.Y.Z", [some "m.Y", some "p.a.X"]) := by
    decide +kernel
  have last : ∃ result ∈
      (run (run (empty {}) (registering forebears)) (building Hook.standard heirs.reverse)).finish.toOption,
      (result.1.entity ⟨4⟩).type = .class ∧ result.1.fullName ⟨4⟩ = "m.Y.Z" := by
    decide +kernel
  obtain ⟨h, s, k, t, finished, finishedLast, names, bases⟩ :=
    run_buildOrder Hook.describes_standard commuting (List.reverse_perm heirs).symm
  obtain ⟨result, found, inner, outer, written⟩ := first
  obtain ⟨resultLast, foundLast, isClassLast, namedLast⟩ := last
  obtain rfl : (h, s) = result := Except.ok.inj (finished.symm.trans (eq_ok_of_toOption found))
  obtain rfl : (k, t) = resultLast := Except.ok.inj (finishedLast.symm.trans (eq_ok_of_toOption foundLast))
  exact ⟨h, s, k, t, finished, finishedLast, (names "m.Y.Z").mp ⟨⟨7⟩, inner⟩, outer, written,
    bases ⟨7⟩ ⟨4⟩ inner.1 isClassLast (inner.2.trans namedLast.symm)⟩

/-- A module with a class, two that export it, and one that derives a class from it. -/
def rivals : List Call :=
  [.addModule "a" false, .addModule "n" false, .addModule "k" false, .addModule "m" false]

def buildClass : Call := .build Hook.standard ⟨0⟩ (.ok { body := [.classDef { name := "X", line := 1 } []] })

def buildExporting (id : EntityId) : Call :=
  .build Hook.standard id (.ok
    { body :=
        [.assign [.name "__all__"] (.list [.str "X"]) none 1, .importFrom (some "a") [⟨"X", none⟩] 0 2] })

def buildHeir (own : String) : Call :=
  .build Hook.standard ⟨3⟩ (.ok
    { body :=
        [.importFrom (some "a") [⟨"X", none⟩] 0 1,
          .classDef { name := own, bases := [.name "X"], line := 2 } []] })

/-- The class goes to the module that is built first of the two that export it, and a class that takes
its name has it as its base only if its module is built behind them. -/
theorem run_orderDecides :
    ((run (empty {}) (rivals ++ [buildClass, buildExporting ⟨1⟩, buildExporting ⟨2⟩,
        buildHeir "X"])).finish.toOption.map fun result => (result.1.namesOf ⟨4⟩, result.1.namesOf ⟨5⟩)) =
      some (("n.X", []), ("m.X", [some "n.X"])) ∧
    ((run (empty {}) (rivals ++ [buildClass, buildExporting ⟨2⟩, buildExporting ⟨1⟩,
        buildHeir "X"])).finish.toOption.map fun result => (result.1.namesOf ⟨4⟩, result.1.namesOf ⟨5⟩)) =
      some (("k.X", []), ("m.X", [some "k.X"])) ∧
    ((run (empty {}) (rivals ++ [buildHeir "X", buildClass, buildExporting ⟨1⟩,
        buildExporting ⟨2⟩])).finish.toOption.map fun result =>
          (result.1.namesOf ⟨5⟩, result.1.namesOf ⟨4⟩)) =
      some (("n.X", []), ("m.X", [none])) := by
  decide +kernel

end Graph

end DocGraph
