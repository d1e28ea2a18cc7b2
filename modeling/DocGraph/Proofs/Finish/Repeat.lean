import DocGraph.Proofs.Finish.Finished

namespace DocGraph

namespace Entity

theorem modifyModule_eq_self {e : Entity} {f : ModuleInfo → ModuleInfo}
    (fixed : ∀ info, e.module? = some info → f info = info) : e.modifyModule f = e := by
  unfold modifyModule
  split
  · rename_i info payload
    rw [fixed info (by simp [module?, payload]), ← payload]
  · rfl

theorem modifyClass_eq_self {e : Entity} {f : ClassInfo → ClassInfo}
    (fixed : ∀ info, e.class? = some info → f info = info) : e.modifyClass f = e := by
  unfold modifyClass
  split
  · rename_i info payload
    rw [fixed info (by simp [class?, payload]), ← payload]
  · rfl

end Entity

namespace Graph

variable {g h k : Graph} {id parent : EntityId}

theorem modify_eq_self {f : Entity → Entity} (fixed : f (g.entity id) = g.entity id) :
    g.modify id f = g := by
  have entities : g.entities.modify id.index f = g.entities := by
    refine Array.ext (by simp) fun i _ bound => ?_
    rw [Array.getElem_modify]
    split
    · rename_i same
      subst same
      simpa [entity, bound] using fixed
    · rfl
  rw [modify, entities]

section tally

variable {α : Type} {step : Graph → α → Graph × Nat} {items : List α}

theorem tally_fixed (fixed : ∀ item ∈ items, step g item = (g, 0)) : tally step items g = (g, 0) := by
  induction items with
  | nil => rfl
  | cons item rest ih =>
      have later := ih fun item member => fixed item (List.mem_cons_of_mem _ member)
      simp [tally_cons, fixed item List.mem_cons_self, later]

/-- If steps that count nothing change nothing, a count of zero means that no step changes anything. -/
theorem fixed_of_tally (inert : ∀ k item, (step k item).2 = 0 → (step k item).1 = k)
    (none : (tally step items g).2 = 0) : ∀ item ∈ items, step g item = (g, 0) := by
  induction items with
  | nil => simp
  | cons first rest ih =>
      rw [tally_cons, Nat.add_eq_zero_iff] at none
      have same := inert g first none.1
      rw [same] at none
      intro item member
      rcases List.mem_cons.mp member with rfl | later
      · exact Prod.ext same none.1
      · exact ih none.2 item later

end tally

/-- A name leads to a class that could be a base. -/
def Finds (g : Graph) (id parent : EntityId) (text : String) : Prop :=
  ∃ found, g.resolveIn parent text = some found ∧ found ≠ id ∧ (g.entity found).type = .class

/-- The name of an unknown base leads to a class that could be the base. -/
def Findable (g : Graph) (id parent : EntityId) (base : Base) : Prop :=
  base.target = none ∧ g.Finds id parent base.text

/-- No unknown base of any class can be found. -/
def Exhausted (g : Graph) : Prop :=
  ∀ {id parent}, (g.entity id).parent = some parent → ∀ base ∈ (g.entity id).baseLists.unknown,
    ¬ g.Finds id parent base.2

theorem upgradeBase_of_not_findable {base : Base} (lost : ¬ g.Findable id parent base) :
    g.upgradeBase id parent base = base :=
  upgradeBase_of_missing fun target unknown resolved fits => lost ⟨unknown, target, resolved, fits⟩

theorem target_upgradeBase_of_findable {base : Base} (findable : g.Findable id parent base) :
    (g.upgradeBase id parent base).target.isSome := by
  obtain ⟨unknown, target, resolved, fits⟩ := findable
  simp [upgradeBase_of_found unknown resolved fits]

theorem foundBases_eq_nil_iff {bases : BaseLists} :
    g.foundBases id parent bases = [] ↔ ∀ base ∈ bases.unknown, ¬ g.Finds id parent base.2 := by
  rw [foundBases, List.filterMap_eq_nil_iff]
  refine forall₂_congr fun base _ => ⟨fun missing finds => ?_, fun lost => ?_⟩
  · obtain ⟨target, resolved, fits⟩ := finds
    have found : g.foundBase? id parent base = some (base.1, target) := foundBase?_eq_some.mpr ⟨resolved, rfl, fits⟩
    cases missing.symm.trans found
  · refine Option.eq_none_iff_forall_ne_some.mpr fun found some => lost ?_
    obtain ⟨resolved, _, fits⟩ := foundBase?_eq_some.mp some
    exact ⟨found.2, resolved, fits⟩

/-- Looking up the bases of a class counts nothing exactly if no base can be found, and then leaves
the graph as it is. -/
theorem count_upgradeBases_eq_zero_iff :
    (g.upgradeBases id).2 = 0 ↔ ∀ {parent}, (g.entity id).parent = some parent →
      ∀ base ∈ (g.entity id).baseLists.unknown, ¬ g.Finds id parent base.2 := by
  cases found : (g.entity id).class? with
  | none => simp [upgradeBases, Entity.baseLists, found, BaseLists.unknown]
  | some info =>
      cases above : (g.entity id).parent with
      | none => simp [upgradeBases, above]
      | some parent => simp [upgradeBases, Entity.baseLists, found, above, foundBases_eq_nil_iff]

theorem upgradeBases_eq_self (none : (g.upgradeBases id).2 = 0) : (g.upgradeBases id).1 = g := by
  rcases upgradeBases_cases g id with equal | ⟨parent, above, equal⟩
  · exact equal
  · rw [equal]
    refine modify_eq_self (Entity.modifyClass_eq_self fun info found => ?_)
    have bases : (g.entity id).baseLists = info.bases := by simp [Entity.baseLists, found]
    rw [upgraded, foundBases_eq_nil_iff.mpr (count_upgradeBases_eq_zero_iff.mp none above), bases]
    rfl

theorem count_tally_upgradeBases_eq_zero_iff :
    (tally upgradeBases (g.idsOfType .class) g).2 = 0 ↔ g.Exhausted := by
  constructor
  · intro none id parent above base among
    have isClass : (g.entity id).type = .class := by
      by_contra other
      simp [Entity.baseLists, (g.entity id).class?_eq_none other, BaseLists.unknown] at among
    have fixed := fixed_of_tally (fun _ _ => upgradeBases_eq_self) none id
      (g.mem_idsOfType.mpr ⟨g.has_of_parent above, isClass⟩)
    refine count_upgradeBases_eq_zero_iff.mp ?_ above base among
    rw [fixed]
  · intro exhausted
    have none (id : EntityId) : (g.upgradeBases id).2 = 0 := count_upgradeBases_eq_zero_iff.mpr exhausted
    rw [tally_fixed fun id _ => Prod.ext (upgradeBases_eq_self (none id)) (none id)]

theorem resumeImports_eq_self (none : (g.entity id).pending = []) : g.resumeImports id = (g, 0) := by
  have same : g.modify id (Entity.modifyModule fun info => { info with pending := [] }) = g := by
    refine modify_eq_self (Entity.modifyModule_eq_self fun info found => ?_)
    rw [Entity.pending, found] at none
    cases info
    cases none
    rfl
  rw [Entity.pending] at none
  simp [resumeImports, none, same]

namespace Finished

variable (finished : g.Finished)

include finished

theorem resume_eq : tally resumeImports (g.idsOfType .module) g = (g, 0) :=
  tally_fixed fun _ member => resumeImports_eq_self (finished.pending (g.mem_idsOfType.mp member).2)

theorem link_eq (classes : List EntityId) : tally linkSubclasses classes g = (g, 0) := by
  refine tally_fixed fun id _ => tally_fixed fun base among => ?_
  unfold linkSubclass
  split
  · rfl
  · rename_i info found
    have isClass : (g.entity base).type = .class := (g.entity base).class?_isSome.mp (by simp [found])
    have listed := finished.listed among isClass
    rw [Entity.subclasses, found] at listed
    exact if_pos listed

theorem order_eq : tally (refreshMro false) (g.idsOfType .class) g = (g, 0) := by
  refine tally_fixed fun id member => ?_
  have stored := finished.stored (g.mem_idsOfType.mp member).2
  simp [refreshMro, Option.isSome_iff_ne_none.mp stored]

theorem tag_eq : tally tagException (g.idsOfType .class) g = (g, 0) := by
  refine tally_fixed fun id member => if_neg ?_
  rintro ⟨plain, descends⟩
  rw [finished.marked (g.mem_idsOfType.mp member).2 plain] at descends
  cases descends

variable {resumed upgraded linked ordered : Graph} {t : Summary}
  (stages : Stages g resumed upgraded linked ordered k t)

include stages

theorem resumed_eq : resumed = g ∧ t.reexports = 0 := by
  have equal := stages.resume.symm.trans finished.resume_eq
  exact ⟨congrArg Prod.fst equal, congrArg Prod.snd equal⟩

theorem resolvedBases_eq_zero_iff : t.resolvedBases = 0 ↔ g.Exhausted := by
  rw [← count_tally_upgradeBases_eq_zero_iff]
  have upgrade := stages.upgrade
  rw [(finished.resumed_eq stages).1] at upgrade
  rw [upgrade]

theorem eq_of_exhausted (exhausted : g.Exhausted) : k = g ∧ t = {} := by
  obtain ⟨rfl, reexports⟩ := finished.resumed_eq stages
  have bases := (finished.resolvedBases_eq_zero_iff stages).mpr exhausted
  have none (id : EntityId) : (resumed.upgradeBases id).2 = 0 :=
    count_upgradeBases_eq_zero_iff.mpr exhausted
  have upgrade : tally upgradeBases (resumed.idsOfType .class) resumed = (resumed, 0) :=
    tally_fixed fun id _ => Prod.ext (upgradeBases_eq_self (none id)) (none id)
  obtain ⟨rfl, _⟩ := Prod.mk.inj (stages.upgrade.symm.trans upgrade)
  obtain ⟨rfl, links⟩ := Prod.mk.inj (stages.link.symm.trans (finished.link_eq _))
  have order := stages.order
  rw [bases] at order
  obtain ⟨rfl, orders⟩ := Prod.mk.inj (order.symm.trans finished.order_eq)
  obtain ⟨rfl, exceptions⟩ := Prod.mk.inj (stages.tag.symm.trans finished.tag_eq)
  refine ⟨rfl, ?_⟩
  cases t
  exact congr (congr (congr (congrArg₂ Summary.mk reexports bases) links) orders) exceptions

end Finished

/-- Finishing a finished graph succeeds and moves nothing. It counts nothing exactly if no unknown
base can be found, and then it is the same graph behind it. -/
theorem finish_finish {s : Summary} (finished : g.finish = .ok (h, s)) :
    ∃ k t, h.finish = .ok (k, t) ∧ t.reexports = 0 ∧ (t.isNoop = true ↔ h.Exhausted) ∧
      (h.Exhausted → k = h) := by
  obtain ⟨_, _, _, _, first⟩ := finish_stages finished
  have settled := first.finished
  obtain ⟨⟨k, t⟩, again⟩ : ∃ result, h.finish = .ok result := by simp [finish, settled.built]
  obtain ⟨_, _, _, _, second⟩ := finish_stages again
  refine ⟨k, t, again, (settled.resumed_eq second).2, ⟨fun noop => ?_, fun exhausted => ?_⟩,
    fun exhausted => (settled.eq_of_exhausted second exhausted).1⟩
  · rw [← settled.resolvedBases_eq_zero_iff second, eq_of_beq noop]
  · rw [(settled.eq_of_exhausted second exhausted).2]
    rfl

/-- The base of the first class is a member that the second class inherits from the third. It is looked
up before the base of the second class is known. -/
def inheritedBase : List Call :=
  [.addModule "m" false,
    .build Hook.standard ⟨0⟩ (.ok
      { body :=
          [.classDef { name := "B", bases := [.attribute (.name "A") "Inner"], line := 1 } [],
            .classDef { name := "A", bases := [.name "C"], line := 2 } [],
            .classDef { name := "C", line := 3 } [.classDef { name := "Inner", line := 4 } []]] })]

/-- The second run finds the base that the first has missed. -/
theorem finish_finish_inheritedBase :
    ∃ h s k t, (run (empty {}) inheritedBase).finish = .ok (h, s) ∧ h.finish = .ok (k, t) ∧
      t.reexports = 0 ∧ (t.isNoop = true ↔ h.Exhausted) ∧ t.resolvedBases = 1 ∧ ¬ h.Exhausted := by
  have found : ((run (empty {}) inheritedBase).finish.bind fun first =>
      first.1.finish.map fun second => second.2.resolvedBases).toOption = some 1 := by decide +kernel
  cases first : (run (empty {}) inheritedBase).finish with
  | error refusal =>
      rw [first] at found
      cases found
  | ok result =>
      obtain ⟨k, t, again, reexports, noop, _⟩ := finish_finish first
      rw [first] at found
      simp only [Except.bind, again, Except.map, Except.toOption, Option.some.injEq] at found
      refine ⟨_, _, k, t, rfl, again, reexports, noop, found, fun exhausted => ?_⟩
      rw [eq_of_beq (noop.mpr exhausted)] at found
      cases found

end Graph

end DocGraph
