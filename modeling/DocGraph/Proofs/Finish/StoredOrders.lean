import DocGraph.Proofs.Finish.Repeat
import DocGraph.Proofs.Run.Orders

namespace DocGraph

namespace Graph

variable {g h k : Graph} {id : EntityId} {all : Bool}

/-- The graphs differ in orders that were computed in the first of them. -/
structure Refreshing (g h : Graph) : Prop where
  type : ∀ id, (h.entity id).type = (g.entity id).type
  bases : ∀ id, h.basesOf id = g.basesOf id
  mro : ∀ id, h.mroOf? id = g.mroOf? id ∨ h.mroOf? id = some (g.storedMro id)

namespace Refreshing

theorem refl (g : Graph) : Refreshing g g := ⟨fun _ => rfl, fun _ => rfl, fun _ => .inl rfl⟩

theorem storedMro (refreshing : Refreshing g h) (id : EntityId) : h.storedMro id = g.storedMro id :=
  storedMro_of_basesOf refreshing.bases id

theorem trans (first : Refreshing g h) (second : Refreshing h k) : Refreshing g k := by
  refine ⟨fun id => (second.type id).trans (first.type id), fun id => (second.bases id).trans (first.bases id),
    fun id => ?_⟩
  rcases second.mro id with same | computed
  · rw [same]
    exact first.mro id
  · rw [computed, first.storedMro]
    exact .inr rfl

theorem current (refreshing : Refreshing g h) (current : g.mroOf? id = some (g.storedMro id)) :
    h.mroOf? id = some (h.storedMro id) := by
  rw [refreshing.storedMro]
  rcases refreshing.mro id with same | computed
  · rw [same, current]
  · exact computed

end Refreshing

theorem mroOf?_reportMro (g : Graph) (id other : EntityId) : (g.reportMro id).mroOf? other = g.mroOf? other := by
  rw [mroOf?, entity_reportMro, mroOf?]

theorem refreshing_refreshMro (all : Bool) (g : Graph) (id : EntityId) :
    Refreshing g (refreshMro all g id).1 := by
  have described := described_refreshMro g id all
  refine ⟨fun other => (described.entity other).type, fun other => ?_, fun other => ?_⟩
  · rw [basesOf_eq, (described.entity other).baseLists, basesOf_eq]
  · unfold refreshMro
    split
    · rcases updateMro_cases g id with ⟨_, equal⟩ | equal
      · rw [equal, mroOf?_reportMro]
        exact .inl rfl
      · rw [equal, mroOf?_modify_modifyClass, mroOf?_reportMro]
        split
        · rename_i here
          rw [here.1]
          exact .inr rfl
        · exact .inl rfl
    · exact .inl rfl

theorem mroOf?_refreshMro_self (isClass : (g.entity id).type = .class)
    (due : all = true ∨ g.mroOf? id = none) :
    (refreshMro all g id).1.mroOf? id = some (g.storedMro id) := by
  rw [refreshMro, if_pos (by simpa using due)]
  rcases updateMro_cases g id with ⟨current, equal⟩ | equal
  · rw [equal, mroOf?_reportMro]
    exact current isClass
  · rw [equal, mroOf?_modify_modifyClass, entity_reportMro, if_pos ⟨rfl, isClass⟩]

/-- Behind all turns every class has its order, if those left alone had theirs. -/
theorem current_tally_refreshMro {classes : List EntityId} (ordered : all = false → g.Ordered)
    (isClass : (g.entity id).type = .class) (member : id ∈ classes) :
    (tally (refreshMro all) classes g).1.mroOf? id =
      some ((tally (refreshMro all) classes g).1.storedMro id) := by
  refine tally_establishes
    (p := fun id k => (g.entity id).type = .class → k.mroOf? id = some (k.storedMro id)) .refl .trans
    (refreshing_refreshMro all) (fun step current isClass => step.current (current isClass))
    (fun k before id _ isClass => ?_) id member isClass
  have step := refreshing_refreshMro all k id
  by_cases due : all = true ∨ k.mroOf? id = none
  · rw [step.storedMro]
    exact mroOf?_refreshMro_self ((before.type id).trans isClass) due
  · rw [not_or, Bool.not_eq_true] at due
    refine step.current ?_
    rw [before.storedMro]
    rcases before.mro id with same | computed
    · obtain ⟨order, stored⟩ := Option.ne_none_iff_exists'.mp due.2
      rw [stored, (ordered due.1).current (same.symm.trans stored)]
    · exact computed

theorem orderly_linkSubclasses (g : Graph) (id : EntityId) : Orderly g (g.linkSubclasses id).1 := by
  refine tally_related .refl .trans (fun g base => ?_) _ g
  refine ⟨fun other => ?_, fun _ => (linking_linkSubclass g id base).basesOf _⟩
  rcases linkSubclass_cases g id base with equal | ⟨_, _, equal⟩
  · rw [equal]
  · rw [equal]
    exact mroOf?_modify_of_kept (by intro; rfl) other

theorem upgraded_of_count_eq_zero (none : (tally upgradeBases (g.idsOfType .class) g).2 = 0) :
    (tally upgradeBases (g.idsOfType .class) g).1 = g := by
  rw [tally_fixed (fixed_of_tally (fun _ _ => upgradeBases_eq_self) none)]

namespace Stages

variable {resumed upgraded linked ordered : Graph} {s : Summary}
  (stages : Stages g resumed upgraded linked ordered h s)

include stages

/-- As long as no base becomes known, the orders of before stay current. -/
theorem ordered_linked (before : g.Ordered) (none : s.resolvedBases = 0) : linked.Ordered := by
  have same : upgraded = resumed := by
    have upgrade := upgraded_of_count_eq_zero (g := resumed) (by rw [stages.upgrade, none])
    rwa [stages.upgrade] at upgrade
  have linking := tally_related .refl .trans orderly_linkSubclasses (resumed.idsOfType .class) upgraded
  rw [stages.link, same] at linking
  exact ((Orderly.of_class? stages.resuming.class?).trans linking).ordered before

theorem current (before : g.Ordered) (isClass : (h.entity id).type = .class) :
    h.mroOf? id = some (h.storedMro id) := by
  have type : (linked.entity id).type = .class := by
    rwa [← (stages.ordering.steady.entity id).type, ← (stages.tagging.ordering.steady.entity id).type]
  have kept (quiet : (s.resolvedBases != 0) = false) : linked.Ordered :=
    stages.ordered_linked before (by simpa using quiet)
  have computed := current_tally_refreshMro kept type (stages.mem_classes isClass)
  rw [stages.order] at computed
  have tagged : Orderly ordered h := .of_class? stages.tagging.class?
  have bases (id : EntityId) : h.basesOf id = ordered.basesOf id := by
    rw [basesOf, Entity.bases_eq, stages.tagging.class?, basesOf, Entity.bases_eq]
  rw [tagged.mro, storedMro_of_basesOf bases]
  exact computed

theorem ordered_behind (sound : g.Sound) (isLinked : g.Linked) (before : g.Ordered) : h.Ordered := by
  have linkedBehind := (stages.path sound).linked isLinked
  refine ⟨fun {id order} stored => ?_, fun {id base} _ among => ?_⟩
  · have current := stages.current before (type_of_mroOf? stored)
    exact Option.some.inj (stored.symm.trans current)
  · rw [stages.current before (linkedBehind.classes among).2]
    rfl

end Stages

theorem ordered_apply {call : Call} (tells : call.Tells) (sound : g.Sound) (linked : g.Linked)
    (ordered : g.Ordered) : (call.apply g).Ordered := by
  have outcome := call.outcome_apply g
  generalize call.apply g = h at outcome ⊢
  by_cases last : call = .finish
  · subst last
    cases outcome with
    | refused => exact ordered
    | finish finished =>
        obtain ⟨_, _, _, _, stages⟩ := finish_stages finished
        exact stages.ordered_behind sound linked ordered
  · exact (outcome.orderly last tells).ordered ordered

/-- Behind a call that finishes a graph, a class has an order: the one computed from its bases as they
are, or the depth-first one if there is none. -/
theorem run_finish_orders (options : Options) (calls : List Call) (admits : (empty options).Admits calls)
    (tells : ∀ call ∈ calls, call.Tells) {h : Graph} {s : Summary}
    (finished : (run (empty options) calls).finish = .ok (h, s)) (id : EntityId)
    (isClass : (h.entity id).type = .class) :
    ∃ order, h.mroOf? id = some order ∧ (∀ computed, h.computeMro id = .ok computed → order = computed) ∧
      ∀ reason, h.computeMro id = .error reason → order = h.depthFirstBases id := by
  have before := run_induction (sound_empty options) (linked_empty options) admits
    (fun among sound linked _ => ordered_apply (tells _ among) sound linked) (ordered_empty options)
  obtain ⟨_, _, _, _, stages⟩ := finish_stages finished
  refine ⟨_, stages.current before isClass, fun computed succeeds => ?_, fun reason fails => ?_⟩
  · rw [storedMro, succeeds]
  · rw [storedMro, fails]

/-- The base of the first class is found when the graph is finished once more, and the last class
inherits from two that disagree on the order of their bases. -/
def lateBase : List Call :=
  [.addModule "m" false,
    .build Hook.standard ⟨0⟩ (.ok
      { body :=
          [.classDef { name := "B", bases := [.attribute (.name "A") "Inner"], line := 1 } [],
            .classDef { name := "A", bases := [.name "C"], line := 2 } [],
            .classDef { name := "C", line := 3 } [.classDef { name := "Inner", line := 4 } []],
            .classDef { name := "P", line := 5 } [],
            .classDef { name := "Q", line := 6 } [],
            .classDef { name := "R", bases := [.name "P", .name "Q"], line := 7 } [],
            .classDef { name := "S", bases := [.name "Q", .name "P"], line := 8 } [],
            .classDef { name := "T", bases := [.name "R", .name "S"], line := 9 } []] }),
    .finish]

theorem run_lateBase_orders :
    (empty {}).Admits lateBase ∧ (∀ call ∈ lateBase, call.Tells) ∧
      (run (empty {}) lateBase).mroOf? ⟨1⟩ = some [⟨1⟩] ∧
      ∃ h s, (run (empty {}) lateBase).finish = .ok (h, s) ∧ (h.entity ⟨1⟩).type = .class ∧
        (h.entity ⟨9⟩).type = .class ∧ h.mroOf? ⟨1⟩ = some [⟨1⟩, ⟨4⟩] ∧
        h.mroOf? ⟨9⟩ = some [⟨9⟩, ⟨7⟩, ⟨5⟩, ⟨6⟩, ⟨8⟩] := by
  have admits : (empty {}).Admits lateBase := ⟨trivial, Hook.describes_standard, trivial, trivial⟩
  have tells : ∀ call ∈ lateBase, call.Tells := by
    simpa [lateBase, Call.Tells] using Hook.tells_standard
  have found : ((run (empty {}) lateBase).finish.map fun finished =>
      ([(finished.1.entity ⟨1⟩).type, (finished.1.entity ⟨9⟩).type],
        [(finished.1.computeMro ⟨1⟩).toOption, (finished.1.computeMro ⟨9⟩).toOption],
        finished.1.depthFirstBases ⟨9⟩)).toOption =
      some ([.class, .class], [some [⟨1⟩, ⟨4⟩], none], [⟨9⟩, ⟨7⟩, ⟨5⟩, ⟨6⟩, ⟨8⟩]) := by decide +kernel
  refine ⟨admits, tells, by decide +kernel, ?_⟩
  cases finished : (run (empty {}) lateBase).finish with
  | error refusal =>
      rw [finished] at found
      cases found
  | ok result =>
      obtain ⟨h, s⟩ := result
      simp only [finished, Except.map, Except.toOption, Option.some.injEq, Prod.mk.injEq, List.cons.injEq,
        and_true] at found
      obtain ⟨⟨first, last⟩, ⟨computed, failed⟩, depthFirst⟩ := found
      obtain ⟨order, stored, current, _⟩ := run_finish_orders {} lateBase admits tells finished ⟨1⟩ first
      obtain ⟨order', stored', _, instead⟩ := run_finish_orders {} lateBase admits tells finished ⟨9⟩ last
      refine ⟨h, s, rfl, first, last, ?_, ?_⟩
      · rw [stored, current _ (eq_ok_of_toOption computed)]
      · cases result : h.computeMro ⟨9⟩ with
        | error reason => rw [stored', instead reason result, depthFirst]
        | ok order =>
            rw [result] at failed
            cases failed

end Graph

end DocGraph
