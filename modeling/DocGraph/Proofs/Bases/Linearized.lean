import DocGraph.Proofs.Bases.Search
import DocGraph.Proofs.Run.Trace

namespace DocGraph.Graph

open Linearization (Consistent Joins Merges joins_merge mem_merge merge merge_eq_none merge_isSome_iff merges_merge)

variable {g : Graph} {id base upper : EntityId} {order : List EntityId} {orders : List (List EntityId)}

/-- The order lists what a class descends from, the class itself first. Each class comes once, in front of
its bases, and these come as they are declared. -/
structure Linearizes (g : Graph) (id : EntityId) (order : List EntityId) : Prop where
  first : order.head? = some id
  nodup : order.Nodup
  reached : ∀ upper, upper ∈ order ↔ g.Descends id upper
  declared : ∀ upper ∈ order, (upper :: g.basesOf upper).Sublist order

theorem Linearizes.mem_self (linearizes : g.Linearizes id order) : id ∈ order :=
  (linearizes.reached id).mpr .refl

/-- A class in front of the merged orders of its bases is an order, if no base leads back to it. -/
theorem linearizes_merge {rest : List EntityId}
    (above : ∀ base ∈ g.basesOf id, ∃ inherited ∈ orders, g.Linearizes base inherited)
    (only : ∀ inherited ∈ orders, ∃ base ∈ g.basesOf id, g.Linearizes base inherited)
    (off : ∀ inherited ∈ orders, id ∉ inherited) (merged : merge (orders ++ [g.basesOf id]) = some rest) :
    g.Linearizes id (id :: rest) := by
  have joins := joins_merge merged
  have inherits {inherited : List EntityId} (listed : inherited ∈ orders) : inherited.Sublist rest :=
    joins.keeps inherited (List.mem_append_left _ listed)
  have bases : (g.basesOf id).Sublist rest := joins.keeps _ (by simp)
  -- A base stands in its own order, so every class behind the first comes from the order of some base.
  have behind : ∀ {upper}, upper ∈ rest → ∃ inherited ∈ orders, upper ∈ inherited := by
    intro upper member
    obtain ⟨seq, listed, within⟩ := (mem_merge merged).mp member
    rcases List.mem_append.mp listed with inherited | last
    · exact ⟨seq, inherited, within⟩
    · rw [List.mem_singleton.mp last] at within
      obtain ⟨inherited, listed, linearizes⟩ := above upper within
      exact ⟨inherited, listed, linearizes.mem_self⟩
  refine ⟨rfl, List.nodup_cons.mpr ⟨fun member => ?_, joins.nodup⟩, fun upper => ?_, ?_⟩
  · obtain ⟨inherited, listed, within⟩ := behind member
    exact off inherited listed within
  · rw [List.mem_cons]
    constructor
    · rintro (rfl | member)
      · exact .refl
      · obtain ⟨inherited, listed, within⟩ := behind member
        obtain ⟨base, among, linearizes⟩ := only inherited listed
        exact .head among ((linearizes.reached upper).mp within)
    · intro descends
      rcases Relation.ReflTransGen.cases_head descends with same | ⟨base, among, rest⟩
      · exact .inl same.symm
      · obtain ⟨inherited, listed, linearizes⟩ := above base among
        exact .inr ((inherits listed).mem ((linearizes.reached upper).mpr rest))
  · rw [List.forall_mem_cons]
    refine ⟨bases.cons_cons id, fun upper member => ?_⟩
    obtain ⟨inherited, listed, within⟩ := behind member
    obtain ⟨base, _, linearizes⟩ := only inherited listed
    exact ((linearizes.declared upper within).trans (inherits listed)).cons id

theorem linearizes_computeMro (computed : g.computeMro id = .ok order) : g.Linearizes id order := by
  -- The orders of the bases are part of what comes behind the class, so they are shorter.
  induction length : order.length using Nat.strong_induction_on generalizing id order with
  | h n shorter =>
      obtain ⟨orders, rest, found, off, merged, rfl⟩ := computeMro_eq_ok computed
      have known : ∀ {base inherited}, inherited ∈ orders → g.computeMro base = .ok inherited →
          g.Linearizes base inherited := by
        intro base inherited listed computed
        have within := ((joins_merge merged).keeps inherited (List.mem_append_left _ listed)).length_le
        rw [List.length_cons] at length
        exact shorter inherited.length (by omega) computed rfl
      refine linearizes_merge (fun base among => ?_) (fun inherited listed => ?_) off merged
      · obtain ⟨inherited, listed, computed⟩ := found.each base among
        exact ⟨inherited, listed, known listed computed⟩
      · obtain ⟨base, among, computed⟩ := found.only inherited listed
        exact ⟨base, among, known listed computed⟩

theorem inherits_computeMro (computed : g.computeMro id = .ok order) (among : g.Extends id base) :
    ∃ inherited, g.computeMro base = .ok inherited ∧ inherited.Sublist order.tail := by
  obtain ⟨orders, rest, found, _, merged, rfl⟩ := computeMro_eq_ok computed
  obtain ⟨inherited, listed, above⟩ := found.each base among
  exact ⟨inherited, above, (joins_merge merged).keeps inherited (List.mem_append_left _ listed)⟩

/-- An order that is computed is an order of the class, and one can read the orders of its bases off it. -/
theorem computeMro_linearizes (computed : g.computeMro id = .ok order) :
    g.Linearizes id order ∧
      ∀ base ∈ g.basesOf id, ∃ inherited, g.computeMro base = .ok inherited ∧ inherited.Sublist order := by
  refine ⟨linearizes_computeMro computed, fun base among => ?_⟩
  obtain ⟨inherited, above, kept⟩ := inherits_computeMro computed among
  exact ⟨inherited, above, kept.trans (List.tail_sublist order)⟩

/-- Two bases with a base in common, and one between them that nothing declares. -/
def diamond : List Call :=
  [.addModule "m" false,
    .build Hook.standard ⟨0⟩ (.ok
      { body :=
          [.classDef { name := "A", line := 1 } [],
            .classDef { name := "B", bases := [.name "A"], line := 2 } [],
            .classDef { name := "C", bases := [.name "A"], line := 3 } [],
            .classDef { name := "D", bases := [.name "B", .name "Z", .name "C"], line := 4 } []] })]

theorem computeMro_diamond :
    (run (empty {}) diamond).computeMro ⟨4⟩ = .ok [⟨4⟩, ⟨2⟩, ⟨3⟩, ⟨1⟩] ∧
      (run (empty {}) diamond).Linearizes ⟨4⟩ [⟨4⟩, ⟨2⟩, ⟨3⟩, ⟨1⟩] ∧
      ∀ base ∈ (run (empty {}) diamond).basesOf ⟨4⟩, ∃ inherited,
        (run (empty {}) diamond).computeMro base = .ok inherited ∧
          inherited.Sublist [⟨4⟩, ⟨2⟩, ⟨3⟩, ⟨1⟩] := by
  have computed : (run (empty {}) diamond).computeMro ⟨4⟩ = .ok [⟨4⟩, ⟨2⟩, ⟨3⟩, ⟨1⟩] := by decide +kernel
  exact ⟨computed, computeMro_linearizes computed⟩

/-- The bases of a class, as declared, and the orders of these bases can be read off one order. -/
def Orderable (g : Graph) (id : EntityId) : Prop :=
  ∃ common : List EntityId, common.Nodup ∧ (g.basesOf id).Sublist common ∧
    ∀ base ∈ g.basesOf id, ∀ order, g.computeMro base = .ok order → order.Sublist common

theorem OrdersOf.consistent_iff (found : g.OrdersOf (g.basesOf id) orders) :
    Consistent (orders ++ [g.basesOf id]) ↔ g.Orderable id := by
  constructor
  · rintro ⟨common, joins⟩
    refine ⟨common, joins.nodup, joins.keeps _ (by simp), fun base among order computed => ?_⟩
    obtain ⟨inherited, listed, above⟩ := found.each base among
    obtain rfl : inherited = order := Except.ok.inj (above.symm.trans computed)
    exact joins.keeps inherited (List.mem_append_left _ listed)
  · rintro ⟨common, nodup, bases, inherits⟩
    refine ⟨common, nodup, fun seq listed => ?_⟩
    rcases List.mem_append.mp listed with inherited | last
    · obtain ⟨base, among, computed⟩ := found.only seq inherited
      exact inherits base among seq computed
    · rw [List.mem_singleton.mp last]
      exact bases

theorem Descends.computeMro (descends : g.Descends id upper) (computed : g.computeMro id = .ok order) :
    ∃ inherited, g.computeMro upper = .ok inherited := by
  induction descends with
  | refl => exact ⟨order, computed⟩
  | tail _ among ih =>
      obtain ⟨inherited, found⟩ := ih
      obtain ⟨further, above, _⟩ := inherits_computeMro found among
      exact ⟨further, above⟩

theorem not_transGen_of_computeMro (computed : g.computeMro id = .ok order) :
    ¬ Relation.TransGen g.Extends id id := by
  intro circle
  obtain ⟨base, among, back⟩ := Relation.TransGen.head'_iff.mp circle
  obtain ⟨inherited, above, kept⟩ := inherits_computeMro computed among
  have linearizes := linearizes_computeMro computed
  obtain ⟨rest, rfl⟩ := List.head?_eq_some_iff.mp linearizes.first
  have again := ((linearizes_computeMro above).reached id).mpr back
  exact (List.nodup_cons.mp linearizes.nodup).1 (kept.mem again)

theorem orderable_of_computeMro (computed : g.computeMro id = .ok order) : g.Orderable id := by
  obtain ⟨orders, rest, found, _, merged, _⟩ := computeMro_eq_ok computed
  exact found.consistent_iff.mp ⟨rest, joins_merge merged⟩

theorem exists_computeMro_iff (g : Graph) (id : EntityId) :
    (∃ order, g.computeMro id = .ok order) ↔
      ∀ upper, g.Descends id upper → ¬ Relation.TransGen g.Extends upper upper ∧ g.Orderable upper := by
  constructor
  · rintro ⟨order, computed⟩ upper descends
    obtain ⟨inherited, above⟩ := descends.computeMro computed
    exact ⟨not_transGen_of_computeMro above, orderable_of_computeMro above⟩
  · intro sound
    cases computed : g.computeMro id with
    | ok order => exact ⟨order, rfl⟩
    | error reason =>
        obtain ⟨upper, descends, ⟨_, circle⟩ | ⟨_, orders, found, unmerged⟩⟩ := computeMro_eq_error computed
        · exact absurd circle (sound upper descends).1
        · exact absurd (found.consistent_iff.mpr (sound upper descends).2) (merge_eq_none unmerged)

/-- Merges and searches come to an end. Sequences are merged exactly if some order joins them. A class
has an order exactly if no class that it descends from is a base of itself, however far up, and if the
orders of their bases go together; a circle that is reported is one. -/
theorem computeMro_exact (g : Graph) (id : EntityId) :
    (∀ seqs : List (List EntityId), Merges seqs (merge seqs) ∧ ((merge seqs).isSome ↔ Consistent seqs)) ∧
      g.Searches [] [id] ((g.computeMro id).map fun order => [order]) ∧
      ((∃ order, g.computeMro id = .ok order) ↔
        ∀ upper, g.Descends id upper → ¬ Relation.TransGen g.Extends upper upper ∧ g.Orderable upper) ∧
      ∀ name, g.computeMro id = .error (.cycle name) →
        ∃ upper, name = g.fullName upper ∧ g.Descends id upper ∧ Relation.TransGen g.Extends upper upper := by
  refine ⟨fun seqs => ⟨merges_merge seqs, merge_isSome_iff seqs⟩, g.searches_computeMro id,
    g.exists_computeMro_iff id, fun name failed => ?_⟩
  obtain ⟨upper, descends, ⟨named, circle⟩ | ⟨named, _⟩⟩ := computeMro_eq_error failed
  · exact ⟨upper, MroError.cycle.inj named, descends, circle⟩
  · cases named

/-- Each class names the other as its base; the first finds it when the graph is finished. -/
def mutualBases : List Call :=
  [.addModule "m" false,
    .build Hook.standard ⟨0⟩ (.ok
      { body :=
          [.classDef { name := "A", bases := [.name "B"], line := 1 } [],
            .classDef { name := "B", bases := [.name "A"], line := 2 } []] }),
    .finish]

theorem computeMro_mutualBases :
    (run (empty {}) mutualBases).computeMro ⟨1⟩ = .error (.cycle "m.A") ∧
      (∃ upper, "m.A" = (run (empty {}) mutualBases).fullName upper ∧
        (run (empty {}) mutualBases).Descends ⟨1⟩ upper ∧
        Relation.TransGen (run (empty {}) mutualBases).Extends upper upper) := by
  have failed : (run (empty {}) mutualBases).computeMro ⟨1⟩ = .error (.cycle "m.A") := by decide +kernel
  exact ⟨failed, (computeMro_exact (run (empty {}) mutualBases) ⟨1⟩).2.2.2 "m.A" failed⟩

end DocGraph.Graph
