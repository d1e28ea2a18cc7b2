import Mathlib.Logic.Relation
import DocGraph.Proofs.Bases.Locality
import DocGraph.Proofs.Bases.Merging

namespace DocGraph.Graph

open Linearization (merge mem_merge)

variable {g : Graph} {id base : EntityId} {path ids order : List EntityId} {orders : List (List EntityId)}
  {result : Except MroError (List (List EntityId))}

/-- `base` is a resolved base of `id`. -/
def Extends (g : Graph) (id base : EntityId) : Prop := base ∈ g.basesOf id

/-- The class `upper` is `id`, or a base of it, or a base of that, and so on. -/
def Descends (g : Graph) (id upper : EntityId) : Prop := Relation.ReflTransGen g.Extends id upper

/-- The search for the orders of some classes in turn, however deep it goes. The first failure ends it. -/
inductive Searches (g : Graph) :
    List EntityId → List EntityId → Except MroError (List (List EntityId)) → Prop
  | done {path : List EntityId} : Searches g path [] (.ok [])
  | circle {path rest : List EntityId} {id : EntityId} (passed : id ∈ path) :
      Searches g path (id :: rest) (.error (.cycle (g.fullName id)))
  | blocked {path rest : List EntityId} {id : EntityId} {reason : MroError} (fresh : id ∉ path)
      (bases : Searches g (id :: path) (g.basesOf id) (.error reason)) :
      Searches g path (id :: rest) (.error reason)
  | clash {path rest : List EntityId} {id : EntityId} {orders : List (List EntityId)} (fresh : id ∉ path)
      (bases : Searches g (id :: path) (g.basesOf id) (.ok orders))
      (unmerged : merge (orders ++ [g.basesOf id]) = none) :
      Searches g path (id :: rest) (.error (.inconsistentHierarchy (g.fullName id)))
  | later {path rest order : List EntityId} {id : EntityId} {orders : List (List EntityId)}
      {reason : MroError} (fresh : id ∉ path) (bases : Searches g (id :: path) (g.basesOf id) (.ok orders))
      (merged : merge (orders ++ [g.basesOf id]) = some order) (others : Searches g path rest (.error reason)) :
      Searches g path (id :: rest) (.error reason)
  | found {path rest order : List EntityId} {id : EntityId} {orders more : List (List EntityId)}
      (fresh : id ∉ path) (bases : Searches g (id :: path) (g.basesOf id) (.ok orders))
      (merged : merge (orders ++ [g.basesOf id]) = some order) (others : Searches g path rest (.ok more)) :
      Searches g path (id :: rest) (.ok ((id :: order) :: more))

/-- A path without repetition has at most as many classes as the graph, so the depth that is left is never
used up. -/
theorem searches_mapM (nodup : path.Nodup) (inside : ∀ id ∈ path, g.Has id) {fuel : Nat}
    (enough : g.size < fuel + path.length) (ids : List EntityId) :
    g.Searches path ids (ids.mapM (g.mroFrom fuel path)) := by
  induction fuel generalizing path ids with
  | zero =>
      have bound := length_le_size nodup inside
      omega
  | succ fuel deeper =>
      induction ids with
      | nil => exact .done
      | cons id rest next =>
          rw [List.mapM_cons, mroFrom]
          by_cases passed : id ∈ path
          · rw [if_pos passed]
            exact .circle passed
          · rw [if_neg passed]
            have bases : g.Searches (id :: path) (g.basesOf id)
                ((g.basesOf id).mapM (g.mroFrom fuel (id :: path))) := by
              cases listed : g.basesOf id with
              | nil => exact .done
              | cons base others =>
                  have among : base ∈ g.basesOf id := by simp [listed]
                  exact deeper (List.nodup_cons.mpr ⟨passed, nodup⟩)
                    (List.forall_mem_cons.mpr ⟨has_of_mem_basesOf among, inside⟩)
                    (by rw [List.length_cons]; omega) _
            cases computed : (g.basesOf id).mapM (g.mroFrom fuel (id :: path)) with
            | error reason =>
                rw [computed] at bases
                exact .blocked passed bases
            | ok orders =>
                rw [computed] at bases
                dsimp only
                cases merged : merge (orders ++ [g.basesOf id]) with
                | none => exact .clash passed bases merged
                | some order =>
                    cases others : rest.mapM (g.mroFrom (fuel + 1) path) with
                    | error reason =>
                        rw [others] at next
                        exact .later passed bases merged next
                    | ok more =>
                        rw [others] at next
                        exact .found passed bases merged next

theorem searches_computeMro (g : Graph) (id : EntityId) :
    g.Searches [] [id] ((g.computeMro id).map fun order => [order]) := by
  have enough : g.size < g.size + 1 + ([] : List EntityId).length := Nat.lt_succ_self g.size
  have searched := searches_mapM List.nodup_nil (by simp) enough [id]
  rw [List.mapM_cons, ← computeMro] at searched
  cases computed : g.computeMro id <;> rw [computed] at searched <;> exact searched

namespace Searches

theorem unique {other : Except MroError (List (List EntityId))} (first : g.Searches path ids result)
    (second : g.Searches path ids other) : result = other := by
  induction first generalizing other with
  | done =>
      cases second
      rfl
  | circle passed =>
      cases second with
      | circle => rfl
      | blocked | clash | later | found => contradiction
  | blocked fresh _ above =>
      cases second with
      | circle passed => contradiction
      | blocked _ bases => cases above bases; rfl
      | clash _ bases | later _ bases | found _ bases => cases above bases
  | clash fresh _ unmerged above =>
      cases second with
      | circle passed => contradiction
      | blocked _ bases => cases above bases
      | clash => rfl
      | later _ bases merged | found _ bases merged =>
          cases above bases
          rw [unmerged] at merged
          cases merged
  | later fresh _ merged _ above aside =>
      cases second with
      | circle passed => contradiction
      | blocked _ bases => cases above bases
      | clash _ bases unmerged =>
          cases above bases
          rw [unmerged] at merged
          cases merged
      | later _ _ _ others => cases aside others; rfl
      | found _ _ _ others => cases aside others
  | found fresh _ merged _ above aside =>
      cases second with
      | circle passed => contradiction
      | blocked _ bases => cases above bases
      | clash _ bases unmerged =>
          cases above bases
          rw [unmerged] at merged
          cases merged
      | later _ _ _ others => cases aside others
      | found _ bases again others =>
          cases above bases
          cases aside others
          rw [merged] at again
          cases again
          rfl

/-- With fewer classes on the path, fewer searches fail. -/
theorem of_subset (searched : g.Searches path ids result) (ended : result = .ok orders)
    {fewer : List EntityId} (subset : fewer ⊆ path) : g.Searches fewer ids (.ok orders) := by
  induction searched generalizing fewer orders with
  | done =>
      cases ended
      exact .done
  | circle | blocked | clash | later => cases ended
  | found fresh _ merged _ above aside =>
      cases ended
      exact .found (fun passed => fresh (subset passed))
        (above rfl (List.cons_subset_cons _ subset)) merged (aside rfl subset)

theorem computeMro (searched : g.Searches path [id] (.ok [order])) : g.computeMro id = .ok order := by
  have same := (g.searches_computeMro id).unique (searched.of_subset rfl (List.nil_subset _))
  cases computed : g.computeMro id with
  | error reason =>
      rw [computed] at same
      cases same
  | ok other =>
      rw [computed] at same
      cases same
      rfl

end Searches

/-- The orders are those of the classes. -/
structure OrdersOf (g : Graph) (ids : List EntityId) (orders : List (List EntityId)) : Prop where
  each : ∀ id ∈ ids, ∃ order ∈ orders, g.computeMro id = .ok order
  only : ∀ order ∈ orders, ∃ id ∈ ids, g.computeMro id = .ok order

namespace Searches

theorem ordersOf (searched : g.Searches path ids (.ok orders)) : g.OrdersOf ids orders := by
  induction ids generalizing orders with
  | nil =>
      cases searched
      exact ⟨by simp, by simp⟩
  | cons id rest ih =>
      cases searched with
      | found fresh bases merged others =>
          have alone := Searches.computeMro (.found fresh bases merged .done)
          obtain ⟨each, only⟩ := ih others
          constructor
          · rw [List.forall_mem_cons]
            refine ⟨⟨_, List.mem_cons_self, alone⟩, fun other among => ?_⟩
            obtain ⟨order, listed, computed⟩ := each other among
            exact ⟨order, List.mem_cons_of_mem _ listed, computed⟩
          · rw [List.forall_mem_cons]
            refine ⟨⟨id, List.mem_cons_self, alone⟩, fun order listed => ?_⟩
            obtain ⟨other, among, computed⟩ := only order listed
            exact ⟨other, List.mem_cons_of_mem _ among, computed⟩

theorem exists_mem (searched : g.Searches path ids (.ok orders)) (among : id ∈ ids) :
    ∃ order ∈ orders, id ∈ order := by
  induction ids generalizing orders with
  | nil => cases among
  | cons other rest ih =>
      cases searched with
      | found _ _ _ others =>
          rcases List.mem_cons.mp among with rfl | later
          · exact ⟨_, List.mem_cons_self, List.mem_cons_self⟩
          · obtain ⟨order, listed, member⟩ := ih others later
            exact ⟨order, List.mem_cons_of_mem _ listed, member⟩

theorem notMem_path (searched : g.Searches path ids result) (ended : result = .ok orders) :
    ∀ order ∈ orders, ∀ id ∈ order, id ∉ path := by
  induction searched generalizing orders with
  | done =>
      cases ended
      simp
  | circle | blocked | clash | later => cases ended
  | @found path rest order id orders more fresh bases merged others above aside =>
      cases ended
      rw [List.forall_mem_cons, List.forall_mem_cons]
      refine ⟨⟨fresh, fun upper member passed => ?_⟩, aside rfl⟩
      obtain ⟨inherited, listed, member⟩ : ∃ inherited ∈ orders, upper ∈ inherited := by
        obtain ⟨seq, listed, member⟩ := (mem_merge merged).mp member
        rcases List.mem_append.mp listed with inherited | last
        · exact ⟨seq, inherited, member⟩
        · rw [List.mem_singleton.mp last] at member
          exact bases.exists_mem member
      exact above rfl inherited listed upper member (List.mem_cons_of_mem _ passed)

end Searches

/-- An order is a class in front of what merges the orders of its bases, none of which leads back to it. -/
theorem computeMro_eq_ok (computed : g.computeMro id = .ok order) :
    ∃ orders rest, g.OrdersOf (g.basesOf id) orders ∧ (∀ inherited ∈ orders, id ∉ inherited) ∧
      merge (orders ++ [g.basesOf id]) = some rest ∧ order = id :: rest := by
  have searched := g.searches_computeMro id
  rw [computed] at searched
  cases searched with
  | @found _ _ rest _ orders _ _ bases merged _ =>
      refine ⟨orders, rest, bases.ordersOf, fun inherited listed member => ?_, merged, rfl⟩
      exact bases.notMem_path rfl inherited listed id member List.mem_cons_self

namespace Searches

/-- A search fails at a class that it comes back to, or at one whose bases have orders that do not merge. -/
theorem failure (searched : g.Searches path ids result) {reason : MroError} (ended : result = .error reason) :
    ∃ id ∈ ids, ∃ upper, g.Descends id upper ∧
      (reason = .cycle (g.fullName upper) ∧ (upper ∈ path ∨ Relation.TransGen g.Extends upper upper) ∨
        reason = .inconsistentHierarchy (g.fullName upper) ∧
          ∃ orders, g.OrdersOf (g.basesOf upper) orders ∧ merge (orders ++ [g.basesOf upper]) = none) := by
  induction searched with
  | done | found => cases ended
  | @circle path rest id passed =>
      cases ended
      exact ⟨id, List.mem_cons_self, id, .refl, .inl ⟨rfl, .inl passed⟩⟩
  | @blocked path rest id _ _ _ above =>
      obtain ⟨base, listed, upper, descends, cause⟩ := above ended
      refine ⟨id, List.mem_cons_self, upper, .head listed descends, ?_⟩
      rcases cause with ⟨named, passed | circle⟩ | clash
      · -- Coming back to the class itself closes a circle; anything else on the path stood there before.
        rcases List.mem_cons.mp passed with rfl | before
        · exact .inl ⟨named, .inr (.head' listed descends)⟩
        · exact .inl ⟨named, .inl before⟩
      · exact .inl ⟨named, .inr circle⟩
      · exact .inr clash
  | @clash path rest id orders _ bases unmerged _ =>
      cases ended
      exact ⟨id, List.mem_cons_self, id, .refl, .inr ⟨rfl, orders, bases.ordersOf, unmerged⟩⟩
  | later _ _ _ _ _ aside =>
      obtain ⟨id, among, cause⟩ := aside ended
      exact ⟨id, List.mem_cons_of_mem _ among, cause⟩

end Searches

/-- Where no order is computed, a class that is reached is a base of itself, or its bases have orders that
do not merge; the failure names that class. -/
theorem computeMro_eq_error {reason : MroError} (failed : g.computeMro id = .error reason) :
    ∃ upper, g.Descends id upper ∧
      (reason = .cycle (g.fullName upper) ∧ Relation.TransGen g.Extends upper upper ∨
        reason = .inconsistentHierarchy (g.fullName upper) ∧
          ∃ orders, g.OrdersOf (g.basesOf upper) orders ∧ merge (orders ++ [g.basesOf upper]) = none) := by
  have searched := g.searches_computeMro id
  rw [failed] at searched
  obtain ⟨_, among, upper, descends, cause⟩ := searched.failure rfl
  rw [List.mem_singleton.mp among] at descends
  simp only [List.not_mem_nil, false_or] at cause
  exact ⟨upper, descends, cause⟩

end DocGraph.Graph
