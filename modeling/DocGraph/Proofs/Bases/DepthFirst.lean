import DocGraph.Proofs.Bases.Linearized

/-!
The depth-first order of a class. The search keeps a stack on which a class may stand several times, and looks at what
it has seen only when it takes a class off. All the same it lists the classes as the recursive traversal does: a class on
first arrival, then its bases in the order declared, each with everything above it before the next. So the order holds
the classes that are reached along resolved bases, and no others, in every graph: a class that is reached twice, or that
is a base of itself, is passed over. As a method resolution order holds the same classes, so does the order that is
stored for a class, whichever of the two it is.
-/
namespace DocGraph.Graph

variable {g : Graph} {id upper : EntityId} {order after stack : List EntityId}

/-- Visits classes one after the other. The order so far gets a class that is not in it, and then the bases of that
class. -/
inductive Preorder (g : Graph) : List EntityId → List EntityId → List EntityId → Prop
  | done (order : List EntityId) : Preorder g order [] order
  | again {order ids after : List EntityId} {id : EntityId} (visited : id ∈ order)
      (later : Preorder g order ids after) : Preorder g order (id :: ids) after
  | first {order ids between after : List EntityId} {id : EntityId} (fresh : id ∉ order)
      (bases : Preorder g (order ++ [id]) (g.basesOf id) between) (later : Preorder g between ids after) :
      Preorder g order (id :: ids) after

namespace Preorder

theorem unique {other : List EntityId} (traversed : g.Preorder order stack after)
    (again : g.Preorder order stack other) : after = other := by
  induction traversed generalizing other with
  | done => cases again with | done => rfl
  | again visited _ ih =>
      cases again with
      | again _ later => exact ih later
      | first fresh => exact absurd visited fresh
  | first fresh _ _ ihBases ihLater =>
      cases again with
      | again visited => exact absurd visited fresh
      | first _ bases later =>
          obtain rfl := ihBases bases
          exact ihLater later

theorem split {ids rest : List EntityId} (traversed : g.Preorder order (ids ++ rest) after) :
    ∃ between, g.Preorder order ids between ∧ g.Preorder between rest after := by
  generalize whole : ids ++ rest = all at traversed
  induction traversed generalizing ids with
  | done order =>
      obtain ⟨rfl, rfl⟩ := List.append_eq_nil_iff.mp whole
      exact ⟨order, .done order, .done order⟩
  | @again order others after id visited later ih =>
      cases ids with
      | nil =>
          obtain rfl : rest = id :: others := whole
          exact ⟨order, .done order, .again visited later⟩
      | cons head ids =>
          obtain ⟨rfl, tail⟩ := List.cons_eq_cons.mp whole
          obtain ⟨between, front, back⟩ := ih tail
          exact ⟨between, .again visited front, back⟩
  | @first order others inner after id fresh bases later _ ih =>
      cases ids with
      | nil =>
          obtain rfl : rest = id :: others := whole
          exact ⟨order, .done order, .first fresh bases later⟩
      | cons head ids =>
          obtain ⟨rfl, tail⟩ := List.cons_eq_cons.mp whole
          obtain ⟨between, front, back⟩ := ih tail
          exact ⟨between, .first fresh bases front, back⟩

theorem nodup (traversed : g.Preorder order stack after) (distinct : order.Nodup) : after.Nodup := by
  induction traversed with
  | done => exact distinct
  | again _ _ ih => exact ih distinct
  | first fresh _ _ ihBases ihLater =>
      have longer := distinct.concat fresh
      rw [List.concat_eq_append] at longer
      exact ihLater (ihBases longer)

theorem subset (traversed : g.Preorder order stack after) : order ⊆ after ∧ stack ⊆ after := by
  induction traversed with
  | done order => exact ⟨List.Subset.refl order, List.nil_subset order⟩
  | again visited _ ih => exact ⟨ih.1, List.cons_subset.mpr ⟨ih.1 visited, ih.2⟩⟩
  | first _ _ _ ihBases ihLater =>
      obtain ⟨whole, -⟩ := ihBases
      obtain ⟨between, later⟩ := ihLater
      rw [List.append_subset] at whole
      exact ⟨List.Subset.trans whole.1 between,
        List.cons_subset.mpr ⟨between (whole.2 List.mem_cons_self), later⟩⟩

theorem reached (traversed : g.Preorder order stack after) (found : upper ∈ after) :
    upper ∈ order ∨ ∃ start ∈ stack, g.Descends start upper := by
  induction traversed with
  | done => exact .inl found
  | again _ _ ih =>
      rcases ih found with before | ⟨start, listed, descends⟩
      · exact .inl before
      · exact .inr ⟨start, List.mem_cons_of_mem _ listed, descends⟩
  | @first order ids between after id _ _ _ ihBases ihLater =>
      rcases ihLater found with inner | ⟨start, listed, descends⟩
      · rcases ihBases inner with before | ⟨base, listed, descends⟩
        · rcases List.mem_append.mp before with before | self
          · exact .inl before
          · rw [List.mem_singleton.mp self]
            exact .inr ⟨id, List.mem_cons_self, .refl⟩
        · exact .inr ⟨id, List.mem_cons_self, .head listed descends⟩
      · exact .inr ⟨start, List.mem_cons_of_mem _ listed, descends⟩

theorem closed (traversed : g.Preorder order stack after) :
    ∀ id ∈ after, id ∉ order → ∀ base ∈ g.basesOf id, base ∈ after := by
  induction traversed with
  | done => exact fun _ member fresh => absurd member fresh
  | again _ _ ih => exact ih
  | @first order ids between after id _ bases later ihBases ihLater =>
      intro visited member fresh base listed
      have kept := later.subset.1
      by_cases inner : visited ∈ between
      · by_cases self : visited = id
        · exact kept (bases.subset.2 (self ▸ listed))
        · exact kept (ihBases visited inner (by simp [fresh, self]) base listed)
      · exact ihLater visited member inner base listed

end Preorder

/-- One turn of the search, on the order so far and the stack: the class on top is passed over, or visited and its bases
put in its place. -/
inductive Turn (g : Graph) : List EntityId × List EntityId → List EntityId × List EntityId → Prop
  | again {order stack : List EntityId} {id : EntityId} (visited : id ∈ order) :
      Turn g (order, id :: stack) (order, stack)
  | first {order stack : List EntityId} {id : EntityId} (fresh : id ∉ order) :
      Turn g (order, id :: stack) (order ++ [id], g.basesOf id ++ stack)

/-- A search that has steps enough goes on until the stack is empty. -/
theorem turns_depthFirstFrom {fuel : Nat} {seen : List EntityId} (enough : stack.length + g.unvisited seen ≤ fuel) :
    Relation.ReflTransGen g.Turn (seen.reverse, stack) (g.depthFirstFrom fuel seen stack, []) := by
  induction fuel generalizing seen stack with
  | zero =>
      obtain rfl : stack = [] := List.eq_nil_of_length_eq_zero (by omega)
      exact .refl
  | succ fuel ih =>
      cases stack with
      | nil => exact .refl
      | cons id stack =>
          rw [List.length_cons] at enough
          rw [depthFirstFrom]
          split
          · rename_i visited
            exact .head (.again (List.mem_reverse.mpr visited)) (ih (by omega))
          · rename_i fresh
            have left := unvisited_cons (g := g) fresh
            have room : (g.basesOf id ++ stack).length + g.unvisited (id :: seen) ≤ fuel := by
              rw [List.length_append]
              omega
            have later := ih room
            rw [List.reverse_cons] at later
            exact .head (.first (by rwa [List.mem_reverse])) later

/-- Turn by turn the search does what is left of the recursive traversal: the stack holds the classes that it still has
to visit, those of the innermost call first. -/
theorem preorder_of_turns (run : Relation.ReflTransGen g.Turn (order, stack) (after, [])) :
    g.Preorder order stack after := by
  generalize start : (order, stack) = state at run
  induction run using Relation.ReflTransGen.head_induction_on generalizing order stack with
  | refl =>
      obtain ⟨rfl, rfl⟩ := Prod.mk.inj start
      exact .done order
  | head turn _ ih =>
      cases turn with
      | again visited =>
          obtain ⟨rfl, rfl⟩ := Prod.mk.inj start
          exact .again visited (ih rfl)
      | first fresh =>
          obtain ⟨rfl, rfl⟩ := Prod.mk.inj start
          obtain ⟨between, bases, later⟩ := (ih rfl).split
          exact .first fresh bases later

theorem turns_depthFirstBases (g : Graph) (id : EntityId) :
    Relation.ReflTransGen g.Turn ([], [id]) (g.depthFirstBases id, []) := by
  have enough : [id].length + g.unvisited [] ≤ g.baseCount + 1 := by
    rw [unvisited_nil, List.length_singleton, Nat.add_comm]
  exact turns_depthFirstFrom enough

theorem preorder_depthFirstBases (g : Graph) (id : EntityId) : g.Preorder [] [id] (g.depthFirstBases id) :=
  preorder_of_turns (turns_depthFirstBases g id)

theorem mem_depthFirstBases : upper ∈ g.depthFirstBases id ↔ g.Descends id upper := by
  have traversed := preorder_depthFirstBases g id
  constructor
  · intro found
    rcases traversed.reached found with before | ⟨start, listed, descends⟩
    · cases before
    · rwa [List.mem_singleton.mp listed] at descends
  · intro descends
    induction descends with
    | refl => exact traversed.subset.2 List.mem_cons_self
    | tail _ base above => exact traversed.closed _ above List.not_mem_nil _ base

/-- In every graph the search with a stack comes to an end, and what it lists is the one outcome of the recursive
traversal. That order begins with the class, repeats nothing and holds what is reached along bases. -/
theorem depthFirstBases_preorder (g : Graph) (id : EntityId) :
    Relation.ReflTransGen g.Turn ([], [id]) (g.depthFirstBases id, []) ∧
      (∀ order, g.Preorder [] [id] order ↔ order = g.depthFirstBases id) ∧
      (g.depthFirstBases id).head? = some id ∧ (g.depthFirstBases id).Nodup ∧
      ∀ upper, upper ∈ g.depthFirstBases id ↔ g.Descends id upper := by
  have traversed := preorder_depthFirstBases g id
  refine ⟨turns_depthFirstBases g id, fun order => ⟨fun other => ?_, ?_⟩, head?_depthFirstBases g id, ?_, ?_⟩
  · exact other.unique traversed
  · rintro rfl
    exact traversed
  · exact traversed.nodup List.nodup_nil
  · exact fun upper => mem_depthFirstBases

theorem mem_storedMro : upper ∈ g.storedMro id ↔ g.Descends id upper := by
  rw [storedMro]
  cases computed : g.computeMro id with
  | ok order => exact (linearizes_computeMro computed).reached upper
  | error reason => exact mem_depthFirstBases

end DocGraph.Graph
