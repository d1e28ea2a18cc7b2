import Mathlib.Algebra.BigOperators.Group.Finset.Basic
import DocGraph.Finish
import DocGraph.Proofs.Registry.Access

namespace DocGraph.Graph

variable {g h : Graph} {id : EntityId}

theorem has_of_mem_basesOf {base : EntityId} (among : base ∈ g.basesOf id) : g.Has id := by
  by_contra outside
  rw [basesOf, g.entity_of_not_has outside] at among
  cases among

theorem nodup_ids (g : Graph) : g.ids.Nodup :=
  List.nodup_range.map fun _ _ same => congrArg EntityId.index same

theorem length_le_size {path : List EntityId} (nodup : path.Nodup) (inside : ∀ id ∈ path, g.Has id) :
    path.length ≤ g.size := by
  have bound := (nodup.subperm fun id member => g.mem_ids.mpr (inside id member)).length_le
  simpa [ids] using bound

theorem toOption_mapM_congr {ε α β : Type} {f f' : α → Except ε β} {items : List α}
    (same : ∀ item ∈ items, (f item).toOption = (f' item).toOption) :
    (items.mapM f).toOption = (items.mapM f').toOption := by
  have cons (f : α → Except ε β) (item : α) (rest : List α) : ((item :: rest).mapM f).toOption =
      (f item).toOption.bind fun first => (rest.mapM f).toOption.map (first :: ·) := by
    rw [List.mapM_cons]
    cases f item with
    | error => rfl
    | ok first => cases rest.mapM f <;> rfl
  induction items with
  | nil => rfl
  | cons item rest ih =>
      rw [cons, cons, same item List.mem_cons_self, ih fun item among => same item (List.mem_cons_of_mem _ among)]

/-- An order is there if the bases have orders that can be merged. -/
theorem toOption_mroFrom_succ (g : Graph) (fuel : Nat) (path : List EntityId) (id : EntityId) :
    (g.mroFrom (fuel + 1) path id).toOption =
      if id ∈ path then none
      else ((g.basesOf id).mapM (g.mroFrom fuel (id :: path))).toOption.bind fun orders =>
        (Linearization.merge (orders ++ [g.basesOf id])).map (id :: ·) := by
  rw [mroFrom]
  split
  · rfl
  · cases (g.basesOf id).mapM (g.mroFrom fuel (id :: path)) with
    | error => rfl
    | ok orders =>
        dsimp only [Except.toOption, Option.bind_some]
        cases Linearization.merge (orders ++ [g.basesOf id]) <;> rfl

/-- A path without repetition leaves no room for more steps than there are entities off it. -/
theorem toOption_mroFrom_of_size_lt {path : List EntityId} (nodup : path.Nodup)
    (inside : ∀ id ∈ path, g.Has id) {fuel more : Nat} (enough : g.size < fuel + path.length)
    (ample : g.size < more + path.length) (id : EntityId) :
    (g.mroFrom fuel path id).toOption = (g.mroFrom more path id).toOption := by
  have bound := length_le_size nodup inside
  induction fuel generalizing more path id with
  | zero => omega
  | succ fuel ih =>
      obtain ⟨more, rfl⟩ : ∃ rest, more = rest + 1 := ⟨more - 1, by omega⟩
      rw [toOption_mroFrom_succ, toOption_mroFrom_succ]
      by_cases repeated : id ∈ path
      · rw [if_pos repeated, if_pos repeated]
      · have same : ((g.basesOf id).mapM (g.mroFrom fuel (id :: path))).toOption =
            ((g.basesOf id).mapM (g.mroFrom more (id :: path))).toOption := by
          refine toOption_mapM_congr fun base among => ?_
          have longer : (id :: path).Nodup := List.nodup_cons.mpr ⟨repeated, nodup⟩
          have within : ∀ other ∈ id :: path, g.Has other := by
            simpa using ⟨has_of_mem_basesOf among, inside⟩
          refine ih longer within ?_ ?_ base (length_le_size longer within) <;>
            rw [List.length_cons] <;> omega
        rw [same]

/-- The bases of all entities that have not been visited. -/
def unvisited (g : Graph) (seen : List EntityId) : Nat :=
  ∑ id ∈ g.ids.toFinset \ seen.toFinset, (g.basesOf id).length

theorem unvisited_nil (g : Graph) : g.unvisited [] = g.baseCount := by
  have entities : g.ids.map g.basesOf = g.entities.toList.map Entity.bases := by
    refine List.ext_getElem (by simp [ids, size]) fun i inside _ => ?_
    simp only [ids, List.length_map, List.length_range, size] at inside
    simp [ids, basesOf, entity, inside]
  rw [unvisited, List.toFinset_nil, Finset.sdiff_empty, List.sum_toFinset _ g.nodup_ids, baseCount,
    List.length_flatMap, ← Function.comp_def List.length, ← List.map_map, entities, List.map_map]
  rfl

theorem unvisited_cons {seen : List EntityId} (fresh : id ∉ seen) :
    (g.basesOf id).length + g.unvisited (id :: seen) = g.unvisited seen := by
  rw [unvisited, List.toFinset_cons, Finset.sdiff_insert]
  by_cases inside : g.Has id
  · have owed : id ∈ g.ids.toFinset \ seen.toFinset := by simp [mem_ids, inside, fresh]
    exact Finset.add_sum_erase _ (fun id => (g.basesOf id).length) owed
  · have none : g.basesOf id = [] := List.eq_nil_iff_forall_not_mem.mpr fun base among =>
      inside (has_of_mem_basesOf among)
    rw [Finset.erase_eq_of_notMem (by simp [mem_ids, inside]), none]
    simp [unvisited]

/-- Every step takes an entity off the stack, and its bases are put there once. -/
theorem depthFirstFrom_of_unvisited_le {fuel more : Nat} {seen stack : List EntityId}
    (enough : stack.length + g.unvisited seen ≤ fuel) (ample : stack.length + g.unvisited seen ≤ more) :
    g.depthFirstFrom fuel seen stack = g.depthFirstFrom more seen stack := by
  induction fuel generalizing more seen stack with
  | zero =>
      obtain rfl : stack = [] := List.eq_nil_of_length_eq_zero (by omega)
      rw [depthFirstFrom, depthFirstFrom]
  | succ fuel ih =>
      cases stack with
      | nil => rw [depthFirstFrom, depthFirstFrom]
      | cons id stack =>
          rw [List.length_cons] at enough ample
          obtain ⟨more, rfl⟩ : ∃ rest, more = rest + 1 := ⟨more - 1, by omega⟩
          rw [depthFirstFrom, depthFirstFrom]
          by_cases visited : id ∈ seen
          · rw [if_pos visited, if_pos visited]
            exact ih (by omega) (by omega)
          · have owed := unvisited_cons (g := g) visited
            rw [if_neg visited, if_neg visited]
            apply ih <;> rw [List.length_append] <;> omega

/-- The graphs agree on the bases of some entities, and of what these bases are. -/
structure SameBases (among : EntityId → Prop) (g h : Graph) : Prop where
  same : ∀ {id}, among id → h.basesOf id = g.basesOf id
  closed : ∀ {id base}, among id → base ∈ g.basesOf id → among base

namespace SameBases

variable {among : EntityId → Prop} (alike : SameBases among g h)

include alike

theorem toOption_mroFrom (fuel : Nat) (path : List EntityId) (within : among id) :
    (h.mroFrom fuel path id).toOption = (g.mroFrom fuel path id).toOption := by
  induction fuel generalizing path id with
  | zero => rfl
  | succ fuel ih =>
      rw [toOption_mroFrom_succ, toOption_mroFrom_succ, alike.same within,
        toOption_mapM_congr fun base member => ih (id :: path) (alike.closed within member)]

theorem depthFirstFrom (fuel : Nat) (seen : List EntityId) {stack : List EntityId}
    (within : ∀ id ∈ stack, among id) :
    h.depthFirstFrom fuel seen stack = g.depthFirstFrom fuel seen stack := by
  induction fuel generalizing seen stack with
  | zero => cases stack <;> rw [Graph.depthFirstFrom, Graph.depthFirstFrom] <;> simp
  | succ fuel ih =>
      cases stack with
      | nil => rw [Graph.depthFirstFrom, Graph.depthFirstFrom]
      | cons id stack =>
          rw [List.forall_mem_cons] at within
          rw [Graph.depthFirstFrom, Graph.depthFirstFrom, alike.same within.1, ih seen within.2,
            ih (id :: seen) (List.forall_mem_append.mpr ⟨fun base => alike.closed within.1, within.2⟩)]

theorem toOption_computeMro (within : among id) :
    (h.computeMro id).toOption = (g.computeMro id).toOption := by
  have enough (k : Graph) (fuel : Nat) (ample : k.size < fuel) :
      (k.computeMro id).toOption = (k.mroFrom fuel [] id).toOption :=
    toOption_mroFrom_of_size_lt List.nodup_nil (by simp) (by simp) (by simpa using ample) id
  rw [enough h (g.size + h.size + 1) (by omega), enough g (g.size + h.size + 1) (by omega),
    alike.toOption_mroFrom _ _ within]

theorem depthFirstBases (within : among id) : h.depthFirstBases id = g.depthFirstBases id := by
  have enough (k : Graph) (fuel : Nat) (ample : k.baseCount < fuel) :
      k.depthFirstBases id = k.depthFirstFrom fuel [] [id] := by
    apply depthFirstFrom_of_unvisited_le <;> rw [unvisited_nil, List.length_singleton] <;> omega
  rw [enough h (g.baseCount + h.baseCount + 1) (by omega), enough g (g.baseCount + h.baseCount + 1) (by omega)]
  exact alike.depthFirstFrom _ _ (by simpa using within)

theorem storedMro (within : among id) : h.storedMro id = g.storedMro id := by
  have order (k : Graph) : k.storedMro id = (k.computeMro id).toOption.getD (k.depthFirstBases id) := by
    rw [Graph.storedMro]
    cases k.computeMro id <;> rfl
  rw [order, order, alike.toOption_computeMro within, alike.depthFirstBases within]

end SameBases

theorem storedMro_of_basesOf (same : ∀ id, h.basesOf id = g.basesOf id) (id : EntityId) :
    h.storedMro id = g.storedMro id := by
  have alike : SameBases (fun _ => True) g h := ⟨fun _ => same _, fun _ _ => trivial⟩
  exact alike.storedMro trivial

end DocGraph.Graph
