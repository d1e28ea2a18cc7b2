import Mathlib.Order.WellFounded
import Mathlib.Data.List.Perm.Subperm
import DocGraph.Proofs.Registry.Segment
import DocGraph.Proofs.Registry.Access

namespace DocGraph.Graph

variable {g : Graph} {id parent : EntityId}

/-- `parent` holds `child`, by what `child` says. -/
def IsParent (g : Graph) (parent child : EntityId) : Prop := (g.entity child).parent = some parent

/-- The entity `upper` is `lower` or stands above it. -/
def Above (g : Graph) (upper lower : EntityId) : Prop := Relation.ReflTransGen g.IsParent upper lower

/-- Parents are entities of the graph, and no entity stands above itself. -/
structure Rooted (g : Graph) : Prop where
  wellFounded : WellFounded g.IsParent
  parentHas : ∀ {parent child}, g.IsParent parent child → g.Has parent

theorem Rooted.not_above_parent (rooted : g.Rooted) (child : g.IsParent parent id) :
    ¬ g.Above id parent := by
  intro above
  have circle : Relation.TransGen g.IsParent id id := Relation.TransGen.tail' above child
  exact rooted.wellFounded.transGen.irrefl.irrefl id circle

theorem Above.has {upper lower : EntityId} (rooted : g.Rooted) (above : g.Above upper lower)
    (inside : g.Has lower) : g.Has upper := by
  induction above using Relation.ReflTransGen.head_induction_on with
  | refl => exact inside
  | head first _ _ => exact rooted.parentHas first

theorem ancestorsFrom_eq_take (g : Graph) (fuel : Nat) (id : EntityId) :
    g.ancestorsFrom fuel id = (g.ancestorsFrom (fuel + 1) id).take fuel := by
  induction fuel generalizing id with
  | zero => simp [ancestorsFrom]
  | succ fuel ih =>
      rw [ancestorsFrom, ancestorsFrom]
      cases (g.entity id).parent with
      | none => simp
      | some parent => simpa using ih parent

theorem above_of_mem_ancestorsFrom {fuel : Nat} {upper : EntityId}
    (member : upper ∈ g.ancestorsFrom fuel id) : g.Above upper id := by
  induction fuel generalizing id with
  | zero => cases member
  | succ fuel ih =>
      rw [ancestorsFrom] at member
      cases next : (g.entity id).parent with
      | none =>
          simp only [next, List.mem_singleton] at member
          exact member ▸ Relation.ReflTransGen.refl
      | some parent =>
          simp only [next, List.mem_cons] at member
          rcases member with rfl | member
          · exact Relation.ReflTransGen.refl
          · exact Relation.ReflTransGen.tail (ih member) next

theorem nodup_ancestorsFrom (rooted : g.Rooted) (fuel : Nat) (id : EntityId) :
    (g.ancestorsFrom fuel id).Nodup := by
  induction fuel generalizing id with
  | zero => simp [ancestorsFrom]
  | succ fuel ih =>
      rw [ancestorsFrom]
      cases next : (g.entity id).parent with
      | none => simp
      | some parent =>
          rw [List.nodup_cons]
          exact ⟨fun member => rooted.not_above_parent next (above_of_mem_ancestorsFrom member),
            ih parent⟩

theorem length_ancestorsFrom_le (rooted : g.Rooted) (inside : g.Has id) (fuel : Nat) :
    (g.ancestorsFrom fuel id).length ≤ g.size := by
  have within : g.ancestorsFrom fuel id ⊆ g.ids := by
    intro upper member
    exact g.mem_ids.mpr ((above_of_mem_ancestorsFrom member).has rooted inside)
  have bound := ((nodup_ancestorsFrom rooted fuel id).subperm within).length_le
  simpa [ids] using bound

theorem ancestorsFrom_succ_size (rooted : g.Rooted) (inside : g.Has id) :
    g.ancestorsFrom (g.size + 1) id = g.ancestors id := by
  rw [ancestors, ancestorsFrom_eq_take g g.size,
    List.take_of_length_le (length_ancestorsFrom_le rooted inside _)]

theorem ancestors_of_root (rooted : g.Rooted) (inside : g.Has id)
    (root : (g.entity id).parent = none) : g.ancestors id = [id] := by
  rw [← ancestorsFrom_succ_size rooted inside, ancestorsFrom, root]

theorem ancestors_of_child (rooted : g.Rooted) (child : g.IsParent parent id) :
    g.ancestors id = id :: g.ancestors parent := by
  have next : (g.entity id).parent = some parent := child
  rw [← ancestorsFrom_succ_size rooted (g.has_of_parent child), ancestorsFrom, next, ancestors]

theorem mem_ancestors (rooted : g.Rooted) (inside : g.Has id) {upper : EntityId} :
    upper ∈ g.ancestors id ↔ g.Above upper id := by
  refine ⟨above_of_mem_ancestorsFrom, fun above => ?_⟩
  induction above with
  | refl =>
      rw [← ancestorsFrom_succ_size rooted inside, ancestorsFrom]
      split <;> simp
  | tail _ last ih =>
      rw [ancestors_of_child rooted last]
      exact List.mem_cons_of_mem _ (ih (rooted.parentHas last))

theorem isAncestor_iff (rooted : g.Rooted) (inside : g.Has id) {upper : EntityId} :
    g.isAncestor upper id = true ↔ g.Above upper id := by
  rw [isAncestor, List.contains_iff_mem, mem_ancestors rooted inside]

/-- The number of entities from a root down to an entity. -/
def depth (g : Graph) (id : EntityId) : Nat := (g.ancestors id).length

theorem depth_le_size (rooted : g.Rooted) (inside : g.Has id) : g.depth id ≤ g.size :=
  length_ancestorsFrom_le rooted inside _

theorem depth_of_child (rooted : g.Rooted) (child : g.IsParent parent id) :
    g.depth id = g.depth parent + 1 := by
  simp [depth, ancestors_of_child rooted child]

theorem depth_pos (rooted : g.Rooted) (inside : g.Has id) : 0 < g.depth id :=
  List.length_pos_of_mem ((mem_ancestors rooted inside).mpr Relation.ReflTransGen.refl)

theorem Above.depth_le {upper lower : EntityId} (rooted : g.Rooted) (above : g.Above upper lower) :
    g.depth upper ≤ g.depth lower := by
  induction above with
  | refl => exact Nat.le_refl _
  | tail _ last ih =>
      rw [depth_of_child rooted last]
      omega

theorem fullName_of_root (rooted : g.Rooted) (inside : g.Has id)
    (root : (g.entity id).parent = none) : g.fullName id = (g.entity id).name := by
  simp [fullName, ancestors_of_root rooted inside root, Dotted.join]

theorem fullName_of_child (rooted : g.Rooted) (child : g.IsParent parent id) :
    g.fullName id = Dotted.extend (g.fullName parent) (g.entity id).name := by
  have nonempty : g.ancestors parent ≠ [] := by
    have := depth_pos rooted (rooted.parentHas child)
    intro none
    simp [depth, none] at this
  rw [fullName, ancestors_of_child rooted child, List.reverse_cons, List.map_append,
    List.map_singleton, Dotted.join_concat (by simpa using nonempty)]
  rfl

theorem ancestors_congr {h : Graph} (size : h.size = g.size)
    (parents : ∀ id, (h.entity id).parent = (g.entity id).parent) (id : EntityId) :
    h.ancestors id = g.ancestors id := by
  have chains (fuel : Nat) (id : EntityId) : h.ancestorsFrom fuel id = g.ancestorsFrom fuel id := by
    induction fuel generalizing id with
    | zero => rfl
    | succ fuel ih =>
        rw [ancestorsFrom, ancestorsFrom, parents]
        cases (g.entity id).parent with
        | none => rfl
        | some parent => simp [ih]
  rw [ancestors, ancestors, size, chains]

theorem fullName_congr {h : Graph} (size : h.size = g.size)
    (names : ∀ id, (h.entity id).name = (g.entity id).name)
    (parents : ∀ id, (h.entity id).parent = (g.entity id).parent) (id : EntityId) :
    h.fullName id = g.fullName id := by
  simp [fullName, ancestors_congr size parents, names]

/-- A full name is kept where no name and no parent on the way up has changed. -/
theorem fullName_eq_of_above {h : Graph} (rooted : g.Rooted) (rooted' : h.Rooted)
    {id : EntityId} (inside : g.Has id) (inside' : h.Has id)
    (names : ∀ upper, g.Above upper id → (h.entity upper).name = (g.entity upper).name)
    (parents : ∀ upper, g.Above upper id → (h.entity upper).parent = (g.entity upper).parent) :
    h.fullName id = g.fullName id := by
  induction id using rooted.wellFounded.induction with
  | _ id ih =>
      have sameName := names id Relation.ReflTransGen.refl
      have sameParent := parents id Relation.ReflTransGen.refl
      cases next : (g.entity id).parent with
      | none =>
          rw [fullName_of_root rooted inside next,
            fullName_of_root rooted' inside' (sameParent.trans next), sameName]
      | some parent =>
          have child : g.IsParent parent id := next
          have child' : h.IsParent parent id := sameParent.trans next
          rw [fullName_of_child rooted child, fullName_of_child rooted' child', sameName]
          rw [ih parent child (rooted.parentHas child) (rooted'.parentHas child')
            (fun upper above => names upper (above.tail child))
            (fun upper above => parents upper (above.tail child))]

end DocGraph.Graph
