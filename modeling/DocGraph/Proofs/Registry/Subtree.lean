import DocGraph.Proofs.Registry.Ancestry
import DocGraph.Proofs.Registry.Bindings

namespace DocGraph

namespace Graph

variable {g : Graph} {id parent : EntityId}

/-- `parent` lists `child` in its table. -/
def Holds (g : Graph) (parent child : EntityId) : Prop :=
  ∃ name, (g.entity parent).contents.get? name = some child

/-- The entity `lower` is reached from `upper` through the tables of children. -/
def Reaches (g : Graph) (upper lower : EntityId) : Prop := Relation.ReflTransGen g.Holds upper lower

/-- Tables are listed, and an entity that a table binds has the owner as its parent and the bound
name as its name. -/
structure Tabled (g : Graph) : Prop where
  listed : ∀ id, (g.entity id).contents.Listed
  bound : ∀ {parent child name}, (g.entity parent).contents.get? name = some child →
    g.IsParent parent child ∧ (g.entity child).name = name

theorem Tabled.isParent (tabled : g.Tabled) {parent child : EntityId} (held : g.Holds parent child) :
    g.IsParent parent child := by
  obtain ⟨name, found⟩ := held
  exact (tabled.bound found).1

theorem Reaches.above {upper lower : EntityId} (tabled : g.Tabled) (reached : g.Reaches upper lower) :
    g.Above upper lower :=
  Relation.ReflTransGen.mono (fun _ _ => tabled.isParent) _ _ reached

theorem Reaches.has {upper lower : EntityId} (tabled : g.Tabled) (reached : g.Reaches upper lower)
    (inside : g.Has upper) : g.Has lower := by
  rcases Relation.ReflTransGen.cases_tail reached with rfl | ⟨_, _, last⟩
  · exact inside
  · exact g.has_of_parent (tabled.isParent last)

theorem reaches_of_mem_subtreeFrom (tabled : g.Tabled) {fuel : Nat} {upper lower : EntityId}
    (member : lower ∈ g.subtreeFrom fuel upper) : g.Reaches upper lower := by
  induction fuel generalizing upper with
  | zero => cases member
  | succ fuel ih =>
      rw [subtreeFrom, List.mem_cons, List.mem_flatMap] at member
      rcases member with rfl | ⟨child, listed, below⟩
      · exact Relation.ReflTransGen.refl
      · exact Relation.ReflTransGen.head ((tabled.listed upper).mem_ids.mp listed) (ih below)

theorem mem_subtreeFrom (rooted : g.Rooted) (tabled : g.Tabled) {upper lower : EntityId}
    (reached : g.Reaches upper lower) {fuel : Nat} (enough : g.depth lower < g.depth upper + fuel) :
    lower ∈ g.subtreeFrom fuel upper := by
  -- Each table passed brings the depth one closer to that of `lower` and takes one from the fuel.
  induction reached using Relation.ReflTransGen.head_induction_on generalizing fuel with
  | refl =>
      obtain ⟨rest, rfl⟩ : ∃ rest, fuel = rest + 1 := ⟨fuel - 1, by omega⟩
      simp [subtreeFrom]
  | @head upper child first rest ih =>
      have deeper := depth_of_child rooted (tabled.isParent first)
      have below := (Reaches.above tabled rest).depth_le rooted
      obtain ⟨left, rfl⟩ : ∃ left, fuel = left + 1 := ⟨fuel - 1, by omega⟩
      rw [subtreeFrom, List.mem_cons, List.mem_flatMap]
      exact .inr ⟨child, (tabled.listed upper).mem_ids.mpr first, ih (by omega)⟩

/-- No chain of tables is longer than the graph, so the bound cuts nothing off. -/
theorem mem_subtree (rooted : g.Rooted) (tabled : g.Tabled) {upper lower : EntityId}
    (inside : g.Has upper) : lower ∈ g.subtree upper ↔ g.Reaches upper lower := by
  refine ⟨reaches_of_mem_subtreeFrom tabled, fun reached => ?_⟩
  apply mem_subtreeFrom rooted tabled reached
  have bound := depth_le_size rooted (reached.has tabled inside)
  have positive := depth_pos rooted inside
  omega

theorem has_of_mem_subtree (tabled : g.Tabled) {upper lower : EntityId} (inside : g.Has upper)
    (member : lower ∈ g.subtree upper) : g.Has lower :=
  (reaches_of_mem_subtreeFrom tabled member).has tabled inside

section index

variable (ids : List EntityId)

theorem foldl_registerOne_eq :
    ∃ index, ids.foldl registerOne g = { g with index } := by
  induction ids generalizing g with
  | nil => exact ⟨g.index, rfl⟩
  | cons id rest ih =>
      obtain ⟨index, equal⟩ := ih (g := g.registerOne id)
      exact ⟨index, equal⟩

theorem unregisterOne_eq (g : Graph) (id : EntityId) :
    g.unregisterOne id = { g with index := (g.unregisterOne id).index } := by
  unfold unregisterOne
  dsimp only
  split <;> rfl

theorem foldl_unregisterOne_eq :
    ∃ index, ids.foldl unregisterOne g = { g with index } := by
  induction ids generalizing g with
  | nil => exact ⟨g.index, rfl⟩
  | cons id rest ih =>
      obtain ⟨index, equal⟩ := ih (g := g.unregisterOne id)
      refine ⟨index, ?_⟩
      rw [List.foldl_cons, equal, unregisterOne_eq]

theorem register_eq (g : Graph) (id : EntityId) :
    g.register id = { g with index := (g.register id).index } := by
  obtain ⟨index, equal⟩ := foldl_registerOne_eq (g := g) (g.subtree id)
  rw [register, equal]

theorem unregister_eq (g : Graph) (id : EntityId) :
    g.unregister id = { g with index := (g.unregister id).index } := by
  obtain ⟨index, equal⟩ := foldl_unregisterOne_eq (g := g) (g.subtree id)
  rw [unregister, equal]

theorem fullName_reindex (g : Graph) (index : NameMap EntityId) (id : EntityId) :
    { g with index : Graph }.fullName id = g.fullName id :=
  fullName_congr (g := g) (h := { g with index }) rfl (fun _ => rfl) (fun _ => rfl) id

@[simp] theorem fullName_registerOne (g : Graph) (id other : EntityId) :
    (g.registerOne id).fullName other = g.fullName other :=
  fullName_reindex g _ other

@[simp] theorem fullName_unregisterOne (g : Graph) (id other : EntityId) :
    (g.unregisterOne id).fullName other = g.fullName other := by
  rw [unregisterOne_eq, fullName_reindex]

theorem lookup_registerOne (g : Graph) (id : EntityId) (name : String) :
    (g.registerOne id).lookup name = if g.fullName id = name then some id else g.lookup name :=
  NameMap.get_insert _ _ _ _

theorem lookup_unregisterOne (g : Graph) (id : EntityId) (name : String) :
    (g.unregisterOne id).lookup name =
      if g.fullName id = name ∧ g.lookup name = some id then none else g.lookup name := by
  unfold unregisterOne
  by_cases same : g.fullName id = name
  · subst same
    by_cases own : g.lookup (g.fullName id) = some id
    · simp only [own, if_pos, and_self]
      exact (NameMap.get_erase _ _ _).trans (if_pos rfl)
    · simp [own]
  · simp only [same, false_and, if_false]
    split
    · exact (NameMap.get_erase _ _ _).trans (if_neg same)
    · rfl

theorem lookup_foldl_registerOne_of_not (name : String)
    (others : ∀ id ∈ ids, g.fullName id ≠ name) :
    (ids.foldl registerOne g).lookup name = g.lookup name := by
  induction ids generalizing g with
  | nil => rfl
  | cons id rest ih =>
      rw [List.foldl_cons, ih, lookup_registerOne, if_neg (others id (by simp))]
      intro other member
      rw [fullName_registerOne]
      exact others other (by simp [member])

theorem lookup_foldl_registerOne {id : EntityId} (member : id ∈ ids)
    (unique : ∀ other ∈ ids, g.fullName other = g.fullName id → other = id) :
    (ids.foldl registerOne g).lookup (g.fullName id) = some id := by
  induction ids generalizing g with
  | nil => cases member
  | cons first rest ih =>
      rw [List.foldl_cons]
      by_cases later : id ∈ rest
      · have found := ih (g := g.registerOne first) later (fun other inRest same =>
          unique other (by simp [inRest]) (by simpa using same))
        rwa [fullName_registerOne] at found
      · have same : id = first := by simpa [later] using member
        subst same
        rw [lookup_foldl_registerOne_of_not, lookup_registerOne, if_pos rfl]
        intro other inRest same
        rw [fullName_registerOne] at same
        exact later (unique other (by simp [inRest]) same ▸ inRest)

theorem lookup_foldl_unregisterOne (name : String) (id : EntityId) :
    (ids.foldl unregisterOne g).lookup name = some id ↔
      g.lookup name = some id ∧ ¬ (id ∈ ids ∧ g.fullName id = name) := by
  induction ids generalizing g with
  | nil => simp
  | cons first rest ih =>
      rw [List.foldl_cons, ih, fullName_unregisterOne, lookup_unregisterOne]
      by_cases erased : g.fullName first = name ∧ g.lookup name = some first
      · rw [if_pos erased, erased.2]
        constructor
        · rintro ⟨⟨⟩, _⟩
        · rintro ⟨⟨⟩, kept⟩
          exact absurd ⟨by simp, erased.1⟩ kept
      · simp only [if_neg erased, List.mem_cons]
        constructor
        · rintro ⟨found, kept⟩
          refine ⟨found, ?_⟩
          rintro ⟨rfl | later, same⟩
          · exact erased ⟨same, found⟩
          · exact kept ⟨later, same⟩
        · rintro ⟨found, kept⟩
          exact ⟨found, fun ⟨later, same⟩ => kept ⟨.inr later, same⟩⟩

end index

end Graph

end DocGraph
