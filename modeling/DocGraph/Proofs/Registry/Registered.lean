import DocGraph.Proofs.Registry.Tables

namespace DocGraph.Graph

open Dotted (IsSegment)

variable {g h : Graph} {id parent child : EntityId}

/-- No name of an entity has a dot in it. -/
def Segmented (g : Graph) : Prop := ∀ id, g.Has id → IsSegment (g.entity id).name

/-- Every entity but `loose` is bound in the table of its parent. -/
def Complete (g : Graph) (loose : Option EntityId) : Prop :=
  ∀ parent child, g.IsParent parent child → loose ≠ some child →
    (g.entity parent).contents.get? (g.entity child).name = some child

/-- No two entities without a parent have one name. -/
def RootsApart (g : Graph) : Prop :=
  ∀ left right, g.Has left → g.Has right → (g.entity left).parent = none →
    (g.entity right).parent = none → (g.entity left).name = (g.entity right).name → left = right

/-- Tables are complete, and the index leads from every full name to its entity. An entity that is
being attached, and what stands below it, is left out. -/
structure Registered (g : Graph) (loose : Option EntityId) : Prop where
  complete : g.Complete loose
  rootsApart : g.RootsApart
  index : ∀ name id, g.lookup name = some id ↔
    g.Has id ∧ g.fullName id = name ∧ ∀ top, loose = some top → ¬ g.Above top id

/-- Where tables are complete and names have no dots, no two entities have one full name. -/
theorem fullName_injective (rooted : g.Rooted) (segmented : g.Segmented)
    (complete : g.Complete none) (rootsApart : g.RootsApart)
    {left right : EntityId} (insideLeft : g.Has left) (insideRight : g.Has right)
    (same : g.fullName left = g.fullName right) : left = right := by
  induction left using rooted.wellFounded.induction generalizing right with
  | _ left ih =>
      cases aboveLeft : (g.entity left).parent with
      | none =>
          rw [fullName_of_root rooted insideLeft aboveLeft] at same
          cases aboveRight : (g.entity right).parent with
          | none =>
              rw [fullName_of_root rooted insideRight aboveRight] at same
              exact rootsApart _ _ insideLeft insideRight aboveLeft aboveRight same
          | some parentRight =>
              rw [fullName_of_child rooted aboveRight] at same
              exact absurd (same ▸ segmented left insideLeft) (Dotted.not_isSegment_extend _ _)
      | some parentLeft =>
          rw [fullName_of_child rooted aboveLeft] at same
          cases aboveRight : (g.entity right).parent with
          | none =>
              rw [fullName_of_root rooted insideRight aboveRight] at same
              exact absurd (same ▸ segmented right insideRight) (Dotted.not_isSegment_extend _ _)
          | some parentRight =>
              rw [fullName_of_child rooted aboveRight] at same
              obtain ⟨sameAbove, sameName⟩ := Dotted.extend_injective (segmented left insideLeft)
                (segmented right insideRight) same
              have equal := ih parentLeft aboveLeft (rooted.parentHas aboveLeft)
                (rooted.parentHas aboveRight) sameAbove
              subst equal
              have boundLeft := complete _ _ aboveLeft (by simp)
              rw [sameName, complete _ _ aboveRight (by simp)] at boundLeft
              exact (Option.some.inj boundLeft).symm

/-- Registering the entities that an index lacks makes it exact. -/
theorem index_foldl_registerOne {ids : List EntityId}
    (injective : ∀ {left right}, g.Has left → g.Has right → g.fullName left = g.fullName right →
      left = right)
    (inside : ∀ id ∈ ids, g.Has id)
    (kept : ∀ id, g.Has id → id ∉ ids → g.lookup (g.fullName id) = some id)
    (sound : ∀ name id, g.lookup name = some id → g.Has id ∧ g.fullName id = name)
    (name : String) (id : EntityId) :
    (ids.foldl registerOne g).lookup name = some id ↔ g.Has id ∧ g.fullName id = name := by
  by_cases written : ∃ member ∈ ids, g.fullName member = name
  · obtain ⟨member, among, rfl⟩ := written
    rw [lookup_foldl_registerOne ids among fun other member same =>
      injective (inside other member) (inside _ among) same]
    constructor
    · rintro ⟨⟩
      exact ⟨inside _ among, rfl⟩
    · rintro ⟨has, same⟩
      rw [injective has (inside _ among) same]
  · rw [lookup_foldl_registerOne_of_not ids name fun other member same =>
      written ⟨other, member, same⟩]
    constructor
    · exact sound name id
    · rintro ⟨has, rfl⟩
      exact kept id has fun member => written ⟨id, member, rfl⟩

theorem subtree_congr (same : h.entities = g.entities) (id : EntityId) :
    h.subtree id = g.subtree id := by
  have trees (fuel : Nat) (id : EntityId) : h.subtreeFrom fuel id = g.subtreeFrom fuel id := by
    induction fuel generalizing id with
    | zero => rfl
    | succ fuel ih =>
        rw [subtreeFrom, subtreeFrom, entity_congr same]
        congr 2
        funext child
        exact ih child
  simp [subtree, size, same, trees]

theorem register_register (g : Graph) (first second : EntityId) :
    (g.register first).register second =
      (g.subtree first ++ g.subtree second).foldl registerOne g := by
  rw [List.foldl_append]
  conv_lhs => rw [register, subtree_congr (entities_register g first)]
  rfl

/-- Complete tables and an index that lacks nothing but the entities given are made exact by
registering these. -/
theorem registered_foldl_registerOne {ids : List EntityId} (rooted : g.Rooted)
    (segmented : g.Segmented) (complete : g.Complete none) (rootsApart : g.RootsApart)
    (inside : ∀ id ∈ ids, g.Has id)
    (kept : ∀ id, g.Has id → id ∉ ids → g.lookup (g.fullName id) = some id)
    (sound : ∀ name id, g.lookup name = some id → g.Has id ∧ g.fullName id = name) :
    (ids.foldl registerOne g).Registered none := by
  have exact := index_foldl_registerOne
    (fullName_injective rooted segmented complete rootsApart) inside kept sound
  obtain ⟨index, equal⟩ := foldl_registerOne_eq (g := g) ids
  rw [equal] at exact ⊢
  refine ⟨complete, rootsApart, fun name id => ?_⟩
  rw [exact, fullName_reindex g index id]
  simp [Has, size]

namespace SameTree

variable {loose : Option EntityId} (same : SameTree g h)

include same

theorem complete (complete : g.Complete loose) : h.Complete loose := by
  intro parent child held unlike
  rw [same.isParent] at held
  rw [same.contents, same.name]
  exact complete parent child held unlike

theorem rootsApart (rootsApart : g.RootsApart) : h.RootsApart := by
  intro left right insideLeft insideRight
  rw [same.parent, same.parent, same.name, same.name]
  exact rootsApart left right (same.has.mp insideLeft) (same.has.mp insideRight)

theorem segmented (segmented : g.Segmented) : h.Segmented := by
  intro id inside
  rw [same.name]
  exact segmented id (same.has.mp inside)

theorem registered (registered : g.Registered loose) (index : h.index = g.index) :
    h.Registered loose := by
  refine ⟨same.complete registered.complete, same.rootsApart registered.rootsApart, fun name id => ?_⟩
  rw [lookup, index, same.has, same.fullName, same.above]
  exact registered.index name id

end SameTree

/-- What stands below an entity is reached through the tables, as long as the entity left out does not
stand below it. -/
theorem reaches_of_above {loose : Option EntityId} {upper lower : EntityId}
    (complete : g.Complete loose)
    (clear : ∀ {parent top}, loose = some top → g.IsParent parent top → ¬ g.Above upper parent)
    (above : g.Above upper lower) : g.Reaches upper lower := by
  induction above with
  | refl => exact Relation.ReflTransGen.refl
  | @tail middle lower before last ih =>
      refine Relation.ReflTransGen.tail ih ⟨_, complete _ _ last fun equal => ?_⟩
      exact clear equal last before

theorem mem_subtree_iff {loose : Option EntityId} {upper lower : EntityId} (rooted : g.Rooted)
    (tabled : g.Tabled) (inside : g.Has upper)
    (complete : g.Complete loose)
    (clear : ∀ {parent top}, loose = some top → g.IsParent parent top → ¬ g.Above upper parent) :
    lower ∈ g.subtree upper ↔ g.Above upper lower := by
  rw [mem_subtree rooted tabled inside]
  exact ⟨Reaches.above tabled, reaches_of_above complete clear⟩

/-- What stands below an entity is taken out of the index with it, and nothing else is. -/
theorem lookup_unregister {loose : Option EntityId} {upper : EntityId} (rooted : g.Rooted) (tabled : g.Tabled)
    (inside : g.Has upper) (complete : g.Complete loose)
    (clear : ∀ {parent top}, loose = some top → g.IsParent parent top → ¬ g.Above upper parent)
    (name : String) (id : EntityId) :
    (g.unregister upper).lookup name = some id ↔
      g.lookup name = some id ∧ ¬ (g.Above upper id ∧ g.fullName id = name) := by
  rw [unregister, lookup_foldl_unregisterOne, mem_subtree_iff rooted tabled inside complete clear]

theorem complete_bindChild (inside : g.Has parent) (held : g.IsParent parent child)
    (free : (g.entity parent).contents.get? (g.entity child).name = none)
    (complete : g.Complete (some child)) :
    (g.bindChild parent (g.entity child).name child).Complete none := by
  intro owner other holding _
  rw [(arranged_bindChild g parent (g.entity child).name child).isParent] at holding
  rw [name_bindChild, contents_bindChild inside]
  by_cases own : other = child
  · subst own
    have same : owner = parent := Option.some.inj (holding.symm.trans held)
    simp [same, Contents.get?_insert]
  · have listed := complete _ _ holding fun equal => own (Option.some.inj equal).symm
    split
    · rename_i same
      subst same
      rw [Contents.get?_insert, if_neg, listed]
      intro equal
      rw [equal, listed] at free
      cases free
    · exact listed

/-- A child under a name that was free. -/
theorem registered_bindChild (rooted : g.Rooted) (tabled : g.Tabled) (segmented : g.Segmented)
    (held : g.IsParent parent child)
    (free : (g.entity parent).contents.get? (g.entity child).name = none)
    (registered : g.Registered (some child)) :
    ((g.bindChild parent (g.entity child).name child).register child).Registered none := by
  have inside := rooted.parentHas held
  have insideChild := g.has_of_parent held
  have tabledAfter := tabled_bindChild tabled held inside
  have arranged := arranged_bindChild g parent (g.entity child).name child
  have complete := complete_bindChild inside held free registered.complete
  have lookup (name : String) :
      (g.bindChild parent (g.entity child).name child).lookup name = g.lookup name := rfl
  have name (id : EntityId) : ((g.bindChild parent (g.entity child).name child).entity id).name =
      (g.entity id).name := name_bindChild ..
  generalize g.bindChild parent (g.entity child).name child = h at *
  have rootedAfter := arranged.rooted rooted
  have above : h.Above = g.Above := by simp only [funext_iff, Above, arranged.isParent, implies_true]
  have fullName (id : EntityId) : h.fullName id = g.fullName id :=
    fullName_congr arranged.size name (arranged.read Entity.parent fun _ _ _ => rfl) id
  have members (id : EntityId) : id ∈ h.subtree child ↔ g.Above child id := by
    rw [mem_subtree_iff rootedAfter tabledAfter (arranged.has.mpr insideChild) complete (by simp), above]
  rw [register]
  refine registered_foldl_registerOne rootedAfter ?_ complete ?_ ?_ ?_ ?_
  · intro id has
    rw [name]
    exact segmented id (arranged.has.mp has)
  · intro left right hasLeft hasRight
    rw [name, name, arranged.read Entity.parent (fun _ _ _ => rfl) left,
      arranged.read Entity.parent (fun _ _ _ => rfl) right]
    exact registered.rootsApart _ _ (arranged.has.mp hasLeft) (arranged.has.mp hasRight)
  · exact fun id => has_of_mem_subtree tabledAfter (arranged.has.mpr insideChild)
  · intro id has outside
    rw [lookup, fullName]
    refine (registered.index _ id).mpr ⟨arranged.has.mp has, rfl, ?_⟩
    rintro _ ⟨⟩ below
    exact outside ((members id).mpr below)
  · intro name id found
    rw [lookup] at found
    obtain ⟨has, named, _⟩ := (registered.index name id).mp found
    exact ⟨arranged.has.mpr has, (fullName id).trans named⟩

/-- The trees differ in one entity at most, which is no root. -/
structure DiffersAt (g h : Graph) (id : EntityId) : Prop where
  has : ∀ other, h.Has other ↔ g.Has other
  name : ∀ {other}, other ≠ id → (h.entity other).name = (g.entity other).name
  parent : ∀ {other}, other ≠ id → (h.entity other).parent = (g.entity other).parent
  below : (h.entity id).parent ≠ none

namespace DiffersAt

variable {id : EntityId} (differs : DiffersAt g h id)

include differs

theorem fullName (rooted : g.Rooted) (rootedAfter : h.Rooted) {other : EntityId} (inside : g.Has other)
    (outside : ¬ g.Above id other) : h.fullName other = g.fullName other := by
  have apart (upper : EntityId) (above : g.Above upper other) : upper ≠ id :=
    fun equal => outside (equal ▸ above)
  exact fullName_eq_of_above rooted rootedAfter inside ((differs.has other).mpr inside)
    (fun upper above => differs.name (apart upper above))
    (fun upper above => differs.parent (apart upper above))

theorem rootsApart (rootsApart : g.RootsApart) : h.RootsApart := by
  intro left right insideLeft insideRight rootLeft rootRight
  have apart {other : EntityId} (root : (h.entity other).parent = none) : other ≠ id := by
    rintro rfl
    exact differs.below root
  rw [differs.name (apart rootLeft), differs.name (apart rootRight)]
  rw [differs.parent (apart rootLeft)] at rootLeft
  rw [differs.parent (apart rootRight)] at rootRight
  exact rootsApart left right ((differs.has left).mp insideLeft) ((differs.has right).mp insideRight)
    rootLeft rootRight

theorem segmented (own : IsSegment (h.entity id).name) (segmented : g.Segmented) : h.Segmented := by
  intro other inside
  by_cases same : other = id
  · exact same ▸ own
  · rw [differs.name same]
    exact segmented other ((differs.has other).mp inside)

theorem congr {k : Graph} (has : ∀ other, k.Has other ↔ h.Has other)
    (name : ∀ other, (k.entity other).name = (h.entity other).name)
    (parent : ∀ other, (k.entity other).parent = (h.entity other).parent) : DiffersAt g k id := by
  refine ⟨fun other => (has other).trans (differs.has other), fun unlike => ?_, fun unlike => ?_, ?_⟩
  · rw [name, differs.name unlike]
  · rw [parent, differs.parent unlike]
  · rw [parent]
    exact differs.below

end DiffersAt

section demote

variable {previous winner loser : EntityId} {name : String} {number : Nat}

/-- The numbered name is bound to nothing, since the full name it would have is free. -/
theorem numbered_unbound (rooted : g.Rooted) (tabled : g.Tabled) (held : g.IsParent parent child)
    (named : (g.entity child).name = name)
    (found : (g.entity parent).contents.get? name = some previous)
    (free : g.lookup (numbered (g.fullName previous) number) = none)
    (registered : g.Registered (some child)) {other : EntityId} (holding : g.IsParent parent other) :
    (g.entity other).name ≠ numbered name number := by
  intro same
  have unlike : other ≠ child := by
    rintro rfl
    exact numbered_ne name number (same.symm.trans named)
  have outside : ¬ g.Above child other := by
    intro below
    rcases Relation.ReflTransGen.cases_tail below with equal | ⟨middle, above, last⟩
    · exact unlike equal
    · have equal : middle = parent := Option.some.inj (last.symm.trans holding)
      exact rooted.not_above_parent held (equal ▸ above)
  obtain ⟨heldPrevious, namedPrevious⟩ := tabled.bound found
  have fullName : g.fullName other = numbered (g.fullName previous) number := by
    rw [fullName_of_child rooted holding, fullName_of_child rooted heldPrevious, namedPrevious, same,
      numbered_extend]
  have listed : g.lookup (g.fullName other) = some other := by
    refine (registered.index _ _).mpr ⟨g.has_of_parent holding, rfl, ?_⟩
    rintro _ ⟨⟩
    exact outside
  rw [fullName, free] at listed
  cases listed

theorem complete_relabel (rooted : g.Rooted) (tabled : g.Tabled)
    (held : g.IsParent parent child) (named : (g.entity child).name = name)
    (found : (g.entity parent).contents.get? name = some previous)
    {policy : DuplicatePolicy} (roles : Contest policy child previous winner loser)
    (free : g.lookup (numbered (g.fullName previous) number) = none)
    (registered : g.Registered (some child)) :
    (g.relabel parent winner loser name number).Complete none := by
  have inside := rooted.parentHas held
  have loserHeld := (roles.loser_held tabled held named found).1
  intro owner other holding _
  rw [(arranged_relabel g parent winner loser name number).isParent] at holding
  rw [name_relabel (g.has_of_parent loserHeld), get?_relabel inside]
  by_cases lost : other = loser
  · subst lost
    have same : owner = parent := Option.some.inj (holding.symm.trans loserHeld)
    simp [same]
  · rw [if_neg lost]
    have listed (unlike : other ≠ child) :
        (g.entity owner).contents.get? (g.entity other).name = some other :=
      registered.complete _ _ holding fun equal => unlike (Option.some.inj equal).symm
    by_cases same : owner = parent
    · subst same
      have unnumbered := numbered_unbound rooted tabled held named found free registered holding
      rw [if_pos rfl, if_neg unnumbered.symm]
      split
      · rename_i equal
        -- Of the two that met under the name, this is the one that keeps it.
        by_cases own : other = child
        · cases roles
          · rw [own]
          · exact absurd own lost
        · have both := (listed own).symm.trans (equal ▸ found)
          cases roles
          · exact absurd (Option.some.inj both) lost
          · exact both.symm
      · rename_i unlike
        exact listed fun equal => unlike (by rw [equal, named])
    · rw [if_neg same]
      exact listed fun equal => same (Option.some.inj ((equal ▸ holding).symm.trans held))

theorem differsAt_relabel (held : g.IsParent parent loser) :
    DiffersAt g (g.relabel parent winner loser name number) loser := by
  have arranged := arranged_relabel g parent winner loser name number
  have parents := arranged.read Entity.parent (fun _ _ _ => rfl)
  refine ⟨fun _ => arranged.has, fun kept => ?_, fun _ => parents _, ?_⟩
  · rw [name_relabel (g.has_of_parent held), if_neg kept]
  · rw [parents, held]
    simp

/-- Two children that met under one name. -/
theorem registered_demote (rooted : g.Rooted) (tabled : g.Tabled) (segmented : g.Segmented)
    (unlisted : g.Unlisted child) (held : g.IsParent parent child)
    (named : (g.entity child).name = name)
    (found : (g.entity parent).contents.get? name = some previous)
    {policy : DuplicatePolicy} (roles : Contest policy child previous winner loser)
    (free : g.lookup (numbered (g.fullName previous) number) = none)
    (registered : g.Registered (some child)) :
    (g.demote parent winner loser name number).Registered none := by
  have loserHeld := (roles.loser_held tabled held named found).1
  have insideLoser := g.has_of_parent loserHeld
  have insideWinner := g.has_of_parent (roles.winner_held tabled held named found).1
  have either : child = winner ∨ child = loser := by
    cases roles
    · exact .inl rfl
    · exact .inr rfl
  have arranged := arranged_relabel g parent winner loser name number
  have same : SameTree (g.relabel parent winner loser name number)
      ((g.unregister loser).relabel parent winner loser name number) :=
    .of_entities (entities_relabel (entities_unregister g loser) ..)
  have differs : DiffersAt g ((g.unregister loser).relabel parent winner loser name number) loser :=
    (differsAt_relabel loserHeld).congr (fun _ => same.has) same.name same.parent
  have numberedLoser : (((g.unregister loser).relabel parent winner loser name number).entity loser).name =
      numbered name number := by
    rw [same.name, name_relabel insideLoser, if_pos rfl]
  have lookup (key : String) (id : EntityId) :
      ((g.unregister loser).relabel parent winner loser name number).lookup key = some id ↔
        g.lookup key = some id ∧ ¬ (g.Above loser id ∧ g.fullName id = key) := by
    refine lookup_unregister rooted tabled insideLoser registered.complete ?_ key id
    rintro owner _ ⟨⟩ holding
    have same : owner = parent := Option.some.inj (holding.symm.trans held)
    exact same ▸ rooted.not_above_parent loserHeld
  have rootedAfter := same.rooted (arranged.rooted rooted)
  have completeAfter := same.complete
    (complete_relabel rooted tabled held named found roles free registered)
  have tabledAfter := same.tabled (tabled_relabel rooted tabled unlisted held named found roles)
  have above : ((g.unregister loser).relabel parent winner loser name number).Above = g.Above := by
    simp only [funext_iff, Above, same.isParent, arranged.isParent, implies_true]
  rw [demote_eq, register_register]
  generalize (g.unregister loser).relabel parent winner loser name number = h at *
  have members (top id : EntityId) (inside : g.Has top) : id ∈ h.subtree top ↔ g.Above top id := by
    rw [mem_subtree_iff rootedAfter tabledAfter ((differs.has top).mpr inside) completeAfter (by simp),
      above]
  refine registered_foldl_registerOne rootedAfter (differs.segmented ?_ segmented) completeAfter
    (differs.rootsApart registered.rootsApart) ?_ ?_ ?_
  · rw [numberedLoser, isSegment_numbered, ← named]
    exact segmented child (g.has_of_parent held)
  · intro id member
    rcases List.mem_append.mp member with below | below
    · exact has_of_mem_subtree tabledAfter ((differs.has loser).mpr insideLoser) below
    · exact has_of_mem_subtree tabledAfter ((differs.has winner).mpr insideWinner) below
  · intro id inside outside
    rw [List.mem_append, members loser id insideLoser, members winner id insideWinner, not_or] at outside
    have insideOld := (differs.has id).mp inside
    rw [differs.fullName rooted rootedAfter insideOld outside.1, lookup]
    refine ⟨(registered.index _ id).mpr ⟨insideOld, rfl, ?_⟩, fun both => outside.1 both.1⟩
    rintro _ ⟨⟩
    rcases either with equal | equal
    · exact equal ▸ outside.2
    · exact equal ▸ outside.1
  · intro key id found
    obtain ⟨listed, kept⟩ := (lookup key id).mp found
    obtain ⟨inside, same, _⟩ := (registered.index key id).mp listed
    have outside : ¬ g.Above loser id := fun below => kept ⟨below, same⟩
    exact ⟨(differs.has id).mpr inside, (differs.fullName rooted rootedAfter inside outside).trans same⟩

end demote

theorem registered_attach (rooted : g.Rooted) (tabled : g.Tabled) (segmented : g.Segmented)
    (unlisted : g.Unlisted child) (held : g.IsParent parent child)
    (registered : g.Registered (some child)) : (g.attach parent child).Registered none := by
  rcases attach_cases g parent child unlisted with
    ⟨free, equal⟩ | ⟨previous, winner, loser, number, message, found, roles, free, equal⟩
  · rw [equal]
    exact registered_bindChild rooted tabled segmented held free registered
  · rw [equal]
    have same : SameTree g (g.report child message "ast" 0 1) := SameTree.of_entities rfl
    exact registered_demote (same.rooted rooted) (same.tabled tabled) segmented unlisted held rfl found
      roles (same.fullName previous ▸ free) (same.registered registered rfl)

end DocGraph.Graph
