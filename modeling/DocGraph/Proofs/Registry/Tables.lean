import DocGraph.Graph.Move
import DocGraph.Proofs.Registry.Subtree

namespace DocGraph.Graph

variable {g h : Graph} {id parent child : EntityId}

/-- The two graphs have the same entities under the same names, parents and tables. -/
structure SameTree (g h : Graph) : Prop where
  size : h.size = g.size
  name : ∀ id, (h.entity id).name = (g.entity id).name
  parent : ∀ id, (h.entity id).parent = (g.entity id).parent
  contents : ∀ id, (h.entity id).contents = (g.entity id).contents

theorem entity_congr (same : h.entities = g.entities) : h.entity = g.entity := by
  funext id
  simp [entity, same]

namespace SameTree

theorem of_entities (same : h.entities = g.entities) : SameTree g h := by
  constructor <;> simp [Graph.size, same, entity_congr same]

theorem symm (same : SameTree g h) : SameTree h g :=
  ⟨same.size.symm, fun id => (same.name id).symm, fun id => (same.parent id).symm,
    fun id => (same.contents id).symm⟩

variable (same : SameTree g h)

include same

theorem has : h.Has id ↔ g.Has id := by simp [Has, same.size]

theorem isParent : h.IsParent = g.IsParent := by
  funext parent child
  simp [IsParent, same.parent]

theorem above : h.Above = g.Above := by
  simp only [funext_iff, Above, same.isParent, implies_true]

theorem fullName (id : EntityId) : h.fullName id = g.fullName id :=
  fullName_congr same.size same.name same.parent id

theorem rooted (rooted : g.Rooted) : h.Rooted := by
  constructor
  · rw [same.isParent]
    exact rooted.wellFounded
  · intro parent child held
    rw [same.isParent] at held
    exact same.has.mpr (rooted.parentHas held)

theorem tabled (tabled : g.Tabled) : h.Tabled := by
  constructor
  · intro id
    rw [same.contents]
    exact tabled.listed id
  · intro parent child name found
    rw [same.contents] at found
    rw [same.isParent, same.name]
    exact tabled.bound found

end SameTree

/-- The two graphs differ in names, tables of children, the index and the diagnostics alone. -/
structure Arranged (g h : Graph) : Prop where
  size : h.size = g.size
  roots : h.roots = g.roots
  options : h.options = g.options
  entity : ∀ id, ∃ name contents, h.entity id = { g.entity id with name, contents }

namespace Arranged

theorem trans {k : Graph} (first : Arranged g h) (second : Arranged h k) : Arranged g k := by
  refine ⟨second.size.trans first.size, second.roots.trans first.roots,
    second.options.trans first.options, fun id => ?_⟩
  obtain ⟨name, contents, behind⟩ := second.entity id
  obtain ⟨_, _, before⟩ := first.entity id
  exact ⟨name, contents, by rw [behind, before]⟩

theorem has (arranged : Arranged g h) : h.Has id ↔ g.Has id := by simp [Has, arranged.size]

theorem read {α : Sort*} (arranged : Arranged g h) (read : Entity → α)
    (blind : ∀ e name contents, read { e with name, contents } = read e) (id : EntityId) :
    read (h.entity id) = read (g.entity id) := by
  obtain ⟨name, contents, equal⟩ := arranged.entity id
  rw [equal, blind]

theorem isParent (arranged : Arranged g h) : h.IsParent = g.IsParent := by
  funext parent child
  simp only [IsParent, arranged.read Entity.parent (fun _ _ _ => rfl)]

theorem rooted (arranged : Arranged g h) (rooted : g.Rooted) : h.Rooted := by
  constructor
  · rw [arranged.isParent]
    exact rooted.wellFounded
  · intro parent child held
    rw [arranged.isParent] at held
    exact arranged.has.mpr (rooted.parentHas held)

end Arranged

theorem arranged_reindex (g : Graph) (index : NameMap EntityId) : Arranged g { g with index } :=
  ⟨rfl, rfl, rfl, fun _ => ⟨_, _, rfl⟩⟩

theorem arranged_register (g : Graph) (id : EntityId) : Arranged g (g.register id) := by
  rw [register_eq]
  exact arranged_reindex g _

theorem arranged_unregister (g : Graph) (id : EntityId) : Arranged g (g.unregister id) := by
  rw [unregister_eq]
  exact arranged_reindex g _

theorem arranged_bindChild (g : Graph) (parent : EntityId) (name : String) (child : EntityId) :
    Arranged g (g.bindChild parent name child) := by
  refine ⟨by simp [bindChild], rfl, rfl, fun id => ?_⟩
  rw [bindChild, entity_modify]
  split <;> exact ⟨_, _, rfl⟩

theorem arranged_rename (g : Graph) (id : EntityId) (name : String) : Arranged g (g.rename id name) := by
  refine ⟨by simp [rename], rfl, rfl, fun id => ?_⟩
  rw [rename, entity_modify]
  split <;> exact ⟨_, _, rfl⟩

theorem arranged_report (g : Graph) (id : EntityId) (message topic : String) (offset threshold : Int) :
    Arranged g (g.report id message topic offset threshold) :=
  ⟨rfl, rfl, rfl, fun _ => ⟨_, _, rfl⟩⟩

/-- The names and the table behind a demotion, before anything is registered. -/
def relabel (g : Graph) (parent winner loser : EntityId) (name : String) (number : Nat) : Graph :=
  ((g.rename loser (numbered name number)).bindChild parent name winner).bindChild parent
    (numbered name number) loser

theorem demote_eq (g : Graph) (parent winner loser : EntityId) (name : String) (number : Nat) :
    g.demote parent winner loser name number =
      (((g.unregister loser).relabel parent winner loser name number).register loser).register winner :=
  rfl

theorem arranged_relabel (g : Graph) (parent winner loser : EntityId) (name : String) (number : Nat) :
    Arranged g (g.relabel parent winner loser name number) :=
  ((arranged_rename g _ _).trans (arranged_bindChild _ _ _ _)).trans (arranged_bindChild _ _ _ _)

theorem arranged_demote (g : Graph) (parent winner loser : EntityId) (name : String) (number : Nat) :
    Arranged g (g.demote parent winner loser name number) := by
  rw [demote_eq]
  exact (((arranged_unregister g loser).trans (arranged_relabel _ _ _ _ _ _)).trans
    (arranged_register _ _)).trans (arranged_register _ _)

theorem arranged_attach (g : Graph) (parent child : EntityId) : Arranged g (g.attach parent child) := by
  unfold attach
  dsimp only
  split
  · exact (arranged_bindChild g _ _ _).trans (arranged_register _ _)
  · split
    · exact (arranged_bindChild g _ _ _).trans (arranged_register _ _)
    · exact (arranged_report g _ _ _ _ _).trans (arranged_demote _ _ _ _ _ _)

section relabel

variable {winner loser : EntityId} {name : String} {number : Nat}

@[simp] theorem name_bindChild (g : Graph) (parent : EntityId) (name : String) (child id : EntityId) :
    ((g.bindChild parent name child).entity id).name = (g.entity id).name := by
  rw [bindChild, entity_modify]
  split <;> rfl

@[simp] theorem contents_rename (g : Graph) (id : EntityId) (name : String) (other : EntityId) :
    ((g.rename id name).entity other).contents = (g.entity other).contents := by
  rw [rename, entity_modify]
  split <;> rfl

theorem name_relabel (inside : g.Has loser) (id : EntityId) :
    ((g.relabel parent winner loser name number).entity id).name =
      if id = loser then numbered name number else (g.entity id).name := by
  rw [relabel, name_bindChild, name_bindChild, rename, entity_modify]
  by_cases same : id = loser
  · subst same
    simp [inside]
  · simp [same, Ne.symm same]

theorem contents_bindChild (inside : g.Has parent) (id : EntityId) :
    ((g.bindChild parent name child).entity id).contents =
      if id = parent then (g.entity parent).contents.insert name child
      else (g.entity id).contents := by
  rw [bindChild, entity_modify]
  by_cases same : id = parent
  · subst same
    simp [inside]
  · simp [same, Ne.symm same]

theorem contents_relabel (inside : g.Has parent) (id : EntityId) :
    ((g.relabel parent winner loser name number).entity id).contents =
      if id = parent then
        ((g.entity parent).contents.insert name winner).insert (numbered name number) loser
      else (g.entity id).contents := by
  rw [relabel, contents_bindChild (by simpa [bindChild, rename] using inside),
    contents_bindChild (by simpa [rename] using inside),
    contents_bindChild (by simpa [rename] using inside), contents_rename, contents_rename]
  by_cases same : id = parent <;> simp [same]

theorem get?_relabel (inside : g.Has parent) (id : EntityId) (key : String) :
    ((g.relabel parent winner loser name number).entity id).contents.get? key =
      if id = parent then
        if numbered name number = key then some loser
        else if name = key then some winner
        else (g.entity parent).contents.get? key
      else (g.entity id).contents.get? key := by
  rw [contents_relabel inside]
  by_cases same : id = parent
  · simp only [if_pos same, Contents.get?_insert]
  · simp only [if_neg same]

end relabel

/-- No table binds the entity. -/
def Unlisted (g : Graph) (id : EntityId) : Prop :=
  ∀ owner name, (g.entity owner).contents.get? name ≠ some id

/-- The two children that meet under one name, in the roles that a policy gives them. -/
inductive Contest (policy : DuplicatePolicy) (child previous : EntityId) :
    (winner loser : EntityId) → Prop
  | later (wins : policy = .laterWins) : Contest policy child previous child previous
  | first (wins : policy = .firstWins) : Contest policy child previous previous child

theorem contest_roles (g : Graph) (previous later : EntityId) :
    Contest g.options.duplicatePolicy later previous (g.contest previous later).1
      (g.contest previous later).2 := by
  unfold contest
  split
  · rename_i wins
    exact .later wins
  · rename_i wins
    exact .first wins

namespace Contest

variable {policy : DuplicatePolicy} {previous winner loser : EntityId} {name : String}
  (roles : Contest policy child previous winner loser) (tabled : g.Tabled)
  (held : g.IsParent parent child) (named : (g.entity child).name = name)
  (found : (g.entity parent).contents.get? name = some previous)

include roles tabled held named found

theorem winner_held : g.IsParent parent winner ∧ (g.entity winner).name = name := by
  cases roles
  · exact ⟨held, named⟩
  · exact tabled.bound found

theorem loser_held : g.IsParent parent loser ∧ (g.entity loser).name = name := by
  cases roles
  · exact tabled.bound found
  · exact ⟨held, named⟩

end Contest

/-- What attaching does: it binds a name that was free, or it parts two children of one name. -/
theorem attach_cases (g : Graph) (parent child : EntityId) (unlisted : g.Unlisted child) :
    ((g.entity parent).contents.get? (g.entity child).name = none ∧
      g.attach parent child = (g.bindChild parent (g.entity child).name child).register child) ∨
    ∃ previous winner loser number message,
      (g.entity parent).contents.get? (g.entity child).name = some previous ∧
      Contest g.options.duplicatePolicy child previous winner loser ∧
      g.lookup (numbered (g.fullName previous) number) = none ∧
      g.attach parent child = (g.report child message "ast" 0 1).demote parent winner loser
        (g.entity child).name number := by
  cases found : (g.entity parent).contents.get? (g.entity child).name with
  | none => exact .inl ⟨rfl, by simp [attach, found]⟩
  | some previous =>
      have apart : previous ≠ child := fun equal => unlisted parent _ (equal ▸ found)
      refine .inr ⟨previous, _, _, _, "duplicate " ++ g.describe previous, rfl,
        contest_roles g previous child, g.lookup_freeNumber (g.fullName previous), ?_⟩
      simp only [attach, found, if_neg apart, attachDuplicate]

theorem tabled_bindChild (tabled : g.Tabled) (held : g.IsParent parent child) (inside : g.Has parent) :
    (g.bindChild parent (g.entity child).name child).Tabled := by
  have arranged := arranged_bindChild g parent (g.entity child).name child
  constructor
  · intro id
    rw [contents_bindChild inside]
    split
    · exact (tabled.listed parent).insert _ _
    · exact tabled.listed id
  · intro owner other key found
    rw [contents_bindChild inside] at found
    rw [arranged.isParent, name_bindChild]
    split at found
    · rename_i same
      subst same
      rw [Contents.get?_insert] at found
      split at found
      · rename_i equal
        cases found
        exact ⟨held, equal⟩
      · exact tabled.bound found
    · exact tabled.bound found

theorem tabled_relabel {previous winner loser : EntityId} {name : String} {number : Nat}
    (rooted : g.Rooted) (tabled : g.Tabled) (unlisted : g.Unlisted child)
    (held : g.IsParent parent child) (named : (g.entity child).name = name)
    (found : (g.entity parent).contents.get? name = some previous)
    {policy : DuplicatePolicy} (roles : Contest policy child previous winner loser) :
    (g.relabel parent winner loser name number).Tabled := by
  have inside := rooted.parentHas held
  obtain ⟨winnerHeld, winnerNamed⟩ := roles.winner_held tabled held named found
  obtain ⟨loserHeld, loserNamed⟩ := roles.loser_held tabled held named found
  have loserInside := g.has_of_parent loserHeld
  have apart : winner ≠ loser := by
    have unlike : previous ≠ child := fun equal => unlisted parent name (equal ▸ found)
    cases roles
    · exact unlike.symm
    · exact unlike
  -- The loser stood in a table at most under the name that the winner now has.
  have loserBound {owner : EntityId} {key : String}
      (bound : (g.entity owner).contents.get? key = some loser) : owner = parent ∧ key = name := by
    obtain ⟨above, own⟩ := tabled.bound bound
    exact ⟨Option.some.inj (above.symm.trans loserHeld), own.symm.trans loserNamed⟩
  constructor
  · intro id
    rw [contents_relabel inside]
    split
    · exact ((tabled.listed parent).insert _ _).insert _ _
    · exact tabled.listed id
  · intro owner other key bound
    rw [get?_relabel inside] at bound
    rw [(arranged_relabel g parent winner loser name number).isParent, name_relabel loserInside]
    have old (bound : (g.entity owner).contents.get? key = some other)
        (unlike : ¬ (owner = parent ∧ key = name)) :
        g.IsParent owner other ∧ (if other = loser then numbered name number
          else (g.entity other).name) = key := by
      obtain ⟨above, own⟩ := tabled.bound bound
      refine ⟨above, ?_⟩
      have unlikeLoser : other ≠ loser := fun equal => unlike (loserBound (equal ▸ bound))
      rw [if_neg unlikeLoser, own]
    split at bound
    · rename_i same
      subst same
      split at bound
      · rename_i equal
        cases bound
        exact ⟨loserHeld, by simp [equal]⟩
      · split at bound
        · rename_i equal
          cases bound
          exact ⟨winnerHeld, by simp [apart, winnerNamed, equal]⟩
        · rename_i unlike
          exact old bound fun both => unlike both.2.symm
    · rename_i unlike
      exact old bound fun both => unlike both.1

theorem entities_register (g : Graph) (id : EntityId) : (g.register id).entities = g.entities := by
  rw [register_eq]

theorem entities_unregister (g : Graph) (id : EntityId) : (g.unregister id).entities = g.entities := by
  rw [unregister_eq]

theorem entities_relabel (same : h.entities = g.entities) (parent winner loser : EntityId)
    (name : String) (number : Nat) :
    (h.relabel parent winner loser name number).entities =
      (g.relabel parent winner loser name number).entities := by
  simp [relabel, rename, bindChild, modify, same]

theorem entities_demote (g : Graph) (parent winner loser : EntityId) (name : String) (number : Nat) :
    (g.demote parent winner loser name number).entities =
      (g.relabel parent winner loser name number).entities := by
  rw [demote_eq, entities_register, entities_register, entities_relabel (entities_unregister g loser)]

theorem tabled_attach (rooted : g.Rooted) (tabled : g.Tabled) (unlisted : g.Unlisted child)
    (held : g.IsParent parent child) : (g.attach parent child).Tabled := by
  rcases attach_cases g parent child unlisted with
    ⟨_, equal⟩ | ⟨previous, winner, loser, number, message, found, roles, _, equal⟩
  · rw [equal]
    exact (SameTree.of_entities (entities_register _ _)).tabled
      (tabled_bindChild tabled held (rooted.parentHas held))
  · rw [equal]
    have relabelled : (g.relabel parent winner loser (g.entity child).name number).Tabled :=
      tabled_relabel rooted tabled unlisted held rfl found roles
    refine (SameTree.of_entities ?_).tabled relabelled
    rw [entities_demote]
    exact entities_relabel rfl ..

/-- An entity may be given a parent that does not stand below it. -/
theorem Rooted.graft {target : EntityId} (rooted : g.Rooted) (outside : ¬ g.Above id target)
    (grows : ∀ {other}, g.Has other → h.Has other) (inside : h.Has target)
    (own : (h.entity id).parent = some target)
    (others : ∀ other, other ≠ id → (h.entity other).parent = (g.entity other).parent) :
    h.Rooted := by
  have step {upper lower : EntityId} (held : h.IsParent upper lower) :
      (lower = id ∧ upper = target) ∨ (lower ≠ id ∧ g.IsParent upper lower) := by
    by_cases same : lower = id
    · subst same
      exact .inl ⟨rfl, Option.some.inj (held.symm.trans own)⟩
    · exact .inr ⟨same, (others lower same).symm.trans held⟩
  -- First what does not stand below `id`, which has the parents it had.
  have apart (other : EntityId) : ¬ g.Above id other → Acc h.IsParent other := by
    induction other using rooted.wellFounded.induction with
    | _ other ih =>
        intro unrelated
        refine Acc.intro other fun upper held => ?_
        rcases step held with ⟨rfl, _⟩ | ⟨_, above⟩
        · exact absurd Relation.ReflTransGen.refl unrelated
        · exact ih upper above fun below => unrelated (below.tail above)
  have grafted : Acc h.IsParent id := by
    refine Acc.intro id fun upper held => ?_
    rcases step held with ⟨_, rfl⟩ | ⟨unlike, _⟩
    · exact apart _ outside
    · exact absurd rfl unlike
  constructor
  · refine ⟨fun other => ?_⟩
    induction other using rooted.wellFounded.induction with
    | _ other ih =>
        by_cases same : other = id
        · exact same ▸ grafted
        · refine Acc.intro other fun upper held => ?_
          rcases step held with ⟨equal, _⟩ | ⟨_, above⟩
          · exact absurd equal same
          · exact ih upper above
  · intro upper lower held
    rcases step held with ⟨_, rfl⟩ | ⟨_, above⟩
    · exact inside
    · exact grows (rooted.parentHas above)

section uproot

variable {oldParent newParent : EntityId} {newName : String}

theorem entity_uproot (rooted : g.Rooted) (held : g.IsParent oldParent id) (other : EntityId) :
    (g.uproot id oldParent newParent (g.entity id).name newName).entity other =
      if other = id then
        { g.entity id with parent := some newParent, name := newName, moved := true }
      else if other = oldParent then
        { g.entity other with contents := (g.entity other).contents.erase (g.entity id).name }
      else g.entity other := by
  have apart : oldParent ≠ id := fun equal =>
    rooted.not_above_parent held (equal ▸ Relation.ReflTransGen.refl)
  have inside := g.has_of_parent held
  have insideOld := rooted.parentHas held
  have has (other : EntityId) : (g.unregister id).Has other ↔ g.Has other :=
    (arranged_unregister g id).has
  rw [uproot, entity_modify, entity_modify, entity_congr (entities_unregister g id)]
  by_cases same : other = id
  · subst same
    simp [has, inside, apart]
  · by_cases old : other = oldParent
    · subst old
      simp [has, insideOld, same, Ne.symm same]
    · simp [same, old, Ne.symm same, Ne.symm old]

theorem has_uproot {oldName : String} {other : EntityId} :
    (g.uproot id oldParent newParent oldName newName).Has other ↔ g.Has other := by
  simp only [uproot, has_modify]
  exact (arranged_unregister g id).has

theorem parent_uproot (rooted : g.Rooted) (held : g.IsParent oldParent id) (other : EntityId) :
    ((g.uproot id oldParent newParent (g.entity id).name newName).entity other).parent =
      if other = id then some newParent else (g.entity other).parent := by
  rw [entity_uproot rooted held]
  split
  · rfl
  · split <;> rfl

/-- Whatever does not place an entity is as it was. -/
theorem read_uproot {α : Sort*} {oldName : String} (read : Entity → α)
    (blind : ∀ e parent name moved contents, read { e with parent, name, moved, contents } = read e)
    (other : EntityId) :
    read ((g.uproot id oldParent newParent oldName newName).entity other) = read (g.entity other) := by
  have erased (e : Entity) (contents : Contents) : read { e with contents } = read e :=
    blind e e.parent e.name e.moved contents
  have placed (e : Entity) : read { e with parent := some newParent, name := newName, moved := true } =
      read e := blind e (some newParent) newName true e.contents
  rw [uproot, entity_modify, entity_modify, entity_congr (entities_unregister g id)]
  split
  · rw [placed]
    split
    · exact erased _ _
    · rfl
  · split
    · exact erased _ _
    · rfl

theorem rooted_uproot (rooted : g.Rooted) (held : g.IsParent oldParent id)
    (outside : ¬ g.Above id newParent) (inside : g.Has newParent) :
    (g.uproot id oldParent newParent (g.entity id).name newName).Rooted := by
  refine rooted.graft outside has_uproot.mpr (has_uproot.mpr inside) ?_ fun other unlike => ?_
  · rw [parent_uproot rooted held, if_pos rfl]
  · rw [parent_uproot rooted held, if_neg unlike]

/-- What a table binds behind the uprooting it bound before, and it is not the entity uprooted. -/
theorem get?_of_uproot {owner other : EntityId} {key : String} (rooted : g.Rooted) (tabled : g.Tabled)
    (held : g.IsParent oldParent id)
    (found : ((g.uproot id oldParent newParent (g.entity id).name newName).entity
      owner).contents.get? key = some other) :
    (g.entity owner).contents.get? key = some other ∧ other ≠ id := by
  have apart : oldParent ≠ id := fun equal =>
    rooted.not_above_parent held (equal ▸ Relation.ReflTransGen.refl)
  have only (bound : (g.entity owner).contents.get? key = some id) :
      owner = oldParent ∧ key = (g.entity id).name := by
    obtain ⟨above, named⟩ := tabled.bound bound
    exact ⟨Option.some.inj (above.symm.trans held), named.symm⟩
  rw [entity_uproot rooted held] at found
  by_cases own : owner = id
  · subst own
    simp only [if_pos] at found
    exact ⟨found, fun equal => apart (only (equal ▸ found)).1.symm⟩
  · by_cases old : owner = oldParent
    · subst old
      simp only [if_neg own, if_pos, Contents.get?_erase] at found
      by_cases same : (g.entity id).name = key
      · simp [same] at found
      · rw [if_neg same] at found
        exact ⟨found, fun equal => same (only (equal ▸ found)).2.symm⟩
    · simp only [if_neg own, if_neg old] at found
      exact ⟨found, fun equal => old (only (equal ▸ found)).1⟩

/-- Where its parent lists the entity, the uprooting takes away no other binding. -/
theorem get?_uproot {owner other : EntityId} {key : String} (rooted : g.Rooted) (tabled : g.Tabled)
    (held : g.IsParent oldParent id)
    (listed : (g.entity oldParent).contents.get? (g.entity id).name = some id) :
    ((g.uproot id oldParent newParent (g.entity id).name newName).entity owner).contents.get? key =
        some other ↔
      (g.entity owner).contents.get? key = some other ∧ other ≠ id := by
  refine ⟨get?_of_uproot rooted tabled held, fun ⟨found, unlike⟩ => ?_⟩
  rw [entity_uproot rooted held]
  split
  · rename_i own
    subst own
    exact found
  · split
    · rename_i old
      subst old
      rw [Contents.get?_erase, if_neg, found]
      intro same
      exact unlike (Option.some.inj (found.symm.trans (same ▸ listed)))
    · exact found

theorem tabled_uproot (rooted : g.Rooted) (tabled : g.Tabled) (held : g.IsParent oldParent id) :
    (g.uproot id oldParent newParent (g.entity id).name newName).Tabled := by
  constructor
  · intro other
    rw [entity_uproot rooted held]
    split
    · exact tabled.listed id
    · split
      · exact (tabled.listed other).erase _
      · exact tabled.listed other
  · intro owner other key found
    obtain ⟨bound, unlike⟩ := get?_of_uproot rooted tabled held found
    have same (read : Entity → Option EntityId × String)
        (blind : ∀ e contents, read { e with contents } = read e) :
        read ((g.uproot id oldParent newParent (g.entity id).name newName).entity other) =
          read (g.entity other) := by
      rw [entity_uproot rooted held, if_neg unlike]
      split
      · exact blind _ _
      · rfl
    have kept := same (fun e => (e.parent, e.name)) (fun _ _ => rfl)
    simp only [Prod.mk.injEq] at kept
    rw [IsParent, kept.1, kept.2]
    exact tabled.bound bound

theorem unlisted_uproot (rooted : g.Rooted) (tabled : g.Tabled) (held : g.IsParent oldParent id) :
    (g.uproot id oldParent newParent (g.entity id).name newName).Unlisted id :=
  fun _ _ found => (get?_of_uproot rooted tabled held found).2 rfl

end uproot

section alloc

variable {e : Entity}

theorem rooted_alloc (rooted : g.Rooted) (above : e.parent = some parent) (inside : g.Has parent) :
    (g.alloc e).1.Rooted := by
  have outside : ¬ g.Above ⟨g.size⟩ parent := fun above => g.not_has_fresh (above.has rooted inside)
  refine rooted.graft outside (fun has => (g.has_alloc e _).mpr (.inl has))
    ((g.has_alloc e _).mpr (.inl inside)) ?_ fun other unlike => ?_
  · rw [entity_alloc, if_pos rfl, above]
  · rw [entity_alloc, if_neg unlike]

theorem rooted_alloc_root (rooted : g.Rooted) (root : e.parent = none) : (g.alloc e).1.Rooted := by
  have same : (g.alloc e).1.IsParent = g.IsParent := by
    funext parent child
    rw [IsParent, IsParent, entity_alloc]
    split
    · rename_i fresh
      rw [fresh, root, g.entity_of_not_has g.not_has_fresh]
      rfl
    · rfl
  constructor
  · rw [same]
    exact rooted.wellFounded
  · intro parent child held
    rw [same] at held
    exact (g.has_alloc e _).mpr (.inl (rooted.parentHas held))

theorem get?_alloc (empty : e.contents = {}) {owner other : EntityId} {key : String} :
    ((g.alloc e).1.entity owner).contents.get? key = some other ↔
      (g.entity owner).contents.get? key = some other := by
  rw [entity_alloc]
  split
  · rename_i fresh
    rw [fresh, g.entity_of_not_has g.not_has_fresh, empty]
    rfl
  · rfl

theorem unlisted_alloc (tabled : g.Tabled) (empty : e.contents = {}) :
    (g.alloc e).1.Unlisted ⟨g.size⟩ := by
  intro owner name found
  rw [get?_alloc empty] at found
  exact g.not_has_fresh (g.has_of_parent (tabled.bound found).1)

theorem tabled_alloc (tabled : g.Tabled) (empty : e.contents = {}) : (g.alloc e).1.Tabled := by
  constructor
  · intro id
    rw [entity_alloc]
    split
    · rw [empty]
      exact Contents.listed_empty
    · exact tabled.listed id
  · intro owner other key found
    rw [get?_alloc empty] at found
    have bound := tabled.bound found
    rw [IsParent, entity_alloc_of_has _ _ (g.has_of_parent bound.1)]
    exact bound

end alloc

end DocGraph.Graph
