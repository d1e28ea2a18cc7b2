import DocGraph.Proofs.Run.Sound

namespace DocGraph.Graph

variable {g h : Graph} {id parent child owner : EntityId} {key : String}

/-- A name without a space. -/
def Unnumbered (name : String) : Prop := ' ' ∉ name.toList

instance (name : String) : Decidable (Unnumbered name) := inferInstanceAs (Decidable (_ ∉ _))

theorem not_unnumbered (name : String) (number : Nat) : ¬ Unnumbered (numbered name number) := by
  simp [Unnumbered, numbered]

theorem Unnumbered.ne (unnumbered : Unnumbered key) (name : String) (number : Nat) :
    numbered name number ≠ key :=
  fun equal => not_unnumbered name number (equal ▸ unnumbered)

/-- Every child, the loose one apart, whose name has no space is in its parent's table. -/
def UnnumberedInTable (g : Graph) (loose : Option EntityId) : Prop :=
  ∀ parent child, g.IsParent parent child → loose ≠ some child → Unnumbered (g.entity child).name →
    (g.entity parent).contents.get? (g.entity child).name = some child

theorem SameTree.inTable (same : SameTree g h) {loose : Option EntityId} (inTable : g.UnnumberedInTable loose) :
    h.UnnumberedInTable loose := by
  intro parent child held tight unnumbered
  rw [same.isParent] at held
  rw [same.name] at unnumbered ⊢
  rw [same.contents]
  exact inTable parent child held tight unnumbered

theorem unnumberedInTable_empty (options : Options) : (empty options).UnnumberedInTable none := by
  intro parent child held
  exact absurd ((empty options).has_of_parent held) (by simp [Has, size, empty])

section attach

variable (inside : g.Has parent)

include inside

/-- Attaching a child leaves all tables as they are but for the name of the child in the table of its
parent, and for names with numbers. -/
theorem get?_attach (unlisted : g.Unlisted child) (unnumbered : Unnumbered key)
    (apart : ¬ (owner = parent ∧ (g.entity child).name = key)) :
    ((g.attach parent child).entity owner).contents.get? key = (g.entity owner).contents.get? key := by
  rcases attach_cases g parent child unlisted with
    ⟨_, equal⟩ | ⟨previous, winner, loser, number, message, _, _, _, equal⟩
  · rw [equal, entity_congr (entities_register _ _), contents_bindChild inside]
    split
    · rename_i same
      rw [Contents.get?_insert, if_neg fun named => apart ⟨same, named⟩, same]
    · rfl
  · have tables : ((g.report child message "ast" 0 1).Has parent) := inside
    rw [equal, entity_congr (entities_demote _ _ _ _ _ _), get?_relabel tables]
    split
    · rename_i same
      rw [if_neg (unnumbered.ne _ _), if_neg fun named => apart ⟨same, named⟩, same]
      rfl
    · rfl

theorem contents_attach (unlisted : g.Unlisted child) (apart : owner ≠ parent) :
    ((g.attach parent child).entity owner).contents = (g.entity owner).contents := by
  rcases attach_cases g parent child unlisted with
    ⟨_, equal⟩ | ⟨previous, winner, loser, number, message, _, _, _, equal⟩
  · rw [equal, entity_congr (entities_register _ _), contents_bindChild inside, if_neg apart]
  · have tables : (g.report child message "ast" 0 1).Has parent := inside
    rw [equal, entity_congr (entities_demote _ _ _ _ _ _), contents_relabel tables, if_neg apart]
    rfl

theorem unnumberedInTable_bindChild (held : g.IsParent parent child) (inTable : g.UnnumberedInTable (some child))
    (free : (g.entity parent).contents.get? (g.entity child).name = none) :
    (g.bindChild parent (g.entity child).name child).UnnumberedInTable none := by
  intro upper lower holding _ unnumbered
  rw [(arranged_bindChild g parent _ child).isParent] at holding
  rw [name_bindChild] at unnumbered ⊢
  rw [contents_bindChild inside]
  by_cases same : lower = child
  · subst same
    rw [if_pos (Option.some.inj (holding.symm.trans held)), Contents.get?_insert, if_pos rfl]
  · have listed := inTable upper lower holding (by simpa using Ne.symm same) unnumbered
    split
    · rename_i top
      subst top
      rw [Contents.get?_insert, if_neg, listed]
      intro named
      rw [named, listed] at free
      cases free
    · exact listed

/-- Of two children of one name the winner is in the table; the loser has a name with a number. -/
theorem unnumberedInTable_relabel {previous winner loser : EntityId} {number : Nat} (tabled : g.Tabled)
    (held : g.IsParent parent child) (inTable : g.UnnumberedInTable (some child))
    (found : (g.entity parent).contents.get? (g.entity child).name = some previous)
    {policy : DuplicatePolicy} (roles : Contest policy child previous winner loser) :
    (g.relabel parent winner loser (g.entity child).name number).UnnumberedInTable none := by
  have insideLoser := g.has_of_parent (roles.loser_held tabled held rfl found).1
  intro upper lower holding _ unnumbered
  rw [(arranged_relabel g parent winner loser _ number).isParent] at holding
  rw [name_relabel insideLoser] at unnumbered ⊢
  by_cases lost : lower = loser
  · rw [if_pos lost] at unnumbered
    exact absurd unnumbered (not_unnumbered _ _)
  rw [if_neg lost] at unnumbered ⊢
  rw [get?_relabel inside, if_neg (unnumbered.ne _ _)]
  by_cases won : lower = winner
  · subst won
    obtain ⟨winnerHeld, winnerNamed⟩ := roles.winner_held tabled held rfl found
    rw [if_pos (Option.some.inj (holding.symm.trans winnerHeld)), if_pos winnerNamed.symm]
  · have other : lower ≠ child ∧ lower ≠ previous := by
      cases roles
      · exact ⟨won, lost⟩
      · exact ⟨lost, won⟩
    have listed := inTable upper lower holding (by simpa using Ne.symm other.1) unnumbered
    split
    · rename_i top
      subst top
      rw [if_neg, listed]
      intro named
      rw [← named, found] at listed
      exact other.2 (Option.some.inj listed).symm
    · exact listed

omit inside in
theorem unnumberedInTable_attach (rooted : g.Rooted) (tabled : g.Tabled) (unlisted : g.Unlisted child)
    (held : g.IsParent parent child) (inTable : g.UnnumberedInTable (some child)) :
    (g.attach parent child).UnnumberedInTable none := by
  have inside := rooted.parentHas held
  rcases attach_cases g parent child unlisted with
    ⟨free, equal⟩ | ⟨previous, winner, loser, number, message, found, roles, _, equal⟩
  · have same := SameTree.of_entities (entities_register (g.bindChild parent (g.entity child).name child)
      child)
    rw [equal]
    exact same.inTable (unnumberedInTable_bindChild inside held inTable free)
  · have same : SameTree (g.relabel parent winner loser (g.entity child).name number)
        ((g.report child message "ast" 0 1).demote parent winner loser (g.entity child).name number) :=
      SameTree.of_entities (entities_demote _ _ _ _ _ _)
    rw [equal]
    exact same.inTable (unnumberedInTable_relabel inside tabled held inTable found roles)

end attach

theorem unnumberedInTable_alloc {e : Entity} (empty : e.contents = {}) {loose : Option EntityId}
    (left : e.parent ≠ none → loose = some ⟨g.size⟩) (inTable : g.UnnumberedInTable none) :
    (g.alloc e).1.UnnumberedInTable loose := by
  intro parent child held tight unnumbered
  have old : child ≠ ⟨g.size⟩ := by
    rintro rfl
    rw [IsParent, entity_alloc, if_pos rfl] at held
    exact tight (left (by simp [held]))
  rw [IsParent, entity_alloc, if_neg old] at held
  rw [entity_alloc g e child, if_neg old] at unnumbered ⊢
  exact (get?_alloc empty).mpr (inTable parent child held (by simp) unnumbered)

section uproot

variable {oldParent newParent : EntityId} {newName : String}

/-- Uprooting an entity takes its name out of the table of its parent. -/
theorem contents_uproot (rooted : g.Rooted) (held : g.IsParent oldParent id) :
    ((g.uproot id oldParent newParent (g.entity id).name newName).entity owner).contents.get? key =
      if owner = oldParent ∧ (g.entity id).name = key then none
      else (g.entity owner).contents.get? key := by
  rw [entity_uproot rooted held]
  split
  · rename_i same
    have apart : owner ≠ oldParent := by
      rintro rfl
      exact rooted.not_above_parent held (same ▸ Relation.ReflTransGen.refl)
    rw [if_neg fun both => apart both.1, same]
  · split
    · rename_i same
      rw [Contents.get?_erase]
      simp [same]
    · rename_i apart
      rw [if_neg fun both => apart both.1]

theorem unnumberedInTable_uproot (rooted : g.Rooted) (inTable : g.UnnumberedInTable none)
    (held : g.IsParent oldParent id) :
    (g.uproot id oldParent newParent (g.entity id).name newName).UnnumberedInTable (some id) := by
  intro parent child holding tight unnumbered
  have other : child ≠ id := fun same => tight (by rw [same])
  rw [IsParent, parent_uproot rooted held, if_neg other] at holding
  have name : ((g.uproot id oldParent newParent (g.entity id).name newName).entity child).name =
      (g.entity child).name := by
    rw [entity_uproot rooted held, if_neg other]
    split <;> rfl
  rw [name] at unnumbered ⊢
  have listed := inTable parent child holding (by simp) unnumbered
  rw [contents_uproot rooted held, if_neg, listed]
  rintro ⟨rfl, named⟩
  have own := inTable parent id held (by simp) (by rw [named]; exact unnumbered)
  rw [named, listed] at own
  exact other (Option.some.inj own)

end uproot

theorem Change.inTable (change : Change g h) (sound : g.Sound) (inTable : g.UnnumberedInTable none) :
    h.UnnumberedInTable none := by
  cases change with
  | touch touched => exact touched.overlaid.sameTree.inTable inTable
  | @declare parent e blank above inside _ =>
      have held : (g.alloc e).1.IsParent parent ⟨g.size⟩ := by
        rw [IsParent, entity_alloc, if_pos rfl, above]
      exact unnumberedInTable_attach (rooted_alloc sound.rooted above inside)
        (tabled_alloc sound.tabled blank.contents) (unlisted_alloc sound.tabled blank.contents) held
        (unnumberedInTable_alloc blank.contents (fun _ => rfl) inTable)
  | @root e blank root _ _ =>
      have same : SameTree (g.alloc e).1
          (({ (g.alloc e).1 with roots := g.roots ++ [⟨g.size⟩] } : Graph).register ⟨g.size⟩) :=
        SameTree.of_entities (entities_register _ _)
      exact same.inTable (unnumberedInTable_alloc blank.contents (fun child => absurd root child) inTable)
  | @move _ id target name inside moved =>
      rcases move_cases moved with ⟨rfl, _⟩ | ⟨oldParent, held, _, _, outside, rfl⟩
      · exact inTable
      · obtain ⟨uprooted, unlisted, above⟩ := sound.move_parts held outside inside name
        refine (Touch.bind oldParent _ _).overlaid.sameTree.inTable ?_
        exact unnumberedInTable_attach uprooted.rooted uprooted.tabled unlisted above
          (unnumberedInTable_uproot sound.rooted inTable held)

theorem Path.inTable (path : Path g h) (sound : g.Sound) (inTable : g.UnnumberedInTable none) :
    h.UnnumberedInTable none := by
  induction path with
  | refl => exact inTable
  | tail before change ih => exact change.inTable (Path.sound before sound) ih

/-- What a move does to a name of a scope, unless it brings something in there under that name: nothing,
or it takes away a child of that name and leaves an alias. -/
theorem tables_move {target : EntityId} {name : String} (sound : g.Sound) (inside : g.Has target)
    (moved : g.move id target name = .ok h) (apart : owner ≠ target ∨ (name ≠ key ∧ Unnumbered key)) :
    ((h.entity owner).contents.get? key = (g.entity owner).contents.get? key ∧
      (h.entity owner).aliases[key]? = (g.entity owner).aliases[key]?) ∨
    (g.IsParent owner id ∧ (g.entity id).name = key ∧ (h.entity owner).contents.get? key = none ∧
      (h.entity owner).aliases[key]? = some (h.fullName id)) := by
  rcases move_cases moved with ⟨rfl, _⟩ | ⟨oldParent, held, _, _, outside, equal⟩
  · exact .inl ⟨rfl, rfl⟩
  · obtain ⟨uprooted, unlisted, above⟩ := sound.move_parts held outside inside name
    have named : ((g.uproot id oldParent target (g.entity id).name name).entity id).name = name := by
      rw [entity_uproot sound.rooted held, if_pos rfl]
    have contents : (((g.uproot id oldParent target (g.entity id).name name).attach target id).entity
        owner).contents.get? key =
          if owner = oldParent ∧ (g.entity id).name = key then none
          else (g.entity owner).contents.get? key := by
      rw [← contents_uproot sound.rooted held]
      rcases apart with elsewhere | ⟨other, unnumbered⟩
      · rw [contents_attach (has_uproot.mpr inside) unlisted elsewhere]
      · exact get?_attach (has_uproot.mpr inside) unlisted unnumbered fun both => other (named ▸ both.2)
    have aliases : (((g.uproot id oldParent target (g.entity id).name name).attach target id).entity
        owner).aliases = (g.entity owner).aliases := by
      rw [(arranged_attach _ _ _).read Entity.aliases fun _ _ _ => rfl,
        read_uproot Entity.aliases fun _ _ _ _ _ => rfl]
    have hasOld := (arranged_attach (g.uproot id oldParent target (g.entity id).name name) target id).has.mpr
      (has_uproot.mpr (sound.rooted.parentHas held))
    generalize (g.uproot id oldParent target (g.entity id).name name).attach target id = k at *
    subst equal
    have same := (Touch.bind (g := k) oldParent (g.entity id).name (k.fullName id)).overlaid
    rw [same.sameTree.fullName, (same.entity owner).contents, contents]
    by_cases taken : owner = oldParent ∧ (g.entity id).name = key
    · obtain ⟨rfl, rfl⟩ := taken
      refine .inr ⟨held, rfl, by simp, ?_⟩
      rw [entity_modify_self _ _ _ hasOld, Entity.bindAlias, NameMap.get_insert, if_pos rfl]
    · refine .inl ⟨by rw [if_neg taken], ?_⟩
      rw [entity_modify]
      split
      · rename_i here
        rw [Entity.bindAlias, NameMap.get_insert, if_neg fun name => taken ⟨here.1.symm, name⟩, aliases]
      · rw [aliases]

end DocGraph.Graph
