import DocGraph.Proofs.Run.Trace

/-!
The full names of modules over a run. A module never gets another parent, and neither do the packages
around it, so it loses its full name only with the name of one of them, to a later declaration of that
name. As long as there is none, and under the policy that the first declaration wins in any case, the
module is found under the name that it was added by.
-/
namespace DocGraph.Graph

open Dotted (IsSegment)

variable {g h : Graph} {id parent child : EntityId} {name : String} {isPackage : Bool}

/-- Attaching a child renames no entity but the one that loses its name to another. -/
theorem name_attach (tabled : g.Tabled) (unlisted : g.Unlisted child) (held : g.IsParent parent child)
    (inside : g.Has parent) (id : EntityId) :
    ((g.attach parent child).entity id).name = (g.entity id).name ∨
      ∃ previous winner, (g.entity parent).contents.get? (g.entity child).name = some previous ∧
        Contest g.options.duplicatePolicy child previous winner id ∧
        ((g.attach parent child).entity parent).contents.get? (g.entity child).name = some winner := by
  rcases attach_cases g parent child unlisted with
    ⟨_, equal⟩ | ⟨previous, winner, loser, number, message, found, roles, _, equal⟩
  · left
    rw [equal, entity_congr (entities_register _ _), name_bindChild]
  · have insideLoser : (g.report child message "ast" 0 1).Has loser :=
      g.has_of_parent (roles.loser_held tabled held rfl found).1
    by_cases lost : id = loser
    · subst lost
      refine .inr ⟨previous, winner, found, roles, ?_⟩
      have tables : (g.report child message "ast" 0 1).Has parent := inside
      rw [equal, entity_congr (entities_demote _ _ _ _ _ _), get?_relabel tables, if_pos rfl,
        if_neg (numbered_ne _ _), if_pos rfl]
    · left
      rw [equal, entity_congr (entities_demote _ _ _ _ _ _), name_relabel insideLoser, if_neg lost]
      rfl

/-- An entity that was there is renamed only if the later declaration wins its name. -/
theorem name_attach_of_ne (tabled : g.Tabled) (unlisted : g.Unlisted child)
    (held : g.IsParent parent child) (inside : g.Has parent) (other : id ≠ child) :
    ((g.attach parent child).entity id).name = (g.entity id).name ∨
      (g.options.duplicatePolicy = .laterWins ∧ g.IsParent parent id ∧
        ((g.attach parent child).entity parent).contents.get? (g.entity id).name = some child) := by
  rcases name_attach tabled unlisted held inside id with kept | ⟨previous, winner, found, roles, bound⟩
  · exact .inl kept
  · cases roles with
    | later wins =>
        obtain ⟨heldPrevious, named⟩ := tabled.bound found
        exact .inr ⟨wins, heldPrevious, named ▸ bound⟩
    | first wins => exact absurd rfl other

theorem fullName_attach_parent (rooted : g.Rooted) (tabled : g.Tabled) (unlisted : g.Unlisted child)
    (held : g.IsParent parent child) : (g.attach parent child).fullName parent = g.fullName parent := by
  have arranged := arranged_attach g parent child
  have inside := rooted.parentHas held
  refine fullName_eq_of_above rooted (arranged.rooted rooted) inside (arranged.has.mpr inside)
    (fun upper above => ?_) fun upper _ => arranged.read Entity.parent (fun _ _ _ => rfl) upper
  have apart : ∀ {lower}, g.IsParent parent lower → upper ≠ lower := by
    rintro _ holding rfl
    exact rooted.not_above_parent holding above
  rcases name_attach tabled unlisted held inside upper with kept | ⟨previous, winner, found, roles, _⟩
  · exact kept
  · exact absurd rfl (apart (roles.loser_held tabled held rfl found).1)

theorem Change.options (change : Change g h) : h.options = g.options := by
  cases change with
  | touch touched => exact touched.overlaid.options
  | @declare parent e => rw [(arranged_attach (g.alloc e).1 parent ⟨g.size⟩).options, options_alloc]
  | root => rw [(arranged_register _ _).options, options_alloc]
  | @move _ id target name _ moved =>
      rcases move_cases moved with ⟨rfl, _⟩ | ⟨oldParent, _, _, _, _, rfl⟩
      · rfl
      · rw [options_modify, (arranged_attach _ target id).options, uproot, options_modify, options_modify,
          (arranged_unregister g id).options]

theorem Path.options (path : Path g h) : h.options = g.options := by
  induction path with
  | refl => rfl
  | tail _ change ih => exact change.options.trans ih

/-- Modules stand in modules. -/
def Nested (g : Graph) : Prop :=
  ∀ parent child, g.IsParent parent child → (g.entity child).type = .module →
    (g.entity parent).type = .module

/-- Moving another entity leaves a module where it is; the module gives up its name only to what is
moved next to it. -/
theorem module_move {mover target : EntityId} {name : String} (sound : g.Sound) (inside : g.Has target)
    (moved : g.move mover target name = .ok h) (isModule : (g.entity id).type = .module) :
    (h.entity id).parent = (g.entity id).parent ∧
      ((h.entity id).name = (g.entity id).name ∨
        (g.options.duplicatePolicy = .laterWins ∧ ∃ parent winner, g.IsParent parent id ∧ winner ≠ id ∧
          (h.entity parent).contents.get? (g.entity id).name = some winner)) := by
  rcases move_cases moved with ⟨rfl, _⟩ | ⟨oldParent, held, notModule, _, outside, rfl⟩
  · exact ⟨rfl, .inl rfl⟩
  · obtain ⟨uprooted, unlisted, above⟩ := sound.move_parts held outside inside name
    have other : id ≠ mover := by
      rintro rfl
      exact notModule isModule
    have bound := (Touch.bind (g := (g.uproot mover oldParent target (g.entity mover).name name).attach
      target mover) oldParent (g.entity mover).name ((g.uproot mover oldParent target
        (g.entity mover).name name).attach target mover |>.fullName mover)).overlaid
    have place : ((g.uproot mover oldParent target (g.entity mover).name name).entity id).parent =
        (g.entity id).parent := by
      rw [parent_uproot sound.rooted held, if_neg other]
    have name' : ((g.uproot mover oldParent target (g.entity mover).name name).entity id).name =
        (g.entity id).name := by
      rw [entity_uproot sound.rooted held, if_neg other]
      split <;> rfl
    have policy : (g.uproot mover oldParent target (g.entity mover).name name).options = g.options :=
      (arranged_unregister g mover).options
    have renamed := name_attach_of_ne uprooted.tabled unlisted above (has_uproot.mpr inside) other
    rw [name', IsParent, place, policy] at renamed
    refine ⟨?_, ?_⟩
    · rw [(bound.entity id).parent, (arranged_attach _ _ _).read Entity.parent fun _ _ _ => rfl, place]
    · rw [(bound.entity id).name]
      refine renamed.imp_right fun lost => ⟨lost.1, target, mover, lost.2.1, other.symm, ?_⟩
      rw [(bound.entity target).contents]
      exact lost.2.2

/-- What becomes of a module in one change: it stays where it is, and keeps its name unless a later
declaration wins it. -/
theorem Change.module (change : Change g h) (sound : g.Sound) (isModule : (g.entity id).type = .module) :
    (h.entity id).parent = (g.entity id).parent ∧
      ((h.entity id).name = (g.entity id).name ∨
        (g.options.duplicatePolicy = .laterWins ∧ ∃ parent winner, g.IsParent parent id ∧ winner ≠ id ∧
          (h.entity parent).contents.get? (g.entity id).name = some winner)) := by
  have inside : g.Has id := g.has_of_type (by rw [isModule]; decide)
  cases change with
  | touch touched =>
      have same := touched.overlaid.entity id
      exact ⟨same.parent, .inl same.name⟩
  | @declare parent e blank above insideParent _ =>
      have held : (g.alloc e).1.IsParent parent ⟨g.size⟩ := by
        rw [IsParent, entity_alloc, if_pos rfl, above]
      have old : id ≠ ⟨g.size⟩ := fun same => g.not_has_fresh (same ▸ inside)
      have alloc := entity_alloc_of_has g e inside
      have renamed := name_attach_of_ne (tabled_alloc sound.tabled blank.contents)
        (unlisted_alloc sound.tabled blank.contents) held
        ((g.has_alloc e parent).mpr (.inl insideParent)) old
      rw [alloc, IsParent, alloc] at renamed
      refine ⟨?_, renamed.imp_right fun lost => ⟨lost.1, parent, _, lost.2.1, old.symm, lost.2.2⟩⟩
      rw [(arranged_attach _ _ _).read Entity.parent fun _ _ _ => rfl, alloc]
  | @root e blank root _ _ =>
      have same : (({ (g.alloc e).1 with roots := g.roots ++ [⟨g.size⟩] } : Graph).register
          ⟨g.size⟩).entity id = g.entity id := by
        rw [entity_congr (entities_register _ _)]
        exact entity_alloc_of_has g e inside
      rw [same]
      exact ⟨rfl, .inl rfl⟩
  | move insideTarget moved => exact module_move sound insideTarget moved isModule

theorem Change.nested (change : Change g h) (sound : g.Sound) (nested : g.Nested) : h.Nested := by
  intro parent child held isModule
  by_cases inside : g.Has child
  · have lasts := (change.lasts sound inside).2
    rw [lasts.type] at isModule
    have holding : g.IsParent parent child := (change.module sound isModule).1.symm.trans held
    rw [(change.lasts sound (sound.rooted.parentHas holding)).2.type]
    exact nested parent child holding isModule
  · cases change with
    | touch touched =>
        rw [touched.overlaid.sameTree.isParent] at held
        exact absurd (g.has_of_parent held) inside
    | @declare upper e blank above insideUpper placed =>
        have arranged := arranged_attach (g.alloc e).1 upper ⟨g.size⟩
        have fresh : child = ⟨g.size⟩ := by
          have has := arranged.has.mp (Graph.has_of_parent _ held)
          exact ((g.has_alloc e child).mp has).resolve_left inside
        subst fresh
        rw [arranged.isParent, IsParent, entity_alloc, if_pos rfl, above] at held
        cases held
        rw [arranged.read Entity.type fun _ _ _ => rfl, entity_alloc, if_pos rfl] at isModule
        rw [arranged.read Entity.type fun _ _ _ => rfl, entity_alloc_of_has _ _ insideUpper]
        exact placed isModule
    | @root e blank root _ _ =>
        have arranged := arranged_register
          ({ (g.alloc e).1 with roots := g.roots ++ [⟨g.size⟩] } : Graph) ⟨g.size⟩
        have fresh : child = ⟨g.size⟩ := by
          have has := arranged.has.mp (Graph.has_of_parent _ held)
          exact ((g.has_alloc e child).mp has).resolve_left inside
        subst fresh
        rw [arranged.isParent] at held
        have none : ({ (g.alloc e).1 with roots := g.roots ++ [⟨g.size⟩] } : Graph).entity ⟨g.size⟩ = e :=
          (g.entity_alloc e _).trans (if_pos rfl)
        rw [IsParent, none, root] at held
        cases held
    | @move _ mover target name insideTarget moved =>
        have has := Graph.has_of_parent _ held
        rw [Has, size_move moved] at has
        exact absurd has inside

theorem Path.nested (path : Path g h) (sound : g.Sound) (nested : g.Nested) : h.Nested := by
  induction path with
  | refl => exact nested
  | tail before change ih => exact change.nested (Path.sound before sound) ih

theorem nested_empty (options : Options) : (empty options).Nested := by
  intro parent child held
  exact absurd ((empty options).has_of_parent held) (by simp [Has, size, empty])

theorem Nested.of_above (nested : g.Nested) {upper : EntityId} (above : g.Above upper id)
    (isModule : (g.entity id).type = .module) : (g.entity upper).type = .module := by
  induction above using Relation.ReflTransGen.head_induction_on with
  | refl => exact isModule
  | head held _ ih => exact nested _ _ held ih

/-- The entity and all above it have the names and parents that they had. -/
def Stays (g : Graph) (id : EntityId) (h : Graph) : Prop :=
  ∀ upper, g.Above upper id → (h.entity upper).name = (g.entity upper).name ∧
    (h.entity upper).parent = (g.entity upper).parent

theorem Stays.refl (g : Graph) (id : EntityId) : Stays g id g := fun _ _ => ⟨rfl, rfl⟩

theorem Stays.fullName (stays : Stays g id h) (path : Path g h) (sound : g.Sound) (inside : g.Has id) :
    h.fullName id = g.fullName id :=
  fullName_eq_of_above sound.rooted (path.sound sound).rooted inside (path.has sound inside)
    (fun upper above => (stays upper above).1) fun upper above => (stays upper above).2

/-- The tables around the module bind its name, and the names of the packages around it, to none but them. -/
def Undisplaced (g : Graph) (id : EntityId) (h : Graph) : Prop :=
  ∀ parent upper other, g.IsParent parent upper → g.Above upper id →
    (h.entity parent).contents.get? (g.entity upper).name = some other → other = upper

/-- No other entity is found under the name. -/
def Unrivalled (name : String) (id : EntityId) (h : Graph) : Prop := ∀ other, h.lookup name = some other → other = id

/-- A module loses its name only to a child of its package that is bound under that name behind it. -/
theorem Stays.next {k : Graph} (stays : Stays g id h) (path : Path g h) (change : Change h k)
    (sound : g.Sound) (nested : g.Nested) (isModule : (g.entity id).type = .module)
    (undisplaced : g.options.duplicatePolicy = .laterWins → Undisplaced g id k) : Stays g id k := by
  intro upper above
  have isUpper := nested.of_above above isModule
  have type : (h.entity upper).type = .module :=
    (path.lasts sound (above.has sound.rooted (g.has_of_type (by rw [isModule]; decide)))).2.type.trans isUpper
  obtain ⟨name, parent⟩ := stays upper above
  obtain ⟨place, kept | ⟨wins, owner, winner, held, other, found⟩⟩ := change.module (path.sound sound) type
  · exact ⟨kept.trans name, place.trans parent⟩
  · rw [path.options] at wins
    rw [name] at found
    exact absurd (undisplaced wins owner upper winner (parent.symm.trans held) above found) other

theorem lookup_unregister_of_not_above {upper : EntityId} (tabled : g.Tabled) (apart : ¬ g.Above upper id)
    (found : g.lookup name = some id) : (g.unregister upper).lookup name = some id := by
  refine (lookup_foldl_unregisterOne _ name id).mpr ⟨found, fun erased => apart ?_⟩
  exact (reaches_of_mem_subtreeFrom tabled erased.1).above tabled

theorem isSome_lookup_register (upper : EntityId) (found : (g.lookup name).isSome) :
    ((g.register upper).lookup name).isSome := by
  rw [register]
  generalize g.subtree upper = ids
  induction ids generalizing g with
  | nil => exact found
  | cons first rest ih =>
      refine ih ?_
      rw [lookup_registerOne]
      split
      · rfl
      · exact found

theorem lookup_relabel (g : Graph) (parent winner loser : EntityId) (own : String) (number : Nat) (name : String) :
    (g.relabel parent winner loser own number).lookup name = g.lookup name := rfl

theorem lookup_uproot (g : Graph) (id oldParent target : EntityId) (oldName newName name : String) :
    (g.uproot id oldParent target oldName newName).lookup name = (g.unregister id).lookup name := rfl

/-- Attaching a child takes no name out of the index but those of what it renames, and of what stands below. -/
theorem isSome_lookup_attach (tabled : g.Tabled) (unlisted : g.Unlisted child) (held : g.IsParent parent child)
    (kept : ∀ upper, g.Above upper id → ((g.attach parent child).entity upper).name = (g.entity upper).name)
    (found : g.lookup name = some id) : ((g.attach parent child).lookup name).isSome := by
  rcases attach_cases g parent child unlisted with
    ⟨_, equal⟩ | ⟨previous, winner, loser, number, message, bound, roles, _, equal⟩
  · rw [equal]
    exact isSome_lookup_register child (Option.isSome_of_eq_some found)
  · obtain ⟨heldLoser, named⟩ := roles.loser_held tabled held rfl bound
    have inside : (g.report child message "ast" 0 1).Has loser := g.has_of_parent heldLoser
    have apart : ¬ (g.report child message "ast" 0 1).Above loser id := by
      intro above
      have same := kept loser above
      rw [equal, entity_congr (entities_demote _ _ _ _ _ _), name_relabel inside, if_pos rfl, named] at same
      exact numbered_ne _ _ same
    rw [equal, demote_eq]
    have reported : SameTree g (g.report child message "ast" 0 1) := .of_entities rfl
    have left : ((g.report child message "ast" 0 1).unregister loser).lookup name = some id :=
      lookup_unregister_of_not_above (reported.tabled tabled) apart found
    refine isSome_lookup_register _ (isSome_lookup_register _ ?_)
    rw [lookup_relabel, left]
    rfl

/-- What stands above a module are modules, so it stands there still if they have the parents that they had. -/
theorem Nested.above_of_parent {upper : EntityId} (nested : g.Nested) (isModule : (g.entity id).type = .module)
    (same : ∀ {other}, (g.entity other).type = .module → (h.entity other).parent = (g.entity other).parent)
    (above : h.Above upper id) : g.Above upper id := by
  induction above with
  | refl => exact .refl
  | @tail middle lower _ last ih =>
      rw [IsParent, same isModule] at last
      exact (ih (nested _ _ last isModule)).tail last

/-- A module is found under its full name behind a change, or another entity is, as long as neither it nor a
package around it is renamed. -/
theorem Change.isSome_lookup (change : Change g h) (sound : g.Sound) (nested : g.Nested)
    (isModule : (g.entity id).type = .module)
    (kept : ∀ upper, g.Above upper id → (h.entity upper).name = (g.entity upper).name)
    (found : g.lookup name = some id) : (h.lookup name).isSome := by
  cases change with
  | touch touched => rw [lookup, touched.overlaid.index, ← lookup, found]; rfl
  | @declare parent e blank above insideParent _ =>
      have old {other : EntityId} (isModule : (g.entity other).type = .module) :
          (g.alloc e).1.entity other = g.entity other :=
        entity_alloc_of_has _ _ (g.has_of_type (by rw [isModule]; decide))
      have held : (g.alloc e).1.IsParent parent ⟨g.size⟩ := by rw [IsParent, entity_alloc, if_pos rfl, above]
      refine isSome_lookup_attach (tabled_alloc sound.tabled blank.contents)
        (unlisted_alloc sound.tabled blank.contents) held (fun upper above => ?_) found
      have before := nested.above_of_parent isModule (fun isModule => by rw [old isModule]) above
      rw [kept upper before, old (nested.of_above before isModule)]
  | @root e blank root type free => exact isSome_lookup_register _ (Option.isSome_of_eq_some found)
  | @move _ mover target newName insideTarget moved =>
      rcases move_cases moved with ⟨rfl, _⟩ | ⟨oldParent, held, notModule, _, outside, rfl⟩
      · exact Option.isSome_of_eq_some found
      · obtain ⟨uprooted, unlisted, placed⟩ := sound.move_parts held outside insideTarget newName
        have other {upper : EntityId} (isModule : (g.entity upper).type = .module) : upper ≠ mover := by
          rintro rfl
          exact notModule isModule
        have left : (g.uproot mover oldParent target (g.entity mover).name newName).lookup name = some id := by
          rw [lookup_uproot]
          exact lookup_unregister_of_not_above sound.tabled
            (fun above => notModule (nested.of_above above isModule)) found
        have attached := isSome_lookup_attach uprooted.tabled unlisted placed (fun upper above => ?_) left
        · rw [lookup, index_modify]
          exact attached
        · have before := nested.above_of_parent isModule
            (fun isModule => by rw [parent_uproot sound.rooted held, if_neg (other isModule)]) above
          have same := kept upper before
          rw [read_modify _ _ (Entity.bindAlias _ _) Entity.name fun _ => rfl] at same
          rw [same, entity_uproot sound.rooted held, if_neg (other (nested.of_above before isModule))]
          split <;> rfl

/-- The module has the full name, and is found under it. -/
def Named (g : Graph) (id : EntityId) (name : String) : Prop :=
  g.fullName id = name ∧ g.lookupModule name = some id

instance (name : String) : Decidable (g.Named id name) := inferInstanceAs (Decidable (_ ∧ _))

theorem LockStep.named (lockStep : g.LockStep) (isModule : (g.entity id).type = .module)
    (fullName : g.fullName id = name) : g.Named id name := by
  have inside : g.Has id := g.has_of_type (by rw [isModule]; decide)
  refine ⟨fullName, ?_⟩
  simp [lookupModule, (lockStep.index name id).mpr ⟨inside, fullName⟩, isModule]

/-- The package in front of the last dot of a name, if there is one, has that full name, and it does not bind the
rest of the name where the first declaration wins. -/
def Vacant (g : Graph) (name : String) : Prop :=
  ∀ parted ∈ Dotted.qualifier? name, ∀ parent ∈ g.lookup parted.1,
    g.fullName parent = parted.1 ∧
      (g.options.duplicatePolicy = .laterWins ∨ (g.entity parent).contents.get? parted.2 = none)

instance : Decidable (g.Vacant name) :=
  inferInstanceAs (Decidable (∀ parted ∈ Dotted.qualifier? name, ∀ parent ∈ g.lookup parted.1, _ ∧ (_ ∨ _)))

theorem LockStep.vacant (lockStep : g.LockStep)
    (free : g.options.duplicatePolicy = .laterWins ∨ g.lookup name = none) : g.Vacant name := by
  rintro ⟨parentName, own⟩ parted parent found
  obtain ⟨inside, rfl⟩ := (lockStep.index parentName parent).mp found
  refine ⟨rfl, free.imp_right fun missing => Option.eq_none_iff_forall_ne_some.mpr fun child bound => ?_⟩
  obtain ⟨held, named⟩ := (lockStep.bound parent child own).mp bound
  have taken : g.lookup name = some child := by
    refine (lockStep.index _ _).mpr ⟨g.has_of_parent held, ?_⟩
    rw [fullName_of_child lockStep.rooted held, named, (Dotted.qualifier?_eq_some parted).1]
  cases missing.symm.trans taken

theorem lookup_register_of_alone (rooted : g.Rooted) (tabled : g.Tabled) (inside : g.Has id)
    (alone : ∀ lower, g.Above id lower → lower = id) :
    (g.register id).lookup ((g.register id).fullName id) = some id := by
  rw [(SameTree.of_entities (entities_register g id)).fullName]
  refine lookup_foldl_registerOne _ ((mem_subtree rooted tabled inside).mpr .refl) fun lower among _ => ?_
  exact alone lower ((reaches_of_mem_subtreeFrom tabled among).above tabled)

section declare

variable {e : Entity} (blank : e.Blank) (above : e.parent = some parent) (inside : g.Has parent) (sound : g.Sound)
  (free : g.options.duplicatePolicy = .laterWins ∨ (g.entity parent).contents.get? e.name = none)

include blank above inside sound free

/-- What is declared has the name that it is declared by, unless the name is taken and the first
declaration wins. -/
theorem fullName_declare : ((g.alloc e).1.attach parent ⟨g.size⟩).fullName ⟨g.size⟩ =
    Dotted.extend (g.fullName parent) e.name := by
  have rooted := rooted_alloc sound.rooted above inside
  have tabled := tabled_alloc sound.tabled blank.contents
  have unlisted := unlisted_alloc sound.tabled blank.contents
  have arranged := arranged_attach (g.alloc e).1 parent ⟨g.size⟩
  have entity : (g.alloc e).1.entity ⟨g.size⟩ = e := (g.entity_alloc e _).trans (if_pos rfl)
  have held : (g.alloc e).1.IsParent parent ⟨g.size⟩ := by rw [IsParent, entity, above]
  have heldBehind : ((g.alloc e).1.attach parent ⟨g.size⟩).IsParent parent ⟨g.size⟩ := by
    rw [arranged.isParent]
    exact held
  have named : (((g.alloc e).1.attach parent ⟨g.size⟩).entity ⟨g.size⟩).name = e.name := by
    rcases name_attach tabled unlisted held (rooted.parentHas held) ⟨g.size⟩ with
      kept | ⟨previous, winner, bound, roles, _⟩
    · rw [kept, entity]
    · rw [entity] at bound
      cases roles with
      | later => exact absurd bound (unlisted _ _)
      | first wins =>
          rcases free with later | untaken
          · rw [options_alloc, later] at wins
            cases wins
          · cases untaken.symm.trans ((get?_alloc blank.contents).mp bound)
  rw [fullName_of_child (arranged.rooted rooted) heldBehind, named,
    fullName_attach_parent rooted tabled unlisted held, fullName_alloc sound.rooted rooted inside]

/-- It is found under its full name, for it is registered last. -/
theorem lookup_declare : ((g.alloc e).1.attach parent ⟨g.size⟩).lookup
    (((g.alloc e).1.attach parent ⟨g.size⟩).fullName ⟨g.size⟩) = some ⟨g.size⟩ := by
  have rooted := rooted_alloc sound.rooted above inside
  have tabled := tabled_alloc sound.tabled blank.contents
  have unlisted := unlisted_alloc sound.tabled blank.contents
  have held : (g.alloc e).1.IsParent parent ⟨g.size⟩ := by rw [IsParent, entity_alloc, if_pos rfl, above]
  have attached := arranged_attach (g.alloc e).1 parent ⟨g.size⟩
  have last {k : Graph} (equal : (g.alloc e).1.attach parent ⟨g.size⟩ = k.register ⟨g.size⟩) :
      (k.register ⟨g.size⟩).lookup ((k.register ⟨g.size⟩).fullName ⟨g.size⟩) = some ⟨g.size⟩ := by
    have same : SameTree (k.register ⟨g.size⟩) k := .symm (.of_entities (entities_register k ⟨g.size⟩))
    rw [equal] at attached
    refine lookup_register_of_alone (same.rooted (attached.rooted rooted))
      (same.tabled (equal ▸ tabled_attach rooted tabled unlisted held))
      (same.has.mpr (attached.has.mpr ((g.has_alloc e _).mpr (.inr rfl)))) fun lower below => ?_
    rw [same.above, Above, attached.isParent] at below
    refine above_fresh sound.rooted (fun circle => g.not_has_fresh ?_) below
    exact Option.some.inj (above.symm.trans circle) ▸ inside
  rcases attach_cases (g.alloc e).1 parent ⟨g.size⟩ unlisted with
    ⟨_, equal⟩ | ⟨previous, winner, loser, number, message, bound, roles, _, equal⟩
  · exact equal ▸ last equal
  · cases roles with
    | later => exact equal ▸ last equal
    | first wins =>
        have entity : (g.alloc e).1.entity ⟨g.size⟩ = e := (g.entity_alloc e _).trans (if_pos rfl)
        rw [entity, get?_alloc blank.contents] at bound
        rcases free with later | untaken
        · rw [options_alloc, later] at wins
          cases wins
        · cases untaken.symm.trans bound

end declare

theorem type_addModule (added : g.addModule name isPackage = .ok (h, id)) :
    (h.entity id).type = .module := by
  obtain ⟨rfl, _, rfl | ⟨parentName, own, parent, _, _, _, rfl⟩⟩ := addModule_cases added
  · rw [entity_congr (entities_register _ _)]
    exact congrArg Entity.type ((g.entity_alloc _ _).trans (if_pos rfl))
  · rw [(arranged_attach _ _ _).read Entity.type fun _ _ _ => rfl, entity_alloc, if_pos rfl]
    rfl

theorem fullName_addModule (added : g.addModule name isPackage = .ok (h, id)) (sound : g.Sound)
    (vacant : g.Vacant name) : h.fullName id = name := by
  have behind := (path_addModule added).sound sound
  obtain ⟨rfl, _, equal | ⟨parentName, own, parent, parted, found, type, rfl⟩⟩ := addModule_cases added
  · have entity : h.entity ⟨g.size⟩ = newModule name none isPackage ⟨g.size⟩ := by
      rw [equal, entity_congr (entities_register _ _)]
      exact (g.entity_alloc _ _).trans (if_pos rfl)
    have inside : h.Has ⟨g.size⟩ := h.has_of_type (by rw [type_addModule added]; decide)
    rw [fullName_of_root behind.rooted inside (by rw [entity]; rfl), entity]
    rfl
  · have inside : g.Has parent := g.has_of_type (by rw [type]; decide)
    obtain ⟨named, free⟩ := vacant (parentName, own) parted parent found
    rw [fullName_declare (blank_newModule own (some parent) isPackage _) rfl inside sound free, named]
    exact (Dotted.qualifier?_eq_some parted).1.symm

theorem named_addModule (added : g.addModule name isPackage = .ok (h, id)) (sound : g.Sound)
    (vacant : g.Vacant name) : h.Named id name := by
  have fullName := fullName_addModule added sound vacant
  have isModule := type_addModule added
  have behind := (path_addModule added).sound sound
  have found : h.lookup (h.fullName id) = some id := by
    obtain ⟨rfl, _, rfl | ⟨parentName, own, parent, parted, found, type, rfl⟩⟩ := addModule_cases added
    · have root : (newModule name none isPackage ⟨g.size⟩).parent = none := rfl
      let first := (g.alloc (newModule name none isPackage ⟨g.size⟩)).1
      have same : SameTree first { first with roots := g.roots ++ [⟨g.size⟩] } := .of_entities rfl
      refine lookup_register_of_alone (same.rooted (rooted_alloc_root sound.rooted root))
        (same.tabled (tabled_alloc sound.tabled rfl)) (same.has.mpr ((g.has_alloc _ _).mpr (.inr rfl))) ?_
      intro lower below
      rw [same.above] at below
      exact above_fresh sound.rooted (by rw [root]; nofun) below
    · have inside : g.Has parent := g.has_of_type (by rw [type]; decide)
      exact lookup_declare (blank_newModule own (some parent) isPackage _) rfl inside sound
        (vacant (parentName, own) parted parent found).2
  rw [fullName] at found
  exact ⟨fullName, by simp [lookupModule, found, isModule]⟩

/-- Along a run the module stays where it is, as long as nothing takes its name or that of a package around it
where the later declaration wins. -/
theorem stays_of_chain {rest : List Graph} (chain : (h :: rest).IsChain Change) (path : Path g h)
    (stays : Stays g id h) (sound : g.Sound) (nested : g.Nested) (isModule : (g.entity id).type = .module)
    (undisplaced : g.options.duplicatePolicy = .laterWins → ∀ state ∈ rest, Undisplaced g id state) :
    ∀ state ∈ h :: rest, Stays g id state := by
  induction rest generalizing h with
  | nil =>
      intro state member
      rw [List.mem_singleton] at member
      exact member ▸ stays
  | cons next rest ih =>
      rw [List.isChain_cons_cons] at chain
      have staysNext := stays.next path chain.1 sound nested isModule
        fun wins => undisplaced wins next List.mem_cons_self
      intro state member
      rcases List.mem_cons.mp member with rfl | later
      · exact stays
      · exact ih chain.2 (path.trans (.one chain.1)) staysNext
          (fun wins state among => undisplaced wins state (List.mem_cons_of_mem _ among)) state later

theorem Stays.above {upper : EntityId} (stays : Stays g id h) (above : h.Above upper id) : g.Above upper id := by
  induction above using Relation.ReflTransGen.head_induction_on with
  | refl => exact .refl
  | head held _ ih => exact .head ((stays _ ih).2.symm.trans held) ih

/-- Along a run in which the module stays where it is, it is found under its name as long as no other entity is. -/
theorem lookup_of_chain {rest : List Graph} (chain : (h :: rest).IsChain Change) (path : Path g h)
    (stays : ∀ state ∈ h :: rest, Stays g id state) (sound : g.Sound) (nested : g.Nested)
    (isModule : (g.entity id).type = .module) (found : h.lookup name = some id)
    (unrivalled : ∀ state ∈ rest, Unrivalled name id state) : ∀ state ∈ h :: rest, state.lookup name = some id := by
  induction rest generalizing h with
  | nil =>
      intro state member
      rw [List.mem_singleton] at member
      exact member ▸ found
  | cons next rest ih =>
      rw [List.isChain_cons_cons] at chain
      have inside : g.Has id := g.has_of_type (by rw [isModule]; decide)
      have here := stays h List.mem_cons_self
      have behind := stays next (by simp)
      have some := chain.1.isSome_lookup (path.sound sound) (path.nested sound nested)
        ((path.lasts sound inside).2.type.trans isModule)
        (fun upper above => (behind upper (here.above above)).1.trans (here upper (here.above above)).1.symm) found
      obtain ⟨other, foundNext⟩ := Option.isSome_iff_exists.mp some
      rw [unrivalled next List.mem_cons_self other foundNext] at foundNext
      intro state member
      rcases List.mem_cons.mp member with rfl | later
      · exact found
      · exact ih chain.2 (path.trans (.one chain.1)) (fun state among => stays state (List.mem_cons_of_mem _ among))
          foundNext (fun state among => unrivalled state (List.mem_cons_of_mem _ among)) state later

/-- A module has the name it was added by, and is found under it, as soon as it is added, unless the package has
lost its own name, or the name is taken and the first declaration wins. From then on it keeps the full name, under
that policy in every state of the run and under the other one as long as no other entity is bound in its place or
in that of a package around it. It is found under the name as long as no other entity has been, and in any case
where no name contains a dot. -/
theorem run_moduleNames {options : Options} {calls later : List Call} {name : String} {isPackage : Bool}
    {g : Graph} {id : EntityId} (admits : (empty options).Admits calls)
    (added : (run (empty options) calls).addModule name isPackage = .ok (g, id)) (admitsLater : g.Admits later) :
    ((run (empty options) calls).Vacant name → g.Named id name) ∧
    (∃ states, Trace g later states) ∧
    ∀ states, Trace g later states → g.Named id name → ∀ before state behind,
      states = before ++ state :: behind →
      (options.duplicatePolicy = .laterWins → ∀ earlier ∈ before ++ [state], Undisplaced g id earlier) →
      state.fullName id = name ∧
        ((∀ earlier ∈ before ++ [state], Unrivalled name id earlier) ∨ state.Dotless → state.Named id name) := by
  have pathBefore := path_run (sound_empty options) admits
  have path := pathBefore.trans (path_addModule added)
  have sound := path.sound (sound_empty options)
  have nested := path.nested (sound_empty options) (nested_empty options)
  have isModule := type_addModule added
  refine ⟨named_addModule added (pathBefore.sound (sound_empty options)), exists_trace sound admitsLater, ?_⟩
  rintro _ trace ⟨fullName, foundHere⟩ before state behind rfl undisplaced
  have policy : g.options = options := path.options
  obtain ⟨rest, equal⟩ : ∃ rest, before ++ [state] = g :: rest := by
    have first := trace.first
    cases before with
    | nil => exact ⟨[], by simpa using first⟩
    | cons earliest rest => exact ⟨rest ++ [state], by simpa using first⟩
  have listed {earlier : Graph} (among : earlier ∈ rest) : earlier ∈ before ++ [state] := by
    rw [equal]
    exact List.mem_cons_of_mem _ among
  have last : state ∈ g :: rest := by
    rw [← equal]
    simp
  have chain : (before ++ [state] ++ behind).IsChain Change := by simpa using trace.chain
  have pathState : Path g state := trace.path_state (by simp)
  have inside : g.Has id := g.has_of_type (by rw [isModule]; decide)
  have stays := stays_of_chain (equal ▸ chain.left_of_append) (.refl g) (.refl g id) sound nested
    isModule fun wins earlier among => undisplaced (policy ▸ wins) earlier (listed among)
  have kept : state.fullName id = name := ((stays state last).fullName pathState sound inside).trans fullName
  have stillModule : (state.entity id).type = .module := (pathState.lasts sound inside).2.type.trans isModule
  refine ⟨kept, fun reason => ?_⟩
  rcases reason with unrivalled | dotless
  · have found : g.lookup name = some id := (Option.filter_eq_some_iff.mp foundHere).1
    have foundState := lookup_of_chain (equal ▸ chain.left_of_append) (.refl g) stays sound nested isModule found
      (fun earlier among => unrivalled earlier (listed among)) state last
    exact ⟨kept, by simp [lookupModule, foundState, stillModule]⟩
  · have lockStep := (path.trans pathState).lockStep (sound_empty options) (registered_empty options) dotless
    exact lockStep.named stillModule kept

def namesake : List Call :=
  [.build Hook.standard ⟨0⟩ (.ok { body := [.classDef { name := "sub", line := 1 } []] }), .finish]

/-- A class with the setter of a property, whose name `x.setter` has a dot in it. -/
def accessor : List Call :=
  [.build Hook.standard ⟨0⟩ (.ok { body := [.classDef { name := "sub", line := 1 }
    [.function { name := "x", decorators := [.attribute (.name "x") "setter"], line := 2 } []]] }), .finish]

theorem run_moduleNames_namesake :
    ∃ g, (run (empty { duplicatePolicy := .firstWins }) [.addModule "p" true]).addModule "p.sub" false =
        .ok (g, ⟨1⟩) ∧
      g.Named ⟨1⟩ "p.sub" ∧ (g.run namesake).Named ⟨1⟩ "p.sub" ∧
      ((g.run accessor).entity ⟨3⟩).name = "x.setter" ∧ (g.run accessor).fullName ⟨1⟩ = "p.sub" := by
  have added : ∃ g, (run (empty { duplicatePolicy := .firstWins }) [.addModule "p" true]).addModule
      "p.sub" false = .ok (g, ⟨1⟩) ∧ (g.run namesake).Dotless ∧
      ((g.run accessor).entity ⟨3⟩).name = "x.setter" := by
    refine ⟨_, rfl, ?_⟩
    decide +kernel
  obtain ⟨g, added, dotless, dotted⟩ := added
  have admits : (empty { duplicatePolicy := .firstWins }).Admits [.addModule "p" true] := ⟨trivial, trivial⟩
  have admitsPlain : g.Admits namesake := ⟨Hook.describes_standard, trivial, trivial⟩
  have admitsSetter : g.Admits accessor := ⟨Hook.describes_standard, trivial, trivial⟩
  have last {states : List Graph} {later : List Call} (trace : Trace g later states) :
      states = states.dropLast ++ g.run later :: [] := by
    obtain ⟨before, rfl⟩ := List.getLast?_eq_some_iff.mp trace.last
    simp
  obtain ⟨named, ⟨states, trace⟩, plain⟩ := run_moduleNames admits added admitsPlain
  obtain ⟨_, ⟨others, traceOther⟩, withSetter⟩ := run_moduleNames admits added admitsSetter
  have here := named (by decide +kernel)
  refine ⟨g, added, here, ?_, dotted, ?_⟩
  · exact (plain states trace here _ _ [] (last trace) nofun).2 (.inr dotless)
  · exact (withSetter others traceOther here _ _ [] (last traceOther) nofun).1

/-- Modules that do not have their names: one that a later class of its package takes, one that an earlier class
has where the first declaration wins, one that a class with a dotted name takes, and one that is added to a
package which is still found under a name that it has lost. -/
theorem run_modulesRenamed :
    (run (empty {}) ([.addModule "p" true, .addModule "p.sub" false] ++ namesake)).fullName ⟨1⟩ = "p.sub 0" ∧
    (run (empty {}) ([.addModule "p" true, .addModule "p.sub" false] ++ namesake)).lookupModule "p.sub" =
      none ∧
    (run (empty { duplicatePolicy := .firstWins })
      ([.addModule "p" true] ++ namesake ++ [.addModule "p.sub" false])).fullName ⟨2⟩ = "p.sub 0" ∧
    (run (empty {}) [.addModule "a" true, .addModule "a.b" true, .addModule "a.b.c" false,
      .build Hook.standard ⟨0⟩ (.ok { body := [.classDef { name := "b.c", line := 1 } []] })]).lookupModule
        "a.b.c" = none ∧
    (run (empty {}) [.addModule "t" true, .addModule "t.a" true, .addModule "t.a.s 0" true,
      .addModule "t.a.s 0.r" true,
      .build Hook.standard ⟨0⟩ (.ok { body :=
        [.classDef { name := "a.s 0", line := 1 } [], .classDef { name := "b", line := 2 } []] }),
      .move ⟨4⟩ ⟨3⟩ "x",
      .build Hook.standard ⟨1⟩ (.ok { body :=
        [.classDef { name := "s", line := 1 } [], .classDef { name := "s", line := 2 } []] }),
      .move ⟨5⟩ ⟨0⟩ "a", .addModule "t.a.s 0.r.m" false]).fullName ⟨8⟩ = "t.a 0.s 0.r.m" := by
  decide +kernel

end DocGraph.Graph
