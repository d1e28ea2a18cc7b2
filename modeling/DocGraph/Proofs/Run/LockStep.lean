import DocGraph.Proofs.Run.Sound

/-!
The tree and the index in lock step over whole runs, as long as no entity ever has a name with a dot
in it. Names that were given are still there at the end: a declaration that loses its name keeps it in
front of a number, and one that is moved leaves it behind as an alias. So it is enough that the graph
behind a run has no dots in names and aliases.
-/
namespace DocGraph.Graph

open Dotted (IsSegment)

variable {g h : Graph} {id : EntityId}

/-- No name of an entity and no name of an alias has a dot in it. -/
structure Dotless (g : Graph) : Prop where
  name : ∀ {id}, g.Has id → IsSegment (g.entity id).name
  aliases : ∀ {id key}, g.Has id → ((g.entity id).aliases[key]?).isSome → IsSegment key

theorem dotless_iff : g.Dotless ↔ ∀ id ∈ g.ids, IsSegment (g.entity id).name ∧
    ∀ key ∈ (g.entity id).aliases.keys, IsSegment key := by
  have bound (aliases : NameMap String) (key : String) :
      (aliases[key]?).isSome ↔ key ∈ aliases.keys := by
    rw [Std.ExtTreeMap.mem_keys, Std.ExtTreeMap.mem_iff_isSome_getElem?]
  constructor
  · intro dotless id member
    have inside := g.mem_ids.mp member
    exact ⟨dotless.name inside, fun key among => dotless.aliases inside ((bound _ _).mpr among)⟩
  · intro each
    exact ⟨fun {id} inside => (each id (g.mem_ids.mpr inside)).1, fun {id key} inside among =>
      (each id (g.mem_ids.mpr inside)).2 key ((bound _ _).mp among)⟩

instance (g : Graph) : Decidable g.Dotless := decidable_of_iff' _ dotless_iff

theorem Dotless.segmented (dotless : g.Dotless) : g.Segmented := fun _ inside => dotless.name inside

/-- A name as it was, or with a number behind it. -/
def Keeps (before behind : String) : Prop := behind = before ∨ ∃ number, behind = numbered before number

theorem Keeps.isSegment_iff {before behind : String} (keeps : Keeps before behind) :
    IsSegment behind ↔ IsSegment before := by
  rcases keeps with rfl | ⟨number, rfl⟩
  · rfl
  · exact isSegment_numbered

theorem keeps_attach {parent child : EntityId} (tabled : g.Tabled) (unlisted : g.Unlisted child)
    (held : g.IsParent parent child) (id : EntityId) :
    Keeps (g.entity id).name ((g.attach parent child).entity id).name := by
  rcases attach_cases g parent child unlisted with
    ⟨_, equal⟩ | ⟨previous, winner, loser, number, message, found, roles, _, equal⟩
  · rw [equal, entity_congr (entities_register _ _), name_bindChild]
    exact .inl rfl
  · obtain ⟨loserHeld, loserNamed⟩ := roles.loser_held tabled held rfl found
    have names : (((g.report child message "ast" 0 1).relabel parent winner loser
        (g.entity child).name number).entity id).name =
          if id = loser then numbered (g.entity child).name number else (g.entity id).name :=
      name_relabel (g.has_of_parent loserHeld) id
    rw [equal, entity_congr (entities_demote _ _ _ _ _ _), names]
    split
    · rename_i same
      exact .inr ⟨number, by rw [same, loserNamed]⟩
    · exact .inl rfl

theorem Segmented.of_attach {parent child : EntityId} (segmented : (g.attach parent child).Segmented)
    (tabled : g.Tabled) (unlisted : g.Unlisted child) (held : g.IsParent parent child) : g.Segmented :=
  fun id inside => (keeps_attach tabled unlisted held id).isSegment_iff.mp
    (segmented id ((arranged_attach g parent child).has.mpr inside))

/-- The entity that a change puts into the tree keeps its name in the graph behind the change. -/
theorem Segmented.of_move {oldParent target : EntityId} {name key fullName : String} (sound : g.Sound)
    (held : g.IsParent oldParent id) (outside : g.isAncestor id target = false) (inside : g.Has target)
    (segmented : (((g.uproot id oldParent target (g.entity id).name name).attach target id).modify
      oldParent (Entity.bindAlias key fullName)).Segmented) :
    (g.uproot id oldParent target (g.entity id).name name).Segmented := by
  obtain ⟨uprooted, unlisted, above⟩ := sound.move_parts held outside inside name
  exact ((Touch.bind oldParent key fullName).overlaid.sameTree.symm.segmented segmented).of_attach
    uprooted.tabled unlisted above

theorem Touch.aliases (touched : Touch g h) {key : String}
    (bound : ((g.entity id).aliases[key]?).isSome) :
    ((h.entity id).aliases[key]?).isSome ∨ g.Bears id key := by
  have kept (same : (h.entity id).aliases = (g.entity id).aliases) :
      ((h.entity id).aliases[key]?).isSome ∨ g.Bears id key := .inl (same ▸ bound)
  cases touched with
  | retouch same => exact kept (same.entity id).aliases
  | bind other name target =>
      left
      rw [entity_modify]
      split
      · rw [Entity.bindAlias, NameMap.get_insert]
        split
        · rfl
        · exact bound
      · exact bound
  | unbind other name borne =>
      rw [entity_modify]
      split
      · rename_i same
        rw [NameMap.get_erase]
        split
        · rename_i equal
          exact .inr (same.1 ▸ equal ▸ borne)
        · exact .inl bound
      · exact .inl bound
  | defer other _ =>
      exact kept (g.read_modify other _ Entity.aliases (fun e => e.aliases_modifyModule _) id)
  | resume other =>
      exact kept (g.read_modify other _ Entity.aliases (fun e => e.aliases_modifyModule _) id)
  | define other _ _ _ _ _ _ =>
      exact kept (g.read_modify other _ Entity.aliases (fun e => e.aliases_modifyClass _) id)
  | upgrade other =>
      rcases upgradeBases_cases g other with equal | ⟨parent, _, equal⟩
      · exact kept (by rw [equal])
      · exact kept (by rw [equal, read_modify _ _ _ Entity.aliases fun e => e.aliases_modifyClass _])
  | link other base _ =>
      rcases linkSubclass_cases g other base with equal | ⟨_, _, equal⟩
      · exact kept (by rw [equal])
      · exact kept (by rw [equal, read_modify _ _ _ Entity.aliases fun e => e.aliases_modifyClass _])

theorem Dotless.of_touch (dotless : h.Dotless) (touched : Touch g h) : g.Dotless := by
  have same := touched.overlaid.sameTree
  have name {id : EntityId} (inside : g.Has id) : IsSegment (g.entity id).name :=
    same.name id ▸ dotless.name (same.has.mpr inside)
  refine ⟨name, fun inside bound => ?_⟩
  rcases touched.aliases bound with kept | ⟨child, held, borne⟩
  · exact dotless.aliases (same.has.mpr inside) kept
  · refine (Keeps.isSegment_iff ?_).mp (name (g.has_of_parent held))
    rcases borne with equal | ⟨number, equal⟩
    · exact .inl equal
    · exact .inr ⟨number, equal⟩

theorem Dotless.of_attach {parent child : EntityId} (dotless : (g.attach parent child).Dotless)
    (tabled : g.Tabled) (unlisted : g.Unlisted child) (held : g.IsParent parent child) : g.Dotless := by
  have arranged := arranged_attach g parent child
  refine ⟨fun {id} => dotless.segmented.of_attach tabled unlisted held id, fun inside bound => ?_⟩
  refine dotless.aliases (arranged.has.mpr inside) ?_
  rw [arranged.read Entity.aliases fun _ _ _ => rfl]
  exact bound

theorem Dotless.of_alloc {e : Entity} (dotless : (g.alloc e).1.Dotless) : g.Dotless := by
  have has {id : EntityId} (inside : g.Has id) : (g.alloc e).1.Has id :=
    (g.has_alloc e id).mpr (.inl inside)
  constructor
  · intro id inside
    have name := dotless.name (has inside)
    rwa [entity_alloc_of_has _ _ inside] at name
  · intro id key inside bound
    refine dotless.aliases (has inside) ?_
    rwa [entity_alloc_of_has _ _ inside]

theorem Dotless.of_root {e : Entity} {roots : List EntityId}
    (dotless : (({ (g.alloc e).1 with roots } : Graph).register ⟨g.size⟩).Dotless) :
    (g.alloc e).1.Dotless := by
  have entities := entities_register ({ (g.alloc e).1 with roots } : Graph) ⟨g.size⟩
  have same : SameTree (g.alloc e).1 (({ (g.alloc e).1 with roots } : Graph).register ⟨g.size⟩) :=
    SameTree.of_entities entities
  have entity : (({ (g.alloc e).1 with roots } : Graph).register ⟨g.size⟩).entity =
      (g.alloc e).1.entity := entity_congr entities
  exact ⟨fun inside => entity ▸ dotless.name (same.has.mpr inside),
    fun inside bound => dotless.aliases (same.has.mpr inside) (entity ▸ bound)⟩

/-- Behind a move, the old name of the entity is that of an alias in its old parent. -/
theorem Dotless.of_move {oldParent target : EntityId} {name fullName : String} (sound : g.Sound)
    (held : g.IsParent oldParent id) (outside : g.isAncestor id target = false) (inside : g.Has target)
    (dotless : (((g.uproot id oldParent target (g.entity id).name name).attach target id).modify oldParent
      (Entity.bindAlias (g.entity id).name fullName)).Dotless) :
    g.Dotless := by
  have rooted := sound.rooted
  obtain ⟨uprooted, unlisted, above⟩ := sound.move_parts held outside inside name
  have arranged := arranged_attach (g.uproot id oldParent target (g.entity id).name name) target id
  have middle := (dotless.of_touch (.bind _ _ _)).of_attach uprooted.tabled unlisted above
  refine ⟨fun {other} has => ?_, fun {other key} has bound => ?_⟩
  · by_cases same : other = id
    · have hasOld := arranged.has.mpr (has_uproot.mpr (rooted.parentHas held))
      have behind := (has_modify _ oldParent (Entity.bindAlias (g.entity id).name fullName) oldParent).mpr
        hasOld
      refine same ▸ dotless.aliases behind ?_
      rw [entity_modify_self _ _ _ hasOld, Entity.bindAlias, NameMap.get_insert, if_pos rfl]
      rfl
    · have named := middle.name (has_uproot.mpr has)
      rw [entity_uproot rooted held, if_neg same] at named
      split at named <;> exact named
  · refine middle.aliases (has_uproot.mpr has) ?_
    rw [read_uproot Entity.aliases fun _ _ _ _ _ => rfl]
    exact bound

theorem Dotless.of_change (dotless : h.Dotless) (sound : g.Sound) (change : Change g h) : g.Dotless := by
  cases change with
  | touch touched => exact dotless.of_touch touched
  | @declare parent e blank above inside _ =>
      have held : (g.alloc e).1.IsParent parent ⟨g.size⟩ := by
        rw [IsParent, entity_alloc, if_pos rfl, above]
      exact (dotless.of_attach (tabled_alloc sound.tabled blank.contents)
        (unlisted_alloc sound.tabled blank.contents) held).of_alloc
  | root _ _ _ _ => exact dotless.of_root.of_alloc
  | @move _ id target name inside moved =>
      rcases move_cases moved with ⟨rfl, _⟩ | ⟨oldParent, held, _, _, outside, rfl⟩
      · exact dotless
      · exact Dotless.of_move sound held outside inside dotless

theorem Dotless.of_path (dotless : h.Dotless) (sound : g.Sound) (path : Path g h) : g.Dotless := by
  induction path with
  | refl => exact dotless
  | tail before change ih => exact ih (dotless.of_change (Path.sound before sound) change)

theorem Touch.registered (touched : Touch g h) (registered : g.Registered none) : h.Registered none :=
  touched.overlaid.sameTree.registered registered touched.overlaid.index

theorem Change.registered (change : Change g h) (sound : g.Sound) (registered : g.Registered none)
    (segmented : h.Segmented) : h.Registered none := by
  have rooted := sound.rooted
  have tabled := sound.tabled
  cases change with
  | touch touched => exact touched.registered registered
  | @declare parent e blank above inside _ =>
      have held : (g.alloc e).1.IsParent parent ⟨g.size⟩ := by
        rw [IsParent, entity_alloc, if_pos rfl, above]
      have middle := segmented.of_attach (tabled_alloc tabled blank.contents)
        (unlisted_alloc tabled blank.contents) held
      exact registered_declare rooted tabled registered middle above inside blank.contents
  | @root e blank root type free =>
      have same : SameTree (g.alloc e).1
          (({ (g.alloc e).1 with roots := g.roots ++ [⟨g.size⟩] } : Graph).register ⟨g.size⟩) :=
        SameTree.of_entities (entities_register _ _)
      refine registered_root rooted tabled registered (same.symm.segmented segmented) root
        blank.contents ?_ _
      intro other has above same
      have found : g.lookup e.name = some other := by
        refine (registered.index _ _).mpr ⟨has, ?_, by simp⟩
        rw [fullName_of_root rooted has above, same]
      simp [found, isModule, sound.rootType has above] at free
  | @move _ id target name inside moved =>
      rcases move_cases moved with ⟨rfl, _⟩ | ⟨oldParent, held, _, _, outside, rfl⟩
      · exact registered
      · obtain ⟨uprooted, unlisted, above⟩ := sound.move_parts held outside inside name
        have middle := Segmented.of_move sound held outside inside segmented
        have apart : ¬ g.Above id target := by
          rw [← isAncestor_iff rooted inside, outside]
          simp
        have attached := registered_attach uprooted.rooted uprooted.tabled middle unlisted above
          (registered_uproot rooted tabled registered held apart inside)
        exact Touch.registered (.bind _ _ _) attached

/-- Where the graph behind a path has no dots, tree and index have stayed in lock step. -/
theorem Path.registered (path : Path g h) (sound : g.Sound) (registered : g.Registered none)
    (dotless : h.Dotless) : h.Registered none := by
  induction path with
  | refl => exact registered
  | tail before change ih =>
      have soundBefore := Path.sound before sound
      exact change.registered soundBefore (ih (dotless.of_change soundBefore change)) dotless.segmented

theorem registered_empty (options : Options) : (empty options).Registered none := by
  have missing (id : EntityId) : ¬ (empty options).Has id := by
    simp [Has, size, empty]
  refine ⟨fun _ _ held _ => ?_, fun _ _ inside => absurd inside (missing _), fun name id => ?_⟩
  · exact absurd ((empty options).has_of_parent held) (missing _)
  · have unbound : (empty options).lookup name = none := by simp [lookup, empty]
    rw [unbound]
    exact ⟨fun found => absurd found (by simp), fun found => absurd found.1 (missing id)⟩

/-- The tree and the index in lock step. -/
structure LockStep (g : Graph) : Prop where
  /-- No chain of parents runs in a circle, and none leads out of the graph. -/
  rooted : g.Rooted
  listed : ∀ id, (g.entity id).contents.Listed
  /-- A table binds the entities that have its owner as their parent, under their names. -/
  bound : ∀ parent child name, (g.entity parent).contents.get? name = some child ↔
    (g.entity child).parent = some parent ∧ (g.entity child).name = name
  /-- The entities without a parent are the roots. -/
  roots : ∀ id, id ∈ g.roots ↔ g.Has id ∧ (g.entity id).parent = none
  rootType : ∀ id ∈ g.roots, (g.entity id).type = .module
  rootNames : (g.roots.map fun id => (g.entity id).name).Nodup
  fullName : ∀ left right, g.Has left → g.Has right → g.fullName left = g.fullName right → left = right
  /-- The index has the full names of the entities and no other names. -/
  index : ∀ name id, g.lookup name = some id ↔ g.Has id ∧ g.fullName id = name

theorem Registered.lockStep (registered : g.Registered none) (sound : g.Sound) (segmented : g.Segmented) :
    g.LockStep := by
  refine ⟨sound.rooted, sound.tabled.listed, fun parent child name => ⟨sound.tabled.bound, ?_⟩,
    sound.roots, fun id root => ?_, ?_, fun left right => ?_, fun name id => ?_⟩
  · rintro ⟨above, rfl⟩
    exact registered.complete _ _ above (by simp)
  · obtain ⟨inside, above⟩ := (sound.roots id).mp root
    exact sound.rootType inside above
  · refine List.Nodup.map_on (fun left inLeft right inRight same => ?_) sound.rootsNodup
    obtain ⟨insideLeft, aboveLeft⟩ := (sound.roots left).mp inLeft
    obtain ⟨insideRight, aboveRight⟩ := (sound.roots right).mp inRight
    exact registered.rootsApart left right insideLeft insideRight aboveLeft aboveRight same
  · exact fullName_injective sound.rooted segmented registered.complete registered.rootsApart
  · rw [registered.index]
    simp

theorem Path.lockStep (path : Path g h) (sound : g.Sound) (registered : g.Registered none)
    (dotless : h.Dotless) : h.LockStep :=
  (path.registered sound registered dotless).lockStep (path.sound sound) dotless.segmented

end DocGraph.Graph
