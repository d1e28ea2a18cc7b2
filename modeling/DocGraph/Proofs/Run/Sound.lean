import DocGraph.Proofs.Run.Change

namespace DocGraph.Graph

variable {g h : Graph} {id : EntityId}

structure Sound (g : Graph) : Prop where
  rooted : g.Rooted
  tabled : g.Tabled
  roots : ∀ id, id ∈ g.roots ↔ g.Has id ∧ (g.entity id).parent = none
  rootsNodup : g.roots.Nodup
  rootType : ∀ {id}, g.Has id → (g.entity id).parent = none → (g.entity id).type = .module
  pending : ∀ {id origin into blocked line},
    .star origin into blocked line ∈ (g.entity id).pending → g.Has into
  aligned : ∀ id, (g.entity id).baseLists.Aligned

theorem sound_empty (options : Options) : (empty options).Sound := by
  have absent (id : EntityId) : (empty options).entity id = .absent := by
    simp [entity, empty]
  have missing (id : EntityId) : ¬ (empty options).Has id := by
    simp [Has, size, empty]
  refine ⟨⟨⟨fun id => ⟨id, ?_⟩⟩, ?_⟩, ⟨?_, ?_⟩, ?_, ?_, ?_, ?_, ?_⟩
  · intro parent held
    simp [IsParent, absent, Entity.absent] at held
  · intro parent child held
    simp [IsParent, absent, Entity.absent] at held
  · intro id
    rw [absent]
    exact Contents.listed_empty
  · intro parent child name found
    rw [absent] at found
    exact absurd found (by simp [Entity.absent, Contents.get?])
  · intro id
    exact ⟨fun member => absurd member (by simp [empty]), fun both => absurd both.1 (missing id)⟩
  · simp [empty]
  · intro id inside
    exact absurd inside (missing id)
  · intro id origin into blocked line member
    rw [absent] at member
    simp [Entity.absent, Entity.pending, Entity.module?] at member
  · intro id
    rw [absent]
    exact BaseLists.aligned_nil

/-- A graph with the same parents, types and roots is sound as far as its tables, the imports that
wait and the bases of its classes are. -/
theorem Sound.transfer (sound : g.Sound) (size : h.size = g.size) (roots : h.roots = g.roots)
    (parent : ∀ id, (h.entity id).parent = (g.entity id).parent)
    (type : ∀ id, (h.entity id).type = (g.entity id).type) (tabled : h.Tabled)
    (pending : ∀ {id origin into blocked line},
      .star origin into blocked line ∈ (h.entity id).pending → g.Has into)
    (aligned : ∀ id, (h.entity id).baseLists.Aligned) : h.Sound := by
  have has (id : EntityId) : h.Has id ↔ g.Has id := by simp [Has, size]
  have isParent : h.IsParent = g.IsParent := by
    funext upper lower
    simp [IsParent, parent]
  refine ⟨⟨?_, ?_⟩, tabled, ?_, ?_, ?_, ?_, aligned⟩
  · rw [isParent]
    exact sound.rooted.wellFounded
  · intro upper lower held
    rw [isParent] at held
    exact (has upper).mpr (sound.rooted.parentHas held)
  · intro id
    rw [roots, has, parent]
    exact sound.roots id
  · rw [roots]
    exact sound.rootsNodup
  · intro id inside root
    rw [parent] at root
    rw [type]
    exact sound.rootType ((has id).mp inside) root
  · intro id origin into blocked line member
    exact (has into).mpr (pending member)

theorem Sound.overlaid (sound : g.Sound) (overlaid : Overlaid g h)
    (pending : ∀ {id origin into blocked line},
      .star origin into blocked line ∈ (h.entity id).pending → g.Has into)
    (aligned : ∀ id, (h.entity id).baseLists.Aligned) : h.Sound :=
  sound.transfer overlaid.size overlaid.roots (fun id => (overlaid.entity id).parent)
    (fun id => (overlaid.entity id).type) (overlaid.sameTree.tabled sound.tabled) pending aligned

theorem Sound.arranged (sound : g.Sound) (arranged : Arranged g h) (tabled : h.Tabled) : h.Sound := by
  refine sound.transfer arranged.size arranged.roots (arranged.read Entity.parent fun _ _ _ => rfl)
    (arranged.read Entity.type fun _ _ _ => rfl) tabled ?_ fun id => ?_
  · intro id origin into blocked line member
    rw [arranged.read Entity.pending fun _ _ _ => rfl] at member
    exact sound.pending member
  · rw [arranged.read Entity.baseLists fun _ _ _ => rfl]
    exact sound.aligned id

theorem Touch.pending (touched : Touch g h) (sound : g.Sound)
    {origin : String} {into : EntityId} {blocked : List String} {line : Nat}
    (member : .star origin into blocked line ∈ (h.entity id).pending) : g.Has into := by
  have kept (same : (h.entity id).pending = (g.entity id).pending) : g.Has into :=
    sound.pending (same ▸ member)
  cases touched with
  | retouch same => exact kept (same.entity id).pending
  | bind other name target =>
      exact kept (g.read_modify other (Entity.bindAlias name target) Entity.pending (fun _ => rfl) id)
  | unbind other name _ =>
      exact kept (g.read_modify other (fun e => { e with aliases := e.aliases.erase name })
        Entity.pending (fun _ => rfl) id)
  | defer other inside =>
      rw [deferImport, entity_modify] at member
      split at member
      · rw [Entity.pending, Entity.module?_modifyModule] at member
        cases found : (g.entity id).module? with
        | none => simp [found] at member
        | some info =>
            simp only [found, Option.map_some, Option.getD_some, List.mem_append,
              List.mem_singleton] at member
            rcases member with old | new
            · have waiting : .star origin into blocked line ∈ (g.entity id).pending := by
                simpa [Entity.pending, found] using old
              exact sound.pending waiting
            · exact inside new.symm
      · exact sound.pending member
  | resume other =>
      rw [entity_modify] at member
      split at member
      · rw [Entity.pending, Entity.module?_modifyModule] at member
        cases found : (g.entity id).module? <;> simp [found] at member
      · exact sound.pending member
  | define other bases decorators _ _ _ _ =>
      exact kept (read_modify _ _ _ Entity.pending (fun e => e.pending_modifyClass _) id)
  | upgrade other =>
      rcases upgradeBases_cases g other with equal | ⟨parent, _, equal⟩
      · exact kept (by rw [equal])
      · exact kept (by rw [equal, read_modify _ _ _ Entity.pending fun e => e.pending_modifyClass _])
  | link other base _ =>
      rcases linkSubclass_cases g other base with equal | ⟨_, _, equal⟩
      · exact kept (by rw [equal])
      · exact kept (by rw [equal, read_modify _ _ _ Entity.pending fun e => e.pending_modifyClass _])

/-- Bases are written to all three lists at once, and later only at places that they have. -/
theorem Touch.aligned (touched : Touch g h) (sound : g.Sound) (id : EntityId) :
    (h.entity id).baseLists.Aligned := by
  have kept (same : (h.entity id).baseLists = (g.entity id).baseLists) : (h.entity id).baseLists.Aligned :=
    same ▸ sound.aligned id
  have written {other : EntityId} {f : ClassInfo → ClassInfo}
      (aligned : ∀ info, info.bases.Aligned → (f info).bases.Aligned) :
      ((g.modify other (Entity.modifyClass f)).entity id).baseLists.Aligned := by
    rw [baseLists_modify_modifyClass]
    split
    · have before := sound.aligned other
      rw [Entity.baseLists] at before
      cases found : (g.entity other).class? with
      | none => exact BaseLists.aligned_nil
      | some info =>
          rw [found] at before
          exact aligned info before
    · exact sound.aligned id
  cases touched with
  | retouch same => exact kept (same.entity id).baseLists
  | bind other name target =>
      exact kept (g.read_modify other (Entity.bindAlias name target) Entity.baseLists (fun _ => rfl) id)
  | unbind other name _ =>
      exact kept (g.read_modify other (fun e => { e with aliases := e.aliases.erase name })
        Entity.baseLists (fun _ => rfl) id)
  | defer other _ => exact kept (read_modify _ _ _ Entity.baseLists (fun e => e.baseLists_modifyModule _) id)
  | resume other => exact kept (read_modify _ _ _ Entity.baseLists (fun e => e.baseLists_modifyModule _) id)
  | define other bases decorators _ _ _ _ => exact written fun _ _ => BaseLists.aligned_ofSlots bases
  | upgrade other =>
      rcases upgradeBases_cases g other with equal | ⟨parent, _, equal⟩
      · exact kept (by rw [equal])
      · rw [equal]
        exact written fun _ _ => (sound.aligned other).settleAll _ _
  | link other base _ =>
      rcases linkSubclass_cases g other base with equal | ⟨_, _, equal⟩
      · exact kept (by rw [equal])
      · exact kept (by rw [equal]; exact baseLists_modify_of_kept (by intro; rfl) id)

theorem Sound.touch (sound : g.Sound) (touched : Touch g h) : h.Sound :=
  sound.overlaid touched.overlaid (touched.pending sound) (touched.aligned sound)

theorem Sound.attach {parent child : EntityId} (sound : g.Sound) (unlisted : g.Unlisted child)
    (held : g.IsParent parent child) : (g.attach parent child).Sound :=
  sound.arranged (arranged_attach g parent child)
    (tabled_attach sound.rooted sound.tabled unlisted held)

section alloc

variable {e : Entity}

theorem Sound.alloc {parent : EntityId} (sound : g.Sound) (blank : e.Blank)
    (above : e.parent = some parent) (inside : g.Has parent) : (g.alloc e).1.Sound := by
  have old {id : EntityId} (root : ((g.alloc e).1.entity id).parent = none)
      (has : (g.alloc e).1.Has id) : g.Has id := by
    rcases (g.has_alloc e id).mp has with old | fresh
    · exact old
    · rw [entity_alloc, if_pos fresh, above] at root
      cases root
  refine ⟨rooted_alloc sound.rooted above inside, tabled_alloc sound.tabled blank.contents, fun id => ?_,
    sound.rootsNodup, ?_, ?_, fun id => ?_⟩
  · rw [roots_alloc, sound.roots]
    constructor
    · rintro ⟨has, root⟩
      rw [entity_alloc_of_has _ _ has]
      exact ⟨(g.has_alloc e id).mpr (.inl has), root⟩
    · rintro ⟨has, root⟩
      have has := old root has
      rw [entity_alloc_of_has _ _ has] at root
      exact ⟨has, root⟩
  · intro id has root
    have has := old root has
    rw [entity_alloc_of_has _ _ has] at root ⊢
    exact sound.rootType has root
  · intro id origin into blocked line member
    refine (g.has_alloc e into).mpr (.inl ?_)
    rw [entity_alloc] at member
    split at member
    · rw [blank.pending] at member
      cases member
    · exact sound.pending member
  · rw [entity_alloc]
    split
    · rw [blank.baseLists]
      exact BaseLists.aligned_nil
    · exact sound.aligned id

theorem Sound.declare {parent : EntityId} (sound : g.Sound) (blank : e.Blank)
    (above : e.parent = some parent) (inside : g.Has parent) :
    ((g.alloc e).1.attach parent ⟨g.size⟩).Sound := by
  refine (sound.alloc blank above inside).attach (unlisted_alloc sound.tabled blank.contents) ?_
  rw [IsParent, entity_alloc, if_pos rfl, above]

theorem Sound.root (sound : g.Sound) (blank : e.Blank) (root : e.parent = none)
    (type : e.type = .module) :
    (({ (g.alloc e).1 with roots := g.roots ++ [⟨g.size⟩] } : Graph).register ⟨g.size⟩).Sound := by
  have same : SameTree (g.alloc e).1
      (({ (g.alloc e).1 with roots := g.roots ++ [⟨g.size⟩] } : Graph).register ⟨g.size⟩) :=
    SameTree.of_entities (entities_register _ _)
  have entities := entity_congr (entities_register
    { (g.alloc e).1 with roots := g.roots ++ [⟨g.size⟩] } ⟨g.size⟩)
  have roots := (arranged_register
    { (g.alloc e).1 with roots := g.roots ++ [⟨g.size⟩] } ⟨g.size⟩).roots
  generalize ({ (g.alloc e).1 with roots := g.roots ++ [⟨g.size⟩] } : Graph).register ⟨g.size⟩ = h at *
  have has (id : EntityId) : h.Has id ↔ g.Has id ∨ id = ⟨g.size⟩ := same.has.trans (g.has_alloc e id)
  have entity (id : EntityId) : h.entity id = if id = ⟨g.size⟩ then e else g.entity id := by
    rw [entities]
    exact g.entity_alloc e id
  refine ⟨same.rooted (rooted_alloc_root sound.rooted root),
    same.tabled (tabled_alloc sound.tabled blank.contents), fun id => ?_, ?_, ?_, ?_, fun id => ?_⟩
  · rw [roots, has, entity, List.mem_append, List.mem_singleton, sound.roots]
    by_cases fresh : id = ⟨g.size⟩
    · simp [fresh, root]
    · simp [fresh]
  · rw [roots, List.nodup_append]
    refine ⟨sound.rootsNodup, by simp, fun id member other single equal => ?_⟩
    rw [equal, List.mem_singleton.mp single] at member
    exact g.not_has_fresh ((sound.roots _).mp member).1
  · intro id inside above
    rw [entity] at above ⊢
    by_cases fresh : id = ⟨g.size⟩
    · rw [if_pos fresh, type]
    · rw [if_neg fresh] at above ⊢
      exact sound.rootType (((has id).mp inside).resolve_right fresh) above
  · intro id origin into blocked line member
    rw [entity] at member
    split at member
    · rw [blank.pending] at member
      cases member
    · exact (has into).mpr (.inl (sound.pending member))
  · rw [entity]
    split
    · rw [blank.baseLists]
      exact BaseLists.aligned_nil
    · exact sound.aligned id

end alloc

section uproot

variable {oldParent target : EntityId} {name : String}

theorem Sound.uproot (sound : g.Sound) (held : g.IsParent oldParent id)
    (outside : ¬ g.Above id target) (inside : g.Has target) :
    (g.uproot id oldParent target (g.entity id).name name).Sound := by
  have rooted := sound.rooted
  have old {other : EntityId}
      (root : ((g.uproot id oldParent target (g.entity id).name name).entity other).parent = none) :
      (g.entity other).parent = none := by
    rw [parent_uproot rooted held] at root
    split at root
    · cases root
    · exact root
  refine ⟨rooted_uproot rooted held outside inside, tabled_uproot rooted sound.tabled held, fun other => ?_,
    ?_, ?_, ?_, fun other => ?_⟩
  · have roots : (g.uproot id oldParent target (g.entity id).name name).roots = g.roots :=
      (arranged_unregister g id).roots
    rw [roots, has_uproot, sound.roots]
    refine and_congr_right fun _ => ⟨fun root => ?_, old⟩
    rw [parent_uproot rooted held, if_neg, root]
    rintro rfl
    rw [held] at root
    cases root
  · exact (arranged_unregister g id).roots ▸ sound.rootsNodup
  · intro other has root
    rw [read_uproot Entity.type fun _ _ _ _ _ => rfl]
    exact sound.rootType (has_uproot.mp has) (old root)
  · intro other origin into blocked line member
    rw [read_uproot Entity.pending fun _ _ _ _ _ => rfl] at member
    exact has_uproot.mpr (sound.pending member)
  · rw [read_uproot Entity.baseLists fun _ _ _ _ _ => rfl]
    exact sound.aligned other

/-- Moving in its parts: the uprooted entity is in no table, and its new parent is `target`. -/
theorem Sound.move_parts (sound : g.Sound) (held : g.IsParent oldParent id)
    (outside : g.isAncestor id target = false) (inside : g.Has target) (name : String) :
    (g.uproot id oldParent target (g.entity id).name name).Sound ∧
      (g.uproot id oldParent target (g.entity id).name name).Unlisted id ∧
      (g.uproot id oldParent target (g.entity id).name name).IsParent target id := by
  refine ⟨sound.uproot held ?_ inside, unlisted_uproot sound.rooted sound.tabled held, ?_⟩
  · rw [← isAncestor_iff sound.rooted inside, outside]
    simp
  · rw [IsParent, parent_uproot sound.rooted held, if_pos rfl]

theorem Sound.move (sound : g.Sound) (inside : g.Has target) (moved : g.move id target name = .ok h) :
    h.Sound := by
  rcases move_cases moved with ⟨rfl, _⟩ | ⟨oldParent, held, _, _, outside, rfl⟩
  · exact sound
  · obtain ⟨uprooted, unlisted, above⟩ := sound.move_parts held outside inside name
    exact (uprooted.attach unlisted above).touch (.bind _ _ _)

end uproot

theorem Change.sound (change : Change g h) (sound : g.Sound) : h.Sound := by
  cases change with
  | touch touched => exact sound.touch touched
  | declare blank above inside _ => exact sound.declare blank above inside
  | root blank root type _ => exact sound.root blank root type
  | move inside moved => exact sound.move inside moved

theorem Path.sound (path : Path g h) (sound : g.Sound) : h.Sound := by
  induction path with
  | refl => exact sound
  | tail _ change ih => exact change.sound ih

/-- What an entity is behind a change: of the type it was, and under the parent it had unless this was
its one move. -/
structure Lasts (e f : Entity) : Prop where
  type : f.type = e.type
  place : (f.parent = e.parent ∧ f.moved = e.moved) ∨ (e.moved = false ∧ f.moved = true)

theorem Lasts.refl (e : Entity) : Lasts e e := ⟨rfl, .inl ⟨rfl, rfl⟩⟩

theorem Lasts.trans {e f k : Entity} (first : Lasts e f) (second : Lasts f k) : Lasts e k := by
  refine ⟨second.type.trans first.type, ?_⟩
  rcases first.place with ⟨parent, moved⟩ | ⟨before, behind⟩
  · rw [← parent, ← moved]
    exact second.place
  · rcases second.place with ⟨_, moved⟩ | ⟨unmoved, _⟩
    · exact .inr ⟨before, moved.trans behind⟩
    · rw [behind] at unmoved
      cases unmoved

theorem Arranged.lasts (arranged : Arranged g h) (id : EntityId) : Lasts (g.entity id) (h.entity id) :=
  ⟨arranged.read Entity.type (fun _ _ _ => rfl) id,
    .inl ⟨arranged.read Entity.parent (fun _ _ _ => rfl) id,
      arranged.read Entity.moved (fun _ _ _ => rfl) id⟩⟩

theorem Overlaid.lasts (overlaid : Overlaid g h) (id : EntityId) : Lasts (g.entity id) (h.entity id) :=
  ⟨(overlaid.entity id).type, .inl ⟨(overlaid.entity id).parent, (overlaid.entity id).moved⟩⟩

theorem Change.lasts (change : Change g h) (sound : g.Sound) (inside : g.Has id) :
    h.Has id ∧ Lasts (g.entity id) (h.entity id) := by
  cases change with
  | touch touched => exact ⟨touched.overlaid.sameTree.has.mpr inside, touched.overlaid.lasts id⟩
  | @declare parent e blank above held _ =>
      have arranged := arranged_attach (g.alloc e).1 parent ⟨g.size⟩
      refine ⟨arranged.has.mpr ((g.has_alloc e id).mpr (.inl inside)), ?_⟩
      have lasts := arranged.lasts id
      rwa [entity_alloc_of_has _ _ inside] at lasts
  | @root e blank root type free =>
      have arranged := arranged_register
        ({ (g.alloc e).1 with roots := g.roots ++ [⟨g.size⟩] } : Graph) ⟨g.size⟩
      refine ⟨arranged.has.mpr ((g.has_alloc e id).mpr (.inl inside)), ?_⟩
      have lasts := arranged.lasts id
      have same : ({ (g.alloc e).1 with roots := g.roots ++ [⟨g.size⟩] } : Graph).entity id =
          g.entity id := entity_alloc_of_has g e inside
      rwa [same] at lasts
  | @move _ mover target name held moved =>
      rcases move_cases moved with ⟨rfl, _⟩ | ⟨oldParent, above, _, unmoved, outside, rfl⟩
      · exact ⟨inside, .refl _⟩
      · have rooted := sound.rooted
        have arranged := arranged_attach (g.uproot mover oldParent target (g.entity mover).name name)
          target mover
        refine ⟨by simpa [arranged.has] using has_uproot.mpr inside, ?_⟩
        have first : Lasts (g.entity id)
            ((g.uproot mover oldParent target (g.entity mover).name name).entity id) := by
          rw [entity_uproot rooted above]
          split
          · rename_i same
            subst same
            exact ⟨rfl, .inr ⟨unmoved, rfl⟩⟩
          · split
            · exact ⟨rfl, .inl ⟨rfl, rfl⟩⟩
            · exact .refl _
        exact (first.trans (arranged.lasts id)).trans ((Touch.bind _ _ _).overlaid.lasts id)

theorem Path.lasts (path : Path g h) (sound : g.Sound) (inside : g.Has id) :
    h.Has id ∧ Lasts (g.entity id) (h.entity id) := by
  induction path with
  | refl => exact ⟨inside, .refl _⟩
  | tail before change ih =>
      obtain ⟨inside, first⟩ := ih
      obtain ⟨inside, second⟩ := change.lasts (Path.sound before sound) inside
      exact ⟨inside, first.trans second⟩

theorem Path.has (path : Path g h) (sound : g.Sound) (inside : g.Has id) : h.Has id :=
  (path.lasts sound inside).1

end DocGraph.Graph
