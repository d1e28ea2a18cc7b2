import DocGraph.Proofs.Attributes.Meaning
import DocGraph.Proofs.Walk.Imported
import DocGraph.Proofs.Walk.Overloads

namespace DocGraph

namespace Graph

variable {g h k : Graph} {about near : EntityId → Prop} {id : EntityId}

/-- Some attributes apart, those that are there say the same of themselves. -/
structure Intact (about : EntityId → Prop) (g h : Graph) : Prop where
  has : ∀ {id}, g.Has id → h.Has id
  attribute? : ∀ {id}, g.Has id → ¬ about id → (h.entity id).attribute? = (g.entity id).attribute?
  kind : ∀ {id}, g.Has id → ¬ about id → (g.entity id).type = .attribute → (h.entity id).kind = (g.entity id).kind

namespace Intact

theorem refl (g : Graph) : Intact about g g := ⟨fun inside => inside, fun _ _ => rfl, fun _ _ _ => rfl⟩

theorem type (intact : Intact about g h) (inside : g.Has id) (apart : ¬ about id)
    (type : (g.entity id).type = .attribute) : (h.entity id).type = .attribute := by
  rw [← Entity.attribute?_isSome, intact.attribute? inside apart, Entity.attribute?_isSome]
  exact type

theorem trans (first : Intact about g h) (second : Intact about h k) : Intact about g k := by
  refine ⟨fun inside => second.has (first.has inside), fun inside apart => ?_, fun inside apart type => ?_⟩
  · exact (second.attribute? (first.has inside) apart).trans (first.attribute? inside apart)
  · exact (second.kind (first.has inside) apart (first.type inside apart type)).trans
      (first.kind inside apart type)

theorem mono (intact : Intact about g h) (wider : ∀ {id}, g.Has id → about id → near id) : Intact near g h :=
  ⟨intact.has, fun inside apart => intact.attribute? inside fun within => apart (wider inside within),
    fun inside apart => intact.kind inside fun within => apart (wider inside within)⟩

theorem labelled (intact : Intact about g h) (labelled : Labelled (· = id) h k)
    (other : g.Has id → about id ∨ (h.entity id).type ≠ .attribute) : Intact about g k := by
  refine ⟨fun {another} inside => ?_, fun {another} inside apart => ?_, fun {another} inside apart type => ?_⟩
  · rw [Has, labelled.size]
    exact intact.has inside
  · by_cases same : another = id
    · subst same
      have plain := (other inside).resolve_left apart
      have none (e : Entity) (type : e.type ≠ .attribute) : e.attribute? = none := by
        rwa [← Option.not_isSome_iff_eq_none, Entity.attribute?_isSome]
      rw [← intact.attribute? inside apart, none _ plain, none]
      rwa [(labelled.entity another).type]
    · rw [labelled.elsewhere same]
      exact intact.attribute? inside apart
  · by_cases same : another = id
    · subst same
      exact absurd (intact.type inside apart type) ((other inside).resolve_left apart)
    · rw [labelled.elsewhere same]
      exact intact.kind inside apart type

theorem modify {f : Entity → Entity} (attribute? : ∀ e, (f e).attribute? = e.attribute?)
    (kind : ∀ e, e.type = .attribute → (f e).kind = e.kind) (g : Graph) (id : EntityId) :
    Intact about g (g.modify id f) := by
  refine ⟨(g.has_modify id f _).mpr, fun {another} _ _ => ?_, fun {another} _ _ type => ?_⟩
  · exact read_modify g id f Entity.attribute? attribute? another
  · rw [entity_modify]
    split
    · exact kind _ type
    · rfl

theorem addEntity (g : Graph) (parent : EntityId) (name : String) (payload : Payload) (kind : Option EntityKind)
    (line : Nat) : Intact about g (g.addEntity parent name payload kind line).1 := by
  have arranged := arranged_addEntity g parent name payload kind line
  refine ⟨fun inside => ?_, fun inside _ => ?_, fun inside _ _ => ?_⟩
  · exact arranged.has.mpr ((g.has_alloc _ _).mpr (.inl inside))
  · rw [arranged.read Entity.attribute? fun _ _ _ => rfl, entity_alloc_of_has _ _ inside]
  · rw [arranged.read Entity.kind fun _ _ _ => rfl, entity_alloc_of_has _ _ inside]

theorem of_labelled (labelled : Labelled (fun _ => False) g h) : Intact about g h := by
  have same (id : EntityId) : h.entity id = g.entity id := labelled.elsewhere fun none => none
  refine ⟨fun inside => ?_, fun _ _ => by rw [same], fun _ _ _ => by rw [same]⟩
  rwa [Has, labelled.size]

theorem of_told (told : Told (fun _ => False) g h) : Intact about g h := .of_labelled told.toLabelled

theorem carriesImports : CarriesImports (Intact about) where
  trans := trans
  told := of_told
  bind g scope _ _ := .modify (by intro; rfl) (by intros; rfl) g scope
  defer g module _ := by
    refine .modify (fun e => ?_) (fun e _ => e.kind_modifyModule _) g module
    cases payload : e.payload <;> simp [Entity.modifyModule, Entity.attribute?, payload]
  move moved := by
    refine ⟨fun inside => ?_, fun {id} _ _ => ?_, fun {id} _ _ _ => ?_⟩
    · rwa [Has, size_move moved]
    · exact read_move moved Entity.attribute? (fun _ _ _ _ _ _ => rfl) id
    · exact read_move moved Entity.kind (fun _ _ _ _ _ _ => rfl) id

theorem declareProperty (g : Graph) (scope : EntityId) (head : FunctionHead) (body : List Stmt) (d : Decorated) :
    Intact about g (g.declareProperty scope head body d) :=
  (addEntity g scope head.name _ _ head.line).labelled (told_declareProperty g scope head body d).toLabelled
    fun inside => absurd inside g.not_has_fresh

theorem defineClass (g : Graph) (scope : EntityId) (head : ClassHead) (body : List Stmt) :
    Intact about g (g.defineClass scope head body).1 := by
  obtain ⟨k, decorators, decorated, documented, _⟩ := defineClass_parts g scope head body
  have new {about : Prop} (inside : g.Has ⟨g.size⟩) : about := absurd inside g.not_has_fresh
  have declared : Intact about g k := (addEntity g scope head.name _ _ head.line).labelled decorated.toLabelled new
  refine (declared.trans (.modify (fun e => ?_) (fun e _ => ?_) k _)).labelled documented.toLabelled new
  · cases payload : e.payload <;> simp [Entity.modifyClass, Entity.attribute?, payload]
  · rw [Entity.modifyClass_eq]

end Intact

end Graph

open DocGraph.Graph

namespace Walk

variable {w : Walk} {about : EntityId → Prop} {stmt : Stmt}

theorem intact_declareFunction (w : Walk) (head : FunctionHead) (body : List Stmt) :
    Intact about w.graph (w.declareFunction head body).1 := by
  unfold declareFunction
  dsimp only
  generalize w.graph.decorated w.current head.decorators = d
  split
  · exact .refl _
  · split
    · exact .declareProperty _ _ _ _ _
    · split
      · have type := read_addEntity w.graph w.current (d.accessor.getD head.name) (.function {})
          (some (if (w.graph.entity w.current).type = .class then .method else .function)) head.line
          Entity.type fun _ _ _ => rfl
        exact (Intact.addEntity w.graph w.current _ _ _ head.line).labelled (retold_defineFunction type head body d).toLabelled
          fun inside => absurd inside w.graph.not_has_fresh
      · rename_i id slot
        have type := (functionSlot_eq_extend slot).2.1
        exact (Intact.refl w.graph).labelled (retold_defineFunction type head body d).toLabelled
          fun _ => .inr (by rw [type]; decide)
      · exact .of_told (told_warnAbout _ _ _ _)

theorem intact_declared (w : Walk) (stmt : Stmt) : Intact about w.graph (w.declared stmt).1 := by
  unfold declared
  split
  · unfold declareClass
    split
    · exact .refl _
    · exact .defineClass _ _ _ _
  · exact intact_declareFunction w _ _
  · exact .refl _

/-- What is done to a graph behind the walk of its module is no concern of attributes and tables. -/
theorem build_settled {g : Graph} {module : EntityId} (unbuilt : g.moduleState? module = some .notProcessed)
    (tree : Module) :
    ∃ h, g.build Hook.standard module (.ok tree) = .ok (h, .processed) ∧
      Intact (fun _ => False) ((walkBody tree.body (top g module tree)).leave module).graph h ∧
      ∀ id, (h.entity id).contents =
        (((walkBody tree.body (top g module tree)).leave module).graph.entity id).contents := by
  have noted (g : Graph) (f : ModuleInfo → ModuleInfo) :
      Intact (fun _ => False) g (g.modify module (Entity.modifyModule f)) := by
    refine .modify (fun e => ?_) (fun e _ => e.kind_modifyModule f) g module
    cases payload : e.payload <;> simp [Entity.modifyModule, Entity.attribute?, payload]
  have tables (g : Graph) (f : ModuleInfo → ModuleInfo) (id : EntityId) :
      ((g.modify module (Entity.modifyModule f)).entity id).contents = (g.entity id).contents :=
    read_modify g module _ Entity.contents (fun e => (e.overlaid_modifyModule f).contents) id
  exact ⟨_, build_eq_top unbuilt tree, (noted _ _).trans (noted _ _), fun id => (tables _ _ id).trans (tables _ _ id)⟩

end Walk

end DocGraph
