import DocGraph.Proofs.Finish.StoredOrders

namespace DocGraph

namespace Entity

variable {e : Entity}

theorem Suited.modifyModule (suited : e.Suited) {f : ModuleInfo → ModuleInfo}
    (kept : ∀ info, (f info).isPackage = info.isPackage) : (e.modifyModule f).Suited :=
  suited.congr (e.kind_modifyModule f) (e.type_modifyModule f) (e.isPackage_modifyModule kept)

theorem Suited.modifyClass (suited : e.Suited) (f : ClassInfo → ClassInfo) : (e.modifyClass f).Suited := by
  refine suited.congr ?_ (e.type_modifyClass f) ?_
  · rw [modifyClass_eq]
  · cases payload : e.payload <;> simp [Entity.modifyClass, isPackage, module?, payload]

theorem Suited.setException (suited : e.Suited) (plain : e.kind = some .class) : (e.setKind .exception).Suited := by
  obtain ⟨kind, among, stored⟩ := suited
  cases plain.symm.trans stored
  refine ⟨.exception, ?_, rfl⟩
  cases type : e.type with
  | «class» => simp [type, EntityType.kinds]
  | module =>
      rw [type, EntityType.kinds, List.mem_singleton] at among
      split at among <;> cases among
  | function | «attribute» => simp [type, EntityType.kinds] at among

end Entity

namespace Graph

variable {g h k : Graph} {id : EntityId}

def AllSuited (g : Graph) : Prop := ∀ id, g.Has id → (g.entity id).Suited

/-- The step keeps stored orders in shape, and with them kinds suitable. -/
def Suits (g h : Graph) : Prop := g.Headed → g.AllSuited → h.Headed ∧ h.AllSuited

namespace Suits

theorem refl (g : Graph) : Suits g g := fun headed suited => ⟨headed, suited⟩

theorem trans (first : Suits g h) (second : Suits h k) : Suits g k := fun headed suited =>
  have between := first headed suited
  second between.1 between.2

theorem of_entity (orderly : Orderly g h) (size : h.size = g.size)
    (each : g.Headed → ∀ id, (g.entity id).Suited → (h.entity id).Suited) : Suits g h := by
  intro headed suited
  refine ⟨orderly.headed headed, fun id inside => each headed id (suited id ?_)⟩
  rwa [Has, ← size]

theorem modify {f : Entity → Entity} (class? : ∀ e, (f e).class? = e.class?)
    (kept : ∀ e : Entity, e.Suited → (f e).Suited) : Suits g (g.modify id f) := by
  refine .of_entity (.modify class?) (g.size_modify id f) fun _ other suited => ?_
  rw [entity_modify]
  split
  · exact kept _ suited
  · exact suited

theorem of_labelled {about : EntityId → Prop} (labelled : Labelled about g h) : Suits g h :=
  .of_entity (.of_labelled labelled) labelled.size fun headed _ suited => labelled.suited headed suited

theorem of_told {about : EntityId → Prop} (told : Told about g h) : Suits g h := .of_labelled told.toLabelled

theorem of_noted (noted : Noted id g h) : Suits g h := by
  refine .of_entity (.of_noted noted) noted.retouched.size fun _ other suited => ?_
  by_cases same : other = id
  · subst same
    exact suited.congr noted.kind (noted.retouched.entity other).type noted.isPackage
  · rwa [noted.elsewhere same]

theorem of_move {target : EntityId} {name : String} (moved : g.move id target name = .ok h) : Suits g h := by
  refine .of_entity (.of_move moved) (size_move moved) fun _ other suited => ?_
  rwa [read_move moved Entity.Suited fun _ _ _ _ _ _ => rfl]

theorem append (orderly : Orderly g h) (has : ∀ {id}, h.Has id → g.Has id ∨ id = ⟨g.size⟩)
    (old : g.Headed → ∀ {id}, g.Has id → (g.entity id).Suited → (h.entity id).Suited)
    (new : g.Headed → (h.entity ⟨g.size⟩).Suited) : Suits g h := by
  intro headed suited
  refine ⟨orderly.headed headed, fun id inside => ?_⟩
  rcases has inside with before | rfl
  · exact old headed before (suited id before)
  · exact new headed

theorem of_addModule {name : String} {isPackage : Bool} (added : g.addModule name isPackage = .ok (h, id)) :
    Suits g h := by
  obtain ⟨size, own, parent, read⟩ := read_addModule added
  have suited := read Entity.Suited fun _ _ _ => rfl
  refine .append (.of_addModule added) (fun {other} inside => ?_) (fun _ {other} inside before => ?_) fun _ => ?_
  · rwa [Has, size, ← g.size_alloc (newModule own parent isPackage ⟨g.size⟩), ← Has, has_alloc] at inside
  · rwa [suited, entity_alloc_of_has _ _ inside]
  · rw [suited, entity_alloc, if_pos rfl]
    exact ⟨_, List.mem_singleton_self _, rfl⟩

theorem of_addEntity (g : Graph) (parent : EntityId) (name : String) {payload : Payload}
    {kind : Option EntityKind} (line : Nat) (slots : payload.type = .class → payload = .class {})
    (new : ((g.addEntity parent name payload kind line).1.entity ⟨g.size⟩).Suited) :
    Suits g (g.addEntity parent name payload kind line).1 := by
  have arranged := arranged_addEntity g parent name payload kind line
  refine .append (.of_addEntity g parent name kind line slots) (fun {id} inside => ?_)
    (fun _ {id} inside suited => ?_) fun _ => new
  · rwa [Has, arranged.size, ← Has, has_alloc] at inside
  · rwa [arranged.read Entity.Suited fun _ _ _ => rfl, entity_alloc_of_has _ _ inside]

end Suits

end Graph

open DocGraph.Graph

theorem Walk.Act.suits {w : Walk} {g : Graph} {may : Licence} (act : w.Act may g)
    (tells : ∀ hook ∈ w.hooks, hook.Tells) : Suits w.graph g := by
  have orderly := act.orderly tells
  cases act with
  | describe told => exact .of_labelled told.toLabelled
  | document _ told => exact .of_told told
  | visit among stmt => exact .of_labelled ((tells _ among).visit _ _ _ _)
  | depart among stmt => exact .of_labelled ((tells _ among).depart _ _ _ _)
  | bind name target _ => exact .modify (fun _ => rfl) fun _ suited => suited
  | defer _ =>
      exact .modify (fun e => e.class?_modifyModule _) fun _ suited => suited.modifyModule fun _ => rfl
  | @declare parent e _ _ _ _ _ order _ _ told suited =>
      have arranged := arranged_attach (w.graph.alloc e).1 parent ⟨w.graph.size⟩
      refine .append orderly (fun {id} inside => ?_) (fun headed {id} inside before => ?_) suited
      · rwa [Has, told.size, arranged.size, ← Has, has_alloc] at inside
      · -- What is told is told behind the declaration, where orders are still those of before.
        have attached : Orderly w.graph ((w.graph.alloc e).1.attach parent ⟨w.graph.size⟩) :=
          .append order (arranged.read Entity.class? fun _ _ _ => rfl)
        refine told.suited (attached.headed headed) ?_
        rwa [arranged.read Entity.Suited fun _ _ _ => rfl, entity_alloc_of_has _ _ inside]
  | define id bases decorators _ _ _ _ _ _ =>
      refine .of_entity orderly (size_modify _ _ _) fun _ other suited => ?_
      rw [entity_modify]
      split
      · exact suited.modifyClass _
      · exact suited
  | reexport _ _ moved => exact reexport_related .of_move .of_told (congrArg Prod.fst moved)

namespace Graph

variable {g h k : Graph} {id : EntityId}

theorem Resuming.suits (resuming : Resuming g h) : Suits g h := by
  induction resuming with
  | report same => exact .of_told same
  | move moved => exact .of_move moved
  | realias g id rest =>
      refine .modify (fun e => ?_) fun e suited => ?_
      · obtain ⟨aliases, equal⟩ := rest e
        rw [equal]
        rfl
      · obtain ⟨aliases, equal⟩ := rest e
        rw [equal]
        exact suited
  | clear g id =>
      exact .modify (fun e => e.class?_modifyModule _) fun _ suited => suited.modifyModule fun _ => rfl
  | trans _ _ first second => exact first.trans second

/-- What is suited stays so, whatever becomes of orders. -/
structure StaysSuited (g h : Graph) : Prop where
  size : h.size = g.size
  entity : ∀ {id}, (g.entity id).Suited → (h.entity id).Suited

namespace StaysSuited

theorem refl (g : Graph) : StaysSuited g g := ⟨rfl, fun suited => suited⟩

theorem trans (first : StaysSuited g h) (second : StaysSuited h k) : StaysSuited g k :=
  ⟨second.size.trans first.size, fun suited => second.entity (first.entity suited)⟩

theorem modify {f : Entity → Entity} (kept : (g.entity id).Suited → (f (g.entity id)).Suited) :
    StaysSuited g (g.modify id f) := by
  refine ⟨g.size_modify id f, fun {other} suited => ?_⟩
  rw [entity_modify]
  split
  · rename_i here
    exact here.1 ▸ kept (here.1.symm ▸ suited)
  · exact suited

theorem refreshMro (all : Bool) (g : Graph) (id : EntityId) : StaysSuited g (refreshMro all g id).1 := by
  have reported : StaysSuited g (g.reportMro id) :=
    ⟨g.size_reportMro id, fun suited => g.entity_reportMro id ▸ suited⟩
  unfold Graph.refreshMro
  split
  · rcases updateMro_cases g id with ⟨_, equal⟩ | equal
    · rw [equal]
      exact reported
    · rw [equal]
      exact reported.trans (.modify fun suited => suited.modifyClass _)
  · exact .refl g

theorem tagException (g : Graph) (id : EntityId) : StaysSuited g (g.tagException id).1 := by
  unfold Graph.tagException
  split
  · rename_i plain
    exact .modify fun suited => suited.setException plain.1
  · exact .refl g

end StaysSuited

theorem Stages.suited {resumed upgraded linked ordered : Graph} {s : Summary}
    (stages : Stages g resumed upgraded linked ordered h s) (headed : g.Headed) (suited : g.AllSuited) :
    h.AllSuited := by
  have linking : StaysSuited resumed linked :=
    stages.related_link .refl .trans fun g id f => .modify fun suited => suited.modifyClass f
  have ordering := tally_related .refl .trans (StaysSuited.refreshMro (s.resolvedBases != 0))
    (resumed.idsOfType .class) linked
  have tagging := tally_related .refl .trans StaysSuited.tagException (resumed.idsOfType .class) ordered
  rw [stages.order] at ordering
  rw [stages.tag] at tagging
  have stays := (linking.trans ordering).trans tagging
  have before := (stages.resuming.suits headed suited).2
  intro id inside
  refine stays.entity (before id ?_)
  rwa [Has, ← stays.size]

end Graph

/-- An attribute is declared with a kind that attributes may have. -/
def Call.Kinded : Call → Prop
  | .addAttribute _ _ kind _ => ∃ stored ∈ EntityType.attribute.kinds false, kind = some stored
  | _ => True

namespace Graph

theorem allSuited_apply {g : Graph} {call : Call} (tells : call.Tells) (kinded : call.Kinded) (headed : g.Headed)
    (suited : g.AllSuited) : (call.apply g).AllSuited := by
  have outcome := call.outcome_apply g
  generalize call.apply g = h at outcome ⊢
  have kept (suits : Suits g h) : h.AllSuited := (suits headed suited).2
  cases outcome with
  | refused => exact suited
  | addModule added => exact kept (.of_addModule added)
  | addClass =>
      exact kept (.of_addEntity g _ _ _ (fun _ => rfl)
        (suited_addEntity _ _ _ _ _ .class rfl rfl (by decide) (by decide)))
  | addFunction parent name line =>
      exact kept (.of_addEntity g _ _ _ (by rintro ⟨⟩) (Walk.suited_addFunction g parent name line))
  | addAttribute parent name kind line =>
      obtain ⟨stored, among, rfl⟩ := kinded
      exact kept (.of_addEntity g _ _ _ (by rintro ⟨⟩)
        (suited_addEntity _ _ _ _ _ .attribute rfl rfl among (by decide)))
  | build built =>
      exact kept (build_related .refl .trans .of_noted .of_told (fun same act => act.suits (same ▸ tells)) built)
  | reexport => exact kept (reexport_related .of_move .of_told rfl)
  | move moved => exact kept (.of_move moved)
  | finish finished =>
      obtain ⟨_, _, _, _, stages⟩ := finish_stages finished
      exact stages.suited headed suited

/-- Every entity of every graph that a run comes to has a kind that its type may have. -/
theorem run_suited (options : Options) (calls : List Call) (admits : (empty options).Admits calls)
    (tells : ∀ call ∈ calls, call.Tells) (kinded : ∀ call ∈ calls, call.Kinded) (id : EntityId)
    (inside : (run (empty options) calls).Has id) : ((run (empty options) calls).entity id).Suited := by
  have invariant := run_induction (p := fun g => g.Ordered ∧ g.AllSuited) (sound_empty options)
    (linked_empty options) admits
    (fun among sound linked _ before => ⟨ordered_apply (tells _ among) sound linked before.1,
      allSuited_apply (tells _ among) (kinded _ among) before.1.headed before.2⟩)
    ⟨ordered_empty options, fun id inside => by simp [Has, size, empty] at inside⟩
  exact invariant.2 id inside

/-- A package with a module, in which a method is made a class method by an assignment, an attribute turns
out to be a type alias, and a class is found to be an exception in the end. -/
def variousKinds : List Call :=
  [.addModule "p" true, .addModule "p.m" false, .build Hook.standard ⟨0⟩ (.ok { body := [] }),
    .build Hook.standard ⟨1⟩ (.ok
      { body :=
          [.classDef { name := "E", bases := [.name "ValueError"], line := 1 }
              [.function { name := "make", line := 2 } [],
                .assign [.name "make"] (.call (.name "classmethod") [.name "make"] []) none 3,
                .annAssign (.name "code") (.name "int") none 4],
            .annAssign (.name "Texts") (.attribute (.name "typing") "TypeAlias")
              (some (.subscript (.name "list") (.name "str"))) 5,
            .assign [.name "LIMIT"] (.str "10") none 6] }),
    .addAttribute ⟨0⟩ "version" (some .variable) 0, .finish]

theorem run_variousKinds_suited :
    (empty {}).Admits variousKinds ∧ (∀ call ∈ variousKinds, call.Tells) ∧
      (∀ call ∈ variousKinds, call.Kinded) ∧
      (run (empty {}) variousKinds).ids.map (fun id => ((run (empty {}) variousKinds).entity id).kind) =
        [some .package, some .module, some .exception, some .classMethod, some .classVariable,
          some .typeAlias, some .constant, some .variable] ∧
      ∀ id ∈ (run (empty {}) variousKinds).ids, ((run (empty {}) variousKinds).entity id).Suited := by
  have admits : (empty {}).Admits variousKinds := by
    refine ⟨trivial, trivial, Hook.describes_standard, Hook.describes_standard, ?_, trivial, trivial⟩
    change (run (empty {}) (variousKinds.take 4)).Has ⟨0⟩
    decide +kernel
  have tells : ∀ call ∈ variousKinds, call.Tells := by
    simpa [variousKinds, Call.Tells] using Hook.tells_standard
  have kinded : ∀ call ∈ variousKinds, call.Kinded := by simp [variousKinds, Call.Kinded, EntityType.kinds]
  refine ⟨admits, tells, kinded, by decide +kernel, fun id member => ?_⟩
  exact run_suited {} variousKinds admits tells kinded id ((mem_ids _).mp member)

end Graph

end DocGraph
