import DocGraph.Proofs.Run.Walking
import DocGraph.Proofs.Run.Inheritance

namespace DocGraph

namespace Graph

variable {g h : Graph} {id : EntityId}

theorem type_of_isPackage (package : g.isPackage id = true) : (g.entity id).type = .module := by
  unfold isPackage at package
  cases payload : (g.entity id).payload <;>
    simp [Entity.module?, Entity.type, Payload.type, payload] at package ⊢

/-- Where a module is put: at the root if its name has no dot, or else in the package that the part in
front of the last dot names. -/
theorem addModule_cases {name : String} {isPackage : Bool}
    (added : g.addModule name isPackage = .ok (h, id)) :
    id = ⟨g.size⟩ ∧ ((g.lookup name).map g.isModule).getD false = false ∧
      (h = ({ (g.alloc (newModule name none isPackage ⟨g.size⟩)).1 with
          roots := g.roots ++ [⟨g.size⟩] } : Graph).register ⟨g.size⟩ ∨
        ∃ parentName own parent, Dotted.qualifier? name = some (parentName, own) ∧ g.lookup parentName = some parent ∧
          (g.entity parent).type = .module ∧
          h = (g.alloc (newModule own (some parent) isPackage ⟨g.size⟩)).1.attach parent ⟨g.size⟩) := by
  unfold addModule at added
  split at added
  · cases added
  · rename_i free
    unfold modulePlace at added
    split at added
    · cases added
    · rename_i parent own place
      split at place
      · cases place
        cases added
        exact ⟨rfl, Bool.not_eq_true _ ▸ free, .inl rfl⟩
      · rename_i parentName last parted
        split at place
        · cases place
        · rename_i upper found
          split at place
          · rename_i package
            cases place
            cases added
            exact ⟨rfl, Bool.not_eq_true _ ▸ free,
              .inr ⟨parentName, own, upper, parted, found, type_of_isPackage package, rfl⟩⟩
          · cases place

/-- The new module is appended, and nothing else is written into entities but names and tables. -/
theorem read_addModule {name : String} {isPackage : Bool} (added : g.addModule name isPackage = .ok (h, id)) :
    h.size = g.size + 1 ∧ ∃ own parent, ∀ {α : Type} (read : Entity → α),
      (∀ e name contents, read { e with name, contents } = read e) → ∀ other, read (h.entity other) =
        read ((g.alloc (newModule own parent isPackage ⟨g.size⟩)).1.entity other) := by
  obtain ⟨_, _, rfl | ⟨_, own, parent, _, _, _, rfl⟩⟩ := addModule_cases added
  · refine ⟨?_, name, none, fun read _ other => ?_⟩
    · rw [register_eq]
      exact g.size_alloc _
    · rw [register_eq]
      rfl
  · have arranged := arranged_attach (g.alloc (newModule own (some parent) isPackage ⟨g.size⟩)).1 parent ⟨g.size⟩
    exact ⟨arranged.size.trans (g.size_alloc _), own, some parent, fun read blind => arranged.read read blind⟩

theorem blank_newModule (own : String) (parent : Option EntityId) (isPackage : Bool) (id : EntityId) :
    (newModule own parent isPackage id).Blank := ⟨rfl, rfl, rfl, rfl, rfl, rfl⟩

theorem path_addModule {name : String} {isPackage : Bool} (added : g.addModule name isPackage = .ok (h, id)) :
    Path g h := by
  obtain ⟨_, free, rfl | ⟨_, own, parent, _, _, type, rfl⟩⟩ := addModule_cases added
  · exact .one (.root (blank_newModule name none isPackage _) rfl rfl free)
  · have inside : g.Has parent := g.has_of_type (by rw [type]; decide)
    exact .one (.declare (blank_newModule own (some parent) isPackage _) rfl inside fun _ => type)

theorem noted_metadata (g : Graph) (id : EntityId) (body : List Stmt) :
    Noted id g ((g.setState id .processing).readMetadata id body) :=
  (noted_setState g id _).trans (noted_readMetadata _ _ _)

/-- The walk of a module starts behind what its top level says about it. -/
theorem populate_parts {hooks : List Hook} (describes : ∀ hook ∈ hooks, hook.Describes) (sound : g.Sound)
    (type : (g.entity id).type = .module) (tree : Module) :
    ∃ w : Walk, w.module = id ∧ Noted id g w.graph ∧ w.Valid ∧
      g.populate hooks id tree = (Walk.walkModule tree.body w).graph := by
  have noted := noted_metadata g id tree.body
  refine ⟨{ graph := (g.setState id .processing).readMetadata id tree.body, module := id, hooks }, rfl,
    noted, ?_, rfl⟩
  exact ⟨Path.sound (.retouch noted.retouched) sound, (noted.retouched.entity id).type.trans type,
    by simp, describes⟩

theorem type_of_moduleState {state : BuildState} (found : g.moduleState? id = some state) :
    (g.entity id).type = .module := by
  cases payload : (g.entity id).payload <;>
    simp [moduleState?, Entity.module?, Entity.type, Payload.type, payload] at found ⊢

/-- Only a module that has not been built is built; what then becomes of it is noted in its entry. -/
theorem build_cases {hooks : List Hook} {source : Except SourceError Module} {state : BuildState}
    (built : g.build hooks id source = .ok (h, state)) :
    g.moduleState? id = some .notProcessed ∧
      (Noted id g h ∨ ∃ tree, source = .ok tree ∧ Noted id (g.populate hooks id tree) h) := by
  unfold build at built
  split at built
  · cases built
  · rename_i unbuilt
    refine ⟨unbuilt, ?_⟩
    split at built
    · cases built
      exact .inl ((noted_report g id _ _ _ (by decide)).trans (noted_setState _ _ _))
    · rename_i tree
      cases built
      exact .inr ⟨tree, rfl, (noted_setState _ _ _).trans (noted_modifyModule _ id (fun _ => rfl) fun _ => rfl)⟩
  · cases built

theorem path_build {hooks : List Hook} (describes : ∀ hook ∈ hooks, hook.Describes) (sound : g.Sound)
    {source : Except SourceError Module} {state : BuildState}
    (built : g.build hooks id source = .ok (h, state)) : Path g h := by
  obtain ⟨unbuilt, noted | ⟨tree, _, last⟩⟩ := build_cases built
  · exact .retouch noted.retouched
  · obtain ⟨w, rfl, first, valid, populated⟩ :=
      populate_parts describes sound (type_of_moduleState unbuilt) tree
    rw [populated] at last
    exact (Path.retouch first.retouched).trans
      ((Walk.path_walkModule valid tree.body).trans (.retouch last.retouched))

/-- What notes, annotations and acts do, a build does. -/
theorem build_related {r : Graph → Graph → Prop} (refl : ∀ g, r g g)
    (trans : ∀ {g h k}, r g h → r h k → r g k) (noted : ∀ {g h}, Noted id g h → r g h)
    (told : ∀ {about g h}, Told about g h → r g h) {hooks : List Hook}
    (act : ∀ {w : Walk} {g : Graph}, w.hooks = hooks → w.Act (.any True) g → r w.graph g)
    {source : Except SourceError Module} {state : BuildState}
    (built : g.build hooks id source = .ok (h, state)) : r g h := by
  obtain ⟨_, only | ⟨tree, _, last⟩⟩ := build_cases built
  · exact noted only
  · let w : Walk := { graph := (g.setState id .processing).readMetadata id tree.body, module := id, hooks }
    obtain ⟨v, framed, opened, closed⟩ := Walk.walkModule_parts w tree.body
    have walked : r v.graph (Walk.walkBody tree.body v).graph :=
      (Walk.made_walkBody tree.body (fun _ => trivial) v).related refl trans act framed.hooks
    exact trans (trans (trans (noted (noted_metadata g id tree.body)) (told opened)) walked)
      (trans (told closed) (noted last))

section tally

variable {α : Type} (step : Graph → α → Graph × Nat)

@[simp] theorem tally_nil (g : Graph) : tally step [] g = (g, 0) := rfl

theorem tally_cons (item : α) (rest : List α) (g : Graph) :
    tally step (item :: rest) g =
      ((tally step rest (step g item).1).1, (step g item).2 + (tally step rest (step g item).1).2) := by
  have unfolded (items : List α) (g : Graph) : tally step items g =
      items.foldl (fun state item => ((step state.1 item).1, state.2 + (step state.1 item).2)) (g, 0) := rfl
  -- What was counted before is added to what the rest counts.
  have shift (items : List α) (g : Graph) (before : Nat) :
      items.foldl (fun state item => ((step state.1 item).1, state.2 + (step state.1 item).2))
        (g, before) = ((tally step items g).1, before + (tally step items g).2) := by
    induction items generalizing g before with
    | nil => rfl
    | cons item rest ih =>
        rw [unfolded, List.foldl_cons, List.foldl_cons, ih, ih]
        simp [Nat.add_assoc]
  rw [unfolded, List.foldl_cons, shift]
  simp

theorem fst_tally (items : List α) (g : Graph) :
    (tally step items g).1 = items.foldl (fun g item => (step g item).1) g := by
  induction items generalizing g with
  | nil => rfl
  | cons item rest ih =>
      rw [tally_cons, List.foldl_cons]
      exact ih _

theorem Path.tally {items : List α}
    (each : ∀ k, Path g k → ∀ item ∈ items, Path k (step k item).1) :
    Path g (Graph.tally step items g).1 :=
  Path.foldl_fst fun k _ before item member => each k before item member

section relation

variable {step} {r : Graph → Graph → Prop} (refl : ∀ g, r g g)
  (trans : ∀ {g h k}, r g h → r h k → r g k) (each : ∀ g item, r g (step g item).1)

include refl trans each

/-- What relates a graph to the one behind each step relates it to the one behind all of them. -/
theorem tally_related (items : List α) (g : Graph) : r g (tally step items g).1 := by
  induction items generalizing g with
  | nil => exact refl g
  | cons item rest ih =>
      rw [tally_cons]
      exact trans (each g item) (ih _)

/-- What the step for an item brings about, and later steps keep, holds behind all steps. -/
theorem tally_establishes {p : α → Graph → Prop}
    (stable : ∀ {item g h}, r g h → p item g → p item h) {items : List α} {g : Graph}
    (establishes : ∀ k, r g k → ∀ item ∈ items, p item (step k item).1) :
    ∀ item ∈ items, p item (tally step items g).1 := by
  induction items generalizing g with
  | nil => simp
  | cons first rest ih =>
      rw [tally_cons]
      have related := tally_related refl trans each rest (step g first).1
      intro item member
      rcases List.mem_cons.mp member with rfl | later
      · exact stable related (establishes g (refl g) _ List.mem_cons_self)
      · refine ih (fun k between item member => ?_) item later
        exact establishes k (trans (each g first) between) item (List.mem_cons_of_mem _ member)

end relation

end tally

theorem bears_reexport {scope origin : EntityId} {exports : List String} {name asName : String}
    {line : Nat} (sound : g.Sound) (inside : g.Has scope)
    (moved : g.reexport scope exports origin name asName line = (h, true)) : h.Bears scope asName := by
  rcases reexport_cases g scope exports origin name asName line with
    ⟨k, found, equal, _, _, _, _, result⟩ | ⟨k, equal, _⟩
  · cases equal.symm.trans moved
    exact bears_move sound inside result
  · cases equal.symm.trans moved

theorem path_dropAlias {name target : String} (borne : g.Bears id name) :
    Path g (g.dropAlias id name target) := by
  unfold dropAlias
  split
  · exact .touch (.unbind id name borne)
  · exact .refl g

theorem path_resumeImport (sound : g.Sound) {module : EntityId} (inside : g.Has module)
    (exports : List String) {pending : PendingImport}
    (into : ∀ {origin scope blocked line}, pending = .star origin scope blocked line → g.Has scope) :
    Path g (resumeImport module exports g pending).1 := by
  unfold resumeImport
  split
  · rename_i origin name asName line
    split
    · exact .refl g
    · rename_i originId _
      have path := path_reexport inside exports originId name asName line
      split
      · rename_i moved
        rw [moved] at path
        exact path.trans (path_dropAlias (bears_reexport sound inside moved))
      · rename_i kept
        rw [kept] at path
        exact path
  · split
    · exact .refl g
    · exact path_importStar sound (into rfl) _ _ _ _

theorem path_resumeImports (sound : g.Sound) (inside : g.Has id) : Path g (g.resumeImports id).1 := by
  have cleared : Path g (g.modify id (Entity.modifyModule fun info => { info with pending := [] })) :=
    .touch (.resume id)
  refine cleared.trans (Path.tally _ fun k before pending member => ?_)
  have path := cleared.trans before
  refine path_resumeImport (path.sound sound) (path.has sound inside) _ ?_
  rintro origin scope blocked line rfl
  exact path.has sound (sound.pending member)

theorem path_linkSubclasses (g : Graph) (id : EntityId) : Path g (g.linkSubclasses id).1 :=
  Path.tally _ fun _ before base among => .touch (.link id base (before.mem_basesOf among))

/-- The steps of finishing a graph, and what each of them counts. -/
structure Stages (g resumed upgraded linked ordered h : Graph) (s : Summary) : Prop where
  built : g.pendingModules = []
  resume : tally resumeImports (g.idsOfType .module) g = (resumed, s.reexports)
  upgrade : tally upgradeBases (resumed.idsOfType .class) resumed = (upgraded, s.resolvedBases)
  link : tally linkSubclasses (resumed.idsOfType .class) upgraded = (linked, s.subclassLinks)
  order : tally (refreshMro (s.resolvedBases != 0)) (resumed.idsOfType .class) linked =
    (ordered, s.mrosComputed)
  tag : tally tagException (resumed.idsOfType .class) ordered = (h, s.exceptions)

theorem eq_ok_of_toOption {ε α : Type} {x : Except ε α} {a : α} (answered : x.toOption = some a) :
    x = .ok a := by
  cases x <;> cases answered
  rfl

theorem finish_stages {s : Summary} (finished : g.finish = .ok (h, s)) :
    ∃ resumed upgraded linked ordered, Stages g resumed upgraded linked ordered h s := by
  unfold finish at finished
  split at finished
  · rename_i built
    cases resume : tally resumeImports (g.idsOfType .module) g with
    | mk resumed reexports =>
    cases upgrade : tally upgradeBases (resumed.idsOfType .class) resumed with
    | mk upgraded resolvedBases =>
    cases link : tally linkSubclasses (resumed.idsOfType .class) upgraded with
    | mk linked subclassLinks =>
    cases order : tally (refreshMro (resolvedBases != 0)) (resumed.idsOfType .class) linked with
    | mk ordered mrosComputed =>
    cases tag : tally tagException (resumed.idsOfType .class) ordered with
    | mk tagged exceptions =>
    simp only [resume, upgrade, link, order, tag, Except.ok.injEq, Prod.mk.injEq] at finished
    obtain ⟨rfl, rfl⟩ := finished
    exact ⟨resumed, upgraded, linked, ordered, built, resume, upgrade, link, order, tag⟩
  · cases finished

namespace Stages

variable {resumed upgraded linked ordered : Graph} {s : Summary}
  (stages : Stages g resumed upgraded linked ordered h s)

include stages

theorem path_resume (sound : g.Sound) : Path g resumed := by
  have path : Path g (Graph.tally resumeImports (g.idsOfType .module) g).1 :=
    Path.tally _ fun k before id member =>
      path_resumeImports (before.sound sound) (before.has sound (g.mem_idsOfType.mp member).1)
  rwa [stages.resume] at path

theorem path_upgrade : Path resumed upgraded := by
  have path : Path resumed (Graph.tally upgradeBases (resumed.idsOfType .class) resumed).1 :=
    Path.tally _ fun k _ id _ => .touch (.upgrade id)
  rwa [stages.upgrade] at path

theorem related_link {r : Graph → Graph → Prop} (refl : ∀ g, r g g) (trans : ∀ {g h k}, r g h → r h k → r g k)
    (modify : ∀ g id f, r g (g.modify id (Entity.modifyClass f))) : r resumed linked := by
  have upgrading : r resumed (Graph.tally upgradeBases (resumed.idsOfType .class) resumed).1 := by
    refine tally_related refl trans (fun k id => ?_) _ _
    rcases upgradeBases_cases k id with equal | ⟨_, _, equal⟩
    · rw [equal]
      exact refl k
    · rw [equal]
      exact modify k id _
  have listing (k : Graph) (id : EntityId) : r k (k.linkSubclasses id).1 := by
    refine tally_related refl trans (fun k base => ?_) _ _
    rcases linkSubclass_cases k id base with equal | ⟨_, _, equal⟩
    · rw [equal]
      exact refl k
    · rw [equal]
      exact modify k base _
  have linking := tally_related refl trans listing (resumed.idsOfType .class) upgraded
  rw [stages.upgrade] at upgrading
  rw [stages.link] at linking
  exact trans upgrading linking

theorem path_link : Path upgraded linked := by
  have path : Path upgraded (Graph.tally linkSubclasses (resumed.idsOfType .class) upgraded).1 :=
    Path.tally _ fun k _ id _ => path_linkSubclasses k id
  rwa [stages.link] at path

theorem described : Described linked h := by
  have reordered := tally_related .refl .trans (described_refreshMro · · (s.resolvedBases != 0))
    (resumed.idsOfType .class) linked
  rw [stages.order] at reordered
  have tagged := tally_related .refl .trans described_tagException (resumed.idsOfType .class) ordered
  rw [stages.tag] at tagged
  exact reordered.trans tagged

theorem path (sound : g.Sound) : Path g h := by
  have before := (stages.path_resume sound).trans stages.path_upgrade
  exact (before.trans stages.path_link).trans (.retouch stages.described.retouched)

end Stages

end Graph

end DocGraph
