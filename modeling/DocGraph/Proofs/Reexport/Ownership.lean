import DocGraph.Proofs.Reexport.Tried
import DocGraph.Proofs.Run.InTable

/-!
Who keeps an exported name. A module that is built and exports a name keeps what it binds the name to,
whatever other modules import from it while they are built or when the graph is finished. There are two
ways round this: a re-export that finds the entity through an alias, for then it is not the module
itself that is asked, and a re-export that the module itself had put off and that brings in another
entity of the name.
-/
namespace DocGraph

/-- The call builds a module or finishes the graph. -/
def Call.Processes : Call → Prop
  | .build _ _ _ | .finish => True
  | _ => False

/-- The state of a module's build and its exports. -/
def Entity.claims (e : Entity) : Option (BuildState × Option (List String)) :=
  e.module?.map fun info => (info.state, info.exports)

namespace Graph

variable {g h k : Graph} {owner id scope origin : EntityId} {name original asName : String}
  {exports : List String} {line : Nat}

theorem moduleState?_eq (g : Graph) (id : EntityId) :
    g.moduleState? id = (g.entity id).claims.map Prod.fst := by
  simp [moduleState?, Entity.claims, Function.comp_def]

theorem exportsOf_eq (g : Graph) (id : EntityId) :
    g.exportsOf id = ((g.entity id).claims.bind Prod.snd).getD [] := by
  simp [exportsOf, Entity.claims, Option.bind_map]

/-- A built module exports the name and binds it to the entity. -/
structure Owns (g : Graph) (owner : EntityId) (name : String) (id : EntityId) : Prop where
  bound : (g.entity owner).contents.get? name = some id
  listed : name ∈ g.exportsOf owner
  built : g.moduleState? owner = some .processed

instance (g : Graph) (owner : EntityId) (name : String) (id : EntityId) : Decidable (g.Owns owner name id) :=
  decidable_of_iff ((g.entity owner).contents.get? name = some id ∧ name ∈ g.exportsOf owner ∧
      g.moduleState? owner = some .processed)
    ⟨fun ⟨bound, listed, built⟩ => ⟨bound, listed, built⟩,
      fun ⟨bound, listed, built⟩ => ⟨bound, listed, built⟩⟩

/-- A change that leaves what the owner says about the name. -/
structure Leaves (owner : EntityId) (name : String) (g h : Graph) : Prop where
  contents : (h.entity owner).contents.get? name = (g.entity owner).contents.get? name
  claims : (h.entity owner).claims = (g.entity owner).claims

theorem Leaves.refl (owner : EntityId) (name : String) (g : Graph) : Leaves owner name g g := ⟨rfl, rfl⟩

theorem Leaves.owns (leaves : Leaves owner name g h) (owns : g.Owns owner name id) :
    h.Owns owner name id := by
  refine ⟨leaves.contents.trans owns.bound, ?_, ?_⟩
  · rw [exportsOf_eq, leaves.claims, ← exportsOf_eq]
    exact owns.listed
  · rw [moduleState?_eq, leaves.claims, ← moduleState?_eq]
    exact owns.built

theorem Leaves.of_entity (same : h.entity owner = g.entity owner) : Leaves owner name g h := by
  constructor <;> rw [same]

theorem Leaves.of_described (described : Described g h) : Leaves owner name g h := by
  constructor
  · rw [(described.entity owner).contents]
  · rw [Entity.claims, (described.entity owner).module?]
    rfl

theorem Leaves.of_modify (g : Graph) (id : EntityId) {f : Entity → Entity}
    (contents : ∀ e, (f e).contents = e.contents) (claims : ∀ e, (f e).claims = e.claims) :
    Leaves owner name g (g.modify id f) :=
  ⟨congrArg (·.get? name) (read_modify _ _ _ Entity.contents contents owner),
    read_modify _ _ _ Entity.claims claims owner⟩

theorem leaves_bind (g : Graph) (id : EntityId) (key target : String) :
    Leaves owner name g (g.modify id (Entity.bindAlias key target)) :=
  .of_modify g id (fun _ => rfl) fun _ => rfl

theorem claims_modifyClass (e : Entity) (f : ClassInfo → ClassInfo) : (e.modifyClass f).claims = e.claims := by
  cases payload : e.payload <;> simp [Entity.modifyClass, payload, Entity.claims, Entity.module?]

theorem leaves_modifyClass (g : Graph) (id : EntityId) (f : ClassInfo → ClassInfo) :
    Leaves owner name g (g.modify id (Entity.modifyClass f)) :=
  .of_modify g id (fun e => (e.overlaid_modifyClass f).contents) fun e => claims_modifyClass e f

theorem leaves_modifyModule (g : Graph) (id : EntityId) {f : ModuleInfo → ModuleInfo}
    (kept : ∀ info, ((f info).state, (f info).exports) = (info.state, info.exports)) :
    Leaves owner name g (g.modify id (Entity.modifyModule f)) :=
  .of_modify g id (fun e => (e.overlaid_modifyModule f).contents) fun e => by
    simp [Entity.claims, Entity.module?_modifyModule, Function.comp_def, kept]

/-- How a re-export can take a name away: the owner itself brings in something under it, or the entity
is found through an alias. -/
inductive Route (attempt : Attempt) (owner : EntityId) (name : String) (id : EntityId) : Prop
  | own (same : attempt.scope = owner) (renews : attempt.asName = name ∨ ¬ Unnumbered name)
  | aliased {found : EntityId} (unbound : (attempt.graph.entity attempt.origin).contents.get? attempt.name = none)
      (resolved : attempt.graph.resolveIn attempt.origin attempt.name = some found)
      (held : attempt.graph.IsParent owner found) (named : (attempt.graph.entity found).name = name)
      (same : Unnumbered name → found = id)

/-- The re-export takes the name away from its owner, by one of these ways. -/
structure Takes (attempt : Attempt) (owner : EntityId) (name : String) (id : EntityId) : Prop where
  owned : attempt.graph.Owns owner name id
  moved : attempt.result.2 = true
  lost : ¬ attempt.result.1.Owns owner name id
  route : Route attempt owner name id

/-- A module that is asked for a name that it exports does not give it away. -/
theorem owns_or_takes {attempt : Attempt} (owns : attempt.graph.Owns owner name id) (sound : attempt.graph.Sound)
    (inTable : attempt.graph.UnnumberedInTable none) (inside : attempt.graph.Has attempt.scope) :
    attempt.result.1.Owns owner name id ∨ Takes attempt owner name id := by
  by_cases kept : attempt.result.1.Owns owner name id
  · exact .inl kept
  right
  obtain ⟨g, scope, exports, origin, original, asName, line⟩ := attempt
  dsimp only [Attempt.result] at owns sound inTable inside kept
  rcases reexport_cases g scope exports origin original asName line with
    ⟨h, found, equal, _, offered, _, unlisted, moved⟩ | ⟨h, equal, described⟩
  · rw [equal] at kept
    refine ⟨owns, by rw [Attempt.result, equal], by rwa [Attempt.result, equal], ?_⟩
    have claims : (h.entity owner).claims = (g.entity owner).claims :=
      read_move moved Entity.claims (fun _ _ _ _ _ _ => rfl) owner
    by_cases apart : owner ≠ scope ∨ (asName ≠ name ∧ Unnumbered name)
    · rcases tables_move sound inside moved apart with ⟨contents, _⟩ | ⟨held, named, _⟩
      · exact absurd (Leaves.owns ⟨contents, claims⟩ owns) kept
      · cases bound : (g.entity origin).contents.get? original with
        | some direct =>
            -- Bound where it was asked for, it is the owner that was asked, and that exports the name.
            rw [offered?, bound, Option.some_or] at offered
            cases offered
            obtain ⟨heldHere, namedHere⟩ := sound.tabled.bound bound
            cases held.symm.trans heldHere
            rw [← namedHere, named] at unlisted
            exact absurd owns.listed unlisted
        | none =>
            rw [offered?, bound, Option.none_or] at offered
            refine .aliased bound offered held named fun unnumbered => ?_
            -- Two children of one name are told apart by a number alone.
            have listed := inTable owner found held (by simp) (named ▸ unnumbered)
            rw [named, owns.bound] at listed
            exact (Option.some.inj listed).symm
    · rw [not_or, not_not, not_and_or, not_not] at apart
      exact .own apart.1.symm apart.2
  · rw [equal] at kept
    exact absurd ((Leaves.of_described described).owns owns) kept

/-- A path on which the owner keeps the name, or loses it to one of the re-exports that are tried. -/
structure Course (tries : Attempt → Prop) (owner : EntityId) (name : String) (id : EntityId) (g h : Graph) : Prop where
  path : Path g h
  fate : g.Owns owner name id → h.Owns owner name id ∨ ∃ attempt, tries attempt ∧ Takes attempt owner name id

variable {tries : Attempt → Prop}

namespace Course

theorem refl (g : Graph) : Course tries owner name id g g := ⟨.refl g, .inl⟩

theorem trans (first : Course tries owner name id g h) (second : Course tries owner name id h k) :
    Course tries owner name id g k := by
  refine ⟨first.path.trans second.path, fun owns => ?_⟩
  rcases first.fate owns with owns | taken
  · exact second.fate owns
  · exact .inr taken

theorem leave (path : Path g h) (leaves : g.Owns owner name id → Leaves owner name g h) :
    Course tries owner name id g h :=
  ⟨path, fun owns => .inl ((leaves owns).owns owns)⟩

theorem describe (described : Described g h) : Course tries owner name id g h :=
  .leave (.retouch described.retouched) fun _ => .of_described described

theorem note {module : EntityId} (noted : Noted module g h) (other : owner ≠ module) :
    Course tries owner name id g h :=
  .leave (.retouch noted.retouched) fun _ => .of_entity (noted.elsewhere other)

theorem bind (g : Graph) (scope : EntityId) (key target : String) :
    Course tries owner name id g (g.modify scope (Entity.bindAlias key target)) :=
  .leave (.touch (.bind _ _ _)) fun _ => leaves_bind _ _ _ _

/-- A fold whose steps keep to the course from every graph that the fold comes to. -/
theorem foldl {σ α : Type} (graph : σ → Graph) (start : σ) {step : σ → α → σ} {items : List α}
    (each : ∀ {state item}, (state, item) ∈ along step items start →
      Course tries owner name id (graph start) (graph state) →
      Course tries owner name id (graph state) (graph (step state item))) :
    Course tries owner name id (graph start) (graph (items.foldl step start)) :=
  foldl_of_along (motive := fun state => Course tries owner name id (graph start) (graph state)) (.refl _)
    fun among before => before.trans (each among before)

theorem tally {α : Type} {step : Graph → α → Graph × Nat} {items : List α}
    (each : ∀ {k item}, (k, item) ∈ along (fun k item => (step k item).1) items g →
      Course tries owner name id g k → Course tries owner name id k (step k item).1) :
    Course tries owner name id g (Graph.tally step items g).1 := by
  rw [fst_tally]
  exact foldl (fun k => k) g each

end Course

section finish

variable (sound : g.Sound) (inTable : g.UnnumberedInTable none)

include sound inTable

theorem course_reexport (attempt : Attempt) (at_ : attempt.graph = g) (inside : g.Has attempt.scope)
    (tried : tries attempt) : Course tries owner name id g attempt.result.1 := by
  subst at_
  refine ⟨path_reexport inside _ _ _ _ _, fun owns => ?_⟩
  exact (owns_or_takes owns sound inTable inside).imp_right fun takes => ⟨attempt, tried, takes⟩

theorem course_importStar (inside : g.Has scope) {exports blocked : List String}
    (each : ∀ attempt ∈ g.starAttempts scope origin exports blocked line, tries attempt) :
    Course tries owner name id g (g.importStar scope origin exports blocked line).1 := by
  refine Course.foldl Prod.fst (g, 0) fun {state key} among before => ?_
  have moved : Course tries owner name id state.1 (state.1.reexport scope exports origin key key line).1 :=
    course_reexport (before.path.sound sound) (before.path.inTable sound inTable)
      { graph := state.1, scope, exports, origin, name := key, asName := key, line } rfl
      (before.path.has sound inside) (each _ (List.mem_map.mpr ⟨(state, key), among, rfl⟩))
  unfold importStarName
  dsimp only
  split
  · rename_i equal
    rwa [equal] at moved
  · rename_i equal
    rw [equal] at moved
    exact moved.trans (.bind _ _ _ _)

theorem course_resumeImport {module : EntityId} (inside : g.Has module) {exports : List String}
    {pending : PendingImport}
    (into : ∀ {origin scope blocked line}, pending = .star origin scope blocked line → g.Has scope)
    (each : ∀ attempt ∈ g.resumedAttempts module exports pending, tries attempt) :
    Course tries owner name id g (resumeImport module exports g pending).1 := by
  unfold resumeImport
  split
  · rename_i origin original asName line
    split
    · exact .refl g
    · rename_i originId found
      have tried := each { graph := g, scope := module, exports, origin := originId, name := original, asName, line }
        (by simp [resumedAttempts, found])
      have moved : Course tries owner name id g (g.reexport module exports originId original asName line).1 :=
        course_reexport sound inTable _ rfl inside tried
      split
      · rename_i equal
        rw [equal] at moved
        refine moved.trans (.leave (path_dropAlias (bears_reexport sound inside equal)) fun _ => ?_)
        unfold dropAlias
        split
        · exact .of_modify _ _ (fun _ => rfl) fun _ => rfl
        · exact .refl _ _ _
      · rename_i equal
        rwa [equal] at moved
  · split
    · exact .refl g
    · rename_i found
      exact course_importStar sound inTable (into rfl) (by simpa [resumedAttempts, found] using each)

theorem course_resumeImports {module : EntityId} (inside : g.Has module)
    (each : ∀ attempt ∈ g.pendingAttempts module, tries attempt) :
    Course tries owner name id g (g.resumeImports module).1 := by
  have cleared : Course tries owner name id g
      (g.modify module (Entity.modifyModule fun info => { info with pending := [] })) :=
    .leave (.touch (.resume module)) fun _ => leaves_modifyModule g module fun _ => rfl
  refine cleared.trans (Course.tally fun {k pending} among before => ?_)
  have path := cleared.path.trans before.path
  refine course_resumeImport (path.sound sound) (path.inTable sound inTable) (path.has sound inside) ?_ ?_
  · rintro origin scope blocked line rfl
    exact path.has sound (sound.pending (mem_of_mem_along among))
  · exact fun attempt tried => each attempt (List.mem_flatMap.mpr ⟨(k, pending), among, tried⟩)

omit sound inTable in
theorem course_upgradeBases (g : Graph) (module : EntityId) :
    Course tries owner name id g (g.upgradeBases module).1 := by
  refine .leave (.touch (.upgrade module)) fun _ => ?_
  rcases upgradeBases_cases g module with same | ⟨_, _, upgraded⟩
  · rw [same]
    exact .refl _ _ _
  · rw [upgraded]
    exact leaves_modifyClass _ _ _

omit sound inTable in
theorem course_linkSubclasses (g : Graph) (module : EntityId) :
    Course tries owner name id g (g.linkSubclasses module).1 := by
  refine Course.tally fun {k base} among before => ?_
  refine .leave (.touch (.link module base (before.path.mem_basesOf (mem_of_mem_along among)))) fun _ => ?_
  rcases linkSubclass_cases k module base with same | ⟨_, _, linked⟩
  · rw [same]
    exact .refl _ _ _
  · rw [linked]
    exact leaves_modifyClass _ _ _

theorem course_finish {s : Summary} (finished : g.finish = .ok (h, s)) :
    Course (· ∈ g.finishAttempts) owner name id g h := by
  obtain ⟨resumed, upgraded, linked, ordered, stages⟩ := finish_stages finished
  have first : Course (· ∈ g.finishAttempts) owner name id g (tally resumeImports (g.idsOfType .module) g).1 := by
    refine Course.tally fun {k module} among before => ?_
    have module := (g.mem_idsOfType.mp (mem_of_mem_along among)).1
    exact course_resumeImports (before.path.sound sound) (before.path.inTable sound inTable)
      (before.path.has sound module) fun attempt tried => List.mem_flatMap.mpr ⟨_, among, tried⟩
  have second : Course (· ∈ g.finishAttempts) owner name id resumed
      (tally upgradeBases (resumed.idsOfType .class) resumed).1 :=
    Course.tally fun {k module} _ _ => course_upgradeBases k module
  have third : Course (· ∈ g.finishAttempts) owner name id upgraded
      (tally linkSubclasses (resumed.idsOfType .class) upgraded).1 :=
    Course.tally fun {k module} _ _ => course_linkSubclasses k module
  rw [stages.resume] at first
  rw [stages.upgrade] at second
  rw [stages.link] at third
  exact ((first.trans second).trans third).trans (.describe stages.described)

end finish

end Graph

namespace Walk

open DocGraph.Graph

variable {w v : Walk} {owner id : EntityId} {name : String} {may : Licence}

theorem Valid.apart (valid : w.Valid) {parent : EntityId} (module : (w.graph.entity owner).type = .module)
    (other : owner ≠ w.module) (place : w.Place parent) : owner ≠ parent := by
  rintro rfl
  rcases place with rfl | method
  · exact other (valid.current_type.2 module)
  · unfold methodClass? at method
    split at method
    · simp [Option.filter_eq_some_iff, module] at method
    · cases method

theorem Act.course {g : Graph} (act : w.Act may g) (valid : w.Valid) (inTable : w.graph.UnnumberedInTable none)
    (other : owner ≠ w.module) : Course may.tries owner name id w.graph g := by
  have path := act.path valid
  cases act with
  | describe told => exact .describe told.described
  | document _ told => exact .describe told.described
  | visit among stmt => exact .describe ((valid.hooks _ among).visit _ _ _ _)
  | depart among stmt => exact .describe ((valid.hooks _ among).depart _ _ _ _)
  | bind key target _ => exact .bind _ _ _ _
  | defer _ => exact .leave path fun _ => leaves_modifyModule _ _ fun _ => rfl
  | @declare parent e _ blank above type _ _ place _ told _ =>
      refine .leave path fun owns => ?_
      have module := type_of_moduleState owns.built
      have inside : w.graph.Has owner := w.graph.has_of_type (by rw [module]; decide)
      have unlisted := unlisted_alloc valid.sound.tabled blank.contents
      have before : (w.graph.alloc e).1.entity owner = w.graph.entity owner :=
        entity_alloc_of_has _ _ inside
      constructor
      · rw [(told.entity owner).contents,
          contents_attach ((w.graph.has_alloc e parent).mpr (.inl (valid.has_place place))) unlisted
          (valid.apart module other place), before]
      · have behind : Leaves owner name _ _ := .of_described told.described
        rw [behind.claims, (arranged_attach _ _ _).read Entity.claims fun _ _ _ => rfl, before]
  | define cls bases decorators _ _ _ _ _ _ => exact .leave path fun _ => leaves_modifyClass _ _ _
  | @reexport _ origin original asName line _ tried moved =>
      have course : Course may.tries owner name id w.graph
          (w.graph.reexport w.current w.exports origin original asName line).1 :=
        course_reexport valid.sound inTable _ rfl valid.has_current tried
      rwa [moved] at course

theorem Walks.course (walks : Walks may w v) (valid : w.Valid) (inTable : w.graph.UnnumberedInTable none)
    (other : owner ≠ w.module) : Course may.tries owner name id w.graph v.graph := by
  induction walks with
  | refl => exact .refl _
  | act act => exact act.course valid inTable other
  | trans first _ ihFirst ihSecond =>
      have path := first.path valid
      exact (ihFirst valid inTable other).trans (ihSecond (first.framed.valid path valid)
        (path.inTable valid.sound inTable) (first.framed.module ▸ other))
  | scope recorded opens _ ihRecorded ihInner =>
      have path := recorded.path valid
      exact (ihRecorded valid inTable other).trans
        (ihInner (valid.enter opens (recorded.framed.valid path valid))
          (path.inTable valid.sound inTable) other)
  | arm _ ih => exact ih ⟨valid.sound, valid.module, valid.scopes, valid.hooks⟩ inTable other
  | block _ ih => exact ih ⟨valid.sound, valid.module, valid.scopes, valid.hooks⟩ inTable other

theorem course_walkModule (valid : w.Valid) (inTable : w.graph.UnnumberedInTable none) (other : owner ≠ w.module)
    (body : List Stmt) :
    Course (· ∈ tried w (Script.ofModule body w)) owner name id w.graph (walkModule body w).graph := by
  have first := (told_documented w body).described
  have last := (told_leave (walkBody body (w.atBody body)) w.module).described
  have filedThere := Path.inTable (.retouch first.retouched) valid.sound inTable
  have walks := (Script.performs_ofBody body).walks (w.atBody body)
  have course : Course (· ∈ tried w (Script.ofModule body w)) owner name id (w.atBody body).graph
      (walkBody body (w.atBody body)).graph := by
    rw [tried, reached_ofModule]
    exact walks.course (valid.atBody body) filedThere other
  rw [walkModule_eq]
  exact ((Course.describe first).trans course).trans (.describe last)

end Walk

namespace Graph

variable {g h : Graph} {owner id module : EntityId} {name : String}

section calls

variable (sound : g.Sound) (inTable : g.UnnumberedInTable none)

include sound inTable

/-- Building a module keeps to the course, for a module that owns a name has been built. -/
theorem course_build {hooks : List Hook} (describes : ∀ hook ∈ hooks, hook.Describes)
    {source : Except SourceError Module} {state : BuildState}
    (built : g.build hooks module source = .ok (h, state)) :
    Course (· ∈ g.buildAttempts hooks module source) owner name id g h := by
  refine ⟨path_build describes sound built, fun owns => ?_⟩
  obtain ⟨unbuilt, parts⟩ := build_cases built
  have other : owner ≠ module := by
    rintro rfl
    cases owns.built.symm.trans unbuilt
  rcases parts with noted | ⟨tree, rfl, last⟩
  · exact .inl ((Leaves.of_entity (noted.elsewhere other)).owns owns)
  · have first := noted_metadata g module tree.body
    have walked : Course (· ∈ g.buildAttempts hooks module (.ok tree)) owner name id
        (Walk.opening g hooks module tree).graph (g.populate hooks module tree) := by
      rw [buildAttempts_of_unbuilt unbuilt]
      exact Walk.course_walkModule (valid_opening describes sound unbuilt tree)
        (Path.inTable (.retouch first.retouched) sound inTable) other tree.body
    exact (((Course.note first other).trans walked).trans (.note last other)).fate owns

theorem course_apply {call : Call} (fits : call.Fits g) (processes : call.Processes) :
    Course (· ∈ call.attempts g) owner name id g (call.apply g) := by
  cases call with
  | build hooks module source =>
      rw [Call.apply]
      cases result : g.build hooks module source with
      | error refusal => exact .refl g
      | ok built => exact course_build sound inTable fits result
  | finish =>
      rw [Call.apply]
      cases result : g.finish with
      | error refusal => exact .refl g
      | ok finished =>
          obtain ⟨_, _, _, _, stages⟩ := finish_stages result
          rw [Call.attempts, if_pos stages.built]
          exact course_finish sound inTable result
  | _ => cases processes

/-- The first call that takes a name from its owner. -/
theorem course_run {later : List Call} (admits : g.Admits later)
    (processes : ∀ call ∈ later, call.Processes) (owns : g.Owns owner name id) :
    (g.run later).Owns owner name id ∨
      ∃ before call behind, later = before ++ call :: behind ∧ (g.run before).Owns owner name id ∧
        ∃ attempt ∈ call.attempts (g.run before), Takes attempt owner name id := by
  induction later generalizing g with
  | nil => exact .inl owns
  | cons call rest ih =>
      have course : Course (· ∈ call.attempts g) owner name id g (call.apply g) :=
        course_apply sound inTable admits.1 (processes call List.mem_cons_self)
      rcases course.fate owns with still | taken
      · refine (ih (course.path.sound sound) (course.path.inTable sound inTable) admits.2
          (fun call member => processes call (List.mem_cons_of_mem _ member)) still).imp_right ?_
        rintro ⟨before, last, behind, rfl, owned, taken⟩
        exact ⟨call :: before, last, behind, rfl, owned, taken⟩
      · exact .inr ⟨[], call, rest, rfl, owns, taken⟩

end calls

/-- What a built module exports and binds stays there, whatever modules are built behind it and however
often the graph is finished, up to a call in which one of the re-exports that it tries takes it away by an alias
or for the module itself. No re-export that a call tries for another scope takes it out of a table that binds the
name asked for. -/
theorem run_exportsKept {options : Options} {calls later : List Call}
    (admits : (empty options).Admits calls) (owns : (run (empty options) calls).Owns owner name id)
    (admitsLater : (run (empty options) calls).Admits later)
    (processes : ∀ call ∈ later, call.Processes) :
    ((run (run (empty options) calls) later).Owns owner name id ∨
      ∃ before call behind, later = before ++ call :: behind ∧
        (run (run (empty options) calls) before).Owns owner name id ∧
        ∃ attempt ∈ call.attempts (run (run (empty options) calls) before), Takes attempt owner name id) ∧
    ∀ before call behind, later = before ++ call :: behind →
      ∀ attempt ∈ call.attempts (run (run (empty options) calls) before),
        attempt.graph.Owns owner name id → attempt.scope ≠ owner →
        (attempt.graph.entity attempt.origin).contents.get? attempt.name ≠ none →
        attempt.result.1.Owns owner name id := by
  have path := path_run (sound_empty options) admits
  have sound := path.sound (sound_empty options)
  have inTable := path.inTable (sound_empty options) (unnumberedInTable_empty options)
  refine ⟨course_run sound inTable admitsLater processes owns, ?_⟩
  rintro before call behind rfl attempt tried owns other bound
  obtain ⟨admitsBefore, fits⟩ := admits_append.mp admitsLater
  have pathBefore := path_run sound admitsBefore
  have behind := behind_of_call (pathBefore.sound sound) fits.1 tried
  have further := pathBefore.trans behind.path
  refine (owns_or_takes owns (further.sound sound) (further.inTable sound inTable) behind.inside).resolve_right ?_
  rintro ⟨_, _, _, route⟩
  cases route with
  | own same _ => exact other same
  | aliased unbound _ _ _ _ => exact bound unbound

/-- Three modules, of which the first exports its class. -/
def exportedClass : List Call :=
  [.addModule "m" false, .addModule "o" false, .addModule "n" false,
    .build Hook.standard ⟨0⟩ (.ok
      { body :=
          [.assign [.name "__all__"] (.list [.str "e"]) none 1, .classDef { name := "e", line := 2 } []] })]

/-- A module that exports the name imports all that the first one has. -/
def starImport : Call :=
  .build Hook.standard ⟨2⟩ (.ok
    { body :=
        [.assign [.name "__all__"] (.list [.str "e"]) none 1, .importFrom (some "m") [⟨"*", none⟩] 0 2] })

theorem run_exportsKept_starImport :
    (run (empty {}) exportedClass).Owns ⟨0⟩ "e" ⟨3⟩ ∧
      (∃ attempt ∈ starImport.attempts (run (empty {}) exportedClass),
        attempt.scope = ⟨2⟩ ∧ attempt.name = "e" ∧ attempt.result.1.Owns ⟨0⟩ "e" ⟨3⟩) ∧
      ((run (run (empty {}) exportedClass) [starImport, .finish]).Owns ⟨0⟩ "e" ⟨3⟩ ∨
        ∃ before call behind, [starImport, .finish] = before ++ call :: behind ∧
          (run (run (empty {}) exportedClass) before).Owns ⟨0⟩ "e" ⟨3⟩ ∧
          ∃ attempt ∈ call.attempts (run (run (empty {}) exportedClass) before), Takes attempt ⟨0⟩ "e" ⟨3⟩) := by
  have admits : (empty {}).Admits exportedClass :=
    ⟨trivial, trivial, trivial, Hook.describes_standard, trivial⟩
  have owns : (run (empty {}) exportedClass).Owns ⟨0⟩ "e" ⟨3⟩ := by decide +kernel
  have admitsLater : (run (empty {}) exportedClass).Admits [starImport, .finish] :=
    ⟨Hook.describes_standard, trivial, trivial⟩
  have processes : ∀ call ∈ [starImport, .finish], call.Processes := by simp [starImport, Call.Processes]
  obtain ⟨kept, direct⟩ := run_exportsKept admits owns admitsLater processes
  have tried : ∃ attempt ∈ starImport.attempts (run (empty {}) exportedClass),
      attempt.graph.Owns ⟨0⟩ "e" ⟨3⟩ ∧ attempt.scope = ⟨2⟩ ∧ attempt.name = "e" ∧
        (attempt.graph.entity attempt.origin).contents.get? attempt.name ≠ none := by
    decide +kernel
  obtain ⟨attempt, tried, owned, scope, asked, bound⟩ := tried
  refine ⟨owns, ⟨attempt, tried, scope, asked, ?_⟩, kept⟩
  exact direct [] _ _ rfl attempt tried owned (by rw [scope]; decide) bound

/-- The second module imports the class under another name, and the third one exports that name. -/
def renamedImport : List Call :=
  [.build Hook.standard ⟨1⟩ (.ok { body := [.importFrom (some "m") [⟨"e", some "k"⟩] 0 1] }),
    .build Hook.standard ⟨2⟩ (.ok
      { body :=
          [.assign [.name "__all__"] (.list [.str "k"]) none 1, .importFrom (some "o") [⟨"k", none⟩] 0 2] }),
    .finish]

/-- An exported class is taken from its module by way of an alias in a third module. -/
theorem run_exportTaken :
    (run (empty {}) exportedClass).Owns ⟨0⟩ "e" ⟨3⟩ ∧
      ¬ (run (run (empty {}) exportedClass) renamedImport).Owns ⟨0⟩ "e" ⟨3⟩ ∧
      (run (run (empty {}) exportedClass) renamedImport).fullName ⟨3⟩ = "n.k" := by
  decide +kernel

end Graph

end DocGraph
