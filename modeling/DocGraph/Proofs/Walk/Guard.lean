import DocGraph.Proofs.Run.InTable
import DocGraph.Proofs.Run.Trace
import DocGraph.Proofs.Walk.Arrivals

namespace DocGraph

namespace Graph

variable {g h k : Graph} {id parent scope module : EntityId} {name : String}

theorem scopeContainer_of_container (rooted : g.Rooted) (inside : g.Has id)
    (container : (g.entity id).isContainer = true) : g.scopeContainer id = id := by
  unfold scopeContainer
  cases above : (g.entity id).parent with
  | none => simp [ancestors_of_root rooted inside above, container]
  | some parent => simp [ancestors_of_child rooted above, container]

theorem scopeContainer_of_child (rooted : g.Rooted) (held : g.IsParent parent id)
    (plain : (g.entity id).isContainer = false) : g.scopeContainer id = g.scopeContainer parent := by
  unfold scopeContainer
  have chain : g.ancestors parent ≠ [] := by
    have pos := depth_pos rooted (rooted.parentHas held)
    exact List.ne_nil_of_length_pos pos
  rw [ancestors_of_child rooted held]
  simp only [List.find?_cons, plain, List.getLast?_cons]
  cases found : (g.ancestors parent).getLast? with
  | none => exact absurd (List.getLast?_eq_none_iff.mp found) chain
  | some last => simp

/-- Every chain of parents ends in a module, so there is a module or class around every entity. -/
theorem isContainer_scopeContainer (sound : g.Sound) (inside : g.Has id) :
    (g.entity (g.scopeContainer id)).isContainer = true := by
  induction id using sound.rooted.wellFounded.induction with
  | _ id ih =>
      by_cases container : (g.entity id).isContainer = true
      · rw [scopeContainer_of_container sound.rooted inside container]
        exact container
      · rw [Bool.not_eq_true] at container
        cases above : (g.entity id).parent with
        | none => simp [Entity.isContainer, sound.rootType inside above] at container
        | some parent =>
            rw [scopeContainer_of_child sound.rooted above container]
            exact ih parent above (sound.rooted.parentHas above)

theorem mem_localNames (tabled : g.Tabled) (unnumbered : Unnumbered name) :
    name ∈ g.localNames id ↔
      ((g.entity id).contents.get? name).isSome ∨ ((g.entity id).aliases[name]?).isSome := by
  have listed := (tabled.listed id).mem_order name
  have keys : name ∈ (g.entity id).aliases.keys ↔ ((g.entity id).aliases[name]?).isSome := by
    rw [Std.ExtTreeMap.mem_keys, Std.ExtTreeMap.mem_iff_isSome_getElem?]
  have plain : name.toList.contains ' ' = false := by simpa [Unnumbered] using unnumbered
  simp only [localNames, Contents.names, List.mem_append, List.mem_filter, listed, keys, plain,
    Contents.contains, Bool.not_false, and_true]
  cases (g.entity id).contents.get? name <;> simp

/-- What becomes of a name of a scope: it stays bound to what it was bound to, or that is moved into
the module by one of the re-exports that are tried, and the name is an alias of the new place. -/
inductive Spared (tries : Attempt → Prop) (g : Graph) (module scope : EntityId) (name : String) (h : Graph) : Prop
  | kept (contents : (h.entity scope).contents.get? name = (g.entity scope).contents.get? name)
      (aliases : (h.entity scope).aliases[name]? = (g.entity scope).aliases[name]?)
  | moved {id : EntityId} {attempt : Attempt} {behind : Graph}
      (bound : (g.entity scope).contents.get? name = some id) (tried : tries attempt) (first : Path g attempt.graph)
      (into : attempt.scope = module) (exported : attempt.exports = attempt.graph.exportsOf module)
      (offered : attempt.graph.offered? attempt.origin attempt.name = some id)
      (taken : attempt.result = (behind, true)) (last : Path behind h)
      (contents : (h.entity scope).contents.get? name = none)
      (aliases : (h.entity scope).aliases[name]? = some (behind.fullName id))

namespace Spared

variable {tries : Attempt → Prop}

theorem refl (g : Graph) (module scope : EntityId) (name : String) : Spared tries g module scope name g :=
  .kept rfl rfl

/-- Changes that do not touch the name leave it spared. -/
theorem next (spared : Spared tries g module scope name h) (path : Path h k)
    (contents : (k.entity scope).contents.get? name = (h.entity scope).contents.get? name)
    (aliases : (k.entity scope).aliases[name]? = (h.entity scope).aliases[name]?) :
    Spared tries g module scope name k := by
  cases spared with
  | kept same alike => exact .kept (contents.trans same) (aliases.trans alike)
  | moved bound tried first into exported offered taken last gone left =>
      exact .moved bound tried first into exported offered taken (last.trans path) (contents.trans gone)
        (aliases.trans left)

theorem modify (spared : Spared tries g module scope name h) (id : EntityId) {f : Entity → Entity}
    (path : Path h (h.modify id f)) (contents : ∀ e, (f e).contents = e.contents)
    (aliases : ∀ e, (f e).aliases = e.aliases) : Spared tries g module scope name (h.modify id f) :=
  spared.next path (congrArg (·.get? name) (read_modify _ _ _ Entity.contents contents scope))
    (congrArg (·[name]?) (read_modify _ _ _ Entity.aliases aliases scope))

theorem mem_localNames (spared : Spared tries g module scope name h) (before : g.Tabled) (behind : h.Tabled)
    (unnumbered : Unnumbered name) (bound : name ∈ g.localNames scope) :
    name ∈ h.localNames scope := by
  rw [Graph.mem_localNames behind unnumbered]
  cases spared with
  | kept contents aliases =>
      rw [contents, aliases]
      exact (Graph.mem_localNames before unnumbered).mp bound
  | moved _ _ _ _ _ _ _ _ _ aliases => exact .inr (by rw [aliases]; rfl)

end Spared

end Graph

open DocGraph.Graph

namespace Walk

variable {w v : Walk} {g : Graph} {scope : EntityId} {name : String} {may : Licence}

theorem Act.parent (act : w.Act may g) (valid : w.Valid) (nested : w.current ≠ w.module) {id : EntityId}
    (inside : w.graph.Has id) : (g.entity id).parent = (w.graph.entity id).parent := by
  cases act with
  | describe told => exact (told.entity id).parent
  | document _ told => exact (told.entity id).parent
  | visit among stmt => exact (((valid.hooks _ among).visit _ _ _ _).entity id).parent
  | depart among stmt => exact (((valid.hooks _ among).depart _ _ _ _).entity id).parent
  | bind name target _ =>
      exact read_modify _ _ (Entity.bindAlias name target) Entity.parent (fun _ => rfl) id
  | defer _ =>
      exact read_modify _ _ _ Entity.parent (fun e => (e.overlaid_modifyModule _).parent) id
  | declare _ _ _ _ _ _ _ told _ =>
      rw [(told.entity id).parent, (arranged_attach _ _ _).read Entity.parent fun _ _ _ => rfl,
        entity_alloc_of_has _ _ inside]
  | define _ _ _ _ _ _ _ _ _ =>
      exact read_modify _ _ _ Entity.parent (fun e => (e.overlaid_modifyClass _).parent) id
  | @reexport _ origin name asName line _ _ moved =>
      rcases reexport_cases w.graph w.current w.exports origin name asName line with
        ⟨_, _, _, exported, _⟩ | ⟨_, equal, _⟩
      · simp [exports, nested] at exported
      · cases equal.symm.trans moved

theorem Valid.opened_ne_module (valid : w.Valid) (behind : { w with graph := g }.Valid) {id : EntityId}
    (opens : w.Opens g id) : id ≠ w.module := by
  rintro rfl
  have type : (g.entity w.module).type = .module := behind.module
  rcases (valid.opened opens).2 with opened | opened <;> rw [type] at opened <;> cases opened

theorem Walks.parent (walks : Walks may w v) (valid : w.Valid) (nested : w.current ≠ w.module)
    {id : EntityId} (inside : w.graph.Has id) :
    (v.graph.entity id).parent = (w.graph.entity id).parent := by
  induction walks with
  | refl => rfl
  | act act => exact act.parent valid nested inside
  | trans first _ ihFirst ihSecond =>
      have framed := first.framed
      have same := ihFirst valid nested inside
      refine (ihSecond (first.valid valid) ?_ ?_).trans same
      · rwa [framed.current, framed.module]
      · exact (first.path valid).has valid.sound inside
  | @scope _ _ _ opened recorded opens _ ihRecorded ihInner =>
      have behind := recorded.valid valid
      have same := ihRecorded valid nested inside
      refine (ihInner (valid.enter opens behind) ?_ ?_).trans same
      · exact valid.opened_ne_module behind opens
      · exact (recorded.path valid).has valid.sound inside
  | arm _ ih => exact ih ⟨valid.sound, valid.module, valid.scopes, valid.hooks⟩ nested inside
  | block _ ih => exact ih ⟨valid.sound, valid.module, valid.scopes, valid.hooks⟩ nested inside

theorem Walks.methodClass? (walks : Walks may w v) (valid : w.Valid) : v.methodClass? = w.methodClass? := by
  have framed := walks.framed
  have path := walks.path valid
  have type {id : EntityId} (inside : w.graph.Has id) :
      (v.graph.entity id).type = (w.graph.entity id).type := (path.lasts valid.sound inside).2.type
  unfold Walk.methodClass? Walk.scope
  rw [framed.current, type valid.has_current]
  by_cases top : w.current = w.module
  · simp [top, valid.module]
  · rw [walks.parent valid top valid.has_current]
    split
    · cases above : (w.graph.entity w.current).parent with
      | none => rfl
      | some parent =>
          rw [Option.filter_some, Option.filter_some, type (valid.sound.rooted.parentHas above)]
    · rfl

/-- The guard keeps the name of the scope, or the walk is where it binds nothing in the scope. -/
def Shields (w : Walk) (scope : EntityId) (name : String) : Prop :=
  w.isGuarded scope name = true ∨ (w.current ≠ scope ∧ w.methodClass? ≠ some scope)

theorem Shields.isGuarded (shields : w.Shields scope name)
    (here : scope = w.current ∨ w.methodClass? = some scope) : w.isGuarded scope name = true := by
  rcases shields with guarded | ⟨current, method⟩
  · exact guarded
  · rcases here with rfl | owner
    · exact absurd rfl current
    · exact absurd owner method

theorem Walks.shields (walks : Walks may w v) (valid : w.Valid) (shields : w.Shields scope name) :
    v.Shields scope name := by
  have framed := walks.framed
  have guard : v.isGuarded scope name = w.isGuarded scope name := by
    rw [Walk.isGuarded, Walk.isGuarded, framed.guard]
  rwa [Shields, guard, framed.current, walks.methodClass? valid]

/-- A definition opens no scope that was there, other than functions; what it opens is inside the scope
that is open. -/
theorem Shields.enter {id : EntityId} (shields : { w with graph := g }.Shields scope name)
    (valid : w.Valid) (opens : w.Opens g id) (inside : w.graph.Has scope)
    (container : (w.graph.entity scope).isContainer = true) :
    ({ w with graph := g }.enter id).Shields scope name := by
  rcases shields with guarded | ⟨current, _⟩
  · exact .inl guarded
  · obtain ⟨held, _⟩ := valid.opened opens
    refine .inr ⟨?_, ?_⟩
    · rintro rfl
      cases opens with
      | fresh new => exact new inside
      | again _ _ type _ => simp [enter, Walk.current, Entity.isContainer, type] at container
    · intro owner
      unfold Walk.methodClass? at owner
      split at owner
      · have above := (Option.filter_eq_some_iff.mp owner).1
        change (g.entity id).parent = some scope at above
        rw [held] at above
        exact current (Option.some.inj above)
      · cases owner

/-- A new guard is over the scope itself, or the walk is where it binds nothing in the scope. -/
theorem shields_guardHere (valid : w.Valid) (container : (w.graph.entity scope).isContainer = true)
    (bound : name ∈ w.graph.localNames scope) :
    { w with guard := some w.guardHere }.Shields scope name := by
  have rooted := valid.sound.rooted
  have inside := has_of_isContainer _ container
  by_cases here : w.graph.scopeContainer w.current = scope
  · left
    simp [Walk.isGuarded, guardHere, here, bound]
  · refine .inr ⟨?_, ?_⟩
    · rintro rfl
      exact here (scopeContainer_of_container rooted inside container)
    · intro owner
      unfold Walk.methodClass? at owner
      split at owner
      · rename_i function
        have above : (w.graph.entity w.current).parent = some scope :=
          (Option.filter_eq_some_iff.mp owner).1
        have plain : (w.graph.entity w.current).isContainer = false := by
          change (w.graph.entity w.current).type = .function at function
          simp [Entity.isContainer, function]
        apply here
        rw [scopeContainer_of_child rooted above plain, scopeContainer_of_container rooted inside container]
      · cases owner

/-- A re-export takes the name of a shielded scope only by moving away what is bound to it. -/
theorem spared_reexport {start h : Graph} {origin : EntityId} {original asName : String} {line : Nat}
    (unnumbered : Unnumbered name) (valid : w.Valid) (inTable : w.graph.UnnumberedInTable none)
    (before : Path start w.graph) (shields : w.Shields scope name)
    (spared : Spared may.tries start w.module scope name w.graph) (free : w.isGuarded w.current asName = false)
    (tried : may.tries
      { graph := w.graph, scope := w.current, exports := w.exports, origin, name := original, asName, line })
    (taken : w.graph.reexport w.current w.exports origin original asName line = (h, true)) :
    Spared may.tries start w.module scope name h := by
  have act : w.Act may h := .reexport free tried taken
  have path := act.path valid
  rcases reexport_cases w.graph w.current w.exports origin original asName line with
    ⟨_, found, equal, exported, offered, _, _, moved⟩ | ⟨_, equal, _⟩
  · cases equal.symm.trans taken
    have top : w.current = w.module := by
      by_contra nested
      simp [exports, nested] at exported
    have apart : scope ≠ w.current ∨ (asName ≠ name ∧ Unnumbered name) := by
      by_cases here : scope = w.current
      · refine .inr ⟨?_, unnumbered⟩
        rintro rfl
        rw [← here, shields.isGuarded (.inl here)] at free
        cases free
      · exact .inl here
    rcases tables_move valid.sound valid.has_current moved apart with
      ⟨contents, aliases⟩ | ⟨held, named, contents, aliases⟩
    · exact spared.next path contents aliases
    · have bound : (w.graph.entity scope).contents.get? name = some found :=
        named ▸ inTable scope found held (by simp) (named ▸ unnumbered)
      cases spared with
      | kept same alike =>
          have exportsHere : w.exports = w.graph.exportsOf w.module := by simp [exports, top]
          exact .moved (same ▸ bound) tried before top exportsHere offered taken (.refl _) contents aliases
      | moved _ _ _ _ _ _ _ _ gone _ =>
          -- What was moved away before is no longer bound, so it is not this one.
          rw [gone] at bound
          cases bound
  · cases equal.symm.trans taken

section spared

variable {start : Graph} (unnumbered : Unnumbered name)
  (container : (w.graph.entity scope).isContainer = true)

include unnumbered container

theorem Act.spared (act : w.Act may g) (valid : w.Valid) (inTable : w.graph.UnnumberedInTable none)
    (before : Path start w.graph) (shields : w.Shields scope name)
    (spared : Spared may.tries start w.module scope name w.graph) : Spared may.tries start w.module scope name g := by
  have path := act.path valid
  have inside := has_of_isContainer _ container
  have described (same : Described w.graph g) : Spared may.tries start w.module scope name g :=
    spared.next path (by rw [(same.entity scope).contents]) (by rw [(same.entity scope).aliases])
  cases act with
  | describe told => exact described told.described
  | document _ told => exact described told.described
  | visit among stmt => exact described ((valid.hooks _ among).visit _ _ _ _)
  | depart among stmt => exact described ((valid.hooks _ among).depart _ _ _ _)
  | bind other target free =>
      refine spared.next path ?_ ?_
      · exact congrArg (·.get? name)
          (read_modify _ _ (Entity.bindAlias other target) Entity.contents (fun _ => rfl) scope)
      · rw [entity_modify]
        split
        · rename_i here
          rw [Entity.bindAlias, NameMap.get_insert, if_neg]
          rintro rfl
          rw [here.1, shields.isGuarded (.inl here.1.symm)] at free
          cases free
        · rfl
  | defer _ =>
      exact spared.modify _ path (fun e => (e.overlaid_modifyModule _).contents)
        fun e => e.aliases_modifyModule _
  | @declare parent e _ blank above _ _ _ place free told _ =>
      have apart : ¬ (scope = parent ∧ e.name = name) := by
        rintro ⟨rfl, rfl⟩
        rw [shields.isGuarded place] at free
        cases free
      refine spared.next path ?_ ?_
      · rw [(told.entity scope).contents, get?_attach ((w.graph.has_alloc e parent).mpr (.inl (valid.has_place place)))
          (unlisted_alloc valid.sound.tabled blank.contents) unnumbered (by simpa [entity_alloc] using apart),
          entity_alloc_of_has _ _ inside]
      · rw [(told.entity scope).aliases, (arranged_attach _ _ _).read Entity.aliases fun _ _ _ => rfl,
          entity_alloc_of_has _ _ inside]
  | define _ _ _ _ _ _ _ _ _ =>
      exact spared.modify _ path (fun e => (e.overlaid_modifyClass _).contents)
        fun e => e.aliases_modifyClass _
  | reexport free tried taken =>
      exact spared_reexport unnumbered valid inTable before shields spared free tried taken

end spared

theorem Walks.spared {start : Graph} (walks : Walks may w v) (valid : w.Valid)
    (inTable : w.graph.UnnumberedInTable none)
    (tabled : start.Tabled) (before : Path start w.graph) (unnumbered : Unnumbered name)
    (container : (w.graph.entity scope).isContainer = true) (bound : name ∈ start.localNames scope)
    (shields : w.Shields scope name) (spared : Spared may.tries start w.module scope name w.graph) :
    Spared may.tries start w.module scope name v.graph := by
  have container' {u : Walk} {k : Graph} (valid : u.Valid) (path : Path u.graph k)
      (container : (u.graph.entity scope).isContainer = true) :
      (k.entity scope).isContainer = true := by
    rw [Entity.isContainer, (path.lasts valid.sound (has_of_isContainer _ container)).2.type]
    exact container
  induction walks with
  | refl => exact spared
  | act act => exact act.spared unnumbered container valid inTable before shields spared
  | trans first _ ihFirst ihSecond =>
      have path := first.path valid
      have middle := ihFirst valid inTable before container shields spared
      rw [← first.framed.module] at middle ⊢
      exact ihSecond (first.valid valid) (path.inTable valid.sound inTable) (before.trans path)
        (container' valid path container) (first.shields valid shields) middle
  | scope recorded opens _ ihRecorded ihInner =>
      have path := recorded.path valid
      have behind := recorded.valid valid
      have middle := ihRecorded valid inTable before container shields spared
      exact ihInner (valid.enter opens behind) (path.inTable valid.sound inTable) (before.trans path)
        (container' valid path container)
        ((recorded.shields valid shields).enter valid opens (has_of_isContainer _ container) container) middle
  | arm _ ih =>
      have still := spared.mem_localNames tabled valid.sound.tabled unnumbered bound
      exact ih ⟨valid.sound, valid.module, valid.scopes, valid.hooks⟩ inTable before container
        (shields_guardHere valid container still) spared
  | block _ ih =>
      exact ih ⟨valid.sound, valid.module, valid.scopes, valid.hooks⟩ inTable before container shields spared

/-- The state in which the statements of a module begin to be walked. -/
def start (g : Graph) (module : EntityId) (body : List Stmt) : Walk :=
  let graph := (g.setState module .processing).readMetadata module body
  enter { graph, module, hooks := Hook.standard } module

/-- The states in which a build walks statements: it begins in a graph that calls have made, goes from
statement to statement, and into the bodies of definitions, blocks and arms. -/
inductive Reached : Walk → Prop
  | start {options : Options} {calls : List Call} {module : EntityId}
      (admits : (empty options).Admits calls)
      (unbuilt : (run (empty options) calls).moduleState? module = some .notProcessed)
      (body : List Stmt) : Reached (start (run (empty options) calls) module body)
  | document {w : Walk} (reached : Reached w) (text : String) (line : Nat) :
      Reached (w.update (·.setDocstring w.module text line))
  | visit {w : Walk} (reached : Reached w) (stmt : Stmt) : Reached (w.visit stmt)
  | walk {w : Walk} (reached : Reached w) (stmt : Stmt) (next : Option Stmt) :
      Reached (walkStmt stmt next w)
  | openClass {w : Walk} {g : Graph} {id : EntityId} (reached : Reached w) {head : ClassHead}
      {body : List Stmt} (declared : w.declareClass head body = (g, some id)) :
      Reached ({ w with graph := g }.enter id)
  | openFunction {w : Walk} {g : Graph} {id : EntityId} (reached : Reached w) {head : FunctionHead}
      {body : List Stmt} (declared : w.declareFunction head body = (g, some id)) :
      Reached ({ w with graph := g }.enter id)
  | block {w : Walk} (reached : Reached w) : Reached { w with flowDepth := w.flowDepth + 1 }
  | unblock {w : Walk} (reached : Reached w) (body : List Stmt) : Reached (inBlock (walkBody body) w)
  | arm {w : Walk} (reached : Reached w) : Reached { w with guard := some w.guardHere }

/-- What holds in all these states: the walk is valid, and children whose names have no number are in tables. -/
structure ValidInTable (w : Walk) : Prop where
  valid : w.Valid
  inTable : w.graph.UnnumberedInTable none

theorem ValidInTable.walks (validInTable : w.ValidInTable) (walks : Walks may w v) : v.ValidInTable :=
  ⟨walks.valid validInTable.valid, (walks.path validInTable.valid).inTable validInTable.valid.sound validInTable.inTable⟩

theorem ValidInTable.enter {id : EntityId} {declared : Graph × Option EntityId} (validInTable : w.ValidInTable)
    (declares : Declares may w declared) (opened : declared.2 = some id) :
    ({ w with graph := declared.1 }.enter id).ValidInTable := by
  have behind := validInTable.walks declares.recorded
  exact ⟨validInTable.valid.enter (declares.opens id opened) behind.valid, behind.inTable⟩

theorem validInTable_start {options : Options} {calls : List Call} {module : EntityId}
    (admits : (empty options).Admits calls)
    (unbuilt : (run (empty options) calls).moduleState? module = some .notProcessed) (body : List Stmt) :
    (start (run (empty options) calls) module body).ValidInTable := by
  have path := path_run (sound_empty options) admits
  have type := type_of_moduleState unbuilt
  generalize run (empty options) calls = g at path type
  have read : Retouched g ((g.setState module .processing).readMetadata module body) :=
    ((noted_setState g module _).trans (noted_readMetadata _ _ _)).retouched
  have sound := path.sound (sound_empty options)
  have inTable := path.inTable (sound_empty options) (unnumberedInTable_empty options)
  have typed := (read.entity module).type.trans type
  refine ⟨⟨Path.sound (.retouch read) sound, typed, fun id opened => ?_, Hook.describes_standard⟩,
    Path.inTable (.retouch read) sound inTable⟩
  simp only [start, enter, List.mem_singleton] at opened
  subst opened
  exact ⟨by simp [start, enter, typed], fun _ => rfl⟩

theorem Reached.validInTable (reached : w.Reached) : w.ValidInTable := by
  induction reached with
  | start admits unbuilt body => exact validInTable_start admits unbuilt body
  | @document w _ text line ih =>
      have told : Told (fun _ => True) w.graph (w.graph.setDocstring w.module text line) :=
        (told_setDocstring _ _ _ _).mono fun _ => trivial
      have walks : Walks (.any True) w (w.update (·.setDocstring w.module text line)) := .act (.document trivial told)
      exact ih.walks walks
  | @visit w _ stmt ih =>
      have walks : Walks (.any True) w (w.visit stmt) := walks_visit w stmt
      exact ih.walks walks
  | walk _ stmt next ih => exact ih.walks (made_walkStmt stmt (fun _ => trivial) next _)
  | @openClass w _ _ _ head body declared ih =>
      have declares : Declares (.any True) w (w.declareClass head body) := declares_declareClass w trivial trivial body
      rw [declared] at declares
      exact ih.enter declares rfl
  | @openFunction w _ _ _ head body declared ih =>
      have declares : Declares (.any True) w (w.declareFunction head body) :=
        declares_declareFunction w (fun _ _ => trivial) body fun _ _ => trivial
      rw [declared] at declares
      exact ih.enter declares rfl
  | block _ ih => exact ⟨⟨ih.valid.sound, ih.valid.module, ih.valid.scopes, ih.valid.hooks⟩, ih.inTable⟩
  | unblock _ body ih => exact ih.walks ((made_walkBody body fun _ => trivial).inBlock _)
  | arm _ ih => exact ⟨⟨ih.valid.sound, ih.valid.module, ih.valid.scopes, ih.valid.hooks⟩, ih.inTable⟩

/-- What is walked under a guard, with its steps: the statements of an `else` arm, or all `except` arms. -/
inductive Arm : Script → (Walk → Walk) → Prop
  | orElse (body : List Stmt) : Arm (Script.ofBody body).inBlock (inBlock (walkBody body))
  | handlers (handlers : List Handler) : Arm (Script.ofHandlers handlers) (walkHandlers handlers)

theorem Arm.walks {script : Script} {walk : Walk → Walk} (arm : Arm script walk) (w : Walk) :
    Walks (.only (tried w (script w))) w (walk w) := by
  cases arm with
  | orElse body => exact (Script.performs_ofBody body).inBlock.walks w
  | handlers handlers => exact (Script.performs_ofHandlers handlers).walks w

theorem guarded_spares {script : Script} {walk : Walk → Walk} (reached : w.Reached) (arm : Arm script walk)
    (unnumbered : Unnumbered name)
    (bound : name ∈ w.graph.localNames (w.graph.scopeContainer w.current)) :
    Spared (· ∈ tried w (script.guarded w)) w.graph w.module (w.graph.scopeContainer w.current) name
      (guarded walk w).graph := by
  obtain ⟨valid, inTable⟩ := reached.validInTable
  have container := isContainer_scopeContainer valid.sound valid.has_current
  let shielded : Walk := { w with guard := some w.guardHere }
  have states : Walk.reached w (script.guarded w) = Walk.reached shielded (script shielded) :=
    reached_between rfl rfl _ _
  rw [tried, states]
  exact (arm.walks shielded).spared ⟨valid.sound, valid.module, valid.scopes, valid.hooks⟩ inTable valid.sound.tabled
    (.refl _) unnumbered container bound (shields_guardHere valid container bound) (.refl _ _ _ _)

/-- A module that exports `Y` has two classes; an arm defines one of them again, in a nested arm, and
re-exports the other as `Y`. -/
def twoClasses : Walk :=
  walkStmt (.classDef { name := "Z", line := 3 } []) none
    (walkStmt (.classDef { name := "X", line := 2 } []) none
      (start (run (empty {}) [.addModule "m" false]) ⟨0⟩
        [.assign [.name "__all__"] (.list [.str "Y"]) none 1]))

def armOfTwoClasses : List Stmt :=
  [.ifElse (.name "test") [] [.classDef { name := "Z", line := 5 } []] 4,
    .importFrom (some "m") [⟨"X", some "Y"⟩] 0 6]

theorem guarded_spares_twoClasses :
    twoClasses.Reached ∧
      "X" ∈ twoClasses.graph.localNames (twoClasses.graph.scopeContainer twoClasses.current) ∧
      Spared (· ∈ tried twoClasses ((Script.ofBody armOfTwoClasses).inBlock.guarded twoClasses)) twoClasses.graph
        ⟨0⟩ ⟨0⟩ "X" (guarded (inBlock (walkBody armOfTwoClasses)) twoClasses).graph ∧
      Spared (· ∈ tried twoClasses ((Script.ofBody armOfTwoClasses).inBlock.guarded twoClasses)) twoClasses.graph
        ⟨0⟩ ⟨0⟩ "Z" (guarded (inBlock (walkBody armOfTwoClasses)) twoClasses).graph ∧
      ((guarded (inBlock (walkBody armOfTwoClasses)) twoClasses).graph.entity ⟨0⟩).aliases["X"]? =
        some "m.Y" := by
  have unbuilt : (run (empty {}) [.addModule "m" false]).moduleState? ⟨0⟩ = some .notProcessed := by
    decide +kernel
  have admits : (empty {}).Admits [.addModule "m" false] := ⟨trivial, trivial⟩
  have reached : twoClasses.Reached := ((Reached.start admits unbuilt _).walk _ _).walk _ _
  have module : twoClasses.module = ⟨0⟩ := by decide +kernel
  have scope : twoClasses.graph.scopeContainer twoClasses.current = ⟨0⟩ := by decide +kernel
  have first : "X" ∈ twoClasses.graph.localNames (twoClasses.graph.scopeContainer twoClasses.current) := by
    decide +kernel
  have second : "Z" ∈ twoClasses.graph.localNames (twoClasses.graph.scopeContainer twoClasses.current) := by
    decide +kernel
  have sparedFirst := guarded_spares reached (.orElse armOfTwoClasses) (by decide) first
  have sparedSecond := guarded_spares reached (.orElse armOfTwoClasses) (by decide) second
  rw [module, scope] at sparedFirst sparedSecond
  exact ⟨reached, first, sparedFirst, sparedSecond, by decide +kernel⟩

end Walk

end DocGraph
