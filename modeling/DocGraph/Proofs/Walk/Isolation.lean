import DocGraph.Proofs.Run.ModuleNames
import DocGraph.Proofs.Run.Unbuilt

/-!
What the build of a module reaches. The walk looks names up everywhere, but it writes only to what stands
below the module: to its open scopes, to what they hold, and to what it declares in them. Two things reach
further, a re-export, for which the module must say what it exports, and a docstring that is assigned from
afar. Without them a build leaves everything outside its module as it was.
-/
namespace DocGraph

/-- The statement gives a module its exports. -/
def Stmt.setsExports : Stmt → Bool
  | .assign [.name name] _ _ _ => name == "__all__"
  | _ => false

namespace Graph

variable {g h k : Graph} {module id parent child upper : EntityId}

theorem above_iff_of_parent (rooted : g.Rooted)
    (parent : ∀ {id}, g.Has id → (h.entity id).parent = (g.entity id).parent) (inside : g.Has id) :
    h.Above upper id ↔ g.Above upper id := by
  constructor
  · intro above
    induction above with
    | refl => exact .refl
    | tail _ last ih =>
        rw [IsParent, parent inside] at last
        exact (ih (rooted.parentHas last)).tail last
  · intro above
    induction above with
    | refl => exact .refl
    | tail _ last ih =>
        refine (ih (rooted.parentHas last)).tail ?_
        rw [IsParent, parent inside]
        exact last

theorem Above.about {scope : EntityId} (below : g.Above upper scope) (tabled : g.Tabled) (told : g.About id scope) :
    g.Above upper id := by
  rcases told with rfl | ⟨name, bound⟩
  · exact below
  · exact below.tail (tabled.bound bound).1

theorem entity_attach_of_apart (tabled : g.Tabled) (unlisted : g.Unlisted child) (held : g.IsParent parent child)
    (inside : g.Has parent) (apart : id ≠ parent) (stranger : ¬ g.IsParent parent id) :
    (g.attach parent child).entity id = g.entity id := by
  have other : id ≠ child := fun same => stranger (same ▸ held)
  have contents := contents_attach inside unlisted apart
  have name : ((g.attach parent child).entity id).name = (g.entity id).name := by
    rcases name_attach_of_ne tabled unlisted held inside other with kept | ⟨_, child, _⟩
    · exact kept
    · exact absurd child stranger
  obtain ⟨_, _, equal⟩ := (arranged_attach g parent child).entity id
  rw [equal] at name contents ⊢
  cases name
  cases contents
  rfl

/-- All that the step changes stands below the module, and what it makes is at home there. -/
structure Within (module : EntityId) (g h : Graph) : Prop extends Upkept (· = module) g h where
  path : Path g h
  roots : h.roots = g.roots
  options : h.options = g.options
  parent : ∀ {id}, g.Has id → (h.entity id).parent = (g.entity id).parent
  outside : ∀ {id}, g.Has id → ¬ g.Above module id → h.entity id = g.entity id
  created : ∀ {id}, h.Has id → ¬ g.Has id → h.Above module id ∧ (h.entity id).home = some module

namespace Within

theorem above_iff (within : Within module g h) (sound : g.Sound) (inside : g.Has id) :
    h.Above upper id ↔ g.Above upper id :=
  above_iff_of_parent sound.rooted within.parent inside

theorem trans (sound : g.Sound) (first : Within module g h) (second : Within module h k) : Within module g k := by
  refine ⟨first.toUpkept.trans second.toUpkept, first.path.trans second.path, second.roots.trans first.roots,
    second.options.trans first.options,
    fun inside => (second.parent (first.has inside)).trans (first.parent inside), fun {id} inside far => ?_,
    fun {id} inside missing => ?_⟩
  · rw [← first.above_iff sound inside] at far
    rw [second.outside (first.has inside) far]
    rw [first.above_iff sound inside] at far
    exact first.outside inside far
  · by_cases before : h.Has id
    · obtain ⟨below, home⟩ := first.created before missing
      exact ⟨(second.above_iff (first.path.sound sound) before).mpr below, (second.home before).trans home⟩
    · exact second.created inside before

theorem of_labelled {about : EntityId → Prop} (labelled : Labelled about g h)
    (near : ∀ {id}, about id → g.Above module id) : Within module g h := by
  refine ⟨.of_described labelled.described, .retouch labelled.described.retouched, labelled.roots, labelled.options,
    fun _ => (labelled.entity _).parent, fun _ far => labelled.elsewhere fun within => far (near within),
    fun inside missing => absurd ?_ missing⟩
  rwa [Has, ← labelled.size]

theorem of_told {about : EntityId → Prop} (told : Told about g h) (near : ∀ {id}, about id → g.Above module id) :
    Within module g h :=
  .of_labelled told.toLabelled near

theorem refl (g : Graph) : Within module g g := by
  have same : Told (fun _ => False) g g := .refl g
  exact .of_told same False.elim

theorem of_noted (noted : Noted module g h) : Within module g h := by
  refine ⟨.of_noted noted, .retouch noted.retouched, noted.retouched.roots, noted.retouched.options,
    fun _ => (noted.retouched.entity _).parent, fun _ far => noted.elsewhere ?_,
    fun inside missing => absurd ?_ missing⟩
  · rintro rfl
    exact far .refl
  · rwa [Has, ← noted.retouched.size]

theorem modify {f : Entity → Entity} (upkept : Upkept (· = module) g (g.modify id f)) (path : Path g (g.modify id f))
    (below : g.Above module id) (parent : ∀ e, (f e).parent = e.parent) : Within module g (g.modify id f) := by
  refine ⟨upkept, path, g.roots_modify id f, g.options_modify id f,
    fun _ => read_modify _ _ _ Entity.parent parent _, fun {other} _ far => ?_,
    fun inside missing => absurd ((g.has_modify id f _).mp inside) missing⟩
  refine entity_modify_of_ne _ _ _ ?_
  rintro rfl
  exact far below

theorem declare {e : Entity} (sound : g.Sound) (blank : e.Blank) (above : e.parent = some parent)
    (type : e.type ≠ .module) (home : e.home = some module) (inside : g.Has parent)
    (below : g.Above module parent) : Within module g ((g.alloc e).1.attach parent ⟨g.size⟩) := by
  have arranged := arranged_attach (g.alloc e).1 parent ⟨g.size⟩
  have unlisted := unlisted_alloc sound.tabled blank.contents
  have held : (g.alloc e).1.IsParent parent ⟨g.size⟩ := by rw [IsParent, entity_alloc, if_pos rfl, above]
  have kept {id : EntityId} (inside : g.Has id) :
      (((g.alloc e).1.attach parent ⟨g.size⟩).entity id).parent = (g.entity id).parent := by
    rw [arranged.read Entity.parent fun _ _ _ => rfl, entity_alloc_of_has _ _ inside]
  refine ⟨.declare g type parent, .one (.declare blank above inside fun isModule => absurd isModule type),
    arranged.roots, arranged.options, kept, fun {id} old far => ?_, fun {id} behind missing => ?_⟩
  · have before := entity_alloc_of_has g e old
    rw [entity_attach_of_apart (tabled_alloc sound.tabled blank.contents) unlisted held
      ((g.has_alloc e parent).mpr (.inl inside)), before]
    · rintro rfl
      exact far below
    · rw [IsParent, before]
      exact fun child => far (below.tail child)
  · rw [arranged.has, has_alloc] at behind
    obtain rfl := behind.resolve_left missing
    refine ⟨((above_iff_of_parent sound.rooted kept inside).mpr below).tail ?_, ?_⟩
    · rw [arranged.isParent]
      exact held
    · rw [arranged.read Entity.home fun _ _ _ => rfl, entity_alloc, if_pos rfl]
      exact home

end Within

end Graph

open DocGraph.Graph

namespace Walk

variable {w v : Walk} {g : Graph} {id : EntityId}

/-- The open scopes stand below the module and are at home there, and so is the place of each; and the
module exports nothing. -/
structure Indoors (w : Walk) : Prop where
  home : (w.graph.entity w.module).home = some w.module
  exports : w.graph.exportsOf w.module = []
  scopes : ∀ id ∈ w.scopes, w.graph.Above w.module id ∧ (w.graph.entity id).home = some w.module
  places : ∀ id ∈ w.scopes, id ≠ w.module → ∀ parent, w.graph.IsParent parent id →
    (w.graph.entity parent).home = some w.module

namespace Indoors

variable (indoors : w.Indoors)

include indoors

theorem current : w.graph.Above w.module w.current ∧ (w.graph.entity w.current).home = some w.module := by
  unfold Walk.current
  cases opened : w.scopes.head? with
  | none => exact ⟨.refl, indoors.home⟩
  | some id => exact indoors.scopes id (List.mem_of_head? opened)

theorem place (valid : w.Valid) {place : EntityId} (open_ : w.Place place) :
    w.graph.Above w.module place ∧ (w.graph.entity place).home = some w.module := by
  rcases open_ with rfl | method
  · exact indoors.current
  · unfold methodClass? at method
    split at method
    · rename_i function
      have above : w.graph.IsParent place w.current := (Option.filter_eq_some_iff.mp method).1
      have apart : w.current ≠ w.module := by
        intro same
        rw [scope, same, valid.module] at function
        cases function
      have opened : w.current ∈ w.scopes := by
        unfold Walk.current at apart ⊢
        cases found : w.scopes.head? with
        | none => simp [found] at apart
        | some id => exact List.mem_of_head? found
      refine ⟨?_, indoors.places _ opened apart place above⟩
      rcases Relation.ReflTransGen.cases_tail indoors.current.1 with same | ⟨between, upper, last⟩
      · exact absurd same apart
      · cases above.symm.trans last
        exact upper
    · cases method

theorem near (valid : w.Valid) (reach : w.Near id) : w.graph.Above w.module id := by
  obtain ⟨place, open_, told | held⟩ := reach
  · exact (indoors.place valid open_).1.about valid.sound.tabled told
  · exact (indoors.place valid open_).1.tail held

end Indoors

theorem Act.within (act : w.Act (.any False) g) (valid : w.Valid) (indoors : w.Indoors)
    (tells : ∀ hook ∈ w.hooks, hook.Tells) : Within w.module w.graph g := by
  have path := act.path valid
  have upkept : Upkept (· = w.module) w.graph g := (act.upkept valid.hooks).mono
  cases act with
  | describe told => exact .of_labelled told.toLabelled (indoors.near valid)
  | document distant _ => exact distant.elim
  | visit among stmt => exact .of_labelled ((tells _ among).visit _ _ _ _) (indoors.current.1.about valid.sound.tabled)
  | depart among stmt => exact .of_labelled ((tells _ among).depart _ _ _ _) (indoors.current.1.about valid.sound.tabled)
  | bind name target _ => exact .modify upkept path indoors.current.1 fun _ => rfl
  | defer _ => exact .modify upkept path .refl fun e => (e.overlaid_modifyModule _).parent
  | @declare parent _ _ blank above type home _ place _ told _ =>
      obtain ⟨below, homed⟩ := indoors.place valid place
      have declared := Within.declare valid.sound blank above type (home.trans homed) (valid.has_place place) below
      refine declared.trans valid.sound (.of_labelled told.toLabelled fun same => ?_)
      rw [same]
      refine (declared.created ?_ w.graph.not_has_fresh).1
      rw [(arranged_attach _ _ _).has, has_alloc]
      exact .inr rfl
  | define id bases decorators _ _ _ _ _ above =>
      exact .modify upkept path (indoors.current.1.tail above) fun e => (e.overlaid_modifyClass _).parent
  | @reexport _ origin name asName line _ _ moved =>
      rcases reexport_cases w.graph w.current w.exports origin name asName line with
        ⟨_, _, _, exported, _⟩ | ⟨_, equal, _⟩
      · simp [exports, indoors.exports] at exported
      · cases equal.symm.trans moved

theorem Framed.indoors (framed : Framed w v) (valid : w.Valid) (within : Within w.module w.graph v.graph)
    (exports : v.graph.exportsOf w.module = w.graph.exportsOf w.module) (indoors : w.Indoors) : v.Indoors := by
  have inside : w.graph.Has w.module := w.graph.has_of_type (by simp [valid.module])
  have opened {id : EntityId} (among : id ∈ w.scopes) : w.graph.Has id :=
    w.graph.has_of_type (valid.scopes id among).1
  refine ⟨?_, ?_, ?_, ?_⟩
  · rw [framed.module, within.home inside, indoors.home]
  · rw [framed.module, exports, indoors.exports]
  · rw [framed.module, framed.scopes]
    intro id among
    rw [within.above_iff valid.sound (opened among), within.home (opened among)]
    exact indoors.scopes id among
  · rw [framed.module, framed.scopes]
    intro id among apart parent above
    rw [IsParent, within.parent (opened among)] at above
    rw [within.home (valid.sound.rooted.parentHas above)]
    exact indoors.places id among apart parent above

theorem Walks.exportsOf {may : Licence} (walks : Walks may w v) (valid : w.Valid) :
    v.graph.exportsOf w.module = w.graph.exportsOf w.module := by
  have inside : w.graph.Has w.module := w.graph.has_of_type (by simp [valid.module])
  have upkept : Upkept (fun _ => False) w.graph v.graph :=
    walks.related .refl .trans (fun same act => act.upkept (same ▸ valid.hooks)) rfl
  rw [exportsOf_eq, upkept.claims inside not_false, ← exportsOf_eq]

theorem Indoors.enter (valid : w.Valid) (indoors : w.Indoors) (opens : w.Opens g id)
    (behind : { w with graph := g }.Indoors) : ({ w with graph := g }.enter id).Indoors := by
  have above := (valid.opened opens).1
  refine ⟨behind.home, behind.exports, ?_, ?_⟩
  · intro other among
    rcases List.mem_cons.mp among with rfl | among
    · refine ⟨behind.current.1.tail above, ?_⟩
      cases opens with
      | fresh _ _ _ home => exact home.trans indoors.current.2
      | again same _ _ home => exact (same.entity other).home.trans home
    · exact behind.scopes other among
  · intro other among apart parent held
    rcases List.mem_cons.mp among with rfl | among
    · cases above.symm.trans held
      exact behind.current.2
    · exact behind.places other among apart parent held

theorem Walks.within (walks : Walks (.any False) w v) (valid : w.Valid) (indoors : w.Indoors)
    (tells : ∀ hook ∈ w.hooks, hook.Tells) : Within w.module w.graph v.graph := by
  induction walks with
  | refl => exact .refl _
  | act act => exact act.within valid indoors tells
  | trans first second ihFirst ihSecond =>
      have within := ihFirst valid indoors tells
      have framed := first.framed
      have behind := ihSecond (first.valid valid) (framed.indoors valid within (first.exportsOf valid) indoors)
        (framed.hooks ▸ tells)
      rw [framed.module] at behind
      exact within.trans valid.sound behind
  | scope recorded opens _ ihRecorded ihInner =>
      have within := ihRecorded valid indoors tells
      have behind := recorded.framed.indoors valid within (recorded.exportsOf valid) indoors
      exact within.trans valid.sound
        (ihInner (valid.enter opens (recorded.valid valid)) (indoors.enter valid opens behind) tells)
  | arm _ ih =>
      exact ih ⟨valid.sound, valid.module, valid.scopes, valid.hooks⟩
        ⟨indoors.home, indoors.exports, indoors.scopes, indoors.places⟩ tells
  | block _ ih =>
      exact ih ⟨valid.sound, valid.module, valid.scopes, valid.hooks⟩
        ⟨indoors.home, indoors.exports, indoors.scopes, indoors.places⟩ tells

theorem indoors_enter_module (home : (w.graph.entity w.module).home = some w.module)
    (exports : w.graph.exportsOf w.module = []) (none : w.scopes = []) : (w.enter w.module).Indoors := by
  have only {id : EntityId} (among : id ∈ (w.enter w.module).scopes) : id = w.module := by
    simpa [Walk.enter, none] using among
  refine ⟨home, exports, fun id among => ?_, fun id among apart => absurd (only among) apart⟩
  rw [only among]
  exact ⟨.refl, home⟩

theorem within_walkModule (valid : w.Valid) (tells : ∀ hook ∈ w.hooks, hook.Tells)
    (home : (w.graph.entity w.module).home = some w.module) (exports : w.graph.exportsOf w.module = [])
    (none : w.scopes = []) {body : List Stmt} (near : Stmt.anyAssignsDoc body = false) :
    Within w.module w.graph (walkModule body w).graph := by
  obtain ⟨v, framed, first, last⟩ := walkModule_parts w body
  have opened : Within w.module w.graph v.graph := .of_told first fun same => same ▸ .refl
  have kept : v.graph.exportsOf w.module = w.graph.exportsOf w.module := by
    rw [Graph.exportsOf, (first.entity w.module).module?]
    rfl
  have validInside := framed.valid opened.path valid.enter_module
  have indoors := framed.indoors valid.enter_module opened kept (indoors_enter_module home exports none)
  have walks : Walks (.any False) v (walkBody body v) :=
    made_walkBody body (fun distant => by simp [near] at distant) v
  have walked := walks.within validInside indoors (framed.hooks ▸ tells)
  have module : v.module = w.module := framed.module
  rw [module] at walked
  have sound := (walks.valid validInside).sound
  exact (opened.trans valid.sound walked).trans valid.sound
    (.of_told last fun told => Above.about .refl sound.tabled told)

end Walk

namespace Graph

variable {g h : Graph} {module : EntityId}

theorem exportsOf_modifyModule {f : ModuleInfo → ModuleInfo} (kept : ∀ info, (f info).exports = info.exports)
    (id other : EntityId) : (g.modify id (Entity.modifyModule f)).exportsOf other = g.exportsOf other := by
  refine read_modify g id _ (fun e => (e.module?.bind ModuleInfo.exports).getD []) (fun e => ?_) other
  simp [Entity.module?_modifyModule, Option.bind_map, kept]

theorem exportsOf_readDocFormat (value : Expr) (line : Nat) (id : EntityId) :
    (g.readDocFormat module value line).exportsOf id = g.exportsOf id := by
  have stored (docFormat : Option String) :
      (g.modify module (Entity.modifyModule fun info => { info with docFormat })).exportsOf id = g.exportsOf id :=
    exportsOf_modifyModule (by intro; rfl) module id
  unfold readDocFormat
  dsimp only
  split
  · rfl
  · split
    · rfl
    · split
      · exact stored _
      · exact stored _

theorem exportsOf_readMetadataOf {stmt : Stmt} (silent : stmt.setsExports = false) (id : EntityId) :
    (readMetadataOf module g stmt).exportsOf id = g.exportsOf id := by
  unfold readMetadataOf
  split
  · split
    · rename_i exports
      simp [Stmt.setsExports, exports] at silent
    · split
      · exact exportsOf_readDocFormat _ _ id
      · rfl
  · rfl

theorem exportsOf_readMetadata {body : List Stmt} (silent : ∀ stmt ∈ body, stmt.setsExports = false)
    (id : EntityId) : (g.readMetadata module body).exportsOf id = g.exportsOf id :=
  List.foldlRecOn (motive := fun (k : Graph) => k.exportsOf id = g.exportsOf id) body _ rfl
    fun _ before stmt among => (exportsOf_readMetadataOf (silent stmt among) id).trans before

theorem within_populate {hooks : List Hook} (tells : ∀ hook ∈ hooks, hook.Tells) (sound : g.Sound)
    (unclaimed : g.Unclaimed) (unbuilt : g.moduleState? module = some .notProcessed) {tree : Module}
    (silent : ∀ stmt ∈ tree.body, stmt.setsExports = false) (near : Stmt.anyAssignsDoc tree.body = false) :
    Within module g (g.populate hooks module tree) := by
  let w : Walk := { graph := (g.setState module .processing).readMetadata module tree.body, module, hooks }
  have noted : Within module g w.graph := .of_noted (noted_metadata g module tree.body)
  have type := type_of_moduleState unbuilt
  have inside : g.Has module := g.has_of_type (by rw [type]; decide)
  have valid : w.Valid := ⟨noted.path.sound sound, (noted.type inside).trans type, by simp [w],
    fun hook among => (tells hook among).describes⟩
  have exports : w.graph.exportsOf module = [] := by
    rw [exportsOf_readMetadata silent, setState, exportsOf_modifyModule (by intro; rfl), unclaimed.exports unbuilt]
  have home : (w.graph.entity module).home = some module := (noted.home inside).trans (unclaimed.home type)
  exact noted.trans sound (Walk.within_walkModule valid tells home exports rfl near)

/-- A build that exports nothing and assigns no docstring from afar succeeds, and leaves everything
outside its module as it was. -/
theorem build_isolated {options : Options} {calls : List Call} (admits : (empty options).Admits calls)
    {module : EntityId} (unbuilt : (run (empty options) calls).moduleState? module = some .notProcessed)
    {tree : Module} (silent : ∀ stmt ∈ tree.body, stmt.setsExports = false)
    (near : Stmt.anyAssignsDoc tree.body = false) :
    ∃ h, (run (empty options) calls).build Hook.standard module (.ok tree) = .ok (h, .processed) ∧
      h.roots = (run (empty options) calls).roots ∧ h.options = (run (empty options) calls).options ∧
      (∀ id, (run (empty options) calls).Has id → h.Has id) ∧
      (∀ id, (run (empty options) calls).Has id → (run (empty options) calls).isAncestor module id = false →
        h.entity id = (run (empty options) calls).entity id) ∧
      ∀ id, h.Has id → ¬ (run (empty options) calls).Has id →
        h.isAncestor module id = true ∧ (h.entity id).home = some module := by
  have sound := (path_run (sound_empty options) admits).sound (sound_empty options)
  have populated := within_populate Hook.tells_standard sound (unclaimed_run admits) unbuilt silent near
  generalize run (empty options) calls = g at *
  have noted : Noted module (g.populate Hook.standard module tree) _ :=
    (noted_setState _ module .processed).trans
      (noted_modifyModule _ module (f := fun info => { info with tree := some tree }) (fun _ => rfl) fun _ => rfl)
  have within := populated.trans sound (.of_noted noted)
  refine ⟨_, by rw [build, unbuilt], within.roots, within.options, fun id => within.has, fun id inside far => ?_,
    fun id inside missing => ?_⟩
  · refine within.outside inside fun above => ?_
    rw [(isAncestor_iff sound.rooted inside).mpr above] at far
    cases far
  · obtain ⟨below, home⟩ := within.created inside missing
    exact ⟨(isAncestor_iff (within.path.sound sound).rooted inside).mpr below, home⟩

/-- One module is built, with a class in it, and one is not. -/
def baseBuilt : List Call :=
  [.addModule "a" false, .addModule "b" false,
    .build Hook.standard ⟨0⟩ (.ok
      { body := [.classDef { name := "A", line := 1 } [.function { name := "f", line := 2 } []]] })]

/-- A class that inherits from one of another module, and overrides a method of it. -/
def heir : Module where
  body :=
    [.importFrom (some "a") [⟨"*", none⟩] 0 1,
      .classDef { name := "B", bases := [.name "A"], line := 2 }
        [.function { name := "f", line := 3 } [.assign [.attribute (.name "self") "x"] (.str "1") none 4]]]

theorem build_heir_isolated :
    (empty {}).Admits baseBuilt ∧ (run (empty {}) baseBuilt).moduleState? ⟨1⟩ = some .notProcessed ∧
      (∀ stmt ∈ heir.body, stmt.setsExports = false) ∧ Stmt.anyAssignsDoc heir.body = false ∧
      ∃ h, (run (empty {}) baseBuilt).build Hook.standard ⟨1⟩ (.ok heir) = .ok (h, .processed) ∧
        h.basesOf ⟨4⟩ = [⟨2⟩] ∧ h.entity ⟨2⟩ = (run (empty {}) baseBuilt).entity ⟨2⟩ ∧
        h.Has ⟨6⟩ ∧ h.isAncestor ⟨1⟩ ⟨6⟩ = true ∧ (h.entity ⟨6⟩).home = some ⟨1⟩ := by
  have admits : (empty {}).Admits baseBuilt := ⟨trivial, trivial, Hook.describes_standard, trivial⟩
  have unbuilt : (run (empty {}) baseBuilt).moduleState? ⟨1⟩ = some .notProcessed := by decide +kernel
  have silent : ∀ stmt ∈ heir.body, stmt.setsExports = false := by simp [heir, Stmt.setsExports]
  have near : Stmt.anyAssignsDoc heir.body = false := by decide
  have found : ((run (empty {}) baseBuilt).build Hook.standard ⟨1⟩ (.ok heir)).toOption.map
      (fun built => (built.1.size, built.1.basesOf ⟨4⟩)) = some (7, [⟨2⟩]) := by decide +kernel
  obtain ⟨h, built, _, _, _, outside, created⟩ := build_isolated admits unbuilt silent near
  rw [built] at found
  simp only [Except.toOption, Option.map_some, Option.some.injEq, Prod.mk.injEq] at found
  have inside : h.Has ⟨6⟩ := by
    rw [Has, found.1]
    decide
  exact ⟨admits, unbuilt, silent, near, h, built, found.2, outside ⟨2⟩ (by decide +kernel) (by decide +kernel),
    inside, created ⟨6⟩ inside (by decide +kernel)⟩

end Graph

end DocGraph
