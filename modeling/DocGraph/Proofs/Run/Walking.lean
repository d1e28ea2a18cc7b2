import DocGraph.Proofs.Run.Statements

namespace DocGraph

namespace Graph

variable {g : Graph} {id parent scope : EntityId}

theorem Path.foldl_fst {α β : Type*} {step : Graph × β → α → Graph × β} {items : List α} {b : β}
    (each : ∀ k b, Path g k → ∀ item ∈ items, Path k (step (k, b) item).1) :
    Path g (items.foldl step (g, b)).1 :=
  List.foldlRecOn (motive := fun state => Path g state.1) items step (.refl g)
    fun state before item member => before.trans (each state.1 state.2 before item member)

section addEntity

variable {name : String} {kind : Option EntityKind} {line : Nat}

theorem path_addEntity {payload : Payload} (inside : g.Has parent) (type : payload.type ≠ .module)
    (slots : payload.type = .class → payload = .class {}) :
    Path g (g.addEntity parent name payload kind line).1 :=
  .one (.declare (blank_declared g parent name kind line type slots) rfl inside fun isModule =>
    absurd isModule type)

theorem path_addClass (inside : g.Has parent) : Path g (g.addClass parent name line).1 :=
  path_addEntity inside (by decide) fun _ => rfl

theorem path_addFunction (inside : g.Has parent) : Path g (g.addFunction parent name line).1 :=
  path_addEntity inside (by decide) nofun

theorem path_addAttribute (inside : g.Has parent) : Path g (g.addAttribute parent name kind line).1 :=
  path_addEntity inside (by decide) nofun

end addEntity

/-- A moved entity has the name it was given, or that name with a number. -/
theorem bears_move {h : Graph} {target : EntityId} {name : String} (sound : g.Sound)
    (inside : g.Has target) (moved : g.move id target name = .ok h) : h.Bears target name := by
  rcases move_cases moved with ⟨rfl, held, named⟩ | ⟨oldParent, held, _, _, outside, rfl⟩
  · exact ⟨id, held, .inl named⟩
  · obtain ⟨uprooted, unlisted, above⟩ := sound.move_parts held outside inside name
    have overlaid := (Touch.bind (g := (g.uproot id oldParent target (g.entity id).name name).attach target id)
      oldParent (g.entity id).name ((g.uproot id oldParent target (g.entity id).name name).attach target
        id |>.fullName id)).overlaid
    have arranged := arranged_attach (g.uproot id oldParent target (g.entity id).name name) target id
    have keeps := keeps_attach uprooted.tabled unlisted above id
    rw [entity_uproot sound.rooted held, if_pos rfl] at keeps
    refine ⟨id, ?_, ?_⟩
    · rw [IsParent, (overlaid.entity id).parent, arranged.read Entity.parent fun _ _ _ => rfl]
      exact above
    · rw [(overlaid.entity id).name]
      exact keeps

theorem path_reexport (inside : g.Has scope) (exports : List String) (origin : EntityId)
    (name asName : String) (line : Nat) : Path g (g.reexport scope exports origin name asName line).1 :=
  reexport_related (fun moved => .one (.move inside moved)) (fun told => .retouch told.described.retouched) rfl

theorem path_importStarName (inside : g.Has scope) (origin : EntityId) (exports : List String) (line moved : Nat)
    (name : String) : Path g (importStarName scope origin exports line (g, moved) name).1 := by
  have path := path_reexport inside exports origin name name line
  unfold importStarName
  dsimp only
  split
  · rename_i equal
    rw [equal] at path
    exact path
  · rename_i equal
    rw [equal] at path
    exact path.trans (.touch (.bind _ _ _))

theorem path_importStar (sound : g.Sound) (inside : g.Has scope) (origin : EntityId)
    (exports blocked : List String) (line : Nat) :
    Path g (g.importStar scope origin exports blocked line).1 :=
  Path.foldl_fst fun _ moved before name _ =>
    path_importStarName (before.has sound inside) origin exports line moved name

end Graph

namespace Walk

open DocGraph.Graph

variable {w v : Walk} {may : Licence}

/-- The module and the open scopes are there, no other module is open, and the hooks leave the tree
alone. -/
structure Valid (w : Walk) : Prop where
  sound : w.graph.Sound
  module : (w.graph.entity w.module).type = .module
  scopes : ∀ id ∈ w.scopes, (w.graph.entity id).type ≠ .attribute ∧
    ((w.graph.entity id).type = .module → id = w.module)
  hooks : ∀ hook ∈ w.hooks, hook.Describes

namespace Valid

variable (valid : w.Valid)

include valid

theorem current_type : (w.graph.entity w.current).type ≠ .attribute ∧
    ((w.graph.entity w.current).type = .module → w.current = w.module) := by
  unfold Walk.current
  cases opened : w.scopes.head? with
  | none => exact ⟨by simp [valid.module], fun _ => rfl⟩
  | some id => exact valid.scopes id (List.mem_of_head? opened)

theorem has_current : w.graph.Has w.current := w.graph.has_of_type valid.current_type.1

theorem has_place {parent : EntityId} (place : w.Place parent) : w.graph.Has parent := by
  rcases place with rfl | method
  · exact valid.has_current
  · unfold methodClass? at method
    split at method
    · rw [Option.filter_eq_some_iff] at method
      exact valid.sound.rooted.parentHas method.1
    · cases method

theorem opened {g : Graph} {id : EntityId} (opens : w.Opens g id) :
    g.IsParent w.current id ∧ ((g.entity id).type = .class ∨ (g.entity id).type = .function) := by
  cases opens with
  | fresh _ above type _ => exact ⟨above, type⟩
  | again same found type _ =>
      refine ⟨(same.entity id).parent.trans (valid.sound.tabled.bound found).1, .inr ?_⟩
      rw [(same.entity id).type, type]

theorem enter {g : Graph} {id : EntityId} (opens : w.Opens g id) (behind : { w with graph := g }.Valid) :
    ({ w with graph := g }.enter id).Valid := by
  refine ⟨behind.sound, behind.module, fun other opened => ?_, behind.hooks⟩
  rcases List.mem_cons.mp opened with rfl | opened
  · rcases (valid.opened opens).2 with type | type <;> simp [Walk.enter, type]
  · exact behind.scopes other opened

end Valid

theorem Act.path {g : Graph} (act : w.Act may g) (valid : w.Valid) : Path w.graph g := by
  cases act with
  | describe told => exact .retouch told.described.retouched
  | document _ told => exact .retouch told.described.retouched
  | visit among stmt => exact .retouch ((valid.hooks _ among).visit _ _ _ _).retouched
  | depart among stmt => exact .retouch ((valid.hooks _ among).depart _ _ _ _).retouched
  | bind name target _ => exact .touch (.bind _ _ _)
  | defer into => exact .touch (.defer _ fun star => into star ▸ valid.has_current)
  | declare blank above type _ _ place _ told _ =>
      exact (Path.one (.declare blank above (valid.has_place place) fun isModule => absurd isModule type)).trans
        (.retouch told.described.retouched)
  | define id bases decorators type slots subclasses classes _ _ =>
      exact .touch (.define id bases decorators type slots subclasses classes)
  | @reexport _ origin name asName line _ _ moved =>
      have path := path_reexport valid.has_current w.exports origin name asName line
      rwa [moved] at path

theorem Framed.valid (framed : Framed w v) (path : Path w.graph v.graph) (valid : w.Valid) : v.Valid := by
  have type {id : EntityId} (present : (w.graph.entity id).type ≠ .attribute) :
      (v.graph.entity id).type = (w.graph.entity id).type :=
    (path.lasts valid.sound (w.graph.has_of_type present)).2.type
  refine ⟨path.sound valid.sound, ?_, ?_, ?_⟩
  · rw [framed.module, type (by simp [valid.module]), valid.module]
  · rw [framed.scopes, framed.module]
    intro id opened
    rw [type (valid.scopes id opened).1]
    exact valid.scopes id opened
  · rw [framed.hooks]
    exact valid.hooks

theorem Walks.path (walks : Walks may w v) (valid : w.Valid) : Path w.graph v.graph := by
  induction walks with
  | refl => exact .refl _
  | act act => exact act.path valid
  | trans first _ ihFirst ihSecond =>
      have path := ihFirst valid
      exact path.trans (ihSecond (first.framed.valid path valid))
  | scope recorded opens _ ihRecorded ihInner =>
      have path := ihRecorded valid
      exact path.trans (ihInner (valid.enter opens (recorded.framed.valid path valid)))
  | arm _ ih => exact ih ⟨valid.sound, valid.module, valid.scopes, valid.hooks⟩
  | block _ ih => exact ih ⟨valid.sound, valid.module, valid.scopes, valid.hooks⟩

theorem Walks.valid (walks : Walks may w v) (valid : w.Valid) : v.Valid :=
  walks.framed.valid (walks.path valid) valid

/-- What every act does, a walk does. -/
theorem Walks.related {r : Graph → Graph → Prop} (refl : ∀ g, r g g)
    (trans : ∀ {g h k}, r g h → r h k → r g k) {hooks : List Hook}
    (act : ∀ {w : Walk} {g : Graph}, w.hooks = hooks → w.Act may g → r w.graph g)
    (walks : Walks may w v) (same : w.hooks = hooks) : r w.graph v.graph := by
  induction walks with
  | refl => exact refl _
  | act made => exact act same made
  | trans first _ ihFirst ihSecond => exact trans (ihFirst same) (ihSecond (first.framed.hooks.trans same))
  | scope recorded _ _ ihRecorded ihInner => exact trans (ihRecorded same) (ihInner same)
  | arm _ ih => exact ih same
  | block _ ih => exact ih same

theorem walkModule_parts (w : Walk) (body : List Stmt) :
    ∃ v, Framed (w.enter w.module) v ∧ Told (· = w.module) w.graph v.graph ∧
      Told ((walkBody body v).graph.About · w.module) (walkBody body v).graph (walkModule body w).graph := by
  have closed (v : Walk) (framed : Framed (w.enter w.module) v) (first : Told (· = w.module) w.graph v.graph) :
      ∃ u, Framed (w.enter w.module) u ∧ Told (· = w.module) w.graph u.graph ∧
        Told ((walkBody body u).graph.About · w.module) (walkBody body u).graph
          ((walkBody body v).leave w.module).graph :=
    ⟨v, framed, first, told_leave _ _⟩
  unfold walkModule
  dsimp only
  split
  · exact closed _ ⟨rfl, rfl, rfl, rfl⟩ (told_setDocstring _ _ _ _)
  · exact closed _ ⟨rfl, rfl, rfl, rfl⟩ (.refl _)

theorem Valid.enter_module (valid : w.Valid) : (w.enter w.module).Valid := by
  refine ⟨valid.sound, valid.module, fun id opened => ?_, valid.hooks⟩
  rcases List.mem_cons.mp opened with rfl | opened
  · simp [Walk.enter, valid.module]
  · exact valid.scopes id opened

theorem path_walkModule (valid : w.Valid) (body : List Stmt) :
    Path w.graph (walkModule body w).graph := by
  obtain ⟨v, framed, first, last⟩ := walkModule_parts w body
  have before : Path w.graph v.graph := .retouch first.described.retouched
  have path := (made_walkBody body (fun _ => trivial) v).path (framed.valid before valid.enter_module)
  exact (before.trans path).trans (.retouch last.described.retouched)

end Walk

end DocGraph
