import DocGraph.Proofs.Bases.DepthFirst
import DocGraph.Proofs.Run.Kinds
import DocGraph.Proofs.Run.ModuleNames
import DocGraph.Proofs.Walk.Confined

namespace DocGraph

namespace Options

variable {options : Options} {name : String}

/-- The module of built-ins stands in front of the name. -/
def IsQualified (name : String) : Prop := "builtins.".toList <+: name.toList

instance (name : String) : Decidable (IsQualified name) := inferInstanceAs (Decidable (_ <+: _))

/-- The name of a built-in exception, with or without the module of built-ins in front. -/
def Lists (options : Options) (name : String) : Prop :=
  ∃ listed ∈ options.builtinExceptions, name = listed ∨ name = "builtins." ++ listed

instance (options : Options) (name : String) : Decidable (options.Lists name) :=
  inferInstanceAs (Decidable (∃ listed ∈ _, _))

/-- The names that count: a qualified one counts only for what stands behind the module. -/
def Recognizes (options : Options) (name : String) : Prop :=
  ∃ listed ∈ options.builtinExceptions, (name = listed ∧ ¬ IsQualified name) ∨ name = "builtins." ++ listed

theorem withoutBuiltins_append (rest : String) : withoutBuiltins ("builtins." ++ rest) = rest := by
  simp [withoutBuiltins]

theorem withoutBuiltins_of_not_isQualified (bare : ¬ IsQualified name) : withoutBuiltins name = name := by
  rw [withoutBuiltins, if_neg]
  rwa [List.isPrefixOf_iff_prefix]

theorem isBuiltinException_iff : options.isBuiltinException name = true ↔ options.Recognizes name := by
  rw [isBuiltinException, List.contains_iff_mem]
  by_cases qualified : IsQualified name
  · obtain ⟨rest, split⟩ := qualified
    obtain rfl : name = "builtins." ++ String.ofList rest := by
      rw [← String.toList_inj, String.toList_append, ← split]
      exact congrArg _ String.toList_ofList.symm
    rw [withoutBuiltins_append]
    constructor
    · exact fun among => ⟨_, among, .inr rfl⟩
    · rintro ⟨listed, among, ⟨_, bare⟩ | same⟩
      · exact absurd (by simp [IsQualified]) bare
      · have equal := congrArg String.toList same
        rw [String.toList_append, String.toList_append, List.append_cancel_left_eq, String.toList_inj] at equal
        rwa [equal]
  · rw [withoutBuiltins_of_not_isQualified qualified]
    constructor
    · exact fun among => ⟨name, among, .inl ⟨rfl, qualified⟩⟩
    · rintro ⟨listed, among, ⟨rfl, _⟩ | rfl⟩
      · exact among
      · exact absurd (by simp [IsQualified]) qualified

/-- As long as no listed name is qualified itself, the names that count are those that are listed. -/
theorem recognizes_iff_lists (bare : ∀ listed ∈ options.builtinExceptions, ¬ IsQualified listed) :
    options.Recognizes name ↔ options.Lists name := by
  constructor
  · rintro ⟨listed, among, ⟨same, _⟩ | qualified⟩
    · exact ⟨listed, among, .inl same⟩
    · exact ⟨listed, among, .inr qualified⟩
  · rintro ⟨listed, among, rfl | qualified⟩
    · exact ⟨name, among, .inl ⟨rfl, bare name among⟩⟩
    · exact ⟨listed, among, .inr qualified⟩

end Options

namespace Graph

variable {g h k : Graph} {id : EntityId}

/-- What is an exception behind the step was one before. -/
def MarksNone (g h : Graph) : Prop :=
  ∀ id, (h.entity id).kind = some .exception → (g.entity id).kind = some .exception

namespace MarksNone

theorem refl (g : Graph) : MarksNone g g := fun _ marked => marked

theorem trans (first : MarksNone g h) (second : MarksNone h k) : MarksNone g k :=
  fun id marked => first id (second id marked)

theorem of_kind (same : ∀ id, (h.entity id).kind = (g.entity id).kind) : MarksNone g h :=
  fun id marked => (same id).symm.trans marked

theorem of_noted (noted : Noted id g h) : MarksNone g h := by
  refine .of_kind fun other => ?_
  by_cases same : other = id
  · rw [same, noted.kind]
  · rw [noted.elsewhere same]

theorem modify {f : Entity → Entity} (kind : ∀ e, (f e).kind = e.kind) (g : Graph) (id : EntityId) :
    MarksNone g (g.modify id f) :=
  .of_kind (read_modify g id f Entity.kind kind)

theorem of_addModule {name : String} {isPackage : Bool} (added : g.addModule name isPackage = .ok (h, id)) :
    MarksNone g h := by
  obtain ⟨_, own, parent, read⟩ := read_addModule added
  intro other marked
  rw [read Entity.kind fun _ _ _ => rfl, entity_alloc] at marked
  split at marked
  · cases isPackage <;> cases marked
  · exact marked

theorem of_build {hooks : List Hook} (confined : ∀ hook ∈ hooks, hook.Confined)
    {source : Except SourceError Module} {state : BuildState} (built : g.build hooks id source = .ok (h, state)) :
    MarksNone g h :=
  build_related .refl .trans .of_noted (fun told _ => told.unmarked)
    (fun same act _ => (act.confined (same ▸ confined)).kind) built

theorem of_resuming (resuming : Resuming g h) : MarksNone g h := by
  induction resuming with
  | report same => exact .of_kind fun id => by rw [same.elsewhere fun none => none]
  | move moved => exact .of_kind (read_move moved Entity.kind fun _ _ _ _ _ _ => rfl)
  | realias g id rest =>
      refine .modify (fun e => ?_) g id
      obtain ⟨aliases, equal⟩ := rest e
      rw [equal]
  | clear g id => exact .modify (fun e => e.kind_modifyModule _) g id
  | trans _ _ first second => exact first.trans second

theorem of_modifyClass (g : Graph) (id : EntityId) (f : ClassInfo → ClassInfo) :
    MarksNone g (g.modify id (Entity.modifyClass f)) :=
  .modify (fun e => by rw [Entity.modifyClass_eq]) g id

theorem of_refreshMro (all : Bool) (g : Graph) (id : EntityId) : MarksNone g (refreshMro all g id).1 := by
  have reported : MarksNone g (g.reportMro id) := .of_kind fun other => by rw [entity_reportMro]
  unfold refreshMro
  split
  · rcases updateMro_cases g id with ⟨_, equal⟩ | equal
    · rw [equal]
      exact reported
    · rw [equal]
      exact reported.trans (.of_modifyClass _ _ _)
  · exact .refl g

end MarksNone

theorem hasExceptionBase_iff (sound : g.Sound) :
    g.hasExceptionBase id = true ↔ ∃ base ∈ (g.entity id).slots, g.options.Recognizes base.name := by
  have names : g.hasExceptionBase id = (g.entity id).baseLists.names.any g.options.isBuiltinException := by
    rw [hasExceptionBase, Entity.baseLists]
    cases (g.entity id).class? <;> rfl
  rw [names, ← (sound.aligned id).map_name, ← Entity.slots]
  simp [← Options.isBuiltinException_iff]

/-- Classes are marked for their bases. -/
structure Justified (g h : Graph) : Prop where
  tagging : Tagging g h
  reason : ∀ {id}, (h.entity id).kind = some .exception →
    (g.entity id).kind = some .exception ∨ ((g.mroOf? id).getD [id]).any g.hasExceptionBase = true

namespace Justified

theorem refl (g : Graph) : Justified g g := ⟨.refl g, .inl⟩

theorem trans (first : Justified g h) (second : Justified h k) : Justified g k := by
  refine ⟨first.tagging.trans second.tagging, fun marked => ?_⟩
  rcases second.reason marked with before | descends
  · exact first.reason before
  · rw [first.tagging.mroOf?, first.tagging.hasExceptionBase] at descends
    exact .inr descends

theorem tagException (g : Graph) (id : EntityId) : Justified g (g.tagException id).1 := by
  refine ⟨tagging_tagException g id, fun {other} marked => ?_⟩
  unfold Graph.tagException at marked
  split at marked
  · rename_i descends
    rw [entity_modify] at marked
    split at marked
    · rename_i here
      exact .inr (here.1 ▸ descends.2)
    · exact .inl marked
  · exact .inl marked

end Justified

namespace Stages

variable {resumed upgraded linked ordered : Graph} {s : Summary}
  (stages : Stages g resumed upgraded linked ordered h s)

include stages

theorem marksNone : MarksNone g ordered := by
  have linking := stages.related_link .refl .trans MarksNone.of_modifyClass
  have ordering := tally_related .refl .trans (MarksNone.of_refreshMro (s.resolvedBases != 0))
    (resumed.idsOfType .class) linked
  rw [stages.order] at ordering
  exact ((MarksNone.of_resuming stages.resuming).trans linking).trans ordering

theorem justified : Justified ordered h := by
  have justified := tally_related .refl .trans Justified.tagException (resumed.idsOfType .class) ordered
  rwa [stages.tag] at justified

/-- The classes that are marked in a graph in which none was marked before. -/
theorem kind_eq_exception_iff (sound : g.Sound) (before : g.Ordered)
    (unmarked : ∀ id, (g.entity id).kind ≠ some .exception) (suited : h.AllSuited)
    (isClass : (h.entity id).type = .class) :
    (h.entity id).kind = some .exception ↔
      ∃ upper, h.Descends id upper ∧ ∃ base ∈ (h.entity upper).slots, h.options.Recognizes base.name := by
  have current := stages.current before isClass
  have descends : ((h.mroOf? id).getD [id]).any h.hasExceptionBase = true ↔
      ∃ upper, h.Descends id upper ∧ ∃ base ∈ (h.entity upper).slots, h.options.Recognizes base.name := by
    simp only [current, Option.getD_some, List.any_eq_true, mem_storedMro,
      hasExceptionBase_iff ((stages.path sound).sound sound)]
  rw [← descends]
  constructor
  · intro marked
    rw [stages.tagging.mroOf?, stages.tagging.hasExceptionBase]
    rcases stages.justified.reason marked with early | reason
    · exact absurd (stages.marksNone id early) (unmarked id)
    · exact reason
  · intro reached
    obtain ⟨kind, among, stored⟩ := suited id (h.has_of_type (by rw [isClass]; decide))
    rw [isClass] at among
    rcases List.mem_cons.mp among with rfl | among
    · rw [stages.marked isClass stored] at reached
      cases reached
    · rw [stored, List.mem_singleton.mp among]

end Stages

end Graph

/-- The call adds a module, or builds one with hooks that mark no class, or tries to finish in vain. -/
def Call.Builds (g : Graph) : Call → Prop
  | .addModule _ _ => True
  | .build hooks _ _ => ∀ hook ∈ hooks, hook.Tells ∧ hook.Confined
  | .finish => ∀ result, g.finish ≠ .ok result
  | _ => False

namespace Graph

/-- The graph is filled by calls that add modules and build them, and has not been finished yet. -/
def Builds (g : Graph) : List Call → Prop
  | [] => True
  | call :: rest => call.Builds g ∧ (call.apply g).Builds rest

/-- What holds of a graph that has not been finished. -/
structure Unmarked (g : Graph) : Prop where
  sound : g.Sound
  linked : g.Linked
  ordered : g.Ordered
  suited : g.AllSuited
  plain : ∀ id, (g.entity id).kind ≠ some .exception

theorem unmarked_empty (options : Options) : (empty options).Unmarked :=
  ⟨sound_empty options, linked_empty options, ordered_empty options,
    fun id inside => by simp [Has, size, empty] at inside,
    fun id => by rw [entity_of_not_has _ (by simp [Has, size, empty])]; decide⟩

theorem Unmarked.apply {g : Graph} {call : Call} (unmarked : g.Unmarked) (builds : call.Builds g) :
    Path g (call.apply g) ∧ (call.apply g).Unmarked := by
  have tells : call.Tells := by
    cases call with
    | build hooks => exact fun hook among => (builds hook among).1
    | _ => trivial
  have fits : call.Fits g := by
    cases call with
    | build hooks => exact fun hook among => (builds hook among).1.describes
    | addModule | finish => trivial
    | _ => exact builds.elim
  have kinded : call.Kinded := by
    cases call with
    | addAttribute => exact builds.elim
    | _ => trivial
  have path := path_apply unmarked.sound fits
  have marksNone : MarksNone g (call.apply g) := by
    have outcome := call.outcome_apply g
    generalize call.apply g = h at outcome ⊢
    cases outcome with
    | refused => exact .refl g
    | addModule added => exact .of_addModule added
    | build built => exact .of_build (fun hook among => (builds hook among).2) built
    | finish finished => exact absurd finished (builds _)
    | _ => exact builds.elim
  exact ⟨path, path.sound unmarked.sound, path.linked unmarked.linked,
    ordered_apply tells unmarked.sound unmarked.linked unmarked.ordered,
    allSuited_apply tells kinded unmarked.ordered.headed unmarked.suited,
    fun id marked => unmarked.plain id (marksNone id marked)⟩

theorem Unmarked.run {g : Graph} {calls : List Call} (unmarked : g.Unmarked) (builds : g.Builds calls) :
    Path g (g.run calls) ∧ (g.run calls).Unmarked := by
  induction calls generalizing g with
  | nil => exact ⟨.refl g, unmarked⟩
  | cons call rest ih =>
      obtain ⟨first, behind⟩ := unmarked.apply builds.1
      obtain ⟨path, last⟩ := ih behind builds.2
      exact ⟨first.trans path, last⟩

/-- Once modules that were added and built are finished for the first time, the exceptions are the classes
that reach a class with the name of a built-in exception among its bases. -/
theorem run_finish_exceptions {options : Options} {calls : List Call} (builds : (empty options).Builds calls)
    {h : Graph} {s : Summary} (finished : (run (empty options) calls).finish = .ok (h, s)) {id : EntityId}
    (isClass : (h.entity id).type = .class) :
    ((h.entity id).kind = some .exception ↔
      ∃ upper, h.Descends id upper ∧ ∃ base ∈ (h.entity upper).slots, options.Recognizes base.name) ∧
    ((∀ listed ∈ options.builtinExceptions, ¬ Options.IsQualified listed) →
      ((h.entity id).kind = some .exception ↔
        ∃ upper, h.Descends id upper ∧ ∃ base ∈ (h.entity upper).slots, options.Lists base.name)) := by
  obtain ⟨path, unmarked⟩ := (unmarked_empty options).run builds
  obtain ⟨_, _, _, _, stages⟩ := finish_stages finished
  have suited := stages.suited unmarked.ordered.headed unmarked.suited
  have marked := stages.kind_eq_exception_iff unmarked.sound unmarked.ordered unmarked.plain suited isClass
  have kept : h.options = options := (path.trans (stages.path unmarked.sound)).options
  rw [kept] at marked
  refine ⟨marked, fun bare => ?_⟩
  simp only [← Options.recognizes_iff_lists bare]
  exact marked

/-- A first try to finish comes too early. The base of `Late` is found when the graph is finished, and `Torn`
inherits from two classes that disagree on the order of their bases. -/
def inheritedExceptions : List Call :=
  [.addModule "m" false, .finish,
    .build Hook.standard ⟨0⟩ (.ok
      { body :=
          [.classDef { name := "Late", bases := [.name "Error"], line := 1 } [],
            .classDef { name := "Error", bases := [.attribute (.name "builtins") "ValueError"], line := 2 } [],
            .classDef { name := "Mixin", bases := [.name "object"], line := 3 } [],
            .classDef { name := "First", bases := [.name "Mixin", .name "Error"], line := 4 } [],
            .classDef { name := "Second", bases := [.name "Error", .name "Mixin"], line := 5 } [],
            .classDef { name := "Torn", bases := [.name "First", .name "Second"], line := 6 } []] })]

theorem run_inheritedExceptions_marked :
    (empty {}).Builds inheritedExceptions ∧
      (∀ listed ∈ ({} : Options).builtinExceptions, ¬ Options.IsQualified listed) ∧
      ∃ h s, (run (empty {}) inheritedExceptions).finish = .ok (h, s) ∧
        [1, 2, 3, 4, 5, 6].map (fun n => (h.entity ⟨n⟩).kind) = [some .exception, some .exception, some .class,
          some .exception, some .exception, some .exception] ∧
        (∃ upper, h.Descends ⟨6⟩ upper ∧ ∃ base ∈ (h.entity upper).slots, ({} : Options).Lists base.name) ∧
        ¬ ∃ upper, h.Descends ⟨3⟩ upper ∧ ∃ base ∈ (h.entity upper).slots, ({} : Options).Recognizes base.name := by
  have early : (run (empty {}) (inheritedExceptions.take 1)).finish.toOption.isNone = true := by decide +kernel
  have builds : (empty {}).Builds inheritedExceptions := by
    refine ⟨trivial, fun result finished => ?_, fun hook among => ⟨Hook.tells_standard hook among,
      Hook.confined_standard hook among⟩, trivial⟩
    change (run (empty {}) (inheritedExceptions.take 1)).finish = .ok result at finished
    rw [finished] at early
    cases early
  have bare : ∀ listed ∈ ({} : Options).builtinExceptions, ¬ Options.IsQualified listed := by decide +kernel
  have found : ((run (empty {}) inheritedExceptions).finish.map fun finished =>
      ([1, 2, 3, 4, 5, 6].map (fun n => (finished.1.entity ⟨n⟩).kind),
        [(finished.1.entity ⟨3⟩).type, (finished.1.entity ⟨6⟩).type])).toOption =
      some ([some .exception, some .exception, some .class, some .exception, some .exception, some .exception],
        [.class, .class]) := by decide +kernel
  refine ⟨builds, bare, ?_⟩
  cases finished : (run (empty {}) inheritedExceptions).finish with
  | error refusal =>
      rw [finished] at found
      cases found
  | ok result =>
      obtain ⟨h, s⟩ := result
      simp only [finished, Except.map, Except.toOption, Option.some.injEq, Prod.mk.injEq, List.cons.injEq,
        and_true] at found
      obtain ⟨kinds, mixin, torn⟩ := found
      have each := kinds
      simp only [List.map_cons, List.map_nil, List.cons.injEq, and_true] at each
      obtain ⟨_, _, plain, _, _, marked⟩ := each
      refine ⟨h, s, rfl, kinds, ?_, fun reached => ?_⟩
      · exact ((run_finish_exceptions builds finished torn).2 bare).mp marked
      · have other := (run_finish_exceptions builds finished mixin).1.mpr reached
        rw [plain] at other
        cases other

/-- A base that is listed by its full name does not make its class an exception. -/
def qualifiedException : Options := { builtinExceptions := ["builtins.Foo"] }

def fooClass : List Call :=
  [.addModule "m" false,
    .build Hook.standard ⟨0⟩ (.ok
      { body := [.classDef { name := "C", bases := [.attribute (.name "builtins") "Foo"], line := 1 } []] })]

theorem run_fooClass_unmarked :
    (empty qualifiedException).Builds fooClass ∧
      ∃ h s, (run (empty qualifiedException) fooClass).finish = .ok (h, s) ∧ (h.entity ⟨1⟩).type = .class ∧
        (h.entity ⟨1⟩).kind = some .class ∧
        ∃ upper, h.Descends ⟨1⟩ upper ∧ ∃ base ∈ (h.entity upper).slots, qualifiedException.Lists base.name := by
  have builds : (empty qualifiedException).Builds fooClass :=
    ⟨trivial, fun hook among => ⟨Hook.tells_standard hook among, Hook.confined_standard hook among⟩, trivial⟩
  have found : ((run (empty qualifiedException) fooClass).finish.map fun finished =>
      ((finished.1.entity ⟨1⟩).type, (finished.1.entity ⟨1⟩).kind,
        decide (∃ base ∈ (finished.1.entity ⟨1⟩).slots, qualifiedException.Lists base.name))).toOption =
      some (.class, some .class, true) := by decide +kernel
  refine ⟨builds, ?_⟩
  cases finished : (run (empty qualifiedException) fooClass).finish with
  | error refusal =>
      rw [finished] at found
      cases found
  | ok result =>
      obtain ⟨h, s⟩ := result
      simp only [finished, Except.map, Except.toOption, Option.some.injEq, Prod.mk.injEq, decide_eq_true_eq] at found
      exact ⟨h, s, rfl, found.1, found.2.1, ⟨1⟩, .refl, found.2.2⟩

end Graph

end DocGraph
