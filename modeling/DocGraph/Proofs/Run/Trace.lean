import Mathlib.Data.List.Chain
import DocGraph.Proofs.Run.Calls

namespace DocGraph

/-- What can be asked of a graph. -/
inductive Call where
  | addModule (name : String) (isPackage : Bool)
  | addClass (parent : EntityId) (name : String) (line : Nat)
  | addFunction (parent : EntityId) (name : String) (line : Nat)
  | addAttribute (parent : EntityId) (name : String) (kind : Option EntityKind) (line : Nat)
  | build (hooks : List Hook) (id : EntityId) (source : Except SourceError Module)
  | reexport (scope : EntityId) (exports : List String) (origin : EntityId) (name asName : String)
      (line : Nat)
  | move (id target : EntityId) (name : String)
  | finish

namespace Call

/-- The graph behind a call; one that is refused changes nothing. -/
def apply (g : Graph) : Call → Graph
  | .addModule name isPackage => ((g.addModule name isPackage).map Prod.fst).toOption.getD g
  | .addClass parent name line => (g.addClass parent name line).1
  | .addFunction parent name line => (g.addFunction parent name line).1
  | .addAttribute parent name kind line => (g.addAttribute parent name kind line).1
  | .build hooks id source => ((g.build hooks id source).map Prod.fst).toOption.getD g
  | .reexport scope exports origin name asName line =>
      (g.reexport scope exports origin name asName line).1
  | .move id target name => (g.move id target name).toOption.getD g
  | .finish => (g.finish.map Prod.fst).toOption.getD g

/-- What becomes of a call: it is refused, or answered by the graph behind it. -/
inductive Outcome (g : Graph) : Call → Graph → Prop
  | refused (call : Call) : Outcome g call g
  | addModule {name : String} {isPackage : Bool} {h : Graph} {id : EntityId}
      (added : g.addModule name isPackage = .ok (h, id)) : Outcome g (.addModule name isPackage) h
  | addClass (parent : EntityId) (name : String) (line : Nat) :
      Outcome g (.addClass parent name line) (g.addClass parent name line).1
  | addFunction (parent : EntityId) (name : String) (line : Nat) :
      Outcome g (.addFunction parent name line) (g.addFunction parent name line).1
  | addAttribute (parent : EntityId) (name : String) (kind : Option EntityKind) (line : Nat) :
      Outcome g (.addAttribute parent name kind line) (g.addAttribute parent name kind line).1
  | build {hooks : List Hook} {id : EntityId} {source : Except SourceError Module} {h : Graph} {state : BuildState}
      (built : g.build hooks id source = .ok (h, state)) : Outcome g (.build hooks id source) h
  | reexport (scope : EntityId) (exports : List String) (origin : EntityId) (name asName : String) (line : Nat) :
      Outcome g (.reexport scope exports origin name asName line)
        (g.reexport scope exports origin name asName line).1
  | move {id target : EntityId} {name : String} {h : Graph} (moved : g.move id target name = .ok h) :
      Outcome g (.move id target name) h
  | finish {h : Graph} {s : Summary} (finished : g.finish = .ok (h, s)) : Outcome g .finish h

theorem outcome_apply (call : Call) (g : Graph) : Outcome g call (call.apply g) := by
  have answered {α ε : Type} {result : Except ε (Graph × α)} (call : Call)
      (each : ∀ {h a}, result = .ok (h, a) → Outcome g call h) :
      Outcome g call ((result.map Prod.fst).toOption.getD g) := by
    cases result with
    | error refusal => exact .refused call
    | ok answer => exact each rfl
  cases call with
  | addModule name isPackage => exact answered _ .addModule
  | addClass parent name line => exact .addClass parent name line
  | addFunction parent name line => exact .addFunction parent name line
  | addAttribute parent name kind line => exact .addAttribute parent name kind line
  | build hooks id source => exact answered _ .build
  | reexport scope exports origin name asName line => exact .reexport scope exports origin name asName line
  | move id target name =>
      rw [apply]
      cases result : g.move id target name with
      | error refusal => exact .refused _
      | ok moved => exact .move result
  | finish => exact answered _ .finish

/-- The parents and scopes that a call names are in the graph, and its hooks leave the tree alone. -/
def Fits (g : Graph) : Call → Prop
  | .addClass parent _ _ => g.Has parent
  | .addFunction parent _ _ => g.Has parent
  | .addAttribute parent _ _ _ => g.Has parent
  | .build hooks _ _ => ∀ hook ∈ hooks, hook.Describes
  | .reexport scope _ _ _ _ _ => g.Has scope
  | .move _ target _ => g.Has target
  | _ => True

end Call

namespace Graph

variable {g h : Graph} {id : EntityId} {calls : List Call} {states : List Graph}

def run (g : Graph) (calls : List Call) : Graph := calls.foldl Call.apply g

/-- Each call fits the graph that it meets. -/
def Admits (g : Graph) : List Call → Prop
  | [] => True
  | call :: rest => call.Fits g ∧ (call.apply g).Admits rest

theorem admits_append {first second : List Call} :
    g.Admits (first ++ second) ↔ g.Admits first ∧ (g.run first).Admits second := by
  induction first generalizing g with
  | nil => exact (and_iff_right trivial).symm
  | cons call rest ih =>
      rw [List.cons_append, Admits, ih, Admits, and_assoc]
      rfl

theorem path_apply {call : Call} (sound : g.Sound) (fits : call.Fits g) : Path g (call.apply g) := by
  have outcome := call.outcome_apply g
  generalize call.apply g = h at outcome ⊢
  cases outcome with
  | refused => exact .refl g
  | addModule added => exact path_addModule added
  | addClass => exact path_addClass fits
  | addFunction => exact path_addFunction fits
  | addAttribute => exact path_addAttribute fits
  | build built => exact path_build fits sound built
  | reexport => exact path_reexport fits _ _ _ _ _
  | move moved => exact .one (.move fits moved)
  | finish finished =>
      obtain ⟨resumed, upgraded, linked, ordered, stages⟩ := finish_stages finished
      exact stages.path sound

theorem path_run (sound : g.Sound) (admits : g.Admits calls) : Path g (g.run calls) := by
  induction calls generalizing g with
  | nil => exact .refl g
  | cons call rest ih =>
      have first := path_apply sound admits.1
      exact first.trans (ih (first.sound sound) admits.2)

theorem run_induction {p : Graph → Prop} (sound : g.Sound) (linked : g.Linked) (admits : g.Admits calls)
    (step : ∀ {g call}, call ∈ calls → g.Sound → g.Linked → call.Fits g → p g → p (call.apply g)) (start : p g) :
    p (g.run calls) := by
  induction calls generalizing g with
  | nil => exact start
  | cons call rest ih =>
      have path := path_apply sound admits.1
      exact ih (path.sound sound) (path.linked linked) admits.2
        (fun later => step (List.mem_cons_of_mem _ later)) (step List.mem_cons_self sound linked admits.1 start)

/-- The states that a run goes through: each is one change away from the one before, and the graphs
behind the calls are among them, in order. -/
structure Trace (g : Graph) (calls : List Call) (states : List Graph) : Prop where
  chain : states.IsChain Change
  first : states.head? = some g
  last : states.getLast? = some (g.run calls)
  calls : (calls.scanl Call.apply g).Sublist states

theorem exists_trace (sound : g.Sound) (admits : g.Admits calls) : ∃ states, Trace g calls states := by
  induction calls generalizing g with
  | nil => exact ⟨[g], List.isChain_singleton g, rfl, rfl, List.Sublist.refl _⟩
  | cons call rest ih =>
      have path := path_apply sound admits.1
      obtain ⟨inner, chain, last⟩ := List.exists_isChain_cons_of_relationReflTransGen path
      obtain ⟨states, trace⟩ := ih (path.sound sound) admits.2
      have nonempty : states ≠ [] := by
        rintro rfl
        cases trace.first
      refine ⟨g :: inner ++ states, ?_, rfl, ?_, ?_⟩
      · refine chain.append trace.chain fun before atEnd behind atStart => ?_
        rw [List.getLast?_eq_some_getLast (by simp), last] at atEnd
        rw [trace.first] at atStart
        cases atEnd
        cases atStart
        exact .touch (.retouch (.refl _))
      · rw [List.getLast?_append_of_ne_nil _ nonempty, trace.last]
        rfl
      · rw [List.scanl_cons]
        exact (List.singleton_sublist.mpr (by simp)).append trace.calls

theorem Trace.exists_cons (trace : Trace g calls states) :
    ∃ rest, states = g :: rest ∧ (g :: rest).IsChain Change ∧
      (g :: rest).getLast (by simp) = g.run calls := by
  obtain ⟨rest, rfl⟩ := List.head?_eq_some_iff.mp trace.first
  refine ⟨rest, rfl, trace.chain, ?_⟩
  have last := trace.last
  rw [List.getLast?_eq_some_getLast (by simp)] at last
  exact Option.some.inj last

instance : Trans Path Path Path := ⟨Path.trans⟩

theorem Trace.pairwise (trace : Trace g calls states) : states.Pairwise Path :=
  (trace.chain.imp fun _ _ => Path.one).pairwise

theorem Trace.path_state (trace : Trace g calls states) {state : Graph} (member : state ∈ states) :
    Path g state := by
  obtain ⟨rest, rfl, _, _⟩ := trace.exists_cons
  rcases List.mem_cons.mp member with rfl | later
  · exact .refl _
  · exact List.rel_of_pairwise_cons trace.pairwise later

theorem Trace.path_last (trace : Trace g calls states) {state : Graph} (member : state ∈ states) :
    Path state (g.run calls) := by
  obtain ⟨rest, rfl, _, last⟩ := trace.exists_cons
  rw [← last]
  exact trace.pairwise.rel_getLast_of_rel_getLast_getLast member (.refl _)

theorem registered_of_chain {rest : List Graph} (chain : (g :: rest).IsChain Change) (sound : g.Sound)
    (registered : g.Registered none) (segmented : ∀ state ∈ g :: rest, state.Segmented) :
    ∀ state ∈ g :: rest, state.LockStep := by
  induction rest generalizing g with
  | nil =>
      intro state member
      rw [List.mem_singleton] at member
      exact member ▸ registered.lockStep sound (segmented g List.mem_cons_self)
  | cons next rest ih =>
      rw [List.isChain_cons_cons] at chain
      intro state member
      rcases List.mem_cons.mp member with rfl | later
      · exact registered.lockStep sound (segmented _ List.mem_cons_self)
      · have nextSegmented := segmented next (by simp)
        exact ih chain.2 (chain.1.sound sound) (chain.1.registered sound registered nextSegmented)
          (fun state among => segmented state (List.mem_cons_of_mem _ among)) state later

/-- A state of a run, from an empty graph and up to which no entity has a name with a dot in it. -/
def Attained (g : Graph) : Prop :=
  ∃ options calls before behind, (empty options).Admits calls ∧
    Trace (empty options) calls (before ++ g :: behind) ∧ ∀ state ∈ before ++ [g], state.Segmented

theorem Attained.segmented (attained : g.Attained) : g.Segmented := by
  obtain ⟨_, _, _, _, _, _, segmented⟩ := attained
  exact segmented g (by simp)

theorem Attained.lockStep (attained : g.Attained) : g.LockStep := by
  obtain ⟨options, calls, before, behind, _, trace, segmented⟩ := attained
  obtain ⟨rest, first⟩ : ∃ rest, before ++ [g] = empty options :: rest := by
    have first := trace.first
    cases before with
    | nil => exact ⟨[], by simpa using first⟩
    | cons state before => exact ⟨before ++ [g], by simpa using first⟩
  have chain : (before ++ [g]).IsChain Change := by
    have whole := trace.chain
    rw [List.append_cons] at whole
    exact whole.left_of_append
  rw [first] at chain segmented
  exact registered_of_chain chain (sound_empty options) (registered_empty options) segmented g
    (first ▸ List.mem_concat_self)

theorem attained_run {options : Options} (admits : (empty options).Admits calls)
    (dotless : (run (empty options) calls).Dotless) : (run (empty options) calls).Attained := by
  have sound := sound_empty options
  obtain ⟨states, trace⟩ := exists_trace sound admits
  obtain ⟨before, rfl⟩ := List.getLast?_eq_some_iff.mp trace.last
  refine ⟨options, calls, before, [], admits, trace, fun state member => ?_⟩
  exact (dotless.of_path ((trace.path_state member).sound sound) (trace.path_last member)).segmented

/-- How often an entity gets another parent. -/
def parentChanges (id : EntityId) : List Graph → Nat
  | before :: behind :: rest =>
      (if before.Has id ∧ (behind.entity id).parent ≠ (before.entity id).parent then 1 else 0)
        + parentChanges id (behind :: rest)
  | _ => 0

/-- An entity that has been moved keeps its parent, and any other changes it by its one move. -/
theorem parentChanges_le {rest : List Graph} (chain : (g :: rest).IsChain Change) (sound : g.Sound)
    (id : EntityId) :
    parentChanges id (g :: rest) ≤ if g.Has id ∧ (g.entity id).moved = true then 0 else 1 := by
  induction rest generalizing g with
  | nil => simp [parentChanges]
  | cons next rest ih =>
      rw [List.isChain_cons_cons] at chain
      have later := ih chain.2 (chain.1.sound sound)
      have bound : parentChanges id (next :: rest) ≤ 1 := later.trans (by split <;> omega)
      rw [parentChanges]
      by_cases inside : g.Has id
      · obtain ⟨nextInside, lasts⟩ := chain.1.lasts sound inside
        rcases lasts.place with ⟨parent, moved⟩ | ⟨before, behind⟩
        · rw [moved] at later
          simpa [parent, inside, nextInside] using later
        · have none : parentChanges id (next :: rest) = 0 := by
            simpa [nextInside, behind] using later
          rw [none]
          split <;> simp [before]
      · simpa [inside] using bound

theorem run_lockStep (options : Options) (calls : List Call) (admits : (empty options).Admits calls) :
    ((run (empty options) calls).Dotless → (run (empty options) calls).LockStep) ∧
      (∃ states, Trace (empty options) calls states) ∧
      ∀ states, Trace (empty options) calls states →
        ((∀ state ∈ states, state.Segmented) → ∀ state ∈ states, state.LockStep) ∧
        (∀ state ∈ states, ∀ id, state.Has id → (run (empty options) calls).Has id) ∧
        ∀ id, parentChanges id states ≤ 1 := by
  have sound := sound_empty options
  have registered := registered_empty options
  refine ⟨fun dotless => ?_, exists_trace sound admits, fun states trace => ?_⟩
  · exact (path_run sound admits).lockStep sound registered dotless
  · obtain ⟨rest, rfl, chain, _⟩ := trace.exists_cons
    refine ⟨registered_of_chain chain sound registered, fun state member id inside => ?_,
      fun id => (parentChanges_le chain sound id).trans (by split <;> omega)⟩
    exact (trace.path_last member).has ((trace.path_state member).sound sound) inside

/-- A class that is defined twice, with a method in the first definition; the second definition is then
moved to the module that exports it. -/
def duplicateMoved : List Call :=
  [.addModule "a" false, .addModule "b" false,
    .build Hook.standard ⟨0⟩ (.ok
      { body :=
          [.classDef { name := "X", line := 1 } [.function { name := "f", line := 2 } []],
            .classDef { name := "X", bases := [.name "X"], line := 3 } []] }),
    .build Hook.standard ⟨1⟩ (.ok
      { body :=
          [.assign [.name "__all__"] (.list [.str "X"]) none 1,
            .importFrom (some "a") [⟨"X", none⟩] 0 2] }),
    .finish]

theorem run_duplicateMoved_lockStep :
    (empty {}).Admits duplicateMoved ∧ (run (empty {}) duplicateMoved).Dotless ∧
      (run (empty {}) duplicateMoved).LockStep := by
  have admits : (empty {}).Admits duplicateMoved :=
    ⟨trivial, trivial, Hook.describes_standard, Hook.describes_standard, trivial, trivial⟩
  have dotless : (run (empty {}) duplicateMoved).Dotless := by decide +kernel
  exact ⟨admits, dotless, (run_lockStep {} duplicateMoved admits).1 dotless⟩

end Graph

end DocGraph
