import DocGraph.Proofs.Attributes.Straight

namespace DocGraph

open DocGraph.Graph

namespace Walk

open Assignment

variable {w : Walk} {name : String} {as : List Assignment} {stmt : Stmt} {next : Option Stmt} {attr : EntityId}

theorem reads_walkStmt {kind : Option EntityKind} {info : AttributeInfo} (inBuild : w.InStandardBuild)
    (straight : stmt.isBlock = false) (silent : stmt.assignments = []) (reads : w.graph.Reads attr kind info)
    (held : (walkStmt stmt next w).graph.IsParent w.module attr) :
    (walkStmt stmt next w).graph.Reads attr kind info := by
  have definition {body : List Stmt} (defines : stmt.isDefinition = true)
      (walked : walkStmt stmt next w = walkDefinition stmt (w.declared stmt) (walkBody body) w) :
      (walkStmt stmt next w).graph.Reads attr kind info := by
    have performs := Script.performs_ofBody body
    rw [walked] at held ⊢
    exact reads_walkDefinition inBuild performs.made defines reads held performs.reads
  cases defines : stmt.isDefinition with
  | true =>
      cases stmt with
      | classDef head body | function head body => exact definition rfl (by rw [walkStmt]; rfl)
      | _ => cases defines
  | false =>
      have handled := inBuild.handle stmt next
      have intact : Intact (fun _ => False) w.graph (w.handle stmt next).graph :=
        intact_handle_of_assignments w silent next
      have targets : Hook.targetsOf stmt = [] := by
        rw [List.eq_nil_iff_forall_not_mem]
        intro target among
        obtain ⟨a, assigned⟩ := mem_assignments_of_targetsOf among
        simp [silent] at assigned
      rw [walkStmt_plain defines straight, depart_standard (handled.visit stmt).hooks, visit_standard handled.hooks,
        targets]
      exact reads.intact intact fun none => none

/-- What the module binds to a name. -/
def bindingOf? (w : Walk) (name : String) : Option EntityId := (w.graph.entity w.module).contents.get? name

/-- The assignments to a name that count behind a statement. If the statement has taken away what the name was
bound to, as an import does that re-exports it under another name, those before it count no more. -/
def counting (w : Walk) (name : String) (as : List Assignment) (stmt : Stmt) (next : Option Stmt) : List Assignment :=
  if (w.bindingOf? name).isSome && ((walkStmt stmt next w).bindingOf? name).isNone then []
  else as ++ assignmentsTo name stmt.assignments

/-- If the statement binds the name, it is by assigning literals to it, and none of the hints that the name has
been given up to then is a marker. -/
structure AssignsOnly (w : Walk) (name : String) (as : List Assignment) (stmt : Stmt) (next : Option Stmt) :
    Prop where
  straight : stmt.isBlock = false
  binds : stmt.assignments.isEmpty = true →
    (walkStmt stmt next w).bindingOf? name = none ∨ (walkStmt stmt next w).bindingOf? name = w.bindingOf? name
  literal : ∀ a ∈ assignmentsTo name stmt.assignments, a.value.all Expr.isLiteral = true
  unmarked : (assignmentsTo name stmt.assignments).isEmpty = false →
    ∀ u ∈ between next stmt.assignments w, u.graph.NoMarkers w.module (as ++ assignmentsTo name stmt.assignments)

instance (w : Walk) (name : String) (as : List Assignment) (stmt : Stmt) (next : Option Stmt) :
    Decidable (w.AssignsOnly name as stmt next) :=
  decidable_of_iff (stmt.isBlock = false ∧ (stmt.assignments.isEmpty = true →
      (walkStmt stmt next w).bindingOf? name = none ∨ (walkStmt stmt next w).bindingOf? name = w.bindingOf? name) ∧
    (∀ a ∈ assignmentsTo name stmt.assignments, a.value.all Expr.isLiteral = true) ∧
    ((assignmentsTo name stmt.assignments).isEmpty = false → ∀ u ∈ between next stmt.assignments w,
      u.graph.NoMarkers w.module (as ++ assignmentsTo name stmt.assignments))) (by
    constructor
    · rintro ⟨straight, binds, literal, unmarked⟩
      exact ⟨straight, binds, literal, unmarked⟩
    · intro only
      exact ⟨only.straight, only.binds, only.literal, only.unmarked⟩)

theorem unhinted_of_augmented {item : Expr × Assignment} (among : item ∈ stmt.assignments)
    (augmented : item.2.isBinding = false) : item.2.hint = none := by
  cases stmt with
  | assign targets =>
      obtain ⟨target, _, rfl⟩ := List.mem_map.mp among
      cases augmented
  | annAssign =>
      rw [List.mem_singleton.mp among] at augmented
      cases augmented
  | augAssign => rw [List.mem_singleton.mp among]
  | _ => cases among

theorem AssignsOnly.simple (only : w.AssignsOnly name as stmt next) :
    ∀ a ∈ assignmentsTo name stmt.assignments, a.Simple := by
  intro a among
  refine ⟨fun value given => ?_, ?_⟩
  · have literal := only.literal a among
    rw [Option.mem_def.mp given] at literal
    exact literal
  · obtain ⟨item, listed, found⟩ := List.mem_filterMap.mp among
    split at found
    · cases found
      exact unhinted_of_augmented listed
    · cases found

section walkStmt

variable (top : w.AtTop) (reflects : Reflects w.module name as w.graph) (only : w.AssignsOnly name as stmt next)

include top reflects only

theorem reflects_walkStmt_silent (silent : stmt.assignments = []) :
    Reflects w.module name (w.counting name as stmt next) (walkStmt stmt next w).graph := by
  have walks : Walks (.any True) w (walkStmt stmt next w) := made_walkStmt stmt (fun _ => trivial) next w
  have behind := (top.walks walks).inBuild.valid.sound
  have kept := only.binds (by simp [silent])
  have none : assignmentsTo name stmt.assignments = [] := by simp [silent, assignmentsTo]
  simp only [counting, bindingOf?, walks.framed.module, none, List.append_nil] at kept ⊢
  split
  · rename_i taken
    rw [Bool.and_eq_true, Option.isNone_iff_eq_none] at taken
    exact ⟨by simp, fun _ => taken.2, by simp⟩
  · rename_i there
    have same : ((walkStmt stmt next w).graph.entity w.module).contents.get? name =
        (w.graph.entity w.module).contents.get? name := by
      rcases kept with gone | same
      · have before : (w.graph.entity w.module).contents.get? name = Option.none := by simpa [gone] using there
        rw [gone, before]
      · exact same
    refine reflects_of_reads reflects same fun bound reads => ?_
    exact reads_walkStmt top.inBuild only.straight silent reads (behind.tabled.bound (same.trans bound)).1

theorem reflects_walkStmt (listed : name ∉ metaNames) :
    Reflects w.module name (w.counting name as stmt next) (walkStmt stmt next w).graph := by
  by_cases silent : stmt.assignments = []
  · exact reflects_walkStmt_silent top reflects only silent
  · have plain : stmt.isDefinition = false := by
      cases stmt with
      | classDef | function => exact absurd rfl silent
      | _ => rfl
    have handles : Walks (.any True) w (w.handle stmt next) := walks_handle w (fun _ => trivial) next
    have module := handles.framed.module
    have topHandled := top.walks handles
    have told := told_visit topHandled.inBuild.hooks stmt
    have walked : walkStmt stmt next w = (w.handle stmt next).visit stmt := by
      rw [walkStmt_plain plain only.straight, depart_standard (topHandled.inBuild.visit stmt).hooks]
    have unmarked (some : assignmentsTo name stmt.assignments ≠ []) := only.unmarked (by simpa using some)
    -- Nothing that is bound is taken away, so that all assignments count.
    have kept : w.counting name as stmt next = as ++ assignmentsTo name stmt.assignments := by
      refine if_neg ?_
      rw [Bool.and_eq_true, Option.isSome_iff_exists, walked, bindingOf?, bindingOf?]
      rintro ⟨⟨attr, bound⟩, gone⟩
      change (((w.handle stmt next).visit stmt).graph.entity (w.handle stmt next).module).contents.get? name |>.isNone
        at gone
      rw [module, (told.entity w.module).contents, (stores_handle top.inBuild silent next).bound bound] at gone
      cases gone
    have handled : Reflects w.module name (as ++ assignmentsTo name stmt.assignments) (w.handle stmt next).graph := by
      rw [handle_eq_foldl w silent]
      exact reflects_foldl top listed stmt.assignments reflects only.simple unmarked
    rw [kept, walked]
    rw [← module] at handled ⊢
    refine reflects_visit topHandled handled fun some => ?_
    rw [module, handle_eq_foldl w silent]
    exact unmarked some _ (foldl_mem_between _ _ _)

end walkStmt

/-- The assignments to a name that count behind a body. -/
def countingAlong (name : String) : List Assignment → List Stmt → Walk → List Assignment
  | as, [], _ => as
  | as, stmt :: rest, w =>
      countingAlong name (w.counting name as stmt rest.head?) rest (walkStmt stmt rest.head? w)

/-- All along a body the name is bound by assignments only, and none of its hints is a marker at the end. -/
def OnlyAssigned (name : String) : List Assignment → List Stmt → Walk → Prop
  | as, [], w => w.graph.NoMarkers w.module as
  | as, stmt :: rest, w =>
      w.AssignsOnly name as stmt rest.head? ∧
        OnlyAssigned name (w.counting name as stmt rest.head?) rest (walkStmt stmt rest.head? w)

instance decidableOnlyAssigned (name : String) : (as : List Assignment) → (body : List Stmt) → (w : Walk) →
    Decidable (OnlyAssigned name as body w)
  | as, [], w => inferInstanceAs (Decidable (w.graph.NoMarkers w.module as))
  | as, stmt :: rest, w =>
      have := decidableOnlyAssigned name (w.counting name as stmt rest.head?) rest (walkStmt stmt rest.head? w)
      inferInstanceAs (Decidable (_ ∧ _))

theorem reflects_walkBody (listed : name ∉ metaNames) (body : List Stmt) (top : w.AtTop)
    (reflects : Reflects w.module name as w.graph) (only : OnlyAssigned name as body w) :
    Reflects w.module name (countingAlong name as body w) (walkBody body w).graph ∧
      (walkBody body w).graph.NoMarkers w.module (countingAlong name as body w) := by
  induction body generalizing w as with
  | nil =>
      rw [walkBody, countingAlong]
      exact ⟨reflects, only⟩
  | cons stmt rest ih =>
      have walks : Walks (.any True) w (walkStmt stmt rest.head? w) := made_walkStmt stmt (fun _ => trivial) rest.head? w
      have stepped := reflects_walkStmt top reflects only.1 listed
      rw [← walks.framed.module] at stepped
      have later := ih (top.walks walks) stepped only.2
      rw [walkBody, countingAlong]
      rwa [walks.framed.module] at later

/-- When the module is left, what has no hint is given that of its value. -/
theorem reads_leave (top : w.AtTop) (reflects : Reflects w.module name as w.graph)
    (unmarked : w.graph.NoMarkers w.module as) {a : Assignment} (among : a ∈ as) (binds : a.isBinding = true) :
    ∃ attr, w.bindingOf? name = some attr ∧ (w.leave w.module).graph.Reads attr (some (kindOf name as))
      { hint := (lastHint as).or ((lastValue as).bind Expr.inferType?), value := lastValue as } := by
  have valid := top.inBuild.valid
  obtain ⟨attr, bound, reads⟩ := reflects.bound a among binds
  have held := (valid.sound.tabled.bound bound).1
  have plain := ((noMarkers_member valid.sound held reads.type as).mpr unmarked).last
  have listed : attr ∈ w.graph.attributesOf w.module :=
    List.mem_filter.mpr ⟨(valid.sound.tabled.listed _).mem_ids.mpr ⟨name, bound⟩, by simp [reads.type]⟩
  refine ⟨attr, bound, ?_⟩
  unfold leave
  dsimp only
  rw [if_pos (by simp [Entity.isContainer, valid.module])]
  exact reads.settle (Bool.or_eq_false_iff.mp plain).1 listed

section top

variable {options : Options} {calls : List Call} {module : EntityId} (admits : (empty options).Admits calls)
  (unbuilt : (run (empty options) calls).moduleState? module = some .notProcessed) (tree : Module)

include admits unbuilt

theorem atTop_top : (top (run (empty options) calls) module tree).AtTop :=
  ⟨(reached_top admits unbuilt tree).inBuild, rfl, rfl, rfl⟩

omit admits unbuilt in
theorem bindingOf?_top (g : Graph) (name : String) :
    (top g module tree).bindingOf? name = (g.entity module).contents.get? name := by
  have told := told_documented (opening g Hook.standard module tree) tree.body
  have noted := noted_metadata g module tree.body
  change (((opening g Hook.standard module tree).documented tree.body).entity module).contents.get? name = _
  rw [(told.entity module).contents]
  exact congrArg (·.get? name) (noted.retouched.entity module).contents

/-- What a module leaves of a name that it only assigns. -/
theorem build_countingAlong (listed : name ∉ metaNames)
    (free : ((run (empty options) calls).entity module).contents.get? name = none)
    (only : OnlyAssigned name [] tree.body (top (run (empty options) calls) module tree)) :
    let as := countingAlong name [] tree.body (top (run (empty options) calls) module tree)
    ∃ h, (run (empty options) calls).build Hook.standard module (.ok tree) = .ok (h, .processed) ∧
      ((∀ a ∈ as, a.isBinding = false) → (h.entity module).contents.get? name = none) ∧
      ∀ a ∈ as, a.isBinding = true → ∃ attr, (h.entity module).contents.get? name = some attr ∧
        h.Reads attr (some (kindOf name as))
          { hint := (lastHint as).or ((lastValue as).bind Expr.inferType?), value := lastValue as } := by
  intro as
  have atTop := atTop_top admits unbuilt tree
  let w := top (run (empty options) calls) module tree
  have start : Reflects w.module name [] w.graph := by
    refine ⟨by simp, fun _ => ?_, by simp⟩
    exact (bindingOf?_top tree (run (empty options) calls) name).trans free
  obtain ⟨reflects, unmarked⟩ := reflects_walkBody listed tree.body atTop start only
  have walks : Walks (.any True) w (walkBody tree.body w) := (Script.performs_ofBody tree.body).made w
  have last := atTop.walks walks
  rw [← walks.framed.module] at reflects unmarked
  obtain ⟨h, built, intact, tables⟩ := build_settled unbuilt tree
  have entry : (h.entity module).contents.get? name = (walkBody tree.body w).bindingOf? name := by
    rw [tables, bindingOf?, walks.framed.module]
    exact congrArg (·.get? name) ((told_leave (walkBody tree.body w) module).entity module).contents
  refine ⟨h, built, fun augmented => ?_, fun a among binds => ?_⟩
  · exact entry.trans (reflects.unbound augmented)
  · obtain ⟨attr, bound, reads⟩ := reads_leave last reflects unmarked among binds
    rw [walks.framed.module] at reads
    exact ⟨attr, entry.trans bound, reads.intact intact fun none => none⟩

end top

end Walk

namespace Graph

open Walk Assignment

section build

variable {options : Options} {calls : List Call} {module : EntityId} {name : String}

/-- In a straight-line module, a name that is only assigned ends with the last value it is given, combined with the
operands of all augmented assignments behind it, and with its last hint or else that of the value. It ends
unbound just if nothing but augmented assignments has come. Behind a re-export that takes it away the name
begins anew. -/
theorem build_name_keeps_last_value (admits : (empty options).Admits calls)
    (unbuilt : (run (empty options) calls).moduleState? module = some .notProcessed) (tree : Module)
    (listed : name ∉ metaNames) (free : ((run (empty options) calls).entity module).contents.get? name = none)
    (only : OnlyAssigned name [] tree.body (top (run (empty options) calls) module tree)) :
    let as := countingAlong name [] tree.body (top (run (empty options) calls) module tree)
    ∃ h, (run (empty options) calls).build Hook.standard module (.ok tree) = .ok (h, .processed) ∧
      ((h.entity module).contents.get? name = none ↔ ∀ a ∈ as, a.isBinding = false) ∧
      ∀ attr, (h.entity module).contents.get? name = some attr → ∃ info, (h.entity attr).attribute? = some info ∧
        info.value = lastValue as ∧ info.hint = (lastHint as).or ((lastValue as).bind Expr.inferType?) := by
  intro as
  obtain ⟨h, built, unbound, bound⟩ := build_countingAlong admits unbuilt tree listed free only
  by_cases augmented : ∀ a ∈ as, a.isBinding = false
  · refine ⟨h, built, iff_of_true (unbound augmented) augmented, fun attr entry => ?_⟩
    rw [unbound augmented] at entry
    cases entry
  · simp only [not_forall, Bool.not_eq_false] at augmented
    obtain ⟨a, among, binds⟩ := augmented
    obtain ⟨attr, entry, reads⟩ := bound a among binds
    have some : ¬ ∀ a ∈ as, a.isBinding = false := fun all => by simp [all a among] at binds
    refine ⟨h, built, iff_of_false (by simp [entry]) some, fun other found => ?_⟩
    cases entry.symm.trans found
    exact ⟨_, reads.info, rfl, rfl⟩

end build

/-- Assignments to `x` among other statements. What the first one makes is taken away by a re-export. -/
def reassigned : Module where
  body :=
    [.assign [.name "__all__"] (.list [.str "y"]) none 1,
      .assign [.name "x"] (.constant (.int 0)) none 2,
      .importFrom (some "m") [⟨"x", some "y"⟩] 0 3,
      .augAssign (.name "x") .add (.constant (.int 5)) 4,
      .annAssign (.name "x") (.str "int") none 5,
      .assign [.name "z", .name "x"] (.constant (.int 1)) none 6,
      .classDef { name := "C", line := 7 } [.assign [.name "x"] (.constant (.int 7)) none 8],
      .augAssign (.name "x") .add (.constant (.int 2)) 9,
      .augAssign (.name "x") .mult (.constant (.int 3)) 10]

theorem build_reassigned_value :
    (countingAlong "x" [] reassigned.body (top (run (empty {}) [.addModule "m" false]) ⟨0⟩ reassigned)).map
        Assignment.line = [4, 5, 6, 9, 10] ∧
      ∃ h attr info, (run (empty {}) [.addModule "m" false]).build Hook.standard ⟨0⟩ (.ok reassigned) =
          .ok (h, .processed) ∧
        (h.entity ⟨0⟩).contents.get? "x" = some attr ∧ (h.entity attr).attribute? = some info ∧
        info.value.map Expr.render = some "(1 + 2) * 3" ∧ info.hint.map Expr.render = some "int" := by
  have unbuilt : (run (empty {}) [.addModule "m" false]).moduleState? ⟨0⟩ = some .notProcessed := by decide +kernel
  have admits : (empty {}).Admits [.addModule "m" false] := ⟨trivial, trivial⟩
  obtain ⟨h, built, unbound, bound⟩ := build_name_keeps_last_value admits unbuilt reassigned
    (by decide : "x" ∉ metaNames) (by decide +kernel) (by decide +kernel)
  have binding : ¬ ∀ a ∈ countingAlong "x" [] reassigned.body
      (top (run (empty {}) [.addModule "m" false]) ⟨0⟩ reassigned), a.isBinding = false := by decide +kernel
  obtain ⟨attr, entry⟩ := Option.ne_none_iff_exists'.mp (mt unbound.mp binding)
  obtain ⟨info, stored, value, hint⟩ := bound attr entry
  refine ⟨by decide +kernel, h, attr, info, built, entry, stored, ?_, ?_⟩
  · rw [value]
    decide +kernel
  · rw [hint]
    decide +kernel

/-- An attribute that its own module re-exports under another name. -/
def ownReexport : Module where
  body :=
    [.assign [.name "__all__"] (.list [.str "y"]) none 1,
      .assign [.name "x"] (.constant (.int 1)) none 2,
      .importFrom (some "m") [⟨"x", some "y"⟩] 0 3]

/-- Nothing but one assignment of a literal binds `x`, and it ends unbound. -/
theorem build_ownReexport_unbound :
    (∀ stmt ∈ ownReexport.body, stmt.isBlock = false ∧ stmt.isDefinition = false) ∧
      (ownReexport.body.flatMap fun stmt => assignmentsTo "x" stmt.assignments).map
          (fun a => (a.isBinding, a.hint.isSome, a.value.map Expr.isLiteral)) = [(true, false, some true)] ∧
      ((run (empty {}) [.addModule "m" false]).entity ⟨0⟩).contents.get? "x" = none ∧
      ((run (empty {}) [.addModule "m" false]).build Hook.standard ⟨0⟩ (.ok ownReexport)).toOption.map
          (fun built => (built.1.entity ⟨0⟩).contents.get? "x") = some none := by
  refine ⟨?_, ?_, ?_, ?_⟩ <;> decide +kernel

section build

variable {options : Options} {calls : List Call} {module : EntityId} {name : String}

/-- In a straight-line module, a name in capitals that is only assigned is a constant just if its last assignment
has a value and no other has. -/
theorem build_constant_iff_last_value_only (admits : (empty options).Admits calls)
    (unbuilt : (run (empty options) calls).moduleState? module = some .notProcessed) (tree : Module)
    (upper : Text.isUpper name = true) (free : ((run (empty options) calls).entity module).contents.get? name = none)
    (only : OnlyAssigned name [] tree.body (top (run (empty options) calls) module tree)) :
    let as := countingAlong name [] tree.body (top (run (empty options) calls) module tree)
    (∀ a ∈ as, a.isBinding = true) → (∃ a ∈ as, a.value.isSome = true) →
    ∃ h attr, (run (empty options) calls).build Hook.standard module (.ok tree) = .ok (h, .processed) ∧
      (h.entity module).contents.get? name = some attr ∧
      ((h.entity attr).kind = some .constant ∨ (h.entity attr).kind = some .variable) ∧
      ((h.entity attr).kind = some .constant ↔
        ∃ before a, as = before ++ [a] ∧ a.value.isSome = true ∧ ∀ b ∈ before, b.value = none) := by
  intro as binding valued
  have listed : name ∉ metaNames := by
    intro among
    have lower : ∀ name ∈ metaNames, Text.isUpper name = false := by decide +kernel
    rw [lower name among] at upper
    cases upper
  obtain ⟨a, among, _⟩ := valued
  obtain ⟨h, built, _, bound⟩ := build_countingAlong admits unbuilt tree listed free only
  obtain ⟨attr, entry, reads⟩ := bound a among (binding a among)
  refine ⟨h, attr, built, entry, ?_⟩
  rw [reads.kind, ← givesConstant_iff binding, kindOf, upper, Bool.true_and]
  cases givesConstant as <;> simp

end build

/-- A name in capitals that is declared before it is given its value. -/
def declaredFirst : Module where
  body :=
    [.annAssign (.name "N") (.name "int") none 1,
      .classDef { name := "C", line := 2 } [.assign [.name "N"] (.constant (.int 5)) none 3],
      .assign [.name "N"] (.constant (.int 1)) none 4]

theorem build_declaredFirst_constant :
    ∃ h attr, (run (empty {}) [.addModule "m" false]).build Hook.standard ⟨0⟩ (.ok declaredFirst) =
        .ok (h, .processed) ∧
      (h.entity ⟨0⟩).contents.get? "N" = some attr ∧ (h.entity attr).kind = some .constant := by
  have unbuilt : (run (empty {}) [.addModule "m" false]).moduleState? ⟨0⟩ = some .notProcessed := by decide +kernel
  have admits : (empty {}).Admits [.addModule "m" false] := ⟨trivial, trivial⟩
  obtain ⟨h, attr, built, entry, _, constant⟩ := build_constant_iff_last_value_only admits unbuilt declaredFirst
    (by decide +kernel : Text.isUpper "N" = true) (by decide +kernel) (by decide +kernel) (by decide +kernel)
    (by decide +kernel)
  refine ⟨h, attr, built, entry, constant.mpr ?_⟩
  exact ⟨_, _, rfl, rfl, by decide +kernel⟩

/-- The same name, declared behind its value. -/
def declaredLast : Module where
  body :=
    [.assign [.name "N"] (.constant (.int 1)) none 1, .annAssign (.name "N") (.name "int") none 2]

/-- One of the two statements has a value, and `N` is no constant. -/
theorem build_declaredLast_variable :
    Text.isUpper "N" = true ∧
      (declaredLast.body.flatMap fun stmt => assignmentsTo "N" stmt.assignments).map
          (fun a => (a.isBinding, a.value.map Expr.isLiteral)) = [(true, some true), (true, none)] ∧
      OnlyAssigned "N" [] declaredLast.body (top (run (empty {}) [.addModule "m" false]) ⟨0⟩ declaredLast) ∧
      ((run (empty {}) [.addModule "m" false]).build Hook.standard ⟨0⟩ (.ok declaredLast)).toOption.map
          (fun built => ((built.1.entity ⟨0⟩).contents.get? "N").map fun attr => (built.1.entity attr).kind) =
        some (some (some .variable)) := by
  refine ⟨?_, ?_, ?_, ?_⟩ <;> decide +kernel

end Graph

end DocGraph
