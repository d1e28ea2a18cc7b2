import DocGraph.Proofs.Attributes.Guarded
import DocGraph.Proofs.Attributes.Recorded

namespace DocGraph

namespace Graph

variable {g h : Graph} {attr : EntityId} {kind : EntityKind} {info : AttributeInfo}

/-- A final marker has made the attribute a constant at some time. -/
def Explicit (g : Graph) (attr : EntityId) : Prop :=
  (g.entity attr).kind.isSome = true ∧ (g.entity attr).attribute?.any AttributeInfo.explicitKind = true

instance (g : Graph) (attr : EntityId) : Decidable (g.Explicit attr) := inferInstanceAs (Decidable (_ ∧ _))

/-- It is still one. -/
def Sealed (g : Graph) (attr : EntityId) : Prop := g.Explicit attr ∧ (g.entity attr).kind = some .constant

instance (g : Graph) (attr : EntityId) : Decidable (g.Sealed attr) := inferInstanceAs (Decidable (_ ∧ _))

theorem Explicit.reads (explicit : g.Explicit attr) :
    ∃ kind info, g.Reads attr (some kind) info ∧ info.explicitKind = true := by
  obtain ⟨kind, stored⟩ := Option.isSome_iff_exists.mp explicit.1
  obtain ⟨info, found, marked⟩ := (Option.any_eq_true _ _).mp explicit.2
  refine ⟨kind, info, ⟨?_, stored, found⟩, marked⟩
  -- What is not there has no mark.
  by_contra missing
  rw [g.entity_of_not_has missing] at found
  cases found
  cases marked

theorem Reads.explicit (reads : g.Reads attr (some kind) info) (marked : info.explicitKind = true) :
    g.Explicit attr :=
  ⟨by rw [reads.kind]; rfl, by rw [reads.info]; exact marked⟩

theorem Reads.sealed_iff (reads : g.Reads attr (some kind) info) (marked : info.explicitKind = true) :
    g.Sealed attr ↔ kind = .constant := by
  refine ⟨fun stored => ?_, fun constant => ⟨reads.explicit marked, constant ▸ reads.kind⟩⟩
  exact Option.some.inj (reads.kind.symm.trans stored.2)

theorem Explicit.intact {about : EntityId → Prop} (explicit : g.Explicit attr) (intact : Intact about g h)
    (apart : ¬ about attr) : h.Explicit attr ∧ (h.Sealed attr ↔ g.Sealed attr) := by
  obtain ⟨kind, info, reads, marked⟩ := explicit.reads
  have behind := reads.intact intact apart
  exact ⟨behind.explicit marked, by rw [behind.sealed_iff marked, reads.sealed_iff marked]⟩

/-- No assignment that is recorded ends a constant by a final marker. -/
theorem Reads.recordAttribute_explicit (reads : g.Reads attr (some kind) info) (marked : info.explicitKind = true)
    (a : Assignment) (inFlow : Bool) (usual : EntityKind) :
    ∃ kind' info', (g.recordAttribute attr a inFlow usual).Reads attr (some kind') info' ∧
      info'.explicitKind = true ∧ (kind' = .constant ∨ kind' = kind) := by
  have recorded := reads.recordAttribute a inFlow usual
  unfold constancy at recorded
  simp only [marked, not_true_eq_false, false_and, and_false, if_false] at recorded
  split at recorded
  · exact ⟨_, _, recorded, rfl, .inl rfl⟩
  · exact ⟨_, _, recorded, rfl, .inr rfl⟩

theorem Reads.assignMember (reads : g.Reads attr (some kind) info) (a : Assignment) :
    (((g.recordHint attr a).modify attr (Entity.setKind .instanceVariable)).recordValue attr a).Reads attr
      (some .instanceVariable)
      { info with hint := a.hint.or info.hint, value := assignedValue info.value a } :=
  ((reads.recordHint a).setKind .instanceVariable).recordValue a

end Graph

open DocGraph.Graph

namespace Walk

variable {w : Walk} {attr : EntityId} {stmt : Stmt} {kind : EntityKind} {info : AttributeInfo}

theorem Claims.not_container {target : Expr} {a : Assignment} (claims : w.Claims attr target a) :
    w.scope.isContainer = false := by
  obtain ⟨_, _, _, _, method, _⟩ := claims.member
  unfold methodClass? at method
  split at method
  · rename_i function
    rw [Entity.isContainer, function]
    rfl
  · cases method

theorem isContainer_of_walks {v : Walk} (inBuild : w.InStandardBuild) (walks : Walks (.any True) w v) :
    v.scope.isContainer = w.scope.isContainer := by
  have valid := inBuild.valid
  rw [Walk.scope, walks.framed.current, Entity.isContainer,
    ((walks.path valid).lasts valid.sound valid.has_current).2.type]
  rfl

/-- One assignment keeps the mark and the kind, or makes a constant again, or claims the attribute. -/
theorem assignNext_explicit (reads : w.graph.Reads attr (some kind) info) (marked : info.explicitKind = true)
    (next : Option Stmt) (item : Expr × Assignment) :
    ∃ kind' info', (assignNext next w item).graph.Reads attr (some kind') info' ∧ info'.explicitKind = true ∧
      (¬ w.Claims attr item.1 item.2 ∧ kind' = kind ∨ w.scope.isContainer = true ∧ kind' = .constant ∨
        w.Claims attr item.1 item.2 ∧ kind' = .instanceVariable) := by
  have behind {kind : Option EntityKind} {info : AttributeInfo} :
      (w.assign item.1 item.2).1.Reads attr kind info → (assignNext next w item).graph.Reads attr kind info :=
    fun reads => reads_assignNext reads next
  have affects := affects_assign reads item.1 item.2
  generalize (w.assign item.1 item.2).1 = h at affects behind
  cases affects with
  | none unclaimed same => exact ⟨kind, info, behind same, marked, .inl ⟨unclaimed, rfl⟩⟩
  | recorded container usual =>
      obtain ⟨kind', info', recorded, still, kept⟩ := reads.recordAttribute_explicit marked item.2 w.inFlow usual
      refine ⟨kind', info', behind recorded, still, ?_⟩
      rcases kept with constant | same
      · exact .inr (.inl ⟨container, constant⟩)
      · refine .inl ⟨fun claims => ?_, same⟩
        rw [claims.not_container] at container
        cases container
  | claimed claims => exact ⟨_, _, behind (reads.assignMember item.2), marked, .inr (.inr ⟨claims, rfl⟩)⟩

/-- The targets of a statement keep the mark. A constant is lost if one of them claims the attribute, and it
is not won back, since they are all walked in a method then. -/
theorem foldl_explicit (inBuild : w.InStandardBuild) (reads : w.graph.Reads attr (some kind) info)
    (marked : info.explicitKind = true) (next : Option Stmt) (items : List (Expr × Assignment)) :
    ∃ kind' info', (items.foldl (assignNext next) w).graph.Reads attr (some kind') info' ∧
      info'.explicitKind = true ∧
      (kind = .constant → (kind' = .constant ↔ ¬ ∃ item ∈ items, w.Claims attr item.1 item.2)) ∧
      (w.scope.isContainer = false → kind ≠ .constant → kind' ≠ .constant) := by
  induction items generalizing w kind info with
  | nil => exact ⟨kind, info, reads, marked, by simp, fun _ lost => lost⟩
  | cons item rest ih =>
      have walks := walks_assignNext next w item
      obtain ⟨kind₁, info₁, first, marked₁, outcome⟩ := assignNext_explicit reads marked next item
      obtain ⟨kind', info', last, marked', kept, lost⟩ := ih (inBuild.walks walks) first marked₁
      rw [isContainer_of_walks inBuild walks] at lost
      simp only [claims_assignNext inBuild reads.has] at kept
      refine ⟨kind', info', last, marked', fun constant => ?_, fun closed other => ?_⟩
      · rcases outcome with ⟨unclaimed, same⟩ | ⟨container, same⟩ | ⟨claims, same⟩
        · rw [kept (same.trans constant)]
          simp [unclaimed]
        · have unclaimed : ¬ w.Claims attr item.1 item.2 := fun claims => by
            rw [claims.not_container] at container
            cases container
          rw [kept same]
          simp [unclaimed]
        · have away := lost claims.not_container (by rw [same]; decide)
          simp [away, claims]
      · refine lost closed ?_
        rcases outcome with ⟨_, same⟩ | ⟨container, _⟩ | ⟨_, same⟩
        · rwa [same]
        · rw [closed] at container
          cases container
        · rw [same]
          decide

/-- The graph behind a statement, once it has been shown to the hooks, the statements inside it apart. -/
def passed (w : Walk) (stmt : Stmt) (next : Option Stmt) : Graph :=
  ({ w with graph := w.recorded stmt next }.visit stmt).graph

theorem passed_plain (other : stmt.isDefinition = false) (next : Option Stmt) :
    w.passed stmt next = ((w.handle stmt next).visit stmt).graph := by
  have walks : Walks (.any True) w (w.handle stmt next) := walks_handle w (fun _ => trivial) next
  rw [passed, recorded, if_neg (by simp [other]), ← walks.eq_graph]

theorem passed_definition (inBuild : w.InStandardBuild) (defines : stmt.isDefinition = true) (next : Option Stmt) :
    w.passed stmt next = (w.declared stmt).1 := by
  rw [passed, recorded, if_pos defines, visit_definition (inBuild.declared stmt).hooks defines]

/-- The statement makes something else than a constant of an attribute: it claims it in a method, or it gives
it a value that is a type. -/
def Reclassifies (w : Walk) (attr : EntityId) (stmt : Stmt) (next : Option Stmt) : Prop :=
  (∃ item ∈ stmt.assignments, w.Claims attr item.1 item.2) ∨
    attr ∈ w.addressed stmt ∧
      ((w.handle stmt next).graph.isTypeAlias attr = true ∨ (w.handle stmt next).graph.isTypeVariable attr = true)

theorem assignments_ne_nil (targets : Hook.targetsOf stmt ≠ []) : stmt.assignments ≠ [] := by
  cases stmt with
  | assign => simpa [Stmt.assignments, Hook.targetsOf] using targets
  | annAssign => simp [Stmt.assignments]
  | _ => exact absurd rfl targets

theorem addressed_handle (inBuild : w.InStandardBuild) (inside : w.graph.Has attr) (stmt : Stmt) (next : Option Stmt) :
    attr ∈ (w.handle stmt next).addressed stmt ↔ attr ∈ w.addressed stmt := by
  have framed := (walks_handle w (fun _ => trivial) next : Walks (.any True) w (w.handle stmt next)).framed
  by_cases assigns : Hook.targetsOf stmt = []
  · simp [addressed, assigns, named]
  · have stores := stores_handle inBuild (assignments_ne_nil assigns) next
    simp only [addressed, named, List.mem_filterMap, Option.bind_eq_some_iff, framed.current]
    constructor
    · rintro ⟨target, among, name, named, bound⟩
      exact ⟨target, among, name, named, stores.known bound inside⟩
    · rintro ⟨target, among, name, named, bound⟩
      exact ⟨target, among, name, named, stores.bound bound⟩

theorem handle_explicit (inBuild : w.InStandardBuild) (reads : w.graph.Reads attr (some kind) info)
    (marked : info.explicitKind = true) (stmt : Stmt) (next : Option Stmt) :
    ∃ kind' info', (w.handle stmt next).graph.Reads attr (some kind') info' ∧ info'.explicitKind = true ∧
      (kind = .constant → (kind' = .constant ↔ ¬ ∃ item ∈ stmt.assignments, w.Claims attr item.1 item.2)) := by
  by_cases assigns : stmt.assignments = []
  · have intact : Intact (fun _ => False) w.graph (w.handle stmt next).graph :=
      intact_handle_of_assignments w assigns next
    refine ⟨kind, info, reads.intact intact fun none => none, marked, fun constant => ?_⟩
    simp [assigns, constant]
  · rw [handle_eq_foldl w assigns]
    obtain ⟨kind', info', behind, still, kept, _⟩ := foldl_explicit inBuild reads marked next stmt.assignments
    exact ⟨kind', info', behind, still, kept⟩

/-- A statement keeps the mark, and ends the constant just if it makes something else of it. -/
theorem passed_explicit (inBuild : w.InStandardBuild) (explicit : w.graph.Explicit attr) (stmt : Stmt)
    (next : Option Stmt) :
    (w.passed stmt next).Explicit attr ∧
      (w.graph.Sealed attr → ((w.passed stmt next).Sealed attr ↔ ¬ w.Reclassifies attr stmt next)) := by
  obtain ⟨kind, info, reads, marked⟩ := explicit.reads
  rw [reads.sealed_iff marked]
  cases defines : stmt.isDefinition with
  | true =>
      rw [passed_definition inBuild defines]
      have intact : Intact (fun _ => False) w.graph (w.declared stmt).1 := intact_declared w stmt
      have declared := reads.intact intact fun none => none
      refine ⟨declared.explicit marked, fun constant => ?_⟩
      rw [declared.sealed_iff marked]
      cases stmt with
      | classDef | function => simp [Reclassifies, Stmt.assignments, addressed, Hook.targetsOf, named, constant]
      | _ => cases defines
  | false =>
      have hooks : (w.handle stmt next).hooks = Hook.standard := (inBuild.handle stmt next).hooks
      obtain ⟨kind₁, info₁, handled, marked₁, kept⟩ := handle_explicit inBuild reads marked stmt next
      obtain ⟨kind', value, typed, outcome⟩ := handled.classifyTypes ((w.handle stmt next).addressed stmt)
      rw [addressed_handle inBuild reads.has] at outcome
      have graph : w.passed stmt next =
          ((w.handle stmt next).addressed stmt).foldl classifyType (w.handle stmt next).graph := by
        rw [passed_plain defines, visit_standard hooks]
        rfl
      rw [graph]
      rcases outcome with ⟨isType, retyped | retyped⟩ | ⟨plain, same, _⟩
      · subst retyped
        refine ⟨typed.explicit marked₁, fun _ => ?_⟩
        rw [typed.sealed_iff marked₁]
        simp [Reclassifies, isType]
      · subst retyped
        refine ⟨typed.explicit marked₁, fun _ => ?_⟩
        rw [typed.sealed_iff marked₁]
        simp [Reclassifies, isType]
      · subst same
        refine ⟨typed.explicit marked₁, fun constant => ?_⟩
        rw [typed.sealed_iff marked₁, kept constant, Reclassifies, not_or]
        exact (and_iff_left plain).symm

theorem leave_explicit (explicit : w.graph.Explicit attr) (id : EntityId) :
    (w.leave id).graph.Explicit attr ∧ ((w.leave id).graph.Sealed attr ↔ w.graph.Sealed attr) := by
  obtain ⟨kind, info, reads, marked⟩ := explicit.reads
  rw [reads.sealed_iff marked]
  unfold leave
  dsimp only
  split
  · obtain ⟨hint, settled⟩ := reads.settleScope id
    exact ⟨settled.explicit marked, settled.sealed_iff marked⟩
  · exact ⟨reads.explicit marked, reads.sealed_iff marked⟩

/-- The graph where the walk comes to the first of some statements, or the last graph if there is none. -/
def graphBefore (states : List (Walk × Stmt)) (last : Graph) : Graph :=
  (states.head?.map fun state => state.1.graph).getD last

/-- What the statements up to now have left of an attribute with the mark. -/
structure KeptFinal (attr : EntityId) (past : List (Walk × Stmt)) (g : Graph) : Prop where
  explicit : ∀ state ∈ past, state.1.graph.Explicit attr → g.Explicit attr
  stored : ∀ before u stmt after, past = before ++ (u, stmt) :: after → u.graph.Sealed attr →
    (∀ state ∈ (u, stmt) :: after, ∀ next, ¬ state.1.Reclassifies attr state.2 next) → g.Sealed attr

namespace KeptFinal

variable {past : List (Walk × Stmt)} {g : Graph}

theorem next (kept : KeptFinal attr past w.graph) (inBuild : w.InStandardBuild) (stmt : Stmt) (next : Option Stmt) :
    KeptFinal attr (past ++ [(w, stmt)]) (w.passed stmt next) := by
  refine ⟨fun state among explicit => ?_, fun before u other after split stored undisturbed => ?_⟩
  · refine (passed_explicit inBuild ?_ stmt next).1
    rcases List.mem_append.mp among with earlier | last
    · exact kept.explicit state earlier explicit
    · rwa [List.mem_singleton.mp last] at explicit
  · -- The constant is of an earlier statement, or of this one.
    have here (sealedHere : w.graph.Sealed attr) (plain : ¬ w.Reclassifies attr stmt next) :
        (w.passed stmt next).Sealed attr := ((passed_explicit inBuild sealedHere.1 stmt next).2 sealedHere).mpr plain
    rcases List.eq_nil_or_concat after with rfl | ⟨after, last, rfl⟩
    · obtain ⟨rfl, same⟩ := List.append_inj' split rfl
      cases same
      exact here stored (undisturbed _ List.mem_cons_self next)
    · rw [List.concat_eq_append, ← List.cons_append, ← List.append_assoc] at split
      obtain ⟨rfl, same⟩ := List.append_inj' split rfl
      cases same
      refine here (kept.stored before u other after rfl stored fun state among => ?_)
        (undisturbed (w, stmt) (by simp) next)
      rw [List.concat_eq_append, ← List.cons_append] at undisturbed
      exact undisturbed state (List.mem_append_left _ among)

theorem leave (kept : KeptFinal attr past w.graph) (id : EntityId) : KeptFinal attr past (w.leave id).graph := by
  refine ⟨fun state among explicit => ?_, fun before u stmt after split stored undisturbed => ?_⟩
  · exact (leave_explicit (kept.explicit state among explicit) id).1
  · have before := kept.stored before u stmt after split stored undisturbed
    exact (leave_explicit before.1 id).2.mpr before

theorem intact {h : Graph} (kept : KeptFinal attr past g) (intact : Intact (fun _ => False) g h) :
    KeptFinal attr past h := by
  refine ⟨fun state among explicit => ?_, fun before u stmt after split stored undisturbed => ?_⟩
  · exact ((kept.explicit state among explicit).intact intact fun none => none).1
  · have before := kept.stored before u stmt after split stored undisturbed
    exact (before.1.intact intact fun none => none).2.mpr before

/-- At each statement of a module, and at the end. -/
theorem walkBody (inBuild : w.InStandardBuild) (body : List Stmt) {past rest : List (Walk × Stmt)}
    (split : reached w (Script.ofBody body w) = past ++ rest) {h : Graph}
    (last : Intact (fun _ => False) ((Walk.walkBody body w).leave w.module).graph h) :
    (∀ state, rest.head? = some state → state.1.InStandardBuild) ∧ KeptFinal attr past (graphBefore rest h) := by
  have start : KeptFinal attr [] w.graph := ⟨by simp, by simp⟩
  have plain {past rest : List (Walk × Stmt)} {u : Walk} {stmt : Stmt} (next : Option Stmt)
      (_ : reached w (Script.ofBody body w) = past ++ (u, stmt) :: rest) (inBuild : u.InStandardBuild)
      (_ : u.module = w.module) (other : stmt.isDefinition = false) (kept : KeptFinal attr past u.graph) :
      KeptFinal attr (past ++ [(u, stmt)]) ((u.handle stmt next).visit stmt).graph :=
    passed_plain other next ▸ kept.next inBuild stmt next
  have definition {past rest : List (Walk × Stmt)} {u : Walk} {stmt : Stmt}
      (_ : reached w (Script.ofBody body w) = past ++ (u, stmt) :: rest) (inBuild : u.InStandardBuild)
      (_ : u.module = w.module) (defines : stmt.isDefinition = true) (kept : KeptFinal attr past u.graph) :
      KeptFinal attr (past ++ [(u, stmt)]) (u.declared stmt).1 :=
    passed_definition inBuild defines none ▸ kept.next inBuild stmt none
  cases rest with
  | nil =>
      have whole := (Script.performs_ofBody body).follow plain definition (fun _ _ kept => kept.leave _) inBuild rfl
        (List.append_nil _).symm start
      rw [List.nil_append, split, List.append_nil] at whole
      exact ⟨by simp, (whole.leave w.module).intact last⟩
  | cons state rest =>
      obtain ⟨v, stmt⟩ := state
      obtain ⟨inBuildThere, _, kept⟩ := (Script.performs_ofBody body).follow_each plain definition
        (fun _ _ kept => kept.leave _) inBuild rfl rfl start split
      exact ⟨by simpa using inBuildThere, kept⟩

end KeptFinal

end Walk

namespace Graph

open Walk

/-- While a module is built, the mark of a final is never taken back. A constant by such a mark stays one
from statement to statement until one claims it in a method or gives it a type as value, and behind such a
statement it is none. -/
theorem build_finals_until_reclassified {options : Options} {calls : List Call} {module : EntityId}
    (admits : (empty options).Admits calls)
    (unbuilt : (run (empty options) calls).moduleState? module = some .notProcessed) (tree : Module)
    (attr : EntityId) :
    let w := top (run (empty options) calls) module tree
    let states := reached w (Script.ofBody tree.body w)
    ∃ h, (run (empty options) calls).build Hook.standard module (.ok tree) = .ok (h, .processed) ∧
      (∀ before u stmt after rest, states = before ++ (u, stmt) :: (after ++ rest) → u.graph.Explicit attr →
        (graphBefore rest h).Explicit attr) ∧
      (∀ before u stmt after rest, states = before ++ (u, stmt) :: (after ++ rest) → u.graph.Sealed attr →
        (∀ state ∈ (u, stmt) :: after, ∀ next, ¬ state.1.Reclassifies attr state.2 next) →
        (graphBefore rest h).Sealed attr) ∧
      (∀ u stmt, (u, stmt) ∈ states → u.graph.Sealed attr → ∀ next,
        ((u.passed stmt next).Sealed attr ↔ ¬ u.Reclassifies attr stmt next)) := by
  intro w states
  have inBuild := (reached_top admits unbuilt tree).inBuild
  obtain ⟨h, built, last, _⟩ := build_settled unbuilt tree
  refine ⟨h, built, ?_⟩
  have each {past rest : List (Walk × Stmt)} (split : states = past ++ rest) :
      (∀ state, rest.head? = some state → state.1.InStandardBuild) ∧ KeptFinal attr past (graphBefore rest h) :=
    KeptFinal.walkBody inBuild tree.body split last
  refine ⟨fun before u stmt after rest split explicit => ?_, fun before u stmt after rest split stored undisturbed => ?_,
    fun u stmt among stored next => ?_⟩
  · rw [← List.cons_append, ← List.append_assoc] at split
    exact (each split).2.explicit (u, stmt) (by simp) explicit
  · rw [← List.cons_append, ← List.append_assoc] at split
    exact (each split).2.stored before u stmt after rfl stored undisturbed
  · obtain ⟨past, rest, split⟩ := List.append_of_mem among
    exact (passed_explicit ((each split).1 _ rfl) stored.1 stmt next).2 stored

/-- A final of a class, which a method assigns. -/
def finalMember : Module where
  body :=
    [.importFrom (some "typing") [⟨"Final", none⟩] 0 1,
      .classDef { name := "C", line := 2 }
        [.annAssign (.name "x") (.name "Final") (some (.constant (.int 1))) 3,
          .function { name := "f", line := 4 }
            [.assign [.attribute (.name "self") "x"] (.constant (.int 2)) none 5]]]

def finalMemberStates : List (Walk × Stmt) :=
  let w := top (run (empty {}) [.addModule "m" false]) ⟨0⟩ finalMember
  reached w (Script.ofBody finalMember.body w)

theorem build_finalMember_marked :
    (run (empty {}) [.addModule "m" false]).moduleState? ⟨0⟩ = some .notProcessed ∧
      finalMemberStates.map (fun state => decide (state.1.graph.Sealed ⟨2⟩)) = [false, false, false, true, true] ∧
      (∃ h, (run (empty {}) [.addModule "m" false]).build Hook.standard ⟨0⟩ (.ok finalMember) = .ok (h, .processed) ∧
        h.Explicit ⟨2⟩) ∧
      ∀ u stmt, (u, stmt) ∈ finalMemberStates → u.graph.Sealed ⟨2⟩ → ∀ next,
        ((u.passed stmt next).Sealed ⟨2⟩ ↔ ¬ u.Reclassifies ⟨2⟩ stmt next) := by
  have unbuilt : (run (empty {}) [.addModule "m" false]).moduleState? ⟨0⟩ = some .notProcessed := by decide +kernel
  have admits : (empty {}).Admits [.addModule "m" false] := ⟨trivial, trivial⟩
  obtain ⟨h, built, explicit, _, lost⟩ := build_finals_until_reclassified admits unbuilt finalMember ⟨2⟩
  have marked : ∀ state ∈ (finalMemberStates.drop 3).head?, state.1.graph.Explicit ⟨2⟩ := by decide +kernel
  have some : (finalMemberStates.drop 3).head?.isSome = true := by decide +kernel
  refine ⟨unbuilt, by decide +kernel, ⟨h, built, ?_⟩, lost⟩
  obtain ⟨state, first⟩ := Option.isSome_iff_exists.mp some
  obtain ⟨rest, later⟩ := List.head?_eq_some_iff.mp first
  have split : finalMemberStates = finalMemberStates.take 3 ++ state :: (rest ++ []) := by
    rw [List.append_nil, ← later, List.take_append_drop]
  exact explicit _ state.1 state.2 rest [] split (marked state first)

/-- The method makes an instance variable of the final, which is still what the class binds to the name. -/
theorem build_finalMember_claimed :
    finalMemberStates.map (fun state => decide (state.1.graph.Sealed ⟨2⟩)) = [false, false, false, true, true] ∧
      ((run (empty {}) [.addModule "m" false]).build Hook.standard ⟨0⟩ (.ok finalMember)).toOption.map
          (fun built => ((built.1.entity ⟨1⟩).contents.get? "x", (built.1.entity ⟨2⟩).kind)) =
        some (some ⟨2⟩, some .instanceVariable) := by
  constructor <;> decide +kernel

end Graph

end DocGraph
