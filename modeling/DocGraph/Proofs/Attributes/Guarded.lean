import DocGraph.Proofs.Attributes.Meaning
import DocGraph.Proofs.Walk.History

namespace DocGraph

open DocGraph.Graph

/-- Blocks of control flow. -/
def Stmt.isBlock : Stmt → Bool
  | .ifElse .. => true
  | .whileLoop .. => true
  | .forLoop .. => true
  | .withBlock .. => true
  | .tryExcept .. => true
  | .matchCases .. => true
  | _ => false

namespace Walk

variable {w : Walk} {stmt : Stmt}

theorem walkStmt_plain (other : stmt.isDefinition = false) (straight : stmt.isBlock = false) (next : Option Stmt)
    (w : Walk) : walkStmt stmt next w = ((w.handle stmt next).visit stmt).depart stmt := by
  cases stmt with
  | classDef | function => cases other
  | ifElse | whileLoop | forLoop | withBlock | tryExcept | matchCases => cases straight
  | _ => rfl

/-- Whether a statement is an assignment, all to names of the open scope that the guard keeps. -/
def withholds (w : Walk) : Stmt → Bool
  | .assign targets _ _ _ => targets.all keeps
  | .annAssign target _ _ _ => keeps target
  | _ => false
where
  keeps (target : Expr) : Bool := target.name?.any (w.isGuarded w.current)

theorem assignTarget_kept (a : Assignment) (next : Option Stmt) {target : Expr}
    (kept : withholds.keeps w target = true) : w.assignTarget a next target = w := by
  cases target with
  | name id =>
      have guarded : w.isGuarded w.current id = true := by simpa [withholds.keeps, Expr.name?] using kept
      simp only [assignTarget, assign, assignName, guarded, if_true]
  | _ => simp [withholds.keeps, Expr.name?] at kept

theorem handle_withheld (withheld : w.withholds stmt = true) (next : Option Stmt) :
    w.handle stmt next = w := by
  cases stmt with
  | assign targets value typeComment line =>
      have kept : ∀ target ∈ targets, withholds.keeps w target = true := by
        simpa [withholds] using withheld
      rw [handle]
      induction targets with
      | nil => rfl
      | cons target rest ih =>
          rw [List.foldl_cons, assignTarget_kept _ _ (kept target List.mem_cons_self)]
          exact ih (by simp_all [withholds]) fun other among => kept other (List.mem_cons_of_mem _ among)
  | annAssign target hint value line => exact assignTarget_kept _ _ withheld
  | _ => simp [withholds] at withheld

theorem plain_of_withheld (withheld : w.withholds stmt = true) :
    stmt.isDefinition = false ∧ stmt.isBlock = false := by
  cases stmt with
  | assign | annAssign => exact ⟨rfl, rfl⟩
  | _ => simp [withholds] at withheld

theorem visit_standard (hooks : w.hooks = Hook.standard) (stmt : Stmt) :
    w.visit stmt =
      w.update ((w.graph.named w.current (Hook.targetsOf stmt)).foldl Graph.classifyType) := by
  have visited : w.visit stmt = w.update ((Hook.targetsOf stmt).foldl (Hook.classifyTarget w.current)) := by
    rw [visit, hooks]
    rfl
  rw [visited, update, foldl_classifyTarget]
  rfl

/-- The entities of the open scope whose names a statement assigns. -/
def addressed (w : Walk) (stmt : Stmt) : List EntityId := w.graph.named w.current (Hook.targetsOf stmt)

/-- An assignment that is held back changes nothing but the kind, and for a type alias the value, of the
attributes that have the names: they become what their own hint and value make of them. So nothing at all
is changed just when none of them has become a type alias or type variable unnoticed. -/
theorem withheld_assignment_reclassifies (w : Walk) (hooks : w.hooks = Hook.standard) (stmt : Stmt)
    (next : Option Stmt) (withheld : w.withholds stmt = true) :
    let g := w.graph
    let h := (walkStmt stmt next w).graph
    walkStmt stmt next w = { w with graph := { g with entities := h.entities } } ∧
      (∀ id, (h.entity id).aliases = (g.entity id).aliases ∧
        (h.entity id).contents = (g.entity id).contents ∧
        (h.entity id).docstring = (g.entity id).docstring ∧
        (h.entity id).line = (g.entity id).line ∧
        (h.entity id).attribute?.map AttributeInfo.hint = (g.entity id).attribute?.map AttributeInfo.hint) ∧
      (∀ id, h.entity id = if id ∈ w.addressed stmt then g.retyped id else g.entity id) ∧
      (walkStmt stmt next w = w ↔ ∀ id ∈ w.addressed stmt, g.Classified id) := by
  have walked : walkStmt stmt next w = { w with graph := (w.addressed stmt).foldl classifyType w.graph } := by
    obtain ⟨other, straight⟩ := plain_of_withheld withheld
    rw [walkStmt_plain other straight, handle_withheld withheld, visit_standard hooks]
    exact depart_standard (w := w.update _) hooks stmt
  have entity := entity_foldl_classifyType w.graph (w.addressed stmt)
  rw [walked]
  refine ⟨?_, fun id => ?_, entity, ?_⟩
  · rw [foldl_classifyType_eq]
  · rw [entity]
    split
    · exact retyped_parts w.graph id
    · exact ⟨rfl, rfl, rfl, rfl, rfl⟩
  · rw [← foldl_classifyType_eq_self_iff]
    exact ⟨congrArg Walk.graph, fun same => by rw [same]⟩

/-- What is assigned to `x` is imported behind the assignment. -/
def lateImport : Walk :=
  walkStmt (.importFrom (some "typing") [⟨"List", none⟩] 0 2) none
    (walkStmt (.assign [.name "x"] (.subscript (.name "List") (.name "int")) none 1) none
      (start (run (empty {}) [.addModule "m" false]) ⟨0⟩ []))

/-- An arm behind the two statements, which assigns `x` again. -/
def lateType : Walk := { lateImport with guard := some lateImport.guardHere, flowDepth := 1 }

def reassignment : Stmt := .assign [.name "x"] (.constant (.int 1)) none 6

theorem lateType_reached : lateType.Reached := by
  have unbuilt : (run (empty {}) [.addModule "m" false]).moduleState? ⟨0⟩ = some .notProcessed := by
    decide +kernel
  have admits : (empty {}).Admits [.addModule "m" false] := ⟨trivial, trivial⟩
  have reached : lateImport.Reached := ((Reached.start admits unbuilt _).walk _ _).walk _ _
  have depth : lateImport.flowDepth = 0 := by decide +kernel
  have arm := reached.arm.block
  rwa [depth] at arm

theorem lateType_reclassified :
    lateType.withholds reassignment = true ∧ lateType.addressed reassignment = [⟨1⟩] ∧
      (walkStmt reassignment none lateType).graph.entity ⟨1⟩ = lateType.graph.retyped ⟨1⟩ ∧
      (walkStmt reassignment none lateType = lateType ↔ lateType.graph.Classified ⟨1⟩) := by
  have withheld : lateType.withholds reassignment = true := by decide +kernel
  have named : lateType.addressed reassignment = [⟨1⟩] := by decide +kernel
  obtain ⟨_, _, entity, unchanged⟩ :=
    withheld_assignment_reclassifies lateType lateType_reached.inBuild.hooks reassignment none withheld
  rw [named] at entity unchanged
  exact ⟨withheld, named, entity ⟨1⟩, unchanged.trans List.forall_mem_singleton⟩

/-- The assignment is held back, and `x` becomes a type alias by it. -/
theorem lateType_assignment_noticed :
    lateType.Reached ∧ lateType.withholds reassignment = true ∧
      (lateType.graph.entity ⟨0⟩).contents.get? "x" = some ⟨1⟩ ∧
      (lateType.graph.entity ⟨1⟩).kind = some .variable ∧
      ((walkStmt reassignment none lateType).graph.entity ⟨1⟩).kind = some .typeAlias :=
  ⟨lateType_reached, by decide +kernel, by decide +kernel, by decide +kernel, by decide +kernel⟩

end Walk

end DocGraph
