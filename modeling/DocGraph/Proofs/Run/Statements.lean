import DocGraph.Proofs.Run.Assignments
import DocGraph.Proofs.Run.Imports

namespace DocGraph

namespace Stmt

mutual

/-- Whether a statement assigns to a docstring, at any depth. -/
def assignsDoc : Stmt → Bool
  | .assign targets _ _ _ => targets.any Expr.isDocTarget
  | .annAssign target _ _ _ => target.isDocTarget
  | .function _ body => anyAssignsDoc body
  | .classDef _ body => anyAssignsDoc body
  | .ifElse _ body orElse _ => anyAssignsDoc body || anyAssignsDoc orElse
  | .whileLoop _ body orElse _ => anyAssignsDoc body || anyAssignsDoc orElse
  | .forLoop _ _ body orElse _ _ => anyAssignsDoc body || anyAssignsDoc orElse
  | .tryExcept body handlers orElse finalBody _ =>
      anyAssignsDoc body || handlersAssignDoc handlers || anyAssignsDoc orElse || anyAssignsDoc finalBody
  | .withBlock _ body _ _ => anyAssignsDoc body
  | .matchCases _ cases _ => casesAssignDoc cases
  | _ => false

def anyAssignsDoc : List Stmt → Bool
  | [] => false
  | stmt :: rest => stmt.assignsDoc || anyAssignsDoc rest

def handlersAssignDoc : List Handler → Bool
  | [] => false
  | ⟨_, _, body, _⟩ :: rest => anyAssignsDoc body || handlersAssignDoc rest

def casesAssignDoc : List Case → Bool
  | [] => false
  | ⟨_, _, body⟩ :: rest => anyAssignsDoc body || casesAssignDoc rest

end

/-- The names under which a statement may store something, in its own scope or in the class of a method;
imports apart. -/
def stored : Stmt → List String
  | .assign targets _ _ _ => targets.filterMap Expr.stored?
  | .annAssign target _ _ _ => target.stored?.toList
  | .augAssign target _ _ _ => target.stored?.toList
  | .function head _ => head.names
  | .classDef head _ => [head.name]
  | _ => []

def isClass : Stmt → Bool
  | .classDef _ _ => true
  | _ => false

def isImport : Stmt → Bool
  | .imports _ _ => true
  | .importFrom _ _ _ _ => true
  | _ => false

end Stmt

open DocGraph.Graph

namespace Walk

variable {w v u : Walk} {g h : Graph} {id : EntityId} {may : Licence} {afar : Prop}

theorem walks_visit (w : Walk) (stmt : Stmt) : Walks may w (w.visit stmt) :=
  Walks.foldl (w := w) (fun g => g) (fun _ => True) w.graph trivial fun {g _} among _ =>
    ⟨trivial, .act (.visit (w := { w with graph := g }) (mem_of_mem_along among) stmt)⟩

theorem walks_depart (w : Walk) (stmt : Stmt) : Walks may w (w.depart stmt) :=
  Walks.foldl (w := w) (fun g => g) (fun _ => True) w.graph trivial fun {g _} among _ =>
    ⟨trivial, .act (.depart (w := { w with graph := g }) (mem_of_mem_along among) stmt)⟩

/-- A statement does nothing by itself but what is free. -/
structure Licence.Allows (may : Licence) (w : Walk) (stmt : Stmt) : Prop where
  afar : stmt.assignsDoc = true → may.afar
  binds : ∀ name ∈ stmt.stored, may.binds name
  classes : stmt.isClass = true → may.classes
  tries : ∀ attempt ∈ w.attempts stmt, may.tries attempt
  imports : stmt.isImport = true → (∀ name, may.binds name) ∧ may.defers
  defines : ∀ head body, stmt = .function head body → ∀ id, (w.declareFunction head body).2 = some id → may.defines id

theorem Licence.allows_any (w : Walk) {stmt : Stmt} (distant : stmt.assignsDoc = true → afar) :
    (Licence.any afar).Allows w stmt where
  afar := distant
  binds _ _ := trivial
  classes _ := trivial
  tries _ _ := trivial
  imports _ := ⟨fun _ => trivial, trivial⟩
  defines _ _ _ _ _ := trivial

theorem walks_handle_of_allows {stmt : Stmt} (allows : may.Allows w stmt) (next : Option Stmt) :
    Walks may w (w.handle stmt next) := by
  unfold handle
  split
  · rename_i targets value typeComment line
    obtain ⟨distant, named, -, -, -, -⟩ := allows
    dsimp only
    rw [Stmt.assignsDoc, List.any_eq_true] at distant
    simp only [Stmt.stored, List.mem_filterMap] at named
    generalize ({ hint := _, value := some value, line } : Assignment) = a
    induction targets generalizing w with
    | nil => exact .refl w
    | cons target rest ih =>
        refine (walks_assignTarget w a next (fun doc => distant ⟨target, List.mem_cons_self, doc⟩)
          fun name stored => named name ⟨target, List.mem_cons_self, stored⟩).trans (ih ?_ ?_)
        · rintro ⟨other, among, doc⟩
          exact distant ⟨other, List.mem_cons_of_mem _ among, doc⟩
        · rintro name ⟨other, among, stored⟩
          exact named name ⟨other, List.mem_cons_of_mem _ among, stored⟩
  · have distant := allows.afar
    rw [Stmt.assignsDoc] at distant
    exact walks_assignTarget w _ _ distant fun name stored => allows.binds name (Option.mem_toList.mpr stored)
  · exact walks_augment w (fun name stored => allows.binds name (Option.mem_toList.mpr stored)) rfl
  · exact walks_importModules w (allows.imports rfl).1 _
  · exact walks_importFrom w (allows.imports rfl).1 (allows.imports rfl).2 allows.tries
  · exact .refl w

theorem walks_handle (w : Walk) {stmt : Stmt} (distant : stmt.assignsDoc = true → afar) (next : Option Stmt) :
    Walks (.any afar) w (w.handle stmt next) :=
  walks_handle_of_allows (Licence.allows_any w distant) next

/-- A walk of a part of the source that is made of acts, wherever it begins. -/
def Made (afar : Prop) (walk : Walk → Walk) : Prop := ∀ w : Walk, Walks (.any afar) w (walk w)

theorem Made.refl : Made afar fun w => w := Walks.refl

theorem Made.comp {first second : Walk → Walk} (madeFirst : Made afar first) (madeSecond : Made afar second) :
    Made afar fun w => second (first w) :=
  fun w => (madeFirst w).trans (madeSecond _)

theorem Made.ite {walk : Walk → Walk} (made : Made afar walk) (condition : Prop) [Decidable condition] :
    Made afar fun w => if condition then w else walk w := by
  intro w
  dsimp only
  split
  · exact .refl w
  · exact made w

theorem Made.inBlock {walk : Walk → Walk} (made : Made afar walk) : Made afar (inBlock walk) :=
  fun _ => .block (made _)

theorem Made.guarded {walk : Walk → Walk} (made : Made afar walk) : Made afar (guarded walk) :=
  fun _ => .arm (made _)

theorem Made.around {walk : Walk → Walk} (made : Made afar walk) (stmt : Stmt) :
    Made afar fun w => (walk (w.visit stmt)).depart stmt :=
  fun w => ((walks_visit w stmt).trans (made _)).trans (walks_depart _ stmt)

theorem walks_walkDefinition {stmt : Stmt} {declared : Graph × Option EntityId} {walk : Walk → Walk}
    (declares : Declares may w declared)
    (inside : ∀ id, declared.2 = some id → Walks may (({ w with graph := declared.1 }.enter id).visit stmt)
      (walk (({ w with graph := declared.1 }.enter id).visit stmt))) :
    Walks may w (walkDefinition stmt declared walk w) := by
  obtain ⟨g, opened⟩ := declared
  unfold walkDefinition
  cases opened with
  | none => exact declares.recorded.trans ((walks_visit _ stmt).trans (walks_depart _ stmt))
  | some id =>
      have inner := ((walks_visit _ stmt).trans (inside id rfl)).trans (walks_depart _ stmt)
      have scopes := inner.framed.scopes
      dsimp only at inner scopes ⊢
      generalize (walk (({ w with graph := g }.enter id).visit stmt)).depart stmt = v at *
      have current : v.current = id := by simp [Walk.current, scopes, enter]
      -- The scope is settled while it is still open.
      have settled : Told v.Near v.graph (v.leave id).graph :=
        (told_leave v id).mono fun about => ⟨id, .inl current.symm, .inl about⟩
      have closed := Walks.scope declares.recorded (declares.opens id rfl) (inner.trans (.describe settled))
      have left : v.leave id = { v with scopes := w.scopes, graph := (v.leave id).graph } := by
        simp [leave, scopes, enter]
      rw [left]
      exact closed

mutual

theorem made_walkBody (body : List Stmt) (distant : Stmt.anyAssignsDoc body = true → afar) :
    Made afar (walkBody body) := by
  cases body with
  | nil =>
      intro w
      rw [walkBody]
      exact .refl w
  | cons stmt rest =>
      intro w
      rw [walkBody]
      rw [Stmt.anyAssignsDoc, Bool.or_eq_true, or_imp] at distant
      exact (made_walkStmt stmt distant.1 rest.head? w).trans (made_walkBody rest distant.2 _)

theorem made_walkStmt (stmt : Stmt) (distant : stmt.assignsDoc = true → afar) (next : Option Stmt) :
    Made afar (walkStmt stmt next) := by
  intro w
  have simple : Walks (.any afar) w (((w.handle stmt next).visit stmt).depart stmt) :=
    (walks_handle w distant next).trans (Made.refl.around stmt _)
  cases stmt with
  | classDef head body =>
      rw [walkStmt]
      rw [Stmt.assignsDoc] at distant
      exact walks_walkDefinition (declares_declareClass w trivial trivial body) fun _ _ => made_walkBody body distant _
  | function head body =>
      rw [walkStmt]
      rw [Stmt.assignsDoc] at distant
      exact walks_walkDefinition (declares_declareFunction w (fun _ _ => trivial) body fun _ _ => trivial)
        fun _ _ => made_walkBody body distant _
  | ifElse test body orElse line =>
      rw [walkStmt]
      rw [Stmt.assignsDoc, Bool.or_eq_true, or_imp] at distant
      exact (((made_walkBody body distant.1).inBlock.ite _).comp
        ((made_walkBody orElse distant.2).inBlock.guarded.ite _)).around _ w
  | whileLoop test body orElse line =>
      rw [walkStmt]
      rw [Stmt.assignsDoc, Bool.or_eq_true, or_imp] at distant
      exact (made_walkBody body distant.1).inBlock.around _ w
  | forLoop target iter body orElse isAsync line =>
      rw [walkStmt]
      rw [Stmt.assignsDoc, Bool.or_eq_true, or_imp] at distant
      exact (made_walkBody body distant.1).inBlock.around _ w
  | withBlock items body isAsync line =>
      rw [walkStmt]
      rw [Stmt.assignsDoc] at distant
      exact (made_walkBody body distant).inBlock.around _ w
  | tryExcept body handlers orElse finalBody line =>
      rw [walkStmt]
      simp only [Stmt.assignsDoc, Bool.or_eq_true, or_imp] at distant
      obtain ⟨⟨⟨inBody, inHandlers⟩, inElse⟩, inFinal⟩ := distant
      exact ((((made_walkBody body inBody).inBlock.comp (made_walkBody orElse inElse).inBlock).comp
        (made_walkBody finalBody inFinal).inBlock).comp
        ((made_walkHandlers handlers inHandlers).guarded.ite _)).around _ w
  | matchCases subject cases line =>
      rw [walkStmt]
      rw [Stmt.assignsDoc] at distant
      exact (made_walkCases cases distant).around _ w
  | _ =>
      rw [walkStmt]
      · exact simple
      all_goals nofun

theorem made_walkHandlers (handlers : List Handler) (distant : Stmt.handlersAssignDoc handlers = true → afar) :
    Made afar (walkHandlers handlers) := by
  cases handlers with
  | nil =>
      intro w
      rw [walkHandlers]
      exact .refl w
  | cons handler rest =>
      cases handler with
      | mk excType name body line =>
          intro w
          rw [walkHandlers]
          rw [Stmt.handlersAssignDoc, Bool.or_eq_true, or_imp] at distant
          exact ((made_walkBody body distant.1).inBlock w).trans (made_walkHandlers rest distant.2 _)

theorem made_walkCases (cases : List Case) (distant : Stmt.casesAssignDoc cases = true → afar) :
    Made afar (walkCases cases) := by
  cases cases with
  | nil =>
      intro w
      rw [walkCases]
      exact .refl w
  | cons arm rest =>
      cases arm with
      | mk pattern guard body =>
          intro w
          rw [walkCases]
          rw [Stmt.casesAssignDoc, Bool.or_eq_true, or_imp] at distant
          exact ((made_walkBody body distant.1).inBlock w).trans (made_walkCases rest distant.2 _)

end

end Walk

end DocGraph
