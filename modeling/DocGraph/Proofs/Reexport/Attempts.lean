import DocGraph.Finish
import DocGraph.Walk.Import

namespace DocGraph

section along

variable {σ α : Type} {step : σ → α → σ} {items : List α} {start : σ}

/-- The states that a fold goes through, each with the item that it comes to there. -/
def along (step : σ → α → σ) : List α → σ → List (σ × α)
  | [], _ => []
  | item :: rest, state => (state, item) :: along step rest (step state item)

theorem foldl_of_along {motive : σ → Prop} (first : motive start)
    (each : ∀ {state item}, (state, item) ∈ along step items start → motive state → motive (step state item)) :
    motive (items.foldl step start) := by
  induction items generalizing start with
  | nil => exact first
  | cons item rest ih =>
      exact ih (each List.mem_cons_self first) fun among before => each (List.mem_cons_of_mem _ among) before

theorem mem_of_mem_along {state : σ} {item : α} (among : (state, item) ∈ along step items start) : item ∈ items := by
  induction items generalizing start with
  | nil => cases among
  | cons head rest ih =>
      rcases List.mem_cons.mp among with same | later
      · cases same
        exact List.mem_cons_self
      · exact List.mem_cons_of_mem _ (ih later)

theorem of_mem_along {motive : σ → Prop} (first : motive start)
    (each : ∀ {state item}, item ∈ items → motive state → motive (step state item)) {state : σ} {item : α}
    (among : (state, item) ∈ along step items start) : motive state := by
  induction items generalizing start with
  | nil => cases among
  | cons head rest ih =>
      rcases List.mem_cons.mp among with same | later
      · cases same
        exact first
      · exact ih (each List.mem_cons_self first) (fun listed before => each (List.mem_cons_of_mem _ listed) before)
          later

end along

/-- A re-export as it is tried: the graph at that moment, and what is asked of it. -/
structure Attempt where
  graph : Graph
  scope : EntityId
  exports : List String
  origin : EntityId
  name : String
  asName : String
  line : Nat

namespace Attempt

def result (a : Attempt) : Graph × Bool := a.graph.reexport a.scope a.exports a.origin a.name a.asName a.line

end Attempt

namespace Graph

/-- The re-exports that `import *` tries, name by name. -/
def starAttempts (g : Graph) (scope origin : EntityId) (exports blocked : List String) (line : Nat) :
    List Attempt :=
  (along (importStarName scope origin exports line)
    ((g.publicNames origin).filter fun name => !blocked.contains name) (g, 0)).map fun (state, name) =>
      { graph := state.1, scope, exports, origin, name, asName := name, line }

end Graph

namespace Walk

/-- The re-export that is tried for one name of an import: none for a name that is guarded, that comes from
an unknown module, or that has to wait. -/
def nameAttempt? (w : Walk) (exports : List String) (originId : Option EntityId) (line : Nat) (g : Graph)
    (item : ImportAlias) : Option Attempt :=
  if w.isGuarded w.current item.bound then none
  else
    originId.bind fun origin =>
      if isUnbuilt g origin item.name && exports.contains item.bound then none
      else some { graph := g, scope := w.current, exports, origin, name := item.name, asName := item.bound, line }

def namesAttempts (w : Walk) (origin : String) (names : List ImportAlias) (line : Nat) : List Attempt :=
  let originId := w.graph.lookupModule origin
  (along (w.importName w.exports origin originId line) names w.graph).filterMap fun (g, item) =>
    w.nameAttempt? w.exports originId line g item

def allAttempts (w : Walk) (origin : String) (line : Nat) : List Attempt :=
  match w.graph.lookupModule origin with
  | none => []
  | some id =>
      let g := w.reportAt ("import * from " ++ origin) "import" line 1
      if g.moduleState? id = some .notProcessed then []
      else g.starAttempts w.current id w.exports (w.guardedNames w.current) line

/-- The re-exports that a statement itself tries; those inside it are for the statements there. -/
def attempts (w : Walk) : Stmt → List Attempt
  | .importFrom name names level line =>
      if w.scope.isContainer then
        match w.originName? name level with
        | none => []
        | some origin => if isStar names then w.allAttempts origin line else w.namesAttempts origin names line
      else []
  | _ => []

end Walk

namespace Graph

/-- The re-exports that an import tries once all modules are built. -/
def resumedAttempts (module : EntityId) (exports : List String) (g : Graph) : PendingImport → List Attempt
  | .reexport origin name asName line =>
      match g.lookupModule origin with
      | none => []
      | some origin => [{ graph := g, scope := module, exports, origin, name, asName, line }]
  | .star origin into blocked line =>
      match g.lookupModule origin with
      | none => []
      | some id => g.starAttempts into id (if into = module then exports else []) blocked line

/-- The re-exports that the imports tried which a module has kept. -/
def pendingAttempts (g : Graph) (module : EntityId) : List Attempt :=
  let pending := ((g.entity module).module?.map ModuleInfo.pending).getD []
  let g := g.modify module (Entity.modifyModule fun info => { info with pending := [] })
  let exports := g.exportsOf module
  (along (fun g pending => (resumeImport module exports g pending).1) pending g).flatMap fun (g, pending) =>
    g.resumedAttempts module exports pending

/-- The re-exports that are tried when the graph is finished. -/
def finishAttempts (g : Graph) : List Attempt :=
  (along (fun g module => (g.resumeImports module).1) (g.idsOfType .module) g).flatMap fun (g, module) =>
    g.pendingAttempts module

end Graph

end DocGraph
