import DocGraph.Proofs.Reexport.Attempts
import DocGraph.Proofs.Run.Details

/-!
What a walk does. Whatever the statements are, a walk is made of acts, each of which changes the graph
at one place and under the guard that stands there, and of walks inside scopes, guarded arms and blocks.
What an act keeps is kept by every walk.
-/
namespace DocGraph

open DocGraph.Graph

namespace Walk

variable {w v u : Walk} {g h : Graph} {id : EntityId} {may : Licence}

/-- Where the walk declares things: in the open scope, or in the class of the method that is open. -/
def Place (w : Walk) (id : EntityId) : Prop := id = w.current ∨ w.methodClass? = some id

/-- What the walk tells things about: these places, and what is bound or stands in them. -/
def Near (w : Walk) (id : EntityId) : Prop :=
  ∃ place, w.Place place ∧ (w.graph.About id place ∨ w.graph.IsParent place id)

theorem Place.near_of_bound {place : EntityId} {name : String} (open_ : w.Place place)
    (bound : (w.graph.entity place).contents.get? name = some id) : w.Near id :=
  ⟨place, open_, .inl (.inr ⟨name, bound⟩)⟩

/-- What a walk may do that not all of them do. -/
structure Licence where
  /-- Docstrings are assigned, anywhere. -/
  afar : Prop
  /-- These re-exports are tried. -/
  tries : Attempt → Prop
  /-- These names are given, to what is declared or by an alias. -/
  binds : String → Prop
  classes : Prop
  /-- Imports are put off. -/
  defers : Prop
  /-- These functions are defined again. -/
  defines : EntityId → Prop

/-- All but docstrings is free. -/
def Licence.any (afar : Prop) : Licence where
  afar := afar
  tries _ := True
  binds _ := True
  classes := True
  defers := True
  defines _ := True

structure Licence.Within (may other : Licence) : Prop where
  afar : may.afar → other.afar
  tries : ∀ {attempt}, may.tries attempt → other.tries attempt
  binds : ∀ {name}, may.binds name → other.binds name
  classes : may.classes → other.classes
  defers : may.defers → other.defers
  defines : ∀ {id}, may.defines id → other.defines id

/-- What the walk does to the graph at one place, in the open scope and under the guard. -/
inductive Act (may : Licence) (w : Walk) : Graph → Prop
  | describe {h : Graph} (told : Retold w.Near w.graph h)
      (functions : ∀ id, (h.entity id).function? = (w.graph.entity id).function? ∨ may.defines id) : Act may w h
  | document {h : Graph} (distant : may.afar) (told : Told (fun _ => True) w.graph h) : Act may w h
  | visit {hook : Hook} (among : hook ∈ w.hooks) (stmt : Stmt) :
      Act may w (hook.visit w.graph w.current w.module stmt)
  | depart {hook : Hook} (among : hook ∈ w.hooks) (stmt : Stmt) :
      Act may w (hook.depart w.graph w.current w.module stmt)
  | bind (name target : String) (free : w.isGuarded w.current name = false) (named : may.binds name) :
      Act may w (w.graph.modify w.current (Entity.bindAlias name target))
  | defer {pending : PendingImport}
      (into : ∀ {origin scope blocked line}, pending = .star origin scope blocked line →
        scope = w.current) (later : may.defers) :
      Act may w (w.graph.deferImport w.module pending)
  /-- What is declared is furnished at once, so that its kind is there from the start. -/
  | declare {parent : EntityId} {e : Entity} {h : Graph} (blank : e.Blank) (above : e.parent = some parent)
      (type : e.type ≠ .module) (home : e.home = (w.graph.entity parent).home)
      (order : e.class?.bind ClassInfo.mro = none) (place : w.Place parent)
      (free : w.isGuarded parent e.name = false)
      (told : Retold (· = ⟨w.graph.size⟩) ((w.graph.alloc e).1.attach parent ⟨w.graph.size⟩) h)
      (suited : w.graph.Headed → (h.entity ⟨w.graph.size⟩).Suited) (named : may.binds e.name)
      (kind : e.type = .class → may.classes) (plain : e.kind ≠ some .exception) : Act may w h
  | define (id : EntityId) (bases : List Base) (decorators : List Decorator)
      (type : (w.graph.entity id).type = .class) (unwritten : (w.graph.entity id).baseLists = {})
      (subclasses : (w.graph.entity id).subclasses = [])
      (classes : ∀ target ∈ bases.filterMap Base.target,
        target ≠ id ∧ (w.graph.entity target).type = .class)
      (order : w.graph.mroOf? id = none) (above : w.graph.IsParent w.current id) (kind : may.classes) :
      Act may w (w.graph.modify id (Entity.modifyClass fun _ => { bases := .ofSlots bases, decorators }))
  | reexport {h : Graph} {origin : EntityId} {name asName : String} {line : Nat}
      (free : w.isGuarded w.current asName = false)
      (tried : may.tries { graph := w.graph, scope := w.current, exports := w.exports, origin, name, asName, line })
      (moved : w.graph.reexport w.current w.exports origin name asName line = (h, true)) : Act may w h

/-- A definition opens what it has declared in the open scope, or a function of the module that stands
there. -/
inductive Opens (w : Walk) (g : Graph) (id : EntityId) : Prop
  | fresh (new : ¬ w.graph.Has id) (above : g.IsParent w.current id)
      (type : (g.entity id).type = .class ∨ (g.entity id).type = .function)
      (home : (g.entity id).home = (w.graph.entity w.current).home)
  | again (same : Retold w.Near w.graph g) {name : String}
      (found : (w.graph.entity w.current).contents.get? name = some id)
      (type : (w.graph.entity id).type = .function) (home : (w.graph.entity id).home = some w.module)

/-- The walk leads from one state to another, in the same scopes and under the same guard. -/
inductive Walks (may : Licence) : Walk → Walk → Prop
  | refl (w : Walk) : Walks may w w
  | act {w : Walk} {g : Graph} (act : w.Act may g) : Walks may w { w with graph := g }
  | trans {w v u : Walk} (first : Walks may w v) (second : Walks may v u) : Walks may w u
  | scope {w v : Walk} {g : Graph} {id : EntityId} (recorded : Walks may w { w with graph := g })
      (opens : w.Opens g id) (inner : Walks may ({ w with graph := g }.enter id) v) :
      Walks may w { v with scopes := w.scopes }
  | arm {w v : Walk} (inner : Walks may { w with guard := some w.guardHere } v) :
      Walks may w { v with guard := w.guard }
  | block {w v : Walk} (inner : Walks may { w with flowDepth := w.flowDepth + 1 } v) :
      Walks may w { v with flowDepth := v.flowDepth - 1 }

namespace Walks

theorem describe (told : Told w.Near w.graph h) : Walks may w { w with graph := h } :=
  .act (.describe told.toRetold fun id => .inl (told.function? id))

theorem tell {place : EntityId} {name : String} (open_ : w.Place place)
    (bound : (w.graph.entity place).contents.get? name = some id) (told : Told (· = id) w.graph h) :
    Walks may w { w with graph := h } :=
  .describe (told.mono fun same => same ▸ open_.near_of_bound bound)

theorem bind {name target : String} (free : w.isGuarded w.current name = false) (named : may.binds name) :
    Walks may w { w with graph := w.graph.modify w.current (Entity.bindAlias name target) } :=
  .act (.bind name target free named)

/-- A fold whose steps are walks from every state that it comes to. -/
theorem foldl {σ α : Type} (graph : σ → Graph) {step : σ → α → σ} (kept : σ → Prop) {items : List α} (start : σ)
    (first : kept start)
    (each : ∀ {state item}, (state, item) ∈ along step items start → kept state → kept (step state item) ∧
      Walks may { w with graph := graph state } { w with graph := graph (step state item) }) :
    Walks may { w with graph := graph start } { w with graph := graph (items.foldl step start) } := by
  have whole : kept (items.foldl step start) ∧
      Walks may { w with graph := graph start } { w with graph := graph (items.foldl step start) } := by
    refine foldl_of_along (motive := fun state => kept state ∧
      Walks may { w with graph := graph start } { w with graph := graph state }) ⟨first, .refl _⟩ ?_
    rintro state item among ⟨holds, before⟩
    obtain ⟨next, walks⟩ := each among holds
    exact ⟨next, before.trans walks⟩
  exact whole.2

end Walks

theorem Act.mono {other : Licence} (act : w.Act may g) (within : may.Within other) : w.Act other g := by
  cases act with
  | describe told functions => exact .describe told fun id => (functions id).imp_right within.defines
  | document distant told => exact .document (within.afar distant) told
  | visit among stmt => exact .visit among stmt
  | depart among stmt => exact .depart among stmt
  | bind name target free named => exact .bind name target free (within.binds named)
  | defer into later => exact .defer into (within.defers later)
  | declare blank above type home order place free told suited named kind plain =>
      exact .declare blank above type home order place free told suited (within.binds named)
        (fun isClass => within.classes (kind isClass)) plain
  | define id bases decorators type unwritten subclasses classes order above kind =>
      exact .define id bases decorators type unwritten subclasses classes order above (within.classes kind)
  | reexport free tried moved => exact .reexport free (within.tries tried) moved

theorem Walks.mono {other : Licence} (walks : Walks may w v) (within : may.Within other) : Walks other w v := by
  induction walks with
  | refl => exact .refl _
  | act act => exact .act (act.mono within)
  | trans _ _ first second => exact first.trans second
  | scope _ opens _ recorded inner => exact .scope recorded opens inner
  | arm _ inner => exact .arm inner
  | block _ inner => exact .block inner

/-- Two states of the walk of one module, in the same scopes and under the same guard. -/
structure Framed (w v : Walk) : Prop where
  module : v.module = w.module
  hooks : v.hooks = w.hooks
  scopes : v.scopes = w.scopes
  guard : v.guard = w.guard

theorem Walks.framed (walks : Walks may w v) : Framed w v := by
  induction walks with
  | refl | act => exact ⟨rfl, rfl, rfl, rfl⟩
  | trans _ _ first second =>
      exact ⟨second.module.trans first.module, second.hooks.trans first.hooks,
        second.scopes.trans first.scopes, second.guard.trans first.guard⟩
  | scope _ _ _ _ inner => exact ⟨inner.module, inner.hooks, rfl, inner.guard⟩
  | arm _ inner => exact ⟨inner.module, inner.hooks, inner.scopes, rfl⟩
  | block _ inner => exact ⟨inner.module, inner.hooks, inner.scopes, inner.guard⟩

theorem Framed.current (framed : Framed w v) : v.current = w.current := by
  rw [Walk.current, Walk.current, framed.module, framed.scopes]

theorem told_leave (w : Walk) (id : EntityId) : Told (w.graph.About · id) w.graph (w.leave id).graph := by
  unfold leave
  dsimp only
  split
  · exact told_settleScope _ _
  · exact .refl _

end Walk

end DocGraph
