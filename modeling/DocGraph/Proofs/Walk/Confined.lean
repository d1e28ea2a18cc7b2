import DocGraph.Proofs.Run.Walking
import DocGraph.Proofs.Walk.Script

namespace DocGraph

namespace Graph

variable {g h k : Graph} {about near : EntityId → Prop}

/-- What a step leaves as it is, the functions apart that it is about. -/
structure Confined (about : EntityId → Prop) (g h : Graph) : Prop where
  has : ∀ {id}, g.Has id → h.Has id
  function? : ∀ {id}, g.Has id → ¬ about id → (h.entity id).function? = (g.entity id).function?
  kind : ∀ {id}, (h.entity id).kind = some .exception → (g.entity id).kind = some .exception

namespace Confined

theorem refl (g : Graph) : Confined about g g := ⟨fun inside => inside, fun _ _ => rfl, fun marked => marked⟩

theorem trans (first : Confined about g h) (second : Confined about h k) : Confined about g k := by
  refine ⟨fun inside => second.has (first.has inside), fun inside far => ?_, fun marked => ?_⟩
  · exact (second.function? (first.has inside) far).trans (first.function? inside far)
  · exact first.kind (second.kind marked)

theorem mono (confined : Confined about g h) (wider : ∀ {id}, about id → near id) : Confined near g h :=
  ⟨confined.has, fun inside far => confined.function? inside fun within => far (wider within), confined.kind⟩

theorem of_told (told : Told near g h) : Confined about g h :=
  ⟨fun inside => by rwa [Has, told.size], fun _ _ => told.function? _, told.unmarked⟩

theorem modify {f : Entity → Entity} (kept : ∀ e : Entity, e.Kept (f e)) (g : Graph) (id : EntityId) :
    Confined about g (g.modify id f) := by
  refine ⟨(g.has_modify id f _).mpr, fun _ _ => ?_, fun {other} marked => ?_⟩
  · exact read_modify g id f Entity.function? (fun e => (kept e).function?) _
  · rw [entity_modify] at marked
    split at marked
    · exact (kept _).kind marked
    · exact marked

theorem declare {e : Entity} (plain : e.kind ≠ some .exception) (g : Graph) (parent : EntityId)
    (retold : Retold (· = ⟨g.size⟩) ((g.alloc e).1.attach parent ⟨g.size⟩) h) : Confined about g h := by
  have arranged := arranged_attach (g.alloc e).1 parent ⟨g.size⟩
  refine ⟨fun inside => ?_, fun {id} inside _ => ?_, fun {id} marked => ?_⟩
  · rw [Has, retold.size, ← Has, arranged.has, has_alloc]
    exact .inl inside
  · have old : id ≠ ⟨g.size⟩ := fun same => g.not_has_fresh (same ▸ inside)
    rw [retold.elsewhere old, arranged.read Entity.function? fun _ _ _ => rfl, entity_alloc_of_has _ _ inside]
  · have before := retold.unmarked marked
    rw [arranged.read Entity.kind fun _ _ _ => rfl, entity_alloc] at before
    split at before
    · exact absurd before plain
    · exact before

theorem move {id target : EntityId} {name : String} (moved : g.move id target name = .ok h) : Confined about g h := by
  refine ⟨fun inside => by rwa [Has, size_move moved], fun _ _ => ?_, fun marked => ?_⟩
  · exact read_move moved Entity.function? (fun _ _ _ _ _ _ => rfl) _
  · rwa [read_move moved Entity.kind fun _ _ _ _ _ _ => rfl] at marked

end Confined

end Graph

/-- A hook that leaves alone what statements do. -/
structure Hook.Confined (hook : Hook) : Prop where
  visit : ∀ g scope module stmt, Graph.Confined (fun _ => False) g (hook.visit g scope module stmt)
  depart : ∀ g scope module stmt, Graph.Confined (fun _ => False) g (hook.depart g scope module stmt)

theorem Hook.confined_standard : ∀ hook ∈ Hook.standard, hook.Confined := by
  intro hook among
  rw [Hook.standard, List.mem_singleton] at among
  rw [among]
  exact ⟨fun g scope module stmt => .of_told (told_typeAliases g scope module stmt), fun g _ _ _ => .refl g⟩

open DocGraph.Graph

namespace Walk

variable {w v : Walk} {may : Licence} {about : EntityId → Prop} {stmt : Stmt}

/-- An act changes no function but those that may be defined again, and makes no class an exception. -/
theorem Act.confined {g : Graph} (act : w.Act may g) (confined : ∀ hook ∈ w.hooks, hook.Confined) :
    Confined may.defines w.graph g := by
  cases act with
  | describe retold functions =>
      exact ⟨fun inside => by rwa [Has, retold.size], fun {id} _ far => (functions id).resolve_right far,
        retold.unmarked⟩
  | document _ told => exact .of_told told
  | visit among stmt => exact ((confined _ among).visit _ _ _ _).mono False.elim
  | depart among stmt => exact ((confined _ among).depart _ _ _ _).mono False.elim
  | bind =>
      refine .modify (fun e => ?_) _ _
      exact ⟨rfl, fun marked => marked⟩
  | defer =>
      refine .modify (fun e => ⟨?_, fun marked => by rwa [Entity.kind_modifyModule] at marked⟩) _ _
      cases payload : e.payload <;> simp [Entity.modifyModule, Entity.function?, payload]
  | declare _ _ _ _ _ _ _ retold _ _ _ plain => exact .declare plain _ _ retold
  | define =>
      refine .modify (fun e => ⟨?_, fun marked => by rwa [Entity.modifyClass_eq] at marked⟩) _ _
      cases payload : e.payload <;> simp [Entity.modifyClass, Entity.function?, payload]
  | reexport _ _ moved => exact reexport_related .move .of_told (congrArg Prod.fst moved)

theorem Walks.confined (walks : Walks may w v) (confined : ∀ hook ∈ w.hooks, hook.Confined) :
    Confined may.defines w.graph v.graph :=
  walks.related .refl .trans (fun same act => act.confined (same ▸ confined)) rfl

/-- All but defining functions again is free. -/
def Licence.defining (defines : EntityId → Prop) : Licence :=
  { Licence.any True with defines }

theorem Licence.allows_defining (own : ∀ id, (w.declared stmt).2 = some id → about id) :
    (Licence.defining about).Allows w stmt where
  afar _ := trivial
  binds _ _ := trivial
  classes _ := trivial
  tries _ _ := trivial
  imports _ := ⟨fun _ => trivial, trivial⟩
  defines _ _ same id opened := own id (same ▸ opened)

theorem confined_handle (confined : ∀ hook ∈ w.hooks, hook.Confined) (other : stmt.isDefinition = false)
    (next : Option Stmt) : Confined (fun _ => False) w.graph (w.handle stmt next).graph := by
  have nothing (id : EntityId) : (w.declared stmt).2 ≠ some id := by
    cases stmt with
    | classDef | function => cases other
    | _ => exact nofun
  exact (walks_handle_of_allows (Licence.allows_defining nothing) next).confined confined

theorem confined_declared (confined : ∀ hook ∈ w.hooks, hook.Confined) (stmt : Stmt) :
    Confined (fun id => (w.declared stmt).2 = some id) w.graph (w.declared stmt).1 :=
  (Script.declares_of_allows (Licence.allows_defining fun _ opened => opened)).recorded.confined confined

theorem confined_visit (confined : ∀ hook ∈ w.hooks, hook.Confined) (stmt : Stmt) :
    Confined (fun _ => False) w.graph (w.visit stmt).graph := by
  have walks : Walks (.defining fun _ => False) w (w.visit stmt) := walks_visit w stmt
  exact walks.confined confined

end Walk

end DocGraph
