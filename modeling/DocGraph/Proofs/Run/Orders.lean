import DocGraph.Proofs.Bases.Locality
import DocGraph.Proofs.Run.Trace

namespace DocGraph

namespace Graph

variable {g h k : Graph} {id : EntityId}

/-- What is stored is what would be stored now, and the bases of a class have an order before it has. -/
structure Ordered (g : Graph) : Prop where
  current : ∀ {id order}, g.mroOf? id = some order → order = g.storedMro id
  closed : ∀ {id base}, (g.mroOf? id).isSome → base ∈ g.basesOf id → (g.mroOf? base).isSome

theorem mroOf?_of_not_has (missing : ¬ g.Has id) : g.mroOf? id = none := by
  rw [mroOf?, g.entity_of_not_has missing]
  rfl

theorem type_of_mroOf? {order : List EntityId} (stored : g.mroOf? id = some order) :
    (g.entity id).type = .class := by
  obtain ⟨info, found, _⟩ := Option.bind_eq_some_iff.mp stored
  exact (g.entity id).class?_isSome.mp (by simp [found])

theorem ordered_empty (options : Options) : (empty options).Ordered := by
  have none (id : EntityId) : (empty options).mroOf? id = none := mroOf?_of_not_has (by simp [Has, size, empty])
  refine ⟨fun {id order} stored => ?_, fun {id base} stored => ?_⟩
  · rw [none] at stored
    cases stored
  · rw [none] at stored
    cases stored

theorem head?_storedMro (g : Graph) (id : EntityId) : (g.storedMro id).head? = some id := by
  unfold storedMro
  split
  · rename_i order computed
    have first := g.toOption_mroFrom_succ g.size [] id
    rw [← computeMro, computed, if_neg List.not_mem_nil, Except.toOption, eq_comm, Option.bind_eq_some_iff] at first
    obtain ⟨orders, _, merged⟩ := first
    obtain ⟨rest, _, rfl⟩ := Option.map_eq_some_iff.mp merged
    rfl
  · exact head?_depthFirstBases g id

theorem Ordered.headed (ordered : g.Ordered) : g.Headed := by
  intro id order stored
  rw [ordered.current stored]
  exact head?_storedMro g id

/-- Orders stay as they are, and so do the bases of whoever has one. -/
structure Orderly (g h : Graph) : Prop where
  mro : ∀ id, h.mroOf? id = g.mroOf? id
  bases : ∀ {id}, (g.mroOf? id).isSome → h.basesOf id = g.basesOf id

namespace Orderly

theorem refl (g : Graph) : Orderly g g := ⟨fun _ => rfl, fun _ => rfl⟩

theorem trans (first : Orderly g h) (second : Orderly h k) : Orderly g k := by
  refine ⟨fun id => (second.mro id).trans (first.mro id), fun {id} stored => ?_⟩
  rw [second.bases (by rwa [first.mro]), first.bases stored]

theorem of_class? (same : ∀ id, (h.entity id).class? = (g.entity id).class?) : Orderly g h := by
  refine ⟨fun id => ?_, fun {id} _ => ?_⟩
  · rw [mroOf?, same, mroOf?]
  · rw [basesOf, Entity.bases_eq, same, basesOf, Entity.bases_eq]

theorem modify {f : Entity → Entity} (kept : ∀ e, (f e).class? = e.class?) : Orderly g (g.modify id f) :=
  .of_class? (read_modify _ _ _ Entity.class? kept)

theorem of_labelled {about : EntityId → Prop} (labelled : Labelled about g h) : Orderly g h :=
  .of_class? labelled.class?

theorem of_told {about : EntityId → Prop} (told : Told about g h) : Orderly g h := .of_labelled told.toLabelled

theorem of_noted (noted : Noted id g h) : Orderly g h := by
  refine .of_class? fun other => ?_
  by_cases same : other = id
  · rw [same]
    exact noted.class?
  · rw [noted.elsewhere same]

theorem append {e : Entity} (order : e.class?.bind ClassInfo.mro = none)
    (same : ∀ id, (h.entity id).class? = ((g.alloc e).1.entity id).class?) : Orderly g h := by
  have old {id : EntityId} (inside : g.Has id) : (h.entity id).class? = (g.entity id).class? := by
    rw [same, entity_alloc_of_has _ _ inside]
  refine ⟨fun id => ?_, fun {id} stored => ?_⟩
  · by_cases inside : g.Has id
    · rw [mroOf?, old inside, mroOf?]
    · rw [mroOf?_of_not_has inside, mroOf?, same, entity_alloc]
      split
      · exact order
      · exact mroOf?_of_not_has inside
  · have inside : g.Has id := by
      by_contra missing
      rw [mroOf?_of_not_has missing] at stored
      cases stored
    rw [basesOf, Entity.bases_eq, old inside, basesOf, Entity.bases_eq]

theorem define (order : g.mroOf? id = none) (bases : BaseLists) (decorators : List Decorator) :
    Orderly g (g.modify id (Entity.modifyClass fun _ => { bases, decorators })) := by
  refine ⟨fun other => ?_, fun {other} stored => ?_⟩
  · rw [mroOf?_modify]
    split
    · rename_i same
      rw [same, order]
      cases (g.entity id).class? <;> rfl
    · rfl
  · have apart : other ≠ id := by
      rintro rfl
      rw [order] at stored
      cases stored
    rw [basesOf, entity_modify_of_ne _ _ _ apart.symm, basesOf]

theorem of_move {target : EntityId} {name : String} (moved : g.move id target name = .ok h) : Orderly g h :=
  .of_class? (read_move moved Entity.class? fun _ _ _ _ _ _ => rfl)

theorem of_addModule {name : String} {isPackage : Bool} (added : g.addModule name isPackage = .ok (h, id)) :
    Orderly g h := by
  obtain ⟨_, own, parent, read⟩ := read_addModule added
  exact .append (e := newModule own parent isPackage ⟨g.size⟩) rfl (read Entity.class? fun _ _ _ => rfl)

theorem of_addEntity (g : Graph) (parent : EntityId) (name : String) {payload : Payload}
    (kind : Option EntityKind) (line : Nat) (slots : payload.type = .class → payload = .class {}) :
    Orderly g (g.addEntity parent name payload kind line).1 := by
  refine .append ?_ ((arranged_addEntity g parent name payload kind line).read Entity.class? fun _ _ _ => rfl)
  cases payload with
  | «class» info =>
      rw [slots rfl]
      rfl
  | _ => rfl

/-- Orders that were current still are: all that they depend on is as it was. -/
theorem ordered (orderly : Orderly g h) (ordered : g.Ordered) : h.Ordered := by
  have alike : SameBases (fun id => (g.mroOf? id).isSome) g h := ⟨orderly.bases, ordered.closed⟩
  refine ⟨fun {id order} stored => ?_, fun {id base} stored among => ?_⟩
  · rw [orderly.mro] at stored
    rw [alike.storedMro (by rw [stored]; rfl)]
    exact ordered.current stored
  · rw [orderly.mro] at stored ⊢
    rw [orderly.bases stored] at among
    exact ordered.closed stored among

theorem headed (orderly : Orderly g h) (headed : g.Headed) : h.Headed := by
  intro id order stored
  rw [orderly.mro] at stored
  exact headed id order stored

end Orderly

end Graph

open DocGraph.Graph

namespace Walk

variable {w v : Walk} {g : Graph} {may : Licence}

theorem Act.orderly (act : w.Act may g) (tells : ∀ hook ∈ w.hooks, hook.Tells) : Orderly w.graph g := by
  cases act with
  | describe told => exact .of_labelled told.toLabelled
  | document _ told => exact .of_told told
  | visit among stmt => exact .of_labelled ((tells _ among).visit _ _ _ _)
  | depart among stmt => exact .of_labelled ((tells _ among).depart _ _ _ _)
  | bind name target _ => exact .modify fun _ => rfl
  | defer _ => exact .modify fun e => e.class?_modifyModule _
  | @declare parent e _ _ _ _ _ order _ _ told _ =>
      have attached := (arranged_attach (w.graph.alloc e).1 parent ⟨w.graph.size⟩).read Entity.class? fun _ _ _ => rfl
      exact (Orderly.append order attached).trans (.of_labelled told.toLabelled)
  | define id bases decorators _ _ _ _ order _ => exact .define order (.ofSlots bases) decorators
  | reexport _ _ moved => exact reexport_related .of_move .of_told (congrArg Prod.fst moved)

end Walk

theorem Graph.Orderly.of_build {g h : Graph} {hooks : List Hook} (tells : ∀ hook ∈ hooks, hook.Tells) {id : EntityId}
    {source : Except SourceError Module} {state : BuildState} (built : g.build hooks id source = .ok (h, state)) :
    Orderly g h :=
  build_related .refl .trans .of_noted .of_told (fun same act => act.orderly (same ▸ tells)) built

/-- The hooks of a call tell things about what they are shown, and do nothing else. -/
def Call.Tells : Call → Prop
  | .build hooks _ _ => ∀ hook ∈ hooks, hook.Tells
  | _ => True

theorem Call.Outcome.orderly {g h : Graph} {call : Call} (outcome : Outcome g call h) (other : call ≠ .finish)
    (tells : call.Tells) : Orderly g h := by
  cases outcome with
  | refused => exact .refl g
  | addModule added => exact .of_addModule added
  | addClass => exact .of_addEntity g _ _ _ _ fun _ => rfl
  | addFunction | addAttribute => exact .of_addEntity g _ _ _ _ (by rintro ⟨⟩)
  | build built => exact .of_build tells built
  | reexport => exact reexport_related .of_move .of_told rfl
  | move moved => exact .of_move moved
  | finish => exact absurd rfl other

end DocGraph
