import DocGraph.Proofs.Registry.Numbering
import DocGraph.Proofs.Walk.History
import DocGraph.Proofs.Walk.Reports

namespace DocGraph

open DocGraph.Graph

/-- A definition of a function, with what its decorators make of it. -/
structure Definition where
  head : FunctionHead
  decorated : Decorated

namespace Definition

variable (d : Definition)

/-- The name that the function is stored under. -/
def name : String := d.decorated.accessor.getD d.head.name

def isOverload : Bool := d.decorated.isOverload

/-- The signature, unless the parameters are invalid. -/
def signature? : Option Signature := (Signature.build d.head.args d.head.returns).toOption

/-- The overload that is listed in a function. -/
def overload (primary : EntityId) : Overload :=
  { signature := d.signature?, decorators := d.decorated.decorators, primary, line := d.head.line }

end Definition

namespace FunctionInfo

variable {info : FunctionInfo} {id : EntityId} {defs : List Definition} {d : Definition}

/-- The function lists the overloads in front of the first plain definition and has the signature of the
last plain one. -/
structure Gathers (info : FunctionInfo) (id : EntityId) (defs : List Definition) : Prop where
  overloads : info.overloads = (defs.takeWhile Definition.isOverload).map (Definition.overload · id)
  signature : info.signature = (defs.filter fun d => !d.isOverload).getLast?.bind Definition.signature?

namespace Gathers

theorem isSome_signature (gathers : info.Gathers id defs) (valid : ∀ d ∈ defs, d.signature?.isSome) :
    info.signature.isSome ↔ ∃ d ∈ defs, d.isOverload = false := by
  rw [gathers.signature]
  cases last : (defs.filter fun d => !d.isOverload).getLast? with
  | none =>
      have none := List.filter_eq_nil_iff.mp (List.getLast?_eq_none_iff.mp last)
      simpa using none
  | some d =>
      obtain ⟨among, plain⟩ := List.mem_filter.mp (List.mem_of_getLast? last)
      exact ⟨fun _ => ⟨d, among, by simpa using plain⟩, fun _ => valid d among⟩

theorem overloads_ne_nil (gathers : info.Gathers id defs) (defined : defs ≠ [])
    (leads : ∀ d, defs.head? = some d → d.isOverload = true) : info.overloads ≠ [] := by
  cases defs with
  | nil => exact absurd rfl defined
  | cons first later => simp [gathers.overloads, leads first rfl]

theorem takeWhile_concat (stop : d.isOverload = false ∨ ∃ d ∈ defs, d.isOverload = false) :
    (defs ++ [d]).takeWhile Definition.isOverload = defs.takeWhile Definition.isOverload := by
  induction defs with
  | nil => simpa [List.takeWhile_cons] using stop
  | cons first later ih =>
      cases marked : first.isOverload with
      | false => simp [marked]
      | true =>
          rw [List.cons_append, List.takeWhile_cons_of_pos marked, List.takeWhile_cons_of_pos marked, ih]
          simpa [marked] using stop

theorem late (gathers : info.Gathers id defs) (marked : d.isOverload = true)
    (plain : ∃ d ∈ defs, d.isOverload = false) : info.Gathers id (defs ++ [d]) := by
  refine ⟨?_, ?_⟩
  · rw [takeWhile_concat (.inr plain), gathers.overloads]
  · rw [gathers.signature]
    simp [marked]

theorem record (gathers : info.Gathers id defs)
    (early : d.isOverload = true → ∀ d ∈ defs, d.isOverload = true) :
    (recordDefinition id d.head d.decorated d.signature? info).Gathers id (defs ++ [d]) := by
  cases marked : d.isOverload with
  | true =>
      have before := early marked
      have kind : d.decorated.isOverload = true := marked
      refine ⟨?_, ?_⟩
      · have whole : defs.takeWhile Definition.isOverload = defs := by
          have same : (defs ++ []).takeWhile Definition.isOverload = defs ++ [] := List.takeWhile_append_of_pos before
          simpa using same
        rw [List.takeWhile_append_of_pos before]
        simp [recordDefinition, kind, gathers.overloads, whole, marked, Definition.overload]
      · simp [recordDefinition, kind, gathers.signature, marked]
  | false =>
      have kind : d.decorated.isOverload = false := marked
      refine ⟨?_, ?_⟩
      · rw [takeWhile_concat (.inl marked)]
        simp [recordDefinition, kind, gathers.overloads]
      · simp [recordDefinition, kind, marked]

end Gathers

end FunctionInfo

namespace Entity

variable {e f : Entity}

theorem function?_modifyFunction (e : Entity) (record : FunctionInfo → FunctionInfo) :
    (e.modifyFunction record).function? = e.function?.map record := by
  unfold modifyFunction
  split <;> simp_all [function?]

theorem type_of_function? {info : FunctionInfo} (function : e.function? = some info) : e.type = .function := by
  cases payload : e.payload <;> simp [function?, type, Payload.type, payload] at function ⊢

theorem isContainer_of_type (container : e.isContainer = true) (same : f.type = e.type) : f.isContainer = true := by
  unfold isContainer at container ⊢
  rwa [same]

end Entity

/-- A report on an overload that stands behind a definition which completes the function. -/
def Diagnostic.TellsOfLateOverload (d : Diagnostic) : Prop :=
  ∃ name, d.message = name ++ " overload appeared after primary function"

namespace Graph

variable {g h k : Graph} {id parent : EntityId} {name : String}

theorem has_of_function? {info : FunctionInfo} (function : (g.entity id).function? = some info) : g.Has id :=
  g.has_of_type (by simp [Entity.type_of_function? function])

section addEntity

variable (inside : g.Has parent) (free : (g.entity parent).contents.get? name = none) (payload : Payload)
  (kind : Option EntityKind) (line : Nat)

include inside free

theorem free_alloc :
    ((g.alloc (g.declared parent name payload kind line)).1.entity parent).contents.get?
      ((g.alloc (g.declared parent name payload kind line)).1.entity ⟨g.size⟩).name = none := by
  rw [entity_alloc_of_has _ _ inside, entity_alloc, if_pos rfl]
  exact free

theorem contents_addEntity_of_free (id : EntityId) (key : String) :
    ((g.addEntity parent name payload kind line).1.entity id).contents.get? key =
      if id = parent ∧ name = key then some ⟨g.size⟩ else (g.entity id).contents.get? key := by
  have named : ((g.alloc (g.declared parent name payload kind line)).1.entity ⟨g.size⟩).name = name := by
    rw [entity_alloc, if_pos rfl]
    rfl
  have attached : (g.addEntity parent name payload kind line).1 =
      ((g.alloc (g.declared parent name payload kind line)).1.bindChild parent name ⟨g.size⟩).register ⟨g.size⟩ := by
    have attached := attach_of_free (free_alloc inside free payload kind line)
    rw [named] at attached
    exact attached
  have table : ((g.alloc (g.declared parent name payload kind line)).1.entity id).contents =
      (g.entity id).contents := by
    rw [entity_alloc]
    split
    · rename_i fresh
      rw [fresh, g.entity_of_not_has g.not_has_fresh]
      rfl
    · rfl
  rw [attached, entity_congr (entities_register _ _),
    contents_bindChild ((g.has_alloc _ _).mpr (.inl inside)), entity_alloc_of_has _ _ inside, table]
  by_cases same : id = parent
  · rw [if_pos same, Contents.get?_insert, same]
    simp
  · simp [same]

theorem get?_addEntity_of_free :
    ((g.addEntity parent name payload kind line).1.entity parent).contents.get? name = some ⟨g.size⟩ := by
  rw [contents_addEntity_of_free inside free, if_pos ⟨rfl, rfl⟩]

theorem diagnostics_addEntity_of_free : (g.addEntity parent name payload kind line).1.diagnostics = g.diagnostics :=
  diagnostics_attach_of_free (free_alloc inside free payload kind line)

end addEntity

theorem function?_defineFunction (id : EntityId) (d : Definition) (body : List Stmt) :
    ((g.defineFunction id d.head body d.decorated).entity id).function? =
      (g.entity id).function?.map (recordDefinition id d.head d.decorated d.signature?) := by
  have documented : ((g.documentFunction id body d.decorated.isOverload).entity id).function? =
      (g.entity id).function? := by
    unfold documentFunction
    split
    · rfl
    · split
      · rfl
      · exact read_modify _ _ _ Entity.function? (by intro; rfl) _
  unfold defineFunction Definition.signature?
  generalize g.documentFunction id body d.decorated.isOverload = k at documented ⊢
  -- What is recorded is the last of the changes, and the warnings before it change no entity.
  have recorded (m : Graph) (same : (m.entity id).function? = (g.entity id).function?)
      (signature : Option Signature) :
      ((m.modify id fun e => { e with kind := d.decorated.kind?.or e.kind }.modifyFunction
          (recordDefinition id d.head d.decorated signature)).entity id).function? =
        (g.entity id).function?.map (recordDefinition id d.head d.decorated signature) := by
    by_cases inside : m.Has id
    · rw [entity_modify_self _ _ _ inside, Entity.function?_modifyFunction, ← same]
      rfl
    · rw [entity_modify, if_neg (fun both => inside both.2), ← same, m.entity_of_not_has inside]
      rfl
  have warned : ((if (d.decorated.has .classMethod && d.decorated.has .staticMethod) = true then
      k.warnAbout id " is both classmethod and staticmethod" 0 else k).entity id).function? =
        (g.entity id).function? := by
    split <;> exact documented
  dsimp only
  cases Signature.build d.head.args d.head.returns with
  | ok signature => exact recorded _ warned _
  | error reason => exact recorded _ warned _

/-- None of the reports that come in between is on a late overload. -/
def Timely : Graph → Graph → Prop := ReportsOnly fun d => ¬ d.TellsOfLateOverload

theorem timely_warnAbout (g : Graph) (id : EntityId) {text : String} (ending : text.toList.getLast? = some 'd')
    (offset : Int) : Timely g (g.warnAbout id text offset) := by
  refine .report g id offset (-1) fun d told _ => ?_
  rintro ⟨name, same⟩
  -- The two messages end in different letters.
  have last := congrArg (fun message : String => message.toList.getLast?) (told.symm.trans same)
  have late : " overload appeared after primary function".toList.getLast? = some 'n' := by decide
  simp only [String.toList_append, List.getLast?_append, ending, late, Option.some_or] at last
  exact absurd last (by decide)

theorem timely_defineFunction (g : Graph) (id : EntityId) (body : List Stmt) {d : Definition}
    (valid : d.signature?.isSome) : Timely g (g.defineFunction id d.head body d.decorated) := by
  refine .defineFunction g id d.head body d.decorated (fun k offset => timely_warnAbout k id (by decide) offset)
    (fun k => timely_warnAbout k id (by decide) 0) fun k reason refused => ?_
  rw [Definition.signature?, refused] at valid
  cases valid

/-- The report of an overload on a line, if it is late for a function of a module. -/
def lateOverload (g : Graph) (module id : EntityId) (line : Nat) : Diagnostic :=
  { module := g.fullName module, entity := g.fullName id, topic := "ast", line := min line greatestLine
    message := g.fullName id ++ " overload appeared after primary function", threshold := -1 }

theorem warnAbout_lateOverload {module : EntityId} (home : (g.entity id).home = some module) (line : Nat) :
    g.warnAbout id " overload appeared after primary function" (g.offsetFrom id line) =
      { g with diagnostics := g.diagnostics.report (g.lateOverload module id line) } := by
  have placed : lineAt (g.entity id).line (g.offsetFrom id line) = min line greatestLine := by
    have moved : ((g.entity id).line : Int) + g.offsetFrom id line = line := by
      unfold offsetFrom
      omega
    rw [lineAt, moved, Int.toNat_natCast]
  rw [warnAbout, report, home, placed]
  rfl

variable {module scope : EntityId} {defs : List Definition} {d : Definition}

/-- A name of a scope stands for a function of the module that some definitions are gathered in. -/
structure Collects (module scope : EntityId) (name : String) (id : EntityId) (defs : List Definition) (g : Graph) :
    Prop where
  bound : (g.entity scope).contents.get? name = some id
  home : (g.entity id).home = some module
  function : ∃ info, (g.entity id).function? = some info ∧ info.Gathers id defs

namespace Collects

theorem kept {about : EntityId → Prop} (collects : Collects module scope name id defs g)
    (same : (h.entity scope).contents.get? name = (g.entity scope).contents.get? name) (homes : SameHomes g h)
    (confined : Confined about g h) (apart : ¬ about id) : Collects module scope name id defs h := by
  obtain ⟨info, function, gathers⟩ := collects.function
  have still := (confined.function? (has_of_function? function) apart).trans function
  exact ⟨same.trans collects.bound, homes _ _ collects.home, info, still, gathers⟩

theorem addFunction (inside : g.Has scope) (free : (g.entity scope).contents.get? name = none)
    (home : (g.entity scope).home = some module) (line : Nat) :
    Collects module scope name ⟨g.size⟩ [] (g.addFunction scope name line).1 := by
  refine ⟨get?_addEntity_of_free inside free _ _ _, ?_, {}, ?_, rfl, rfl⟩
  · exact (read_addEntity g scope name (.function {}) _ line Entity.home fun _ _ _ => rfl).trans home
  · exact read_addEntity g scope name (.function {}) _ line Entity.function? fun _ _ _ => rfl

theorem type (collects : Collects module scope name id defs g) : (g.entity id).type = .function := by
  obtain ⟨info, function, _⟩ := collects.function
  exact Entity.type_of_function? function

theorem define (collects : Collects module scope name id defs g)
    (early : d.isOverload = true → ∀ d ∈ defs, d.isOverload = true) (body : List Stmt) :
    Collects module scope name id (defs ++ [d]) (g.defineFunction id d.head body d.decorated) := by
  have described := (retold_defineFunction collects.type d.head body d.decorated).described
  obtain ⟨info, function, gathers⟩ := collects.function
  refine ⟨?_, (described.entity id).home.trans collects.home, _, ?_, gathers.record early⟩
  · rw [(described.entity scope).contents, collects.bound]
  · rw [function?_defineFunction, function]
    rfl

theorem late (collects : Collects module scope name id defs g) (marked : d.isOverload = true)
    (plain : ∃ d ∈ defs, d.isOverload = false) : Collects module scope name id (defs ++ [d]) g := by
  obtain ⟨info, function, gathers⟩ := collects.function
  exact ⟨collects.bound, collects.home, info, function, gathers.late marked plain⟩

section slot

variable (collects : Collects module scope name id defs g) (valid : ∀ d ∈ defs, d.signature?.isSome)

include collects valid

theorem slot_late (plain : ∃ d ∈ defs, d.isOverload = false) :
    g.functionSlot module scope name true = .late id := by
  obtain ⟨info, function, gathers⟩ := collects.function
  have complete := (gathers.isSome_signature valid).mpr plain
  simp [functionSlot, collects.bound, collects.home, function, complete]

theorem slot_extend (defined : defs ≠ []) (leads : ∀ d, defs.head? = some d → d.isOverload = true)
    {isOverload : Bool} (early : isOverload = true → ∀ d ∈ defs, d.isOverload = true) :
    g.functionSlot module scope name isOverload = .extend id := by
  obtain ⟨info, function, gathers⟩ := collects.function
  have overloads := gathers.overloads_ne_nil defined leads
  have incomplete : ¬ (isOverload = true ∧ info.signature.isSome = true) := by
    rintro ⟨marked, complete⟩
    obtain ⟨d, among, plain⟩ := (gathers.isSome_signature valid).mp complete
    rw [early marked d among] at plain
    cases plain
  simp [functionSlot, collects.bound, collects.home, function, incomplete, overloads]

end slot

end Collects

end Graph

namespace Walk

variable {w u : Walk} {module scope id : EntityId} {name : String} {stmt : Stmt} {d : Definition}
  {past rest states : List (Walk × Stmt)} {g h : Graph}

/-- The definition that a statement adds to the functions of a scope under a name. What a guard keeps is not
recorded, and a property is no function. -/
def definition? (scope : EntityId) (name : String) (w : Walk) : Stmt → Option Definition
  | .function head _ =>
      let d : Definition := ⟨head, w.graph.decorated w.current head.decorators⟩
      if w.current = scope ∧ d.name = name ∧ w.isGuarded scope name = false ∧ d.decorated.isProperty = false then
        some d
      else none
  | _ => none

/-- All these definitions among the statements that a walk comes to. -/
def definitions (scope : EntityId) (name : String) (states : List (Walk × Stmt)) : List Definition :=
  states.filterMap fun state => definition? scope name state.1 state.2

/-- The entity that is made where the walk comes to the first of them. -/
def primary? (scope : EntityId) (name : String) (states : List (Walk × Stmt)) : Option EntityId :=
  states.findSome? fun state => (definition? scope name state.1 state.2).map fun _ => ⟨state.1.graph.size⟩

theorem primary?_eq_none : primary? scope name states = none ↔ definitions scope name states = [] := by
  simp [primary?, definitions]

theorem definitions_append : definitions scope name (past ++ rest) =
    definitions scope name past ++ definitions scope name rest :=
  List.filterMap_append

theorem primary?_append : primary? scope name (past ++ rest) =
    (primary? scope name past).or (primary? scope name rest) :=
  List.findSome?_append

theorem definitions_single : definitions scope name [(u, stmt)] = (definition? scope name u stmt).toList := by
  cases found : definition? scope name u stmt <;> simp [definitions, found]

theorem primary?_single : primary? scope name [(u, stmt)] =
    (definition? scope name u stmt).map fun _ => ⟨u.graph.size⟩ := by
  cases found : definition? scope name u stmt <;> simp [primary?, found]

theorem primary?_concat (first : primary? scope name (past ++ (u, stmt) :: rest) = some id)
    (found : definition? scope name u stmt = some d) : primary? scope name (past ++ [(u, stmt)]) = some id := by
  have defined : primary? scope name (past ++ [(u, stmt)]) ≠ none := by
    rw [Ne, primary?_eq_none, definitions_append, definitions_single, found]
    simp
  obtain ⟨other, here⟩ := Option.ne_none_iff_exists'.mp defined
  rw [List.append_cons, primary?_append, here, Option.some_or] at first
  exact here.trans first

/-- What a statement records, the statements inside it apart. -/
def recorded (w : Walk) (stmt : Stmt) (next : Option Stmt) : Graph :=
  if stmt.isDefinition then (w.declared stmt).1 else (w.handle stmt next).graph

/-- The statement leaves what a scope binds to a name. -/
def Spares (scope : EntityId) (name : String) (w : Walk) (stmt : Stmt) : Prop :=
  ∀ next, ((w.recorded stmt next).entity scope).contents.get? name = (w.graph.entity scope).contents.get? name

/-- What stands behind a statement is looked at only if the statement assigns. -/
theorem recorded_of_targetsOf (none : Hook.targetsOf stmt = []) (next other : Option Stmt) :
    w.recorded stmt next = w.recorded stmt other := by
  cases stmt with
  | assign targets =>
      rw [Hook.targetsOf] at none
      rw [none]
      rfl
  | annAssign => cases none
  | _ => rfl

/-- Statements that define a function with valid parameters, first as an overload, and otherwise leave its
name. -/
structure OverloadGroup (scope : EntityId) (name : String) (states : List (Walk × Stmt)) : Prop where
  leads : ∀ d, (definitions scope name states).head? = some d → d.isOverload = true
  valid : ∀ d ∈ definitions scope name states, d.signature?.isSome
  spares : ∀ u stmt, (u, stmt) ∈ states → definition? scope name u stmt = none → u.Spares scope name stmt

theorem OverloadGroup.append (group : OverloadGroup scope name (past ++ rest)) : OverloadGroup scope name past := by
  obtain ⟨leads, valid, spares⟩ := group
  rw [definitions_append] at leads valid
  refine ⟨fun d first => leads d ?_, fun d among => valid d (List.mem_append_left _ among),
    fun u stmt among => spares u stmt (List.mem_append_left _ among)⟩
  rw [List.head?_append, first, Option.some_or]

theorem definition?_of_not_definition (other : stmt.isDefinition = false) : definition? scope name u stmt = none := by
  cases stmt <;> first | rfl | cases other

theorem definition?_eq_some (found : definition? scope name u stmt = some d) :
    u.current = scope ∧ d.name = name ∧ u.isGuarded scope name = false ∧ d.decorated.isProperty = false ∧
      u.graph.decorated u.current d.head.decorators = d.decorated ∧ ∃ body, stmt = .function d.head body := by
  cases stmt with
  | function head body =>
      simp only [definition?] at found
      split at found
      · rename_i recorded
        cases found
        exact ⟨recorded.1, recorded.2.1, recorded.2.2.1, recorded.2.2.2, rfl, body, rfl⟩
      · cases found
  | _ => cases found

section recorded

variable (container : (u.graph.entity scope).isContainer = true) (found : definition? scope name u stmt = some d)

include container found

theorem declared_of_definition? :
    ∃ body, stmt = .function d.head body ∧
      (u.graph.functionSlot u.module scope name d.isOverload = .fresh →
        u.declared stmt = ((u.graph.addFunction scope name d.head.line).1.defineFunction ⟨u.graph.size⟩ d.head body
          d.decorated, some ⟨u.graph.size⟩)) ∧
      (∀ id, u.graph.functionSlot u.module scope name d.isOverload = .extend id →
        u.declared stmt = (u.graph.defineFunction id d.head body d.decorated, some id)) ∧
      ∀ id, u.graph.functionSlot u.module scope name d.isOverload = .late id →
        u.declared stmt = (u.graph.warnAbout id " overload appeared after primary function"
          (u.graph.offsetFrom id d.head.line), none) := by
  obtain ⟨rfl, named, free, function, decorated, body, rfl⟩ := definition?_eq_some found
  have opened : u.scope.type ≠ .function := by
    intro type
    have same : (u.graph.entity u.current).type = .function := type
    simp [Entity.isContainer, same] at container
  unfold Definition.name at named
  refine ⟨body, rfl, ?_⟩
  simp only [declared, declareFunction, decorated, named, free, opened, function, Definition.isOverload]
  refine ⟨fun slot => ?_, fun id slot => ?_, fun id slot => ?_⟩ <;> rw [slot] <;> rfl

end recorded

theorem isSome_definition?_of_opens (sound : u.graph.Sound) (opened : (u.declared stmt).2 = some id)
    (bound : (u.graph.entity scope).contents.get? name = some id) :
    (definition? scope name u stmt).isSome := by
  obtain ⟨held, named⟩ := sound.tabled.bound bound
  have old : id ≠ ⟨u.graph.size⟩ := by
    rintro rfl
    exact u.graph.not_has_fresh (u.graph.has_of_parent held)
  cases stmt with
  | classDef head body =>
      simp only [declared, declareClass] at opened
      split at opened
      · cases opened
      · exact absurd (Option.some.inj opened).symm ((defineClass_parts _ _ _ _).choose_spec.choose_spec.2.2 ▸ old)
  | function head body =>
      simp only [declared, declareFunction] at opened
      split at opened
      · cases opened
      · rename_i open_
        split at opened
        · cases opened
        · rename_i function
          split at opened
          · exact absurd (Option.some.inj opened).symm old
          · rename_i slot
            cases opened
            obtain ⟨there, _, _⟩ := functionSlot_eq_extend slot
            obtain ⟨heldThere, namedThere⟩ := sound.tabled.bound there
            have same : u.current = scope := Option.some.inj (heldThere.symm.trans held)
            have equal := namedThere.symm.trans named
            subst same
            subst equal
            have free := (not_or.mp open_).2
            simp [definition?, Definition.name, free, function]
          · cases opened
  | _ => cases opened

/-- What the statements of a walk have made of a name: nothing yet, or one function. -/
structure Gathered (module scope : EntityId) (name : String) (past : List (Walk × Stmt)) (g : Graph) : Prop where
  container : (g.entity scope).isContainer = true
  unbound : primary? scope name past = none → (g.entity scope).contents.get? name = none
  collects : ∀ {id}, primary? scope name past = some id →
    g.Collects module scope name id (definitions scope name past)

namespace Gathered

theorem kept {about : EntityId → Prop} (gathered : Gathered module scope name past g)
    (type : (h.entity scope).type = (g.entity scope).type)
    (same : (h.entity scope).contents.get? name = (g.entity scope).contents.get? name) (homes : SameHomes g h)
    (confined : Confined about g h) (apart : ∀ {id}, primary? scope name past = some id → ¬ about id) :
    Gathered module scope name past h := by
  refine ⟨?_, fun none => same.trans (gathered.unbound none), fun first => ?_⟩
  · exact Entity.isContainer_of_type gathered.container type
  · exact (gathered.collects first).kept same homes confined (apart first)

theorem quiet (gathered : Gathered module scope name past g) (described : Described g h)
    (confined : Confined (fun _ => False) g h) : Gathered module scope name past h := by
  have entity := described.entity scope
  exact gathered.kept entity.type (by rw [entity.contents]) (.of_described described) confined fun _ none => none

theorem skip (gathered : Gathered module scope name past g) (other : definition? scope name u stmt = none) :
    Gathered module scope name (past ++ [(u, stmt)]) g := by
  have first : primary? scope name (past ++ [(u, stmt)]) = primary? scope name past := by
    rw [primary?_append, primary?_single, other, Option.map_none, Option.or_none]
  have defs : definitions scope name (past ++ [(u, stmt)]) = definitions scope name past := by
    rw [definitions_append, definitions_single, other, Option.toList_none, List.append_nil]
  refine ⟨gathered.container, ?_, ?_⟩
  · rw [first]
    exact gathered.unbound
  · rw [first, defs]
    exact gathered.collects

theorem plain (gathered : Gathered module scope name past u.graph) (inBuild : u.InStandardBuild) (next : Option Stmt)
    (other : stmt.isDefinition = false) (spares : u.Spares scope name stmt) :
    Gathered module scope name (past ++ [(u, stmt)]) (u.handle stmt next).graph := by
  have walks : Walks (.any True) u (u.handle stmt next) := walks_handle u (fun _ => trivial) next
  have lasts := (walks.path inBuild.valid).lasts inBuild.valid.sound
    (u.graph.has_of_isContainer gathered.container)
  have confined : Confined (fun _ => False) u.graph (u.handle stmt next).graph := confined_handle inBuild.confined other next
  have same := spares next
  rw [recorded, other] at same
  refine (gathered.kept lasts.2.type same (inBuild.atHome.sameHomes walks) confined fun _ none => none).skip ?_
  exact definition?_of_not_definition other

theorem otherDefinition (gathered : Gathered module scope name past u.graph) (inBuild : u.InStandardBuild)
    (defines : stmt.isDefinition = true) (other : definition? scope name u stmt = none)
    (spares : u.Spares scope name stmt) :
    Gathered module scope name (past ++ [(u, stmt)]) (u.declared stmt).1 := by
  have declares : Declares (.any True) u (u.declared stmt) := Script.declares_declared u stmt
  have walks := declares.recorded
  have sound := inBuild.valid.sound
  have lasts := (walks.path inBuild.valid).lasts sound (u.graph.has_of_isContainer gathered.container)
  have same := spares none
  rw [recorded, defines] at same
  refine (gathered.kept lasts.2.type same (inBuild.atHome.sameHomes walks) (confined_declared inBuild.confined stmt)
    fun {id} first opened => ?_).skip other
  -- A definition that opens the function would be in its history.
  have defined := isSome_definition?_of_opens sound opened (gathered.collects first).bound
  rw [other] at defined
  cases defined

end Gathered

/-- The definition is an overload, and a plain definition stands in front of it. -/
def Late (defs : List Definition) (d : Definition) : Prop :=
  d.isOverload = true ∧ ∃ plain ∈ defs, plain.isOverload = false

theorem early_of_not_late {defs : List Definition} (early : ¬ Late defs d) :
    d.isOverload = true → ∀ d ∈ defs, d.isOverload = true := by
  intro marked other among
  cases plain : other.isOverload with
  | true => rfl
  | false => exact absurd ⟨marked, other, among, plain⟩ early

section define

variable (gathered : Gathered u.module scope name past u.graph) (inBuild : u.InStandardBuild)
  (group : OverloadGroup scope name (past ++ [(u, stmt)])) (found : definition? scope name u stmt = some d)
  (first : primary? scope name (past ++ [(u, stmt)]) = some id)

include gathered group found first

theorem declared_late (late : Late (definitions scope name past) d) :
    u.graph.Collects u.module scope name id (definitions scope name past) ∧
      u.declared stmt = ({ u.graph with
        diagnostics := u.graph.diagnostics.report (u.graph.lateOverload u.module id d.head.line) }, none) := by
  obtain ⟨marked, plain⟩ := late
  obtain ⟨body, _, _, _, declared⟩ := declared_of_definition? gathered.container found
  rw [primary?_append] at first
  cases before : primary? scope name past with
  | none =>
      rw [primary?_eq_none.mp before] at plain
      simp at plain
  | some earlier =>
      rw [before, Option.some_or] at first
      cases first
      have collects := gathered.collects before
      have slot := collects.slot_late group.append.valid plain
      rw [← marked] at slot
      exact ⟨collects, (declared id slot).trans (by rw [warnAbout_lateOverload collects.home])⟩

include inBuild

/-- A definition that is not late is stored in the function, which the first one has to declare. -/
theorem declared_early (early : ¬ Late (definitions scope name past) d) :
    ∃ k body, k.Collects u.module scope name id (definitions scope name past) ∧ Timely u.graph k ∧
      k.size = u.graph.size + (if definitions scope name past = [] then 1 else 0) ∧
      u.declared stmt = (k.defineFunction id d.head body d.decorated, some id) := by
  obtain ⟨body, _, fresh, extend, _⟩ := declared_of_definition? gathered.container found
  have inside := u.graph.has_of_isContainer gathered.container
  rw [primary?_append, primary?_single, found] at first
  -- The first definition finds the name unbound; a later one finds the function, with an overload in it.
  cases before : primary? scope name past with
  | none =>
      have none := primary?_eq_none.mp before
      have unbound := gathered.unbound before
      have home : (u.graph.entity scope).home = some u.module := (definition?_eq_some found).1 ▸ inBuild.atHome.current
      have slot : u.graph.functionSlot u.module scope name d.isOverload = .fresh := by
        rw [functionSlot, unbound]
      rw [before, Option.none_or, Option.map_some] at first
      cases first
      rw [none, if_pos rfl]
      refine ⟨_, body, .addFunction inside unbound home d.head.line, ?_, ?_, fresh slot⟩
      · exact ReportsOnly.of_eq (diagnostics_addEntity_of_free inside unbound _ _ _)
      · exact (arranged_addEntity _ _ _ _ _ _).size.trans (size_alloc _ _)
  | some earlier =>
      rw [before, Option.some_or] at first
      cases first
      have collects := gathered.collects before
      have defined : definitions scope name past ≠ [] := by
        intro none
        rw [primary?_eq_none.mpr none] at before
        cases before
      have slot := collects.slot_extend group.append.valid defined group.append.leads (early_of_not_late early)
      rw [if_neg defined]
      exact ⟨u.graph, body, collects, .of_eq rfl, rfl, extend id slot⟩

end define

theorem Gathered.define (gathered : Gathered u.module scope name past u.graph) (inBuild : u.InStandardBuild)
    (group : OverloadGroup scope name (past ++ [(u, stmt)])) (found : definition? scope name u stmt = some d) :
    Gathered u.module scope name (past ++ [(u, stmt)]) (u.declared stmt).1 := by
  have declares : Declares (.any True) u (u.declared stmt) := Script.declares_declared u stmt
  have lasts := (declares.recorded.path inBuild.valid).lasts
    inBuild.valid.sound (u.graph.has_of_isContainer gathered.container)
  have defs : definitions scope name (past ++ [(u, stmt)]) = definitions scope name past ++ [d] := by
    rw [definitions_append, definitions_single, found, Option.toList_some]
  refine ⟨?_, fun none => ?_, fun {id} first => ?_⟩
  · exact Entity.isContainer_of_type gathered.container lasts.2.type
  · rw [primary?_eq_none, defs] at none
    simp at none
  · rw [defs]
    by_cases late : Late (definitions scope name past) d
    · obtain ⟨collects, declared⟩ := declared_late gathered group found first late
      have same : Collects u.module scope name id (definitions scope name past) (u.declared stmt).1 := by
        rw [declared]
        exact ⟨collects.bound, collects.home, collects.function⟩
      exact same.late late.1 late.2
    · obtain ⟨k, body, collects, _, _, declared⟩ := declared_early gathered inBuild group found first late
      rw [declared]
      exact collects.define (early_of_not_late late) body

theorem walkStmt_function_skipped {head : FunctionHead} {body : List Stmt} (standard : w.hooks = Hook.standard)
    (closed : (w.declared (.function head body)).2 = none) (next : Option Stmt) :
    walkStmt (.function head body) next w = { w with graph := (w.declared (.function head body)).1 } := by
  have walked : walkStmt (.function head body) next w =
      walkDefinition (.function head body) (w.declared (.function head body)) (walkBody body) w := by
    rw [walkStmt]
    rfl
  rw [walked, Script.walkDefinition_skipped closed]
  unfold visit depart
  rw [standard]
  rfl

/-- A walk through such statements gathers the definitions, from one statement to the next. -/
theorem OverloadGroup.gathered {stmts : List Stmt} (inBuild : w.InStandardBuild)
    (start : Gathered w.module scope name [] w.graph)
    (group : OverloadGroup scope name (reached w (Script.ofBody stmts w))) :
    Gathered w.module scope name (reached w (Script.ofBody stmts w)) (walkBody stmts w).graph ∧
      ∀ before u stmt after, reached w (Script.ofBody stmts w) = before ++ (u, stmt) :: after →
        u.InStandardBuild ∧ u.module = w.module ∧ Gathered w.module scope name before u.graph := by
  have performs := Script.performs_ofBody stmts
  generalize all : reached w (Script.ofBody stmts w) = states at group ⊢
  have plain {past rest : List (Walk × Stmt)} {u : Walk} {stmt : Stmt} (next : Option Stmt)
      (split : states = past ++ (u, stmt) :: rest) (inBuild : u.InStandardBuild) (_ : u.module = w.module)
      (other : stmt.isDefinition = false) (gathered : Gathered w.module scope name past u.graph) :
      Gathered w.module scope name (past ++ [(u, stmt)]) (u.handle stmt next).graph := by
    have spares := group.spares u stmt (by simp [split]) (definition?_of_not_definition other)
    exact gathered.plain inBuild next other spares
  have definition {past rest : List (Walk × Stmt)} {u : Walk} {stmt : Stmt}
      (split : states = past ++ (u, stmt) :: rest) (inBuild : u.InStandardBuild) (here : u.module = w.module)
      (defines : stmt.isDefinition = true) (gathered : Gathered w.module scope name past u.graph) :
      Gathered w.module scope name (past ++ [(u, stmt)]) (u.declared stmt).1 := by
    cases found : definition? scope name u stmt with
    | none => exact gathered.otherDefinition inBuild defines found (group.spares u stmt (by simp [split]) found)
    | some d =>
        rw [split, List.append_cons] at group
        rw [← here] at gathered ⊢
        exact gathered.define inBuild group.append found
  have only : states = [] ++ reached w (Script.ofBody stmts w) ++ [] := by simpa using all.symm
  have whole := performs.history (fun described confined gathered => gathered.quiet described confined) plain
    definition inBuild rfl only start
  rw [List.nil_append, all] at whole
  refine ⟨whole, fun before u stmt after split => ?_⟩
  exact performs.history_each (fun described confined gathered => gathered.quiet described confined) plain
    definition inBuild rfl all.symm start split

/-- What a walk through statements has made of a name that some of them define. -/
structure OneFunction (module scope : EntityId) (name : String) (states : List (Walk × Stmt)) (id : EntityId)
    (h : Graph) : Prop where
  collects : h.Collects module scope name id (definitions scope name states)
  /-- No other child has the name, if it is one without a number behind it. -/
  only : Unnumbered name → ∀ other, h.IsParent scope other → (h.entity other).name = name → other = id
  /-- The first definition makes an entity, others do not, and none that is in time is reported as late. -/
  early : ∀ before u stmt after d, states = before ++ (u, stmt) :: after → definition? scope name u stmt = some d →
    ¬ Late (definitions scope name before) d →
    (u.declared stmt).2 = some id ∧ Timely u.graph (u.declared stmt).1 ∧
      (u.declared stmt).1.size = u.graph.size + (if definitions scope name before = [] then 1 else 0)
  /-- A late overload is reported once, and nothing else comes of it. -/
  late : ∀ before u stmt after d, states = before ++ (u, stmt) :: after → definition? scope name u stmt = some d →
    Late (definitions scope name before) d → ∀ next,
    walkStmt stmt next u = { u with graph := { u.graph with
      diagnostics := u.graph.diagnostics.report (u.graph.lateOverload module id d.head.line) } }

/-- Definitions of one name, the first of them an overload, make one function, whatever stands between them and
leaves the name. -/
theorem overloads_gathered_in_one_function (arrived : w.Reached) (container : w.scope.isContainer = true)
    (unbound : w.scope.contents.get? name = none) (stmts : List Stmt)
    (defined : definitions w.current name (reached w (Script.ofBody stmts w)) ≠ [])
    (group : OverloadGroup w.current name (reached w (Script.ofBody stmts w))) :
    ∃ id, OneFunction w.module w.current name (reached w (Script.ofBody stmts w)) id (walkBody stmts w).graph := by
  have inBuild := arrived.inBuild
  obtain ⟨whole, each⟩ := group.gathered inBuild ⟨container, fun _ => unbound, by simp [primary?]⟩
  have inTable := (inBuild.walks (Script.performs_ofBody stmts |>.made w)).inTable
  generalize reached w (Script.ofBody stmts w) = states at defined group whole each ⊢
  obtain ⟨id, first⟩ := Option.ne_none_iff_exists'.mp (mt primary?_eq_none.mp defined)
  have collects := whole.collects first
  refine ⟨id, collects, fun unnumbered other held named => ?_, ?_, ?_⟩
  · have entry := inTable _ other held (by simp) (named ▸ unnumbered)
    rw [named, collects.bound] at entry
    exact (Option.some.inj entry).symm
  · rintro before u stmt after d rfl found early
    obtain ⟨inBuild, here, gathered⟩ := each _ _ _ _ rfl
    have firstHere := primary?_concat first found
    rw [List.append_cons] at group
    rw [← here] at gathered
    obtain ⟨k, body, collects, timely, size, declared⟩ :=
      declared_early gathered inBuild group.append found firstHere early
    have valid := group.append.valid d (by simp [definitions_append, definitions_single, found])
    rw [declared]
    refine ⟨rfl, timely.trans (timely_defineFunction k id body valid), ?_⟩
    exact (retold_defineFunction collects.type _ body _).size.trans size
  · rintro before u stmt after d rfl found late next
    obtain ⟨inBuild, here, gathered⟩ := each _ _ _ _ rfl
    have firstHere := primary?_concat first found
    rw [List.append_cons] at group
    rw [← here] at gathered ⊢
    obtain ⟨_, declared⟩ := declared_late gathered group.append found firstHere late
    obtain ⟨_, _, _, _, _, body, rfl⟩ := definition?_eq_some found
    rw [walkStmt_function_skipped inBuild.hooks (congrArg Prod.snd declared), declared]

/-- Definitions of `f` among other statements. The last overload is late, and a class has an `f` of its own. -/
def scattered : List Stmt :=
  let definition (marked : Bool) (param : String) (line : Nat) : Stmt :=
    .function { name := "f", decorators := if marked then [.name "overload"] else [],
                args := { args := [⟨param, none⟩] }, line } []
  [.importFrom (some "typing") [⟨"overload", none⟩] 0 1, definition true "a" 2,
    .classDef { name := "C", line := 3 } [definition false "b" 4], definition true "c" 5, definition false "d" 6,
    .ifElse (.name "test") [definition true "e" 8] [] 7, definition false "x" 9]

def beforeScattered : Walk := start (run (empty {}) [.addModule "m" false]) ⟨0⟩ scattered

theorem scattered_overloads_gathered :
    OneFunction ⟨0⟩ ⟨0⟩ "f" (reached beforeScattered (Script.ofBody scattered beforeScattered)) ⟨1⟩
        (walkBody scattered beforeScattered).graph ∧
      (definitions ⟨0⟩ "f" (reached beforeScattered (Script.ofBody scattered beforeScattered))).map
        (fun d => (d.isOverload, d.head.line)) = [(true, 2), (true, 5), (false, 6), (true, 8), (false, 9)] ∧
      (walkBody scattered beforeScattered).graph.diagnostics.toList.map (fun d => (d.line, d.message)) =
        [(8, "m.f overload appeared after primary function")] := by
  have unbuilt : (run (empty {}) [.addModule "m" false]).moduleState? ⟨0⟩ = some .notProcessed := by
    decide +kernel
  have admits : (empty {}).Admits [.addModule "m" false] := ⟨trivial, trivial⟩
  have arrived : beforeScattered.Reached := .start admits unbuilt _
  have leads : (definitions ⟨0⟩ "f" (reached beforeScattered (Script.ofBody scattered beforeScattered))).head?.map
      Definition.isOverload = some true := by decide +kernel
  have spares : ∀ state ∈ reached beforeScattered (Script.ofBody scattered beforeScattered),
      definition? ⟨0⟩ "f" state.1 state.2 = none → (Hook.targetsOf state.2).length = 0 ∧
        ((state.1.recorded state.2 none).entity ⟨0⟩).contents.get? "f" =
          (state.1.graph.entity ⟨0⟩).contents.get? "f" := by decide +kernel
  have group : OverloadGroup ⟨0⟩ "f" (reached beforeScattered (Script.ofBody scattered beforeScattered)) := by
    refine ⟨fun d first => ?_, by decide +kernel, fun u stmt among other next => ?_⟩
    · rw [first] at leads
      exact Option.some.inj leads
    · obtain ⟨silent, same⟩ := spares (u, stmt) among other
      rw [recorded_of_targetsOf (List.length_eq_zero_iff.mp silent) next none]
      exact same
  have defined : definitions ⟨0⟩ "f" (reached beforeScattered (Script.ofBody scattered beforeScattered)) ≠ [] := by
    intro none
    rw [none] at leads
    cases leads
  obtain ⟨id, one⟩ := overloads_gathered_in_one_function arrived (by decide +kernel) (by decide +kernel) scattered
    defined group
  have bound : ((walkBody scattered beforeScattered).graph.entity ⟨0⟩).contents.get? "f" = some ⟨1⟩ := by
    decide +kernel
  have same : id = ⟨1⟩ := Option.some.inj (one.collects.bound.symm.trans bound)
  rw [same] at one
  exact ⟨one, by decide +kernel, by decide +kernel⟩

end Walk

end DocGraph
