import DocGraph.Proofs.Run.Acts

namespace DocGraph

namespace Graph

variable {g h : Graph} {id scope : EntityId}

section addEntity

variable (g : Graph) (parent : EntityId) (name : String) (payload : Payload) (kind : Option EntityKind)
  (line : Nat)

/-- The entity that a declaration appends. -/
def declared : Entity :=
  { name, parent := some parent, home := (g.entity parent).home, kind, line, payload }

theorem arranged_addEntity :
    Arranged (g.alloc (g.declared parent name payload kind line)).1
      (g.addEntity parent name payload kind line).1 :=
  arranged_attach _ parent ⟨g.size⟩

/-- What a declaration reads of its entity, its name and its table apart. -/
theorem read_addEntity {α : Sort*} (read : Entity → α)
    (blind : ∀ e name contents, read { e with name, contents } = read e) :
    read ((g.addEntity parent name payload kind line).1.entity ⟨g.size⟩) =
      read (g.declared parent name payload kind line) := by
  rw [(arranged_addEntity g parent name payload kind line).read read blind, entity_alloc, if_pos rfl]

theorem type_addEntity_of_has (inside : g.Has id) :
    ((g.addEntity parent name payload kind line).1.entity id).type = (g.entity id).type := by
  rw [(arranged_addEntity g parent name payload kind line).read Entity.type fun _ _ _ => rfl,
    entity_alloc_of_has _ _ inside]

variable {payload}

theorem blank_declared (type : payload.type ≠ .module) (slots : payload.type = .class → payload = .class {}) :
    (g.declared parent name payload kind line).Blank := by
  cases payload with
  | module info => exact absurd rfl type
  | «class» info =>
      rw [slots rfl]
      exact ⟨rfl, rfl, rfl, rfl, rfl, rfl⟩
  | function info => exact ⟨rfl, rfl, rfl, rfl, rfl, rfl⟩
  | «attribute» info => exact ⟨rfl, rfl, rfl, rfl, rfl, rfl⟩

theorem suited_addEntity (type : EntityType) {stored : EntityKind} (typed : payload.type = type)
    (kinded : kind = some stored) (among : stored ∈ type.kinds false) (other : type ≠ .module) :
    ((g.addEntity parent name payload kind line).1.entity ⟨g.size⟩).Suited := by
  have suited : (g.declared parent name payload kind line).Suited := by
    refine ⟨stored, ?_, kinded⟩
    change stored ∈ payload.type.kinds _
    rw [typed]
    cases type with
    | module => exact absurd rfl other
    | _ => exact among
  rwa [read_addEntity g parent name payload kind line Entity.Suited fun _ _ _ => rfl]

theorem headed_addEntity (headed : g.Headed) (slots : payload.type = .class → payload = .class {}) :
    (g.addEntity parent name payload kind line).1.Headed := by
  intro id order stored
  rw [mroOf?, (arranged_addEntity g parent name payload kind line).read Entity.class? fun _ _ _ => rfl,
    entity_alloc] at stored
  split at stored
  · cases payload with
    | «class» info =>
        rw [slots rfl] at stored
        cases stored
    | _ => cases stored
  · exact headed id order stored

end addEntity

theorem type_readSlot {expr : Expr} {target : EntityId} (found : (g.readSlot scope expr).target = some target) :
    (g.entity target).type = .class := by
  simp only [readSlot, Option.filter_eq_some_iff, beq_iff_eq] at found
  exact found.2

theorem told_classDecorators {about : EntityId → Prop} (g : Graph) (scope id : EntityId) (exprs : List Expr)
    (decorators : List Decorator) :
    Told about g (exprs.foldl (classDecorator scope id) (g, decorators)).1 := by
  induction exprs generalizing g decorators with
  | nil => exact .refl g
  | cons expr rest ih =>
      rw [List.foldl_cons]
      unfold classDecorator
      dsimp only
      split
      · exact ih g _
      · exact (told_report g _ _ _ _ (by decide)).trans (ih _ _)

/-- A definition declares the class, says things about it, and stores its bases in between. -/
theorem defineClass_parts (g : Graph) (scope : EntityId) (head : ClassHead) (body : List Stmt) :
    ∃ k decorators, Told (· = ⟨g.size⟩) (g.addClass scope head.name head.line).1 k ∧
      Told (· = ⟨g.size⟩) (k.modify ⟨g.size⟩ (Entity.modifyClass fun _ =>
        { bases := .ofSlots (head.bases.map (g.readSlot scope)), decorators })) (g.defineClass scope head body).1 ∧
      (g.defineClass scope head body).2 = ⟨g.size⟩ := by
  have decorated : Told (· = ⟨g.size⟩) _ _ := told_classDecorators
    (g.addClass scope head.name head.line).1 scope ⟨g.size⟩ head.decorators []
  have second : (g.addClass scope head.name head.line).2 = ⟨g.size⟩ := rfl
  unfold defineClass
  rw [readBases_eq]
  generalize g.addClass scope head.name head.line = result at *
  obtain ⟨k, id⟩ := result
  subst second
  dsimp only at *
  generalize head.decorators.foldl (classDecorator scope ⟨g.size⟩) (k, []) = result at decorated ⊢
  obtain ⟨k', decorators⟩ := result
  refine ⟨k', decorators, decorated, ?_⟩
  split
  · exact ⟨told_setDocstring _ _ _ _, rfl⟩
  · exact ⟨.refl _, rfl⟩

/-- A property is declared, and all that is said behind is about it. -/
theorem told_declareProperty (g : Graph) (scope : EntityId) (head : FunctionHead) (body : List Stmt)
    (d : Decorated) :
    Told (· = ⟨g.size⟩) (g.addAttribute scope head.name (some .property) head.line).1
      (g.declareProperty scope head body d) := by
  have stored (k : Graph) (attr : EntityId) (hint : Option Expr) (decorators : List Decorator) : Told (· = attr) k
      (k.modify attr (Entity.modifyAttribute fun info => { info with hint, decorators })) :=
    told_modifyAttribute k attr _
  have warned (k : Graph) (attr : EntityId) (condition : Bool) (text : String) :
      Told (· = attr) k (if condition then k.warnAbout attr text 0 else k) := by
    split
    · exact told_warnAbout k attr text 0
    · exact .refl k
  have second : (g.addAttribute scope head.name (some .property) head.line).2 = ⟨g.size⟩ := rfl
  unfold declareProperty
  generalize g.addAttribute scope head.name (some .property) head.line = result at second ⊢
  obtain ⟨k, attr⟩ := result
  cases second
  cases leadingDocstring? body with
  | none => exact ((stored _ _ _ _).trans (warned _ _ _ _)).trans (warned _ _ _ _)
  | some doc =>
      obtain ⟨text, line⟩ := doc
      exact (((told_documentProperty k _ text line).trans (stored _ _ _ _)).trans
        (warned _ _ _ _)).trans (warned _ _ _ _)

/-- A definition joins a function of the module that the scope binds. -/
theorem functionSlot_eq_extend {module : EntityId} {name : String} {isOverload : Bool}
    (slot : g.functionSlot module scope name isOverload = .extend id) :
    (g.entity scope).contents.get? name = some id ∧ (g.entity id).type = .function ∧
      (g.entity id).home = some module := by
  unfold functionSlot at slot
  split at slot
  · cases slot
  · rename_i existing found
    split at slot
    · cases slot
    · rename_i home
      split at slot
      · cases slot
      · rename_i info function
        split at slot
        · cases slot
        · split at slot
          · cases slot
          · cases slot
            refine ⟨found, ?_, not_not.mp home⟩
            cases payload : (g.entity id).payload <;>
              simp [Entity.function?, Entity.type, Payload.type, payload] at function ⊢

end Graph

open DocGraph.Graph

/-- The names that a function may be declared under: its own, and those of accessors. -/
def FunctionHead.names (head : FunctionHead) : List String :=
  head.name :: head.decorators.filterMap (accessorName? true)

namespace Walk

variable {w v u : Walk} {g h : Graph} {id : EntityId} {may : Licence}

section addEntity

variable {parent : EntityId} {name : String} {kind : Option EntityKind} {line : Nat}
  (place : w.Place parent)

include place

theorem walks_addEntity {payload : Payload} (type : payload.type ≠ .module)
    (slots : payload.type = .class → payload = .class {}) (free : w.isGuarded parent name = false)
    (named : may.binds name) (allowed : payload.type = .class → may.classes)
    (plain : kind ≠ some .exception)
    (told : Retold (· = ⟨w.graph.size⟩) (w.graph.addEntity parent name payload kind line).1 h)
    (suited : w.graph.Headed → (h.entity ⟨w.graph.size⟩).Suited) :
    Walks may w { w with graph := h } := by
  refine .act (.declare (e := w.graph.declared parent name payload kind line)
    (blank_declared w.graph parent name kind line type slots) rfl type rfl ?_ place free told suited named allowed
    plain)
  cases payload with
  | «class» info =>
      rw [slots rfl]
      rfl
  | _ => rfl

end addEntity

theorem walks_declareProperty {head : FunctionHead} (free : w.isGuarded w.current head.name = false)
    (named : may.binds head.name) (body : List Stmt) (d : Decorated) :
    Walks may w { w with graph := w.graph.declareProperty w.current head body d } := by
  have told := told_declareProperty w.graph w.current head body d
  refine walks_addEntity (.inl rfl) (by decide) (by rintro ⟨⟩) free named (by rintro ⟨⟩) (by decide) told.toRetold
    fun headed => ?_
  exact told.suited (headed_addEntity _ _ _ _ _ headed (by rintro ⟨⟩))
    (suited_addEntity _ _ _ _ _ .attribute rfl rfl (by decide) (by decide))

/-- What a definition gives: a graph, and the scope to be walked, if any. -/
structure Declares (may : Licence) (w : Walk) (declared : Graph × Option EntityId) : Prop where
  recorded : Walks may w { w with graph := declared.1 }
  opens : ∀ id, declared.2 = some id → w.Opens declared.1 id

/-- What is declared and then only overlaid is opened as it was declared. -/
theorem Opens.of_declared {name : String} {payload : Payload} {kind : Option EntityKind} {line : Nat}
    (type : payload.type = .class ∨ payload.type = .function)
    (overlaid : Overlaid (w.graph.addEntity w.current name payload kind line).1 h)
    (home : (h.entity ⟨w.graph.size⟩).home =
      ((w.graph.addEntity w.current name payload kind line).1.entity ⟨w.graph.size⟩).home) :
    w.Opens h ⟨w.graph.size⟩ := by
  have above := read_addEntity w.graph w.current name payload kind line Entity.parent fun _ _ _ => rfl
  have typed := read_addEntity w.graph w.current name payload kind line Entity.type fun _ _ _ => rfl
  have homed := read_addEntity w.graph w.current name payload kind line Entity.home fun _ _ _ => rfl
  refine .fresh w.graph.not_has_fresh ((overlaid.entity _).parent.trans above) ?_ (home.trans homed)
  rw [(overlaid.entity _).type, typed]
  exact type

/-- The bases were looked up before the class was there, so none of them is the class itself. -/
theorem act_define (head : ClassHead) (decorators : List Decorator) (kind : may.classes)
    (decorated : Told (· = ⟨w.graph.size⟩) (w.graph.addClass w.current head.name head.line).1 g) :
    Act may { w with graph := g } (g.modify ⟨w.graph.size⟩ (Entity.modifyClass fun _ =>
      { bases := .ofSlots (head.bases.map (w.graph.readSlot w.current)), decorators })) := by
  have read {α : Type} (read : Entity → α)
      (blind : ∀ e name contents, read { e with name, contents } = read e) :=
    read_addEntity w.graph w.current head.name (.class {}) (some .class) head.line read blind
  refine .define _ _ decorators ?_ ?_ ?_ ?_ ?_ ?_ kind
  · exact (decorated.entity _).type.trans (read Entity.type fun _ _ _ => rfl)
  · exact (decorated.entity _).baseLists.trans (read Entity.baseLists fun _ _ _ => rfl)
  · exact (decorated.entity _).subclasses.trans (read Entity.subclasses fun _ _ _ => rfl)
  · intro target member
    simp only [List.filterMap_map, List.mem_filterMap, Function.comp_apply] at member
    obtain ⟨expr, _, found⟩ := member
    have type := type_readSlot found
    have old : w.graph.Has target := w.graph.has_of_type (by rw [type]; decide)
    refine ⟨fun same => w.graph.not_has_fresh (same ▸ old), ?_⟩
    exact ((decorated.entity target).type.trans (type_addEntity_of_has _ _ _ _ _ _ old)).trans type
  · rw [mroOf?, decorated.class?]
    exact congrArg (Option.bind · ClassInfo.mro) (read Entity.class? fun _ _ _ => rfl)
  · exact (decorated.entity _).parent.trans (read Entity.parent fun _ _ _ => rfl)

theorem declares_declareClass (w : Walk) {head : ClassHead} (kind : may.classes) (named : may.binds head.name)
    (body : List Stmt) : Declares may w (w.declareClass head body) := by
  unfold declareClass
  split
  · exact ⟨.refl w, nofun⟩
  · rename_i open_
    have free : w.isGuarded w.current head.name = false := by simp_all
    obtain ⟨k, decorators, decorated, documented, second⟩ := defineClass_parts w.graph w.current head body
    generalize w.graph.defineClass w.current head body = result at documented second ⊢
    obtain ⟨behind, id⟩ := result
    subst second
    have added : Walks may w { w with graph := k } :=
      walks_addEntity (.inl rfl) (by decide) (fun _ => rfl) free named (fun _ => kind) (by decide) decorated.toRetold
        fun headed => decorated.suited (headed_addEntity _ _ _ _ _ headed fun _ => rfl)
          (suited_addEntity _ _ _ _ _ .class rfl rfl (by decide) (by decide))
    have defined : Act may { w with graph := k } _ := act_define head decorators kind decorated
    have overlaid := decorated.described.overlaid.trans (overlaid_modify ⟨w.graph.size⟩ fun e =>
      e.overlaid_modifyClass fun _ => { bases := .ofSlots (head.bases.map (w.graph.readSlot w.current)), decorators })
    have above := read_addEntity w.graph w.current head.name (.class {}) (some .class) head.line Entity.parent
      fun _ _ _ => rfl
    refine ⟨(added.trans (.act defined)).trans (.describe (documented.mono ?_)), ?_⟩
    · rintro _ rfl
      exact ⟨w.current, .inl rfl, .inr ((overlaid.entity _).parent.trans above)⟩
    · rintro _ ⟨⟩
      refine .of_declared (.inl rfl) (overlaid.trans documented.described.overlaid) ?_
      rw [(documented.entity _).home, read_modify _ _ _ Entity.home fun e => by rw [Entity.modifyClass_eq]]
      exact (decorated.entity _).home

theorem suited_addFunction (g : Graph) (parent : EntityId) (name : String) (line : Nat) :
    ((g.addFunction parent name line).1.entity ⟨g.size⟩).Suited := by
  refine suited_addEntity _ _ _ _ _ .function rfl rfl ?_ (by decide)
  split <;> decide

theorem accessor_mem_names (g : Graph) (scope : EntityId) (head : FunctionHead) :
    (g.decorated scope head.decorators).accessor.getD head.name ∈ head.names := by
  have outside (expr : Expr) : accessorName? false expr = none := by
    simp [accessorName?]
  cases found : (g.decorated scope head.decorators).accessor with
  | none => exact List.mem_cons_self
  | some name =>
      have among := List.mem_of_getLast? found
      cases inClass : (g.entity scope).type == .class with
      | true => exact List.mem_cons_of_mem _ (inClass ▸ among)
      | false =>
          obtain ⟨expr, _, named⟩ := List.mem_filterMap.mp among
          rw [inClass, outside] at named
          cases named

theorem declares_declareFunction (w : Walk) {head : FunctionHead}
    (named : ∀ name ∈ head.names, may.binds name) (body : List Stmt)
    (defines : ∀ id, (w.declareFunction head body).2 = some id → may.defines id) :
    Declares may w (w.declareFunction head body) := by
  have given := named _ (accessor_mem_names w.graph w.current head)
  revert defines
  unfold declareFunction
  dsimp only
  generalize w.graph.decorated w.current head.decorators = d at given ⊢
  split
  · exact fun _ => ⟨.refl w, nofun⟩
  · rename_i open_
    have free : w.isGuarded w.current (d.accessor.getD head.name) = false := by simp_all
    split
    · rename_i property
      intro _
      have own : d.accessor.getD head.name = head.name := by
        simp only [Decorated.isProperty, Bool.and_eq_true, Option.isNone_iff_eq_none] at property
        rw [property.2, Option.getD_none]
      exact ⟨walks_declareProperty (own ▸ free) (own ▸ given) body d, nofun⟩
    · split
      all_goals intro defines
      · have type := read_addEntity w.graph w.current (d.accessor.getD head.name) (.function {})
          (some (if (w.graph.entity w.current).type = .class then .method else .function)) head.line
          Entity.type fun _ _ _ => rfl
        have defined := retold_defineFunction type head body d
        have plain : some (if (w.graph.entity w.current).type = .class then EntityKind.method else .function) ≠
            some .exception := by split <;> decide
        refine ⟨walks_addEntity (.inl rfl) (by decide) (by rintro ⟨⟩) free given (by rintro ⟨⟩) plain defined
          fun headed => ?_, ?_⟩
        · exact defined.suited (headed_addEntity _ _ _ _ _ headed (by rintro ⟨⟩)) (suited_addFunction _ _ _ _)
        · rintro _ ⟨⟩
          exact .of_declared (.inr rfl) defined.described.overlaid (defined.entity _).home
      · rename_i id slot
        obtain ⟨found, type, home⟩ := functionSlot_eq_extend slot
        have own := retold_defineFunction type head body d
        have defined : Retold w.Near w.graph (w.graph.defineFunction id head body d) :=
          own.mono fun same => same ▸ Place.near_of_bound (.inl rfl) found
        refine ⟨.act (.describe defined fun other => ?_), ?_⟩
        · by_cases same : other = id
          · exact .inr (same ▸ defines id rfl)
          · rw [own.elsewhere same]
            exact .inl rfl
        rintro _ ⟨⟩
        exact .again defined found type home
      · exact ⟨.describe (told_warnAbout _ _ _ _), nofun⟩

end Walk

end DocGraph
