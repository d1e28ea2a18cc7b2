import DocGraph.Proofs.Order.Outline

namespace DocGraph

open Dotted (Spelled IsSegment spelled_extend)

theorem Chart.Le.trans {words : List String} {c d e : Chart} (first : c.Le words d) (second : d.Le words e) :
    c.Le words e where
  root member := (second.root member).trans (first.root member)
  held spelled member found := second.held spelled member (first.held spelled member found)

namespace Graph

variable {g h k : Graph} {words : List String} {outline bindings first second : List Binding} {b : Binding}
  {id : EntityId}

/-- A class stands as a binding has it: in its scope, under its name, with the texts of its bases. A base that
is known is what its name led to on some part of the chart, if it was clear there. -/
structure Stands (words : List String) (b : Binding) (g : Graph) (id : EntityId) : Prop where
  above : ∃ parent, g.IsParent parent id ∧ g.scopeNames parent = b.chain
  full : g.fullName id = Dotted.extend b.scope b.name
  texts : b.meaning = .class ((g.entity id).slots.map Base.text)
  found : ∀ base ∈ (g.entity id).slots, Spelled words base.text → ∀ target, base.target = some target →
    target ≠ id ∧ (g.entity target).type = .class ∧ ∃ c : Chart, c.Drawn words ∧ c.Le words g.chart ∧
      (c.clear (g.options.maxAliasDepth + 1) b.chain (Dotted.parts base.text) = true →
        c.leads? (g.options.maxAliasDepth + 1) b.chain base.text = some (g.fullName target))

/-- Every class stands as some binding of the outline has it. -/
def Placed (words : List String) (outline : List Binding) (g : Graph) : Prop :=
  ∀ id, (g.entity id).type = .class → ∃ b ∈ outline, g.Stands words b id

theorem Stands.isClass (stands : g.Stands words b id) : b.isClass = true := by
  rw [Binding.isClass, stands.texts]

theorem Stands.spelled (stands : g.Stands words b id) (charted : g.Charted words) (vocabulary : Vocabulary words)
    {scope : String} (inner : scope ∈ b.chain) : Spelled words scope := by
  obtain ⟨parent, _, around⟩ := stands.above
  exact charted.spelled_scopeNames vocabulary parent scope (around ▸ inner)

theorem Stands.widens (stands : g.Stands words b id) (charted : g.Charted words) (vocabulary : Vocabulary words)
    (widens : Widens words bindings g h) (sound : h.Sound) (isClass : (g.entity id).type = .class) :
    h.Stands words b id := by
  have container {id : EntityId} (isClass : (g.entity id).type = .class) : (g.entity id).isContainer = true := by
    simp [Entity.isContainer, isClass]
  have entity := widens.entity (g.has_of_isContainer (container isClass))
  have slots : (h.entity id).slots = (g.entity id).slots := congrArg BaseLists.slots entity.baseLists
  obtain ⟨parent, held, chain⟩ := stands.above
  refine ⟨⟨parent, entity.parent.trans held, ?_⟩, ?_, slots ▸ stands.texts, ?_⟩
  · rw [charted.scopeNames_eq widens.toLasting sound vocabulary (charted.sound.rooted.parentHas held), chain]
  · rw [charted.fullName_eq widens.toLasting sound vocabulary (container isClass), stands.full]
  · rw [slots]
    intro base among spelled target known
    obtain ⟨apart, type, c, drawn, le, leads⟩ := stands.found base among spelled target known
    rw [charted.fullName_eq widens.toLasting sound vocabulary (container type), widens.options,
      (widens.entity (g.has_of_isContainer (container type))).type]
    exact ⟨apart, type, c, drawn, le.trans widens.le, leads⟩

/-- The graph behind is charted, has the bindings on its chart besides what was there, and its classes stand as
the outline has them. There is no new module. -/
structure Draws (words : List String) (outline bindings : List Binding) (g h : Graph) : Prop where
  charted : h.Charted words
  placed : h.Placed words outline
  widens : Widens words bindings g h
  modules : ∀ {id}, (h.entity id).type = .module → g.Has id

theorem Draws.trans (before : Draws words outline first g h) (behind : Draws words outline second h k) :
    Draws words outline (first ++ second) g k :=
  ⟨behind.charted, behind.placed, before.widens.trans behind.widens, fun isModule =>
    before.modules ((behind.widens.entity (behind.modules isModule)).type.symm.trans isModule)⟩

theorem Draws.trans_nil (before : Draws words outline bindings g h) (behind : Draws words outline [] h k) :
    Draws words outline bindings g k := by
  have both := before.trans behind
  rwa [List.append_nil] at both

theorem Placed.widens (placed : g.Placed words outline) (charted : g.Charted words) (vocabulary : Vocabulary words)
    (widens : Widens words bindings g h) (sound : h.Sound)
    (new : ∀ id, ¬ g.Has id → (h.entity id).type = .class → ∃ b ∈ outline, h.Stands words b id) :
    h.Placed words outline := by
  intro id isClass
  by_cases inside : g.Has id
  · rw [(widens.entity inside).type] at isClass
    obtain ⟨b, among, stands⟩ := placed id isClass
    exact ⟨b, among, stands.widens charted vocabulary widens sound isClass⟩
  · exact new id inside isClass

theorem Draws.of_quiet (charted : g.Charted words) (placed : g.Placed words outline) (vocabulary : Vocabulary words)
    (quiet : Quiet words g h) (path : Path g h) : Draws words outline [] g h := by
  have widens := charted.widens_of_quiet vocabulary quiet
  have old {id : EntityId} (container : (h.entity id).isContainer = true) : g.Has id := by
    by_contra new
    rw [(quiet.created (h.has_of_isContainer container) new).1] at container
    cases container
  refine ⟨charted.of_quiet vocabulary quiet path, placed.widens charted vocabulary widens (path.sound charted.sound)
    fun id new isClass => absurd (old ?_) new, widens, fun isModule => old ?_⟩
  · simp [Entity.isContainer, isClass]
  · simp [Entity.isContainer, isModule]

theorem Draws.of_described (charted : g.Charted words) (placed : g.Placed words outline)
    (vocabulary : Vocabulary words) (described : Described g h) : Draws words outline [] g h :=
  .of_quiet charted placed vocabulary (.of_described described) (.retouch described.retouched)

theorem widens_of_bound {b : Binding} (bound : b.name ∈ words → (g.chart.held b.scope b.name).isSome) :
    Widens words [b] g g where
  toLasting := (Quiet.refl g).lasting
  root _ := rfl
  held {scope word} _ member := by
    rw [Binding.held_singleton]
    split
    · rename_i same
      obtain ⟨rfl, rfl⟩ := Prod.mk.inj same
      obtain ⟨holding, held⟩ := Option.isSome_iff_exists.mp (bound member)
      rw [held, Option.some_or]
    · rw [Option.or_none]

theorem slots_defineClass (g : Graph) (scope : EntityId) (head : ClassHead) (body : List Stmt) :
    ((g.defineClass scope head body).1.entity ⟨g.size⟩).slots = head.bases.map (g.readSlot scope) := by
  obtain ⟨k, decorators, decorated, documented, -⟩ := defineClass_parts g scope head body
  have type : (k.entity ⟨g.size⟩).type = .class := (decorated.entity _).type.trans
    (read_addEntity g scope head.name (.class {}) (some .class) head.line Entity.type fun _ _ _ => rfl)
  have inside : k.Has ⟨g.size⟩ := k.has_of_type (by rw [type]; decide)
  obtain ⟨info, known⟩ := Option.isSome_iff_exists.mp ((Entity.class?_isSome _).mpr type)
  rw [Entity.slots, (documented.entity _).baseLists, entity_modify_self _ _ _ inside, Entity.baseLists,
    Entity.class?_modifyClass, known]
  exact BaseLists.slots_ofSlots _

theorem headD_scopeNames (sound : g.Sound) (container : (g.entity id).isContainer = true) :
    (g.scopeNames id).headD "" = g.fullName id := by
  have chain : ∃ rest, g.ancestors id = id :: rest := by
    cases above : (g.entity id).parent with
    | none => exact ⟨_, ancestors_of_root sound.rooted (g.has_of_isContainer container) above⟩
    | some upper => exact ⟨_, ancestors_of_child sound.rooted above⟩
  obtain ⟨rest, chain⟩ := chain
  rw [scopeNames, chain, scopesAlong]
  cases type : (g.entity id).type with
  | module | «class» => rfl
  | function | «attribute» => simp [Entity.isContainer, type] at container

theorem scopeNames_of_class {parent : EntityId} (sound : g.Sound) (isClass : (g.entity id).type = .class)
    (held : g.IsParent parent id) : g.scopeNames id = g.fullName id :: g.scopeNames parent := by
  rw [scopeNames, ancestors_of_child sound.rooted held, scopesAlong, isClass]
  rfl

end Graph

namespace Walk

open DocGraph.Graph

variable {w v : Walk} {words exports chain : List String} {outline bindings : List Binding}
  {origin : Option String → Nat → Option String} {inFunction : Bool}

/-- An alias in the open scope, unless the guard keeps its name. -/
def bindFree (w : Walk) (name target : String) (g : Graph) : Graph :=
  if w.isGuarded w.current name then g else g.modify w.current (Entity.bindAlias name target)

theorem walks_bindFree (w : Walk) (name target : String) :
    Walks (.any True) w { w with graph := w.bindFree name target w.graph } := by
  unfold bindFree
  split
  · exact .refl w
  · rename_i free
    exact .bind (by simpa using free) trivial

/-- The walk is in the scope that has these scopes around it, or in a function, and the guard keeps only words
that are bound. -/
structure Ready (words exports : List String) (outline : List Binding) (origin : Option String → Nat → Option String)
    (chain : List String) (inFunction : Bool) (w : Walk) : Prop where
  valid : w.Valid
  charted : w.graph.Charted words
  placed : w.graph.Placed words outline
  scope : inFunction = false → w.scope.isContainer = true ∧ w.graph.scopeNames w.current = chain
  function : inFunction = true → w.scope.type = .function
  guard : ∀ guard, w.guard = some guard → (w.graph.entity guard.scope).isContainer = true ∧
    ∀ name ∈ guard.names, name ∈ words → (w.graph.chart.held (w.graph.fullName guard.scope) name).isSome
  exports : w.graph.exportsOf w.module ⊆ exports
  origin : w.originName? = origin

theorem originName?_of_lasting (isModule : (w.graph.entity w.module).type = .module) (charted : w.graph.Charted words)
    (vocabulary : Vocabulary words) (module : v.module = w.module) (lasting : Lasting words w.graph v.graph)
    (sound : v.graph.Sound) :
    v.originName? = w.originName? := by
  funext name level
  have inside : w.graph.Has w.module := w.graph.has_of_type (by simp [isModule])
  have isPackage : v.graph.isPackage w.module = w.graph.isPackage w.module := (lasting.entity inside).isPackage
  unfold originName?
  rw [module, charted.ancestors_eq lasting sound inside, isPackage]
  congr 1
  cases found : (w.graph.ancestors w.module)[climb (w.graph.isPackage w.module) level]? with
  | none => rfl
  | some base =>
      have above := (mem_ancestors charted.sound.rooted inside).mp (List.mem_of_getElem? found)
      have container : (w.graph.entity base).isContainer = true := by
        refine Relation.ReflTransGen.head_induction_on above (by simp [Entity.isContainer, isModule])
          fun step _ inner => charted.inside inner step
      have full := charted.fullName_eq lasting sound vocabulary container
      cases name <;> simp [full]

namespace Ready

section kept

variable (ready : w.Ready words exports outline origin chain inFunction) (vocabulary : Vocabulary words)

include ready vocabulary

theorem behind {may : Licence} (walks : Walks may w v) (draws : Draws words outline bindings w.graph v.graph) :
    v.Ready words exports outline origin chain inFunction := by
  have lasting := draws.widens.toLasting
  have sound := draws.charted.sound
  have charted := ready.charted
  have framed := walks.framed
  have inside := ready.valid.has_current
  have type : v.scope.type = w.scope.type := by
    rw [Walk.scope, framed.current]
    exact (lasting.entity inside).type
  refine ⟨walks.valid ready.valid, draws.charted, draws.placed, fun outside => ?_,
    fun function => type.trans (ready.function function), fun guard set => ?_, ?_, ?_⟩
  · obtain ⟨container, chain⟩ := ready.scope outside
    refine ⟨?_, ?_⟩
    · rw [Entity.isContainer, type]
      exact container
    · rw [framed.current, charted.scopeNames_eq lasting sound vocabulary inside, chain]
  · obtain ⟨container, bound⟩ := ready.guard guard (framed.guard ▸ set)
    refine ⟨(lasting.entity (w.graph.has_of_isContainer container)).isContainer.trans container,
      fun name among member => ?_⟩
    obtain ⟨holding, held⟩ := Option.isSome_iff_exists.mp (bound name among member)
    rw [charted.fullName_eq lasting sound vocabulary container,
      draws.widens.le.held (charted.spelled_fullName vocabulary container) member held]
    rfl
  · rw [framed.module, walks.exportsOf ready.valid]
    exact ready.exports
  · rw [originName?_of_lasting ready.valid.module charted vocabulary framed.module lasting sound, ready.origin]

omit vocabulary in
theorem bound {scope : EntityId} {name : String} (kept : w.isGuarded scope name = true) (member : name ∈ words) :
    (w.graph.chart.held (w.graph.fullName scope) name).isSome := by
  unfold isGuarded at kept
  cases set : w.guard with
  | none =>
      rw [set] at kept
      cases kept
  | some guard =>
      rw [set, Option.any_some, Bool.and_eq_true, beq_iff_eq, List.contains_iff_mem] at kept
      rw [← kept.1]
      exact (ready.guard guard set).2 name kept.2 member

theorem of_aside (walks : Walks (.aside words) w v) :
    Draws words outline [] w.graph v.graph :=
  .of_quiet ready.charted ready.placed vocabulary (walks.quiet vocabulary ready.valid) (walks.path ready.valid)

end kept

theorem headD_eq (ready : w.Ready words exports outline origin chain false) :
    chain.headD "" = w.graph.fullName w.current := by
  obtain ⟨container, around⟩ := ready.scope rfl
  rw [← around]
  exact headD_scopeNames ready.charted.sound container

theorem bind {name target : String} (ready : w.Ready words exports outline origin chain false)
    (vocabulary : Vocabulary words) (fresh : Binding.Fresh words [⟨chain, name, .alias target⟩] w.graph) :
    Draws words outline [⟨chain, name, .alias target⟩] w.graph (w.bindFree name target w.graph) := by
  have container := (ready.scope rfl).1
  have own := List.mem_singleton_self (⟨chain, name, .alias target⟩ : Binding)
  unfold bindFree
  split
  · -- What the guard keeps is bound already, so the chart has the name.
    rename_i kept
    refine ⟨ready.charted, ready.placed, widens_of_bound fun member => ?_,
      fun isModule => has_of_type _ (by rw [isModule]; decide)⟩
    rw [Binding.scope, ready.headD_eq]
    exact ready.bound kept member
  · have charted := ready.charted.of_bindAlias vocabulary container fun member =>
      (fresh.proper _ own).target member target rfl
    have widens := ready.charted.widens_bindAlias (b := ⟨chain, name, .alias target⟩) container ready.headD_eq rfl
      fun member => fresh.free _ own member
    refine ⟨charted, ready.placed.widens ready.charted vocabulary widens charted.sound fun id new isClass => ?_, widens,
      fun isModule => (w.graph.has_modify _ _ _).mp (has_of_type _ (by rw [isModule]; decide))⟩
    exact absurd ((w.graph.has_modify _ _ _).mp (has_of_type _ (by rw [isClass]; decide))) new

/-- Names that are bound one after the other. -/
theorem foldl_bind {α : Type} (name target : α → String) (items : List α)
    (ready : w.Ready words exports outline origin chain false) (vocabulary : Vocabulary words)
    (fresh : Binding.Fresh words (items.map fun item => ⟨chain, name item, .alias (target item)⟩) w.graph) :
    Draws words outline (items.map fun item => ⟨chain, name item, .alias (target item)⟩) w.graph
      (items.foldl (fun g item => w.bindFree (name item) (target item) g) w.graph) := by
  induction items generalizing w with
  | nil => exact ready.of_aside vocabulary (.refl w)
  | cons item rest ih =>
      rw [List.map_cons, ← List.singleton_append] at fresh ⊢
      have first := ready.bind vocabulary fresh.left
      have readyBehind := ready.behind vocabulary (walks_bindFree w _ _) first
      exact first.trans (ih readyBehind (fresh.right first.widens))

theorem importNames_eq {origin : String} {items : List ImportAlias} {line : Nat}
    (apart : ∀ item ∈ items, item.bound ∉ w.exports) :
    w.importNames origin items line =
      items.foldl (fun g item => w.bindFree item.bound (Dotted.extend origin item.name) g) w.graph := by
  unfold importNames
  refine List.foldl_ext _ _ _ fun g item among => ?_
  have outside := apart item among
  unfold importName bindFree
  split
  · rfl
  · cases w.graph.lookupModule origin with
    | none => rfl
    | some id => simp [Graph.reexport, outside]

theorem importModules (ready : w.Ready words exports outline origin chain false) (vocabulary : Vocabulary words)
    {items : List ImportAlias} {line : Nat}
    (fresh : Binding.Fresh words (Site.bindings origin ⟨chain, false, .imports items line⟩) w.graph) :
    Draws words outline (Site.bindings origin ⟨chain, false, .imports items line⟩) w.graph
      (w.importModules items) := by
  rw [Walk.importModules, if_pos (ready.scope rfl).1]
  exact ready.foldl_bind _ _ items vocabulary fresh

theorem importFrom (ready : w.Ready words exports outline origin chain false) (vocabulary : Vocabulary words)
    {name : Option String} {items : List ImportAlias} {level line : Nat}
    (plain : Site.Plain words exports ⟨chain, false, .importFrom name items level line⟩)
    (fresh : Binding.Fresh words (Site.bindings origin ⟨chain, false, .importFrom name items level line⟩) w.graph) :
    Draws words outline (Site.bindings origin ⟨chain, false, .importFrom name items level line⟩) w.graph
      (w.importFrom name items level line) := by
  obtain ⟨named, apart⟩ := plain.named rfl items rfl
  rw [Walk.importFrom, if_pos (ready.scope rfl).1, ready.origin]
  simp only [Site.bindings] at fresh ⊢
  cases found : origin name level with
  | none =>
      have told (message : String) (offset threshold : Int) : Told (fun _ => True) w.graph
        (w.graph.report w.module message "import" offset threshold) := told_report _ _ _ _ _ (by decide)
      exact .of_described ready.charted ready.placed vocabulary (told _ _ _).described
  | some module =>
      have outside : ∀ item ∈ items, item.bound ∉ w.exports := by
        intro item among exported
        unfold Walk.exports at exported
        split at exported
        · exact apart item among (ready.exports exported)
        · cases exported
      rw [found] at fresh
      simp only [named, importNames_eq outside]
      exact ready.foldl_bind _ _ items vocabulary fresh

/-- A statement that opens no scope binds what its site says. -/
theorem handle {stmt : Stmt} (ready : w.Ready words exports outline origin chain inFunction)
    (vocabulary : Vocabulary words) (other : stmt.isDefinition = false)
    (plain : Site.Plain words exports ⟨chain, inFunction, stmt⟩)
    (fresh : Binding.Fresh words (Site.bindings origin ⟨chain, inFunction, stmt⟩) w.graph) (next : Option Stmt) :
    Draws words outline (Site.bindings origin ⟨chain, inFunction, stmt⟩) w.graph (w.handle stmt next).graph := by
  have same : Draws words outline [] w.graph w.graph := ready.of_aside vocabulary (.refl w)
  have closed (inside : inFunction = true) : w.scope.isContainer = false := by
    simp [Entity.isContainer, ready.function inside]
  by_cases imports : stmt.isImport = true
  · cases stmt with
    | imports items line =>
        cases inFunction with
        | true => simpa [Walk.handle, Walk.importModules, closed rfl, Site.bindings] using same
        | false => exact ready.importModules vocabulary fresh
    | importFrom name items level line =>
        cases inFunction with
        | true => simpa [Walk.handle, Walk.importFrom, closed rfl, Site.bindings] using same
        | false => exact ready.importFrom vocabulary plain fresh
    | _ => cases imports
  · -- Any other statement stores nothing under words.
    have isClass : stmt.isClass = false := by
      cases stmt with
      | classDef => cases other
      | _ => rfl
    have nothing : Site.bindings origin ⟨chain, inFunction, stmt⟩ = [] := by
      unfold Site.bindings
      cases stmt with
      | classDef => cases other
      | imports | importFrom => exact absurd rfl imports
      | _ => exact ite_self _
    have allows : (Licence.aside words).Allows w stmt := by
      refine ⟨fun _ => trivial, plain.aside isClass, fun isClass' => ?_, ?_, fun isImport => absurd isImport imports,
        fun _ _ _ _ _ => trivial⟩
      · rw [isClass] at isClass'
        cases isClass'
      · cases stmt with
        | importFrom => exact absurd rfl imports
        | _ => exact fun attempt among => absurd among List.not_mem_nil
    rw [nothing]
    exact ready.of_aside vocabulary (walks_handle_of_allows allows next)

section definition

variable {head : ClassHead}

/-- A class stands as its definition says, with the bases that the graph before it gives. -/
theorem stands_defineClass (ready : w.Ready words exports outline origin chain false) (vocabulary : Vocabulary words)
    {h : Graph} (widens : Widens words bindings w.graph h) (sound : h.Sound)
    (entered : Entered w.current head.name w.graph h)
    (slots : (h.entity ⟨w.graph.size⟩).slots = head.bases.map (w.graph.readSlot w.current)) :
    h.Stands words (.ofClass chain head) ⟨w.graph.size⟩ := by
  obtain ⟨container, around⟩ := ready.scope rfl
  have charted := ready.charted
  have full : h.fullName w.current = chain.headD "" := by
    rw [charted.fullName_eq widens.toLasting sound vocabulary container, ready.headD_eq]
  refine ⟨⟨w.current, entered.above, ?_⟩, ?_, ?_, ?_⟩
  · rw [charted.scopeNames_eq widens.toLasting sound vocabulary ready.valid.has_current, around]
    rfl
  · rw [fullName_of_child sound.rooted entered.above, entered.named, full]
    rfl
  · rw [slots, List.map_map]
    rfl
  · rw [slots]
    intro base among spelled target known
    obtain ⟨expr, -, rfl⟩ := List.mem_map.mp among
    have isClass := type_readSlot known
    have upper : (w.graph.entity target).isContainer = true := by simp [Entity.isContainer, isClass]
    have leads := charted.leads?_eq vocabulary spelled w.current
    rw [around] at leads
    refine ⟨fun same => ?_, ?_, w.graph.chart, charted.drawn vocabulary, widens.le, ?_⟩
    · exact w.graph.not_has_fresh (same ▸ w.graph.has_of_isContainer upper)
    · rw [(widens.entity (w.graph.has_of_isContainer upper)).type, isClass]
    · rw [widens.options, charted.fullName_eq widens.toLasting sound vocabulary upper, Binding.ofClass]
      intro clear
      rw [← leads clear]
      exact congrArg (Option.map w.graph.fullName) known

theorem declareClass_eq (ready : w.Ready words exports outline origin chain false) (member : head.name ∈ words)
    (unheld : w.graph.chart.held (w.graph.fullName w.current) head.name = none) (body : List Stmt) :
    w.declareClass head body = ((w.graph.defineClass w.current head body).1, some ⟨w.graph.size⟩) := by
  have container := (ready.scope rfl).1
  have open_ : ¬ (w.scope.type = .function ∨ w.isGuarded w.current head.name = true) := by
    rintro (function | kept)
    · simp [Entity.isContainer, function] at container
    · have bound := ready.bound kept member
      rw [unheld] at bound
      cases bound
  obtain ⟨_, _, _, _, second⟩ := defineClass_parts w.graph w.current head body
  rw [Walk.declareClass, if_neg open_, ← second]

/-- A class opens its scope, which has one scope more around it. -/
theorem declareClass (ready : w.Ready words exports outline origin chain false) (vocabulary : Vocabulary words)
    (fresh : Binding.Fresh words [.ofClass chain head] w.graph) (among : .ofClass chain head ∈ outline)
    (body : List Stmt) :
    ∃ g, w.declareClass head body = (g, some ⟨w.graph.size⟩) ∧
      Draws words outline [.ofClass chain head] w.graph g ∧
      ({ w with graph := g }.enter ⟨w.graph.size⟩).Ready words exports outline origin
        (Dotted.extend (chain.headD "") head.name :: chain) false := by
  have container := (ready.scope rfl).1
  have charted := ready.charted
  have own := List.mem_singleton_self (Binding.ofClass chain head)
  have member : head.name ∈ words := (fresh.proper _ own).name rfl
  have unheld : w.graph.chart.held (w.graph.fullName w.current) head.name = none := by
    rw [← ready.headD_eq]
    exact fresh.free _ own member
  have absent : (w.graph.entity w.current).contents.get? head.name = none := by
    rw [charted.get?_eq_lookup vocabulary container member, lookup_of_unheld unheld]
  have declared := ready.declareClass_eq member unheld body
  have declares : Declares (.any True) w (w.declareClass head body) := declares_declareClass w trivial trivial body
  have entered := entered_defineClass charted.sound ready.valid.has_current absent body
  have slots := slots_defineClass w.graph w.current head body
  rw [declared] at declares
  generalize (w.graph.defineClass w.current head body).1 = g at *
  have chartedBehind := entered.charted_class charted vocabulary member unheld (declares.recorded.path ready.valid)
    container
  have widens : Widens words [.ofClass chain head] w.graph g :=
    entered.widens charted vocabulary member unheld ready.headD_eq rfl rfl
  have stands := ready.stands_defineClass vocabulary widens chartedBehind.sound entered slots
  have draws : Draws words outline [.ofClass chain head] w.graph g := by
    refine ⟨chartedBehind, ready.placed.widens charted vocabulary widens chartedBehind.sound fun id new isClass => ?_,
      widens, fun {id} isModule => ?_⟩
    · obtain rfl := (entered.has.mp (g.has_of_type (by rw [isClass]; decide))).resolve_left new
      exact ⟨_, among, stands⟩
    · refine (entered.has.mp (g.has_of_type (by rw [isModule]; decide))).resolve_right ?_
      rintro rfl
      rw [entered.type] at isModule
      cases isModule
  have behind := ready.behind vocabulary declares.recorded draws
  refine ⟨g, declared, draws, ready.valid.enter (declares.opens _ rfl) behind.valid, behind.charted, behind.placed,
    fun _ => ⟨?_, ?_⟩, by simp, behind.guard, behind.exports, behind.origin⟩
  · have type := entered.type
    simp [Walk.scope, enter, Walk.current, Entity.isContainer, type]
  · have around : g.scopeNames w.current = chain := (behind.scope rfl).2
    have below := scopeNames_of_class chartedBehind.sound entered.type entered.above
    rwa [stands.full, around] at below

end definition

theorem guardHere (ready : w.Ready words exports outline origin chain inFunction) (vocabulary : Vocabulary words) :
    { w with guard := some w.guardHere }.Ready words exports outline origin chain inFunction := by
  have sound := ready.charted.sound
  have container := isContainer_scopeContainer sound ready.valid.has_current
  refine ⟨⟨ready.valid.sound, ready.valid.module, ready.valid.scopes, ready.valid.hooks⟩, ready.charted, ready.placed,
    ready.scope, ready.function, fun guard set => ?_, ready.exports, ready.origin⟩
  cases set
  refine ⟨container, fun name among member => ?_⟩
  have bound := (mem_localNames sound.tabled (vocabulary.unnumbered name member)).mp among
  have own := ready.charted.ownBinding?_eq vocabulary container member
  have some_ : (w.graph.ownBinding? (w.graph.scopeContainer w.current) name).isSome := by
    unfold ownBinding?
    cases found : (w.graph.entity (w.graph.scopeContainer w.current)).contents.get? name with
    | some child => simp [found]
    | none => simpa [found] using bound
  rw [own, Chart.own?, Option.isSome_map] at some_
  exact some_

end Ready

theorem Opens.type_of_quiet {g : Graph} {id : EntityId} (opens : w.Opens g id) (quiet : Quiet words w.graph g) :
    (g.entity id).type = .function := by
  cases opens with
  | fresh new _ type _ =>
      have present : g.Has id := g.has_of_type (by rcases type with type | type <;> rw [type] <;> decide)
      have other := (quiet.created present new).1
      rcases type with type | type
      · simp [Entity.isContainer, type] at other
      · exact type
  | again same _ type _ => rw [(same.entity id).type, type]

/-- The statements are plain, what they bind is free for it, and it is part of the outline. -/
structure Fits (words exports : List String) (outline : List Binding) (origin : Option String → Nat → Option String)
    (sites : List Site) (g : Graph) : Prop where
  plain : ∀ site ∈ sites, site.Plain words exports
  fresh : Binding.Fresh words (outlineOf origin sites) g
  among : outlineOf origin sites ⊆ outline

namespace Fits

variable {first second : List Site} {g h : Graph}

theorem left (fits : Fits words exports outline origin (first ++ second) g) :
    Fits words exports outline origin first g := by
  obtain ⟨plain, fresh, among⟩ := fits
  rw [outlineOf, List.flatMap_append] at fresh among
  exact ⟨fun site inFirst => plain site (List.mem_append_left _ inFirst), fresh.left,
    List.Subset.trans (List.subset_append_left _ _) among⟩

theorem right (fits : Fits words exports outline origin (first ++ second) g)
    (widens : Widens words (outlineOf origin first) g h) : Fits words exports outline origin second h := by
  obtain ⟨plain, fresh, among⟩ := fits
  rw [outlineOf, List.flatMap_append] at fresh among
  exact ⟨fun site inSecond => plain site (List.mem_append_right _ inSecond), fresh.right widens,
    List.Subset.trans (List.subset_append_right _ _) among⟩

theorem behind (fits : Fits words exports outline origin second g) (widens : Widens words [] g h) :
    Fits words exports outline origin second h := by
  have whole : Fits words exports outline origin ([] ++ second) g := fits
  exact whole.right widens

end Fits

theorem outlineOf_function {script : Script} {walk : Walk → Walk} {stmts : List Stmt}
    (performs : Script.Performs script walk stmts) : outlineOf origin (Stmt.sitesAll chain true stmts) = [] := by
  have kept (site : Site) (inside : site.inFunction = true) : site.bindings origin = [] := if_pos inside
  induction performs with
  | skip => rw [Stmt.sitesAll, outlineOf, List.flatMap_nil]
  | andThen _ _ before behind =>
      rw [Stmt.sitesAll_append, outlineOf, List.flatMap_append]
      exact List.append_eq_nil_iff.mpr ⟨before, behind⟩
  | inBlock _ inside => exact inside
  | guarded _ inside => exact inside
  | plain _ other _ inside =>
      rw [Stmt.sitesAll, Stmt.sites_of_other other, Stmt.sitesAll, List.append_nil, outlineOf, List.flatMap_cons,
        kept _ rfl]
      exact inside
  | @definition _ _ stmt defines _ _ =>
      cases stmt with
      | classDef | function =>
          rw [Stmt.sitesAll, Stmt.sites, Stmt.sitesAll, List.append_nil, if_pos rfl, outlineOf, List.flatMap_singleton,
            kept _ rfl]
      | _ => cases defines

section performs

variable {script : Script} {walk : Walk → Walk} {stmts : List Stmt}

/-- What is walked between two calls of the hooks. -/
theorem Ready.around (ready : w.Ready words exports outline origin chain inFunction) (vocabulary : Vocabulary words)
    (made : Made True walk) (stmt : Stmt)
    (inside : ∀ {v : Walk}, v.Ready words exports outline origin chain inFunction →
      Quiet words w.graph v.graph → Draws words outline bindings v.graph (walk v).graph) :
    Draws words outline bindings w.graph ((walk (w.visit stmt)).depart stmt).graph := by
  have walks : Walks (.aside words) w (w.visit stmt) := walks_visit w stmt
  have quiet := walks.quiet vocabulary ready.valid
  have visited := ready.of_aside vocabulary walks
  have readyInside := ready.behind vocabulary walks visited
  have inner := inside readyInside quiet
  have departed := (readyInside.behind vocabulary (made _) inner).of_aside vocabulary (walks_depart _ stmt)
  exact visited.trans (inner.trans_nil departed)

theorem Ready.walkClass {head : ClassHead} {body : List Stmt}
    (ready : w.Ready words exports outline origin chain inFunction) (vocabulary : Vocabulary words)
    (made : Made True walk)
    (inside : ∀ {v : Walk} {chain : List String}, v.Ready words exports outline origin chain false →
      Fits words exports outline origin (Stmt.sitesAll chain false body) v.graph →
      Draws words outline (outlineOf origin (Stmt.sitesAll chain false body)) v.graph (walk v).graph)
    (fits : Fits words exports outline origin (Stmt.sites chain inFunction (.classDef head body)) w.graph) :
    Draws words outline (outlineOf origin (Stmt.sites chain inFunction (.classDef head body))) w.graph
      (walkDefinition (.classDef head body) (w.declareClass head body) walk w).graph := by
  rw [Stmt.sites] at fits ⊢
  cases inFunction with
  | true =>
      have passed : w.declareClass head body = (w.graph, none) := if_pos (.inl (ready.function rfl))
      rw [passed]
      exact ready.around vocabulary Made.refl _ fun ready _ => ready.of_aside vocabulary (.refl _)
  | false =>
      rw [← List.singleton_append] at fits ⊢
      obtain ⟨g, declared, draws, readyInside⟩ := ready.declareClass vocabulary fits.left.fresh
        (fits.among List.mem_cons_self) body
      have fitsInside := fits.right draws.widens
      have inner := readyInside.around vocabulary made (.classDef head body) fun ready quiet =>
        inside ready (fitsInside.behind (readyInside.charted.widens_of_quiet vocabulary quiet))
      rw [declared, outlineOf, List.flatMap_append]
      exact draws.trans (inner.trans_nil (.of_described inner.charted inner.placed vocabulary
        (told_leave _ _).described))

theorem Ready.walkFunction {head : FunctionHead} {body : List Stmt}
    (ready : w.Ready words exports outline origin chain inFunction) (vocabulary : Vocabulary words)
    (performs : Script.Performs script walk body)
    (inside : ∀ {v : Walk}, v.Ready words exports outline origin chain true →
      Fits words exports outline origin (Stmt.sitesAll chain true body) v.graph →
      Draws words outline (outlineOf origin (Stmt.sitesAll chain true body)) v.graph (walk v).graph)
    (fits : Fits words exports outline origin (Stmt.sites chain inFunction (.function head body)) w.graph) :
    Draws words outline (outlineOf origin (Stmt.sites chain inFunction (.function head body))) w.graph
      (walkDefinition (.function head body) (w.declareFunction head body) walk w).graph := by
  rw [Stmt.sites] at fits ⊢
  have allows : (Licence.aside words).Allows w (.function head body) :=
    ⟨fun _ => trivial, (fits.plain _ List.mem_cons_self).aside rfl, by simp [Stmt.isClass],
      fun _ among => absurd among List.not_mem_nil, by simp [Stmt.isImport], fun _ _ _ _ _ => trivial⟩
  have declares : Declares (.aside words) w (w.declareFunction head body) := Script.declares_of_allows allows
  have recorded := ready.of_aside vocabulary declares.recorded
  have behind := ready.behind vocabulary declares.recorded recorded
  cases inFunction with
  | true =>
      have passed : w.declareFunction head body = (w.graph, none) := if_pos (.inl (ready.function rfl))
      rw [passed]
      exact ready.around vocabulary Made.refl _ fun ready _ => ready.of_aside vocabulary (.refl _)
  | false =>
      rw [← List.singleton_append] at fits ⊢
      have fitsInside := fits.right recorded.widens
      rw [outlineOf, List.flatMap_append]
      -- The definition itself adds nothing to the outline.
      change Draws words outline (outlineOf origin (Stmt.sitesAll chain true body)) _ _
      cases declared : w.declareFunction head body with
      | mk g opened =>
          rw [declared] at declares recorded behind fitsInside
          cases opened with
          | none =>
              rw [outlineOf_function performs]
              exact recorded.trans (behind.around vocabulary Made.refl _ fun ready _ =>
                ready.of_aside vocabulary (.refl _))
          | some id =>
              have opens := declares.opens id rfl
              have type : (g.entity id).type = .function :=
                opens.type_of_quiet (declares.recorded.quiet vocabulary ready.valid)
              have readyInside : ({ w with graph := g }.enter id).Ready words exports outline origin chain true :=
                ⟨ready.valid.enter opens behind.valid, behind.charted, behind.placed, by simp, fun _ => type,
                  behind.guard, behind.exports, behind.origin⟩
              have inner := readyInside.around vocabulary performs.made (.function head body) fun ready quiet =>
                inside ready (fitsInside.behind (readyInside.charted.widens_of_quiet vocabulary quiet))
              exact recorded.trans (inner.trans_nil (.of_described inner.charted inner.placed vocabulary
                (told_leave _ _).described))

/-- A walk extends the graph by the outline of the statements that it goes through. -/
theorem Script.Performs.charts (performs : Script.Performs script walk stmts) (vocabulary : Vocabulary words) :
    ∀ {w : Walk} {chain : List String} {inFunction : Bool},
      w.Ready words exports outline origin chain inFunction →
      Fits words exports outline origin (Stmt.sitesAll chain inFunction stmts) w.graph →
      Draws words outline (outlineOf origin (Stmt.sitesAll chain inFunction stmts)) w.graph (walk w).graph := by
  induction performs with
  | skip =>
      intro w chain inFunction ready _
      rw [Stmt.sitesAll]
      exact ready.of_aside vocabulary (.refl w)
  | andThen before _ first second =>
      intro w chain inFunction ready fits
      rw [Stmt.sitesAll_append] at fits ⊢
      have drawsFirst := first ready fits.left
      have drawsSecond := second (ready.behind vocabulary (before.made w) drawsFirst) (fits.right drawsFirst.widens)
      rw [outlineOf, List.flatMap_append]
      exact drawsFirst.trans drawsSecond
  | inBlock _ inside =>
      intro w chain inFunction ready fits
      have deeper : { w with flowDepth := w.flowDepth + 1 }.Ready words exports outline origin chain inFunction :=
        ⟨⟨ready.valid.sound, ready.valid.module, ready.valid.scopes, ready.valid.hooks⟩, ready.charted, ready.placed,
          ready.scope, ready.function, ready.guard, ready.exports, ready.origin⟩
      exact inside deeper fits
  | guarded _ inside =>
      intro w chain inFunction ready fits
      exact inside (ready.guardHere vocabulary) fits
  | @plain _ walk stmt next other performs inside =>
      intro w chain inFunction ready fits
      rw [Stmt.sitesAll, Stmt.sites_of_other other, Stmt.sitesAll, List.append_nil, ← List.singleton_append] at fits ⊢
      have single : outlineOf origin [⟨chain, inFunction, stmt⟩] = Site.bindings origin ⟨chain, inFunction, stmt⟩ :=
        List.flatMap_singleton _ _
      have handled := ready.handle vocabulary other (fits.plain _ List.mem_cons_self) (single ▸ fits.left.fresh) next
      have readyBehind := ready.behind vocabulary (walks_handle w (fun _ => trivial) next) handled
      rw [← single] at handled
      have fitsBehind := fits.right handled.widens
      rw [outlineOf, List.flatMap_append]
      exact handled.trans (readyBehind.around vocabulary performs.made stmt fun ready quiet =>
        inside ready (fitsBehind.behind (readyBehind.charted.widens_of_quiet vocabulary quiet)))
  | @definition _ walk stmt defines performs inside =>
      intro w chain inFunction ready fits
      rw [Stmt.sitesAll, Stmt.sitesAll, List.append_nil] at fits ⊢
      cases stmt with
      | classDef head body => exact ready.walkClass vocabulary performs.made inside fits
      | function head body => exact ready.walkFunction vocabulary performs inside fits
      | _ => cases defines

end performs

end Walk

end DocGraph
