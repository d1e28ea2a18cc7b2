import DocGraph.Proofs.Order.Charted

namespace DocGraph

open Dotted (Spelled IsSegment spelled_extend)

/-- What a name is given by a statement: a class, with the texts of its bases, or another full name. -/
inductive Meaning where
  | class (bases : List String)
  | alias (target : String)
deriving DecidableEq, Repr

/-- A name that is given in a scope. -/
structure Binding where
  /-- The scope and those around it, innermost first. -/
  chain : List String
  name : String
  meaning : Meaning
deriving DecidableEq, Repr

namespace Binding

def scope (b : Binding) : String := b.chain.headD ""

def key (b : Binding) : String × String := (b.scope, b.name)

def holding (b : Binding) : Holding :=
  match b.meaning with
  | .class _ => .child .class
  | .alias target => .alias target

/-- What the first binding of a name in a scope holds. -/
def held (bindings : List Binding) (scope name : String) : Option Holding :=
  (bindings.find? fun b => b.key = (scope, name)).map holding

theorem held_append (first second : List Binding) (scope name : String) :
    held (first ++ second) scope name = (held first scope name).or (held second scope name) := by
  rw [held, List.find?_append]
  cases found : first.find? fun b => b.key = (scope, name) <;> simp [held, found]

theorem held_singleton (b : Binding) (scope name : String) :
    held [b] scope name = if b.key = (scope, name) then some b.holding else none := by
  by_cases same : b.key = (scope, name) <;> simp [held, same]

end Binding

namespace Graph

variable {g h k : Graph} {words : List String} {id parent : EntityId} {name : String}

theorem ancestors_eq_of_above (rooted : g.Rooted) (rooted' : h.Rooted) (inside : g.Has id) (inside' : h.Has id)
    (parents : ∀ upper, g.Above upper id → (h.entity upper).parent = (g.entity upper).parent) :
    h.ancestors id = g.ancestors id := by
  induction id using rooted.wellFounded.induction with
  | _ id ih =>
      have same := parents id Relation.ReflTransGen.refl
      cases next : (g.entity id).parent with
      | none => rw [ancestors_of_root rooted inside next, ancestors_of_root rooted' inside' (same.trans next)]
      | some parent =>
          have held : g.IsParent parent id := next
          have held' : h.IsParent parent id := same.trans next
          rw [ancestors_of_child rooted held, ancestors_of_child rooted' held',
            ih parent held (rooted.parentHas held) (rooted'.parentHas held')
              fun upper above => parents upper (above.tail held)]

/-- The graph behind has the entries on its chart besides those that were there. -/
structure Widens (words : List String) (bindings : List Binding) (g h : Graph) : Prop extends Lasting words g h where
  root : ∀ {word}, word ∈ words → h.chart.root word = g.chart.root word
  held : ∀ {scope word}, Spelled words scope → word ∈ words →
    h.chart.held scope word = (g.chart.held scope word).or (Binding.held bindings scope word)

theorem Widens.trans {first second : List Binding} (before : Widens words first g h)
    (behind : Widens words second h k) :
    Widens words (first ++ second) g k where
  toLasting := before.toLasting.trans behind.toLasting
  root member := (behind.root member).trans (before.root member)
  held spelled member := by
    rw [behind.held spelled member, before.held spelled member, Binding.held_append, Option.or_assoc]

theorem Widens.le {bindings : List Binding} (widens : Widens words bindings g h) : g.chart.Le words h.chart where
  root member := widens.root member
  held spelled member found := by rw [widens.held spelled member, found, Option.some_or]

theorem lasting_bindAlias (g : Graph) (id : EntityId) (name target : String) :
    Lasting words g (g.modify id (Entity.bindAlias name target)) := by
  refine ⟨rfl, fun present => (g.has_modify id _ _).mpr present, fun _ => ?_⟩
  rw [entity_modify]
  split <;> exact ⟨rfl, rfl, .inl rfl, rfl, rfl, rfl⟩

theorem aliases_bindAlias (inside : g.Has id) (name target : String) (other : EntityId) (word : String) :
    ((g.modify id (Entity.bindAlias name target)).entity other).aliases[word]? =
      if other = id ∧ name = word then some target else (g.entity other).aliases[word]? := by
  by_cases same : other = id
  · subst same
    rw [entity_modify_self _ _ _ inside, Entity.bindAlias, NameMap.get_insert]
    simp
  · rw [entity_modify_of_ne _ _ _ (Ne.symm same), if_neg fun both => same both.1]

namespace Charted

section lasting

variable (charted : g.Charted words) (lasting : Lasting words g h) (sound : h.Sound)

include charted lasting sound

theorem ancestors_eq (inside : g.Has id) : h.ancestors id = g.ancestors id :=
  ancestors_eq_of_above charted.sound.rooted sound.rooted inside (lasting.has inside) fun _ above =>
    (lasting.entity (above.has charted.sound.rooted inside)).parent

variable (vocabulary : Vocabulary words)

include vocabulary

theorem fullName_eq (container : (g.entity id).isContainer = true) : h.fullName id = g.fullName id := by
  have rooted := charted.sound.rooted
  have inside := g.has_of_isContainer container
  refine fullName_eq_of_above rooted sound.rooted inside (lasting.has inside) (fun upper above => ?_)
    fun upper above => (lasting.entity (above.has rooted inside)).parent
  have outer : (g.entity upper).isContainer = true := by
    refine Relation.ReflTransGen.head_induction_on above container fun step _ inner => ?_
    exact charted.inside inner step
  exact (lasting.entity (above.has rooted inside)).name_eq (vocabulary.spelled (charted.name_mem outer))

theorem scopeNames_eq (inside : g.Has id) : h.scopeNames id = g.scopeNames id := by
  have along (ids : List EntityId) (present : ∀ id ∈ ids, g.Has id) : h.scopesAlong ids = g.scopesAlong ids := by
    induction ids with
    | nil => rfl
    | cons id rest ih =>
        have type := (lasting.entity (present id List.mem_cons_self)).type
        rw [scopesAlong, scopesAlong, type, ih fun other among => present other (List.mem_cons_of_mem _ among)]
        cases typed : (g.entity id).type with
        | module | «class» =>
            rw [charted.fullName_eq lasting sound vocabulary (by simp [Entity.isContainer, typed])]
        | function | «attribute» => rfl
  rw [scopeNames, charted.ancestors_eq lasting sound inside]
  exact along _ fun upper among =>
    ((mem_ancestors charted.sound.rooted inside).mp among).has charted.sound.rooted inside

/-- The graph behind is charted if what is new in it is, and if what was listed still is. -/
theorem step (inTable : h.UnnumberedInTable none)
    (kept : ∀ {id}, (g.entity id).isContainer = true → h.lookup (g.fullName id) = some id)
    (created : ∀ {id}, h.Has id → ¬ g.Has id →
      ((h.entity id).name ∈ words ↔ (h.entity id).isContainer = true) ∧
      ((h.entity id).isContainer = true → (∀ parent, h.IsParent parent id → (h.entity parent).isContainer = true) ∧
        h.lookup (h.fullName id) = some id ∧ (h.entity id).aliases = ∅))
    (found : ∀ {name id}, Spelled words name → h.lookup name = some id →
      g.lookup name = some id ∨ (h.entity id).isContainer = true ∧ h.fullName id = name)
    (targets : ∀ {id word target}, (g.entity id).isContainer = true → word ∈ words →
      (h.entity id).aliases[word]? = some target → Spelled words target) : h.Charted words where
  sound := sound
  inTable := inTable
  named {id} present := by
    by_cases inside : g.Has id
    · have entity := lasting.entity inside
      rw [entity.isContainer, ← charted.named inside]
      rcases entity.name with same | ⟨before, behind⟩
      · rw [same]
      · exact iff_of_false (fun member => behind (vocabulary.spelled member))
          fun member => before (vocabulary.spelled member)
    · exact (created present inside).1
  inside {parent id} container held := by
    by_cases inside : g.Has id
    · have entity := lasting.entity inside
      have heldBefore : g.IsParent parent id := entity.parent.symm.trans held
      rw [(lasting.entity (charted.sound.rooted.parentHas heldBefore)).isContainer]
      exact charted.inside (entity.isContainer.symm.trans container) heldBefore
    · exact ((created (h.has_of_isContainer container) inside).2 container).1 parent held
  listed {id} container := by
    by_cases inside : g.Has id
    · have before := (lasting.entity inside).isContainer.symm.trans container
      rw [charted.fullName_eq lasting sound vocabulary before]
      exact kept before
    · exact ((created (h.has_of_isContainer container) inside).2 container).2.1
  found {name id} spelled listed := by
    rcases found spelled listed with before | new
    · obtain ⟨container, full⟩ := charted.found spelled before
      rw [(lasting.entity (g.has_of_isContainer container)).isContainer,
        charted.fullName_eq lasting sound vocabulary container]
      exact ⟨container, full⟩
    · exact new
  targets {id word target} container member entry := by
    by_cases inside : g.Has id
    · exact targets ((lasting.entity inside).isContainer.symm.trans container) member entry
    · rw [((created (h.has_of_isContainer container) inside).2 container).2.2] at entry
      simp at entry

end lasting

theorem widens_bindAlias (charted : g.Charted words) (container : (g.entity id).isContainer = true) {b : Binding}
    {target : String} (scope : b.scope = g.fullName id) (meaning : b.meaning = .alias target)
    (free : b.name ∈ words → ∀ other, g.chart.held b.scope b.name ≠ some (.alias other)) :
    Widens words [b] g (g.modify id (Entity.bindAlias b.name target)) where
  toLasting := lasting_bindAlias g id b.name target
  root {word} _ := by
    have type := read_modify g id (Entity.bindAlias b.name target) Entity.type fun _ => rfl
    exact congrArg (fun f => (g.lookup word).map f) (funext type)
  held {around word} spelled member := by
    let h := g.modify id (Entity.bindAlias b.name target)
    have type : ∀ id, (h.entity id).type = (g.entity id).type := read_modify g id _ Entity.type fun _ => rfl
    rw [Binding.held_singleton]
    cases below : g.lookup (Dotted.extend around word) with
    | some child => rw [held_chart_of_child below, held_chart_of_child (g := h) below, type, Option.some_or]
    | none =>
        -- The binding is one of this scope if the scope is that of the alias.
        have same {owner : EntityId} (above : g.lookup around = some owner) :
            b.key = (around, word) ↔ owner = id ∧ b.name = word := by
          rw [Binding.key, Prod.mk.injEq, scope]
          refine and_congr_left fun _ => ⟨fun equal => ?_, fun equal => ?_⟩
          · rw [← equal, charted.listed container] at above
            exact (Option.some.inj above).symm
          · rw [← equal, (charted.found spelled above).2]
        cases above : g.lookup around with
        | none =>
            have other : b.key ≠ (around, word) := by
              intro equal
              have listed := charted.listed container
              rw [← scope, show b.scope = around from congrArg Prod.fst equal, above] at listed
              cases listed
            rw [held_chart_of_missing below above, held_chart_of_missing (g := h) below above, if_neg other,
              Option.or_none]
        | some owner =>
            rw [held_chart_of_absent below above, held_chart_of_absent (g := h) below above,
              aliases_bindAlias (g.has_of_isContainer container)]
            by_cases own : owner = id ∧ b.name = word
            · have key := (same above).mpr own
              have open_ := free (own.2 ▸ member)
              rw [show b.scope = around from congrArg Prod.fst key, own.2, held_chart_of_absent below above] at open_
              rw [if_pos own, if_pos key, Binding.holding, meaning]
              cases entry : (g.entity owner).aliases[word]? with
              | none => rfl
              | some other => exact absurd (congrArg (Option.map Holding.alias) entry) (open_ other)
            · rw [if_neg own, if_neg fun equal => own ((same above).mp equal), Option.or_none]

variable (charted : g.Charted words) (vocabulary : Vocabulary words)

include charted vocabulary

theorem of_quiet (quiet : Quiet words g h) (path : Path g h) : h.Charted words := by
  refine charted.step quiet.lasting (path.sound charted.sound) vocabulary
    (path.inTable charted.sound charted.inTable) (fun container => ?_) (fun present new => ?_)
    (fun spelled listed => ?_)
    fun container member entry => ?_
  · rw [quiet.lookup (charted.spelled_fullName vocabulary container)]
    exact charted.listed container
  · obtain ⟨container, noise⟩ := quiet.created present new
    refine ⟨iff_of_false (fun member => noise (vocabulary.spelled member)) (by simp [container]), fun other => ?_⟩
    rw [container] at other
    cases other
  · rw [quiet.lookup spelled] at listed
    exact .inl listed
  · rw [(quiet.entity (g.has_of_isContainer container)).aliases _ member] at entry
    exact charted.targets container member entry

theorem widens_of_quiet (quiet : Quiet words g h) : Widens words [] g h where
  toLasting := quiet.lasting
  root {word} member := by
    have spelled := vocabulary.spelled member
    simp only [chart, quiet.lookup spelled]
    cases listed : g.lookup word with
    | none => rfl
    | some id =>
        simp [(quiet.entity (g.has_of_isContainer (charted.found spelled listed).1)).type]
  held {scope word} spelled member := by
    have below := spelled_extend.mpr ⟨spelled, vocabulary.spelled member⟩
    simp only [chart, quiet.lookup below, quiet.lookup spelled, Binding.held, List.find?_nil, Option.map_none,
      Option.or_none]
    cases listed : g.lookup (Dotted.extend scope word) with
    | some child =>
        simp [(quiet.entity (g.has_of_isContainer (charted.found below listed).1)).type]
    | none =>
        cases above : g.lookup scope with
        | none => rfl
        | some id =>
            simp [(quiet.entity (g.has_of_isContainer (charted.found spelled above).1)).aliases word member]

theorem of_bindAlias (container : (g.entity id).isContainer = true) {target : String}
    (spelled : name ∈ words → Spelled words target) :
    (g.modify id (Entity.bindAlias name target)).Charted words := by
  have path : Path g (g.modify id (Entity.bindAlias name target)) := .touch (.bind _ _ _)
  refine charted.step (lasting_bindAlias g id name target) (path.sound charted.sound) vocabulary
    (path.inTable charted.sound charted.inTable) charted.listed
    (fun present new => absurd ((g.has_modify id _ _).mp present) new) (fun _ listed => .inl listed)
    fun {other word found} outer member entry => ?_
  rw [aliases_bindAlias (g.has_of_isContainer container)] at entry
  split at entry
  · rename_i own
    cases entry
    exact spelled (own.2 ▸ member)
  · exact charted.targets outer member entry

end Charted

theorem lookup_of_unheld {scope : String} (unheld : g.chart.held scope name = none) :
    g.lookup (Dotted.extend scope name) = none := by
  cases listed : g.lookup (Dotted.extend scope name) with
  | none => rfl
  | some id =>
      rw [held_chart_of_child listed] at unheld
      cases unheld

/-- A class is declared under a name that is free in its scope. -/
structure Entered (parent : EntityId) (name : String) (g h : Graph) : Prop where
  options : h.options = g.options
  has : ∀ {id}, h.Has id ↔ g.Has id ∨ id = ⟨g.size⟩
  old : ∀ {id}, g.Has id → ∃ contents, h.entity id = { g.entity id with contents }
  type : (h.entity ⟨g.size⟩).type = .class
  named : (h.entity ⟨g.size⟩).name = name
  above : h.IsParent parent ⟨g.size⟩
  aliases : (h.entity ⟨g.size⟩).aliases = ∅
  lookup : ∀ key, h.lookup key =
    if key = Dotted.extend (g.fullName parent) name then some ⟨g.size⟩ else g.lookup key

theorem lookup_declare_of_free (sound : g.Sound) {e : Entity} (blank : e.Blank) (above : e.parent = some parent)
    (inside : g.Has parent) (free : (g.entity parent).contents.get? e.name = none) (key : String) :
    ((g.alloc e).1.attach parent ⟨g.size⟩).lookup key =
      if key = Dotted.extend (g.fullName parent) e.name then some ⟨g.size⟩ else g.lookup key := by
  have full := fullName_declare blank above inside sound (.inr free)
  by_cases same : key = Dotted.extend (g.fullName parent) e.name
  · rw [if_pos same, same, ← full]
    exact lookup_declare blank above inside sound (.inr free)
  · have fresh : (g.alloc e).1.entity ⟨g.size⟩ = e := (g.entity_alloc e _).trans (if_pos rfl)
    have held : (g.alloc e).1.IsParent parent ⟨g.size⟩ := by rw [IsParent, fresh, above]
    have tabled := tabled_alloc sound.tabled blank.contents
    have arranged := arranged_bindChild (g.alloc e).1 parent e.name ⟨g.size⟩
    have insideBehind : (g.alloc e).1.Has parent := (g.has_alloc e _).mpr (.inl inside)
    have free : ((g.alloc e).1.entity parent).contents.get? ((g.alloc e).1.entity ⟨g.size⟩).name = none := by
      rw [fresh, entity_alloc_of_has _ _ inside, free]
    have tabledBehind := tabled_bindChild tabled held insideBehind
    rw [attach_of_free free, fresh] at full
    rw [fresh] at tabledBehind
    have unlisted : ((g.alloc e).1.bindChild parent e.name ⟨g.size⟩).lookup key = g.lookup key := rfl
    rw [attach_of_free free, fresh, if_neg same, ← unlisted]
    refine lookup_foldl_registerOne_of_not _ _ fun lower among equal => same ?_
    -- Nothing but the entity itself is registered.
    have below := (reaches_of_mem_subtreeFrom tabledBehind among).above tabledBehind
    rw [Above, arranged.isParent] at below
    have alone : e.parent ≠ some ⟨g.size⟩ := by
      rw [above]
      rintro ⟨⟩
      exact g.not_has_fresh inside
    obtain rfl := above_fresh sound.rooted alone below
    rw [← equal, ← full, (SameTree.of_entities (entities_register _ _)).fullName]

theorem entered_defineClass (sound : g.Sound) (inside : g.Has parent) {head : ClassHead}
    (free : (g.entity parent).contents.get? head.name = none) (body : List Stmt) :
    Entered parent head.name g (g.defineClass parent head body).1 := by
  obtain ⟨k, decorators, decorated, documented, _⟩ := defineClass_parts g parent head body
  let e := g.declared parent head.name (.class {}) (some .class) head.line
  have blank : e.Blank := blank_declared g parent head.name _ head.line (by decide) fun _ => rfl
  have arranged : Arranged (g.alloc e).1 (g.addClass parent head.name head.line).1 := arranged_attach _ _ _
  have read {α : Type} (read : Entity → α) (blind : ∀ e name contents, read { e with name, contents } = read e) :
      read ((g.addClass parent head.name head.line).1.entity ⟨g.size⟩) = read e :=
    read_addEntity g parent head.name (.class {}) (some .class) head.line read blind
  -- What is said behind is about the class alone, and leaves its place as it is.
  generalize (g.defineClass parent head body).1 = h at documented
  have rebased : Rebased (g.addClass parent head.name head.line).1 h :=
    ((Rebased.of_described decorated.described).trans (.modifyClass k _ _)).trans (.of_described documented.described)
  have elsewhere {id : EntityId} (other : id ≠ ⟨g.size⟩) :
      h.entity id = (g.addClass parent head.name head.line).1.entity id := by
    rw [documented.elsewhere other, entity_modify_of_ne _ _ _ (Ne.symm other), decorated.elsewhere other]
  have fresh := rebased.entity ⟨g.size⟩
  have taken : (g.addClass parent head.name head.line).1 =
      ((g.alloc e).1.bindChild parent head.name ⟨g.size⟩).register ⟨g.size⟩ := by
    have own : (g.alloc e).1.entity ⟨g.size⟩ = e := (g.entity_alloc e _).trans (if_pos rfl)
    have free : ((g.alloc e).1.entity parent).contents.get? ((g.alloc e).1.entity ⟨g.size⟩).name = none := by
      rw [own, entity_alloc_of_has _ _ inside]
      exact free
    have attached := attach_of_free free
    rwa [own] at attached
  refine ⟨rebased.options.trans arranged.options, fun {id} => ?_, fun {id} present => ?_,
    fresh.type.trans (read Entity.type fun _ _ _ => rfl), ?_, fresh.parent.trans (read Entity.parent fun _ _ _ => rfl),
    fresh.aliases.trans (read Entity.aliases fun _ _ _ => rfl), fun key => ?_⟩
  · rw [Has, rebased.size, ← Has, arranged.has, has_alloc]
  · have other : id ≠ ⟨g.size⟩ := fun same => g.not_has_fresh (same ▸ present)
    rw [elsewhere other, taken, entity_congr (entities_register _ _), bindChild, entity_modify,
      entity_alloc_of_has _ _ present]
    split <;> exact ⟨_, rfl⟩
  · rw [fresh.name, taken, entity_congr (entities_register _ _), name_bindChild, entity_alloc, if_pos rfl]
    rfl
  · rw [Graph.lookup, rebased.index]
    exact lookup_declare_of_free sound blank rfl inside free key

namespace Entered

variable {parent : EntityId} {name : String}

theorem lasting (entered : Entered parent name g h) : Lasting words g h := by
  refine ⟨entered.options, fun present => entered.has.mpr (.inl present), fun present => ?_⟩
  obtain ⟨contents, equal⟩ := entered.old present
  rw [equal]
  exact ⟨rfl, rfl, .inl rfl, rfl, rfl, rfl⟩

section charted

variable (entered : Entered parent name g h) (charted : g.Charted words) (vocabulary : Vocabulary words)
  (member : name ∈ words) (free : g.chart.held (g.fullName parent) name = none)

include entered charted vocabulary member free

theorem charted_class (path : Path g h) (container : (g.entity parent).isContainer = true) : h.Charted words := by
  have sound := path.sound charted.sound
  have lasting : Lasting words g h := entered.lasting
  have absent := lookup_of_unheld free
  have isContainer : (h.entity ⟨g.size⟩).isContainer = true := by simp [Entity.isContainer, entered.type]
  have full : h.fullName ⟨g.size⟩ = Dotted.extend (g.fullName parent) name := by
    rw [fullName_of_child sound.rooted entered.above, entered.named,
      charted.fullName_eq lasting sound vocabulary container]
  refine charted.step lasting sound vocabulary (path.inTable charted.sound charted.inTable) (fun {id} outer => ?_)
    (fun {id} present new => ?_) (fun {key id} spelled listed => ?_) fun {id word target} outer inWords entry => ?_
  · have listed := charted.listed outer
    rw [entered.lookup, if_neg, listed]
    intro same
    rw [same, absent] at listed
    cases listed
  · obtain rfl := (entered.has.mp present).resolve_left new
    refine ⟨iff_of_true (entered.named ▸ member) isContainer, fun _ => ⟨fun upper held => ?_, ?_, entered.aliases⟩⟩
    · obtain rfl : parent = upper := Option.some.inj (entered.above.symm.trans held)
      exact (lasting.entity (g.has_of_isContainer container)).isContainer.trans container
    · rw [entered.lookup, if_pos full]
  · rw [entered.lookup] at listed
    split at listed
    · rename_i same
      cases listed
      exact .inr ⟨isContainer, full.trans same.symm⟩
    · exact .inl listed
  · obtain ⟨contents, equal⟩ := entered.old (g.has_of_isContainer outer)
    rw [equal] at entry
    exact charted.targets outer inWords entry

theorem widens {b : Binding} (scope : b.scope = g.fullName parent) (named : b.name = name) {bases : List String}
    (meaning : b.meaning = .class bases) : Widens words [b] g h where
  toLasting := entered.lasting
  root {word} inWords := by
    have apart : word ≠ Dotted.extend (g.fullName parent) name := fun same =>
      Dotted.not_isSegment_extend _ _ (same ▸ vocabulary.segment word inWords)
    simp only [chart, entered.lookup, if_neg apart]
    cases listed : g.lookup word with
    | none => rfl
    | some id =>
        obtain ⟨contents, equal⟩ :=
          entered.old (g.has_of_isContainer (charted.found (vocabulary.spelled inWords) listed).1)
        simp [equal, Entity.type]
  held {around word} spelled inWords := by
    have below := spelled_extend.mpr ⟨spelled, vocabulary.spelled inWords⟩
    have same : Dotted.extend around word = Dotted.extend (g.fullName parent) name ↔ b.key = (around, word) := by
      rw [Binding.key, Prod.mk.injEq, scope, named]
      refine ⟨fun equal => ?_, fun equal => by rw [equal.1, equal.2]⟩
      obtain ⟨first, second⟩ := Dotted.extend_injective (vocabulary.segment word inWords)
        (vocabulary.segment name member) equal
      exact ⟨first.symm, second.symm⟩
    have old {id : EntityId} {key : String} (spelled : Spelled words key) (listed : g.lookup key = some id) :
        (h.entity id).type = (g.entity id).type ∧ (h.entity id).aliases = (g.entity id).aliases := by
      obtain ⟨contents, equal⟩ := entered.old (g.has_of_isContainer (charted.found spelled listed).1)
      rw [equal]
      exact ⟨rfl, rfl⟩
    rw [Binding.held_singleton]
    by_cases own : b.key = (around, word)
    · have unheld : g.chart.held around word = none := by
        obtain ⟨rfl, rfl⟩ := Prod.mk.inj own
        rwa [scope, named]
      have listed : h.lookup (Dotted.extend around word) = some ⟨g.size⟩ := by
        rw [entered.lookup, if_pos (same.mpr own)]
      rw [held_chart_of_child listed, entered.type, unheld, Option.none_or, if_pos own, Binding.holding, meaning]
    · have kept : h.lookup (Dotted.extend around word) = g.lookup (Dotted.extend around word) := by
        rw [entered.lookup, if_neg fun equal => own (same.mp equal)]
      rw [if_neg own, Option.or_none]
      cases listed : g.lookup (Dotted.extend around word) with
      | some child =>
          rw [held_chart_of_child listed, held_chart_of_child (kept.trans listed), (old below listed).1]
      | none =>
          have missing := kept.trans listed
          by_cases inner : around = Dotted.extend (g.fullName parent) name
          · -- In the new class nothing is bound yet, and it was not there before.
            have above : h.lookup around = some ⟨g.size⟩ := by rw [entered.lookup, if_pos inner]
            rw [held_chart_of_absent missing above, entered.aliases,
              held_chart_of_missing listed (inner ▸ lookup_of_unheld free)]
            simp
          · have above : h.lookup around = g.lookup around := by rw [entered.lookup, if_neg inner]
            cases owner : g.lookup around with
            | none => rw [held_chart_of_missing listed owner, held_chart_of_missing missing (above.trans owner)]
            | some id =>
                rw [held_chart_of_absent listed owner, held_chart_of_absent missing (above.trans owner),
                  (old spelled owner).2]

end charted

end Entered

end Graph

end DocGraph
