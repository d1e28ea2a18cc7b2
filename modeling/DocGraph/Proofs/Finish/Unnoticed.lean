import DocGraph.Proofs.Finish.Repeat

namespace DocGraph

theorem Diagnostics.eq_of_toList {ds es : Diagnostics} (verbosity : ds.verbosity = es.verbosity)
    (listed : ds.toList = es.toList) : ds = es := by
  cases ds
  cases es
  rw [Diagnostics.mk.injEq]
  exact ⟨verbosity, Array.toList_inj.mp listed⟩

namespace PendingImport

/-- The name of the module that is imported from. -/
def origin : PendingImport → String
  | .reexport origin _ _ _ => origin
  | .star origin _ _ _ => origin

def line : PendingImport → Nat
  | .reexport _ _ _ line => line
  | .star _ _ _ line => line

end PendingImport

namespace Entity

/-- The entity with no import left to wait. -/
def released (e : Entity) : Entity := e.modifyModule fun info => { info with pending := [] }

theorem read_released {α : Sort*} {read : Entity → α} (kept : ∀ e info, e.payload = .module info →
    read { e with payload := .module { info with pending := [] } } = read e) (e : Entity) :
    read e.released = read e := by
  unfold released modifyModule
  split
  · rename_i info payload
    exact kept e info payload
  · rfl

theorem aliases_released (e : Entity) : e.released.aliases = e.aliases := e.aliases_modifyModule _

theorem released_eq_self {e : Entity} (none : e.pending = []) : e.released = e := by
  refine modifyModule_eq_self fun info found => ?_
  rw [pending, found] at none
  cases info
  cases none
  rfl

theorem pending_eq_nil {e : Entity} (other : e.type ≠ .module) : e.pending = [] := by
  cases payload : e.payload <;> simp_all [pending, module?, type, Payload.type]

theorem pending_released (e : Entity) : e.released.pending = [] := by
  cases payload : e.payload <;> simp [released, modifyModule, pending, module?, payload]

theorem released_bindAlias (e : Entity) (name target : String) :
    (e.bindAlias name target).released = { e.released with aliases := e.aliases.insert name target } := by
  cases payload : e.payload <;> simp [released, modifyModule, bindAlias, payload]

end Entity

namespace Graph

variable {start g h k : Graph} {id module source : EntityId} {name : String} {waiting : PendingImport}
  {freed : EntityId → Prop}

section tally

variable {α : Type} {step : Graph → α → Graph × Nat} {items : List α} {p q : Graph → Prop}

theorem holds_of_tally (each : ∀ {k}, p k → ∀ item ∈ items, (step k item).2 = 0 → p (step k item).1)
    (holds : p g) (none : (tally step items g).2 = 0) : p (tally step items g).1 := by
  induction items generalizing g with
  | nil => exact holds
  | cons item rest ih =>
      rw [tally_cons, Nat.add_eq_zero_iff] at none
      rw [tally_cons]
      exact ih (fun holds other later => each holds other (List.mem_cons_of_mem _ later))
        (each holds item List.mem_cons_self none.1) none.2

theorem eq_of_tally (inert : ∀ item ∈ items, (step g item).2 = 0 → (step g item).1 = g)
    (counted : tally step items g = (h, 0)) : h = g := by
  have same : (tally step items g).1 = g := by
    refine holds_of_tally (p := (· = g)) (fun {k} same item among none => ?_) rfl (congrArg Prod.snd counted)
    rw [same] at none ⊢
    exact inert item among none
  rwa [counted] at same

/-- What the step for one item brings about stays, if the other steps preserve it. -/
theorem established_of_tally (each : ∀ {k}, q k → ∀ item ∈ items, (step k item).2 = 0 → q (step k item).1)
    (stable : ∀ {k}, q k → ∀ item ∈ items, (step k item).2 = 0 → p k → p (step k item).1) {item : α}
    (among : item ∈ items) (establishes : ∀ {k}, q k → (step k item).2 = 0 → p (step k item).1) (holds : q g)
    (none : (tally step items g).2 = 0) : p (tally step items g).1 := by
  induction items generalizing g with
  | nil => cases among
  | cons first rest ih =>
      rw [tally_cons, Nat.add_eq_zero_iff] at none
      rw [tally_cons]
      have next := each holds first List.mem_cons_self none.1
      rcases List.mem_cons.mp among with rfl | later
      · refine (holds_of_tally (p := fun k => q k ∧ p k) (fun both other later nothing => ?_)
          ⟨next, establishes holds none.1⟩ none.2).2
        have member := List.mem_cons_of_mem item later
        exact ⟨each both.1 other member nothing, stable both.1 other member nothing both.2⟩
      · exact ih (fun holds other member => each holds other (List.mem_cons_of_mem _ member))
          (fun holds other member => stable holds other (List.mem_cons_of_mem _ member)) later next none.2

end tally

/-- An import that waits in a module and can be made, since what it imports from is registered. -/
structure Due (g : Graph) (module : EntityId) (waiting : PendingImport) (source : EntityId) : Prop where
  waits : waiting ∈ (g.entity module).pending
  registered : g.lookupModule waiting.origin = some source

/-- What is reported of an import in some module that names an export in vain. -/
def importReport (g : Graph) (module : EntityId) (line : Nat) (message : String) : Diagnostic :=
  let home := (g.entity module).home.getD module
  { module := g.fullName ((g.entity home).home.getD home), entity := g.fullName home, topic := "import"
    line := lineAt (g.entity home).line line, message, threshold := 1 }

/-- What imports that were due at the start do without moving anything: they bind names that an import of
all names finds in its origin, and they report on exports. Some modules may be left with none to wait. -/
structure BindsAndReports (start : Graph) (freed : EntityId → Prop) (g h : Graph) : Prop where
  size : h.size = g.size
  index : h.index = g.index
  roots : h.roots = g.roots
  options : h.options = g.options
  entity : ∀ id, (h.entity id).released = { (g.entity id).released with aliases := (h.entity id).aliases }
  pending : ∀ id, (h.entity id).pending = (g.entity id).pending ∨ freed id ∧ (h.entity id).pending = []
  bound : ∀ id name, (h.entity id).aliases[name]? = (g.entity id).aliases[name]? ∨
    ((h.entity id).aliases[name]?).isSome ∧ ∃ module origin blocked line source,
      start.Due module (.star origin id blocked line) source ∧ name ∈ h.publicNames source ∧ name ∉ blocked
  verbosity : h.diagnostics.verbosity = g.diagnostics.verbosity
  reports : ∃ more, h.diagnostics.toList = g.diagnostics.toList ++ more ∧ ∀ report ∈ more,
    ∃ module waiting source message, start.Due module waiting source ∧ start.exportsOf module ≠ [] ∧
      report = start.importReport module waiting.line message

/-- A name that a module offers to all is still offered when only aliases have been added. -/
theorem mem_publicNames (exports : (h.entity id).module?.bind ModuleInfo.exports =
    (g.entity id).module?.bind ModuleInfo.exports) (contents : (h.entity id).contents = (g.entity id).contents)
    (grown : ∀ name : String, ((g.entity id).aliases[name]?).isSome → ((h.entity id).aliases[name]?).isSome)
    (offered : name ∈ g.publicNames id) : name ∈ h.publicNames id := by
  have keys (aliases : NameMap String) : name ∈ aliases.keys ↔ (aliases[name]?).isSome := by
    rw [Std.ExtTreeMap.mem_keys, Std.ExtTreeMap.mem_iff_isSome_getElem?]
  unfold publicNames at offered ⊢
  rw [exports]
  split at offered
  · exact offered
  · simp only [localNames, contents, List.mem_filter, List.mem_append, keys] at offered ⊢
    exact ⟨offered.1.imp_right fun both => ⟨grown name both.1, both.2⟩, offered.2⟩

namespace BindsAndReports

theorem read (binds : BindsAndReports start freed g h) {α : Sort*} (read : Entity → α)
    (plain : ∀ e aliases, read { e with aliases } = read e)
    (kept : ∀ e info, e.payload = .module info →
      read { e with payload := .module { info with pending := [] } } = read e) (id : EntityId) :
    read (h.entity id) = read (g.entity id) := by
  rw [← Entity.read_released kept (h.entity id), binds.entity id, plain, Entity.read_released kept]

theorem exports (binds : BindsAndReports start freed g h) (id : EntityId) :
    (h.entity id).module?.bind ModuleInfo.exports = (g.entity id).module?.bind ModuleInfo.exports :=
  binds.read (fun e => e.module?.bind ModuleInfo.exports) (fun _ _ => rfl)
    (fun _ _ payload => by simp [Entity.module?, payload]) id

theorem contents (binds : BindsAndReports start freed g h) (id : EntityId) :
    (h.entity id).contents = (g.entity id).contents :=
  binds.read Entity.contents (fun _ _ => rfl) (fun _ _ _ => rfl) id

theorem grown (binds : BindsAndReports start freed g h) (bound : ((g.entity id).aliases[name]?).isSome) :
    ((h.entity id).aliases[name]?).isSome := by
  rcases binds.bound id name with same | ⟨found, _⟩
  · rwa [same]
  · exact found

theorem publicNames (binds : BindsAndReports start freed g h) (offered : name ∈ g.publicNames id) :
    name ∈ h.publicNames id :=
  mem_publicNames (binds.exports id) (binds.contents id) (fun _ => binds.grown) offered

theorem lookupModule (binds : BindsAndReports start freed g h) (name : String) :
    h.lookupModule name = g.lookupModule name := by
  have type (id : EntityId) : (h.entity id).type = (g.entity id).type :=
    binds.read Entity.type (fun _ _ => rfl) (fun _ _ payload => by simp [Entity.type, Payload.type, payload]) id
  simp only [Graph.lookupModule, Graph.lookup, binds.index, type]

theorem importReport (binds : BindsAndReports start freed g h) (module : EntityId) (line : Nat) (message : String) :
    h.importReport module line message = g.importReport module line message := by
  have name := fullName_congr binds.size (binds.read Entity.name (fun _ _ => rfl) fun _ _ _ => rfl)
    (binds.read Entity.parent (fun _ _ => rfl) fun _ _ _ => rfl)
  have home := binds.read Entity.home (fun _ _ => rfl) fun _ _ _ => rfl
  have line := binds.read Entity.line (fun _ _ => rfl) fun _ _ _ => rfl
  simp only [Graph.importReport, name, home, line]

theorem refl (start : Graph) (freed : EntityId → Prop) (g : Graph) : BindsAndReports start freed g g := by
  refine ⟨rfl, rfl, rfl, rfl, fun id => ?_, fun _ => .inl rfl, fun _ _ => .inl rfl, rfl, [], by simp, by simp⟩
  rw [← Entity.aliases_released]

theorem trans (first : BindsAndReports start freed g h) (second : BindsAndReports start freed h k) :
    BindsAndReports start freed g k := by
  refine ⟨second.size.trans first.size, second.index.trans first.index, second.roots.trans first.roots,
    second.options.trans first.options, fun id => ?_, fun id => ?_, fun id name => ?_,
    second.verbosity.trans first.verbosity, ?_⟩
  · rw [second.entity, first.entity]
  · rcases second.pending id with same | released
    · rw [same]
      exact first.pending id
    · exact .inr released
  · rcases second.bound id name with same | brought
    · rcases first.bound id name with before | ⟨found, module, origin, blocked, line, source, due, offered, free⟩
      · exact .inl (same.trans before)
      · exact .inr ⟨by rwa [same], module, origin, blocked, line, source, due, second.publicNames offered, free⟩
    · exact .inr brought
  · obtain ⟨more, listed, told⟩ := first.reports
    obtain ⟨further, relisted, retold⟩ := second.reports
    exact ⟨more ++ further, by rw [relisted, listed, List.append_assoc], List.forall_mem_append.mpr ⟨told, retold⟩⟩

theorem mono {more : EntityId → Prop} (binds : BindsAndReports start freed g h) (wider : ∀ id, freed id → more id) :
    BindsAndReports start more g h :=
  { binds with pending := fun id => (binds.pending id).imp_right fun both => ⟨wider id both.1, both.2⟩ }

theorem widen (binds : BindsAndReports start (fun _ => False) g h) : BindsAndReports start freed g h :=
  binds.mono fun _ none => none.elim

end BindsAndReports

theorem bindsAndReports_report (due : start.Due module waiting source) (exported : start.exportsOf module ≠ [])
    (earlier : BindsAndReports start freed start g) (message : String) :
    BindsAndReports start (fun _ => False) g
      (g.report ((g.entity module).home.getD module) message "import" waiting.line 1) := by
  refine ⟨rfl, rfl, rfl, rfl, (BindsAndReports.refl start (fun _ => False) g).entity, fun _ => .inl rfl,
    fun _ _ => .inl rfl, rfl, [g.importReport module waiting.line message], ?_, ?_⟩
  · simp [report, Graph.importReport]
  · rw [List.forall_mem_singleton, earlier.importReport]
    exact ⟨module, waiting, source, message, due, exported, rfl⟩

theorem bindsAndReports_bindAlias {origin target : String} {blocked : List String} {line : Nat}
    (due : start.Due module (.star origin id blocked line) source) (offered : name ∈ g.publicNames source)
    (free : name ∉ blocked) :
    BindsAndReports start (fun _ => False) g (g.modify id (Entity.bindAlias name target)) := by
  have aliases (other : EntityId) (key : String) :
      ((g.modify id (Entity.bindAlias name target)).entity other).aliases[key]? =
        if (id = other ∧ g.Has other) ∧ name = key then some target else (g.entity other).aliases[key]? := by
    rw [entity_modify]
    by_cases here : id = other ∧ g.Has other
    · rw [if_pos here, Entity.bindAlias, NameMap.get_insert]
      simp [here]
    · simp [here]
  have still : name ∈ (g.modify id (Entity.bindAlias name target)).publicNames source := by
    refine mem_publicNames (read_modify g id _ (fun e => e.module?.bind ModuleInfo.exports) ?_ source)
      (read_modify g id _ Entity.contents ?_ source) (fun key bound => ?_) offered
    · exact fun _ => rfl
    · exact fun _ => rfl
    rw [aliases]
    split
    · rfl
    · exact bound
  refine ⟨by simp, rfl, rfl, rfl, fun other => ?_, fun other => .inl ?_, fun other key => ?_, rfl, [], by simp, by simp⟩
  · rw [entity_modify]
    split
    · exact Entity.released_bindAlias _ name target
    · exact (BindsAndReports.refl start (fun _ => False) g).entity other
  · exact read_modify g id (Entity.bindAlias name target) Entity.pending (fun _ => rfl) other
  · rw [aliases]
    split
    · rename_i here
      obtain ⟨⟨rfl, _⟩, rfl⟩ := here
      exact .inr ⟨rfl, module, origin, blocked, line, source, due, still, free⟩
    · exact .inl rfl

theorem bindsAndReports_release (start g : Graph) (module : EntityId) :
    BindsAndReports start (· = module) g (g.modify module Entity.released) := by
  have aliases (other : EntityId) :
      ((g.modify module Entity.released).entity other).aliases = (g.entity other).aliases :=
    read_modify g module _ Entity.aliases Entity.aliases_released other
  refine ⟨by simp, rfl, rfl, rfl, fun other => ?_, fun other => ?_, fun other key => .inl ?_, rfl, [], by simp, by simp⟩
  · rw [aliases, entity_modify, ← Entity.aliases_released]
    split
    · rw [Entity.released_eq_self (Entity.pending_released _)]
    · rfl
  · rw [entity_modify]
    split
    · rename_i here
      exact .inr ⟨here.1.symm, Entity.pending_released _⟩
    · exact .inl rfl
  · rw [aliases]

/-- A re-export that moves nothing leaves the graph as it is, or reports on an exported name. -/
theorem reexport_unmoved {scope origin : EntityId} {exports : List String} {asName : String} {line : Nat}
    (unmoved : (g.reexport scope exports origin name asName line).2 = false) :
    (g.reexport scope exports origin name asName line).1 = g ∨ asName ∈ exports ∧ ∃ message,
      (g.reexport scope exports origin name asName line).1 =
        g.report ((g.entity scope).home.getD scope) message "import" line 1 := by
  unfold reexport at unmoved ⊢
  dsimp only at unmoved ⊢
  split
  · rename_i exported
    rw [if_pos exported] at unmoved
    split
    · exact .inr ⟨exported, _, rfl⟩
    · rename_i found offered
      simp only [offered] at unmoved
      split
      · exact .inl rfl
      · rename_i free
        rw [if_neg free] at unmoved
        split
        · rename_i moved
          simp only [moved] at unmoved
          cases unmoved
        · exact .inr ⟨exported, _, rfl⟩
  · exact .inl rfl

theorem importStar_eq_tally (g : Graph) (scope origin : EntityId) (exports blocked : List String) (line : Nat) :
    g.importStar scope origin exports blocked line =
      tally (fun k name => importStarName scope origin exports line (k, 0) name)
        ((g.publicNames origin).filter fun name => !blocked.contains name) g := by
  unfold importStar tally
  congr 1
  funext state name
  unfold importStarName
  dsimp only
  split <;> simp

/-- A name whose entity is not moved is bound to an alias. -/
theorem importStarName_unmoved {scope origin : EntityId} {exports : List String} {line : Nat}
    (none : (importStarName scope origin exports line (g, 0) name).2 = 0) :
    ∃ behind, (importStarName scope origin exports line (g, 0) name).1 =
        behind.modify scope (Entity.bindAlias name (behind.expand origin name)) ∧
      (behind = g ∨ name ∈ exports ∧ ∃ message,
        behind = g.report ((g.entity scope).home.getD scope) message "import" line 1) := by
  unfold importStarName at none ⊢
  dsimp only at none ⊢
  split
  · rename_i equal
    simp only [equal] at none
    cases none
  · rename_i behind equal
    have outcome := reexport_unmoved (congrArg Prod.snd equal)
    rw [equal] at outcome
    exact ⟨behind, rfl, outcome⟩

theorem exported_star {exports : List String} (same : exports = start.exportsOf module) :
    ∀ name ∈ if id = module then exports else [], id = module ∧ start.exportsOf module ≠ [] := by
  intro name among
  split at among
  · rename_i here
    exact ⟨here, List.ne_nil_of_mem (same ▸ among)⟩
  · cases among

section star

variable {origin : String} {blocked exports : List String} {line : Nat}
  (due : start.Due module (.star origin id blocked line) source)
  (exported : ∀ name ∈ exports, id = module ∧ start.exportsOf module ≠ [])

include due exported

theorem bindsAndReports_importStarName (earlier : BindsAndReports start freed start g)
    (offered : name ∈ g.publicNames source)
    (free : name ∉ blocked) (none : (importStarName id source exports line (g, 0) name).2 = 0) :
    BindsAndReports start (fun _ => False) g (importStarName id source exports line (g, 0) name).1 := by
  obtain ⟨behind, bound, same | ⟨among, message, reported⟩⟩ := importStarName_unmoved none
  · rw [bound, same]
    exact bindsAndReports_bindAlias due offered free
  · rw [bound, reported]
    obtain ⟨rfl, listed⟩ := exported name among
    exact (bindsAndReports_report due listed earlier message).trans (bindsAndReports_bindAlias due offered free)

theorem bindsAndReports_importStar_step (earlier : BindsAndReports start freed start g)
    (binds : BindsAndReports start (fun _ => False) g k)
    (among : name ∈ (g.publicNames source).filter fun name => !blocked.contains name)
    (none : (importStarName id source exports line (k, 0) name).2 = 0) :
    BindsAndReports start (fun _ => False) k (importStarName id source exports line (k, 0) name).1 := by
  obtain ⟨offered, free⟩ := List.mem_filter.mp among
  have since : BindsAndReports start freed start k := earlier.trans binds.widen
  exact bindsAndReports_importStarName due exported since (binds.publicNames offered) (by simpa using free) none

theorem bindsAndReports_importStar (earlier : BindsAndReports start freed start g)
    (none : (g.importStar id source exports blocked line).2 = 0) :
    BindsAndReports start (fun _ => False) g (g.importStar id source exports blocked line).1 := by
  rw [importStar_eq_tally] at none ⊢
  exact holds_of_tally (p := BindsAndReports start (fun _ => False) g) (fun binds name among nothing =>
    binds.trans (bindsAndReports_importStar_step due exported earlier binds among nothing)) (.refl _ _ g) none

/-- All names that are offered and not blocked are bound. -/
theorem bound_importStar (earlier : BindsAndReports start freed start g) (inside : g.Has id)
    (offered : name ∈ g.publicNames source) (free : name ∉ blocked)
    (none : (g.importStar id source exports blocked line).2 = 0) :
    (((g.importStar id source exports blocked line).1.entity id).aliases[name]?).isSome := by
  rw [importStar_eq_tally] at none ⊢
  refine established_of_tally (q := BindsAndReports start (fun _ => False) g)
    (p := fun k => ((k.entity id).aliases[name]?).isSome)
    (fun binds other among nothing =>
      binds.trans (bindsAndReports_importStar_step due exported earlier binds among nothing))
    (fun binds other among nothing => (bindsAndReports_importStar_step due exported earlier binds among nothing).grown)
    (List.mem_filter.mpr ⟨offered, by simpa using free⟩) (fun {k} binds nothing => ?_) (.refl _ _ g) none
  obtain ⟨behind, bound, outcome⟩ := importStarName_unmoved nothing
  have size : behind.size = g.size := by
    rcases outcome with rfl | ⟨_, _, rfl⟩
    · exact binds.size
    · exact binds.size
  have here : behind.Has id := by
    rw [Has, size]
    exact inside
  rw [bound, behind.entity_modify_self id _ here, Entity.bindAlias, NameMap.get_insert, if_pos rfl]
  rfl

end star

section resume

variable {exports : List String} (earlier : BindsAndReports start freed start g)
    (same : exports = start.exportsOf module)

include earlier same

theorem bindsAndReports_resumeImport (waits : waiting ∈ (start.entity module).pending)
    (none : (resumeImport module exports g waiting).2 = 0) :
    BindsAndReports start (fun _ => False) g (resumeImport module exports g waiting).1 := by
  have due {source : EntityId} (found : g.lookupModule waiting.origin = some source) :
      start.Due module waiting source := ⟨waits, by rwa [← earlier.lookupModule]⟩
  cases waiting with
  | reexport origin name asName line =>
      cases found : g.lookupModule origin with
      | none =>
          simp only [resumeImport, found]
          exact .refl _ _ g
      | some source =>
          simp only [resumeImport, found] at none ⊢
          cases result : g.reexport module exports source name asName line with
          | mk behind moved =>
              cases moved with
              | true =>
                  rw [result] at none
                  cases none
              | false =>
                  have outcome := reexport_unmoved (congrArg Prod.snd result)
                  rw [result] at outcome
                  rcases outcome with kept | ⟨among, message, reported⟩
                  · cases kept
                    exact .refl _ _ behind
                  · cases reported
                    have exported : start.exportsOf module ≠ [] := List.ne_nil_of_mem (same ▸ among)
                    exact bindsAndReports_report (due found) exported earlier message
  | star origin into blocked line =>
      cases found : g.lookupModule origin with
      | none =>
          simp only [resumeImport, found]
          exact .refl _ _ g
      | some source =>
          simp only [resumeImport, found] at none ⊢
          exact bindsAndReports_importStar (due found) (exported_star same) earlier none

/-- An import of all names that is due binds what its origin offers. -/
theorem bound_resumeImport {origin : String} {blocked : List String} {line : Nat}
    (due : start.Due module (.star origin id blocked line) source) (inside : g.Has id)
    (offered : name ∈ g.publicNames source) (free : name ∉ blocked)
    (none : (resumeImport module exports g (.star origin id blocked line)).2 = 0) :
    (((resumeImport module exports g (.star origin id blocked line)).1.entity id).aliases[name]?).isSome := by
  have found : g.lookupModule origin = some source := (earlier.lookupModule origin).trans due.registered
  simp only [resumeImport, found] at none ⊢
  exact bound_importStar due (exported_star same) earlier inside offered free none

end resume

section turn

variable (earlier : BindsAndReports start (fun _ => True) start g) (none : (g.resumeImports module).2 = 0)

include earlier

theorem mem_pending_start (waits : waiting ∈ (g.entity module).pending) :
    waiting ∈ (start.entity module).pending := by
  rcases earlier.pending module with same | ⟨_, empty⟩
  · rwa [← same]
  · rw [empty] at waits
    cases waits

theorem stirred_release : BindsAndReports start (fun _ => True) start (g.modify module Entity.released) :=
  earlier.trans ((bindsAndReports_release start g module).mono fun _ _ => trivial)

theorem exportsOf_release : (g.modify module Entity.released).exportsOf module = start.exportsOf module := by
  rw [exportsOf, (stirred_release earlier).exports, exportsOf]

/-- The imports of a module are made one after the other, behind its release. -/
theorem bindsAndReports_resume_step (since : BindsAndReports start (fun _ => False) (g.modify module Entity.released) k)
    (waits : waiting ∈ (g.entity module).pending)
    (nothing : (resumeImport module ((g.modify module Entity.released).exportsOf module) k waiting).2 = 0) :
    BindsAndReports start (fun _ => False) k
      (resumeImport module ((g.modify module Entity.released).exportsOf module) k waiting).1 :=
  bindsAndReports_resumeImport ((stirred_release earlier).trans since.widen)
    (exportsOf_release earlier) (mem_pending_start earlier waits) nothing

include none

theorem bindsAndReports_resumeImports : BindsAndReports start (· = module) g (g.resumeImports module).1 := by
  refine (bindsAndReports_release start g module).trans (BindsAndReports.widen ?_)
  exact holds_of_tally (p := BindsAndReports start (fun _ => False) (g.modify module Entity.released))
    (fun since waiting waits nothing => since.trans (bindsAndReports_resume_step earlier since waits nothing))
    (.refl _ _ _) none

theorem bound_resumeImports {origin : String} {blocked : List String} {line : Nat}
    (due : start.Due module (.star origin id blocked line) source)
    (waits : .star origin id blocked line ∈ (g.entity module).pending) (inside : g.Has id)
    (offered : name ∈ g.publicNames source) (free : name ∉ blocked) :
    (((g.resumeImports module).1.entity id).aliases[name]?).isSome := by
  refine established_of_tally (q := BindsAndReports start (fun _ => False) (g.modify module Entity.released))
    (p := fun k => ((k.entity id).aliases[name]?).isSome)
    (fun since waiting waits nothing => since.trans (bindsAndReports_resume_step earlier since waits nothing))
    (fun since waiting waits nothing => (bindsAndReports_resume_step earlier since waits nothing).grown) waits
    (fun {k} since nothing => ?_) (.refl _ _ _) none
  have here : k.Has id := by
    rw [Has, since.size, size_modify]
    exact inside
  exact bound_resumeImport ((stirred_release earlier).trans since.widen)
    (exportsOf_release earlier) due here
    (since.publicNames ((bindsAndReports_release start g module).publicNames offered)) free
    nothing

end turn

theorem linkSubclass_eq_self {base : EntityId} (none : (linkSubclass id g base).2 = 0) :
    (linkSubclass id g base).1 = g := by
  unfold linkSubclass at none ⊢
  split
  · rfl
  · rename_i info found
    simp only [found] at none
    split
    · rfl
    · rename_i unlisted
      rw [if_neg unlisted] at none
      cases none

theorem linkSubclasses_eq_self (none : (g.linkSubclasses id).2 = 0) : (g.linkSubclasses id).1 = g :=
  eq_of_tally (fun _ _ => linkSubclass_eq_self) (Prod.ext rfl none)

theorem refreshMro_eq_self (isClass : (g.entity id).type = .class) (none : (refreshMro false g id).2 = 0) :
    (refreshMro false g id).1 = g := by
  unfold refreshMro at none ⊢
  split
  · rename_i sought
    rw [if_pos sought] at none
    have unstored : g.mroOf? id = Option.none := by simpa using sought
    simp [updateMro, (g.entity id).class?_isSome.mpr isClass, unstored] at none
  · rfl

theorem tagException_eq_self (none : (g.tagException id).2 = 0) : (g.tagException id).1 = g := by
  unfold tagException at none ⊢
  split
  · rename_i descends
    rw [if_pos descends] at none
    cases none
  · rfl

namespace Stages

variable {resumed upgraded linked ordered : Graph} {s : Summary}
  (stages : Stages g resumed upgraded linked ordered h s) (noop : s.isNoop = true)

include stages

theorem pending_eq_nil (id : EntityId) : (h.entity id).pending = [] := by
  by_cases isModule : (h.entity id).type = .module
  · exact stages.pending isModule
  · exact Entity.pending_eq_nil isModule

include noop

theorem eq_resumed : h = (tally resumeImports (g.idsOfType .module) g).1 := by
  rw [stages.resume]
  obtain rfl := eq_of_beq noop
  obtain rfl := eq_of_tally
    (fun id _ none => upgradeBases_eq_self none) stages.upgrade
  obtain rfl := eq_of_tally (fun _ _ => linkSubclasses_eq_self) stages.link
  obtain rfl := eq_of_tally (fun _ member => refreshMro_eq_self ((mem_idsOfType _).mp member).2) stages.order
  exact eq_of_tally (fun _ _ => tagException_eq_self) stages.tag

theorem count_resume : (tally resumeImports (g.idsOfType .module) g).2 = 0 := by
  rw [stages.resume, eq_of_beq noop]

theorem bindsAndReports : BindsAndReports g (fun _ => True) g h := by
  rw [stages.eq_resumed noop]
  refine holds_of_tally (p := BindsAndReports g (fun _ => True) g) (fun earlier module _ nothing => ?_) (.refl _ _ g)
    (stages.count_resume noop)
  exact earlier.trans ((bindsAndReports_resumeImports earlier nothing).mono fun _ _ => trivial)

/-- An import of all names that is due has bound them all. It waits until its module has its turn, and what
is bound then stays bound. -/
theorem bound_star {origin : String} {blocked : List String} {line : Nat}
    (due : g.Due module (.star origin id blocked line) source) (inside : g.Has id)
    (offered : name ∈ g.publicNames source) (free : name ∉ blocked) :
    ((h.entity id).aliases[name]?).isSome := by
  have outcome : BindsAndReports g (fun _ => True) g h ∧ (.star origin id blocked line ∈ (h.entity module).pending ∨
      ((h.entity id).aliases[name]?).isSome) := by
    rw [stages.eq_resumed noop]
    refine holds_of_tally (p := fun k => BindsAndReports g (fun _ => True) g k ∧
        (.star origin id blocked line ∈ (k.entity module).pending ∨ ((k.entity id).aliases[name]?).isSome))
      (fun {k} both other _ nothing => ?_) ⟨.refl _ _ g, .inl due.waits⟩ (stages.count_resume noop)
    obtain ⟨earlier, waits | bound⟩ := both
    all_goals
      have step := bindsAndReports_resumeImports earlier nothing
      refine ⟨earlier.trans (step.mono fun _ _ => trivial), ?_⟩
    · rcases step.pending module with same | ⟨rfl, _⟩
      · exact .inl (same ▸ waits)
      · have here : k.Has id := by
          rw [Has, earlier.size]
          exact inside
        exact .inr (bound_resumeImports earlier nothing due waits here (earlier.publicNames offered) free)
    · exact .inr (step.grown bound)
  rcases outcome.2 with waits | bound
  · rw [stages.pending_eq_nil] at waits
    cases waits
  · exact bound

theorem entity_eq (id : EntityId) :
    h.entity id = { (g.entity id).released with aliases := (h.entity id).aliases } := by
  rw [← (stages.bindsAndReports noop).entity id, Entity.released_eq_self (stages.pending_eq_nil id)]

end Stages

/-- What finishing a graph has done if it counts nothing. No entity has changed but in its aliases, and
nothing is left to wait. An alias has changed only where an import of all names was due that may bind it, and
each such import has bound all its names; a report is new only where an import was due in a module with
exports. So a graph in which no import waits is the same graph behind it. -/
theorem finish_unnoticed {s : Summary} (finished : g.finish = .ok (h, s)) (noop : s.isNoop = true) :
    BindsAndReports g (fun _ => True) g h ∧
      (∀ id, h.entity id = { (g.entity id).released with aliases := (h.entity id).aliases }) ∧
      (∀ module origin id blocked line source, g.Due module (.star origin id blocked line) source → g.Has id →
        ∀ name ∈ g.publicNames source, name ∉ blocked → ((h.entity id).aliases[name]?).isSome) ∧
      ((∀ module origin id blocked line source, ¬ g.Due module (.star origin id blocked line) source) →
        ∀ id, h.entity id = (g.entity id).released) ∧
      ((∀ module waiting source, g.Due module waiting source → g.exportsOf module = []) →
        h.diagnostics = g.diagnostics) ∧
      ((∀ module, (g.entity module).pending = []) → h = g) := by
  obtain ⟨resumed, _, _, _, stages⟩ := finish_stages finished
  have binds := stages.bindsAndReports noop
  refine ⟨binds, stages.entity_eq noop, fun module origin id blocked line source due inside name offered free =>
    stages.bound_star noop due inside offered free, fun none id => ?_, fun silent => ?_, fun idle => ?_⟩
  · have aliases : (h.entity id).aliases = (g.entity id).aliases := by
      refine Std.ExtTreeMap.ext_getElem? fun name => ?_
      rcases binds.bound id name with same | ⟨_, module, origin, blocked, line, source, due, _⟩
      · exact same
      · exact absurd due (none _ _ _ _ _ _)
    rw [stages.entity_eq noop id, aliases, ← Entity.aliases_released]
  · obtain ⟨more, listed, told⟩ := binds.reports
    have empty : more = [] := by
      refine List.eq_nil_iff_forall_not_mem.mpr fun report among => ?_
      obtain ⟨module, waiting, source, message, due, exported, _⟩ := told report among
      exact exported (silent _ _ _ due)
    rw [empty, List.append_nil] at listed
    exact Diagnostics.eq_of_toList binds.verbosity listed
  · have same : tally resumeImports (g.idsOfType .module) g = (g, 0) :=
      tally_fixed fun module _ => resumeImports_eq_self (idle module)
    rw [stages.eq_resumed noop, same]

/-- The first module imports from the second, which is built later. -/
def importsBefore (body : List Stmt) : List Call :=
  [.addModule "m" false, .addModule "a" false, .build Hook.standard ⟨0⟩ (.ok { body }),
    .build Hook.standard ⟨1⟩ (.ok { body := [.function { name := "f", line := 1 } [.pass 2]] })]

/-- All names are imported, and a name that is not there is to be exported. -/
def importsInVain : List Stmt :=
  [.assign [.name "__all__"] (.list [.str "g"]) none 1, .importFrom (some "a") [⟨"*", none⟩] 0 2,
    .importFrom (some "a") [⟨"g", none⟩] 0 3]

theorem finish_unnoticed_importsInVain :
    ∃ g h s, g = run (empty {}) (importsBefore importsInVain) ∧ g.finish = .ok (h, s) ∧ s.isNoop = true ∧
      BindsAndReports g (fun _ => True) g h ∧ g.Due ⟨0⟩ (.star "a" ⟨0⟩ [] 2) ⟨1⟩ ∧
      ((g.entity ⟨0⟩).aliases["f"]?).isSome = false ∧ ((h.entity ⟨0⟩).aliases["f"]?).isSome ∧
      h.diagnostics.toList = g.diagnostics.toList ++
        [g.importReport ⟨0⟩ 3 "cannot resolve re-exported name :a.g"] := by
  have answer : ((run (empty {}) (importsBefore importsInVain)).finish.map fun result =>
      (result.2.isNoop, result.1.diagnostics.toList)).toOption = some (true,
        (run (empty {}) (importsBefore importsInVain)).diagnostics.toList ++
          [(run (empty {}) (importsBefore importsInVain)).importReport ⟨0⟩ 3
            "cannot resolve re-exported name :a.g"]) := by decide +kernel
  have due : (run (empty {}) (importsBefore importsInVain)).Due ⟨0⟩ (.star "a" ⟨0⟩ [] 2) ⟨1⟩ :=
    ⟨by decide +kernel, by decide +kernel⟩
  cases finished : (run (empty {}) (importsBefore importsInVain)).finish with
  | error refusal =>
      rw [finished] at answer
      cases answer
  | ok result =>
      rw [finished] at answer
      obtain ⟨noop, listed⟩ := Prod.mk.inj (Option.some.inj answer)
      obtain ⟨binds, _, each, _⟩ := finish_unnoticed finished noop
      have bound := each _ _ _ _ _ _ due (by decide +kernel) "f" (by decide +kernel) List.not_mem_nil
      exact ⟨_, result.1, result.2, rfl, finished, noop, binds, due, by decide +kernel, bound, listed⟩

/-- An import of all names binds a name, and nothing is counted. -/
theorem finish_starBefore_uncounted :
    ((run (empty {}) (importsBefore [.importFrom (some "a") [⟨"*", none⟩] 0 1])).finish.map fun result =>
        (result.2.isNoop, (result.1.entity ⟨0⟩).aliases["f"]?)).toOption = some (true, some "a.f") ∧
      ((run (empty {}) (importsBefore [.importFrom (some "a") [⟨"*", none⟩] 0 1])).entity
        ⟨0⟩).aliases["f"]? = none := by
  decide +kernel

end Graph

end DocGraph
