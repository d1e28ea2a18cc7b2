import DocGraph.Build
import DocGraph.Proofs.Run.LockStep

namespace DocGraph

/-- The kinds that entities of a type may have. -/
def EntityType.kinds (isPackage : Bool) : EntityType → List EntityKind
  | .module => [if isPackage then .package else .module]
  | .class => [.class, .exception]
  | .function => [.function, .method, .classMethod, .staticMethod]
  | .attribute =>
      [.property, .variable, .classVariable, .instanceVariable, .constant, .typeAlias, .typeVariable]

namespace Entity

variable {e f : Entity}

def isPackage (e : Entity) : Bool := (e.module?.map ModuleInfo.isPackage).getD false

/-- The entity has a kind, and one that its type may have. -/
def Suited (e : Entity) : Prop := ∃ kind ∈ e.type.kinds e.isPackage, e.kind = some kind

instance (e : Entity) : Decidable e.Suited := inferInstanceAs (Decidable (∃ kind ∈ _, _))

theorem Suited.congr (suited : e.Suited) (kind : f.kind = e.kind) (type : f.type = e.type)
    (isPackage : f.isPackage = e.isPackage) : f.Suited := by
  rw [Suited, kind, type, isPackage]
  exact suited

theorem Suited.of_annotated (suited : e.Suited) (annotated : e.Annotated f) (kind : f.kind = e.kind) :
    f.Suited := by
  refine suited.congr kind annotated.type ?_
  rw [Entity.isPackage, annotated.module?]
  rfl

theorem suited_of_attribute (kind : EntityKind) (type : e.type = .attribute) (stored : e.kind = some kind)
    (among : kind ∈ EntityType.attribute.kinds false) : e.Suited :=
  ⟨kind, by rw [type]; exact among, stored⟩

theorem suited_of_function (kind : EntityKind) (type : e.type = .function) (stored : e.kind = some kind)
    (among : kind ∈ EntityType.function.kinds false) : e.Suited :=
  ⟨kind, by rw [type]; exact among, stored⟩

@[simp] theorem kind_modifyAttribute (e : Entity) (f : AttributeInfo → AttributeInfo) :
    (e.modifyAttribute f).kind = e.kind := by
  unfold modifyAttribute
  split <;> rfl

@[simp] theorem kind_modifyFunction (e : Entity) (f : FunctionInfo → FunctionInfo) :
    (e.modifyFunction f).kind = e.kind := by
  unfold modifyFunction
  split <;> rfl

@[simp] theorem kind_modifyModule (e : Entity) (f : ModuleInfo → ModuleInfo) :
    (e.modifyModule f).kind = e.kind := by
  rw [modifyModule_eq]

@[simp] theorem class?_modifyModule (e : Entity) (f : ModuleInfo → ModuleInfo) :
    (e.modifyModule f).class? = e.class? := by
  cases payload : e.payload <;> simp [modifyModule, class?, payload]

theorem isPackage_modifyModule (e : Entity) {f : ModuleInfo → ModuleInfo}
    (kept : ∀ info, (f info).isPackage = info.isPackage) : (e.modifyModule f).isPackage = e.isPackage := by
  simp [isPackage, module?_modifyModule, Function.comp_def, kept]

@[simp] theorem type_setKind (e : Entity) (kind : EntityKind) : (e.setKind kind).type = e.type := rfl

@[simp] theorem kind_setLine (e : Entity) (line : Nat) : (e.setLine line).kind = e.kind := by
  unfold setLine
  split <;> rfl

/-- The entities define the same function, and the second is marked as an exception only if the first is. -/
structure Kept (e f : Entity) : Prop where
  function? : f.function? = e.function?
  kind : f.kind = some .exception → e.kind = some .exception

namespace Kept

theorem refl (e : Entity) : e.Kept e := ⟨rfl, fun marked => marked⟩

theorem trans (first : e.Kept f) (second : f.Kept k) : e.Kept k :=
  ⟨second.function?.trans first.function?, fun marked => first.kind (second.kind marked)⟩

end Kept

section steps

variable (e : Entity)

theorem kept_setKind {kind : EntityKind} (other : kind ≠ .exception) : e.Kept (e.setKind kind) :=
  ⟨rfl, fun marked => absurd (Option.some.inj marked) other⟩

theorem kept_setLine (line : Nat) : e.Kept (e.setLine line) := by
  unfold setLine
  split <;> exact ⟨rfl, fun marked => marked⟩

theorem kept_setDocstring (docstring : Option Docstring) : e.Kept { e with docstring } :=
  ⟨rfl, fun marked => marked⟩

theorem kept_modifyAttribute (info : AttributeInfo → AttributeInfo) : e.Kept (e.modifyAttribute info) := by
  unfold modifyAttribute
  split
  · rename_i payload
    exact ⟨by simp [Entity.function?, payload], fun marked => marked⟩
  · exact .refl e

end steps

end Entity

/-- What is reported while modules are built: anything but what method resolution orders give rise to. -/
def Diagnostic.OfBuild (d : Diagnostic) : Prop := d.topic ≠ "mro"

namespace Graph

theorem reportsOnly_build (g : Graph) (id : EntityId) (message : String) {topic : String} (offset threshold : Int)
    (other : topic ≠ "mro") : ReportsOnly Diagnostic.OfBuild g (g.report id message topic offset threshold) :=
  .report g id offset threshold fun d _ same => by rwa [Diagnostic.OfBuild, same]

/-- Every order that is stored begins with its class. -/
def Headed (g : Graph) : Prop := ∀ id order, g.mroOf? id = some order → order.head? = some id

/-- The graphs differ at most in what is told about some entities, and no entity is told to be of a kind
that does not suit it. -/
structure Labelled (about : EntityId → Prop) (g h : Graph) : Prop extends Annotated g h where
  elsewhere : ∀ {id}, ¬ about id → h.entity id = g.entity id
  kind : g.Headed → ∀ id, (h.entity id).kind = (g.entity id).kind ∨ (h.entity id).Suited

/-- So do they when a module is built: nothing becomes an exception, and what is reported on the way is not about
method resolution orders. -/
structure Retold (about : EntityId → Prop) (g h : Graph) : Prop extends Labelled about g h where
  unmarked : ∀ {id}, (h.entity id).kind = some .exception → (g.entity id).kind = some .exception
  reports : ReportsOnly Diagnostic.OfBuild g h

/-- No function is defined again, either. -/
structure Told (about : EntityId → Prop) (g h : Graph) : Prop extends Retold about g h where
  function? : ∀ id, (h.entity id).function? = (g.entity id).function?

theorem Headed.congr {g h : Graph} (headed : g.Headed)
    (same : ∀ id, (h.entity id).class? = (g.entity id).class?) : h.Headed := by
  intro id order stored
  rw [mroOf?, same] at stored
  exact headed id order stored

variable {about near : EntityId → Prop} {g h k : Graph}

namespace Labelled

theorem described (labelled : Labelled about g h) : Described g h := Entrywise.imp (·.toDescribed) labelled.toEntrywise

theorem class? (labelled : Labelled about g h) (id : EntityId) : (h.entity id).class? = (g.entity id).class? :=
  (labelled.entity id).class?

theorem headed_iff (labelled : Labelled about g h) : h.Headed ↔ g.Headed :=
  ⟨fun headed => headed.congr fun id => (labelled.class? id).symm, fun headed => headed.congr labelled.class?⟩

theorem suited (labelled : Labelled about g h) (headed : g.Headed) {id : EntityId} (suited : (g.entity id).Suited) :
    (h.entity id).Suited := by
  rcases labelled.kind headed id with same | suits
  · exact suited.of_annotated (labelled.entity id) same
  · exact suits

end Labelled

theorem labelled_report (g : Graph) (id : EntityId) (message topic : String) (offset threshold : Int) :
    Labelled about g (g.report id message topic offset threshold) :=
  ⟨⟨rfl, rfl, rfl, rfl, fun _ => .refl _⟩, fun _ => rfl, fun _ _ => .inl rfl⟩

namespace Retold

theorem trans (first : Retold about g h) (second : Retold about h k) : Retold about g k := by
  refine ⟨⟨Entrywise.trans .trans first.toEntrywise second.toEntrywise,
    fun far => (second.elsewhere far).trans (first.elsewhere far), fun headed id => ?_⟩,
    fun marked => first.unmarked (second.unmarked marked), first.reports.trans second.reports⟩
  rcases second.kind (first.headed_iff.mpr headed) id with same | suited
  · rcases first.kind headed id with before | suited
    · exact .inl (same.trans before)
    · exact .inr (suited.of_annotated (second.entity id) same)
  · exact .inr suited

theorem mono (told : Retold about g h) (wider : ∀ {id}, about id → near id) : Retold near g h :=
  ⟨⟨told.toEntrywise, fun far => told.elsewhere fun within => far (wider within), told.kind⟩, told.unmarked,
    told.reports⟩

theorem modify (g : Graph) (id : EntityId) {f : Entity → Entity} (kept : ∀ e : Entity, e.Annotated (f e))
    (kind : g.Headed → (f (g.entity id)).kind = (g.entity id).kind ∨ (f (g.entity id)).Suited)
    (unmarked : ∀ e : Entity, (f e).kind = some .exception → e.kind = some .exception) :
    Retold (· = id) g (g.modify id f) := by
  refine ⟨⟨Entrywise.modify g id .refl kept, fun apart => entity_modify_of_ne _ _ _ (Ne.symm apart),
    fun headed other => ?_⟩, fun {other} marked => ?_, .of_eq rfl⟩
  · rw [entity_modify]
    split
    · rename_i here
      rw [← here.1]
      exact kind headed
    · exact .inl rfl
  · rw [entity_modify] at marked
    split at marked
    · exact unmarked _ marked
    · exact marked

end Retold

namespace Told

theorem refl (g : Graph) : Told about g g :=
  ⟨⟨⟨Entrywise.refl .refl g, fun _ => rfl, fun _ _ => .inl rfl⟩, fun marked => marked, .refl g⟩, fun _ => rfl⟩

theorem trans (first : Told about g h) (second : Told about h k) : Told about g k :=
  ⟨first.toRetold.trans second.toRetold, fun id => (second.function? id).trans (first.function? id)⟩

theorem mono (told : Told about g h) (wider : ∀ {id}, about id → near id) : Told near g h :=
  ⟨told.toRetold.mono wider, told.function?⟩

theorem foldl {α : Type*} {step : Graph → α → Graph} {items : List α}
    (each : ∀ k, ∀ item ∈ items, Told about k (step k item)) (g : Graph) :
    Told about g (items.foldl step g) :=
  List.foldlRecOn items step (.refl g) fun k told item among => told.trans (each k item among)

end Told

variable (g : Graph) (id : EntityId)

theorem told_report (message : String) {topic : String} (offset threshold : Int) (other : topic ≠ "mro") :
    Told about g (g.report id message topic offset threshold) :=
  ⟨⟨labelled_report g id message topic offset threshold, fun marked => marked,
    reportsOnly_build g id message offset threshold other⟩, fun _ => rfl⟩

theorem told_modify {f : Entity → Entity} (annotated : ∀ e : Entity, e.Annotated (f e))
    (kind : g.Headed → (f (g.entity id)).kind = (g.entity id).kind ∨ (f (g.entity id)).Suited)
    (kept : ∀ e : Entity, e.Kept (f e)) : Told (· = id) g (g.modify id f) :=
  ⟨.modify g id annotated kind fun e => (kept e).kind, read_modify g id f Entity.function? fun e => (kept e).function?⟩

theorem told_setDocstring (text : String) (line : Nat) : Told (· = id) g (g.setDocstring id text line) :=
  told_modify g id (fun e => e.annotated_margin e.kind e.line _ e.notes) (fun _ => .inl rfl) fun e => e.kept_setDocstring _

theorem told_recordHint (a : Assignment) : Told (· = id) g (g.recordHint id a) :=
  told_modify g id (fun e => (e.annotated_setLine a.line).trans (Entity.annotated_modifyAttribute _ _))
    (fun _ => .inl (by simp)) fun e => (e.kept_setLine a.line).trans (Entity.kept_modifyAttribute _ _)

theorem told_modifyAttribute (f : AttributeInfo → AttributeInfo) :
    Told (· = id) g (g.modify id (Entity.modifyAttribute f)) :=
  told_modify g id (fun e => e.annotated_modifyAttribute f) (fun _ => .inl (by simp)) fun e => e.kept_modifyAttribute f

theorem told_recordValue (a : Assignment) : Told (· = id) g (g.recordValue id a) := told_modifyAttribute g id _

section classification

variable {g id} (type : g.Headed → (g.entity id).type = .attribute)

include type

theorem told_setKind {kind : EntityKind} (among : kind ∈ EntityType.attribute.kinds false) :
    Told (· = id) g (g.modify id (Entity.setKind kind)) :=
  told_modify g id (fun e => e.annotated_setKind kind)
    (fun headed => .inr (Entity.suited_of_attribute kind (type headed) rfl among))
    fun e => e.kept_setKind (by rintro rfl; simp [EntityType.kinds] at among)

theorem told_classifyConstant (hint value : Option Expr) (inFlow : Bool) {usual : EntityKind}
    (among : usual ∈ EntityType.attribute.kinds false) :
    Told (· = id) g (g.classifyConstant id hint value inFlow usual) := by
  unfold classifyConstant
  dsimp only
  split
  · refine told_modify g id (fun e => (e.annotated_setKind _).trans (Entity.annotated_modifyAttribute _ _))
      (fun headed => .inr ?_) fun e => (e.kept_setKind (by decide)).trans (Entity.kept_modifyAttribute _ _)
    exact Entity.suited_of_attribute .constant (by simpa using type headed) (by simp [Entity.setKind])
      (by decide)
  · split
    · exact told_setKind type among
    · exact .refl g

theorem told_recordAttribute (a : Assignment) (inFlow : Bool) {usual : EntityKind}
    (among : usual ∈ EntityType.attribute.kinds false) :
    Told (· = id) g (g.recordAttribute id a inFlow usual) := by
  have hinted := told_recordHint g id a
  refine (hinted.trans (told_classifyConstant (fun headed => ?_) _ _ _ among)).trans
    (told_recordValue _ _ _)
  rw [(hinted.entity id).type]
  exact type (hinted.headed_iff.mp headed)

end classification

theorem told_setHint (hint : Option Expr) : Told (· = id) g (g.setHint id hint) := told_modifyAttribute g id _

theorem told_unwrapConstant : Told (· = id) g (g.unwrapConstant id) := by
  unfold unwrapConstant unwrapFinal
  split
  · split
    · exact .refl g
    · split
      · dsimp only
        split
        · split
          · exact (told_report g _ _ _ _ (by decide)).trans (told_setHint _ _ _)
          · exact told_setHint _ _ _
        · exact told_setHint _ _ _
      · exact .refl g
  · exact .refl g

theorem told_inferHint : Told (· = id) g (g.inferHint id) := told_modifyAttribute g id _

theorem told_classifyType : Told (· = id) g (g.classifyType id) := by
  unfold classifyType
  split
  · exact .refl g
  · rename_i type
    rw [not_not] at type
    split
    · refine told_modify g id (fun e => (e.annotated_setKind _).trans (Entity.annotated_modifyAttribute _ _))
        (fun _ => .inr ?_) fun e => (e.kept_setKind (by decide)).trans (Entity.kept_modifyAttribute _ _)
      exact Entity.suited_of_attribute .typeAlias (by simpa using type) (by simp [Entity.setKind])
        (by decide)
    · split
      · exact told_setKind (fun _ => type) (by decide)
      · exact .refl g

/-- The scope, or something that it binds. -/
def About (scope : EntityId) : Prop := id = scope ∨ ∃ name, (g.entity scope).contents.get? name = some id

theorem about_of_mem_ids {scope : EntityId} (among : id ∈ (g.entity scope).contents.ids) : g.About id scope := by
  simp only [Contents.ids, Contents.entries, List.mem_map, List.mem_filterMap, Option.map_eq_some_iff] at among
  obtain ⟨_, ⟨name, _, _, found, rfl⟩, rfl⟩ := among
  exact .inr ⟨name, found⟩

theorem told_settleScope : Told (g.About · id) g (g.settleScope id) := by
  have attributes {attr : EntityId} (among : attr ∈ g.attributesOf id) {other : EntityId}
      (same : other = attr) : g.About other id :=
    same ▸ g.about_of_mem_ids attr (List.mem_of_mem_filter among)
  exact (Told.foldl (fun k attr among => (told_unwrapConstant k attr).mono (attributes among)) g).trans
    (Told.foldl (fun k attr among => (told_inferHint k attr).mono (attributes among)) _)

theorem told_warnAbout (text : String) (offset : Int) : Told about g (g.warnAbout id text offset) :=
  told_report g id _ _ _ (by decide)

theorem told_documentProperty (text : String) (line : Nat) :
    Told (· = id) g (g.documentProperty id text line) := by
  unfold documentProperty
  dsimp only
  have documented (g : Graph) (docstring : Option Docstring) (info : AttributeInfo → AttributeInfo) :
      Told (· = id) g (g.modify id fun e => { e with docstring }.modifyAttribute info) :=
    told_modify g id
      (fun e => (e.annotated_margin e.kind e.line docstring e.notes).trans (Entity.annotated_modifyAttribute _ _))
      (fun _ => .inl (by simp)) fun e => (e.kept_setDocstring docstring).trans (Entity.kept_modifyAttribute _ _)
  split
  · exact (told_report g _ _ _ _ (by decide)).trans (documented _ _ _)
  · exact documented _ _ _

theorem told_documentFunction (body : List Stmt) (isOverload : Bool) :
    Told (· = id) g (g.documentFunction id body isOverload) := by
  unfold documentFunction
  split
  · exact .refl g
  · split
    · exact told_warnAbout g id _ _
    · exact told_setDocstring g id _ _

theorem mem_kinds_of_kind? {d : Decorated} {kind : EntityKind} (given : d.kind? = some kind) :
    kind ∈ EntityType.function.kinds false := by
  unfold Decorated.kind? at given
  split at given <;> cases given <;> decide

theorem mem_kinds_of_legacyMethodKind? {target : String} {expr : Expr} {kind : EntityKind}
    (given : legacyMethodKind? target expr = some kind) : kind ∈ EntityType.function.kinds false := by
  unfold legacyMethodKind? at given
  split at given
  · split at given
    · split at given
      · cases given
        decide
      · split at given
        · cases given
          decide
        · cases given
    · cases given
  · cases given

variable {g id} in
theorem retold_defineFunction (type : (g.entity id).type = .function) (head : FunctionHead)
    (body : List Stmt) (d : Decorated) : Retold (· = id) g (g.defineFunction id head body d) := by
  unfold defineFunction
  have defined {k : Graph} (told : Told (· = id) g k) (info : FunctionInfo → FunctionInfo) :
      Retold (· = id) g (k.modify id fun e => { e with kind := d.kind?.or e.kind }.modifyFunction info) := by
    refine told.toRetold.trans (.modify k id (fun e => (e.annotated_margin (d.kind?.or e.kind) e.line e.docstring
      e.notes).trans (Entity.annotated_modifyFunction _ _)) (fun _ => ?_) fun e marked => ?_)
    · cases given : d.kind? with
      | none => exact .inl (by simp)
      | some kind =>
          refine .inr (Entity.suited_of_function kind ?_ (by simp) (mem_kinds_of_kind? given))
          rw [Entity.type_modifyFunction]
          exact (told.entity id).type.trans type
    · rw [Entity.kind_modifyFunction] at marked
      cases given : d.kind? with
      | none => rwa [given] at marked
      | some kind =>
          have among := mem_kinds_of_kind? given
          rw [given] at marked
          cases marked
          simp [EntityType.kinds] at among
  have documented := told_documentFunction g id body d.isOverload
  generalize g.documentFunction id body d.isOverload = k at documented ⊢
  dsimp only
  have warned : Told (· = id) g (if (d.has .classMethod && d.has .staticMethod) = true then
      k.warnAbout id " is both classmethod and staticmethod" 0 else k) := by
    split
    · exact documented.trans (told_warnAbout k id _ _)
    · exact documented
  split
  · exact defined warned _
  · exact defined (warned.trans (told_warnAbout _ _ _ _)) _

/-- What is said about a module is said in its own entry, and leaves its place and its kind. -/
structure Noted (id : EntityId) (g h : Graph) : Prop where
  retouched : Retouched g h
  elsewhere : ∀ {other}, other ≠ id → h.entity other = g.entity other
  home : (h.entity id).home = (g.entity id).home
  kind : (h.entity id).kind = (g.entity id).kind
  isPackage : (h.entity id).isPackage = (g.entity id).isPackage
  class? : (h.entity id).class? = (g.entity id).class?
  reports : ReportsOnly Diagnostic.OfBuild g h

theorem Noted.refl (id : EntityId) (g : Graph) : Noted id g g :=
  ⟨.refl g, fun _ => rfl, rfl, rfl, rfl, rfl, .refl g⟩

theorem Noted.trans {id : EntityId} {g h k : Graph} (first : Noted id g h) (second : Noted id h k) :
    Noted id g k :=
  ⟨first.retouched.trans second.retouched,
    fun apart => (second.elsewhere apart).trans (first.elsewhere apart), second.home.trans first.home,
    second.kind.trans first.kind, second.isPackage.trans first.isPackage, second.class?.trans first.class?,
    first.reports.trans second.reports⟩

theorem Noted.foldl {α : Type*} {step : Graph → α → Graph} {id : EntityId}
    (each : ∀ g item, Noted id g (step g item)) (items : List α) (g : Graph) :
    Noted id g (items.foldl step g) :=
  List.foldlRecOn items step (.refl id g) fun k noted item _ => noted.trans (each k item)

theorem noted_report (message : String) {topic : String} (offset threshold : Int) (other : topic ≠ "mro") :
    Noted id g (g.report id message topic offset threshold) :=
  ⟨(described_report g id message topic offset threshold).retouched, fun _ => rfl, rfl, rfl, rfl, rfl,
    reportsOnly_build g id message offset threshold other⟩

theorem noted_modifyModule {f : ModuleInfo → ModuleInfo} (kept : ∀ info, (f info).pending = info.pending)
    (isPackage : ∀ info, (f info).isPackage = info.isPackage) :
    Noted id g (g.modify id (Entity.modifyModule f)) := by
  refine ⟨retouched_modify g id fun e => e.retouched_modifyModule kept,
    fun apart => entity_modify_of_ne _ _ _ apart.symm, ?_, ?_, ?_, ?_, .of_eq rfl⟩
  · exact read_modify _ _ _ Entity.home (fun e => by rw [Entity.modifyModule_eq]) id
  · exact read_modify _ _ _ Entity.kind (fun e => e.kind_modifyModule f) id
  · exact read_modify _ _ _ Entity.isPackage (fun e => e.isPackage_modifyModule isPackage) id
  · exact read_modify _ _ _ Entity.class? (fun e => e.class?_modifyModule f) id

theorem noted_setState (state : BuildState) : Noted id g (g.setState id state) :=
  noted_modifyModule g id (fun _ => rfl) fun _ => rfl

theorem noted_readExports (value : Expr) (line : Nat) : Noted id g (g.readExports id value line) := by
  unfold readExports
  dsimp only
  have warned (messages : List String) : Noted id g
      (messages.foldl (fun g message => g.report id message "all" line (-1)) g) :=
    Noted.foldl (fun g message => noted_report g id message _ _ (by decide)) messages g
  have stored (g : Graph) (exports : Option (List String)) : Noted id g
      (g.modify id (Entity.modifyModule fun info => { info with exports })) :=
    noted_modifyModule g id (fun _ => rfl) fun _ => rfl
  split
  · exact noted_report g id _ _ _ (by decide)
  · split
    · exact ((warned _).trans (stored _ _)).trans (noted_report _ _ _ _ _ (by decide))
    · exact (warned _).trans (stored _ _)

theorem noted_readDocFormat (value : Expr) (line : Nat) : Noted id g (g.readDocFormat id value line) := by
  unfold readDocFormat
  dsimp only
  have stored (docFormat : Option String) : Noted id g
      (g.modify id (Entity.modifyModule fun info => { info with docFormat })) :=
    noted_modifyModule g id (fun _ => rfl) fun _ => rfl
  split
  · exact noted_report g id _ _ _ (by decide)
  · split
    · exact noted_report g id _ _ _ (by decide)
    · split
      · exact (stored _).trans (noted_report _ _ _ _ _ (by decide))
      · exact stored _

theorem noted_readMetadata (body : List Stmt) : Noted id g (g.readMetadata id body) := by
  refine Noted.foldl (fun g stmt => ?_) body g
  unfold readMetadataOf
  split
  · split
    · exact noted_readExports g id _ _
    · split
      · exact noted_readDocFormat g id _ _
      · exact .refl id g
  · exact .refl id g

theorem described_updateMro : Described g (g.updateMro id).1 := by
  unfold updateMro
  dsimp only
  have reported : Described g (g.reportMro id) := by
    unfold reportMro
    split
    · exact .refl g
    · split
      · exact .refl g
      · exact described_report g id _ _ _ _
  split
  · exact reported.trans
      (described_modify _ id fun e => e.described_modifyClass (fun _ => rfl) (fun _ => rfl))
  · exact reported

theorem described_refreshMro (all : Bool) : Described g (refreshMro all g id).1 := by
  unfold refreshMro
  split
  · exact described_updateMro g id
  · exact .refl g

theorem described_tagException : Described g (g.tagException id).1 := by
  unfold tagException
  split
  · exact described_modify g id fun e => (e.annotated_setKind _).toDescribed
  · exact .refl g

end Graph

namespace Hook

/-- A hook that changes nothing but what entities say about themselves. -/
structure Describes (hook : Hook) : Prop where
  visit : ∀ g scope module stmt, Graph.Described g (hook.visit g scope module stmt)
  depart : ∀ g scope module stmt, Graph.Described g (hook.depart g scope module stmt)

/-- A hook that does no more than to tell something about the scope and what it binds. -/
structure Tells (hook : Hook) : Prop where
  visit : ∀ g scope module stmt, Graph.Labelled (g.About · scope) g (hook.visit g scope module stmt)
  depart : ∀ g scope module stmt, Graph.Labelled (g.About · scope) g (hook.depart g scope module stmt)

theorem Tells.describes {hook : Hook} (tells : hook.Tells) : hook.Describes :=
  ⟨fun g scope module stmt => (tells.visit g scope module stmt).described,
    fun g scope module stmt => (tells.depart g scope module stmt).described⟩

theorem told_typeAliases (g : Graph) (scope module : EntityId) (stmt : Stmt) :
    Graph.Told (g.About · scope) g (typeAliases.visit g scope module stmt) := by
  -- The table of the scope stays as it is, so what it binds is the same from target to target.
  refine List.foldlRecOn (motive := Graph.Told (g.About · scope) g) _ _ (.refl g) fun k told target _ => ?_
  refine told.trans ?_
  unfold classifyTarget
  split
  · rename_i attr found
    obtain ⟨name, _, bound⟩ := Option.bind_eq_some_iff.mp found
    rw [(told.entity scope).contents] at bound
    exact (Graph.told_classifyType k attr).mono fun same => same ▸ .inr ⟨name, bound⟩
  · exact .refl k

theorem tells_standard : ∀ hook ∈ standard, hook.Tells := by
  intro hook member
  rw [standard, List.mem_singleton] at member
  rw [member]
  exact ⟨fun g scope module stmt => (told_typeAliases g scope module stmt).toLabelled, fun g _ _ _ =>
    (Graph.Told.refl g).toLabelled⟩

theorem describes_standard : ∀ hook ∈ standard, hook.Describes :=
  fun hook member => (tells_standard hook member).describes

end Hook

end DocGraph
