import DocGraph.Proofs.Run.Declarations

namespace DocGraph

/-- The docstring of something that may be anywhere. -/
def Expr.isDocTarget : Expr → Bool
  | .attribute _ attr => attr == "__doc__"
  | _ => false

/-- The name under which an assignment to a target may store something. -/
def Expr.stored? : Expr → Option String
  | .name id => some id
  | .attribute _ attr => some attr
  | _ => none

namespace Graph

variable {g h : Graph} {id scope : EntityId}

theorem exists_depthFirstFrom_eq (g : Graph) (fuel : Nat) (seen stack : List EntityId) :
    ∃ later, g.depthFirstFrom fuel seen stack = seen.reverse ++ later := by
  induction fuel generalizing seen stack with
  | zero => cases stack <;> exact ⟨[], by simp [depthFirstFrom]⟩
  | succ fuel ih =>
      cases stack with
      | nil => exact ⟨[], by simp [depthFirstFrom]⟩
      | cons id stack =>
          rw [depthFirstFrom]
          split
          · exact ih seen stack
          · obtain ⟨later, equal⟩ := ih (id :: seen) (g.basesOf id ++ stack)
            exact ⟨id :: later, by simp [equal]⟩

theorem head?_depthFirstBases (g : Graph) (id : EntityId) : (g.depthFirstBases id).head? = some id := by
  rw [depthFirstBases, depthFirstFrom, if_neg List.not_mem_nil]
  obtain ⟨later, equal⟩ := g.exists_depthFirstFrom_eq g.baseCount [id] (g.basesOf id ++ [])
  rw [equal]
  rfl

/-- A class is searched before its bases, so what it binds itself is what a name denotes in it. -/
theorem find_of_bound {name : String} (headed : g.Headed) (type : (g.entity scope).type = .class)
    (bound : (g.entity scope).contents.get? name = some id) : g.find scope name = some id := by
  obtain ⟨info, found⟩ := Option.isSome_iff_exists.mp ((g.entity scope).class?_isSome.mpr type)
  have first : (g.searchOrder scope info).head? = some scope := by
    cases stored : info.mro with
    | none => simp [searchOrder, stored, head?_depthFirstBases]
    | some order =>
        simp only [searchOrder, stored, Option.getD_some]
        exact headed scope order (by simp [mroOf?, found, stored])
  obtain ⟨rest, order⟩ := List.head?_eq_some_iff.mp first
  simp [find, found, order, bound]

theorem type_of_mayBeAttribute {name : String} (permitted : g.mayBeAttribute scope name = true)
    (type : (g.entity scope).type = .class) (bound : (g.entity scope).contents.get? name = some id)
    (headed : g.Headed) : (g.entity id).type = .attribute := by
  simpa [mayBeAttribute, find_of_bound headed type bound] using permitted

/-- The child of the name, or a new attribute, or none. -/
theorem attributeFor_eq_some {name : String} {kind : Option EntityKind} {a : Assignment}
    (found : g.attributeFor scope name kind a = (h, some id)) :
    (h = g ∧ (g.entity scope).contents.get? name = some id) ∨
      (h = (g.addAttribute scope name kind a.line).1 ∧ id = ⟨g.size⟩) := by
  unfold attributeFor at found
  split at found
  · rename_i bound
    cases found
    exact .inl ⟨rfl, bound⟩
  · split at found
    · cases found
      exact .inr ⟨rfl, rfl⟩
    · cases found

theorem attributeFor_eq_none {name : String} {kind : Option EntityKind} {a : Assignment}
    (found : g.attributeFor scope name kind a = (h, none)) : h = g := by
  unfold attributeFor at found
  split at found
  · cases found
  · split at found
    · cases found
    · cases found
      rfl

end Graph

open DocGraph.Graph

namespace Walk

variable {w v u : Walk} {g h : Graph} {id : EntityId} {may : Licence}

theorem walks_recordAlias? {name : String} {a : Assignment} (free : w.isGuarded w.current name = false)
    (named : may.binds name) (recorded : w.graph.recordAlias? w.current name a = some h) :
    Walks may w { w with graph := h } := by
  unfold recordAlias? at recorded
  split at recorded
  · obtain ⟨dotted, _, rfl⟩ := Option.map_eq_some_iff.mp recorded
    exact .bind free named
  · cases recorded

/-- What is stored in an attribute, be it there or new. -/
theorem walks_attributeFor {scope attr : EntityId} {name : String} {kind : Option EntityKind} {a : Assignment}
    (place : w.Place scope) (free : w.isGuarded scope name = false) (named : may.binds name)
    (plain : kind ≠ some .exception) (found : w.graph.attributeFor scope name kind a = (g, some attr)) (store : Graph → EntityId → Graph)
    (there : (w.graph.entity scope).contents.get? name = some attr →
      Told (· = attr) w.graph (store w.graph attr))
    (new : ∀ {k id}, (k.entity id).type = .attribute → Told (· = id) k (store k id))
    (suited : ∀ {k id}, k.Has id → (k.entity id).type = .attribute → (k.entity id).kind = kind → k.Headed →
      ((store k id).entity id).Suited) :
    Walks may w { w with graph := store g attr } := by
  rcases attributeFor_eq_some found with ⟨rfl, bound⟩ | ⟨rfl, rfl⟩
  · exact .tell place bound (there bound)
  · have type := read_addEntity w.graph scope name (.attribute {}) kind a.line Entity.type fun _ _ _ => rfl
    have stored := read_addEntity w.graph scope name (.attribute {}) kind a.line Entity.kind fun _ _ _ => rfl
    have inside : (w.graph.addAttribute scope name kind a.line).1.Has ⟨w.graph.size⟩ := by
      rw [Has, addAttribute, (arranged_addEntity _ _ _ _ _ _).size, size_alloc]
      exact Nat.lt_succ_self _
    refine walks_addEntity place (by decide) (by rintro ⟨⟩) free named (by rintro ⟨⟩) plain (new type).toRetold
      fun headed => ?_
    exact suited inside type stored (headed_addEntity _ _ _ _ _ headed (by rintro ⟨⟩))

theorem walks_retagMethod? {name : String} {a : Assignment}
    (retagged : w.graph.retagMethod? w.current name a = some h) : Walks may w { w with graph := h } := by
  unfold retagMethod? at retagged
  split at retagged
  · simp only [Option.bind_eq_bind, Option.bind_eq_some_iff] at retagged
    obtain ⟨kind, ⟨value, _, given⟩, method, bound, stored⟩ := retagged
    split at stored
    · rename_i type
      cases stored
      have among := mem_kinds_of_legacyMethodKind? given
      refine .tell (.inl rfl) bound (told_modify _ method (fun e => e.annotated_setKind kind) (fun _ => .inr ?_)
        fun e => e.kept_setKind ?_)
      · exact Entity.suited_of_function kind type rfl among
      · rintro rfl
        simp [EntityType.kinds] at among
    · cases stored
  · cases retagged

theorem walks_assignInModule {name : String} (free : w.isGuarded w.current name = false)
    (named : may.binds name) (a : Assignment) : Walks may w { w with graph := (w.assignInModule name a).1 } := by
  unfold assignInModule
  dsimp only
  split
  · exact .refl w
  · split
    · rename_i recorded
      exact walks_recordAlias? free named recorded
    · split
      · rename_i found
        rw [attributeFor_eq_none found]
        exact .refl w
      · rename_i k attr found
        have told (k : Graph) (id : EntityId) : Told (· = id) k
            (if (k.entity id).type = .attribute then k.recordAttribute id a w.inFlow .variable else k) := by
          split
          · rename_i type
            exact told_recordAttribute (fun _ => type) a _ (by decide)
          · exact .refl k
        have stored : Walks may w { w with graph :=
            if (k.entity attr).type = .attribute then k.recordAttribute attr a w.inFlow .variable else k } :=
          walks_attributeFor (.inl rfl) free named (by decide) found
            (fun k id => if (k.entity id).type = .attribute then k.recordAttribute id a w.inFlow .variable else k)
            (fun _ => told _ _) (fun _ => told _ _) fun _ type kind headed =>
              (told _ _).suited headed (Entity.suited_of_attribute .variable type kind (by decide))
        split
        · rename_i type
          rwa [if_pos type] at stored
        · rename_i type
          rwa [if_neg type] at stored

theorem walks_assignInClass {name : String} (type : (w.graph.entity w.current).type = .class)
    (free : w.isGuarded w.current name = false) (named : may.binds name) (a : Assignment) :
    Walks may w { w with graph := (w.assignInClass name a).1 } := by
  unfold assignInClass
  dsimp only
  split
  · rename_i recorded
    exact walks_recordAlias? free named recorded
  · split
    · rename_i permitted
      split
      · rename_i found
        rw [attributeFor_eq_none found]
        exact .refl w
      · rename_i found
        have kinded {k : Graph} {id : EntityId} (type : k.Headed → (k.entity id).type = .attribute) :
            Told (· = id) k (k.modify id fun e => { e with kind := e.kind.or (some .classVariable) }) := by
          refine told_modify k id (fun e => e.annotated_margin _ e.line e.docstring e.notes) (fun headed => ?_)
            fun e => ⟨rfl, fun marked => ?_⟩
          · cases stored : (k.entity id).kind with
            | some kind => exact .inl (by simp)
            | none => exact .inr (Entity.suited_of_attribute .classVariable (type headed) (by simp) (by decide))
          · cases stored : e.kind with
            | none => simp [stored] at marked
            | some kind => simpa [stored] using marked
        have told {k : Graph} {id : EntityId} (type : k.Headed → (k.entity id).type = .attribute) :
            Told (· = id) k ((k.modify id fun e => { e with kind := e.kind.or (some .classVariable) }).recordAttribute
              id a w.inFlow .classVariable) := by
          refine (kinded type).trans (told_recordAttribute (fun headed => ?_) a _ (by decide))
          rw [((kinded type).entity id).type]
          exact type ((kinded type).headed_iff.mp headed)
        refine walks_attributeFor (.inl rfl) free named (by decide) found (fun k attr => (k.modify attr fun e =>
          { e with kind := e.kind.or (some .classVariable) }).recordAttribute attr a w.inFlow .classVariable)
          (fun bound => told fun headed => type_of_mayBeAttribute permitted type bound headed)
          (fun type => told fun _ => type) fun {k id} inside type kind headed => ?_
        have first := kinded fun _ => type
        refine (told_recordAttribute (fun _ => (first.entity id).type.trans type) a _ (by decide)).suited
          (first.headed_iff.mpr headed) ?_
        rw [entity_modify_self _ _ _ inside]
        exact Entity.suited_of_attribute .classVariable type (by simp [kind]) (by decide)
    · exact .refl w

theorem type_of_methodClass? {owner : EntityId} (method : w.methodClass? = some owner) :
    (w.graph.entity owner).type = .class := by
  unfold methodClass? at method
  split at method
  · simpa using (Option.filter_eq_some_iff.mp method).2
  · cases method

theorem walks_assignInstance (w : Walk) {name : String} (named : may.binds name) (a : Assignment) :
    Walks may w { w with graph := (w.assignInstance name a).1 } := by
  unfold assignInstance
  dsimp only
  split
  · exact .refl w
  · rename_i owner method
    split
    · rename_i permitted
      rw [Bool.and_eq_true, Bool.not_eq_true'] at permitted
      split
      · rename_i found
        rw [attributeFor_eq_none found]
        exact .refl w
      · rename_i found
        have kinded {k : Graph} {id : EntityId} (type : k.Headed → (k.entity id).type = .attribute) :
            Told (· = id) k ((k.recordHint id a).modify id (Entity.setKind .instanceVariable)) := by
          have hinted := told_recordHint k id a
          refine hinted.trans (told_setKind (fun headed => ?_) (by decide))
          rw [(hinted.entity id).type]
          exact type (hinted.headed_iff.mp headed)
        refine walks_attributeFor (.inr method) permitted.2 named (by decide) found
          (fun k attr => ((k.recordHint attr a).modify attr (Entity.setKind .instanceVariable)).recordValue attr a)
          (fun bound => (kinded fun headed => ?_).trans (told_recordValue _ _ _))
          (fun type => (kinded fun _ => type).trans (told_recordValue _ _ _))
          fun {k id} inside type _ headed => ?_
        · exact type_of_mayBeAttribute permitted.1 (type_of_methodClass? method) bound headed
        · have first := kinded fun _ => type
          refine (told_recordValue _ _ _).suited (first.headed_iff.mpr headed) ?_
          have there : (k.recordHint id a).Has id := by simpa [recordHint] using inside
          rw [entity_modify_self _ _ _ there]
          exact Entity.suited_of_attribute .instanceVariable
            (((told_recordHint k id a).entity id).type.trans type) rfl (by decide)
    · exact .refl w

theorem walks_assignName (w : Walk) {name : String} (named : may.binds name) (a : Assignment) :
    Walks may w { w with graph := (w.assignName name a).1 } := by
  unfold assignName
  split
  · exact .refl w
  · rename_i open_
    have free : w.isGuarded w.current name = false := by simpa using open_
    split
    · exact walks_assignInModule free named a
    · rename_i type
      split
      · rename_i retagged
        exact walks_retagMethod? retagged
      · exact walks_assignInClass type free named a
    · exact .refl w

theorem documentedName?_place {target : Expr} {scope : EntityId} {name : String}
    (named : w.documentedName? target = some (scope, name)) : w.Place scope := by
  unfold documentedName? at named
  split at named
  · cases named
    exact .inl rfl
  · split at named
    · obtain ⟨owner, method, equal⟩ := Option.map_eq_some_iff.mp named
      cases equal
      exact .inr method
    · cases named
  · cases named

theorem told_documentTarget (w : Walk) (target : Expr) (next : Option Stmt) :
    Told w.Near w.graph (w.documentTarget target next) := by
  have settled {documented : Option Graph} (each : ∀ g, documented = some g → Told w.Near w.graph g) :
      Told w.Near w.graph (documented.getD w.graph) := by
    cases documented with
    | none => exact .refl _
    | some g => exact each g rfl
  refine settled fun g documented => ?_
  simp only [Option.bind_eq_bind, Option.bind_eq_some_iff] at documented
  obtain ⟨next, _, text, _, place, named, entity, bound, stored⟩ := documented
  cases stored
  exact (told_setDocstring _ _ _ _).mono fun same => same ▸ (documentedName?_place named).near_of_bound bound

theorem told_assignDoc (w : Walk) (target : Expr) (a : Assignment) :
    Told (fun _ => True) w.graph (w.assignDoc target a) := by
  unfold assignDoc
  split
  · exact .refl _
  · have sought : Told (fun _ => True) w.graph (w.docTarget target a.line).1 := by
      unfold docTarget
      split
      · exact told_report _ _ _ _ _ (by decide)
      · dsimp only
        split
        · exact .refl _
        · exact told_report _ _ _ _ _ (by decide)
    generalize w.docTarget target a.line = result at sought ⊢
    obtain ⟨g, found⟩ := result
    dsimp only at sought ⊢
    split
    · split
      · exact sought.trans ((told_setDocstring _ _ _ _).mono fun _ => trivial)
      · exact sought
    · split
      · exact sought.trans (told_report _ _ _ _ _ (by decide))
      · exact sought.trans (told_report _ _ _ _ _ (by decide))

theorem walks_assign (w : Walk) {target : Expr} (distant : target.isDocTarget = true → may.afar)
    (named : ∀ name, target.stored? = some name → may.binds name) (a : Assignment) :
    Walks may w { w with graph := (w.assign target a).1 } := by
  unfold assign
  split
  · exact walks_assignName w (named _ rfl) a
  · split
    · exact .refl w
    · split
      · rename_i doc
        exact .act (.document (distant (by simp [Expr.isDocTarget, doc])) (told_assignDoc w _ a))
      · split
        · exact walks_assignInstance w (named _ rfl) a
        · exact .refl w
  · exact .describe (told_report _ _ _ _ _ (by decide))

theorem walks_augment (w : Walk) {target : Expr} (named : ∀ name, target.stored? = some name → may.binds name)
    {a : Assignment} (augmented : a.isBinding = false) :
    Walks may w { w with graph := (w.assign target a).1 } := by
  unfold assign
  split
  · exact walks_assignName w (named _ rfl) a
  · simp only [augmented, Bool.not_false, ↓reduceIte]
    exact .refl w
  · exact .describe (told_report _ _ _ _ _ (by decide))

theorem walks_assignTarget (w : Walk) (a : Assignment) (next : Option Stmt) {target : Expr}
    (distant : target.isDocTarget = true → may.afar)
    (named : ∀ name, target.stored? = some name → may.binds name) : Walks may w (w.assignTarget a next target) := by
  have assigned := walks_assign w distant named a
  unfold assignTarget
  split
  · rename_i equal
    rw [equal] at assigned
    exact assigned.trans (.describe (told_documentTarget _ _ _))
  · rename_i equal
    rw [equal] at assigned
    exact assigned

end Walk

end DocGraph
