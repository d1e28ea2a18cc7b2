import DocGraph.Proofs.Names.Parts
import DocGraph.Proofs.Finish.Repeat

namespace DocGraph

open Dotted (IsSegment)

/-- A change of bases and subclasses alone, as far as names go. -/
structure Entity.Rebased (e f : Entity) : Prop extends Overlaid e f where
  aliases : f.aliases = e.aliases

namespace Graph

variable {g h k : Graph} {id parent : EntityId}

abbrev Rebased : Graph → Graph → Prop := Entrywise Entity.Rebased

namespace Rebased

theorem refl (g : Graph) : Rebased g g := Entrywise.refl (fun e => ⟨.refl e, rfl⟩) g

theorem trans (first : Rebased g h) (second : Rebased h k) : Rebased g k :=
  Entrywise.trans (fun first second => ⟨first.toOverlaid.trans second.toOverlaid,
    second.aliases.trans first.aliases⟩) first second

theorem of_described (described : Described g h) : Rebased g h :=
  Entrywise.imp (fun described => ⟨described.toOverlaid, described.aliases⟩) described

theorem modifyClass (g : Graph) (id : EntityId) (f : ClassInfo → ClassInfo) :
    Rebased g (g.modify id (Entity.modifyClass f)) :=
  Entrywise.modify g id (fun e => ⟨.refl e, rfl⟩)
    fun e => ⟨e.overlaid_modifyClass f, e.aliases_modifyClass f⟩

variable (rebased : Rebased g h)

include rebased

theorem sameTree : SameTree g h := Overlaid.sameTree (Entrywise.imp (·.toOverlaid) rebased)

theorem ownBinding? (id : EntityId) (name : String) : h.ownBinding? id name = g.ownBinding? id name := by
  unfold Graph.ownBinding?
  dsimp only
  rw [(rebased.entity id).contents, (rebased.entity id).aliases]
  simp only [rebased.sameTree.fullName]

theorem localName (id : EntityId) (name : String) : h.localName id name = g.localName id name := by
  have along (chain : List EntityId) : h.localNameAlong name chain = g.localNameAlong name chain := by
    induction chain with
    | nil => rfl
    | cons scope rest ih =>
        rw [localNameAlong, localNameAlong, (rebased.entity scope).type, rebased.ownBinding?, ih]
  unfold Graph.localName
  rw [ancestors_congr rebased.size rebased.sameTree.parent, along]

theorem resolve (name : String) : h.resolve name = g.resolve name := by
  have within (budget : Nat) (name : String) : h.resolveWithin budget name = g.resolveWithin budget name := by
    induction budget generalizing name with
    | zero => rfl
    | succ budget ih =>
        unfold resolveWithin
        simp only [lookup, rebased.index, ih, (rebased.entity _).contents, (rebased.entity _).aliases]
  unfold Graph.resolve
  rw [rebased.options, within]

/-- A module has no bases to look at, so a segment behind it goes by what the module binds. -/
theorem reachMember_of_module (rooted : g.Rooted) (isModule : (g.entity id).type = .module) (segment : String) :
    h.reachMember id segment =
      match (g.ownBinding? id segment).filter (· ≠ segment) with
      | none => .outside (Dotted.extend (g.fullName id) segment)
      | some bound => h.follow bound := by
  have inside : g.Has id := g.has_of_type (by rw [isModule]; decide)
  have own : g.localName id segment = (g.ownBinding? id segment).getD segment := by
    cases above : (g.entity id).parent with
    | none => simp [Graph.localName, ancestors_of_root rooted inside above, localNameAlong, isModule]
    | some upper => simp [Graph.localName, ancestors_of_child rooted above, localNameAlong, isModule]
  have other : (h.entity id).type ≠ .class := by
    rw [(rebased.entity id).type, isModule]
    decide
  have missing : h.find id segment = none := by rw [Graph.find, (h.entity id).class?_eq_none other]
  rw [reachMember, rebased.localName, own, missing]
  cases bound : g.ownBinding? id segment with
  | none => simp [rebased.sameTree.fullName]
  | some full => by_cases same : full = segment <;> simp [Option.filter_some, same, rebased.sameTree.fullName]

end Rebased

theorem resolveIn_of_isSegment (g : Graph) (scope : EntityId) {name : String} (segment : IsSegment name) :
    g.resolveIn scope name =
      (g.resolve (g.localName scope name)).bind fun found => g.resolve (g.fullName found) := by
  unfold resolveIn expand
  rw [Dotted.parts_of_isSegment segment, expandSegments, reachFirst, follow]
  cases found : g.resolve (g.localName scope name) with
  | some id => rfl
  | none => simpa [Dotted.join] using found

/-- What a name denotes in a scope does not hang on bases. -/
def IgnoresBases (g : Graph) (scope : EntityId) (name : String) : Prop :=
  ∀ h, Rebased g h → h.resolveIn scope name = g.resolveIn scope name

theorem ignoresBases_of_isSegment (g : Graph) (scope : EntityId) {name : String} (segment : IsSegment name) :
    g.IgnoresBases scope name := by
  intro h rebased
  rw [resolveIn_of_isSegment _ _ segment, resolveIn_of_isSegment _ _ segment, rebased.localName]
  simp only [rebased.resolve, rebased.sameTree.fullName]

theorem IgnoresBases.rebased {name : String} (ignores : g.IgnoresBases parent name) (rebased : Rebased g h) :
    h.IgnoresBases parent name := by
  intro k further
  rw [ignores k (rebased.trans further), ignores h rebased]

theorem resolveIn_of_bound (lockStep : g.LockStep) (container : (g.entity parent).isContainer = true)
    {name : String} (segment : IsSegment name) (inside : g.Has id)
    (bound : g.ownBinding? parent name = some (g.fullName id)) : g.resolveIn parent name = some id := by
  have found : g.resolve (g.fullName id) = some id := by
    have listed : g.lookup (g.fullName id) = some id := (lockStep.index _ _).mpr ⟨inside, rfl⟩
    simp [resolve, resolveWithin, listed]
  have own : g.localName parent name = g.fullName id := by
    have chain : ∃ rest, g.ancestors parent = parent :: rest := by
      cases above : (g.entity parent).parent with
      | none => exact ⟨_, ancestors_of_root lockStep.rooted (g.has_of_isContainer container) above⟩
      | some upper => exact ⟨_, ancestors_of_child lockStep.rooted above⟩
    obtain ⟨rest, chain⟩ := chain
    cases type : (g.entity parent).type <;>
      simp [Entity.isContainer, localName, chain, localNameAlong, type, bound] at container ⊢
  rw [resolveIn_of_isSegment g parent segment, own, found]
  exact found

theorem text_upgradeBase (g : Graph) (id parent : EntityId) (base : Base) :
    (g.upgradeBase id parent base).text = base.text := by
  unfold upgradeBase
  split
  · rfl
  · split
    · rfl
    · split <;> rfl

theorem upgradeBase_of_known {base : Base} (known : base.target.isSome) :
    g.upgradeBase id parent base = base := by
  obtain ⟨target, known⟩ := Option.isSome_iff_exists.mp known
  simp [upgradeBase, known]

theorem upgradeBase_upgradeBase (g : Graph) (id parent : EntityId) (base : Base) :
    g.upgradeBase id parent (g.upgradeBase id parent base) = g.upgradeBase id parent base := by
  by_cases findable : g.Findable id parent base
  · exact upgradeBase_of_known (target_upgradeBase_of_findable findable)
  · rw [upgradeBase_of_not_findable findable, upgradeBase_of_not_findable findable]

theorem Rebased.upgradeBase (rebased : Rebased g h) (id : EntityId) {base : Base}
    (ignores : g.IgnoresBases parent base.text) : h.upgradeBase id parent base = g.upgradeBase id parent base := by
  unfold Graph.upgradeBase
  rw [ignores h rebased]
  simp only [(rebased.entity _).type, rebased.sameTree.fullName]

/-- Finishing behind the imports: bases whose names do not hang on bases are left alone or looked up. -/
structure Upgrading (g h : Graph) : Prop where
  rebased : Rebased g h
  texts : ∀ id, (h.entity id).slots.map Base.text = (g.entity id).slots.map Base.text
  slots : ∀ {id} {i : Nat} {former : Base}, (g.entity id).slots[i]? = some former →
    (∀ parent, g.IsParent parent id → g.IgnoresBases parent former.text) →
    (h.entity id).slots[i]? = some former ∨
      ∃ parent, g.IsParent parent id ∧ (h.entity id).slots[i]? = some (g.upgradeBase id parent former)

namespace Upgrading

theorem of_slots (rebased : Rebased g h) (same : ∀ id, (h.entity id).slots = (g.entity id).slots) :
    Upgrading g h :=
  ⟨rebased, fun id => by rw [same], fun found _ => .inl (by rw [same, found])⟩

theorem refl (g : Graph) : Upgrading g g := .of_slots (.refl g) fun _ => rfl

theorem trans (first : Upgrading g h) (second : Upgrading h k) : Upgrading g k := by
  refine ⟨first.rebased.trans second.rebased, fun id => (second.texts id).trans (first.texts id), ?_⟩
  intro id i former found ignores
  have middle (parent : EntityId) (above : h.IsParent parent id) : h.IgnoresBases parent former.text := by
    rw [first.rebased.sameTree.isParent] at above
    exact (ignores parent above).rebased first.rebased
  rcases first.slots found ignores with same | ⟨parent, above, upgraded⟩
  · rcases second.slots same middle with same | ⟨parent, above, upgraded⟩
    · exact .inl same
    · rw [first.rebased.sameTree.isParent] at above
      exact .inr ⟨parent, above, by rw [upgraded, first.rebased.upgradeBase id (ignores parent above)]⟩
  · refine .inr ⟨parent, above, ?_⟩
    rcases second.slots upgraded (by rwa [text_upgradeBase]) with same | ⟨other, aboveOther, again⟩
    · exact same
    · -- The second look starts at the same parent and finds what the first one found.
      rw [first.rebased.sameTree.isParent] at aboveOther
      cases above.symm.trans aboveOther
      rw [again, first.rebased.upgradeBase id (by rw [text_upgradeBase]; exact ignores parent above),
        upgradeBase_upgradeBase]

end Upgrading

theorem slots_upgradeBases (above : (g.entity id).parent = some parent) :
    ((g.upgradeBases id).1.entity id).slots = (g.entity id).slots.map (g.upgradeBase id parent) := by
  cases found : (g.entity id).class? with
  | none => simp [upgradeBases, found, Entity.slots, Entity.baseLists, BaseLists.slots]
  | some info =>
      have upgraded : (g.upgradeBases id).1 = g.modify id (Entity.modifyClass fun info =>
          { info with bases := g.upgraded id parent (g.entity id).baseLists }) := by
        simp [upgradeBases, found, above, Graph.upgraded, Entity.baseLists]
      rw [upgraded, Entity.slots, baseLists_modify_upgraded, if_pos rfl, slots_upgraded, ← Entity.slots]

theorem upgrading_upgradeBases (g : Graph) (id : EntityId) : Upgrading g (g.upgradeBases id).1 := by
  rcases upgradeBases_cases g id with same | ⟨parent, above, upgraded⟩
  · rw [same]
    exact .refl g
  · have own := slots_upgradeBases above
    have elsewhere {other : EntityId} (apart : other ≠ id) :
        ((g.upgradeBases id).1.entity other).slots = (g.entity other).slots := by
      rw [upgraded, Entity.slots, baseLists_modify_upgraded, if_neg apart, ← Entity.slots]
    refine ⟨upgraded ▸ .modifyClass g id _, fun other => ?_, @fun other i former found _ => ?_⟩
    · by_cases self : other = id
      · rw [self, own, List.map_map]
        exact List.map_congr_left fun base _ => text_upgradeBase g id parent base
      · rw [elsewhere self]
    · by_cases self : other = id
      · subst self
        exact .inr ⟨parent, above, by rw [own, List.getElem?_map, found, Option.map_some]⟩
      · exact .inl (by rw [elsewhere self, found])

theorem upgrading_linkSubclasses (g : Graph) (id : EntityId) : Upgrading g (g.linkSubclasses id).1 := by
  refine tally_related Upgrading.refl Upgrading.trans (fun k base => ?_) _ g
  rcases linkSubclass_cases k id base with same | ⟨_, _, linked⟩
  · rw [same]
    exact .refl k
  · rw [linked]
    exact .of_slots (.modifyClass _ _ _) fun other =>
      congrArg BaseLists.slots (baseLists_modify_of_kept (by intro; rfl) other)

/-- The bases of a class that `g` has, if their names do not hang on bases, are looked up in `k`. -/
def Answered (g : Graph) (id : EntityId) (k : Graph) : Prop :=
  ∀ (parent : EntityId) (i : Nat) (former : Base), g.IsParent parent id →
    (g.entity id).slots[i]? = some former → g.IgnoresBases parent former.text →
    (k.entity id).slots[i]? = some (g.upgradeBase id parent former)

theorem Answered.next (rebased : Rebased g h) (upgrading : Upgrading h k) (answered : Answered g id h) :
    Answered g id k := by
  intro parent i former above found ignores
  have known := answered parent i former above found ignores
  have still {other : EntityId} (aboveOther : h.IsParent other id) : other = parent := by
    rw [rebased.sameTree.isParent] at aboveOther
    exact Option.some.inj (aboveOther.symm.trans above)
  rcases upgrading.slots known fun other aboveOther => by
      rw [still aboveOther, text_upgradeBase]
      exact ignores.rebased rebased with same | ⟨other, aboveOther, again⟩
  · exact same
  · rw [again, still aboveOther, rebased.upgradeBase id (by rwa [text_upgradeBase]), upgradeBase_upgradeBase]

theorem answered_upgradeBases (upgrading : Upgrading g k) (id : EntityId) :
    Answered g id (k.upgradeBases id).1 := by
  intro parent i former above found ignores
  have aboveThere : k.IsParent parent id := by rwa [upgrading.rebased.sameTree.isParent]
  have only {other : EntityId} (aboveOther : g.IsParent other id) : other = parent :=
    Option.some.inj (aboveOther.symm.trans above)
  rw [slots_upgradeBases aboveThere, List.getElem?_map]
  rcases upgrading.slots found fun other aboveOther => only aboveOther ▸ ignores with same | ⟨other, aboveOther, upgraded⟩
  · rw [same, Option.map_some, upgrading.rebased.upgradeBase id ignores]
  · rw [upgraded, only aboveOther, Option.map_some, upgrading.rebased.upgradeBase id (by rwa [text_upgradeBase]),
      upgradeBase_upgradeBase]

namespace Stages

variable {resumed upgraded linked ordered : Graph} {s : Summary}
  (stages : Stages g resumed upgraded linked ordered h s)

include stages

theorem upgrading_behind : Upgrading upgraded h := by
  have link : Upgrading upgraded (tally linkSubclasses (resumed.idsOfType .class) upgraded).1 :=
    tally_related Upgrading.refl Upgrading.trans upgrading_linkSubclasses _ _
  rw [stages.link] at link
  exact link.trans (.of_slots (.of_described stages.described) fun id => (stages.described.entity id).slots)

theorem upgrading : Upgrading resumed h := by
  have upgrade : Upgrading resumed (tally upgradeBases (resumed.idsOfType .class) resumed).1 :=
    tally_related Upgrading.refl Upgrading.trans upgrading_upgradeBases _ _
  rw [stages.upgrade] at upgrade
  exact upgrade.trans stages.upgrading_behind

theorem texts (id : EntityId) : (h.entity id).slots.map Base.text = (g.entity id).slots.map Base.text := by
  rw [stages.upgrading.texts, stages.resuming.slots]

theorem answered (isClass : (h.entity id).type = .class) : Answered resumed id h := by
  have upgrade := tally_establishes (p := fun id k => Upgrading resumed k ∧ Answered resumed id k) Upgrading.refl
    Upgrading.trans upgrading_upgradeBases
    (fun next before => ⟨before.1.trans next, before.2.next before.1.rebased next⟩)
    (fun k upgrading id _ => ⟨upgrading.trans (upgrading_upgradeBases k id), answered_upgradeBases upgrading id⟩) id
    (stages.mem_classes isClass)
  rw [stages.upgrade] at upgrade
  exact upgrade.2.next upgrade.1.rebased stages.upgrading_behind

theorem looked (isClass : (h.entity id).type = .class) (above : h.IsParent parent id) {base : Base}
    (slot : base ∈ (h.entity id).slots) (segment : IsSegment base.text) :
    h.upgradeBase id parent base = base := by
  have rebased := stages.upgrading.rebased
  -- The base stands where it stood before, and has kept its text since.
  obtain ⟨i, found⟩ := List.mem_iff_getElem?.mp slot
  have written : ((resumed.entity id).slots.map Base.text)[i]? = some base.text := by
    rw [stages.resuming.slots, ← stages.texts, List.getElem?_map, found, Option.map_some]
  rw [List.getElem?_map, Option.map_eq_some_iff] at written
  obtain ⟨former, foundBefore, text⟩ := written
  have ignores := resumed.ignoresBases_of_isSegment parent (text ▸ segment)
  rw [rebased.sameTree.isParent] at above
  have answer := stages.answered isClass parent i former above foundBefore ignores
  rw [found] at answer
  rw [Option.some.inj answer, rebased.upgradeBase id (by rwa [text_upgradeBase]), upgradeBase_upgradeBase]

end Stages

/-- Behind a run that ends in finishing the graph, a base that is written as a single name is known if
the scope in which the class is now binds the name to another class, itself or by an alias, or if the
name leads to another class from there in any other way. -/
theorem run_forwardBases {options : Options} {calls : List Call} {s : Summary}
    (admits : (empty options).Admits calls) (finished : (run (empty options) calls).finish = .ok (h, s))
    (isClass : (h.entity id).type = .class) (above : (h.entity id).parent = some parent) {base : Base}
    (slot : base ∈ (h.entity id).slots) (segment : IsSegment base.text) :
    (∀ found, h.resolveIn parent base.text = some found → found ≠ id → (h.entity found).type = .class →
      base.target.isSome) ∧
    (h.Dotless → (h.entity parent).isContainer = true →
      ∀ found, h.ownBinding? parent base.text = some (h.fullName found) → found ≠ id →
        (h.entity found).type = .class → base.target.isSome) := by
  obtain ⟨resumed, upgraded, linked, ordered, stages⟩ := finish_stages finished
  have known (found : EntityId) (resolved : h.resolveIn parent base.text = some found)
      (other : found ≠ id) (type : (h.entity found).type = .class) : base.target.isSome := by
    by_contra unknown
    rw [Option.not_isSome_iff_eq_none] at unknown
    have looked := stages.looked isClass above slot segment
    have findable : h.Findable id parent base := ⟨unknown, found, resolved, other, type⟩
    have known := target_upgradeBase_of_findable findable
    rw [looked, unknown] at known
    cases known
  refine ⟨known, fun dotless container found bound other type => ?_⟩
  have before := path_run (sound_empty options) admits
  have path := before.trans (stages.path (before.sound (sound_empty options)))
  have lockStep := path.lockStep (sound_empty options) (registered_empty options) dotless
  have inside : h.Has found := h.has_of_type (by rw [type]; decide)
  exact known found (resolveIn_of_bound lockStep container segment inside bound) other type

/-- A class in front of its base, and a module that re-exports one of the two. -/
def forwardBase (exported : String) : List Call :=
  [.addModule "m" false, .addModule "n" false,
    .build Hook.standard ⟨0⟩ (.ok
      { body :=
          [.classDef { name := "B", bases := [.name "A"], line := 1 } [],
            .classDef { name := "A", line := 2 } []] }),
    .build Hook.standard ⟨1⟩ (.ok
      { body :=
          [.assign [.name "__all__"] (.list [.str exported]) none 1,
            .importFrom (some "m") [⟨exported, none⟩] 0 2] })]

/-- The base is moved, and is found by the alias that is left for it. -/
theorem run_forwardBases_baseMoved :
    ∃ h s base, (run (empty {}) (forwardBase "A")).finish = .ok (h, s) ∧
      (h.entity ⟨2⟩).slots.head? = some base ∧ base.text = "A" ∧
      h.ownBinding? ⟨0⟩ "A" = some "n.A" ∧ base.target.isSome := by
  have admits : (empty {}).Admits (forwardBase "A") :=
    ⟨trivial, trivial, Hook.describes_standard, Hook.describes_standard, trivial⟩
  have facts : ∃ result ∈ (run (empty {}) (forwardBase "A")).finish.toOption,
      result.1.Dotless ∧ (result.1.entity ⟨2⟩).type = .class ∧ (result.1.entity ⟨2⟩).parent = some ⟨0⟩ ∧
      (result.1.entity ⟨2⟩).slots.head?.map Base.text = some "A" ∧
      (result.1.entity ⟨0⟩).isContainer = true ∧ result.1.ownBinding? ⟨0⟩ "A" = some "n.A" ∧
      result.1.fullName ⟨3⟩ = "n.A" ∧ (result.1.entity ⟨3⟩).type = .class := by decide +kernel
  obtain ⟨⟨h, s⟩, result, dotless, isClass, above, slot, container, bound, moved, type⟩ := facts
  have finished := eq_ok_of_toOption result
  obtain ⟨base, slot, text⟩ := Option.map_eq_some_iff.mp slot
  have segment : IsSegment base.text := by
    rw [text]
    decide
  have known := (run_forwardBases admits finished isClass above (List.mem_of_head? slot) segment).2
    dotless container ⟨3⟩ (by rw [text, bound, moved]) (by decide) type
  exact ⟨h, s, base, finished, slot, text, bound, known⟩

/-- The class is moved, and its base is not found where it is now. -/
theorem run_forwardBaseLost :
    ((run (empty {}) ((forwardBase "B").take 3)).entity ⟨0⟩).contents.get? "A" = some ⟨3⟩ ∧
    ((run (empty {}) ((forwardBase "B").take 3)).entity ⟨3⟩).type = .class ∧
    (run (empty {}) (forwardBase "B" ++ [.finish])).pendingModules = [] ∧
    ((run (empty {}) (forwardBase "B" ++ [.finish])).entity ⟨0⟩).contents.get? "A" = some ⟨3⟩ ∧
    ((run (empty {}) (forwardBase "B" ++ [.finish])).entity ⟨2⟩).slots.map
      (fun base => (base.text, base.target)) = [("A", none)] := by
  decide +kernel

end Graph

end DocGraph
