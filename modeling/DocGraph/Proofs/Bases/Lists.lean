import DocGraph.Finish
import DocGraph.Walk.Definition

namespace DocGraph

/-- What the three lists say about one base. -/
structure Base where
  text : String
  expr : Expr
  name : String
  target : Option EntityId
deriving BEq, Repr

namespace BaseLists

variable {bases : BaseLists} {place : Nat}

/-- The lists are of one length, so that every base has a place in each of them. -/
structure Aligned (bases : BaseLists) : Prop where
  names : bases.names.length = bases.raw.length
  targets : bases.targets.length = bases.raw.length

theorem aligned_nil : Aligned {} := ⟨rfl, rfl⟩

/-- The bases one by one, as far as all three lists reach. -/
def slots (bases : BaseLists) : List Base :=
  List.zipWith (fun raw slot => { text := raw.text, expr := raw.expr, name := slot.1, target := slot.2 })
    bases.raw (bases.names.zip bases.targets)

theorem getElem?_slots {base : Base} : bases.slots[place]? = some base ↔
    bases.raw[place]? = some ⟨base.text, base.expr⟩ ∧ bases.names[place]? = some base.name ∧
      bases.targets[place]? = some base.target := by
  rw [slots, List.getElem?_zipWith_eq_some]
  constructor
  · rintro ⟨raw, ⟨name, target⟩, written, found, rfl⟩
    exact ⟨written, List.getElem?_zip_eq_some.mp found⟩
  · rintro ⟨written, found⟩
    exact ⟨_, (base.name, base.target), written, List.getElem?_zip_eq_some.mpr found, rfl⟩

/-- The three lists of some bases. -/
def ofSlots (slots : List Base) : BaseLists :=
  { raw := slots.map fun base => ⟨base.text, base.expr⟩, names := slots.map Base.name
    targets := slots.map Base.target }

theorem aligned_ofSlots (slots : List Base) : (ofSlots slots).Aligned := by
  constructor <;> simp [ofSlots]

@[simp] theorem slots_ofSlots (slots : List Base) : (ofSlots slots).slots = slots :=
  List.ext_getElem (by simp [ofSlots, BaseLists.slots]) (by simp [ofSlots, BaseLists.slots])

@[simp] theorem known_ofSlots (slots : List Base) : (ofSlots slots).known = slots.filterMap Base.target := by
  simp [known, ofSlots, List.filterMap_map]

theorem Aligned.map_name (aligned : bases.Aligned) : bases.slots.map Base.name = bases.names := by
  refine List.ext_getElem (by simp [slots, aligned.names, aligned.targets]) fun place below _ => ?_
  simp [slots]

theorem mem_known {id : EntityId} : id ∈ bases.known ↔ ∃ place : Nat, bases.targets[place]? = some (some id) := by
  simp [known, ← List.mem_iff_getElem?]

theorem mem_unknown {text : String} : (place, text) ∈ bases.unknown ↔
    bases.targets[place]? = some none ∧ ∃ raw, bases.raw[place]? = some raw ∧ raw.text = text := by
  rw [unknown, List.mem_filterMap]
  constructor
  · rintro ⟨⟨target, at_⟩, among, found⟩
    rw [List.mem_zipIdx_iff_getElem?] at among
    split at found
    · rename_i missing
      obtain ⟨raw, written, pair⟩ := Option.map_eq_some_iff.mp found
      cases pair
      exact ⟨by rw [among, Option.isNone_iff_eq_none.mp missing], raw, written, rfl⟩
    · cases found
  · rintro ⟨missing, raw, written, rfl⟩
    exact ⟨(none, place), List.mem_zipIdx_iff_getElem?.mpr missing, by simp [written]⟩

theorem Aligned.lt_of_unknown (aligned : bases.Aligned) {base : Nat × String} (among : base ∈ bases.unknown) :
    base.1 < bases.names.length ∧ base.1 < bases.targets.length := by
  obtain ⟨_, raw, written, _⟩ := mem_unknown.mp among
  have below := (List.getElem?_eq_some_iff.mp written).1
  rw [aligned.names, aligned.targets]
  exact ⟨below, below⟩

theorem nodup_unknown (bases : BaseLists) : (bases.unknown.map Prod.fst).Nodup := by
  have places : bases.targets.zipIdx.Pairwise fun left right => left.2 < right.2 := by
    rw [← List.pairwise_map, List.zipIdx_map_snd]
    exact List.pairwise_lt_range'
  have unknown : bases.unknown.Pairwise fun left right => left.1 < right.1 := by
    refine places.filterMap _ fun left right below => ?_
    intro first found second later
    have place {slot : Option EntityId × Nat} {base : Nat × String}
        (found : (if slot.1.isNone then bases.raw[slot.2]?.map fun raw => (slot.2, raw.text) else none) = some base) :
        base.1 = slot.2 := by
      split at found
      · obtain ⟨raw, _, rfl⟩ := Option.map_eq_some_iff.mp found
        rfl
      · cases found
    rwa [place found, place later]
  rw [List.Nodup, List.pairwise_map]
  exact unknown.imp Nat.ne_of_lt

section settle

variable (bases : BaseLists) (name : EntityId → String)

theorem raw_settleAll (found : List (Nat × EntityId)) : (bases.settleAll name found).raw = bases.raw := by
  induction found generalizing bases with
  | nil => rfl
  | cons base rest ih => exact ih _

theorem length_names_settleAll (found : List (Nat × EntityId)) :
    (bases.settleAll name found).names.length = bases.names.length := by
  induction found generalizing bases with
  | nil => rfl
  | cons base rest ih => exact (ih _).trans (List.length_set ..)

theorem length_targets_settleAll (found : List (Nat × EntityId)) :
    (bases.settleAll name found).targets.length = bases.targets.length := by
  induction found generalizing bases with
  | nil => rfl
  | cons base rest ih => exact (ih _).trans (List.length_set ..)

theorem Aligned.settleAll {bases : BaseLists} (aligned : bases.Aligned) (found : List (Nat × EntityId)) :
    (bases.settleAll name found).Aligned := by
  constructor
  · rw [length_names_settleAll, raw_settleAll, aligned.names]
  · rw [length_targets_settleAll, raw_settleAll, aligned.targets]

theorem settleAll_of_not_mem {found : List (Nat × EntityId)} (outside : place ∉ found.map Prod.fst) :
    (bases.settleAll name found).names[place]? = bases.names[place]? ∧
      (bases.settleAll name found).targets[place]? = bases.targets[place]? := by
  induction found generalizing bases with
  | nil => exact ⟨rfl, rfl⟩
  | cons base rest ih =>
      rw [List.map_cons, List.mem_cons, not_or] at outside
      obtain ⟨names, targets⟩ := ih (bases.settle base.1 (name base.2) base.2) outside.2
      exact ⟨names.trans (List.getElem?_set_ne (Ne.symm outside.1)),
        targets.trans (List.getElem?_set_ne (Ne.symm outside.1))⟩

theorem settleAll_of_mem {found : List (Nat × EntityId)} {target : EntityId} (apart : (found.map Prod.fst).Nodup)
    (among : (place, target) ∈ found) :
    (bases.settleAll name found).names[place]? = bases.names[place]?.map (fun _ => name target) ∧
      (bases.settleAll name found).targets[place]? = bases.targets[place]?.map fun _ => some target := by
  induction found generalizing bases with
  | nil => cases among
  | cons base rest ih =>
      rw [List.map_cons, List.nodup_cons] at apart
      rcases List.mem_cons.mp among with rfl | among
      · obtain ⟨names, targets⟩ :=
          settleAll_of_not_mem (bases.settle place (name target) target) name apart.1
        exact ⟨names.trans (List.getElem?_set_self' ..), targets.trans (List.getElem?_set_self' ..)⟩
      · have other : place ≠ base.1 := fun same =>
          apart.1 (same ▸ List.mem_map.mpr ⟨(place, target), among, rfl⟩)
        obtain ⟨names, targets⟩ := ih (bases.settle base.1 (name base.2) base.2) apart.2 among
        exact ⟨names.trans (congrArg _ (List.getElem?_set_ne other.symm)),
          targets.trans (congrArg _ (List.getElem?_set_ne other.symm))⟩

end settle

end BaseLists

namespace Graph

variable {g : Graph} {id parent : EntityId} {bases : BaseLists}

/-- One base of a class, its name looked up in the scope of the class. -/
def readSlot (g : Graph) (scope : EntityId) (expr : Expr) : Base :=
  let text := expr.subscripted.dotted?.getD expr.render
  let name := g.expand scope text
  { text, expr, name, target := (g.resolve name).filter fun id => (g.entity id).type == .class }

theorem readBase_ofSlots (g : Graph) (scope : EntityId) (slots : List Base) (expr : Expr) :
    g.readBase scope (.ofSlots slots) expr = .ofSlots (slots ++ [g.readSlot scope expr]) := by
  simp [readBase, BaseLists.push, BaseLists.ofSlots, readSlot]

theorem readBases_eq (g : Graph) (scope : EntityId) (exprs : List Expr) :
    exprs.foldl (g.readBase scope) {} = .ofSlots (exprs.map (g.readSlot scope)) := by
  have behind (slots : List Base) : exprs.foldl (g.readBase scope) (.ofSlots slots) =
      .ofSlots (slots ++ exprs.map (g.readSlot scope)) := by
    induction exprs generalizing slots with
    | nil => simp
    | cons expr rest ih => rw [List.foldl_cons, readBase_ofSlots, ih, List.append_assoc, List.singleton_append, List.map_cons]
  exact behind []

/-- Looks up a base that is not known; only a class other than `id` will do. -/
def upgradeBase (g : Graph) (id parent : EntityId) (base : Base) : Base :=
  match base.target with
  | some _ => base
  | none =>
      match g.resolveIn parent base.text with
      | none => base
      | some found =>
          if found ≠ id ∧ (g.entity found).type = .class then
            { base with name := g.fullName found, target := some found }
          else base

theorem foundBase?_eq_some {base : Nat × String} {found : Nat × EntityId} :
    g.foundBase? id parent base = some found ↔ g.resolveIn parent base.2 = some found.2 ∧ found.1 = base.1 ∧
      found.2 ≠ id ∧ (g.entity found.2).type = .class := by
  obtain ⟨place, target⟩ := found
  unfold foundBase?
  split
  · rename_i missing
    simp [missing]
  · rename_i other resolved
    rw [resolved]
    constructor
    · intro found
      split at found
      · rename_i fits
        cases found
        exact ⟨rfl, rfl, fits⟩
      · cases found
    · rintro ⟨same, rfl, fits⟩
      cases same
      rw [if_pos fits]

theorem nodup_foundBases (g : Graph) (id parent : EntityId) (bases : BaseLists) :
    ((g.foundBases id parent bases).map Prod.fst).Nodup := by
  have apart := bases.nodup_unknown
  rw [List.Nodup, List.pairwise_map] at apart ⊢
  refine apart.filterMap _ fun left right apart => ?_
  intro first found second later
  rw [(foundBase?_eq_some.mp found).2.1, (foundBase?_eq_some.mp later).2.1]
  exact apart

theorem mem_foundBases {place : Nat} {target : EntityId} : (place, target) ∈ g.foundBases id parent bases ↔
    bases.targets[place]? = some none ∧ (∃ raw, bases.raw[place]? = some raw ∧
      g.resolveIn parent raw.text = some target) ∧ target ≠ id ∧ (g.entity target).type = .class := by
  rw [foundBases, List.mem_filterMap]
  constructor
  · rintro ⟨⟨at_, text⟩, among, found⟩
    obtain ⟨resolved, same, fits⟩ := foundBase?_eq_some.mp found
    obtain ⟨missing, raw, written, rfl⟩ := BaseLists.mem_unknown.mp among
    cases same
    exact ⟨missing, ⟨raw, written, resolved⟩, fits⟩
  · rintro ⟨missing, ⟨raw, written, resolved⟩, fits⟩
    exact ⟨(place, raw.text), BaseLists.mem_unknown.mpr ⟨missing, raw, written, rfl⟩,
      foundBase?_eq_some.mpr ⟨resolved, rfl, fits⟩⟩

/-- The bases of a class once those that can be found are known. -/
def upgraded (g : Graph) (id parent : EntityId) (bases : BaseLists) : BaseLists :=
  bases.settleAll g.fullName (g.foundBases id parent bases)

theorem upgradeBase_of_found {base : Base} {target : EntityId} (unknown : base.target = none)
    (resolved : g.resolveIn parent base.text = some target) (fits : target ≠ id ∧ (g.entity target).type = .class) :
    g.upgradeBase id parent base = { base with name := g.fullName target, target := some target } := by
  simp [upgradeBase, unknown, resolved, fits]

theorem upgradeBase_of_missing {base : Base} (missing : ∀ target, base.target = none →
    g.resolveIn parent base.text = some target → ¬ (target ≠ id ∧ (g.entity target).type = .class)) :
    g.upgradeBase id parent base = base := by
  unfold upgradeBase
  split
  · rfl
  · rename_i unknown
    split
    · rfl
    · rename_i target resolved
      rw [if_neg (missing target unknown resolved)]

theorem slots_upgraded (g : Graph) (id parent : EntityId) (bases : BaseLists) :
    (g.upgraded id parent bases).slots = bases.slots.map (g.upgradeBase id parent) := by
  refine List.ext_getElem ?_ fun place _ below => ?_
  · simp [BaseLists.slots, upgraded, bases.raw_settleAll, bases.length_names_settleAll, bases.length_targets_settleAll]
  rw [List.length_map] at below
  obtain ⟨written, named, denoted⟩ := BaseLists.getElem?_slots.mp (List.getElem?_eq_getElem below)
  rw [List.getElem_map, ← Option.some.injEq, ← List.getElem?_eq_getElem]
  generalize bases.slots[place] = base at written named denoted
  rw [BaseLists.getElem?_slots, upgraded, bases.raw_settleAll]
  by_cases found : ∃ target, (place, target) ∈ g.foundBases id parent bases
  · obtain ⟨target, found⟩ := found
    obtain ⟨unknown, ⟨raw, same, resolved⟩, fits⟩ := mem_foundBases.mp found
    cases written.symm.trans same
    obtain ⟨names, targets⟩ := bases.settleAll_of_mem g.fullName (g.nodup_foundBases id parent bases) found
    rw [upgradeBase_of_found (Option.some.inj (denoted.symm.trans unknown)) resolved fits, names, targets, named, denoted]
    exact ⟨written, rfl, rfl⟩
  · have outside : place ∉ (g.foundBases id parent bases).map Prod.fst := by simpa using found
    obtain ⟨names, targets⟩ := bases.settleAll_of_not_mem g.fullName outside
    rw [upgradeBase_of_missing, names, targets]
    · exact ⟨written, named, denoted⟩
    · exact fun target unknown resolved fits =>
        found ⟨target, mem_foundBases.mpr ⟨unknown ▸ denoted, ⟨_, written, resolved⟩, fits⟩⟩

theorem targets_upgraded {place : Nat} {target : EntityId}
    (known : (g.upgraded id parent bases).targets[place]? = some (some target)) :
    bases.targets[place]? = some (some target) ∨ (target ≠ id ∧ (g.entity target).type = .class) := by
  by_cases found : ∃ target, (place, target) ∈ g.foundBases id parent bases
  · obtain ⟨other, found⟩ := found
    rw [upgraded, (bases.settleAll_of_mem g.fullName (g.nodup_foundBases id parent bases) found).2] at known
    obtain ⟨_, _, same⟩ := Option.map_eq_some_iff.mp known
    cases same
    exact .inr (mem_foundBases.mp found).2.2
  · rw [upgraded, (bases.settleAll_of_not_mem g.fullName (by simpa using found)).2] at known
    exact .inl known

end Graph

end DocGraph
