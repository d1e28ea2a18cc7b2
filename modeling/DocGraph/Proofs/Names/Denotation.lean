import Mathlib.Logic.Relation
import DocGraph.Proofs.Registry.Segment
import DocGraph.Proofs.Run.Trace

namespace DocGraph.Graph

open Dotted (IsSegment)

variable {g : Graph} {name other : String} {id : EntityId} {height budget count limit : Nat}

/-- What a name denotes, and the height of the derivation that says so. -/
inductive Denotes (g : Graph) : Nat → String → EntityId → Prop
  | registered {name : String} {id : EntityId} (listed : g.lookup name = some id) : Denotes g 0 name id
  | child {height : Nat} {name qualifier segment : String} {owner id : EntityId}
      (unlisted : g.lookup name = none) (cut : name = Dotted.extend qualifier segment)
      (whole : IsSegment segment) (above : Denotes g height qualifier owner)
      (bound : (g.entity owner).contents.get? segment = some id) : Denotes g (height + 1) name id
  | aliased {height further : Nat} {name qualifier segment target : String} {owner id : EntityId}
      (unlisted : g.lookup name = none) (cut : name = Dotted.extend qualifier segment)
      (whole : IsSegment segment) (above : Denotes g height qualifier owner)
      (unbound : (g.entity owner).contents.get? segment = none)
      (entry : (g.entity owner).aliases[segment]? = some target) (apart : target ≠ name)
      (onward : Denotes g further target id) : Denotes g (max height further + 1) name id

theorem denotes_of_resolveWithin (resolved : g.resolveWithin budget name = some id) :
    ∃ height < budget, g.Denotes height name id := by
  induction budget generalizing name id with
  | zero => cases resolved
  | succ budget ih =>
      rw [resolveWithin] at resolved
      split at resolved
      · rename_i listed
        cases resolved
        exact ⟨0, Nat.succ_pos budget, .registered listed⟩
      · rename_i unlisted
        split at resolved
        · cases resolved
        · rename_i qualifier segment parted
          obtain ⟨cut, whole⟩ := Dotted.qualifier?_eq_some parted
          split at resolved
          · cases resolved
          · rename_i owner found
            obtain ⟨height, low, above⟩ := ih found
            split at resolved
            · rename_i bound
              cases resolved
              exact ⟨height + 1, by omega, .child unlisted cut whole above bound⟩
            · rename_i unbound
              split at resolved
              · cases resolved
              · rename_i target entry
                split at resolved
                · cases resolved
                · rename_i apart
                  obtain ⟨further, near, onward⟩ := ih resolved
                  exact ⟨max height further + 1, by omega,
                    .aliased unlisted cut whole above unbound entry apart onward⟩

theorem Denotes.resolveWithin (denotes : g.Denotes height name id) (low : height < budget) :
    g.resolveWithin budget name = some id := by
  induction denotes generalizing budget with
  | registered listed =>
      obtain ⟨rest, rfl⟩ : ∃ rest, budget = rest + 1 := ⟨budget - 1, by omega⟩
      simp [Graph.resolveWithin, listed]
  | @child height name qualifier segment owner id unlisted cut whole _ bound above =>
      obtain ⟨rest, rfl⟩ : ∃ rest, budget = rest + 1 := ⟨budget - 1, by omega⟩
      have parted : Dotted.qualifier? name = some (qualifier, segment) := cut ▸ Dotted.qualifier?_extend whole _
      have found : g.resolveWithin rest qualifier = some owner := above (by omega)
      simp [Graph.resolveWithin, unlisted, parted, found, bound]
  | @aliased height further name qualifier segment target owner id unlisted cut whole _ unbound entry apart _
      above onward =>
      obtain ⟨rest, rfl⟩ : ∃ rest, budget = rest + 1 := ⟨budget - 1, by omega⟩
      have parted : Dotted.qualifier? name = some (qualifier, segment) := cut ▸ Dotted.qualifier?_extend whole _
      have found : g.resolveWithin rest qualifier = some owner := above (by omega)
      have reached : g.resolveWithin rest target = some id := onward (by omega)
      simp [Graph.resolveWithin, unlisted, parted, found, unbound, entry, apart, reached]

/-- Resolution within a budget finds what has a derivation that is lower than the budget. -/
theorem resolveWithin_eq_some_iff :
    g.resolveWithin budget name = some id ↔ ∃ height < budget, g.Denotes height name id := by
  refine ⟨denotes_of_resolveWithin, ?_⟩
  rintro ⟨height, low, denotes⟩
  exact denotes.resolveWithin low

theorem Denotes.unique {further : Nat} {found : EntityId} (first : g.Denotes height name id)
    (second : g.Denotes further name found) : id = found := by
  have low : height < max height further + 1 := by omega
  have near : further < max height further + 1 := by omega
  exact Option.some.inj ((first.resolveWithin low).symm.trans (second.resolveWithin near))

/-- The graph with another limit on how far names are followed. -/
def withLimit (g : Graph) (limit : Nat) : Graph :=
  { g with options := { g.options with maxAliasDepth := limit } }

theorem resolveWithin_withLimit (g : Graph) (limit budget : Nat) (name : String) :
    (g.withLimit limit).resolveWithin budget name = g.resolveWithin budget name := by
  induction budget generalizing name with
  | zero => rfl
  | succ budget ih =>
      unfold resolveWithin
      simp only [ih]
      rfl

theorem resolve_withLimit_eq_some_iff :
    (g.withLimit limit).resolve name = some id ↔ ∃ height ≤ limit, g.Denotes height name id := by
  rw [resolve, resolveWithin_withLimit, resolveWithin_eq_some_iff]
  simp only [withLimit, Nat.lt_succ_iff]

/-- A name that aliases lead to an entity, one after the other. Each stands in the table of an entity that is
registered itself, such as a root module. -/
inductive AliasChain (g : Graph) : Nat → String → EntityId → Prop
  | registered {name : String} {id : EntityId} (listed : g.lookup name = some id) : AliasChain g 0 name id
  | link {count : Nat} {name qualifier segment target : String} {owner id : EntityId}
      (unlisted : g.lookup name = none) (cut : name = Dotted.extend qualifier segment)
      (whole : IsSegment segment) (listed : g.lookup qualifier = some owner)
      (unbound : (g.entity owner).contents.get? segment = none)
      (entry : (g.entity owner).aliases[segment]? = some target) (onward : AliasChain g count target id) :
      AliasChain g (count + 1) name id

theorem denotes_iff_of_lookup (listed : g.lookup name = some id) {found : EntityId} :
    g.Denotes height name found ↔ height = 0 ∧ found = id := by
  constructor
  · intro denotes
    cases denotes with
    | registered again => exact ⟨rfl, Option.some.inj (again.symm.trans listed)⟩
    | child unlisted | aliased unlisted =>
        rw [listed] at unlisted
        cases unlisted
  · rintro ⟨rfl, rfl⟩
    exact .registered listed

/-- The links of a chain are the height of the one derivation that its name has. -/
theorem AliasChain.denotes_iff (chain : g.AliasChain count name id) {found : EntityId} :
    g.Denotes height name found ↔ height = count ∧ found = id := by
  induction chain generalizing height found with
  | registered listed => exact denotes_iff_of_lookup listed
  | @link count name qualifier segment target owner id unlisted cut whole listed unbound entry _ ih =>
      -- Any derivation goes to the owner at once, and from there to what the alias says.
      have onward {height : Nat} {found : EntityId} (denotes : g.Denotes height name found) :
          target ≠ name ∧ ∃ further, height = further + 1 ∧ g.Denotes further target found := by
        cases denotes with
        | registered again =>
            rw [unlisted] at again
            cases again
        | child _ again wholly above bound =>
            obtain ⟨rfl, rfl⟩ := Dotted.extend_injective whole wholly (cut.symm.trans again)
            obtain ⟨_, rfl⟩ := (denotes_iff_of_lookup listed).mp above
            rw [unbound] at bound
            cases bound
        | @aliased _ further _ _ _ _ _ _ _ again wholly above _ other apart onward =>
            obtain ⟨rfl, rfl⟩ := Dotted.extend_injective whole wholly (cut.symm.trans again)
            obtain ⟨rfl, rfl⟩ := (denotes_iff_of_lookup listed).mp above
            obtain rfl : target = _ := Option.some.inj (entry.symm.trans other)
            exact ⟨apart, further, by omega, onward⟩
      constructor
      · intro denotes
        obtain ⟨_, further, rfl, further⟩ := onward denotes
        obtain ⟨rfl, rfl⟩ := ih.mp further
        exact ⟨rfl, rfl⟩
      · rintro ⟨rfl, rfl⟩
        have further : g.Denotes count target _ := ih.mpr ⟨rfl, rfl⟩
        have apart : target ≠ name := by
          rintro rfl
          exact (onward further).1 rfl
        have denotes := Denotes.aliased unlisted cut whole (.registered listed) unbound entry apart further
        rwa [Nat.zero_max] at denotes

theorem AliasChain.resolve_withLimit (chain : g.AliasChain count name id) (limit : Nat) :
    (g.withLimit limit).resolve name = if count ≤ limit then some id else none := by
  refine Option.ext fun found => ?_
  rw [resolve_withLimit_eq_some_iff]
  simp only [chain.denotes_iff]
  split
  · rename_i short
    simp [short, eq_comm]
  · rename_i long
    simpa using fun low => absurd low long

/-- What has to denote something before a name does: its qualifier, and the target of the alias it is. -/
inductive Needs (g : Graph) : String → String → Prop
  | qualifier {name qualifier segment : String} (unlisted : g.lookup name = none)
      (cut : name = Dotted.extend qualifier segment) (whole : IsSegment segment) : Needs g name qualifier
  | target {height : Nat} {name qualifier segment target : String} {owner : EntityId}
      (unlisted : g.lookup name = none) (cut : name = Dotted.extend qualifier segment)
      (whole : IsSegment segment) (above : g.Denotes height qualifier owner)
      (unbound : (g.entity owner).contents.get? segment = none)
      (entry : (g.entity owner).aliases[segment]? = some target) : Needs g name target

theorem Needs.denotes (needs : g.Needs name other) (denotes : g.Denotes height name id) :
    ∃ lower < height, ∃ found, g.Denotes lower other found := by
  cases denotes with
  | registered listed =>
      cases needs with
      | qualifier unlisted | target unlisted =>
          rw [listed] at unlisted
          cases unlisted
  | child _ cut whole above bound =>
      cases needs with
      | qualifier _ again wholly =>
          obtain ⟨rfl, rfl⟩ := Dotted.extend_injective whole wholly (cut.symm.trans again)
          exact ⟨_, Nat.lt_succ_self _, _, above⟩
      | target _ again wholly other unbound =>
          obtain ⟨rfl, rfl⟩ := Dotted.extend_injective whole wholly (cut.symm.trans again)
          obtain rfl := above.unique other
          rw [unbound] at bound
          cases bound
  | aliased _ cut whole above _ entry _ onward =>
      cases needs with
      | qualifier _ again wholly =>
          obtain ⟨rfl, rfl⟩ := Dotted.extend_injective whole wholly (cut.symm.trans again)
          exact ⟨_, by omega, _, above⟩
      | target _ again wholly other _ entry' =>
          obtain ⟨rfl, rfl⟩ := Dotted.extend_injective whole wholly (cut.symm.trans again)
          obtain rfl := above.unique other
          obtain rfl := Option.some.inj (entry.symm.trans entry')
          exact ⟨_, by omega, _, onward⟩

theorem denotes_of_needs (needs : Relation.TransGen g.Needs name other) (denotes : g.Denotes height name id) :
    ∃ lower < height, ∃ found, g.Denotes lower other found := by
  induction needs with
  | single needs => exact needs.denotes denotes
  | tail _ needs ih =>
      obtain ⟨middle, below, _, reached⟩ := ih
      obtain ⟨lower, least, found, denotes⟩ := needs.denotes reached
      exact ⟨lower, by omega, found, denotes⟩

theorem not_denotes_of_circle (circle : Relation.TransGen g.Needs name name) : ¬ g.Denotes height name id := by
  induction height using Nat.strong_induction_on generalizing id with
  | h height ih =>
      intro denotes
      obtain ⟨lower, below, _, again⟩ := denotes_of_needs circle denotes
      exact ih lower below again

/-- A name that leads into a circle denotes nothing. -/
theorem not_denotes_of_needs_circle (needs : Relation.ReflTransGen g.Needs name other)
    (circle : Relation.TransGen g.Needs other other) : ¬ g.Denotes height name id := by
  intro denotes
  rcases Relation.reflTransGen_iff_eq_or_transGen.mp needs with rfl | needs
  · exact not_denotes_of_circle circle denotes
  · obtain ⟨_, _, _, denotes⟩ := denotes_of_needs needs denotes
    exact not_denotes_of_circle circle denotes

/-- A name resolves to what it denotes by a derivation within the limit. A higher limit loses nothing; a chain
of aliases takes a limit of as many as it has; and a name that leads into a circle resolves at no limit. -/
theorem resolve_exact (g : Graph) (name : String) :
    (∀ id, g.resolve name = some id ↔ ∃ height ≤ g.options.maxAliasDepth, g.Denotes height name id) ∧
      (∀ limit ≥ g.options.maxAliasDepth, ∀ id, g.resolve name = some id →
        (g.withLimit limit).resolve name = some id) ∧
      (∀ count id, g.AliasChain count name id → ∀ limit,
        (g.withLimit limit).resolve name = if count ≤ limit then some id else none) ∧
      ∀ other, Relation.ReflTransGen g.Needs name other → Relation.TransGen g.Needs other other →
        ∀ limit, (g.withLimit limit).resolve name = none := by
  have exactly (id : EntityId) :
      g.resolve name = some id ↔ ∃ height ≤ g.options.maxAliasDepth, g.Denotes height name id :=
    resolve_withLimit_eq_some_iff (g := g)
  refine ⟨exactly, fun limit higher id resolved => ?_, fun count id chain => chain.resolve_withLimit,
    fun other needs circle limit => ?_⟩
  · obtain ⟨height, low, denotes⟩ := (exactly id).mp resolved
    exact resolve_withLimit_eq_some_iff.mpr ⟨height, low.trans higher, denotes⟩
  · refine Option.eq_none_iff_forall_ne_some.mpr fun id resolved => ?_
    obtain ⟨height, _, denotes⟩ := resolve_withLimit_eq_some_iff.mp resolved
    exact not_denotes_of_needs_circle needs circle denotes

/-- A class that two imports pass on, and two modules that import one name from each other. -/
def importsInTurn : List Call :=
  [.addModule "a" false, .addModule "b" false, .addModule "c" false, .addModule "d" false, .addModule "e" false,
    .build Hook.standard ⟨0⟩ (.ok { body := [.classDef { name := "X", line := 1 } []] }),
    .build Hook.standard ⟨1⟩ (.ok { body := [.importFrom (some "a") [⟨"X", some "Y"⟩] 0 1] }),
    .build Hook.standard ⟨2⟩ (.ok { body := [.importFrom (some "b") [⟨"Y", none⟩] 0 1] }),
    .build Hook.standard ⟨3⟩ (.ok { body := [.importFrom (some "e") [⟨"Z", none⟩] 0 1] }),
    .build Hook.standard ⟨4⟩ (.ok { body := [.importFrom (some "d") [⟨"Z", none⟩] 0 1] })]

theorem resolve_importsInTurn :
    (∀ limit, ((run (empty {}) importsInTurn).withLimit limit).resolve "c.Y" =
        if 2 ≤ limit then some ⟨5⟩ else none) ∧
      ∀ limit, ((run (empty {}) importsInTurn).withLimit limit).resolve "d.Z" = none := by
  have declared : (run (empty {}) importsInTurn).AliasChain 0 "a.X" ⟨5⟩ := .registered (by decide +kernel)
  have renamed : (run (empty {}) importsInTurn).AliasChain 1 "b.Y" ⟨5⟩ := by
    refine .link ?_ (by decide : _ = Dotted.extend "b" "Y") ?_ (?_ : _ = some ⟨1⟩) ?_ ?_ declared <;> decide +kernel
  have passedOn : (run (empty {}) importsInTurn).AliasChain 2 "c.Y" ⟨5⟩ := by
    refine .link ?_ (by decide : _ = Dotted.extend "c" "Y") ?_ (?_ : _ = some ⟨2⟩) ?_ ?_ renamed <;> decide +kernel
  have there : (run (empty {}) importsInTurn).Needs "d.Z" "e.Z" := by
    refine .target ?_ (by decide : _ = Dotted.extend "d" "Z") ?_ (.registered (?_ : _ = some ⟨3⟩)) ?_ ?_ <;>
      decide +kernel
  have back : (run (empty {}) importsInTurn).Needs "e.Z" "d.Z" := by
    refine .target ?_ (by decide : _ = Dotted.extend "e" "Z") ?_ (.registered (?_ : _ = some ⟨4⟩)) ?_ ?_ <;>
      decide +kernel
  exact ⟨(resolve_exact _ "c.Y").2.2.1 2 ⟨5⟩ passedOn,
    (resolve_exact _ "d.Z").2.2.2 "d.Z" .refl (.tail (.single there) back)⟩

end DocGraph.Graph
