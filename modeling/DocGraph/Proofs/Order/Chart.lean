import DocGraph.Proofs.Order.Spelled

/-!
A graph as a chart of names. What a name leads to hangs on the tables and the index alone, and where these
speak of modules and classes under words that matter, they can be read off as a map from names to what they
stand for. Looking a name up in the graph and on the chart comes to the same, and what is found on a chart is
found on every chart that has more on it, as long as no scope further in takes the name. A dotted name that goes
through a class may lead to inherited members, which are not on the chart, so only modules may be passed.
-/
namespace DocGraph

open Dotted (Spelled IsSegment spelled_extend)

theorem Dotted.qualifier?_of_isSegment {name : String} (whole : IsSegment name) : qualifier? name = none := by
  rw [qualifier?, cutLast?_eq_none.mpr whole]
  rfl

theorem Dotted.isSegment_or_extend (name : String) :
    IsSegment name ∨ ∃ front last, name = extend front last ∧ IsSegment last := by
  cases parted : qualifier? name with
  | none => exact .inl (cutLast?_eq_none.mp (Option.map_eq_none_iff.mp parted))
  | some pair => exact .inr ⟨pair.1, pair.2, qualifier?_eq_some parted⟩

/-- What a name stands for in a scope: something that stands there, or another full name. -/
inductive Holding where
  | child (type : EntityType)
  | alias (target : String)
deriving DecidableEq, Repr

/-- The full name that a name is bound to. -/
def Holding.fullName (scope name : String) : Holding → String
  | .child _ => Dotted.extend scope name
  | .alias target => target

/-- What is found under full names: at the root, and by a name in a scope. -/
structure Chart where
  root : String → Option EntityType
  held : String → String → Option Holding

namespace Chart

variable {c d : Chart} {words chain : List String} {name scope word found : String} {budget : Nat}

/-- The type of what has a full name. -/
def type? (c : Chart) (name : String) : Option EntityType :=
  match Dotted.qualifier? name with
  | none => c.root name
  | some (qualifier, last) =>
      match c.held qualifier last with
      | some (.child type) => some type
      | _ => none

/-- The full name that a name is bound to in a scope. -/
def own? (c : Chart) (scope name : String) : Option String := (c.held scope name).map (Holding.fullName scope name)

/-- The full name that a single name stands for, the scopes innermost first. -/
def localName (c : Chart) (name : String) : List String → String
  | [] => name
  | scope :: rest => (c.own? scope name).getD (c.localName name rest)

/-- The full name of what a name denotes. -/
def resolveWithin (c : Chart) : Nat → String → Option String
  | 0, _ => none
  | budget + 1, name =>
      if (c.type? name).isSome then some name
      else
        match Dotted.qualifier? name with
        | none => none
        | some (qualifier, last) =>
            match c.resolveWithin budget qualifier with
            | none => none
            | some scope =>
                match c.held scope last with
                | none => none
                | some (.child _) => some (Dotted.extend scope last)
                | some (.alias target) => if target = name then none else c.resolveWithin budget target

/-- The full name that a module binds to a name, unless this is the name itself. -/
def member? (c : Chart) (owner name : String) : Option String := (c.own? owner name).filter (· ≠ name)

/-- The full name of a dotted name that begins in a module, one segment after the other. -/
def expandMembers (c : Chart) (budget : Nat) (owner : String) : List String → String
  | [] => owner
  | name :: rest =>
      match c.member? owner name with
      | none => Dotted.join (Dotted.extend owner name :: rest)
      | some bound =>
          match c.resolveWithin budget bound with
          | none => Dotted.join (bound :: rest)
          | some next => c.expandMembers budget next rest

/-- The full name of a dotted name, the scopes innermost first. -/
def expand (c : Chart) (budget : Nat) (chain : List String) : List String → String
  | [] => ""
  | name :: rest =>
      match c.resolveWithin budget (c.localName name chain) with
      | none => Dotted.join (c.localName name chain :: rest)
      | some owner => c.expandMembers budget owner rest

/-- The class that a dotted name leads to. -/
def leads? (c : Chart) (budget : Nat) (chain : List String) (name : String) : Option String :=
  (c.resolveWithin budget (c.expand budget chain (Dotted.parts name))).filter fun found => c.type? found = some .class

/-- On its way through the segments, a dotted name passes modules only. -/
def through (c : Chart) (budget : Nat) (owner : String) : List String → Bool
  | [] => true
  | name :: rest =>
      c.type? owner = some .module && (c.member? owner name).all fun bound =>
        (c.resolveWithin budget bound).all fun next => c.through budget next rest

/-- The first segment is given in one of the scopes at most. If others follow, it stands for the module that has its
name, if there is one, and modules are all that is passed. -/
def clear (c : Chart) (budget : Nat) (chain : List String) : List String → Bool
  | [] => true
  | name :: rest =>
      chain.countP (fun scope => (c.held scope name).isSome) ≤ 1 &&
        (rest.isEmpty || (c.root name).isNone || c.localName name chain = name) &&
        (c.resolveWithin budget (c.localName name chain)).all fun owner => c.through budget owner rest

/-- All that is on one chart is on the other. -/
structure Le (words : List String) (c d : Chart) : Prop where
  root : ∀ {word}, word ∈ words → d.root word = c.root word
  held : ∀ {scope word holding}, Spelled words scope → word ∈ words → c.held scope word = some holding →
    d.held scope word = some holding

/-- A chart on which names that are spelled in the words lead to such names only, what has a qualifier stands
in something, and modules alone stand at the root. -/
structure Drawn (words : List String) (c : Chart) : Prop where
  closed : ∀ {scope word target}, Spelled words scope → word ∈ words →
    c.held scope word = some (.alias target) → Spelled words target
  grounded : ∀ {scope word type}, Spelled words scope → word ∈ words →
    c.held scope word = some (.child type) → (c.type? scope).isSome
  rooted : ∀ {word}, word ∈ words → c.root word ≠ some .class

theorem type?_extend (whole : IsSegment word) (scope : String) :
    c.type? (Dotted.extend scope word) =
      match c.held scope word with
      | some (.child type) => some type
      | _ => none := by
  rw [type?, Dotted.qualifier?_extend whole]

theorem type?_of_isSegment (whole : IsSegment name) : c.type? name = c.root name := by
  rw [type?, Dotted.qualifier?_of_isSegment whole]

theorem spelled_cases (spelled : Spelled words name) :
    (name ∈ words ∧ IsSegment name) ∨
      ∃ scope word, name = Dotted.extend scope word ∧ Spelled words scope ∧ word ∈ words := by
  rcases Dotted.isSegment_or_extend name with whole | ⟨scope, word, rfl, whole⟩
  · exact .inl ⟨(Dotted.spelled_of_isSegment whole).mp spelled, whole⟩
  · obtain ⟨front, last⟩ := spelled_extend.mp spelled
    exact .inr ⟨scope, word, rfl, front, (Dotted.spelled_of_isSegment whole).mp last⟩

theorem resolveWithin_eq_of_type? (known : (c.type? name).isSome)
    (resolved : c.resolveWithin budget name = some found) : found = name := by
  cases budget with
  | zero => cases resolved
  | succ budget =>
      rw [resolveWithin, if_pos known] at resolved
      exact (Option.some.inj resolved).symm

theorem resolveWithin_of_isSegment (whole : IsSegment name)
    (resolved : c.resolveWithin budget name = some found) : found = name ∧ (c.root name).isSome := by
  rw [← type?_of_isSegment whole]
  refine (em _).elim (fun known => ⟨resolveWithin_eq_of_type? known resolved, known⟩) fun unknown => ?_
  cases budget with
  | zero => cases resolved
  | succ budget => simp [resolveWithin, unknown, Dotted.qualifier?_of_isSegment whole] at resolved

/-- A name that is not a full name goes by what the name before its last segment denotes. -/
theorem resolveWithin_extend_eq_some (whole : IsSegment word) (unknown : ¬ (c.type? (Dotted.extend name word)).isSome) :
    c.resolveWithin (budget + 1) (Dotted.extend name word) = some found ↔
      ∃ scope, c.resolveWithin budget name = some scope ∧
        ((∃ type, c.held scope word = some (.child type) ∧ Dotted.extend scope word = found) ∨
          ∃ target, c.held scope word = some (.alias target) ∧ target ≠ Dotted.extend name word ∧
            c.resolveWithin budget target = some found) := by
  rw [resolveWithin, if_neg unknown, Dotted.qualifier?_extend whole]
  dsimp only
  cases c.resolveWithin budget name with
  | none => simp
  | some scope =>
      cases held : c.held scope word with
      | none => simp [held]
      | some holding => cases holding <;> simp [held]

theorem resolveWithin_succ (resolved : c.resolveWithin budget name = some found) :
    c.resolveWithin (budget + 1) name = some found := by
  induction budget generalizing name found with
  | zero => cases resolved
  | succ budget ih =>
      by_cases known : (c.type? name).isSome
      · obtain rfl := resolveWithin_eq_of_type? known resolved
        rw [resolveWithin, if_pos known]
      rcases Dotted.isSegment_or_extend name with whole | ⟨front, last, rfl, whole⟩
      · rw [type?_of_isSegment whole] at known
        exact absurd (resolveWithin_of_isSegment whole resolved).2 known
      · obtain ⟨scope, above, rest⟩ := (resolveWithin_extend_eq_some whole known).mp resolved
        refine (resolveWithin_extend_eq_some whole known).mpr ⟨scope, ih above, rest.imp_right ?_⟩
        rintro ⟨target, held, other, onward⟩
        exact ⟨target, held, other, ih onward⟩

theorem localName_of_unbound (unbound : ¬ ∃ scope ∈ chain, (c.held scope name).isSome) : c.localName name chain = name := by
  induction chain with
  | nil => rfl
  | cons scope rest ih =>
      simp only [List.mem_cons, exists_eq_or_imp, not_or, Option.not_isSome_iff_eq_none] at unbound
      rw [localName, own?, unbound.1]
      exact ih unbound.2

/-- A name that is bound in one scope of a chain only, where more is known, stands for what it stood for. -/
theorem localName_mono (le : c.Le words d) (scopes : ∀ scope ∈ chain, Spelled words scope) (member : word ∈ words)
    (single : chain.countP (fun scope => (d.held scope word).isSome) ≤ 1)
    (bound : ∃ scope ∈ chain, (c.held scope word).isSome) : d.localName word chain = c.localName word chain := by
  induction chain with
  | nil => simp at bound
  | cons scope rest ih =>
      have first := scopes scope List.mem_cons_self
      cases held : c.held scope word with
      | some holding => simp [localName, own?, held, le.held first member held]
      | none =>
          -- The name is bound further out, so the first scope does not bind it in the end.
          obtain ⟨outer, among, holds⟩ := bound
          rcases List.mem_cons.mp among with rfl | among
          · simp [held] at holds
          obtain ⟨holding, holds⟩ := Option.isSome_iff_exists.mp holds
          have later := le.held (scopes outer (List.mem_cons_of_mem _ among)) member holds
          have counted : 0 < rest.countP fun scope => (d.held scope word).isSome :=
            List.countP_pos_iff.mpr ⟨outer, among, by simp [later]⟩
          have unbound : d.held scope word = none := by
            by_contra taken
            rw [List.countP_cons_of_pos (by simpa [Option.isSome_iff_ne_none] using taken)] at single
            omega
          rw [List.countP_cons_of_neg (by simp [unbound])] at single
          simp only [localName, own?, held, unbound]
          exact ih (fun scope inner => scopes scope (List.mem_cons_of_mem _ inner)) single
            ⟨outer, among, Option.isSome_iff_exists.mpr ⟨_, holds⟩⟩

section drawn

variable (vocabulary : Vocabulary words) (drawn : c.Drawn words)

include vocabulary

theorem spelled_join {rest : List String} (spelled : Spelled words name) (members : ∀ word ∈ rest, word ∈ words) :
    Spelled words (Dotted.join (name :: rest)) := by
  induction rest generalizing name with
  | nil => simpa [Dotted.join] using spelled
  | cons word rest ih =>
      obtain ⟨member, members⟩ := List.forall_mem_cons.mp members
      rw [Dotted.join_cons_cons]
      exact ih (spelled_extend.mpr ⟨spelled, vocabulary.spelled member⟩) members

/-- A name that is spelled in the words, is not a full name and denotes something has a dot. -/
theorem resolveWithin_cases (spelled : Spelled words name) (unknown : ¬ (c.type? name).isSome)
    (resolved : c.resolveWithin (budget + 1) name = some found) :
    ∃ front last, name = Dotted.extend front last ∧ Spelled words front ∧ last ∈ words ∧
      ∃ scope, c.resolveWithin budget front = some scope ∧
        ((∃ type, c.held scope last = some (.child type) ∧ Dotted.extend scope last = found) ∨
          ∃ target, c.held scope last = some (.alias target) ∧ target ≠ name ∧
            c.resolveWithin budget target = some found) := by
  rcases spelled_cases spelled with ⟨_, whole⟩ | ⟨front, last, rfl, spelledFront, member⟩
  · rw [type?_of_isSegment whole] at unknown
    exact absurd (resolveWithin_of_isSegment whole resolved).2 unknown
  · exact ⟨front, last, rfl, spelledFront, member,
      (resolveWithin_extend_eq_some (vocabulary.segment last member) unknown).mp resolved⟩

include drawn

theorem spelled_own? (spelled : Spelled words scope) (member : word ∈ words) (bound : c.own? scope word = some name) :
    Spelled words name := by
  obtain ⟨holding, held, rfl⟩ := Option.map_eq_some_iff.mp bound
  cases holding with
  | child type => exact spelled_extend.mpr ⟨spelled, vocabulary.spelled member⟩
  | «alias» target => exact drawn.closed spelled member held

theorem spelled_localName (scopes : ∀ scope ∈ chain, Spelled words scope) (member : word ∈ words) :
    Spelled words (c.localName word chain) := by
  induction chain with
  | nil => exact vocabulary.spelled member
  | cons scope rest ih =>
      obtain ⟨first, scopes⟩ := List.forall_mem_cons.mp scopes
      rw [localName]
      cases bound : c.own? scope word with
      | none => exact ih scopes
      | some full => exact spelled_own? vocabulary drawn first member bound

theorem spelled_resolveWithin (spelled : Spelled words name) (resolved : c.resolveWithin budget name = some found) :
    Spelled words found ∧ (c.type? found).isSome := by
  induction budget generalizing name found with
  | zero => cases resolved
  | succ budget ih =>
      by_cases known : (c.type? name).isSome
      · obtain rfl := resolveWithin_eq_of_type? known resolved
        exact ⟨spelled, known⟩
      obtain ⟨front, last, rfl, spelledFront, member, scope, above, rest⟩ :=
        resolveWithin_cases vocabulary spelled known resolved
      have outer := (ih spelledFront above).1
      rcases rest with ⟨type, held, rfl⟩ | ⟨target, held, _, onward⟩
      · refine ⟨spelled_extend.mpr ⟨outer, vocabulary.spelled member⟩, ?_⟩
        rw [type?_extend (vocabulary.segment _ member), held]
        rfl
      · exact ih (drawn.closed outer member held) onward

/-- Behind a name that denotes nothing there is nothing to be found. -/
theorem resolveWithin_join {rest : List String} (spelled : Spelled words name) (members : ∀ word ∈ rest, word ∈ words)
    (unresolved : c.resolveWithin budget name = none) : c.resolveWithin budget (Dotted.join (name :: rest)) = none := by
  induction rest generalizing name with
  | nil => simpa [Dotted.join] using unresolved
  | cons word rest ih =>
      obtain ⟨member, members⟩ := List.forall_mem_cons.mp members
      have whole := vocabulary.segment word member
      rw [Dotted.join_cons_cons]
      refine ih (spelled_extend.mpr ⟨spelled, vocabulary.spelled member⟩) members ?_
      rw [Option.eq_none_iff_forall_ne_some]
      intro found resolved
      cases budget with
      | zero => cases resolved
      | succ budget =>
          by_cases known : (c.type? (Dotted.extend name word)).isSome
          · rw [type?_extend whole] at known
            split at known
            · rename_i held
              rw [resolveWithin, if_pos (drawn.grounded spelled member held)] at unresolved
              cases unresolved
            · cases known
          · obtain ⟨scope, above, _⟩ := (resolveWithin_extend_eq_some whole known).mp resolved
            cases unresolved.symm.trans (resolveWithin_succ above)

omit drawn in
theorem resolveWithin_extend_of_unheld (known : (c.type? scope).isSome) (member : word ∈ words)
    (unheld : c.held scope word = none) : c.resolveWithin budget (Dotted.extend scope word) = none := by
  have whole := vocabulary.segment word member
  rw [Option.eq_none_iff_forall_ne_some]
  intro found resolved
  cases budget with
  | zero => cases resolved
  | succ budget =>
      have unknown : ¬ (c.type? (Dotted.extend scope word)).isSome := by simp [type?_extend whole, unheld]
      obtain ⟨reached, above, rest⟩ := (resolveWithin_extend_eq_some whole unknown).mp resolved
      obtain rfl := resolveWithin_eq_of_type? known above
      simp [unheld] at rest

theorem spelled_expandMembers {owner : String} {rest : List String} (spelled : Spelled words owner)
    (members : ∀ word ∈ rest, word ∈ words) : Spelled words (c.expandMembers budget owner rest) := by
  induction rest generalizing owner with
  | nil => exact spelled
  | cons word rest ih =>
      obtain ⟨member, members⟩ := List.forall_mem_cons.mp members
      rw [expandMembers]
      cases own : c.member? owner word with
      | none => exact spelled_join vocabulary (spelled_extend.mpr ⟨spelled, vocabulary.spelled member⟩) members
      | some bound =>
          have onward := spelled_own? vocabulary drawn spelled member (Option.filter_eq_some_iff.mp own).1
          dsimp only
          cases resolved : c.resolveWithin budget bound with
          | none => exact spelled_join vocabulary onward members
          | some next => exact ih (spelled_resolveWithin vocabulary drawn onward resolved).1 members

theorem spelled_expand (scopes : ∀ scope ∈ chain, Spelled words scope) (spelled : Spelled words name) :
    Spelled words (c.expand budget chain (Dotted.parts name)) := by
  rw [Spelled] at spelled
  cases segments : Dotted.parts name with
  | nil => exact absurd segments (Dotted.parts_ne_nil name)
  | cons word rest =>
      rw [segments] at spelled
      obtain ⟨member, members⟩ := List.forall_mem_cons.mp spelled
      have first := spelled_localName vocabulary drawn scopes member
      rw [expand]
      cases resolved : c.resolveWithin budget (c.localName word chain) with
      | none => exact spelled_join vocabulary first members
      | some owner =>
          exact spelled_expandMembers vocabulary drawn (spelled_resolveWithin vocabulary drawn first resolved).1 members

end drawn

section mono

variable (vocabulary : Vocabulary words) (le : c.Le words d)

include vocabulary le

theorem type?_mono {type : EntityType} (spelled : Spelled words name) (found : c.type? name = some type) :
    d.type? name = some type := by
  rcases spelled_cases spelled with ⟨member, _⟩ | ⟨scope, word, rfl, front, member⟩
  · have whole := vocabulary.segment name member
    rw [type?_of_isSegment whole] at found ⊢
    rw [le.root member, found]
  · have whole := vocabulary.segment word member
    rw [type?_extend whole] at found ⊢
    cases held : c.held scope word with
    | none => simp [held] at found
    | some holding => rwa [le.held front member held, ← held]

theorem type?_eq (spelled : Spelled words name) (known : (c.type? name).isSome) : d.type? name = c.type? name := by
  obtain ⟨type, known⟩ := Option.isSome_iff_exists.mp known
  rw [known, type?_mono vocabulary le spelled known]

theorem Drawn.of_le (ge : d.Le words c) (drawn : c.Drawn words) : d.Drawn words where
  closed spelled member held := drawn.closed spelled member (ge.held spelled member held)
  grounded spelled member held := by
    have standing := drawn.grounded spelled member (ge.held spelled member held)
    rwa [type?_eq vocabulary le spelled standing]
  rooted member := by
    rw [le.root member]
    exact drawn.rooted member

variable (drawn : c.Drawn words) (more : d.Drawn words)

include drawn more

/-- What a name denotes on a chart, it denotes where more is known. -/
theorem resolveWithin_mono (spelled : Spelled words name) (resolved : c.resolveWithin budget name = some found) :
    d.resolveWithin budget name = some found := by
  induction budget generalizing name found with
  | zero => cases resolved
  | succ budget ih =>
      by_cases known : (c.type? name).isSome
      · obtain rfl := resolveWithin_eq_of_type? known resolved
        rw [resolveWithin, if_pos (by rwa [type?_eq vocabulary le spelled known])]
      obtain ⟨front, last, rfl, spelledFront, member, scope, above, rest⟩ :=
        resolveWithin_cases vocabulary spelled known resolved
      have whole := vocabulary.segment last member
      have aboveThere := ih spelledFront above
      have outer := (spelled_resolveWithin vocabulary drawn spelledFront above).1
      by_cases there : (d.type? (Dotted.extend front last)).isSome
      · -- If the name itself stands on the larger chart, so does the name before it, and is the scope then.
        have standing := there
        rw [type?_extend whole] at standing
        split at standing
        · rename_i type held
          obtain rfl := resolveWithin_eq_of_type? (more.grounded spelledFront member held) aboveThere
          rcases rest with ⟨_, _, rfl⟩ | ⟨target, other, _, _⟩
          · rw [resolveWithin, if_pos there]
          · cases held.symm.trans (le.held outer member other)
        · cases standing
      · refine (resolveWithin_extend_eq_some whole there).mpr ⟨scope, aboveThere, ?_⟩
        rcases rest with ⟨type, held, rfl⟩ | ⟨target, held, other, onward⟩
        · exact .inl ⟨type, le.held outer member held, rfl⟩
        · exact .inr ⟨target, le.held outer member held, other, ih (drawn.closed outer member held) onward⟩

omit vocabulary drawn more in
theorem member?_mono {owner bound : String} (spelled : Spelled words owner) (member : word ∈ words)
    (known : c.member? owner word = some bound) : d.member? owner word = some bound := by
  obtain ⟨own, other⟩ := Option.filter_eq_some_iff.mp known
  obtain ⟨holding, held, rfl⟩ := Option.map_eq_some_iff.mp own
  rw [member?, own?, le.held spelled member held]
  exact Option.filter_eq_some_iff.mpr ⟨rfl, other⟩

/-- A dotted name that denotes something goes the same way where more is known. -/
theorem expandMembers_mono {owner : String} {rest : List String} (spelled : Spelled words owner)
    (known : (c.type? owner).isSome) (members : ∀ word ∈ rest, word ∈ words)
    (resolved : c.resolveWithin budget (c.expandMembers budget owner rest) = some found) :
    d.expandMembers budget owner rest = c.expandMembers budget owner rest := by
  induction rest generalizing owner with
  | nil => rfl
  | cons word rest ih =>
      obtain ⟨member, members⟩ := List.forall_mem_cons.mp members
      rw [expandMembers] at resolved ⊢
      rw [expandMembers]
      cases own : c.member? owner word with
      | none =>
          simp only [own] at resolved ⊢
          cases held : c.held owner word with
          | none =>
              rw [resolveWithin_join vocabulary drawn (spelled_extend.mpr ⟨spelled, vocabulary.spelled member⟩) members
                (resolveWithin_extend_of_unheld vocabulary known member held)] at resolved
              cases resolved
          | some holding =>
              have same : d.member? owner word = c.member? owner word := by
                rw [member?, member?, own?, own?, held, le.held spelled member held]
              rw [same, own]
      | some bound =>
          simp only [own, member?_mono le spelled member own] at resolved ⊢
          have onward := spelled_own? vocabulary drawn spelled member (Option.filter_eq_some_iff.mp own).1
          cases reached : c.resolveWithin budget bound with
          | none =>
              simp only [reached] at resolved
              rw [resolveWithin_join vocabulary drawn onward members reached] at resolved
              cases resolved
          | some next =>
              simp only [reached] at resolved
              obtain ⟨spelledNext, knownNext⟩ := spelled_resolveWithin vocabulary drawn onward reached
              simp only [resolveWithin_mono vocabulary le drawn more onward reached]
              exact ih spelledNext knownNext members resolved

theorem through_anti {owner : String} {rest : List String} (spelled : Spelled words owner)
    (known : (c.type? owner).isSome) (members : ∀ word ∈ rest, word ∈ words)
    (through : d.through budget owner rest = true) : c.through budget owner rest = true := by
  induction rest generalizing owner with
  | nil => rfl
  | cons word rest ih =>
      obtain ⟨member, members⟩ := List.forall_mem_cons.mp members
      simp only [Chart.through, Bool.and_eq_true, decide_eq_true_eq, Option.all_eq_true] at through ⊢
      refine ⟨(type?_eq vocabulary le spelled known).symm.trans through.1, fun bound own next reached => ?_⟩
      have onward := spelled_own? vocabulary drawn spelled member (Option.filter_eq_some_iff.mp own).1
      obtain ⟨spelledNext, knownNext⟩ := spelled_resolveWithin vocabulary drawn onward reached
      exact ih spelledNext knownNext members (through.2 bound (member?_mono le spelled member own) next
        (resolveWithin_mono vocabulary le drawn more onward reached))

variable (scopes : ∀ scope ∈ chain, Spelled words scope)

include scopes

omit drawn more in
/-- A first segment that denotes something is looked up as before, unless it denotes a module at the root that is
hidden later. -/
theorem localName_eq (member : word ∈ words)
    (single : chain.countP (fun scope => (d.held scope word).isSome) ≤ 1)
    (hidden : (c.root word).isSome → c.localName word chain = word → d.localName word chain = word)
    (resolved : c.resolveWithin budget (c.localName word chain) = some found) :
    d.localName word chain = c.localName word chain := by
  by_cases bound : ∃ scope ∈ chain, (c.held scope word).isSome
  · exact localName_mono le scopes member single bound
  · have unbound := localName_of_unbound bound
    rw [unbound] at resolved
    rw [unbound, hidden (resolveWithin_of_isSegment (vocabulary.segment word member) resolved).2 unbound]

theorem clear_anti {segments : List String} (members : ∀ word ∈ segments, word ∈ words)
    (clear : d.clear budget chain segments = true) : c.clear budget chain segments = true := by
  cases segments with
  | nil => rfl
  | cons word rest =>
      obtain ⟨member, members⟩ := List.forall_mem_cons.mp members
      simp only [Chart.clear, Bool.and_eq_true, decide_eq_true_eq, Bool.or_eq_true, Option.all_eq_true] at clear ⊢
      obtain ⟨⟨single, hidden⟩, through⟩ := clear
      rw [le.root member] at hidden
      have fewer : chain.countP (fun scope => (c.held scope word).isSome) ≤
          chain.countP fun scope => (d.held scope word).isSome := by
        refine List.countP_mono_left fun scope among held => ?_
        obtain ⟨holding, held⟩ := Option.isSome_iff_exists.mp held
        rw [le.held (scopes scope among) member held]
        rfl
      refine ⟨⟨fewer.trans single, hidden.imp_right fun same => ?_⟩, fun owner resolved => ?_⟩
      · by_cases bound : ∃ scope ∈ chain, (c.held scope word).isSome
        · rw [← localName_mono le scopes member single bound, same]
        · exact localName_of_unbound bound
      · cases rest with
        | nil => rfl
        | cons next rest =>
            have same := localName_eq vocabulary le scopes member single
              (fun root _ => (hidden.resolve_left (by simpa using Option.isSome_iff_ne_none.mp root))) resolved
            obtain ⟨spelled, known⟩ :=
              spelled_resolveWithin vocabulary drawn (spelled_localName vocabulary drawn scopes member) resolved
            refine through_anti vocabulary le drawn more spelled known members (through owner ?_)
            rw [same]
            exact resolveWithin_mono vocabulary le drawn more (spelled_localName vocabulary drawn scopes member) resolved

theorem expand_mono {segments : List String} (members : ∀ word ∈ segments, word ∈ words)
    (clear : d.clear budget chain segments = true)
    (resolved : c.resolveWithin budget (c.expand budget chain segments) = some found)
    (isClass : c.type? found = some .class) : d.expand budget chain segments = c.expand budget chain segments := by
  cases segments with
  | nil => rfl
  | cons word rest =>
      obtain ⟨member, members⟩ := List.forall_mem_cons.mp members
      simp only [Chart.clear, Bool.and_eq_true, decide_eq_true_eq, Bool.or_eq_true] at clear
      obtain ⟨⟨single, hidden⟩, -⟩ := clear
      rw [le.root member] at hidden
      have first := spelled_localName vocabulary drawn scopes member
      rw [expand] at resolved ⊢
      rw [expand]
      cases reached : c.resolveWithin budget (c.localName word chain) with
      | none =>
          simp only [reached] at resolved
          rw [resolveWithin_join vocabulary drawn first members reached] at resolved
          cases resolved
      | some owner =>
          simp only [reached] at resolved
          have same := localName_eq vocabulary le scopes member single (fun root unbound => ?_) reached
          · obtain ⟨spelled, known⟩ := spelled_resolveWithin vocabulary drawn first reached
            simp only [same, resolveWithin_mono vocabulary le drawn more first reached]
            exact expandMembers_mono vocabulary le drawn more spelled known members resolved
          · cases rest with
            | cons next rest => exact hidden.resolve_left (by simpa using Option.isSome_iff_ne_none.mp root)
            | nil =>
                -- A single word that no scope binds leads to a module, if to anything.
                have whole := vocabulary.segment word member
                rw [unbound] at reached
                obtain ⟨rfl, _⟩ := resolveWithin_of_isSegment whole reached
                obtain ⟨rfl, _⟩ := resolveWithin_of_isSegment whole resolved
                rw [type?_of_isSegment whole] at isClass
                exact absurd isClass (drawn.rooted member)

/-- A class that a name leads to is what it leads to where more is known. -/
theorem leads?_mono {full : String} (spelled : Spelled words name)
    (clear : d.clear budget chain (Dotted.parts name) = true) (found : c.leads? budget chain name = some full) :
    d.leads? budget chain name = some full := by
  simp only [leads?, Option.filter_eq_some_iff, decide_eq_true_eq] at found ⊢
  obtain ⟨resolved, isClass⟩ := found
  have spelledThere : Spelled words (c.expand budget chain (Dotted.parts name)) :=
    spelled_expand vocabulary drawn scopes spelled
  rw [expand_mono vocabulary le drawn more scopes spelled clear resolved isClass]
  exact ⟨resolveWithin_mono vocabulary le drawn more spelledThere resolved,
    type?_mono vocabulary le (spelled_resolveWithin vocabulary drawn spelledThere resolved).1 isClass⟩

/-- A name leads to the same class on two charts that have the same on them. -/
theorem leads?_eq (ge : d.Le words c) (spelled : Spelled words name)
    (clear : c.clear budget chain (Dotted.parts name) = true)
    (clearThere : d.clear budget chain (Dotted.parts name) = true) :
    c.leads? budget chain name = d.leads? budget chain name :=
  Option.ext fun _ => ⟨leads?_mono vocabulary le drawn more scopes spelled clearThere,
    leads?_mono vocabulary ge more drawn scopes spelled clear⟩

end mono

end Chart

end DocGraph
