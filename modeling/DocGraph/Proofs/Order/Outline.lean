import DocGraph.Proofs.Order.Growth
import DocGraph.Proofs.Walk.Guard
import DocGraph.Proofs.Walk.Isolation

namespace DocGraph

open Dotted (Spelled IsSegment spelled_extend)

/-- The text by which a base is looked up. -/
def Expr.baseText (expr : Expr) : String := expr.subscripted.dotted?.getD expr.render

/-- The class of a definition that has these scopes around it. -/
def Binding.ofClass (chain : List String) (head : ClassHead) : Binding :=
  ⟨chain, head.name, .class (head.bases.map Expr.baseText)⟩

/-- A statement where it stands: the scopes around it, innermost first, and whether it is in a function. -/
structure Site where
  chain : List String
  inFunction : Bool
  stmt : Stmt

namespace Stmt

mutual

/-- The statements that a walk may come to, with their places. Definitions in functions are passed over. -/
def sites (chain : List String) (inFunction : Bool) : Stmt → List Site
  | .classDef head body => ⟨chain, inFunction, .classDef head body⟩ ::
      if inFunction then [] else sitesAll (Dotted.extend (chain.headD "") head.name :: chain) false body
  | .function head body => ⟨chain, inFunction, .function head body⟩ ::
      if inFunction then [] else sitesAll chain true body
  | .ifElse test body orElse line => ⟨chain, inFunction, .ifElse test body orElse line⟩ ::
      ((if test.isMainTest then [] else sitesAll chain inFunction body) ++ sitesAll chain inFunction orElse)
  | .whileLoop test body orElse line => ⟨chain, inFunction, .whileLoop test body orElse line⟩ ::
      sitesAll chain inFunction body
  | .forLoop target iter body orElse isAsync line =>
      ⟨chain, inFunction, .forLoop target iter body orElse isAsync line⟩ :: sitesAll chain inFunction body
  | .withBlock items body isAsync line => ⟨chain, inFunction, .withBlock items body isAsync line⟩ ::
      sitesAll chain inFunction body
  | .tryExcept body handlers orElse finalBody line =>
      ⟨chain, inFunction, .tryExcept body handlers orElse finalBody line⟩ ::
        (sitesAll chain inFunction body ++ sitesAll chain inFunction orElse ++ sitesAll chain inFunction finalBody
          ++ sitesOfHandlers chain inFunction handlers)
  | .matchCases subject cases line => ⟨chain, inFunction, .matchCases subject cases line⟩ ::
      sitesOfCases chain inFunction cases
  | stmt => [⟨chain, inFunction, stmt⟩]

def sitesAll (chain : List String) (inFunction : Bool) : List Stmt → List Site
  | [] => []
  | stmt :: rest => sites chain inFunction stmt ++ sitesAll chain inFunction rest

def sitesOfHandlers (chain : List String) (inFunction : Bool) : List Handler → List Site
  | [] => []
  | ⟨_, _, body, _⟩ :: rest => sitesAll chain inFunction body ++ sitesOfHandlers chain inFunction rest

def sitesOfCases (chain : List String) (inFunction : Bool) : List Case → List Site
  | [] => []
  | ⟨_, _, body⟩ :: rest => sitesAll chain inFunction body ++ sitesOfCases chain inFunction rest

end

variable {chain : List String} {inFunction : Bool}

theorem sitesAll_append (first second : List Stmt) :
    sitesAll chain inFunction (first ++ second) = sitesAll chain inFunction first ++ sitesAll chain inFunction second := by
  induction first with
  | nil => rw [List.nil_append, sitesAll, List.nil_append]
  | cons stmt rest ih => rw [List.cons_append, sitesAll, sitesAll, ih, List.append_assoc]

theorem sitesOfHandlers_eq (handlers : List Handler) :
    sitesOfHandlers chain inFunction handlers = sitesAll chain inFunction (handlers.flatMap Handler.body) := by
  induction handlers with
  | nil => rw [sitesOfHandlers, List.flatMap_nil, sitesAll]
  | cons handler rest ih =>
      cases handler with
      | mk excType name body line => rw [sitesOfHandlers, ih, List.flatMap_cons, sitesAll_append, Handler.body]

theorem sitesOfCases_eq (cases : List Case) :
    sitesOfCases chain inFunction cases = sitesAll chain inFunction (cases.flatMap Case.body) := by
  induction cases with
  | nil => rw [sitesOfCases, List.flatMap_nil, sitesAll]
  | cons arm rest ih =>
      cases arm with
      | mk pattern guard body => rw [sitesOfCases, ih, List.flatMap_cons, sitesAll_append, Case.body]

theorem sites_of_other {stmt : Stmt} (other : stmt.isDefinition = false) :
    sites chain inFunction stmt = ⟨chain, inFunction, stmt⟩ :: sitesAll chain inFunction stmt.inner := by
  cases stmt with
  | classDef | function => cases other
  | ifElse test body orElse line =>
      rw [sites, inner, sitesAll_append]
      cases test.isMainTest with
      | true => rw [if_pos rfl, if_pos rfl, sitesAll]
      | false => rfl
  | tryExcept body handlers orElse finalBody line =>
      rw [sites, inner, sitesAll_append, sitesAll_append, sitesAll_append, sitesOfHandlers_eq]
  | matchCases subject cases line => rw [sites, inner, sitesOfCases_eq]
  | whileLoop | forLoop | withBlock => rw [sites, inner]
  | _ =>
      rw [sites, inner, sitesAll]
      all_goals simp

end Stmt

/-- What is taken from another module. -/
def Stmt.taken? : Stmt → Option (List ImportAlias)
  | .importFrom _ items _ _ => some items
  | _ => none

namespace Site

/-- What a statement binds where it stands, relative imports going by what a level leads to. -/
def bindings (origin : Option String → Nat → Option String) (site : Site) : List Binding :=
  if site.inFunction then []
  else
    match site.stmt with
    | .classDef head _ => [.ofClass site.chain head]
    | .imports items _ =>
        items.map fun item => ⟨site.chain, (Walk.importBinding item).1, .alias (Walk.importBinding item).2⟩
    | .importFrom name items level _ =>
        ((origin name level).map fun origin =>
          items.map fun item => ⟨site.chain, item.bound, .alias (Dotted.extend origin item.name)⟩).getD []
    | _ => []

/-- Nothing but classes and imports gives a name that is spelled in the words, and an import takes neither all
names nor one that the module exports. -/
structure Plain (words exports : List String) (site : Site) : Prop where
  aside : site.stmt.isClass = false → ∀ name ∈ site.stmt.stored, ¬ Spelled words name
  named : site.inFunction = false → ∀ items ∈ site.stmt.taken?,
    Walk.isStar items = false ∧ ∀ item ∈ items, item.bound ∉ exports

instance (words exports : List String) (site : Site) : Decidable (site.Plain words exports) :=
  decidable_of_iff
    ((site.stmt.isClass = false → ∀ name ∈ site.stmt.stored, ¬ Spelled words name) ∧
      (site.inFunction = false → ∀ items ∈ site.stmt.taken?,
        Walk.isStar items = false ∧ ∀ item ∈ items, item.bound ∉ exports))
    ⟨fun both => ⟨both.1, both.2⟩, fun plain => ⟨plain.aside, plain.named⟩⟩

end Site

/-- The names that sites give, in order. -/
def outlineOf (origin : Option String → Nat → Option String) (sites : List Site) : List Binding :=
  sites.flatMap (Site.bindings origin)

namespace Binding

variable {words : List String} {b : Binding} {bindings first second : List Binding} {g h : Graph}

def isClass (b : Binding) : Bool :=
  match b.meaning with
  | .class _ => true
  | .alias _ => false

def target? (b : Binding) : Option String :=
  match b.meaning with
  | .class _ => none
  | .alias target => some target

/-- The scope has a name that is spelled in the words, a class has one of them as its name, and one that is
another name stands for such a name. -/
structure Proper (words : List String) (b : Binding) : Prop where
  scope : Spelled words b.scope
  name : b.isClass = true → b.name ∈ words
  target : b.name ∈ words → ∀ target ∈ b.target?, Spelled words target

instance (words : List String) (b : Binding) : Decidable (b.Proper words) :=
  decidable_of_iff (Spelled words b.scope ∧ (b.isClass = true → b.name ∈ words) ∧
      (b.name ∈ words → ∀ target ∈ b.target?, Spelled words target))
    ⟨fun all => ⟨all.1, all.2.1, all.2.2⟩, fun proper => ⟨proper.scope, proper.name, proper.target⟩⟩

/-- The name is free for what it is given. -/
def Free (b : Binding) (held : Option Holding) : Prop :=
  match b.meaning with
  | .class _ => held = none
  | .alias _ => ∀ target, held ≠ some (.alias target)

section apart

variable (apart : ((bindings.filter fun b => b.name ∈ words).map key).Nodup)

include apart

theorem eq_of_key {c : Binding} (among : b ∈ bindings) (other : c ∈ bindings) (member : b.name ∈ words)
    (same : b.key = c.key) : b = c := by
  have sameName : b.name = c.name := congrArg Prod.snd same
  refine List.inj_on_of_nodup_map apart (List.mem_filter.mpr ⟨among, by simpa using member⟩)
    (List.mem_filter.mpr ⟨other, ?_⟩) same
  simpa [← sameName] using member

theorem held_eq_some_iff {scope word : String} {holding : Holding} (member : word ∈ words) :
    held bindings scope word = some holding ↔ ∃ b ∈ bindings, b.key = (scope, word) ∧ b.holding = holding := by
  rw [held, Option.map_eq_some_iff]
  constructor
  · rintro ⟨b, found, holds⟩
    exact ⟨b, List.mem_of_find?_eq_some found, by simpa using List.find?_some found, holds⟩
  · rintro ⟨b, among, key, holds⟩
    have some_ : (bindings.find? fun b => b.key = (scope, word)).isSome :=
      List.find?_isSome.mpr ⟨b, among, decide_eq_true key⟩
    obtain ⟨c, found⟩ := Option.isSome_iff_exists.mp some_
    have keyFound : c.key = (scope, word) := by simpa using List.find?_some found
    have named : b.name ∈ words := by rwa [show b.name = word from congrArg Prod.snd key]
    exact ⟨c, found, by rwa [← eq_of_key apart among (List.mem_of_find?_eq_some found) named (key.trans keyFound.symm)]⟩

end apart

/-- Words that are given once in a scope are held in the same way in any order. -/
theorem held_perm (perm : first.Perm second) (apart : ((first.filter fun b => b.name ∈ words).map key).Nodup)
    {word : String} (member : word ∈ words) (scope : String) : held second scope word = held first scope word := by
  have apart' := (((perm.filter fun b => decide (b.name ∈ words)).map key).nodup_iff).mp apart
  refine Option.ext fun holding => ?_
  rw [held_eq_some_iff apart' member, held_eq_some_iff apart member]
  exact exists_congr fun b => and_congr_left' perm.mem_iff.symm

/-- No word is given twice in a scope, nor to anything where the graph has something under it. -/
structure Fresh (words : List String) (bindings : List Binding) (g : Graph) : Prop where
  proper : ∀ b ∈ bindings, b.Proper words
  apart : ((bindings.filter fun b => b.name ∈ words).map key).Nodup
  free : ∀ b ∈ bindings, b.name ∈ words → b.Free (g.chart.held b.scope b.name)

theorem Fresh.left (fresh : Fresh words (first ++ second) g) : Fresh words first g where
  proper b among := fresh.proper b (List.mem_append_left _ among)
  apart := by
    have apart := fresh.apart
    rw [List.filter_append, List.map_append] at apart
    exact (List.nodup_append.mp apart).1
  free b among := fresh.free b (List.mem_append_left _ among)

theorem Fresh.right (fresh : Fresh words (first ++ second) g) (widens : Graph.Widens words first g h) :
    Fresh words second h where
  proper b among := fresh.proper b (List.mem_append_right _ among)
  apart := by
    have apart := fresh.apart
    rw [List.filter_append, List.map_append] at apart
    exact (List.nodup_append.mp apart).2.1
  free b among member := by
    have apart := fresh.apart
    rw [List.filter_append, List.map_append] at apart
    have unheld : held first b.scope b.name = none := by
      rw [held, Option.map_eq_none_iff, List.find?_eq_none]
      intro other earlier same
      have same : other.key = b.key := by simpa [key] using same
      have sameName : other.name = b.name := congrArg Prod.snd same
      have named : other.name ∈ words := sameName ▸ member
      refine (List.nodup_append.mp apart).2.2 other.key ?_ b.key ?_ same
      · exact List.mem_map_of_mem (List.mem_filter.mpr ⟨earlier, by simpa using named⟩)
      · exact List.mem_map_of_mem (List.mem_filter.mpr ⟨among, by simpa using member⟩)
    rw [widens.held (fresh.proper b (List.mem_append_right _ among)).1 member, unheld, Option.or_none]
    exact fresh.free b (List.mem_append_right _ among) member

end Binding

end DocGraph
