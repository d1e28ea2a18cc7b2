import DocGraph.Proofs.Names.Parts
import DocGraph.Proofs.Registry.Numbering
import DocGraph.Proofs.Run.InTable
import DocGraph.Proofs.Run.ModuleNames

namespace DocGraph

namespace Dotted

variable {words : List String} {name segment : String}

/-- All parts of the name are among the words. -/
def Spelled (words : List String) (name : String) : Prop := ∀ part ∈ parts name, part ∈ words

instance (words : List String) (name : String) : Decidable (Spelled words name) :=
  inferInstanceAs (Decidable (∀ part ∈ parts name, part ∈ words))

theorem spelled_extend : Spelled words (extend name segment) ↔ Spelled words name ∧ Spelled words segment := by
  have pieces : parts (extend name segment) = parts name ++ parts segment := by
    rw [parts, toList_extend, cut_append, List.map_append, parts, parts]
  simp only [Spelled, pieces, List.mem_append, or_imp, forall_and]

theorem spelled_of_isSegment (whole : IsSegment segment) : Spelled words segment ↔ segment ∈ words := by
  simp [Spelled, parts_of_isSegment whole]

theorem exists_mem_cut {c : Char} (other : c ≠ '.') {cs : List Char} (among : c ∈ cs) :
    ∃ piece ∈ cut cs, c ∈ piece := by
  induction cs with
  | nil => cases among
  | cons first rest ih =>
      rw [cut]
      by_cases dot : first = '.'
      · rw [if_pos dot]
        obtain ⟨piece, member, inside⟩ := ih ((List.mem_cons.mp among).resolve_left (dot ▸ other))
        exact ⟨piece, List.mem_cons_of_mem _ member, inside⟩
      · rw [if_neg dot]
        cases pieces : cut rest with
        | nil => exact absurd pieces (cut_ne_nil rest)
        | cons part later =>
            rcases List.mem_cons.mp among with rfl | below
            · exact ⟨_, List.mem_cons_self, List.mem_cons_self⟩
            · rw [pieces] at ih
              obtain ⟨piece, member, inside⟩ := ih below
              rcases List.mem_cons.mp member with rfl | member
              · exact ⟨_, List.mem_cons_self, List.mem_cons_of_mem _ inside⟩
              · exact ⟨piece, List.mem_cons_of_mem _ member, inside⟩

end Dotted

open Dotted (Spelled IsSegment spelled_extend)

/-- Words are segments without a space. -/
structure Vocabulary (words : List String) : Prop where
  segment : ∀ word ∈ words, IsSegment word
  unnumbered : ∀ word ∈ words, Graph.Unnumbered word

namespace Vocabulary

variable {words : List String} {word : String}

theorem spelled (vocabulary : Vocabulary words) (member : word ∈ words) : Spelled words word :=
  (Dotted.spelled_of_isSegment (vocabulary.segment word member)).mpr member

theorem not_spelled_numbered (vocabulary : Vocabulary words) (name : String) (number : Nat) :
    ¬ Spelled words (Graph.numbered name number) := by
  intro spelled
  have space : ' ' ∈ (Graph.numbered name number).toList := by simp [Graph.numbered]
  obtain ⟨piece, member, inside⟩ := Dotted.exists_mem_cut (by decide) space
  have among := spelled (String.ofList piece) (List.mem_map_of_mem member)
  exact vocabulary.unnumbered _ among (by simpa using inside)

end Vocabulary

/-- The two entities have one place in the tree, one type, and one name if it is spelled in the words. -/
structure Entity.Lasting (words : List String) (e f : Entity) : Prop where
  type : f.type = e.type
  parent : f.parent = e.parent
  name : f.name = e.name ∨ ¬ Spelled words e.name ∧ ¬ Spelled words f.name
  isPackage : f.isPackage = e.isPackage
  pending : f.pending = e.pending
  baseLists : f.baseLists = e.baseLists

/-- Nor do they differ in what they bind under the words. -/
structure Entity.Quiet (words : List String) (e f : Entity) : Prop extends Lasting words e f where
  contents : ∀ word ∈ words, f.contents.get? word = e.contents.get? word
  aliases : ∀ word ∈ words, f.aliases[word]? = e.aliases[word]?

namespace Entity

variable {words : List String} {e f k : Entity}

theorem Lasting.trans (first : Lasting words e f) (second : Lasting words f k) : Lasting words e k where
  type := second.type.trans first.type
  parent := second.parent.trans first.parent
  name := by
    rcases first.name with before | ⟨other, noise⟩
    · rw [← before]
      exact second.name
    · rcases second.name with behind | ⟨_, still⟩
      · exact .inr ⟨other, behind ▸ noise⟩
      · exact .inr ⟨other, still⟩
  isPackage := second.isPackage.trans first.isPackage
  pending := second.pending.trans first.pending
  baseLists := second.baseLists.trans first.baseLists

theorem Lasting.spelled_iff (lasting : Lasting words e f) : Spelled words f.name ↔ Spelled words e.name := by
  rcases lasting.name with same | ⟨before, behind⟩
  · rw [same]
  · exact iff_of_false behind before

theorem Lasting.name_eq (lasting : Lasting words e f) (spelled : Spelled words e.name) : f.name = e.name :=
  lasting.name.resolve_right fun other => other.1 spelled

theorem Lasting.isContainer (lasting : Lasting words e f) : f.isContainer = e.isContainer := by
  rw [Entity.isContainer, Entity.isContainer, lasting.type]

theorem Quiet.trans (first : Quiet words e f) (second : Quiet words f k) : Quiet words e k where
  toLasting := first.toLasting.trans second.toLasting
  contents word member := (second.contents word member).trans (first.contents word member)
  aliases word member := (second.aliases word member).trans (first.aliases word member)

theorem Quiet.of_retouched (retouched : Retouched e f) (isPackage : f.isPackage = e.isPackage) : Quiet words e f where
  type := retouched.type
  parent := retouched.parent
  name := .inl retouched.name
  isPackage := isPackage
  pending := retouched.pending
  baseLists := retouched.baseLists
  contents _ _ := by rw [retouched.contents]
  aliases _ _ := by rw [retouched.aliases]

theorem Quiet.refl (e : Entity) : Quiet words e e := .of_retouched (.refl e) rfl

end Entity

namespace Graph

variable {g h k : Graph} {words : List String} {id upper lower parent child : EntityId} {name : String}

/-- What there is stays where it is, and keeps its name if it is spelled in the words. -/
structure Lasting (words : List String) (g h : Graph) : Prop where
  options : h.options = g.options
  has : ∀ {id}, g.Has id → h.Has id
  entity : ∀ {id}, g.Has id → Entity.Lasting words (g.entity id) (h.entity id)

theorem Lasting.trans (first : Lasting words g h) (second : Lasting words h k) : Lasting words g k where
  options := second.options.trans first.options
  has inside := second.has (first.has inside)
  entity inside := (first.entity inside).trans (second.entity (first.has inside))

/-- Nothing has changed under names that are spelled in the words, and what is new has other names. -/
structure Quiet (words : List String) (g h : Graph) : Prop where
  options : h.options = g.options
  has : ∀ {id}, g.Has id → h.Has id
  entity : ∀ {id}, g.Has id → Entity.Quiet words (g.entity id) (h.entity id)
  created : ∀ {id}, h.Has id → ¬ g.Has id →
    (h.entity id).isContainer = false ∧ ¬ Spelled words (h.entity id).name
  lookup : ∀ {name}, Spelled words name → h.lookup name = g.lookup name

namespace Quiet

theorem lasting (quiet : Quiet words g h) : Lasting words g h :=
  ⟨quiet.options, quiet.has, fun inside => (quiet.entity inside).toLasting⟩

theorem trans (first : Quiet words g h) (second : Quiet words h k) : Quiet words g k where
  options := second.options.trans first.options
  has inside := second.has (first.has inside)
  entity inside := (first.entity inside).trans (second.entity (first.has inside))
  created := by
    intro id inside new
    by_cases middle : h.Has id
    · obtain ⟨container, noise⟩ := first.created middle new
      have kept := second.entity middle
      exact ⟨kept.isContainer.trans container, fun spelled => noise (kept.spelled_iff.mp spelled)⟩
    · exact second.created inside middle
  lookup spelled := (second.lookup spelled).trans (first.lookup spelled)

theorem of_retouched (retouched : Retouched g h)
    (isPackage : ∀ id, (h.entity id).isPackage = (g.entity id).isPackage) : Quiet words g h where
  options := retouched.options
  has inside := by simpa [Has, retouched.size] using inside
  entity _ := .of_retouched (retouched.entity _) (isPackage _)
  created inside new := absurd (by simpa [Has, retouched.size] using inside) new
  lookup _ := congrArg (fun index : NameMap EntityId => index[_]?) retouched.index

theorem of_described (described : Described g h) : Quiet words g h :=
  .of_retouched described.retouched fun id => by
    rw [Entity.isPackage, (described.entity id).module?]
    rfl

theorem of_noted (noted : Noted id g h) : Quiet words g h := by
  refine .of_retouched noted.retouched fun other => ?_
  by_cases same : other = id
  · rw [same, noted.isPackage]
  · rw [noted.elsewhere same]

theorem refl (g : Graph) : Quiet words g g := .of_described (.refl g)

end Quiet

theorem not_spelled_fullName (rooted : g.Rooted) (inside : g.Has upper) (above : g.Above upper lower)
    (noise : ¬ Spelled words (g.entity upper).name) : ¬ Spelled words (g.fullName lower) := by
  induction above with
  | refl =>
      cases next : (g.entity upper).parent with
      | none => rwa [fullName_of_root rooted inside next]
      | some parent =>
          rw [fullName_of_child rooted next]
          exact fun spelled => noise (spelled_extend.mp spelled).2
  | tail _ last ih =>
      rw [fullName_of_child rooted last]
      exact fun spelled => ih (spelled_extend.mp spelled).1

section index

variable (rooted : g.Rooted) (tabled : g.Tabled) (inside : g.Has id)
  (noise : ¬ Spelled words (g.entity id).name) (spelled : Spelled words name)

include rooted tabled inside noise spelled

theorem lookup_register_of_noise : (g.register id).lookup name = g.lookup name := by
  refine lookup_foldl_registerOne_of_not _ _ fun lower among equal => ?_
  exact not_spelled_fullName rooted inside ((reaches_of_mem_subtreeFrom tabled among).above tabled) noise
    (equal ▸ spelled)

theorem lookup_unregister_of_noise : (g.unregister id).lookup name = g.lookup name := by
  refine Option.ext fun found => ?_
  rw [unregister, lookup_foldl_unregisterOne]
  refine and_iff_left ?_
  rintro ⟨among, equal⟩
  exact not_spelled_fullName rooted inside ((reaches_of_mem_subtreeFrom tabled among).above tabled) noise
    (equal ▸ spelled)

end index

section attach

variable (vocabulary : Vocabulary words) (tabled : g.Tabled) (unlisted : g.Unlisted child)
  (held : g.IsParent parent child) (noise : ¬ Spelled words (g.entity child).name)

include vocabulary tabled unlisted held noise

theorem name_attach_of_noise (id : EntityId) :
    ((g.attach parent child).entity id).name = (g.entity id).name ∨
      ¬ Spelled words (g.entity id).name ∧ ¬ Spelled words ((g.attach parent child).entity id).name := by
  cases taken : (g.entity parent).contents.get? (g.entity child).name with
  | none => exact .inl (by rw [attach_of_free taken, entity_congr (entities_register _ _), name_bindChild])
  | some previous =>
      obtain ⟨below, named⟩ := (contest_roles g previous child).loser_held tabled held rfl taken
      rw [name_attach_of_taken unlisted taken (g.has_of_parent below)]
      split
      · rename_i lost
        exact .inr ⟨by rwa [lost, named], vocabulary.not_spelled_numbered _ _⟩
      · exact .inl rfl

variable (rooted : g.Rooted) (spelled : Spelled words name)

include rooted spelled

theorem lookup_demote_of_noise {previous winner loser : EntityId} {policy : DuplicatePolicy}
    (found : (g.entity parent).contents.get? (g.entity child).name = some previous)
    (roles : Contest policy child previous winner loser) (number : Nat) :
    (g.demote parent winner loser (g.entity child).name number).lookup name = g.lookup name := by
  obtain ⟨heldLoser, namedLoser⟩ := roles.loser_held tabled held rfl found
  obtain ⟨heldWinner, namedWinner⟩ := roles.winner_held tabled held rfl found
  have insideLoser := g.has_of_parent heldLoser
  have apart : winner ≠ loser := by
    have unlike := ne_of_taken unlisted found
    cases roles
    · exact unlike.symm
    · exact unlike
  -- Between them stands a graph in which both children have their names and nothing is registered yet.
  let relabelled := (g.unregister loser).relabel parent winner loser (g.entity child).name number
  have arranged : Arranged g relabelled := (arranged_unregister g loser).trans (arranged_relabel _ _ _ _ _ _)
  have same : SameTree (g.relabel parent winner loser (g.entity child).name number) relabelled :=
    .of_entities (entities_relabel (entities_unregister g loser) ..)
  have tabledMiddle : relabelled.Tabled :=
    same.tabled (tabled_relabel rooted tabled unlisted held rfl found roles)
  have nameLoser : (relabelled.entity loser).name = numbered (g.entity child).name number := by
    rw [same.name, name_relabel insideLoser, if_pos rfl]
  have nameWinner : (relabelled.entity winner).name = (g.entity child).name := by
    rw [same.name, name_relabel insideLoser, if_neg apart, namedWinner]
  have registered : SameTree relabelled (relabelled.register loser) := .of_entities (entities_register _ _)
  calc ((relabelled.register loser).register winner).lookup name
      = (relabelled.register loser).lookup name := by
        refine lookup_register_of_noise (registered.rooted (arranged.rooted rooted))
          (registered.tabled tabledMiddle) ?_ ?_ spelled
        · exact registered.has.mpr (arranged.has.mpr (g.has_of_parent heldWinner))
        · rwa [registered.name, nameWinner]
    _ = relabelled.lookup name :=
        lookup_register_of_noise (arranged.rooted rooted) tabledMiddle (arranged.has.mpr insideLoser)
          (nameLoser ▸ vocabulary.not_spelled_numbered _ _) spelled
    _ = (g.unregister loser).lookup name := lookup_relabel _ _ _ _ _ _ _
    _ = g.lookup name :=
        lookup_unregister_of_noise rooted tabled insideLoser (by rwa [namedLoser]) spelled

theorem lookup_attach_of_noise : (g.attach parent child).lookup name = g.lookup name := by
  have inside := rooted.parentHas held
  rcases attach_cases g parent child unlisted with
    ⟨_, equal⟩ | ⟨previous, winner, loser, number, message, found, roles, _, equal⟩
  · have arranged := arranged_bindChild g parent (g.entity child).name child
    rw [equal]
    exact lookup_register_of_noise (arranged.rooted rooted) (tabled_bindChild tabled held inside)
      (arranged.has.mpr (g.has_of_parent held)) (by rwa [name_bindChild]) spelled
  · have same : SameTree g (g.report child message "ast" 0 1) := .of_entities rfl
    rw [equal]
    exact lookup_demote_of_noise vocabulary (same.tabled tabled) unlisted held noise (same.rooted rooted) spelled
      found roles number

end attach

theorem quiet_declare (vocabulary : Vocabulary words) (sound : g.Sound) {e : Entity} (blank : e.Blank)
    (above : e.parent = some parent) (inside : g.Has parent) (noise : ¬ Spelled words e.name)
    (type : e.isContainer = false) : Quiet words g ((g.alloc e).1.attach parent ⟨g.size⟩) := by
  have rooted := rooted_alloc sound.rooted above inside
  have tabled := tabled_alloc sound.tabled blank.contents
  have unlisted := unlisted_alloc sound.tabled blank.contents
  have fresh : (g.alloc e).1.entity ⟨g.size⟩ = e := (g.entity_alloc e _).trans (if_pos rfl)
  have held : (g.alloc e).1.IsParent parent ⟨g.size⟩ := by rw [IsParent, fresh, above]
  have noiseFresh : ¬ Spelled words ((g.alloc e).1.entity ⟨g.size⟩).name := by rwa [fresh]
  have arranged := arranged_attach (g.alloc e).1 parent ⟨g.size⟩
  have name := name_attach_of_noise vocabulary tabled unlisted held noiseFresh
  refine ⟨?_, fun present => arranged.has.mpr ((g.has_alloc e _).mpr (.inl present)), fun {id} present => ?_,
    fun {id} present new => ?_, fun spelled => ?_⟩
  · exact arranged.options.trans (options_alloc g e)
  · have old := entity_alloc_of_has g e present
    refine ⟨⟨?_, ?_, ?_, ?_, ?_, ?_⟩, fun word member => ?_, fun word _ => ?_⟩
    · rw [arranged.read Entity.type fun _ _ _ => rfl, old]
    · rw [arranged.read Entity.parent fun _ _ _ => rfl, old]
    · rw [← old]
      exact name id
    · rw [arranged.read Entity.isPackage fun _ _ _ => rfl, old]
    · rw [arranged.read Entity.pending fun _ _ _ => rfl, old]
    · rw [arranged.read Entity.baseLists fun _ _ _ => rfl, old]
    · rw [get?_attach (rooted.parentHas held) unlisted (vocabulary.unnumbered word member), old]
      rintro ⟨_, named⟩
      exact noiseFresh (named ▸ vocabulary.spelled member)
    · rw [arranged.read Entity.aliases fun _ _ _ => rfl, old]
  · obtain rfl := ((g.has_alloc e id).mp (arranged.has.mp present)).resolve_left new
    refine ⟨?_, ?_⟩
    · rw [arranged.read Entity.isContainer fun _ _ _ => rfl, fresh, type]
    · rcases name ⟨g.size⟩ with same | ⟨_, behind⟩
      · rwa [same]
      · exact behind
  · rw [lookup_attach_of_noise vocabulary tabled unlisted held noiseFresh rooted spelled]
    rfl

theorem quiet_bindAlias (vocabulary : Vocabulary words) (id : EntityId) (noise : ¬ Spelled words name)
    (target : String) : Quiet words g (g.modify id (Entity.bindAlias name target)) := by
  refine ⟨rfl, fun present => (g.has_modify id _ _).mpr present, fun {other} _ => ?_,
    fun present new => absurd ((g.has_modify id _ _).mp present) new, fun _ => rfl⟩
  rw [entity_modify]
  split
  · refine ⟨⟨rfl, rfl, .inl rfl, rfl, rfl, rfl⟩, fun _ _ => rfl, fun word member => ?_⟩
    rw [Entity.bindAlias, NameMap.get_insert, if_neg]
    exact fun same => noise (same ▸ vocabulary.spelled member)
  · exact .refl _

end Graph

namespace Walk

open DocGraph.Graph

variable {w v : Walk} {g : Graph} {words : List String}

/-- What is done under other names: no class, no import that is put off, and nothing moved. -/
def Licence.aside (words : List String) : Licence where
  afar := True
  tries _ := False
  binds name := ¬ Spelled words name
  classes := False
  defers := False
  defines _ := True

theorem Act.quiet (act : w.Act (.aside words) g) (vocabulary : Vocabulary words) (valid : w.Valid) :
    Quiet words w.graph g := by
  cases act with
  | describe told => exact .of_described told.described
  | document _ told => exact .of_described told.described
  | visit among stmt => exact .of_described ((valid.hooks _ among).visit _ _ _ _)
  | depart among stmt => exact .of_described ((valid.hooks _ among).depart _ _ _ _)
  | bind name target _ named => exact quiet_bindAlias vocabulary _ named target
  | defer _ later => exact later.elim
  | declare blank above type _ _ place _ told _ named kind =>
      refine (quiet_declare vocabulary valid.sound blank above (valid.has_place place) named ?_).trans
        (.of_described told.described)
      have other : _ ≠ EntityType.class := kind
      simp [Entity.isContainer, type, other]
  | define _ _ _ _ _ _ _ _ _ kind => exact kind.elim
  | reexport _ tried => exact tried.elim

theorem Walks.quiet (walks : Walks (.aside words) w v) (vocabulary : Vocabulary words) (valid : w.Valid) :
    Quiet words w.graph v.graph := by
  induction walks with
  | refl => exact .refl _
  | act act => exact act.quiet vocabulary valid
  | trans first _ ihFirst ihSecond => exact (ihFirst valid).trans (ihSecond (first.valid valid))
  | scope recorded opens _ ihRecorded ihInner =>
      exact (ihRecorded valid).trans (ihInner (valid.enter opens (recorded.valid valid)))
  | arm _ ih => exact ih ⟨valid.sound, valid.module, valid.scopes, valid.hooks⟩
  | block _ ih => exact ih ⟨valid.sound, valid.module, valid.scopes, valid.hooks⟩

end Walk

end DocGraph
