import DocGraph.Batch
import DocGraph.Proofs.Run.ModuleNames

namespace DocGraph

open Dotted (IsSegment)

theorem Entity.type_of_module? {e : Entity} {info : ModuleInfo} (found : e.module? = some info) : e.type = .module := by
  cases payload : e.payload <;> simp [module?, type, Payload.type, payload] at found ⊢

/-- A declaration under a free name renames nothing. -/
theorem Graph.name_declare_of_free {g : Graph} {parent : EntityId} {e : Entity} (blank : e.Blank)
    (above : e.parent = some parent) (inside : g.Has parent) (sound : g.Sound) (lockStep : g.LockStep)
    (free : g.lookup (Dotted.extend (g.fullName parent) e.name) = none) (id : EntityId) :
    (((g.alloc e).1.attach parent ⟨g.size⟩).entity id).name = ((g.alloc e).1.entity id).name := by
  have rooted := rooted_alloc sound.rooted above inside
  have entity : (g.alloc e).1.entity ⟨g.size⟩ = e := (g.entity_alloc e _).trans (if_pos rfl)
  have held : (g.alloc e).1.IsParent parent ⟨g.size⟩ := by rw [IsParent, entity, above]
  rcases name_attach (tabled_alloc sound.tabled blank.contents) (unlisted_alloc sound.tabled blank.contents) held
    (rooted.parentHas held) id with kept | ⟨previous, winner, bound, _, _⟩
  · exact kept
  · rw [entity] at bound
    obtain ⟨heldPrevious, named⟩ := sound.tabled.bound ((get?_alloc blank.contents).mp bound)
    have taken : g.lookup (Dotted.extend (g.fullName parent) e.name) = some previous := by
      refine (lockStep.index _ _).mpr ⟨g.has_of_parent heldPrevious, ?_⟩
      rw [fullName_of_child sound.rooted heldPrevious, named]
    rw [free] at taken
    cases taken

namespace Batch

variable {inputs earlier later : List SourceModule} {input : SourceModule}

/-- The names are apart, and the part in front of the last dot of each names a package of the batch. -/
structure WellNamed (inputs : List SourceModule) : Prop where
  apart : (inputs.map SourceModule.name).Nodup
  packages : ∀ input ∈ inputs, ∀ parent own, input.name = Dotted.extend parent own → IsSegment own →
    ∃ package ∈ inputs, package.name = parent ∧ package.isPackage = true

/-- A module that can be registered behind others. -/
structure Placeable (earlier : List SourceModule) (input : SourceModule) : Prop where
  fresh : ∀ other ∈ earlier, other.name ≠ input.name
  package : ∀ parent own, input.name = Dotted.extend parent own → IsSegment own →
    ∃ package ∈ earlier, package.name = parent ∧ package.isPackage = true

/-- Modules that can be registered one behind the other. -/
def InOrder (earlier : List SourceModule) : List SourceModule → Prop
  | [] => True
  | input :: rest => Placeable earlier input ∧ InOrder (earlier ++ [input]) rest

theorem depth_extend {parent own : String} : Dotted.depth parent < Dotted.depth (Dotted.extend parent own) := by
  simp [Dotted.depth, Dotted.toList_extend]

theorem isSegment_of_qualifier?_eq_none {name : String} (whole : Dotted.qualifier? name = none) : IsSegment name := by
  rw [Dotted.qualifier?, Option.map_eq_none_iff] at whole
  exact Dotted.cutLast?_eq_none.mp whole

theorem wellNamed_iff : WellNamed inputs ↔ (inputs.map SourceModule.name).Nodup ∧ ∀ input ∈ inputs,
    ∀ place ∈ Dotted.qualifier? input.name, ∃ package ∈ inputs, package.name = place.1 ∧ package.isPackage = true := by
  constructor
  · intro named
    refine ⟨named.apart, fun input among place parted => ?_⟩
    obtain ⟨equal, segment⟩ := Dotted.qualifier?_eq_some parted
    exact named.packages input among place.1 place.2 equal segment
  · rintro ⟨apart, packages⟩
    refine ⟨apart, fun input among parent own equal segment => packages input among (parent, own) ?_⟩
    rw [equal, Option.mem_def, Dotted.qualifier?_extend segment]

instance (inputs : List SourceModule) : Decidable (WellNamed inputs) := decidable_of_iff' _ wellNamed_iff

theorem WellNamed.perm {left right : List SourceModule} (perm : left.Perm right) (named : WellNamed left) :
    WellNamed right := by
  refine ⟨(perm.map _).nodup named.apart, fun input among parent own equal segment => ?_⟩
  obtain ⟨package, within, found⟩ := named.packages input (perm.mem_iff.mpr among) parent own equal segment
  exact ⟨package, perm.mem_iff.mp within, found⟩

theorem inOrder_of_wellNamed (named : WellNamed (earlier ++ later))
    (sorted : (earlier ++ later).Pairwise fun left right => left.depth ≤ right.depth) : InOrder earlier later := by
  induction later generalizing earlier with
  | nil => trivial
  | cons input rest ih =>
      refine ⟨⟨fun other among same => ?_, fun parent own equal segment => ?_⟩,
        ih (by simpa using named) (by simpa using sorted)⟩
      · have apart := named.apart
        simp only [List.map_append, List.map_cons, List.nodup_append] at apart
        exact apart.2.2 other.name (List.mem_map_of_mem among) input.name List.mem_cons_self same
      · obtain ⟨package, among, found⟩ := named.packages input (by simp) parent own equal segment
        refine ⟨package, ?_, found⟩
        have shallow : package.depth < input.depth := by
          rw [SourceModule.depth, SourceModule.depth, found.1, equal]
          exact depth_extend
        -- Neither the module itself nor one behind it has fewer dots.
        rcases List.mem_append.mp among with before | behind
        · exact before
        · have deep : input.depth ≤ package.depth := by
            rcases List.mem_cons.mp behind with rfl | behind
            · exact Nat.le_refl _
            · exact (List.pairwise_cons.mp (List.pairwise_append.mp sorted).2.1).1 package behind
          omega

theorem wellNamed_of_inOrder (named : WellNamed earlier) (inOrder : InOrder earlier later) :
    WellNamed (earlier ++ later) := by
  induction later generalizing earlier with
  | nil => simpa using named
  | cons input rest ih =>
      obtain ⟨placeable, inOrder⟩ := inOrder
      have next : WellNamed (earlier ++ [input]) := by
        refine ⟨?_, fun other among parent own equal segment => ?_⟩
        · rw [List.map_append, List.nodup_append]
          refine ⟨named.apart, by simp, fun name before other same => ?_⟩
          obtain ⟨module, among, rfl⟩ := List.mem_map.mp before
          simp only [List.map_cons, List.map_nil, List.mem_singleton] at same
          exact fun equal => placeable.fresh module among (equal.trans same)
        · have found : ∃ package ∈ earlier, package.name = parent ∧ package.isPackage = true := by
            rcases List.mem_append.mp among with before | here
            · exact named.packages other before parent own equal segment
            · rw [List.mem_singleton] at here
              exact placeable.package parent own (here ▸ equal) segment
          obtain ⟨package, within, found⟩ := found
          exact ⟨package, List.mem_append_left _ within, found⟩
      simpa using ih next inOrder

theorem perm_byDepth (inputs : List SourceModule) : (byDepth inputs).Perm inputs := List.mergeSort_perm _ _

theorem sorted_byDepth (inputs : List SourceModule) :
    (byDepth inputs).Pairwise fun left right => left.depth ≤ right.depth := by
  have sorted : (byDepth inputs).Pairwise fun left right => decide (left.depth ≤ right.depth) = true :=
    List.pairwise_mergeSort (by simp; omega) (by simp; omega) inputs
  exact sorted.imp of_decide_eq_true

/-- Sorted by their dots, the modules of a batch can be registered one behind the other if and only if they
are well named. -/
theorem inOrder_byDepth_iff (inputs : List SourceModule) : InOrder [] (byDepth inputs) ↔ WellNamed inputs := by
  constructor
  · intro inOrder
    have none : WellNamed [] := ⟨List.nodup_nil, fun _ among => absurd among List.not_mem_nil⟩
    exact (wellNamed_of_inOrder none inOrder).perm (perm_byDepth inputs)
  · intro named
    exact inOrder_of_wellNamed (named.perm (perm_byDepth inputs).symm) (sorted_byDepth inputs)

/-- The graph holds these modules and nothing else, under their names, and none of them is built. -/
structure Placed (options : Options) (g : Graph) (inputs : List SourceModule) : Prop where
  path : Graph.Path (Graph.empty options) g
  registered : g.Registered none
  segmented : g.Segmented
  size : g.size = inputs.length
  info : ∀ {place : Nat} {input}, inputs[place]? = some input →
    (g.entity ⟨place⟩).module? = some { isPackage := input.isPackage }
  fullName : ∀ {place : Nat} {input}, inputs[place]? = some input → g.fullName ⟨place⟩ = input.name

theorem placed_empty (options : Options) : Placed options (Graph.empty options) [] := by
  have missing (id : EntityId) : ¬ (Graph.empty options).Has id := by simp [Graph.Has, Graph.size, Graph.empty]
  exact ⟨.refl _, Graph.registered_empty options, fun id inside => absurd inside (missing id), rfl,
    by simp, by simp⟩

namespace Placed

open DocGraph.Graph

variable {options : Options} {g h : Graph} {id : EntityId} {name : String} (placed : Placed options g earlier)

include placed

theorem sound : g.Sound := placed.path.sound (sound_empty options)

theorem lookup_iff : g.lookup name = some id ↔ ∃ input, earlier[id.index]? = some input ∧ input.name = name := by
  have lockStep := placed.registered.lockStep placed.sound placed.segmented
  rw [lockStep.index]
  constructor
  · rintro ⟨inside, named⟩
    have below : id.index < earlier.length := placed.size ▸ inside
    exact ⟨earlier[id.index], List.getElem?_eq_getElem below,
      (placed.fullName (List.getElem?_eq_getElem below)).symm.trans named⟩
  · rintro ⟨input, found, rfl⟩
    have below : id.index < earlier.length := (List.getElem?_eq_some_iff.mp found).1
    exact ⟨by rwa [Has, placed.size], placed.fullName found⟩

theorem fullName_of_lookup (found : g.lookup name = some id) : g.fullName id = name := by
  obtain ⟨input, listed, rfl⟩ := placed.lookup_iff.mp found
  exact placed.fullName listed

theorem lookup_eq_none (fresh : ∀ other ∈ earlier, other.name ≠ name) : g.lookup name = none := by
  refine Option.eq_none_iff_forall_ne_some.mpr fun id found => ?_
  obtain ⟨input, among, named⟩ := placed.lookup_iff.mp found
  exact fresh input (List.mem_of_getElem? among) named

theorem exists_lookup (among : input ∈ earlier) : ∃ id, g.lookup input.name = some id ∧
    (g.entity id).module? = some { isPackage := input.isPackage } := by
  obtain ⟨place, found⟩ := List.mem_iff_getElem?.mp among
  exact ⟨⟨place⟩, placed.lookup_iff.mpr ⟨input, found, rfl⟩, placed.info found⟩

theorem append (change : Change g h) (added : g.addModule input.name input.isPackage = .ok (h, ⟨g.size⟩))
    (free : g.lookup input.name = none) (kept : ∀ {id}, g.Has id → (h.entity id).name = (g.entity id).name)
    (segment : IsSegment (h.entity ⟨g.size⟩).name) : Placed options h (earlier ++ [input]) := by
  have sound := placed.sound
  have path : Path g h := .one change
  have lockStep := placed.registered.lockStep sound placed.segmented
  obtain ⟨size, own, parent, read⟩ := read_addModule added
  have segmented : h.Segmented := by
    intro id inside
    rw [Has, size, ← g.size_alloc (newModule own parent input.isPackage ⟨g.size⟩), ← Has, has_alloc] at inside
    rcases inside with before | rfl
    · rw [kept before]
      exact placed.segmented id before
    · exact segment
  have fullName {id : EntityId} (inside : g.Has id) : h.fullName id = g.fullName id := by
    have stays : Stays g id h := by
      intro upper above
      have insideUpper := above.has sound.rooted inside
      exact ⟨kept insideUpper, by rw [read Entity.parent fun _ _ _ => rfl, entity_alloc_of_has _ _ insideUpper]⟩
    exact stays.fullName path sound inside
  have place_cases {place : Nat} {other : SourceModule} (found : (earlier ++ [input])[place]? = some other) :
      (g.Has ⟨place⟩ ∧ earlier[place]? = some other) ∨ (place = g.size ∧ other = input) := by
    rw [Has, placed.size]
    rcases Nat.lt_or_ge place earlier.length with before | behind
    · rw [List.getElem?_append_left before] at found
      exact .inl ⟨before, found⟩
    · rw [List.getElem?_append_right behind] at found
      simp only [List.getElem?_singleton, Option.ite_none_right_eq_some, Option.some.injEq] at found
      exact .inr ⟨by omega, found.2.symm⟩
  refine ⟨placed.path.trans path, change.registered sound placed.registered segmented, segmented, ?_, fun found => ?_,
    fun found => ?_⟩
  · rw [size, placed.size, List.length_append, List.length_singleton]
  · rw [read Entity.module? fun _ _ _ => rfl]
    rcases place_cases found with ⟨inside, before⟩ | ⟨rfl, rfl⟩
    · rw [entity_alloc_of_has _ _ inside]
      exact placed.info before
    · rw [entity_alloc, if_pos rfl]
      rfl
  · rcases place_cases found with ⟨inside, before⟩ | ⟨rfl, rfl⟩
    · rw [fullName inside]
      exact placed.fullName before
    · exact fullName_addModule added sound (lockStep.vacant (.inr free))

theorem addModule (placeable : Placeable earlier input) :
    ∃ h, g.addModule input.name input.isPackage = .ok (h, ⟨g.size⟩) ∧ Placed options h (earlier ++ [input]) := by
  have sound := placed.sound
  have free := placed.lookup_eq_none placeable.fresh
  cases parted : Dotted.qualifier? input.name with
  | none =>
      let e := newModule input.name none input.isPackage ⟨g.size⟩
      have added : g.addModule input.name input.isPackage =
          .ok (({ (g.alloc e).1 with roots := g.roots ++ [⟨g.size⟩] } : Graph).register ⟨g.size⟩, ⟨g.size⟩) := by
        simp [Graph.addModule, free, modulePlace, parted, alloc, e]
      have entity (id : EntityId) :
          (({ (g.alloc e).1 with roots := g.roots ++ [⟨g.size⟩] } : Graph).register ⟨g.size⟩).entity id =
            (g.alloc e).1.entity id := by
        rw [entity_congr (entities_register _ _)]
        rfl
      have untaken : ((g.lookup input.name).map g.isModule).getD false = false := by simp [free]
      have change := Change.root (blank_newModule input.name none input.isPackage ⟨g.size⟩) rfl rfl untaken
      refine ⟨_, added, placed.append change added free (fun inside => ?_) ?_⟩
      · rw [entity, entity_alloc_of_has _ _ inside]
      · rw [entity, entity_alloc, if_pos rfl]
        exact isSegment_of_qualifier?_eq_none parted
  | some place =>
      obtain ⟨parentName, own⟩ := place
      obtain ⟨equal, segment⟩ := Dotted.qualifier?_eq_some parted
      obtain ⟨package, among, rfl, isPackage⟩ := placeable.package parentName own equal segment
      obtain ⟨parent, found, info⟩ := placed.exists_lookup among
      let e := newModule own (some parent) input.isPackage ⟨g.size⟩
      have isPackage : g.isPackage parent = true := by rw [Graph.isPackage, info, isPackage]; rfl
      have type := type_of_isPackage isPackage
      have inside : g.Has parent := g.has_of_type (by rw [type]; decide)
      have added : g.addModule input.name input.isPackage =
          .ok ((g.alloc e).1.attach parent ⟨g.size⟩, ⟨g.size⟩) := by
        simp [Graph.addModule, free, modulePlace, parted, found, isPackage, alloc, e]
      have blank := blank_newModule own (some parent) input.isPackage ⟨g.size⟩
      have change := Change.declare blank rfl inside fun _ => type
      have untaken : g.lookup (Dotted.extend (g.fullName parent) own) = none := by
        rw [placed.fullName_of_lookup found, ← equal, free]
      have names := name_declare_of_free blank rfl inside sound
        (placed.registered.lockStep sound placed.segmented) untaken
      refine ⟨_, added, placed.append change added free (fun inside => ?_) ?_⟩
      · rw [names, entity_alloc_of_has _ _ inside]
      · rw [names, entity_alloc, if_pos rfl]
        exact segment

theorem refused (misplaced : ¬ Placeable earlier input) :
    ∃ reason, g.addModule input.name input.isPackage = .error reason := by
  by_contra accepted
  refine misplaced ⟨fun other among same => accepted ?_, fun parent own equal segment => ?_⟩
  · obtain ⟨id, found, info⟩ := placed.exists_lookup among
    have type := Entity.type_of_module? info
    exact ⟨.duplicateModule input.name, by simp [Graph.addModule, ← same, found, isModule, type]⟩
  · by_contra missing
    apply accepted
    have parted : Dotted.qualifier? input.name = some (parent, own) := equal ▸ Dotted.qualifier?_extend segment parent
    have unplaced : ∃ reason, g.modulePlace input.name = .error reason := by
      cases found : g.lookup parent with
      | none => exact ⟨.missingParentPackage input.name parent, by simp [modulePlace, parted, found]⟩
      | some id =>
          obtain ⟨package, listed, named⟩ := placed.lookup_iff.mp found
          have plain : g.isPackage id = false := by
            rw [Graph.isPackage, placed.info listed]
            by_contra isPackage
            exact missing ⟨package, List.mem_of_getElem? listed, named, by simpa using isPackage⟩
          exact ⟨.notAPackage input.name parent, by simp [modulePlace, parted, found, plain]⟩
    obtain ⟨reason, unplaced⟩ := unplaced
    by_cases taken : ((g.lookup input.name).map g.isModule).getD false = true
    · exact ⟨.duplicateModule input.name, by simp [Graph.addModule, taken]⟩
    · exact ⟨reason, by simp [Graph.addModule, taken, unplaced]⟩

end Placed

/-- The modules with the numbers that they are registered under. -/
def numberedEntries (inputs : List SourceModule) : List (EntityId × SourceModule) :=
  inputs.mapIdx fun place input => (⟨place⟩, input)

theorem numberedEntries_concat (inputs : List SourceModule) (input : SourceModule) :
    numberedEntries (inputs ++ [input]) = numberedEntries inputs ++ [(⟨inputs.length⟩, input)] := by
  simp [numberedEntries, List.mapIdx_append]

theorem mem_numberedEntries {entry : EntityId × SourceModule} :
    entry ∈ numberedEntries inputs ↔ inputs[entry.1.index]? = some entry.2 := by
  rw [numberedEntries, List.mem_mapIdx, List.getElem?_eq_some_iff]
  constructor
  · rintro ⟨place, below, rfl⟩
    exact ⟨below, rfl⟩
  · rintro ⟨below, equal⟩
    exact ⟨entry.1.index, below, by rw [equal]⟩

theorem map_numberedEntries {α : Type} (f : EntityId × SourceModule → α) (inputs : List SourceModule) :
    (numberedEntries inputs).map f = inputs.mapIdx fun place input => f (⟨place⟩, input) :=
  List.ext_getElem (by simp [numberedEntries]) (by simp [numberedEntries])

theorem nodup_numberedEntries (inputs : List SourceModule) : ((numberedEntries inputs).map Prod.fst).Nodup := by
  have numbers : (numberedEntries inputs).map Prod.fst = (List.range inputs.length).map EntityId.mk := by
    rw [map_numberedEntries]
    exact List.ext_getElem (by simp) (by simp)
  rw [numbers]
  exact List.Nodup.map (fun _ _ same => congrArg EntityId.index same) List.nodup_range

theorem Placed.register {options : Options} {g : Graph} (placed : Placed options g earlier)
    (placeable : Placeable earlier input) :
    ∃ h, register (g, numberedEntries earlier) input = .ok (h, numberedEntries (earlier ++ [input])) ∧
      Placed options h (earlier ++ [input]) := by
  obtain ⟨h, added, next⟩ := placed.addModule placeable
  exact ⟨h, by simp [Batch.register, added, numberedEntries_concat, placed.size], next⟩

theorem register_inOrder {options : Options} {g : Graph} (placed : Placed options g earlier)
    (inOrder : InOrder earlier later) :
    ∃ h, later.foldlM register (g, numberedEntries earlier) = .ok (h, numberedEntries (earlier ++ later)) ∧
      Placed options h (earlier ++ later) := by
  induction later generalizing g earlier with
  | nil => exact ⟨g, by simp [pure, Except.pure], by simpa using placed⟩
  | cons input rest ih =>
      obtain ⟨h, first, next⟩ := placed.register inOrder.1
      obtain ⟨k, registered, last⟩ := ih next inOrder.2
      rw [List.append_assoc] at registered last
      refine ⟨k, ?_, last⟩
      rw [List.foldlM_cons, first]
      exact registered

theorem register_disordered {options : Options} {g : Graph} (placed : Placed options g earlier)
    (disordered : ¬ InOrder earlier later) :
    ∃ input ∈ later, ∃ reason, later.foldlM register (g, numberedEntries earlier) =
      .error (.moduleRegistration input.name reason) := by
  induction later generalizing g earlier with
  | nil => exact absurd trivial disordered
  | cons input rest ih =>
      by_cases placeable : Placeable earlier input
      · obtain ⟨h, first, next⟩ := placed.register placeable
        obtain ⟨refused, among, reason, registered⟩ := ih next fun inOrder => disordered ⟨placeable, inOrder⟩
        refine ⟨refused, List.mem_cons_of_mem _ among, reason, ?_⟩
        rw [List.foldlM_cons, first]
        exact registered
      · obtain ⟨reason, refusal⟩ := placed.refused placeable
        refine ⟨input, List.mem_cons_self, reason.message, ?_⟩
        rw [List.foldlM_cons, Batch.register, refusal]
        rfl

end Batch

end DocGraph
