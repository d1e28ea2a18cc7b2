import DocGraph.Proofs.Registry.Numbering
import DocGraph.Proofs.Run.InTable
import DocGraph.Proofs.Run.Trace

namespace DocGraph.Graph

variable {g h : Graph} {id oldParent target parent child previous : EntityId} {name : String}

/-- A child gets another name only where an earlier child keeps it. -/
theorem name_attach_self (tabled : g.Tabled) (unlisted : g.Unlisted child)
    (room : g.options.duplicatePolicy = .firstWins →
      (g.entity parent).contents.get? (g.entity child).name = none) :
    ((g.attach parent child).entity child).name = (g.entity child).name := by
  cases found : (g.entity parent).contents.get? (g.entity child).name with
  | none => rw [attach_of_free found, entity_congr (entities_register _ _), name_bindChild]
  | some previous =>
      have wins : (g.contest previous child).2 = previous := by
        unfold contest
        split
        · rfl
        · rename_i first
          rw [room first] at found
          cases found
      have inside : g.Has previous := g.has_of_parent (tabled.bound found).1
      rw [name_attach_of_taken unlisted found (wins.symm ▸ inside), wins,
        if_neg (ne_of_taken unlisted found).symm]

theorem name_attach_of_firstWins (unlisted : g.Unlisted child) (inside : g.Has child)
    (first : g.options.duplicatePolicy = .firstWins)
    (taken : (g.entity parent).contents.get? (g.entity child).name = some previous) :
    ((g.attach parent child).entity child).name ≠ (g.entity child).name := by
  have loses : (g.contest previous child).2 = child := by simp [contest, first]
  rw [name_attach_of_taken unlisted taken (loses.symm ▸ inside), loses, if_pos rfl]
  exact numbered_ne _ _

theorem move_of_held (held : g.IsParent target id) (named : (g.entity id).name = name) :
    g.move id target name = .ok g := by
  simp only [move]
  rw [if_pos ⟨held, named⟩]

theorem move_of_moved (type : (g.entity id).type ≠ .module) (moved : (g.entity id).moved = true)
    (unlike : (g.entity id).name ≠ name) :
    g.move id target name = .error (.cannotMove (g.fullName id) .alreadyMoved) := by
  have refused : g.moveRefusal? id target = some .alreadyMoved := by
    simp only [moveRefusal?, if_neg type, moved, if_true]
  simp only [move]
  rw [if_neg fun both => unlike both.2, refused]

/-- The name is kept by another child of the target, and the entity has yet to be moved there. -/
structure Displaced (g : Graph) (id target : EntityId) (name : String) : Prop where
  first : g.options.duplicatePolicy = .firstWins
  away : ¬ (g.IsParent target id ∧ (g.entity id).name = name)
  taken : ((g.entity target).contents.get? name).isSome

/-- A move to a place that the entity does not have yet puts it below the target, under the name asked
for unless that is kept by another child. -/
theorem placed_of_move (sound : g.Sound) (moved : g.move id target name = .ok h)
    (away : ¬ (g.IsParent target id ∧ (g.entity id).name = name)) :
    h.IsParent target id ∧ (h.entity id).moved = true ∧ (h.entity id).type ≠ .module ∧
      ((h.entity id).name = name ↔ ¬ g.Displaced id target name) := by
  rcases move_cases moved with ⟨_, held⟩ | ⟨oldParent, held, type, _, _, equal⟩
  · exact absurd held away
  have rooted := sound.rooted
  have has : (g.uproot id oldParent target (g.entity id).name name).Has id :=
    has_uproot.mpr (g.has_of_parent held)
  have unlisted : (g.uproot id oldParent target (g.entity id).name name).Unlisted id :=
    unlisted_uproot rooted sound.tabled held
  have tabled : (g.uproot id oldParent target (g.entity id).name name).Tabled :=
    tabled_uproot rooted sound.tabled held
  have options : (g.uproot id oldParent target (g.entity id).name name).options = g.options :=
    (arranged_unregister g id).options
  have own : (g.uproot id oldParent target (g.entity id).name name).entity id =
      { g.entity id with parent := some target, name, moved := true } := by
    rw [entity_uproot rooted held, if_pos rfl]
  -- The entity leaves another place of the tables than the one it is moved to.
  have table : ((g.uproot id oldParent target (g.entity id).name name).entity target).contents.get? name =
      (g.entity target).contents.get? name := by
    rw [contents_uproot rooted held, if_neg]
    rintro ⟨rfl, named⟩
    exact away ⟨held, named⟩
  generalize g.uproot id oldParent target (g.entity id).name name = u at *
  have arranged := arranged_attach u target id
  have same : SameTree (u.attach target id) h := (equal ▸ Touch.bind _ _ _ : Touch _ h).overlaid.sameTree
  refine ⟨?_, ?_, ?_, ?_⟩
  · rw [IsParent, same.parent, arranged.read Entity.parent (fun _ _ _ => rfl), own]
  · rw [equal, read_modify _ _ _ Entity.moved (by intro; rfl),
      arranged.read Entity.moved (fun _ _ _ => rfl), own]
  · rw [read_move moved Entity.type (fun _ _ _ _ _ _ => rfl)]
    exact type
  · rw [same.name]
    have named : (u.entity id).name = name := by rw [own]
    by_cases displaced : g.Displaced id target name
    · obtain ⟨previous, taken⟩ := Option.isSome_iff_exists.mp displaced.taken
      have renamed := name_attach_of_firstWins unlisted has (options ▸ displaced.first)
        (named.symm ▸ table.trans taken)
      rw [named] at renamed
      exact iff_of_false renamed (not_not_intro displaced)
    · refine iff_of_true ?_ displaced
      rw [name_attach_self tabled unlisted, named]
      intro first
      rw [named, table]
      exact Option.not_isSome_iff_eq_none.mp fun taken => displaced ⟨options ▸ first, away, taken⟩

theorem move_move {options : Options} (path : Path (empty options) g)
    (moved : g.move id target name = .ok h) :
    (¬ g.Displaced id target name → h.move id target name = .ok h) ∧
      (g.Displaced id target name →
        h.move id target name = .error (.cannotMove (h.fullName id) .alreadyMoved)) := by
  by_cases away : g.IsParent target id ∧ (g.entity id).name = name
  · have same : h = g := Except.ok.inj (moved.symm.trans (move_of_held away.1 away.2))
    subst same
    exact ⟨fun _ => moved, fun displaced => absurd away displaced.away⟩
  · obtain ⟨held, once, type, named⟩ := placed_of_move (path.sound (sound_empty options)) moved away
    exact ⟨fun room => move_of_held held (named.mpr room),
      fun displaced => move_of_moved type once fun same => named.mp same displaced⟩

/-- Two modules with a class of the same name in each. -/
def namesakes : List Call :=
  [.addModule "a" false, .addModule "b" false,
    .build Hook.standard ⟨0⟩ (.ok { body := [.classDef { name := "X", line := 1 } []] }),
    .build Hook.standard ⟨1⟩ (.ok { body := [.classDef { name := "X", line := 1 } []] })]

theorem path_namesakes (options : Options) : Path (empty options) (run (empty options) namesakes) :=
  path_run (sound_empty options)
    ⟨trivial, trivial, Hook.describes_standard, Hook.describes_standard, trivial⟩

/-- The later class takes the name, and the earlier one of the target is numbered. -/
theorem move_move_namesakes :
    ∃ h, (run (empty {}) namesakes).move ⟨2⟩ ⟨1⟩ "X" = .ok h ∧ h.fullName ⟨2⟩ = "b.X" ∧
      h.fullName ⟨3⟩ = "b.X 0" ∧ h.move ⟨2⟩ ⟨1⟩ "X" = .ok h := by
  have names : ((run (empty {}) namesakes).move ⟨2⟩ ⟨1⟩ "X").toOption.map
      (fun h => (h.fullName ⟨2⟩, h.fullName ⟨3⟩)) = some ("b.X", "b.X 0") := by decide +kernel
  have room : ¬ (run (empty {}) namesakes).Displaced ⟨2⟩ ⟨1⟩ "X" := fun displaced =>
    absurd displaced.first (by decide +kernel)
  cases moved : (run (empty {}) namesakes).move ⟨2⟩ ⟨1⟩ "X" with
  | error refusal =>
      rw [moved] at names
      cases names
  | ok h =>
      rw [moved] at names
      simp only [Except.toOption, Option.map_some, Option.some.injEq, Prod.mk.injEq] at names
      exact ⟨h, rfl, names.1, names.2, (move_move (path_namesakes {}) moved).1 room⟩

/-- A move that is made, and refused when it is repeated. -/
theorem move_namesakes_refused :
    ∃ h, (run (empty { duplicatePolicy := .firstWins }) namesakes).move ⟨2⟩ ⟨1⟩ "X" = .ok h ∧
      h.move ⟨2⟩ ⟨1⟩ "X" ≠ .ok h := by
  have refused : ((run (empty { duplicatePolicy := .firstWins }) namesakes).move ⟨2⟩ ⟨1⟩ "X").toOption.map
      (fun h => (h.move ⟨2⟩ ⟨1⟩ "X").isOk) = some false := by decide +kernel
  cases moved : (run (empty { duplicatePolicy := .firstWins }) namesakes).move ⟨2⟩ ⟨1⟩ "X" with
  | error refusal =>
      rw [moved] at refused
      cases refused
  | ok h =>
      refine ⟨h, rfl, fun again => ?_⟩
      rw [moved] at refused
      simp only [Except.toOption, Option.map_some, again, Except.isOk, Except.toBool, Option.some.injEq] at refused
      cases refused

end DocGraph.Graph
