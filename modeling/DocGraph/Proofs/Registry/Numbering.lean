import DocGraph.Proofs.Registry.Placement

namespace DocGraph.Graph

variable {g : Graph} {id owner parent child previous : EntityId} {name key : String} {n : Nat}

theorem isSome_lookup_of_lt_freeNumberFrom {fuel start : Nat} (least : start ≤ n)
    (below : n < g.freeNumberFrom name fuel start) : (g.lookup (numbered name n)).isSome := by
  induction fuel generalizing start with
  | zero =>
      simp only [freeNumberFrom] at below
      omega
  | succ fuel ih =>
      unfold freeNumberFrom at below
      split at below
      · rename_i taken
        rcases Nat.eq_or_lt_of_le least with rfl | later
        · exact taken
        · exact ih later below
      · omega

theorem freeNumber_eq (taken : ∀ k < n, (g.lookup (numbered name k)).isSome)
    (free : g.lookup (numbered name n) = none) : g.freeNumber name = n := by
  rcases Nat.lt_trichotomy (g.freeNumber name) n with below | equal | above
  · have missing := taken _ below
    rw [g.lookup_freeNumber] at missing
    cases missing
  · exact equal
  · have found := isSome_lookup_of_lt_freeNumberFrom (Nat.zero_le n) above
    rw [free] at found
    cases found

theorem attach_of_free (free : (g.entity parent).contents.get? (g.entity child).name = none) :
    g.attach parent child = (g.bindChild parent (g.entity child).name child).register child := by
  simp [attach, free]

theorem get?_attach_of_free (free : (g.entity parent).contents.get? (g.entity child).name = none)
    (inside : g.Has parent) (key : String) :
    ((g.attach parent child).entity parent).contents.get? key =
      if (g.entity child).name = key then some child else (g.entity parent).contents.get? key := by
  rw [attach_of_free free, entity_congr (entities_register _ _), contents_bindChild inside, if_pos rfl,
    Contents.get?_insert]

theorem diagnostics_attach_of_free (free : (g.entity parent).contents.get? (g.entity child).name = none) :
    (g.attach parent child).diagnostics = g.diagnostics := by
  rw [attach_of_free free, register_eq]
  rfl

section taken

variable (unlisted : g.Unlisted child)
  (taken : (g.entity parent).contents.get? (g.entity child).name = some previous)

include unlisted taken

theorem ne_of_taken : previous ≠ child := by
  rintro rfl
  exact unlisted parent _ taken

theorem attach_of_taken :
    g.attach parent child =
      (g.report child ("duplicate " ++ g.describe previous) "ast" 0 1).demote parent
        (g.contest previous child).1 (g.contest previous child).2 (g.entity child).name
        (g.freeNumber (g.fullName previous)) := by
  simp only [attach, taken, if_neg (ne_of_taken unlisted taken), attachDuplicate]

/-- Only the loser gets another name. -/
theorem name_attach_of_taken (inside : g.Has (g.contest previous child).2) (id : EntityId) :
    ((g.attach parent child).entity id).name =
      if id = (g.contest previous child).2 then
        numbered (g.entity child).name (g.freeNumber (g.fullName previous))
      else (g.entity id).name := by
  rw [attach_of_taken unlisted taken, entity_congr (entities_demote _ _ _ _ _ _)]
  exact name_relabel inside id

theorem get?_attach_of_taken (inside : g.Has parent) (key : String) :
    ((g.attach parent child).entity parent).contents.get? key =
      if numbered (g.entity child).name (g.freeNumber (g.fullName previous)) = key then
        some (g.contest previous child).2
      else if (g.entity child).name = key then some (g.contest previous child).1
      else (g.entity parent).contents.get? key := by
  rw [attach_of_taken unlisted taken, entity_congr (entities_demote _ _ _ _ _ _)]
  exact (get?_relabel inside parent key).trans (if_pos rfl)

theorem diagnostics_attach_of_taken :
    (g.attach parent child).diagnostics =
      (g.report child ("duplicate " ++ g.describe previous) "ast" 0 1).diagnostics := by
  rw [attach_of_taken unlisted taken, demote_eq, register_eq, register_eq, unregister_eq]
  rfl

end taken

theorem segmented_attach (tabled : g.Tabled) (unlisted : g.Unlisted child) (held : g.IsParent parent child)
    (segmented : g.Segmented) : (g.attach parent child).Segmented := by
  intro id inside
  have own := segmented id ((arranged_attach g parent child).has.mp inside)
  cases found : (g.entity parent).contents.get? (g.entity child).name with
  | none =>
      rw [attach_of_free found, entity_congr (entities_register _ _), name_bindChild]
      exact own
  | some previous =>
      have loser := ((contest_roles g previous child).loser_held tabled held rfl found).1
      rw [name_attach_of_taken unlisted found (g.has_of_parent loser)]
      split
      · exact isSegment_numbered.mpr (segmented child (g.has_of_parent held))
      · exact own

end DocGraph.Graph
