import Mathlib.Data.List.Induction
import DocGraph.Expr.Dotted
import DocGraph.Proofs.Names.Parts

namespace DocGraph

namespace Dotted

theorem parts_join {segments : List String} (nonempty : segments ≠ [])
    (whole : ∀ segment ∈ segments, IsSegment segment) : parts (join segments) = segments := by
  induction segments using List.reverseRecOn with
  | nil => exact absurd rfl nonempty
  | append_singleton front last ih =>
      have lastWhole : IsSegment last := whole last (by simp)
      cases front with
      | nil => simpa [join] using parts_of_isSegment lastWhole
      | cons first rest =>
          have frontWhole : ∀ segment ∈ first :: rest, IsSegment segment := fun segment member =>
            whole segment (List.mem_append_left _ member)
          rw [join_concat (List.cons_ne_nil _ _), parts_extend lastWhole, ih (List.cons_ne_nil _ _) frontWhole]

end Dotted

namespace Expr

open Dotted (IsSegment)

/-- A bare name, or an attribute of a chain. -/
inductive IsChain : Expr → Prop
  | name (id : String) : IsChain (.name id)
  | member {value : Expr} (inner : IsChain value) (attr : String) : IsChain (.attribute value attr)

theorem isSome_segments? {expr : Expr} : expr.segments?.isSome ↔ expr.IsChain := by
  constructor
  · fun_induction segments? expr with
    | case1 id => exact fun _ => .name id
    | case2 value attr ih => exact fun found => .member (ih (by simpa using found)) attr
    | case3 => exact fun found => absurd found (by simp)
  · intro chain
    induction chain with
    | name id => rfl
    | member inner attr ih => simpa [segments?] using ih

theorem ofSegments_concat {segments : List String} (nonempty : segments ≠ []) (last : String) :
    ofSegments (segments ++ [last]) = (ofSegments segments).attribute last := by
  cases segments with
  | nil => exact absurd rfl nonempty
  | cons first rest => simp [ofSegments]

theorem segments?_ne_nil {expr : Expr} {segments : List String} (spelled : expr.segments? = some segments) :
    segments ≠ [] := by
  rintro rfl
  cases expr <;> simp [segments?] at spelled

theorem segments?_ofSegments {segments : List String} (nonempty : segments ≠ []) :
    (ofSegments segments).segments? = some segments := by
  induction segments using List.reverseRecOn with
  | nil => exact absurd rfl nonempty
  | append_singleton front last ih =>
      by_cases single : front = []
      · subst single
        rfl
      · rw [ofSegments_concat single, segments?, ih single]
        rfl

theorem eq_ofSegments {expr : Expr} {segments : List String} (spelled : expr.segments? = some segments) :
    expr = ofSegments segments := by
  induction segments using List.reverseRecOn generalizing expr with
  | nil => exact absurd rfl (segments?_ne_nil spelled)
  | append_singleton front last ih =>
      cases expr with
      | name id =>
          have same : [] ++ [id] = front ++ [last] := Option.some.inj spelled
          obtain ⟨rfl, rfl⟩ := List.append_singleton_inj.mp same
          rfl
      | «attribute» value attr =>
          obtain ⟨inner, along, same⟩ := Option.map_eq_some_iff.mp spelled
          obtain ⟨rfl, rfl⟩ := List.append_singleton_inj.mp same
          rw [ofSegments_concat (segments?_ne_nil along), ← ih along]
      | _ => simp [segments?] at spelled

theorem segments?_ofDotted (path : String) : (ofDotted path).segments? = some (Dotted.parts path) :=
  segments?_ofSegments (Dotted.parts_ne_nil path)

theorem dotted?_ofDotted (path : String) : (ofDotted path).dotted? = some path := by
  rw [dotted?, segments?_ofDotted, Option.map_some, Dotted.join_parts]

theorem ofDotted_join {expr : Expr} {names : List String} (along : expr.segments? = some names)
    (whole : ∀ name ∈ names, IsSegment name) : ofDotted (Dotted.join names) = expr := by
  rw [ofDotted, Dotted.parts_join (segments?_ne_nil along) whole, ← eq_ofSegments along]

/-- The chain that a text spells has no dot in its names, since the text is cut at every dot. -/
theorem isSegment_of_ofDotted {path : String} {names : List String} (along : (ofDotted path).segments? = some names) :
    ∀ name ∈ names, IsSegment name := by
  rw [segments?_ofDotted, Option.some.injEq] at along
  exact fun name member => Dotted.isSegment_of_mem_parts (along ▸ member)

/-- Texts and chains are inverse to each other. Dots inside of names are the one thing that the text does not keep. -/
theorem dotted_chain_inverse (path : String) (expr : Expr) :
    (ofDotted path).dotted? = some path ∧
      (∀ names, expr.segments? = some names →
        ((∀ name ∈ names, '.' ∉ name.toList) ↔ ∃ text, expr.dotted? = some text ∧ ofDotted text = expr)) ∧
      (expr.segments? = none ↔ ¬ expr.IsChain) := by
  refine ⟨dotted?_ofDotted path, fun names along => ⟨fun whole => ?_, ?_⟩, ?_⟩
  · exact ⟨Dotted.join names, by rw [dotted?, along, Option.map_some], ofDotted_join along whole⟩
  · rintro ⟨text, -, rfl⟩
    exact isSegment_of_ofDotted along
  · rw [← isSome_segments?, Bool.not_eq_true, Option.isSome_eq_false_iff, Option.isNone_iff_eq_none]

/-- Empty names at both ends are kept: the text is `.a.`. -/
theorem dotted_chain_blank_ends :
    ((Expr.name "").attribute "a" |>.attribute "").segments? = some ["", "a", ""] ∧
      ∃ text, ((Expr.name "").attribute "a" |>.attribute "").dotted? = some text ∧
        ofDotted text = ((Expr.name "").attribute "a" |>.attribute "") :=
  ⟨rfl, ((dotted_chain_inverse ".a." _).2.1 ["", "a", ""] rfl).mp (by simp)⟩

end Expr

end DocGraph
