import Std.Data.ExtTreeMap

/-!
Maps from names, in ascending order of the names. Two maps that give the same answer to every name
are equal.
-/
namespace DocGraph

abbrev NameMap (α : Type) := Std.ExtTreeMap String α compare

namespace NameMap

variable {α : Type}

theorem get_insert (map : NameMap α) (name other : String) (value : α) :
    (map.insert name value)[other]? = if name = other then some value else map[other]? := by
  rw [Std.ExtTreeMap.getElem?_insert]
  simp only [Std.LawfulEqCmp.compare_eq_iff_eq]

theorem get_erase (map : NameMap α) (name other : String) :
    (map.erase name)[other]? = if name = other then none else map[other]? := by
  rw [Std.ExtTreeMap.getElem?_erase]
  simp only [Std.LawfulEqCmp.compare_eq_iff_eq]

theorem ext {left right : NameMap α} (same : ∀ name : String, left[name]? = right[name]?) :
    left = right :=
  Std.ExtTreeMap.ext_getElem? same

end NameMap

end DocGraph
