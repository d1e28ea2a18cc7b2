import Mathlib.Data.List.Nodup
import DocGraph.Entity.Contents

namespace DocGraph.Contents

/-- The order holds exactly the names that are bound, each of them once. -/
structure Listed (contents : Contents) : Prop where
  nodup : contents.order.Nodup
  mem_order : ∀ name, name ∈ contents.order ↔ (contents.get? name).isSome

theorem listed_empty : Listed {} := by
  refine ⟨List.nodup_nil, fun name => ?_⟩
  simp [get?]

section listed

variable {contents : Contents}

theorem Listed.insert (listed : contents.Listed) (name : String) (id : EntityId) :
    (contents.insert name id).Listed := by
  constructor
  · unfold Contents.insert
    split
    · exact listed.nodup
    · rename_i free
      have fresh : name ∉ contents.order := fun member =>
        free (by simpa [contains] using (listed.mem_order name).mp member)
      simpa [List.nodup_append] using ⟨listed.nodup, fun other member equal => fresh (equal ▸ member)⟩
  · intro other
    rw [get?_insert]
    by_cases same : name = other
    · subst same
      simp only [if_pos, Option.isSome_some, iff_true]
      unfold Contents.insert
      split
      · rename_i bound
        exact (listed.mem_order name).mpr bound
      · simp
    · simp only [if_neg same, ← listed.mem_order]
      unfold Contents.insert
      split
      · rfl
      · simp [Ne.symm same]

theorem Listed.erase (listed : contents.Listed) (name : String) : (contents.erase name).Listed := by
  constructor
  · exact listed.nodup.filter _
  · intro other
    rw [get?_erase]
    by_cases same : name = other
    · simp [Contents.erase, same]
    · simp [Contents.erase, listed.mem_order, same, Ne.symm same]

theorem Listed.unbind_eq (listed : contents.Listed) (name : String) :
    contents.unbind name = (contents.get? name, contents.erase name) := by
  unfold unbind
  cases bound : contents.get? name with
  | some removed => rfl
  | none =>
      -- A name that is not bound does not stand in the order either, so erasing it changes nothing.
      have absent : name ∉ contents.order := by simp [listed.mem_order, bound]
      have order : contents.order.filter (· != name) = contents.order :=
        List.filter_eq_self.mpr fun other member => by simpa using ne_of_mem_of_not_mem member absent
      have index : contents.index.erase name = contents.index := by
        refine NameMap.ext fun other => ?_
        rw [NameMap.get_erase]
        split
        · rename_i same
          exact (same ▸ bound).symm
        · rfl
      rw [Contents.erase, order, index]

theorem Listed.mem_ids (listed : contents.Listed) {id : EntityId} :
    id ∈ contents.ids ↔ ∃ name, contents.get? name = some id := by
  simp only [ids, entries, List.mem_map, List.mem_filterMap, Option.map_eq_some_iff]
  constructor
  · rintro ⟨_, ⟨name, _, _, found, rfl⟩, rfl⟩
    exact ⟨name, found⟩
  · rintro ⟨name, found⟩
    exact ⟨(name, id), ⟨name, (listed.mem_order name).mpr (by simp [found]), id, found, rfl⟩, rfl⟩

end listed

/-- Puts the child into the first binding of the name; without one, puts a binding at the end. -/
def put : List (String × EntityId) → String → EntityId → List (String × EntityId)
  | [], name, id => [(name, id)]
  | binding :: rest, name, id => if binding.1 = name then (name, id) :: rest else binding :: put rest name id

def takeOut (bindings : List (String × EntityId)) (name : String) : List (String × EntityId) :=
  bindings.filter (·.1 != name)

section bindings

variable (bindings : List (String × EntityId)) (name other : String) (id : EntityId)

theorem lookup_put :
    (put bindings name id).lookup other = if name = other then some id else bindings.lookup other := by
  induction bindings with
  | nil => grind [put]
  | cons binding rest ih =>
      rw [put]
      split <;> grind

theorem names_put :
    (put bindings name id).map Prod.fst =
      if (bindings.lookup name).isSome then bindings.map Prod.fst else bindings.map Prod.fst ++ [name] := by
  induction bindings with
  | nil => rfl
  | cons binding rest ih =>
      rw [put]
      split <;> grind

theorem lookup_takeOut :
    (takeOut bindings name).lookup other = if name = other then none else bindings.lookup other := by
  unfold takeOut
  induction bindings with
  | nil => simp
  | cons binding rest ih => grind

theorem names_takeOut : (takeOut bindings name).map Prod.fst = (bindings.map Prod.fst).filter (· != name) := by
  simp [takeOut, List.filter_map, Function.comp_def]

/-- With one binding for each name, the list is what its names in order and its lookups say. -/
theorem filterMap_lookup {bindings : List (String × EntityId)} (distinct : (bindings.map Prod.fst).Nodup) :
    ((bindings.map Prod.fst).filterMap fun name => (bindings.lookup name).map (name, ·)) = bindings := by
  induction bindings with
  | nil => rfl
  | cons binding rest ih =>
      obtain ⟨first, id⟩ := binding
      rw [List.map_cons, List.nodup_cons] at distinct
      -- The later names are not the first one, so they are looked up behind the first binding.
      have later : ∀ name ∈ rest.map Prod.fst,
          (((first, id) :: rest).lookup name).map (name, ·) = (rest.lookup name).map (name, ·) := by
        intro name member
        have apart : name ≠ first := fun same => distinct.1 (same ▸ member)
        rw [List.lookup_cons, beq_false_of_ne apart]
      rw [List.map_cons, List.filterMap_cons, List.filterMap_congr later, ih distinct.2]
      simp

end bindings

/-- Order and index have the same names, and whatever is asked of the table can be read off the list. -/
structure Agrees (contents : Contents) (bindings : List (String × EntityId)) : Prop extends Listed contents where
  entries : contents.entries = bindings
  names : contents.names = bindings.map Prod.fst
  ids : contents.ids = bindings.map Prod.snd
  size : contents.size = bindings.length
  isEmpty : contents.isEmpty = bindings.isEmpty
  get? : ∀ name, contents.get? name = bindings.lookup name
  contains : ∀ name, contents.contains name = (bindings.lookup name).isSome

section agreement

variable {contents : Contents} {bindings : List (String × EntityId)}

theorem Listed.agrees (listed : contents.Listed) (order : contents.order = bindings.map Prod.fst)
    (found : ∀ name, contents.get? name = bindings.lookup name) : contents.Agrees bindings := by
  have entries : contents.entries = bindings := by
    simp only [Contents.entries, order, found]
    exact filterMap_lookup (order ▸ listed.nodup)
  refine ⟨listed, entries, order, ?_, ?_, ?_, found, fun name => ?_⟩
  · rw [Contents.ids, entries]
  · rw [Contents.size, order, List.length_map]
  · rw [Contents.isEmpty, order, List.isEmpty_map]
  · rw [Contents.contains, found]

theorem Agrees.order (agrees : contents.Agrees bindings) : contents.order = bindings.map Prod.fst := agrees.names

theorem Agrees.insert (agrees : contents.Agrees bindings) (name : String) (id : EntityId) :
    (contents.insert name id).Agrees (put bindings name id) := by
  refine (agrees.toListed.insert name id).agrees ?_ fun other => ?_
  · rw [Contents.insert, agrees.contains, agrees.order, names_put]
  · rw [get?_insert, agrees.get?, lookup_put]

theorem Agrees.erase (agrees : contents.Agrees bindings) (name : String) :
    (contents.erase name).Agrees (takeOut bindings name) := by
  refine (agrees.toListed.erase name).agrees ?_ fun other => ?_
  · rw [Contents.erase, agrees.order, names_takeOut]
  · rw [get?_erase, agrees.get?, lookup_takeOut]

end agreement

inductive Operation where
  | insert (name : String) (id : EntityId)
  | remove (name : String)

def Operation.onTable : Operation → Contents → Option EntityId × Contents
  | .insert name id, contents => contents.bind name id
  | .remove name, contents => contents.unbind name

/-- The child that the name is bound to when the operation comes, and the list it leaves. -/
def Operation.onList : Operation → List (String × EntityId) → Option EntityId × List (String × EntityId)
  | .insert name id, bindings => (bindings.lookup name, put bindings name id)
  | .remove name, bindings => (bindings.lookup name, takeOut bindings name)

/-- Performs operations in turn. Gives all their answers, and what they leave. -/
def perform {α : Type} (on : Operation → α → Option EntityId × α) : List Operation → α → List (Option EntityId) × α
  | [], state => ([], state)
  | operation :: rest, state =>
      ((on operation state).1 :: (perform on rest (on operation state).2).1, (perform on rest (on operation state).2).2)

section operations

variable {contents : Contents} {bindings : List (String × EntityId)}

theorem Agrees.onTable (agrees : contents.Agrees bindings) (operation : Operation) :
    (operation.onTable contents).1 = (operation.onList bindings).1 ∧
      (operation.onTable contents).2.Agrees (operation.onList bindings).2 := by
  cases operation with
  | insert name id => exact ⟨agrees.get? name, agrees.insert name id⟩
  | remove name =>
      rw [Operation.onTable, Operation.onList, agrees.unbind_eq]
      exact ⟨agrees.get? name, agrees.erase name⟩

theorem Agrees.perform (agrees : contents.Agrees bindings) (operations : List Operation) :
    (perform Operation.onTable operations contents).1 = (perform Operation.onList operations bindings).1 ∧
      (perform Operation.onTable operations contents).2.Agrees (perform Operation.onList operations bindings).2 := by
  induction operations generalizing contents bindings with
  | nil => exact ⟨rfl, agrees⟩
  | cons operation rest ih =>
      obtain ⟨answer, after⟩ := agrees.onTable operation
      obtain ⟨answers, last⟩ := ih after
      exact ⟨by rw [Contents.perform, Contents.perform, answer, answers], last⟩

end operations

/-- A table that starts empty gives the answers of the list of bindings all along, and agrees with it in the end. -/
theorem perform_refines (operations : List Operation) :
    (perform Operation.onTable operations {}).1 = (perform Operation.onList operations []).1 ∧
      (perform Operation.onTable operations {}).2.Agrees (perform Operation.onList operations []).2 := by
  have empty : Agrees {} [] := listed_empty.agrees rfl fun name => by simp [get?]
  exact empty.perform operations

end DocGraph.Contents
