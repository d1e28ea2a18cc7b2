import DocGraph.Tree.Decode

namespace DocGraph.Json

variable {α β : Type} {decode : Decoder α} {encode : α → Json} {json : Json}

theorem bind_eq_ok {answer : Except Fault α} {next : α → Except Fault β} {b : β} :
    answer >>= next = .ok b ↔ ∃ a, answer = .ok a ∧ next a = .ok b := by
  cases answer <;> simp [bind, Except.bind]

theorem map_eq_ok {answer : Except Fault α} {f : α → β} {b : β} :
    answer.map f = .ok b ↔ ∃ a, answer = .ok a ∧ f a = b := by
  cases answer <;> simp [Except.map]

theorem heights_le_iff {items : List Json} {levels : Nat} :
    heights items ≤ levels ↔ ∀ item ∈ items, item.height ≤ levels := by
  induction items with
  | nil => simp [heights]
  | cons item rest ih => simp [heights, Nat.max_le, ih]

theorem fieldHeights_le_iff {fields : List (String × Json)} {levels : Nat} :
    fieldHeights fields ≤ levels ↔ ∀ field ∈ fields, field.2.height ≤ levels := by
  induction fields with
  | nil => simp [fieldHeights]
  | cons field rest ih => simp [fieldHeights, Nat.max_le, ih]

theorem height_lt_of_mem {item : Json} {items : List Json} (member : item ∈ items) :
    item.height < (arr items).height := by
  rw [height]
  exact Nat.lt_succ_of_le (heights_le_iff.mp (Nat.le_refl _) item member)

theorem height_obj_le_iff {fields : List (String × Json)} {levels : Nat} :
    (obj fields).height ≤ levels + 1 ↔ ∀ field ∈ fields, field.2.height ≤ levels := by
  rw [height, Nat.add_le_add_iff_right, fieldHeights_le_iff]

theorem height_tagged_le_iff {tag : String} {fields : List (String × Json)} {levels : Nat} :
    (tagged tag fields).height ≤ levels + 1 ↔ ∀ field ∈ fields, field.2.height ≤ levels := by
  rw [tagged, height_obj_le_iff, List.forall_mem_cons]
  exact and_iff_right (Nat.zero_le levels)

namespace Decoder

theorem str_str (value : String) : str (.str value) = .ok value := rfl

theorem bool_bool (value : Bool) : bool (.bool value) = .ok value := rfl

theorem u32_nat {n : Nat} (bound : n ≤ 4294967295) : u32 (.nat n) = .ok n := by
  have within : (0 : Int) ≤ n ∧ (n : Int) ≤ 4294967295 := by omega
  simp [u32, int, Json.nat, within, Except.map]

theorem bounds_of_int {name : String} {low high value : Int} (read : int name low high json = .ok value) :
    low ≤ value ∧ value ≤ high := by
  unfold int at read
  split at read
  · split at read
    · rename_i bounds
      cases read
      exact bounds
    · cases read
  · cases read

theorem le_of_u32 {n : Nat} (read : u32 json = .ok n) : n ≤ 4294967295 := by
  obtain ⟨value, inner, rfl⟩ := map_eq_ok.mp read
  have bounds := bounds_of_int inner
  omega

theorem i64_int {value : Int} (low : -9223372036854775808 ≤ value) (high : value ≤ 9223372036854775807) :
    i64 (.int value) = .ok value := by
  simp [i64, int, Json.int, low, high]

theorem list_map {values : List α} (reads : ∀ value ∈ values, decode (encode value) = .ok value) :
    list decode (.arr (values.map encode)) = .ok values := by
  rw [list]
  induction values with
  | nil => rfl
  | cons value rest ih =>
      rw [List.map_cons, List.mapM_cons, reads value List.mem_cons_self,
        ih fun value member => reads value (List.mem_cons_of_mem _ member)]
      rfl

theorem orNull_of_ne_null {value : α} (present : json ≠ .null) (read : decode json = .ok value) :
    orNull decode json = .ok (some value) := by
  unfold orNull
  split
  · exact absurd rfl present
  · rw [read]
    rfl

theorem orNull_optStr (value : Option String) : orNull str (.optStr value) = .ok value := by
  cases value <;> rfl

/-- Every value that a decoder reads passes a test. -/
def Ensures (decode : Decoder α) (test : α → Bool) : Prop := ∀ json a, decode json = .ok a → test a = true

namespace Ensures

variable {test : α → Bool}

theorem list (ensures : Ensures decode test) : Ensures (list decode) fun values => values.all test := by
  intro json values read
  unfold Decoder.list at read
  split at read
  · rename_i items
    induction items generalizing values with
    | nil =>
        cases read
        rfl
    | cons item rest ih =>
        rw [List.mapM_cons] at read
        obtain ⟨first, readFirst, read⟩ := bind_eq_ok.mp read
        obtain ⟨others, readOthers, read⟩ := bind_eq_ok.mp read
        cases read
        simpa [ensures item first readFirst] using ih others readOthers
  · cases read

theorem orNull (ensures : Ensures decode test) : Ensures (orNull decode) fun value => value.all test := by
  intro json value read
  unfold Decoder.orNull at read
  split at read
  · cases read
    rfl
  · obtain ⟨a, inner, rfl⟩ := map_eq_ok.mp read
    exact ensures _ a inner

end Ensures

end Decoder

namespace Piece

theorem map_value {piece : Piece α} {a : α} (given : piece = .value a) (f : α → β) :
    f <$> piece = .value (f a) := by
  rw [given]
  rfl

theorem seq_value {function : Piece (α → β)} {piece : Piece α} {f : α → β} {a : α}
    (first : function = .value f) (second : piece = .value a) : function <*> piece = .value (f a) := by
  rw [first, second]
  rfl

theorem map_eq_value {piece : Piece α} {f : α → β} {b : β} :
    f <$> piece = .value b ↔ ∃ a, piece = .value a ∧ f a = b := by
  cases piece with
  | value a =>
      change Piece.value (f a) = .value b ↔ _
      simp
  | fault place reason =>
      change Piece.fault place reason = .value b ↔ _
      simp

theorem seq_eq_value {function : Piece (α → β)} {piece : Piece α} {b : β} :
    function <*> piece = .value b ↔ ∃ f, function = .value f ∧ ∃ a, piece = .value a ∧ f a = b := by
  cases function with
  | value f =>
      change f <$> piece = .value b ↔ _
      rw [map_eq_value]
      simp
  | fault place reason =>
      cases piece with
      | value a =>
          change Piece.fault place reason = .value b ↔ _
          simp
      | fault later other =>
          change (if later < place then Piece.fault later other else .fault place reason) = .value b ↔ _
          split <;> simp

end Piece

namespace Record

variable {r : Record} {name : String} {place : Nat}

theorem field_value {a : α} {absent : Piece α} (found : occurrences name 0 r.fields = [(place, json)])
    (read : decode json = .ok a) : r.field name decode absent = .value a := by
  simp [field, found, read]

theorem required_value {a : α} (found : occurrences name 0 r.fields = [(place, json)])
    (read : decode json = .ok a) : r.required name decode = .value a :=
  field_value found read

theorem defaulted_value {a default : α} (found : occurrences name 0 r.fields = [(place, json)])
    (read : decode json = .ok a) : r.defaulted name default decode = .value a :=
  field_value found read

theorem optional_value {a : Option α} (found : occurrences name 0 r.fields = [(place, json)])
    (read : Decoder.orNull decode json = .ok a) : r.optional name decode = .value a :=
  field_value found read

theorem eq_value_of_whole {piece : Piece α} {a : α} (read : r.whole piece = .ok a) : piece = .value a := by
  unfold whole at read
  split at read
  · split at read
    · cases read
      rfl
    · cases read
  · cases read

theorem ofJson_whole {expected : String} {names : List String} {fields : List (String × Json)}
    {piece : Record → Piece α} {a : α} (given : piece (ofFields fields) = .value a) :
    (ofJson expected names (.obj fields) >>= fun r => r.whole (piece r)) = .ok a := by
  change (ofFields fields).whole _ = _
  rw [given]
  rfl

theorem exists_of_ofJson_whole {expected : String} {names : List String} {piece : Record → Piece α} {a : α}
    (read : (ofJson expected names json >>= fun r => r.whole (piece r)) = .ok a) :
    ∃ r, piece r = .value a := by
  obtain ⟨r, -, read⟩ := bind_eq_ok.mp read
  exact ⟨r, eq_value_of_whole read⟩

section Ensures

variable {test : α → Bool}

theorem of_field {a : α} {absent : Piece α} (ensures : Decoder.Ensures decode test)
    (otherwise : absent = .value a → test a = true) (given : r.field name decode absent = .value a) :
    test a = true := by
  unfold field at given
  split at given
  · exact otherwise given
  · split at given
    · cases given
    · rename_i read _
      cases given
      exact ensures _ _ read
    · cases given

theorem of_required {a : α} (ensures : Decoder.Ensures decode test)
    (given : r.required name decode = .value a) : test a = true := by
  refine of_field ensures (fun absent => ?_) given
  cases absent

theorem of_defaulted {a default : α} (ensures : Decoder.Ensures decode test) (otherwise : test default = true)
    (given : r.defaulted name default decode = .value a) : test a = true := by
  refine of_field ensures (fun absent => ?_) given
  cases absent
  exact otherwise

theorem of_optional {a : Option α} (ensures : Decoder.Ensures decode test)
    (given : r.optional name decode = .value a) : a.all test = true := by
  refine of_field ensures.orNull (fun absent => ?_) given
  cases absent
  rfl

end Ensures

end Record

/-- A tagged object is split into its tag and its other fields. -/
theorem split_tagged {variants : Variants} {setting : Decoder.Setting} {tag : String}
    {fields : List (String × Json)} (known : tag ∈ variants.tags)
    (untagged : ∀ field ∈ fields, field.1 ≠ "type") :
    variants.split setting (.tagged tag fields) = .ok (tag, Record.ofFields fields) := by
  have none (place : Nat) : Record.occurrences "type" place fields = [] := by
    induction fields generalizing place with
    | nil => rfl
    | cons field rest ih =>
        rw [Record.occurrences, if_neg (untagged field List.mem_cons_self)]
        exact ih (fun field member => untagged field (List.mem_cons_of_mem _ member)) _
  have kept : fields.filter (fun field => field.1 != "type") = fields :=
    List.filter_eq_self.mpr fun field member => by simpa using untagged field member
  simp [Variants.split, tagged, Record.occurrences, none, Decoder.tag, known, kept, bind, Except.bind,
    pure, Except.pure]

end DocGraph.Json
