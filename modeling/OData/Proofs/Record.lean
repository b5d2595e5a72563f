/-
# What changes in a record

Fields are set one at a time. What a longer computation does to a record is told by the
names that it may set: the fields of all other names keep their values, the fields that
were there stay where they are, and new ones come behind them. Such computations are put
together without looking at the values.
-/

import OData.Record

namespace OData

namespace Record

theorem value?_congr {first second : Record} {name : String}
    (same : first.get? name = second.get? name) : first.value? name = second.value? name := by
  rw [value?, value?, same]

/-- Only nulls are no values. -/
theorem value?_eq_some_iff {record : Record} {name : String} {value : Value} :
    record.value? name = some value ↔ record.get? name = some value ∧ value.isNull = false := by
  simp [value?, Option.filter_eq_some_iff]

theorem value?_eq_none_iff {record : Record} {name : String} :
    record.value? name = none ↔ record.get? name = none ∨ record.get? name = some .null := by
  unfold value?
  cases record.get? name with
  | none => simp
  | some value => cases value <;> simp [Option.filter, Value.isNull]

theorem value?_of_null {record : Record} {name : String}
    (isNull : record.get? name = some .null) : record.value? name = none :=
  value?_eq_none_iff.mpr (.inr isNull)

theorem get?_set (record : Record) (name other : String) (value : Value) :
    (record.set name value).get? other =
      if other = name then some value else record.get? other := by
  split
  · rename_i same
    rw [same, get?_set_self]
  · rename_i different
    exact get?_set_of_ne record different value

/-- After fields were set one after another, each has the value it was set to last. -/
theorem get?_foldl_set (fields : List (String × Value)) (record : Record) (name : String) :
    (fields.foldl (fun record field => record.set field.1 field.2) record).get? name =
      (((fields.filter fun field => field.1 == name).getLast?).map Prod.snd).or
        (record.get? name) := by
  induction fields generalizing record with
  | nil => rfl
  | cons field rest ih =>
      rw [List.foldl_cons, ih, get?_set]
      by_cases same : field.1 = name
      · rw [if_pos same.symm, List.filter_cons_of_pos (by simp [same]), List.getLast?_cons]
        cases (rest.filter fun field => field.1 == name).getLast? <;> rfl
      · rw [if_neg (Ne.symm same), List.filter_cons_of_neg (by simp [same])]

theorem get?_ofFields (fields : List (String × Value)) (name : String) :
    (ofFields fields).get? name =
      ((fields.filter fun field => field.1 == name).getLast?).map Prod.snd := by
  rw [ofFields, get?_foldl_set, get?_empty, Option.or_none]

/-- What is a value after a field became null was one before. -/
theorem value?_of_set_null {record : Record} {name other : String} {value : Value}
    (held : (record.set name .null).value? other = some value) :
    record.value? other = some value := by
  rw [value?_eq_some_iff, get?_set] at held
  split at held
  · obtain ⟨isNull, noNull⟩ := held
    cases isNull
    cases noNull
  · exact value?_eq_some_iff.mpr held

/-- Setting a field to the value it has changes nothing. -/
theorem set_of_get? {record : Record} {name : String} {value : Value}
    (found : record.get? name = some value) : record.set name value = record := by
  have fields (entries : List (String × Value)) (isFound : lookup name entries = some value) :
      insert name value entries = entries := by
    induction entries with
    | nil => cases isFound
    | cons entry rest ih =>
        obtain ⟨other, kept⟩ := entry
        by_cases same : other = name
        · rw [lookup, if_pos same] at isFound
          rw [insert, if_pos same, Option.some.inj isFound]
        · rw [lookup, if_neg same] at isFound
          rw [insert, if_neg same, ih isFound]
  cases record with
  | mk entries => rw [set, fields entries found]

theorem contains_iff_mem_names {record : Record} {name : String} :
    record.contains name = true ↔ name ∈ record.names := by
  have fields (entries : List (String × Value)) :
      (lookup name entries).isSome = true ↔ name ∈ entries.map Prod.fst := by
    induction entries with
    | nil => exact iff_of_false Bool.false_ne_true List.not_mem_nil
    | cons entry rest ih =>
        rw [lookup, List.map_cons, List.mem_cons]
        split
        · rename_i same
          exact iff_of_true rfl (.inl same.symm)
        · rename_i different
          rw [ih, or_iff_right (Ne.symm different)]
  exact fields record.fields

theorem get?_eq_none_iff_not_mem {record : Record} {name : String} :
    record.get? name = none ↔ name ∉ record.names := by
  rw [← contains_iff_mem_names, contains, Option.not_isSome_iff_eq_none]

/-- Setting a field leaves all names in their places; a new one comes behind them. -/
theorem names_set (record : Record) (name : String) (value : Value) :
    (record.set name value).names =
      if name ∈ record.names then record.names else record.names ++ [name] := by
  have fields (entries : List (String × Value)) :
      (insert name value entries).map Prod.fst =
        if name ∈ entries.map Prod.fst then entries.map Prod.fst
        else entries.map Prod.fst ++ [name] := by
    induction entries with
    | nil => rfl
    | cons entry rest ih =>
        by_cases same : entry.1 = name
        · simp [insert, same]
        · simp only [insert, if_neg same, List.map_cons, ih, List.mem_cons, Ne.symm same,
            false_or]
          split <;> rfl
  exact fields record.fields

theorem names_prefix_set (record : Record) (name : String) (value : Value) :
    record.names <+: (record.set name value).names := by
  rw [names_set]
  split
  · exact List.prefix_refl _
  · exact List.prefix_append _ _

/-- Removing a field leaves the other names in their places. -/
theorem names_remove (record : Record) (name : String) :
    (record.remove name).2.names = record.names.erase name := by
  have fields (entries : List (String × Value)) :
      (erase name entries).map Prod.fst = (entries.map Prod.fst).erase name := by
    induction entries with
    | nil => rfl
    | cons entry rest ih =>
        rw [erase, List.map_cons, List.erase_cons]
        by_cases same : entry.1 = name <;> simp [same, ih]
  exact fields record.fields

/-- Removing a field leaves the value of every other field alone. -/
theorem get?_remove_of_ne (record : Record) {name other : String} (different : other ≠ name) :
    (record.remove name).2.get? other = record.get? other := by
  have fields (entries : List (String × Value)) :
      lookup other (erase name entries) = lookup other entries := by
    induction entries with
    | nil => rfl
    | cons entry rest ih =>
        by_cases same : entry.1 = name
        · rw [erase, if_pos same, lookup, if_neg (same ▸ Ne.symm different)]
        · rw [erase, if_neg same, lookup, lookup, ih]
  exact fields record.fields

/-- The second record results from the first one by setting fields of these names. -/
structure ChangesOnly (names : List String) (before after : Record) : Prop where
  kept : ∀ name, name ∉ names → after.get? name = before.get? name
  inPlace : before.names <+: after.names

namespace ChangesOnly

variable {names : List String}

theorem refl (record : Record) : ChangesOnly names record record :=
  ⟨fun _ _ => rfl, List.prefix_refl _⟩

theorem set {name : String} (isMember : name ∈ names) (record : Record) (value : Value) :
    ChangesOnly names record (record.set name value) := by
  refine ⟨fun other absent => ?_, names_prefix_set record name value⟩
  have different : other ≠ name := by
    rintro rfl
    exact absent isMember
  exact get?_set_of_ne record different value

theorem trans {first second third : Record} (before : ChangesOnly names first second)
    (after : ChangesOnly names second third) : ChangesOnly names first third :=
  ⟨fun name absent => (after.kept name absent).trans (before.kept name absent),
    before.inPlace.trans after.inPlace⟩

theorem mono {others : List String} {before after : Record}
    (changes : ChangesOnly names before after) (subset : names ⊆ others) :
    ChangesOnly others before after :=
  ⟨fun name absent => changes.kept name fun isMember => absent (subset isMember), changes.inPlace⟩

end ChangesOnly

end Record

end OData
