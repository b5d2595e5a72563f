/-
# One document, read twice

A document stands for a value, and it may also be read as a structure with declared
members. Where both readings succeed they tell the same: what the structure takes from
a slot is what the object has under that name, and a member without a slot is one that
the object does not have. The levels of nesting are counted alike by both readings.
-/

import OData.Proofs.Json.Parts

namespace OData

/-- What is found under a name is the form of a value, or nothing is found and the value
is the one by default. -/
def Given {α β : Type} (form : α → β) (default value : α) (found : Option β) : Prop :=
  found = some (form value) ∨ found = none ∧ value = default

namespace Json

variable {levels : Nat}

/-! ## Slots -/

/-- What a slot holds is what an object has under the name of the slot. -/
def Slot.Holds (levels : Nat) (slot : Slot) (found : Option Json) : Prop :=
  match slot with
  | .present document => ∃ value, ofDocument? levels document = some value ∧ found = some value
  | .missing => found = none
  | .cutShort => False

theorem holds_of_slotOf? {name : String} {members : List (List Piece × Document)}
    {named : List (String × Document)} {after : List (String × Json)} {slot : Slot}
    (isNamed : namedMembers? members = some named)
    (isRead : ofMembers? levels [] members = some after)
    (isSlot : slotOf? named name = some slot) :
    slot.Holds levels (get? name (.object after)) := by
  have content := content?_of_slotOf? isNamed isSlot
  cases slot with
  | present document => exact exists_get?_of_lastMember? isRead content.symm
  | missing => exact get?_of_noMember isRead content.symm
  | cutShort =>
      unfold slotOf? at isSlot
      split at isSlot <;> cases isSlot

/-- The slots of an object hold what the object has under their names. -/
theorem holds_of_slots? {names : List String} {left : Nat} {document : Document}
    {slots : List Slot} {members : List (String × Json)}
    (areSlots : slots? names levels document = some (left, slots))
    (isValue : ofDocument? levels document = some (.object members)) :
    List.Forall₂ (fun name slot => slot.Holds left (get? name (.object members)))
      names slots := by
  cases hasValue_of_ofDocument? isValue with
  | object areMembers =>
      rw [slots?] at areSlots
      split at areSlots
      · cases areSlots
      · obtain ⟨named, isNamed, areSlots⟩ := Option.bind_eq_some_iff.mp areSlots
        obtain ⟨found, isFound, areSlots⟩ := Option.bind_eq_some_iff.mp areSlots
        cases areSlots
        exact (forall₂_of_mapM_some isFound).imp fun _ _ => holds_of_slotOf? isNamed areMembers

/-! ## Readers of members -/

/-- A reader takes from a document what its value is the form of. -/
def Decoder.Reads {α : Type} (decoder : Decoder α) (form : α → Json) : Prop :=
  ∀ levels document read value, decoder levels document = some read →
    ofDocument? levels document = some value → value = form read

namespace Decoder

theorem reads_text : text.Reads .string := by
  intro levels document read value isRead isValue
  cases hasValue_of_ofDocument? isValue with
  | text isText => rw [Option.some.inj (isText.symm.trans isRead)]
  | _ => cases isRead

theorem reads_boolean : boolean.Reads .boolean := by
  intro levels document read value isRead isValue
  cases hasValue_of_ofDocument? isValue with
  | boolean flag =>
      cases isRead
      rfl
  | _ => cases isRead

/-- A list and an array of the same documents. -/
theorem exists_items_of_list {α : Type} {decoder : Decoder α} {document : Document}
    {entries : List α} {value : Json} (areEntries : list decoder levels document = some entries)
    (isValue : ofDocument? levels document = some value) :
    ∃ (items : List Document) (values : List Json), value = .array values ∧
      items.mapM (decoder (levels - 1)) = some entries ∧
      items.mapM (ofDocument? (levels - 1)) = some values := by
  cases document with
  | array items =>
      rw [list] at areEntries
      rw [ofDocument?] at isValue
      split at areEntries
      · cases areEntries
      · rename_i someLevels
        rw [if_neg someLevels, ofItems?_eq_mapM] at isValue
        obtain ⟨values, areValues, rfl⟩ := Option.map_eq_some_iff.mp isValue
        exact ⟨items, values, rfl, areEntries, areValues⟩
  | _ => cases areEntries

theorem reads_values : (list value).Reads .array := by
  intro levels document read json isRead isJson
  obtain ⟨items, values, rfl, areRead, areValues⟩ := exists_items_of_list isRead isJson
  exact congrArg _ (Option.some.inj (areValues.symm.trans areRead))

/-- Entries of a list and values of an array come from the same documents, in order. -/
theorem forall₂_of_list {α : Type} {decoder : Decoder α} {document : Document}
    {entries : List α} {values : List Json}
    (areEntries : list decoder levels document = some entries)
    (isArray : ofDocument? levels document = some (.array values)) :
    List.Forall₂ (fun entry value => ∃ item, decoder (levels - 1) item = some entry ∧
      ofDocument? (levels - 1) item = some value) entries values := by
  obtain ⟨items, others, isSame, areRead, areValues⟩ := exists_items_of_list areEntries isArray
  cases isSame
  exact forall₂_comp (forall₂_of_mapM_some areRead).flip (forall₂_of_mapM_some areValues)

end Decoder

namespace Slot

variable {α : Type} {decoder : Decoder α} {form : α → Json} {slot : Slot} {found : Option Json}

theorem Holds.withDefault (holds : slot.Holds levels found) (reads : decoder.Reads form)
    {default value : α} (isRead : slot.withDefault default decoder levels = some value) :
    Given form default value found := by
  cases slot with
  | present document =>
      obtain ⟨json, isJson, rfl⟩ := holds
      exact .inl (congrArg some (reads levels document value json isRead isJson))
  | missing =>
      cases isRead
      exact .inr ⟨holds, rfl⟩
  | cutShort => exact holds.elim

/-- A member that may be null is nothing when it is, as when it is missing. -/
theorem Holds.nullable (holds : slot.Holds levels found) (reads : decoder.Reads form)
    {value : Option α} (isRead : slot.nullable decoder levels = some value) :
    Given (fun value => (value.map form).getD .null) none value found := by
  cases slot with
  | present document =>
      obtain ⟨json, isJson, rfl⟩ := holds
      rw [Slot.nullable] at isRead
      unfold Decoder.nullable at isRead
      split at isRead
      · rw [ofDocument?] at isJson
        cases isRead
        cases isJson
        exact .inl rfl
      · obtain ⟨read, isInner, isSome⟩ := Option.map_eq_some_iff.mp isRead
        cases isSome
        exact .inl (congrArg some (reads levels document read json isInner isJson))
  | missing =>
      cases isRead
      exact .inr ⟨holds, rfl⟩
  | cutShort => exact holds.elim

end Slot

end Json

end OData
