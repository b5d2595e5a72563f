/-
# Parts of documents

What a value holds under a name, or at a place, was read from one part of its document. Of
several members of a name the last one counts, and items keep their places. A structure
with declared members takes them from the same parts, be it written as an object or as an
array.
-/

import OData.Json.Decode
import OData.Proofs.Body.RoundTrip
import OData.Proofs.Outcome

namespace OData.Json

namespace Document

/-- The item of the last member of a name. -/
def lastMember? (name : String) : List (List Piece × Document) → Option Document
  | [] => none
  | (pieces, item) :: rest =>
      (lastMember? name rest).or (if textOf? pieces = some name then some item else none)

/-- What an object has under a name. -/
def member? (name : String) : Document → Option Document
  | .object members => lastMember? name members
  | _ => none

/-- What a structure has under a name, or at the place of the name when it is an array. -/
def part? (place : Nat) (name : String) : Document → Option Document
  | .array items => items[place]?
  | other => other.member? name

/-- The items of an array; anything else is an item by itself. -/
def items : Document → List Document
  | .array items => items
  | single => [single]

/-- The document is null. -/
def isNull : Document → Bool
  | .null => true
  | _ => false

/-- The items that are listed in a part; none when it is missing or null. -/
def listed : Option Document → List Document
  | none | some .null => []
  | some part => part.items

end Document

/-- The items of an array; anything else is an item by itself. -/
def items : Json → List Json
  | .array items => items
  | single => [single]

theorem ofItems?_eq_mapM (levels : Nat) (items : List Document) :
    ofItems? levels items = items.mapM (ofDocument? levels) := by
  induction items with
  | nil => rw [ofItems?, List.mapM_nil]; rfl
  | cons item rest ih => rw [ofItems?, List.mapM_cons, ih]

theorem forall₂_of_mapM_some {α β : Type} {read : α → Option β} {items : List α}
    {values : List β} (areRead : items.mapM read = some values) :
    List.Forall₂ (fun item value => read item = some value) items values := by
  induction items generalizing values with
  | nil =>
      cases areRead
      exact .nil
  | cons item rest ih =>
      rw [List.mapM_cons] at areRead
      obtain ⟨value, isRead, areRead⟩ := Option.bind_eq_some_iff.mp areRead
      obtain ⟨others, areOthers, areRead⟩ := Option.bind_eq_some_iff.mp areRead
      cases areRead
      exact .cons isRead (ih areOthers)

/-- A document of some shape and the value of the same shape that it has, when so many
levels may still be entered. -/
inductive HasValue (levels : Nat) : Document → Json → Prop
  | null : HasValue levels .null .null
  | boolean (flag : Bool) : HasValue levels (.boolean flag) (.boolean flag)
  | number {numeral : Numeral} {number : Number} (isNumber : numeral.value? = some number) :
      HasValue levels (.number numeral) (.number number)
  | text {pieces : List Piece} {text : String} (isText : textOf? pieces = some text) :
      HasValue levels (.text pieces) (.string text)
  | array {items : List Document} {values : List Json}
      (areItems : List.Forall₂ (fun item value => ofDocument? (levels - 1) item = some value)
        items values) : HasValue levels (.array items) (.array values)
  | object {members : List (List Piece × Document)} {values : List (String × Json)}
      (areMembers : ofMembers? (levels - 1) [] members = some values) :
      HasValue levels (.object members) (.object values)

variable {levels : Nat} {document : Document} {json : Json}

theorem hasValue_of_ofDocument? (isRead : ofDocument? levels document = some json) :
    HasValue levels document json := by
  cases document with
  | null =>
      cases isRead
      exact .null
  | boolean flag =>
      cases isRead
      exact .boolean flag
  | number numeral =>
      obtain ⟨number, isNumber, rfl⟩ := Option.map_eq_some_iff.mp isRead
      exact .number isNumber
  | text pieces =>
      rw [ofDocument?] at isRead
      obtain ⟨text, isText, rfl⟩ := Option.map_eq_some_iff.mp isRead
      exact .text isText
  | array items =>
      rw [ofDocument?] at isRead
      split at isRead
      · cases isRead
      · obtain ⟨values, areValues, rfl⟩ := Option.map_eq_some_iff.mp isRead
        rw [ofItems?_eq_mapM] at areValues
        exact .array (forall₂_of_mapM_some areValues)
  | object members =>
      rw [ofDocument?] at isRead
      split at isRead
      · cases isRead
      · obtain ⟨values, areValues, rfl⟩ := Option.map_eq_some_iff.mp isRead
        exact .object areValues

theorem HasValue.isNull (hasValue : HasValue levels document json) :
    document.isNull = json.isNull := by
  cases hasValue <;> rfl

/-! ## Items -/

theorem exists_forall₂_items (isRead : ofDocument? levels document = some json) :
    ∃ left, List.Forall₂ (fun item value => ofDocument? left item = some value)
      document.items json.items := by
  cases hasValue_of_ofDocument? isRead with
  | array areItems => exact ⟨levels - 1, areItems⟩
  | _ => exact ⟨levels, .cons isRead .nil⟩

/-- Items that are not null are values that are not null, in the same places. -/
theorem forall₂_filter_notNull {left : Nat} {items : List Document} {values : List Json}
    (areItems : List.Forall₂ (fun item value => ofDocument? left item = some value)
      items values) :
    List.Forall₂ (fun item value => ofDocument? left item = some value)
      (items.filter fun item => !item.isNull) (values.filter fun value => !value.isNull) := by
  apply List.rel_filter _ areItems
  intro item value isValue
  show (!item.isNull) = true ↔ (!value.isNull) = true
  rw [(hasValue_of_ofDocument? isValue).isNull]

/-! ## Members -/

theorem exists_of_ofMembers?_cons {pieces : List Piece} {item : Document}
    {rest : List (List Piece × Document)} {before after : List (String × Json)}
    (isRead : ofMembers? levels before ((pieces, item) :: rest) = some after) :
    ∃ name value, textOf? pieces = some name ∧ ofDocument? levels item = some value ∧
      ofMembers? levels (insertMember name value before) rest = some after := by
  rw [ofMembers?] at isRead
  obtain ⟨name, isName, isRead⟩ := Option.bind_eq_some_iff.mp isRead
  obtain ⟨value, isValue, isRead⟩ := Option.bind_eq_some_iff.mp isRead
  exact ⟨name, value, isName, isValue, isRead⟩

section

variable {name : String} {members : List (List Piece × Document)}
  {before after : List (String × Json)} (isRead : ofMembers? levels before members = some after)

include isRead

theorem get?_of_noMember (noMember : Document.lastMember? name members = none) :
    get? name (.object after) = get? name (.object before) := by
  induction members generalizing before with
  | nil =>
      rw [ofMembers?] at isRead
      cases isRead
      rfl
  | cons member rest ih =>
      obtain ⟨other, value, isOther, -, isRead⟩ := exists_of_ofMembers?_cons isRead
      rw [Document.lastMember?, Option.or_eq_none_iff, isOther] at noMember
      have different : name ≠ other := by
        rintro rfl
        exact absurd noMember.2 (by simp)
      rw [ih isRead noMember.1, get?_insertMember_of_ne different]

/-- An object holds the value of the last member of a name. -/
theorem exists_get?_of_lastMember? {item : Document}
    (isLast : Document.lastMember? name members = some item) :
    ∃ value, ofDocument? levels item = some value ∧ get? name (.object after) = some value := by
  induction members generalizing before with
  | nil => cases isLast
  | cons member rest ih =>
      obtain ⟨other, value, isOther, isValue, isRead⟩ := exists_of_ofMembers?_cons isRead
      rw [Document.lastMember?, Option.or_eq_some_iff] at isLast
      rcases isLast with isLater | ⟨noLater, isLast⟩
      · exact ih isRead isLater
      · rw [isOther] at isLast
        split at isLast
        · rename_i same
          cases same
          cases isLast
          exact ⟨value, isValue, by rw [get?_of_noMember isRead noLater, get?_insertMember_self]⟩
        · cases isLast

end

/-! ## Slots -/

/-- What a slot holds. -/
def Slot.content? : Slot → Option Document
  | .present document => some document
  | _ => none

theorem Slot.withDefault_eq {α : Type} (slot : Slot) (default : α) (decoder : Decoder α)
    (levels : Nat) :
    slot.withDefault default decoder levels =
      slot.content?.elim (some default) (decoder levels) := by
  cases slot <;> rfl

theorem lastMember?_eq_getLast? {members : List (List Piece × Document)}
    {named : List (String × Document)} (isNamed : namedMembers? members = some named)
    (name : String) :
    Document.lastMember? name members =
      (named.filter fun member => member.1 == name).getLast?.map Prod.snd := by
  induction members generalizing named with
  | nil =>
      cases isNamed
      rfl
  | cons member rest ih =>
      obtain ⟨pieces, item⟩ := member
      rw [namedMembers?, List.mapM_cons] at isNamed
      obtain ⟨first, isFirst, isNamed⟩ := Option.bind_eq_some_iff.mp isNamed
      obtain ⟨others, areOthers, isNamed⟩ := Option.bind_eq_some_iff.mp isNamed
      obtain ⟨other, isOther, rfl⟩ := Option.map_eq_some_iff.mp isFirst
      cases isNamed
      change textOf? pieces = some other at isOther
      rw [Document.lastMember?, ih areOthers, isOther, List.filter_cons]
      by_cases same : other = name
      · rw [if_pos (congrArg some same), if_pos (beq_iff_eq.mpr same), List.getLast?_cons]
        cases (others.filter fun member => member.1 == name).getLast? <;> rfl
      · rw [if_neg (fun isName => same (Option.some.inj isName)),
          if_neg (fun isName => same (beq_iff_eq.mp isName)), Option.or_none]

theorem content?_of_slotOf? {name : String} {members : List (List Piece × Document)}
    {named : List (String × Document)} {slot : Slot}
    (isNamed : namedMembers? members = some named) (isSlot : slotOf? named name = some slot) :
    slot.content? = Document.lastMember? name members := by
  rw [lastMember?_eq_getLast? isNamed]
  unfold slotOf? at isSlot
  split at isSlot
  · rename_i absent
    cases isSlot
    rw [absent]
    rfl
  · rename_i single
    cases isSlot
    rw [single]
    rfl
  · cases isSlot

/-- A structure has the parts of its document in its slots. -/
theorem content?_of_slots? {names : List String} {left : Nat} {slots : List Slot}
    (areSlots : slots? names levels document = some (left, slots)) {place : Nat} {name : String}
    (isName : names[place]? = some name) :
    ∃ slot, slots[place]? = some slot ∧ slot.content? = document.part? place name := by
  cases document with
  | object members =>
      rw [slots?] at areSlots
      split at areSlots
      · cases areSlots
      · obtain ⟨named, isNamed, areSlots⟩ := Option.bind_eq_some_iff.mp areSlots
        obtain ⟨found, isFound, areSlots⟩ := Option.bind_eq_some_iff.mp areSlots
        cases areSlots
        obtain ⟨slot, isSlot, isOfName⟩ :=
          exists_getElem?_of_forall₂ (forall₂_of_mapM_some isFound) isName
        exact ⟨slot, isSlot, content?_of_slotOf? isNamed isOfName⟩
  | array items =>
      rw [slots?] at areSlots
      split at areSlots
      · cases areSlots
      · split at areSlots
        · cases areSlots
        · cases areSlots
          have inside : place < names.length := (List.getElem?_eq_some_iff.mp isName).1
          rw [Document.part?]
          by_cases some : place < items.length
          · refine ⟨.present items[place], ?_, (List.getElem?_eq_getElem some).symm⟩
            rw [List.getElem?_append_left (by rwa [List.length_map]), List.getElem?_map,
              List.getElem?_eq_getElem some]
            rfl
          · refine ⟨.cutShort, ?_, (List.getElem?_eq_none (by omega)).symm⟩
            rw [List.getElem?_append_right (by rw [List.length_map]; omega), List.length_map,
              List.getElem?_replicate, if_pos (by omega)]
  | _ => exact absurd areSlots (by simp [slots?])

end OData.Json
