/-
# What is written

A body says what a record says and nothing else. Every field that is not null has one
member, and no member is null, so a body never clears what its record leaves open. A null
is written in one place only: as an item of a list whose field is declared as untyped.
Which field an item belongs to is handed down through lists inside lists, and lost in
undeclared records, so the law follows the encoder through both.

Writing fails for one reason, a number that JSON has not, wherever it stands.
-/

import OData.Proofs.Body.RoundTrip
import OData.Proofs.Outcome
import Mathlib.Data.String.Basic

namespace OData

/-! ## Members in order -/

namespace Json

/-- A number, a truth value or a text. -/
def isScalar : Json → Bool
  | .number _ | .boolean _ | .string _ => true
  | _ => false

/-- The members are sorted by name, and no name occurs twice. -/
def Sorted (members : List (String × Json)) : Prop :=
  members.Pairwise fun first second => first.1 < second.1

/-- The last value under a name. -/
def lastOf {α : Type} (name : String) : List (String × α) → Option α
  | [] => none
  | (other, value) :: rest => (lastOf name rest).orElse fun _ =>
      if other = name then some value else none

theorem isSome_lastOf_iff {α : Type} {name : String} {entries : List (String × α)} :
    (lastOf name entries).isSome = true ↔ name ∈ entries.map Prod.fst := by
  induction entries with
  | nil => simp [lastOf]
  | cons entry rest ih =>
      obtain ⟨other, value⟩ := entry
      rw [lastOf, Option.orElse_eq_or, Option.isSome_or, Bool.or_eq_true, ih, List.map_cons,
        List.mem_cons, or_comm, Option.isSome_ite, eq_comm]

theorem mem_insertMember_iff {members : List (String × Json)} (sorted : Sorted members)
    {name other : String} {value json : Json} :
    (other, json) ∈ insertMember name value members ↔
      if name = other then json = value else (other, json) ∈ members := by
  induction members with
  | nil => by_cases same : name = other <;> simp [insertMember, same, eq_comm]
  | cons member rest ih =>
      obtain ⟨key, kept⟩ := member
      obtain ⟨below, restSorted⟩ := List.pairwise_cons.mp sorted
      have absent {lower : String} (isLower : lower ≤ key) : (lower, json) ∉ rest :=
        fun isMember => (isLower.trans_lt (below _ isMember)).false
      rw [insertMember]
      split
      · rename_i isKey
        subst isKey
        by_cases same : name = other
        · subst same
          simp [absent le_rfl]
        · simp [same, Ne.symm same]
      · split
        · rename_i differs before
          by_cases same : name = other
          · subst same
            simp [differs, absent before.le]
          · simp [same, Ne.symm same]
        · rename_i differs notBefore
          rw [List.mem_cons, ih restSorted]
          by_cases same : name = other
          · subst same
            simp [differs]
          · simp [same]

theorem sorted_insertMember {members : List (String × Json)} (sorted : Sorted members)
    (name : String) (value : Json) : Sorted (insertMember name value members) := by
  induction members with
  | nil => exact List.pairwise_singleton _ _
  | cons member rest ih =>
      obtain ⟨key, kept⟩ := member
      obtain ⟨below, restSorted⟩ := List.pairwise_cons.mp sorted
      rw [insertMember]
      split
      · rename_i same
        exact List.pairwise_cons.mpr ⟨same ▸ below, restSorted⟩
      · split
        · rename_i before
          refine List.pairwise_cons.mpr ⟨?_, sorted⟩
          exact List.forall_mem_cons.mpr
            ⟨before, fun other isMember => before.trans (below other isMember)⟩
        · rename_i differs notBefore
          refine List.pairwise_cons.mpr ⟨?_, ih restSorted⟩
          rintro ⟨other, json⟩ isMember
          rw [mem_insertMember_iff restSorted] at isMember
          split at isMember
          · rename_i same
            subst same
            exact lt_of_le_of_ne (not_lt.mp notBefore) (Ne.symm differs)
          · exact below _ isMember

theorem sorted_putMembers {before : List (String × Json)} (sorted : Sorted before)
    (members : List (String × Json)) : Sorted (putMembers before members) := by
  induction members generalizing before with
  | nil => exact sorted
  | cons member rest ih => exact ih (sorted_insertMember sorted member.1 member.2)

/-- Of members of one name that are put into an object, the last one stays. -/
theorem mem_putMembers_iff {before : List (String × Json)} (sorted : Sorted before)
    {members : List (String × Json)} {name : String} {json : Json} :
    (name, json) ∈ putMembers before members ↔
      match lastOf name members with
      | some last => json = last
      | none => (name, json) ∈ before := by
  induction members generalizing before with
  | nil => exact Iff.rfl
  | cons member rest ih =>
      obtain ⟨key, value⟩ := member
      have split : putMembers before ((key, value) :: rest) =
          putMembers (insertMember key value before) rest := rfl
      rw [split, ih (sorted_insertMember sorted key value), lastOf]
      cases lastOf name rest with
      | some last => rfl
      | none =>
          rw [mem_insertMember_iff sorted]
          by_cases same : key = name <;> simp [same]

end Json

namespace Body

/-! ## The law -/

/-- A number that JSON has not stands somewhere in the value. Only nulls are left out of a
body, and no number stands in a null, so that every place counts. -/
inductive HoldsUnsendable : Value → Prop where
  | number {number : Float} (notFinite : Number.isFinite number = false) :
      HoldsUnsendable (.scalar (.decimal number))
  | field {record : Record} {entry : String × Value} (isEntry : entry ∈ record.fields)
      (inside : HoldsUnsendable entry.2) : HoldsUnsendable (.record record)
  | item {items : List Value} {item : Value} (isItem : item ∈ items)
      (inside : HoldsUnsendable item) : HoldsUnsendable (.list items)

mutual

/-- The members say what a record says: there is one for every name that has a value, and
it is the form of that value. Were a name to occur twice, its last value would count. -/
inductive WritesRecord : Option ComplexType → Record → List (String × Json) → Prop where
  | intro {type : Option ComplexType} {record : Record} {members : List (String × Json)}
      (sorted : Json.Sorted members)
      (names : ∀ name,
        name ∈ members.map Prod.fst ↔ name ∈ (written record.fields).map Prod.fst)
      (values : ∀ member ∈ members, ∀ value,
        Json.lastOf member.1 (written record.fields) = some value →
          WritesValue (type.bind (·.field? member.1)) value member.2) :
      WritesRecord type record members

/-- The form of a value that is not null, in a field that may be undeclared. -/
inductive WritesValue : Option Field → Value → Json → Prop where
  | scalar {field : Option Field} {scalar : Scalar} {json : Json}
      (isScalar : json.isScalar = true) (isText : scalarToJson field scalar = .ok json) :
      WritesValue field (.scalar scalar) json
  /-- A record is written by the type of its field, or without one. -/
  | record {field : Option Field} {record : Record} {members : List (String × Json)}
      (writes : WritesRecord (field.bind Field.complex?) record members) :
      WritesValue field (.record record) (.object members)
  /-- A list of untyped values keeps every item. -/
  | untyped {field : Option Field} {items : List Value} {jsons : List Json}
      (isAny : keepsNulls field = true) (count : jsons.length = items.length)
      (inOrder : ∀ pair ∈ items.zip jsons, WritesItem field pair.1 pair.2) :
      WritesValue field (.list items) (.array jsons)
  /-- Any other list keeps the items that are not null. -/
  | typed {field : Option Field} {items : List Value} {jsons : List Json}
      (notAny : keepsNulls field = false)
      (count : jsons.length = (items.filter fun item => !item.isNull).length)
      (inOrder : ∀ pair ∈ (items.filter fun item => !item.isNull).zip jsons,
        WritesValue field pair.1 pair.2) :
      WritesValue field (.list items) (.array jsons)

/-- The form of an item of a list of untyped values. -/
inductive WritesItem : Option Field → Value → Json → Prop where
  | null {field : Option Field} : WritesItem field .null .null
  | value {field : Option Field} {value : Value} {json : Json}
      (writes : WritesValue field value json) : WritesItem field value json

end

/-! ## Failure -/

/-- The computation ends in a fault. -/
def Fails {α : Type} (result : Except Fault α) : Prop := ∃ fault, result = .error fault

theorem fails_map_iff {α β : Type} {change : α → β} {result : Except Fault α} :
    Fails (result.map change) ↔ Fails result := by
  cases result <;> simp [Fails, Except.map]

/-- Of two results that are put together, either can be a fault. -/
theorem fails_both_iff {α β γ : Type} {first : Except Fault α} {second : Except Fault β}
    {combine : α → β → γ} :
    Fails (first.bind fun value => second.bind fun other => .ok (combine value other)) ↔
      Fails first ∨ Fails second := by
  cases first <;> cases second <;> simp [Fails, Except.bind]

theorem notUnsendable_of_isNull {value : Value} (isNull : value.isNull = true) :
    ¬ HoldsUnsendable value := by
  cases value <;> cases isNull
  nofun

theorem holdsUnsendable_record_iff {record : Record} :
    HoldsUnsendable (.record record) ↔ ∃ entry ∈ record.fields, HoldsUnsendable entry.2 := by
  constructor
  · rintro (_ | ⟨isEntry, inside⟩)
    exact ⟨_, isEntry, inside⟩
  · rintro ⟨entry, isEntry, inside⟩
    exact .field isEntry inside

/-- Of the scalars, only numbers that are not finite cannot be sent. -/
theorem holdsUnsendable_scalar_iff {scalar : Scalar} : HoldsUnsendable (.scalar scalar) ↔
    ∃ number, scalar = .decimal number ∧ Number.isFinite number = false := by
  constructor
  · rintro (notFinite | _)
    exact ⟨_, rfl, notFinite⟩
  · rintro ⟨number, rfl, notFinite⟩
    exact .number notFinite

theorem scalarToJson_fails_iff (field : Option Field) (scalar : Scalar) :
    Fails (scalarToJson field scalar) ↔ HoldsUnsendable (.scalar scalar) := by
  rw [holdsUnsendable_scalar_iff]
  cases scalar with
  | decimal number =>
      rw [scalarToJson]
      split
      · rename_i finite
        simp [Fails, finite]
      · rename_i notFinite
        simp [Fails, notFinite]
  | instant value =>
      rw [scalarToJson]
      split <;> simp [Fails]
  | _ => simp [Fails, scalarToJson]

mutual

theorem valueToJson_fails_iff (field : Option Field) :
    (value : Value) → (Fails (valueToJson field value) ↔ HoldsUnsendable value)
  | .null => by
      rw [valueToJson]
      exact ⟨nofun, nofun⟩
  | .scalar scalar => by
      rw [valueToJson]
      exact scalarToJson_fails_iff field scalar
  | .record record => by
      rw [valueToJson, recordToJson_fails_iff, holdsUnsendable_record_iff]
  | .list items => by
      rw [valueToJson, bind_pure_eq_map, fails_map_iff, itemsToJson_fails_iff]
      constructor
      · rintro ⟨item, isItem, inside⟩
        exact .item isItem inside
      · rintro (_ | _ | ⟨isItem, inside⟩)
        exact ⟨_, isItem, inside⟩

theorem itemsToJson_fails_iff (field : Option Field) : (items : List Value) →
    (Fails (itemsToJson field items) ↔ ∃ item ∈ items, HoldsUnsendable item)
  | [] => by
      rw [itemsToJson]
      exact ⟨nofun, nofun⟩
  | item :: rest => by
      rw [itemsToJson, List.exists_mem_cons_iff]
      split
      · rename_i drops
        have isNull : item.isNull = true := (Bool.and_eq_true_iff.mp drops).1
        rw [itemsToJson_fails_iff field rest]
        exact (or_iff_right (notUnsendable_of_isNull isNull)).symm
      · rw [← valueToJson_fails_iff field item, ← itemsToJson_fails_iff field rest]
        exact fails_both_iff

theorem recordToJson_fails_iff (type : Option ComplexType) : (record : Record) →
    (Fails (recordToJson type record) ↔ ∃ entry ∈ record.fields, HoldsUnsendable entry.2)
  | ⟨fields⟩ => by
      rw [recordToJson, bind_pure_eq_map, fails_map_iff, fieldsToMembers_fails_iff]

theorem fieldsToMembers_fails_iff (type : Option ComplexType) : (fields : List (String × Value)) →
    (Fails (fieldsToMembers type fields) ↔ ∃ entry ∈ fields, HoldsUnsendable entry.2)
  | [] => by
      rw [fieldsToMembers]
      exact ⟨nofun, nofun⟩
  | (name, value) :: rest => by
      rw [fieldsToMembers, List.exists_mem_cons_iff]
      split
      · rename_i isNull
        rw [fieldsToMembers_fails_iff type rest]
        exact (or_iff_right (notUnsendable_of_isNull isNull)).symm
      · rw [← valueToJson_fails_iff (type.bind (·.field? name)) value,
          ← fieldsToMembers_fails_iff type rest]
        exact fails_both_iff

end

/-! ## Success -/

theorem isScalar_of_scalarToJson {field : Option Field} {scalar : Scalar} {json : Json}
    (isOk : scalarToJson field scalar = .ok json) : json.isScalar = true := by
  cases scalar with
  | decimal number =>
      rw [scalarToJson] at isOk
      split at isOk <;> cases isOk
      rfl
  | instant value =>
      rw [scalarToJson] at isOk
      split at isOk <;> cases isOk <;> rfl
  | _ =>
      cases isOk
      rfl

/-- The member that is written for a field. -/
def WritesMember (type : Option ComplexType) (entry : String × Value) (member : String × Json) :
    Prop :=
  member.1 = entry.1 ∧ WritesValue (type.bind (·.field? entry.1)) entry.2 member.2

theorem lastOf_of_writesMember {type : Option ComplexType} {entries : List (String × Value)}
    {members : List (String × Json)} (writes : List.Forall₂ (WritesMember type) entries members)
    (name : String) :
    Option.Rel (WritesValue (type.bind (·.field? name))) (Json.lastOf name entries)
      (Json.lastOf name members) := by
  induction writes with
  | nil => exact .none
  | @cons entry member _ _ isWritten _ ih =>
      obtain ⟨sameName, isWritten⟩ := isWritten
      rw [Json.lastOf, Json.lastOf, sameName]
      generalize Json.lastOf name _ = last at ih ⊢
      generalize Json.lastOf name _ = lastWritten at ih ⊢
      cases ih with
      | some isLast => exact .some isLast
      | none =>
          by_cases same : entry.1 = name
          · subst same
            simpa using Option.Rel.some isWritten
          · simp [same]

/-- What is written for the fields of a record makes an object that says what it says. -/
theorem writesRecord_of_members {type : Option ComplexType} {record : Record}
    {members : List (String × Json)}
    (writes : List.Forall₂ (WritesMember type) (written record.fields) members) :
    WritesRecord type record (Json.putMembers [] members) := by
  have last (name : String) (json : Json) :
      (name, json) ∈ Json.putMembers [] members ↔ Json.lastOf name members = some json := by
    rw [Json.mem_putMembers_iff List.Pairwise.nil]
    cases Json.lastOf name members <;> simp [eq_comm]
  have names : members.map Prod.fst = (written record.fields).map Prod.fst := by
    rw [← List.forall₂_eq_eq_eq, List.forall₂_map_left_iff, List.forall₂_map_right_iff]
    exact writes.flip.imp fun _ _ isWritten => isWritten.1
  refine .intro (Json.sorted_putMembers List.Pairwise.nil members) (fun name => ?_) ?_
  · have isName : name ∈ members.map Prod.fst ↔
        ∃ json, Json.lastOf name members = some json := by
      rw [← Json.isSome_lastOf_iff, Option.isSome_iff_exists]
    rw [← names, isName, List.mem_map]
    constructor
    · rintro ⟨⟨_, json⟩, isMember, rfl⟩
      exact ⟨json, (last _ _).mp isMember⟩
    · rintro ⟨json, isLast⟩
      exact ⟨(name, json), (last _ _).mpr isLast, rfl⟩
  · rintro ⟨name, json⟩ isMember value isLast
    have related := lastOf_of_writesMember writes name
    rw [(last _ _).mp isMember, isLast] at related
    cases related with
    | some isWritten => exact isWritten

/-- Only nulls are written as null. -/
theorem WritesItem.writesValue {field : Option Field} {item : Value} {json : Json}
    (writes : WritesItem field item json) (notNull : item.isNull = false) :
    WritesValue field item json := by
  cases writes with
  | null => cases notNull
  | value writes => exact writes

/-- The items that are kept make the form of a list. -/
theorem writesValue_of_items {field : Option Field} {items : List Value} {jsons : List Json}
    (writes : List.Forall₂ (WritesItem field)
      (items.filter fun item => !item.isNull || keepsNulls field) jsons) :
    WritesValue field (.list items) (.array jsons) := by
  cases isAny : keepsNulls field with
  | true =>
      have keepsAll : (items.filter fun item => !item.isNull || keepsNulls field) = items := by
        simp [isAny]
      rw [keepsAll] at writes
      exact .untyped isAny writes.length_eq.symm fun _ isPair => List.forall₂_zip writes isPair
  | false =>
      simp only [isAny, Bool.or_false] at writes
      refine .typed isAny writes.length_eq.symm fun pair isPair => ?_
      have notNull : pair.1.isNull = false := by
        simpa using (List.mem_filter.mp (List.of_mem_zip isPair).1).2
      exact (List.forall₂_zip writes isPair).writesValue notNull

mutual

theorem writesValue_of_ok (field : Option Field) : (value : Value) → (json : Json) →
    value.isNull = false → valueToJson field value = .ok json → WritesValue field value json
  | .null, _, notNull, _ => by cases notNull
  | .scalar scalar, json, _, isOk => by
      rw [valueToJson] at isOk
      exact .scalar (isScalar_of_scalarToJson isOk) isOk
  | .record record, json, _, isOk => by
      rw [valueToJson] at isOk
      obtain ⟨members, rfl, writes⟩ := writesRecord_of_ok _ record json isOk
      exact .record writes
  | .list items, json, _, isOk => by
      rw [valueToJson] at isOk
      obtain ⟨jsons, areItems, isOk⟩ := exists_of_bind_ok isOk
      cases isOk
      exact writesValue_of_items (writesItems_of_ok field items jsons areItems)

theorem writesRecord_of_ok (type : Option ComplexType) : (record : Record) → (json : Json) →
    recordToJson type record = .ok json →
    ∃ members, json = .object members ∧ WritesRecord type record members
  | ⟨fields⟩, json, isOk => by
      rw [recordToJson] at isOk
      obtain ⟨members, areMembers, isOk⟩ := exists_of_bind_ok isOk
      cases isOk
      exact ⟨_, rfl, writesRecord_of_members (writesMembers_of_ok type fields members areMembers)⟩

theorem writesItems_of_ok (field : Option Field) : (items : List Value) → (jsons : List Json) →
    itemsToJson field items = .ok jsons →
    List.Forall₂ (WritesItem field)
      (items.filter fun item => !item.isNull || keepsNulls field) jsons
  | [], jsons, isOk => by
      rw [itemsToJson] at isOk
      cases isOk
      exact .nil
  | item :: rest, jsons, isOk => by
      rw [itemsToJson] at isOk
      split at isOk
      · rename_i drops
        rw [List.filter_cons_of_neg (by simpa using drops)]
        exact writesItems_of_ok field rest jsons isOk
      · rename_i keeps
        obtain ⟨json, isJson, isOk⟩ := exists_of_bind_ok isOk
        obtain ⟨others, areOthers, isOk⟩ := exists_of_bind_ok isOk
        cases isOk
        have isKept : (!item.isNull || keepsNulls field) = true := by
          revert keeps
          cases item.isNull <;> cases keepsNulls field <;> simp
        rw [List.filter_cons, if_pos isKept]
        refine .cons ?_ (writesItems_of_ok field rest others areOthers)
        cases isNull : item.isNull with
        | false => exact .value (writesValue_of_ok field item json isNull isJson)
        | true =>
            obtain rfl : item = .null := by
              cases item <;> cases isNull
              rfl
            rw [valueToJson] at isJson
            cases isJson
            exact .null

theorem writesMembers_of_ok (type : Option ComplexType) : (fields : List (String × Value)) →
    (members : List (String × Json)) → fieldsToMembers type fields = .ok members →
    List.Forall₂ (WritesMember type) (written fields) members
  | [], members, isOk => by
      rw [fieldsToMembers] at isOk
      cases isOk
      exact .nil
  | (name, value) :: rest, members, isOk => by
      rw [fieldsToMembers] at isOk
      split at isOk
      · rename_i isNull
        rw [written, List.filter_cons_of_neg (by simp [isNull])]
        exact writesMembers_of_ok type rest members isOk
      · rename_i notNull
        obtain ⟨member, isMember, isOk⟩ := exists_of_bind_ok isOk
        obtain ⟨others, areOthers, isOk⟩ := exists_of_bind_ok isOk
        cases isOk
        rw [written, List.filter_cons_of_pos (by simp [notNull])]
        refine .cons ⟨rfl, ?_⟩ (writesMembers_of_ok type rest others areOthers)
        exact writesValue_of_ok _ value member (Bool.eq_false_iff.mpr notNull) isMember

end

/-- Writing a record fails exactly if a number in it is none that JSON has. Otherwise the
body says what the record says, and is null nowhere but among untyped values. -/
theorem written_or_unsendable (type : Option ComplexType) (record : Record) :
    ((∃ fault, recordToJson type record = .error fault) ↔ HoldsUnsendable (.record record)) ∧
      ∀ json, recordToJson type record = .ok json →
        ∃ members, json = .object members ∧ WritesRecord type record members := by
  refine ⟨?_, writesRecord_of_ok type record⟩
  rw [holdsUnsendable_record_iff]
  exact recordToJson_fails_iff type record

end Body

end OData
