/-
# Records written and read again

A record that conforms to a type becomes JSON, and the JSON is read as the record's
normal form, at every depth. The encoder goes by the record and the decoder by the
type; they meet in the members of an object, which have the names of the fields
that are not null and no others.

The text of the JSON is not looked at here: the result is about JSON values.
-/

import OData.Body.Decode
import OData.Body.Encode
import OData.Proofs.Body.Conformance
import OData.Proofs.Uuid

namespace OData

/-! ## Members -/

namespace Json

theorem get?_insertMember_self (name : String) (value : Json) (members : List (String × Json)) :
    get? name (.object (insertMember name value members)) = some value := by
  induction members with
  | nil => simp [insertMember, get?]
  | cons member rest ih =>
      obtain ⟨other, kept⟩ := member
      by_cases same : name = other
      · simp [insertMember, get?, same]
      · by_cases before : name < other
        · simp [insertMember, get?, same, before]
        · rw [insertMember, if_neg same, if_neg before]
          simpa [get?, List.find?_cons, Ne.symm same] using ih

theorem get?_insertMember_of_ne {name other : String} (different : other ≠ name) (value : Json)
    (members : List (String × Json)) :
    get? other (.object (insertMember name value members)) = get? other (.object members) := by
  induction members with
  | nil => simp [insertMember, get?, different.symm]
  | cons member rest ih =>
      obtain ⟨key, kept⟩ := member
      by_cases same : name = key
      · subst same
        simp [insertMember, get?, different.symm]
      · by_cases before : name < key
        · simp [insertMember, get?, same, before, different.symm]
        · rw [insertMember, if_neg same, if_neg before]
          by_cases found : key = other
          · simp [get?, found]
          · simpa [get?, List.find?_cons, found] using ih

/-- The members of an object with more members put into it one after another. -/
def putMembers (before members : List (String × Json)) : List (String × Json) :=
  members.foldl (fun sorted member => insertMember member.1 member.2 sorted) before

theorem get?_putMembers_of_not_mem {name : String} {members : List (String × Json)}
    (absent : name ∉ members.map Prod.fst) (before : List (String × Json)) :
    get? name (.object (putMembers before members)) = get? name (.object before) := by
  induction members generalizing before with
  | nil => rfl
  | cons member rest ih =>
      obtain ⟨different, others⟩ := List.ne_and_not_mem_of_not_mem_cons absent
      rw [putMembers, List.foldl_cons, ← putMembers, ih others,
        get?_insertMember_of_ne different]

theorem get?_putMembers_of_mem {name : String} {value : Json} {members : List (String × Json)}
    (distinct : (members.map Prod.fst).Nodup) (isMember : (name, value) ∈ members)
    (before : List (String × Json)) :
    get? name (.object (putMembers before members)) = some value := by
  induction members generalizing before with
  | nil => cases isMember
  | cons member rest ih =>
      obtain ⟨absent, others⟩ := List.nodup_cons.mp distinct
      rw [putMembers, List.foldl_cons, ← putMembers]
      rcases List.mem_cons.mp isMember with rfl | isMember
      · rw [get?_putMembers_of_not_mem absent, get?_insertMember_self]
      · exact ih others isMember _

end Json

namespace Body

/-- The fields that are written. -/
def written (fields : List (String × Value)) : List (String × Value) :=
  fields.filter fun entry => !entry.2.isNull

/-- When every field that is written can be, the members are their names with their
values. -/
theorem fieldsToMembers_ok (type : ComplexType) {fields : List (String × Value)}
    (encodes : ∀ entry ∈ written fields,
      ∃ json, valueToJson (type.field? entry.1) entry.2 = .ok json) :
    ∃ members, fieldsToMembers (some type) fields = .ok members ∧
      members.map Prod.fst = (written fields).map Prod.fst ∧
      ∀ entry ∈ written fields, ∀ json,
        valueToJson (type.field? entry.1) entry.2 = .ok json → (entry.1, json) ∈ members := by
  induction fields with
  | nil => exact ⟨[], by rw [fieldsToMembers], rfl, nofun⟩
  | cons entry rest ih =>
      obtain ⟨name, value⟩ := entry
      cases isNull : value.isNull with
      | true =>
          have same : written ((name, value) :: rest) = written rest := by
            simp [written, isNull]
          rw [same] at encodes ⊢
          rw [fieldsToMembers, if_pos isNull]
          exact ih encodes
      | false =>
          have split : written ((name, value) :: rest) = (name, value) :: written rest := by
            simp [written, isNull]
          rw [split] at encodes ⊢
          obtain ⟨⟨json, encoded⟩, others⟩ := List.forall_mem_cons.mp encodes
          obtain ⟨members, compiled, names, found⟩ := ih others
          refine ⟨(name, json) :: members, ?_, ?_, ?_⟩
          · have declared : (some type).bind (fun declared => declared.field? name) =
                type.field? name := rfl
            rw [fieldsToMembers, if_neg (by simp [isNull]), declared, encoded, compiled]
            rfl
          · rw [List.map_cons, List.map_cons, names]
          · intro entry isMember other otherEncoded
            rcases List.mem_cons.mp isMember with rfl | isMember
            · cases encoded.symm.trans otherEncoded
              exact List.mem_cons_self
            · exact List.mem_cons_of_mem _ (found entry isMember other otherEncoded)

/-! ## Scalars -/

theorem int64?_toInt (value : Int64) : (Json.Number.integer value.toInt).int64? = some value := by
  have fits : Number.fitsInt64 value.toInt = true := by
    have low := value.le_toInt
    have high := value.toInt_lt
    simp only [Number.fitsInt64, Bool.and_eq_true, decide_eq_true_eq]
    omega
  rw [Json.Number.int64?, if_pos fits, Int64.ofInt_toInt]

/-- The JSON of a scalar is read as the scalar. -/
def IsScalarForm (field : Field) (scalar : Scalar) (json : Json) : Prop :=
  scalarToJson (some field) scalar = .ok json ∧ scalarOf? field.type json = some scalar

theorem isScalarForm_instant {field : Field} (type : field.type = .dateTime)
    {value : Time.Instant} (admits : ValueType.dateTime.Admits (.instant value)) :
    IsScalarForm field (.instant value) (.string value.zonedText) := by
  obtain ⟨noLeap, whole, plain⟩ := admits
  have kept : value.truncated = value := by
    have same : value.nanosecond / 1000000 * 1000000 = value.nanosecond := by omega
    cases value with
    | mk date second nanosecond =>
        simp only at same
        simp only [Time.Instant.truncated, same]
  constructor
  · rw [scalarToJson, Option.map_some, type]
  · rw [type, scalarOf?, Time.Instant.readInstant?_zonedText noLeap plain, kept]
    rfl

theorem isScalarForm_date {field : Field} (type : field.type = .date)
    {value : Time.Instant} (admits : ValueType.date.Admits (.instant value)) :
    IsScalarForm field (.instant value) (.string value.date.text) := by
  obtain ⟨isMidnight, plain⟩ := admits
  constructor
  · rw [scalarToJson, Option.map_some, type]
  · rw [type, scalarOf?, Time.readInstant?_text plain, ← isMidnight]
    rfl

theorem isScalarForm_decimal {field : Field} (type : field.type = .decimal ∨ field.type = .any)
    {value : Float} (finite : Number.isFinite value = true) :
    IsScalarForm field (.decimal value) (.number (.decimal value)) := by
  constructor
  · rw [scalarToJson, if_pos finite]
  · rcases type with type | type <;> rw [type] <;> rfl

theorem isScalarForm_integer {field : Field} (type : field.type = .integer ∨ field.type = .any)
    (value : Int64) : IsScalarForm field (.integer value) (.number (.integer value.toInt)) := by
  constructor
  · rfl
  · rcases type with type | type <;> rw [type, scalarOf?, int64?_toInt] <;> rfl

/-- Every scalar that a type admits has a form that is read as the scalar, and that
is neither null nor an array. -/
theorem exists_isScalarForm {field : Field} {scalar : Scalar}
    (admits : field.type.Admits scalar) :
    ∃ json, IsScalarForm field scalar json ∧ json.isNull = false ∧
      ∀ items, json ≠ .array items := by
  cases type : field.type <;> cases scalar <;> rw [type] at admits <;>
    first
    | exact admits.elim
    | skip
  case string.text value =>
      exact ⟨.string value, ⟨rfl, by rw [type]; rfl⟩, rfl, nofun⟩
  case any.text value =>
      exact ⟨.string value, ⟨rfl, by rw [type]; rfl⟩, rfl, nofun⟩
  case boolean.boolean value =>
      exact ⟨.boolean value, ⟨rfl, by rw [type]; rfl⟩, rfl, nofun⟩
  case any.boolean value =>
      exact ⟨.boolean value, ⟨rfl, by rw [type]; rfl⟩, rfl, nofun⟩
  case guid.uuid value =>
      exact ⟨.string value.text, ⟨rfl, by rw [type, scalarOf?, Uuid.read?_text]; rfl⟩, rfl, nofun⟩
  case integer.integer value => exact ⟨_, isScalarForm_integer (.inl type) value, rfl, nofun⟩
  case any.integer value => exact ⟨_, isScalarForm_integer (.inr type) value, rfl, nofun⟩
  case decimal.decimal value => exact ⟨_, isScalarForm_decimal (.inl type) admits, rfl, nofun⟩
  case any.decimal value => exact ⟨_, isScalarForm_decimal (.inr type) admits, rfl, nofun⟩
  case dateTime.instant value => exact ⟨_, isScalarForm_instant type admits, rfl, nofun⟩
  case date.instant value => exact ⟨_, isScalarForm_date type admits, rfl, nofun⟩

/-! ## Values -/

/-- Every record that conforms to the type is written as an object that is read as
its normal form. -/
def RecordsReadBack (type : ComplexType) : Prop :=
  ∀ record, Conforms type record → ∃ members,
    recordToJson (some type) record = .ok (.object members) ∧
      recordOf type (.object members) = .ok (restored type record)

/-- The JSON of a single value is read as its normal form. -/
def IsForm (field : Field) (value : Value) (json : Json) : Prop :=
  valueToJson (some field) value = .ok json ∧
    valueOf field.name field.type json = .ok (restoredElement field.type value)

theorem simpleOf_of_scalarOf? {name : String} {type : ValueType} {json : Json} {scalar : Scalar}
    (read : scalarOf? type json = some scalar) (notNull : json.isNull = false) :
    simpleOf name type json = .ok (.scalar scalar) := by
  unfold simpleOf
  split
  · cases notNull
  · rw [read]

theorem valueOf_simple {name : String} {type : ValueType} (isSimple : type.complex? = none)
    (json : Json) : valueOf name type json = simpleOf name type json := by
  cases type with
  | complex inner => cases isSimple
  | _ => rw [valueOf]; nofun

theorem complex?_of_admits {type : ValueType} {scalar : Scalar} (admits : type.Admits scalar) :
    type.complex? = none := by
  cases type with
  | complex inner => cases scalar <;> exact admits.elim
  | _ => rfl

/-- A single value has a form, given that the records in it read back. -/
theorem exists_isForm {field : Field}
    (inner : ∀ type, field.type = .complex type → RecordsReadBack type) {value : Value}
    (fits : Fits field.type value) :
    ∃ json, IsForm field value json ∧ json.isNull = false ∧ ∀ items, json ≠ .array items := by
  generalize same : field.type = type at fits
  cases fits with
  | @scalar _ scalar admits =>
      have fieldAdmits : field.type.Admits scalar := same ▸ admits
      obtain ⟨json, ⟨written, read⟩, notNull, noArray⟩ := exists_isScalarForm fieldAdmits
      refine ⟨json, ⟨?_, ?_⟩, notNull, noArray⟩
      · rw [valueToJson]
        exact written
      · rw [same] at read ⊢
        rw [valueOf_simple (complex?_of_admits admits), simpleOf_of_scalarOf? read notNull,
          restoredElement_scalar]
  | @record type record conforms =>
      obtain ⟨members, written, read⟩ := inner type same record conforms
      refine ⟨.object members, ⟨?_, ?_⟩, rfl, nofun⟩
      · have declared : (some field).bind Field.complex? = some type := by
          rw [Option.bind_some, Field.complex?, same]
          rfl
        rw [valueToJson, declared]
        exact written
      · rw [same, valueOf, read]
        rfl

/-- The encoder leaves out the items that the normal form does not keep. -/
theorem leavesOut_eq (field : Field) (item : Value) :
    (item.isNull && !keepsNulls (some field)) = !(!item.isNull || field.type.isAny) := by
  have keeps : keepsNulls (some field) = field.type.isAny := rfl
  rw [keeps, Bool.not_or, Bool.not_not]

/-- An item that is kept has a form: a value has its own, and a null among untyped
values stays one. -/
theorem exists_isForm_item {field : Field}
    (inner : ∀ type, field.type = .complex type → RecordsReadBack type) {item : Value}
    (fits : item.isNull = false → Fits field.type item)
    (kept : (!item.isNull || field.type.isAny) = true) :
    ∃ json, IsForm field item json ∧ (!json.isNull || field.type.isAny) = true := by
  cases isNull : item.isNull with
  | false =>
      obtain ⟨json, form, notNull, -⟩ := exists_isForm inner (fits isNull)
      exact ⟨json, form, by rw [notNull]; rfl⟩
  | true =>
      have isAny : field.type.isAny = true := by simpa [isNull] using kept
      have noValue : item = .null := by
        cases item <;> first | rfl | cases isNull
      refine ⟨.null, ⟨?_, ?_⟩, by rw [isAny, Bool.or_true]⟩
      · rw [noValue, valueToJson]
      · have type : field.type = .any := by
          revert isAny
          cases field.type <;> first | exact fun _ => rfl | exact nofun
        rw [noValue, type, valueOf_simple rfl]
        rfl

/-- The items that are kept are written, and read one by one. -/
theorem exists_forms {field : Field}
    (inner : ∀ type, field.type = .complex type → RecordsReadBack type) {items : List Value}
    (fit : ∀ item ∈ items, item.isNull = false → Fits field.type item) :
    ∃ jsons, itemsToJson (some field) items = .ok jsons ∧
      takenItems field.type jsons = jsons ∧
      jsons.mapM (valueOf field.name field.type) =
        .ok ((keptItems field.type items).map (restoredElement field.type)) := by
  induction items with
  | nil => exact ⟨[], by rw [itemsToJson], rfl, rfl⟩
  | cons item rest ih =>
      obtain ⟨itemFits, restFit⟩ := List.forall_mem_cons.mp fit
      obtain ⟨jsons, written, taken, read⟩ := ih restFit
      by_cases kept : (!item.isNull || field.type.isAny) = true
      · obtain ⟨json, ⟨itemWritten, itemRead⟩, itemTaken⟩ :=
          exists_isForm_item inner itemFits kept
        refine ⟨json :: jsons, ?_, ?_, ?_⟩
        · have stays : ¬(item.isNull && !keepsNulls (some field)) = true := by
            rw [leavesOut_eq, kept]
            exact Bool.false_ne_true
          rw [itemsToJson, if_neg stays, itemWritten, written]
          rfl
        · rw [takenItems, List.filter_cons, if_pos itemTaken]
          exact congrArg _ taken
        · rw [List.mapM_cons, itemRead, read, keptItems, keptItems, List.filter_cons, if_pos kept]
          rfl
      · refine ⟨jsons, ?_, taken, ?_⟩
        · have drops : (item.isNull && !keepsNulls (some field)) = true := by
            rw [leavesOut_eq, Bool.not_eq_true', Bool.eq_false_iff]
            exact kept
          rw [itemsToJson, if_pos drops]
          exact written
        · rw [read, keptItems, keptItems, List.filter_cons, if_neg kept]

theorem restoredMember_single {type : ValueType} {value : Value} (fits : Fits type value)
    (field : Field) (element : Value → Value) :
    restoredMember field element value =
      if field.isList then .list [element value] else element value := by
  cases fits <;> rfl

/-- The value of a field that is not null has a form, which is read as the field's
value in normal form. -/
theorem exists_memberForm {field : Field}
    (inner : ∀ type, field.type = .complex type → RecordsReadBack type) {value : Value}
    (holds : Holds field.type value) (notNull : value.isNull = false) :
    ∃ json, valueToJson (some field) value = .ok json ∧ json.isNull = false ∧
      memberOf field (valueOf field.name field.type) json =
        .ok (restoredMember field (restoredElement field.type) value) := by
  generalize same : field.type = type at holds
  cases holds with
  | null => cases notNull
  | single fits =>
      subst same
      obtain ⟨json, ⟨written, read⟩, jsonNotNull, noArray⟩ := exists_isForm inner fits
      refine ⟨json, written, jsonNotNull, ?_⟩
      have asSingle : memberOf field (valueOf field.name field.type) json =
          if field.isList then
            (valueOf field.name field.type json).map fun value => .list [value]
          else valueOf field.name field.type json := by
        cases json with
        | array items => exact absurd rfl (noArray items)
        | _ => rfl
      rw [asSingle, read, restoredMember_single fits]
      cases field.isList <;> rfl
  | @list _ items fit =>
      subst same
      obtain ⟨jsons, written, taken, read⟩ := exists_forms inner fit
      refine ⟨.array jsons, ?_, rfl, ?_⟩
      · rw [valueToJson, written]
        rfl
      · rw [memberOf, taken, read]
        rfl

/-! ## Records -/

theorem mem_of_lookup {name : String} {value : Value} {fields : List (String × Value)}
    (found : Record.lookup name fields = some value) : (name, value) ∈ fields := by
  induction fields with
  | nil => cases found
  | cons entry rest ih =>
      obtain ⟨other, kept⟩ := entry
      rw [Record.lookup] at found
      split at found
      · rename_i same
        cases found
        rw [same]
        exact List.mem_cons_self
      · exact List.mem_cons_of_mem _ (ih found)

theorem lookup_of_mem {name : String} {value : Value} {fields : List (String × Value)}
    (distinct : (fields.map Prod.fst).Nodup) (isMember : (name, value) ∈ fields) :
    Record.lookup name fields = some value := by
  induction fields with
  | nil => cases isMember
  | cons entry rest ih =>
      obtain ⟨absent, others⟩ := List.nodup_cons.mp distinct
      rcases List.mem_cons.mp isMember with rfl | isMember
      · exact if_pos rfl
      · have different : entry.1 ≠ name := by
          intro same
          exact absent (same ▸ List.mem_map_of_mem isMember)
        rw [Record.lookup, if_neg different]
        exact ih others isMember

/-- In a record without double names, the fields that are written are the values
that are found. -/
theorem mem_written_iff {record : Record} (distinct : record.names.Nodup) (name : String)
    (value : Value) :
    (name, value) ∈ written record.fields ↔ record.value? name = some value := by
  rw [written, List.mem_filter, Record.value?, Record.get?, Option.filter_eq_some_iff]
  constructor
  · rintro ⟨isMember, notNull⟩
    exact ⟨lookup_of_mem distinct isMember, notNull⟩
  · rintro ⟨found, notNull⟩
    exact ⟨mem_of_lookup found, notNull⟩

/-- The member of a field says what the field holds: there is none when the record
has no value for it, and otherwise it is read as the value's normal form. -/
def MemberReadsBack (record : Record) (members : List (String × Json)) (field : Field) : Prop :=
  match record.value? field.name with
  | none => Json.get? field.name (.object members) = none
  | some value => ∃ json, Json.get? field.name (.object members) = some json ∧
      json.isNull = false ∧
      memberOf field (valueOf field.name field.type) json =
        .ok (restoredMember field (restoredElement field.type) value)

theorem insert_of_not_mem {name : String} {fields : List (String × Value)}
    (absent : name ∉ fields.map Prod.fst) (value : Value) :
    Record.insert name value fields = fields ++ [(name, value)] := by
  induction fields with
  | nil => rfl
  | cons entry rest ih =>
      obtain ⟨different, others⟩ := List.ne_and_not_mem_of_not_mem_cons absent
      rw [Record.insert, if_neg (Ne.symm different), ih others]
      rfl

theorem fieldsOf_absent {field : Field} {members : List (String × Json)}
    (absent : Json.get? field.name (.object members) = none) (rest : List Field)
    (record : Record) :
    fieldsOf (field :: rest) members record = fieldsOf rest members record := by
  cases field with
  | mk name =>
      simp only at absent
      rw [fieldsOf, absent]

theorem fieldsOf_present {field : Field} {members : List (String × Json)} {json : Json}
    (present : Json.get? field.name (.object members) = some json)
    (notNull : json.isNull = false) (rest : List Field) (record : Record) :
    fieldsOf (field :: rest) members record =
      (memberOf field (valueOf field.name field.type) json).bind fun value =>
        fieldsOf rest members (record.set field.name value) := by
  cases field with
  | mk name =>
      simp only at present
      rw [fieldsOf, present]
      cases json with
      | null => cases notNull
      | _ => rfl

/-- The decoder appends what the record holds in one field after another. -/
theorem fieldsOf_restored {record : Record} {members : List (String × Json)}
    {fields : List Field} (read : ∀ field ∈ fields, MemberReadsBack record members field)
    (before : Record) (distinct : (before.names ++ fields.map Field.name).Nodup) :
    fieldsOf fields members before =
      .ok ⟨before.fields ++ restoredFields fields record⟩ := by
  induction fields generalizing before with
  | nil =>
      rw [fieldsOf, restoredFields, List.append_nil]
      cases before
      rfl
  | cons field rest ih =>
      obtain ⟨first, others⟩ := List.forall_mem_cons.mp read
      rw [restoredFields_cons]
      rw [MemberReadsBack] at first
      have moved : before.names ++ (field :: rest).map Field.name =
          before.names ++ [field.name] ++ rest.map Field.name := by simp
      rw [moved] at distinct
      -- A name is new to the record read so far, so that setting it appends.
      cases found : record.value? field.name with
      | none =>
          rw [found] at first
          have restDistinct : (before.names ++ rest.map Field.name).Nodup :=
            distinct.sublist ((List.sublist_append_left _ _).append_right _)
          rw [fieldsOf_absent first, ih others before restDistinct]
          rfl
      | some value =>
          rw [found] at first
          obtain ⟨json, present, notNull, decoded⟩ := first
          have absent : field.name ∉ before.names := by
            have apart := (List.nodup_append.mp (List.nodup_append.mp distinct).1).2.2
            exact fun isMember => apart _ isMember _ List.mem_cons_self rfl
          have appended := insert_of_not_mem absent
            (restoredMember field (restoredElement field.type) value)
          rw [fieldsOf_present present notNull, decoded]
          show fieldsOf rest members (before.set _ _) = _
          rw [Record.set, appended, ih others]
          · simp
          · simpa [Record.names] using distinct

/-- What is written of a conforming record is declared and held by its field. -/
theorem exists_field_of_mem_written {type : ComplexType} {record : Record}
    (conforms : Conforms type record) {entry : String × Value}
    (isWritten : entry ∈ written record.fields) :
    ∃ field ∈ type.fields, type.field? entry.1 = some field ∧ Holds field.type entry.2 ∧
      entry.2.isNull = false := by
  obtain ⟨-, declared, held⟩ := conforms
  obtain ⟨isMember, kept⟩ := List.mem_filter.mp isWritten
  have notNull : entry.2.isNull = false := by simpa using kept
  obtain ⟨field, found⟩ := Option.isSome_iff_exists.mp (declared entry isMember notNull)
  exact ⟨field, List.mem_of_find?_eq_some found, found, held entry isMember field found, notNull⟩

/-- Records read back, given that the records in them do. -/
theorem recordsReadBack_of_inner {type : ComplexType}
    (distinct : (type.fields.map Field.name).Nodup)
    (inner : ∀ field ∈ type.fields, ∀ inner, field.type = .complex inner →
      RecordsReadBack inner) : RecordsReadBack type := by
  intro record conforms
  have namesDistinct : record.names.Nodup := by
    cases conforms with
    | intro distinct => exact distinct
  have encodes : ∀ entry ∈ written record.fields,
      ∃ json, valueToJson (type.field? entry.1) entry.2 = .ok json := by
    intro entry isWritten
    obtain ⟨field, isField, found, holds, notNull⟩ :=
      exists_field_of_mem_written conforms isWritten
    obtain ⟨json, encoded, -⟩ := exists_memberForm (inner field isField) holds notNull
    exact ⟨json, by rw [found, encoded]⟩
  obtain ⟨members, compiled, names, hasMember⟩ := fieldsToMembers_ok type encodes
  have membersDistinct : (members.map Prod.fst).Nodup := by
    rw [names]
    exact namesDistinct.sublist (List.filter_sublist.map Prod.fst)
  have read : ∀ field ∈ type.fields,
      MemberReadsBack record (Json.putMembers [] members) field := by
    intro field isField
    rw [MemberReadsBack]
    cases found : record.value? field.name with
    | none =>
        have absent : field.name ∉ members.map Prod.fst := by
          rw [names]
          intro isMember
          obtain ⟨entry, isWritten, sameName⟩ := List.mem_map.mp isMember
          have present := (mem_written_iff namesDistinct entry.1 entry.2).mp isWritten
          rw [sameName, found] at present
          cases present
        exact Json.get?_putMembers_of_not_mem absent []
    | some value =>
        have isWritten := (mem_written_iff namesDistinct field.name value).mpr found
        have isFound := ComplexType.field?_of_mem distinct isField
        obtain ⟨other, -, otherFound, holds, notNull⟩ :=
          exists_field_of_mem_written conforms isWritten
        cases isFound.symm.trans otherFound
        obtain ⟨json, encoded, jsonNotNull, decoded⟩ :=
          exists_memberForm (inner field isField) holds notNull
        have isMember := hasMember _ isWritten json (by rw [isFound]; exact encoded)
        exact ⟨json, Json.get?_putMembers_of_mem membersDistinct isMember [], jsonNotNull,
          decoded⟩
  refine ⟨Json.putMembers [] members, ?_, ?_⟩
  · cases record with
    | mk fields =>
        rw [recordToJson, compiled]
        rfl
  · have whole := fieldsOf_restored read .empty distinct
    cases type with
    | mk name id collection fields =>
        rw [recordOf, restored]
        exact whole

theorem recordsReadBack (type : ComplexType) (distinct : type.DistinctNames) :
    RecordsReadBack type := by
  induction type using ComplexType.induction with
  | step type ih =>
      obtain ⟨names, inner⟩ := distinct
      apply recordsReadBack_of_inner names
      intro field isField nested isComplex
      exact ih field isField nested isComplex (inner field isField nested isComplex)

/-- Every record that conforms to a type without double names, at every depth, is
written as JSON, and the JSON is read as the record's normal form. -/
theorem recordOf_recordToJson (type : ComplexType) (distinct : type.DistinctNames)
    (record : Record) (conforms : Conforms type record) :
    ∃ json, recordToJson (some type) record = .ok json ∧
      recordOf type json = .ok (restored type record) := by
  obtain ⟨members, written, read⟩ := recordsReadBack type distinct record conforms
  exact ⟨.object members, written, read⟩

/-- Accounts with a name, untyped tags and any number of owners. -/
def accountType : ComplexType where
  name := "account"
  fields := [
    { name := "name", type := .string },
    { name := "tags", type := .any },
    { name := "owner"
      type := .complex { name := "owner", fields := [{ name := "since", type := .date }] }
      maxOccurs := some 0 }]

/-- An owner since the first day of 2020. -/
def owner : Value := .record ⟨[("since", .scalar (.instant (.midnight (.newYear 2020))))]⟩

/-- A record in another order than its type loses its nulls, but not those among
untyped values, and its single owner becomes a list. -/
theorem account_reads_back :
    ∃ json,
      recordToJson (some accountType) ⟨[("owner", owner), ("extra", .null),
          ("tags", .list [.null, .scalar (.integer 1)]),
          ("name", .list [.null, .scalar (.text "x")])]⟩ = .ok json ∧
        recordOf accountType json = .ok ⟨[("name", .list [.scalar (.text "x")]),
          ("tags", .list [.null, .scalar (.integer 1)]), ("owner", .list [owner])]⟩ := by
  apply recordOf_recordToJson
  · apply ComplexType.DistinctNames.intro (by decide)
    intro field isMember inner isComplex
    simp only [accountType, List.mem_cons, List.not_mem_nil, or_false] at isMember
    rcases isMember with rfl | rfl | rfl <;> cases isComplex
    apply ComplexType.DistinctNames.intro (by decide)
    intro field isMember inner isComplex
    cases List.mem_singleton.mp isMember
    cases isComplex
  · apply Conforms.intro (by decide)
    · intro entry isMember notNull
      simp only [List.mem_cons, List.not_mem_nil, or_false] at isMember
      rcases isMember with rfl | rfl | rfl | rfl <;> first | rfl | cases notNull
    · intro entry isMember field found
      simp only [List.mem_cons, List.not_mem_nil, or_false] at isMember
      rcases isMember with rfl | rfl | rfl | rfl
      · cases found
        apply Holds.single
        apply Fits.record
        apply Conforms.intro (by decide)
        · intro entry isMember _
          cases List.mem_singleton.mp isMember
          rfl
        · intro entry isMember field found
          cases List.mem_singleton.mp isMember
          cases found
          exact .single (.scalar ⟨rfl, by decide⟩)
      · cases found
      · cases found
        apply Holds.list
        intro item isMember notNull
        simp only [List.mem_cons, List.not_mem_nil, or_false] at isMember
        rcases isMember with rfl | rfl
        · cases notNull
        · exact .scalar trivial
      · cases found
        apply Holds.list
        intro item isMember notNull
        simp only [List.mem_cons, List.not_mem_nil, or_false] at isMember
        rcases isMember with rfl | rfl
        · cases notNull
        · exact .scalar trivial

end Body

end OData
