/-
# What is read

A record that was read from JSON is typed: it has the fields of its type that the object
gives, in the order of the type, none of them is null, and every value is of the kind that
its field declares, at every depth. Whoever takes a key, an option or an output from it
need not check that again. This is a relation between the object and the record, since the
items of a list stand in the order of the array that they were read from.

What an object says under names that its type does not have is never looked at. Two
documents that differ only there, at any depth, give the same record or the same fault.
-/

import OData.Proofs.Body.RoundTrip
import OData.Proofs.Json.Structure
import OData.Proofs.Outcome

namespace OData

/-- The scalars that a simple type declares, wherever they come from. -/
def ValueType.Declares : ValueType → Scalar → Prop
  | .string, .text _ => True
  | .integer, .integer _ => True
  | .decimal, .decimal _ => True
  | .boolean, .boolean _ => True
  | .dateTime, .instant _ => True
  | .date, .instant _ => True
  | .guid, .uuid _ => True
  | .any, .text _ => True
  | .any, .integer _ => True
  | .any, .decimal _ => True
  | .any, .boolean _ => True
  | _, _ => False

namespace Body

/-- What the members of an object give for a field; a null gives nothing. -/
def given? (members : List (String × Json)) (field : Field) : Option Json :=
  (Json.get? field.name (.object members)).filter fun json => !json.isNull

mutual

/-- The record is what an object gives for a type. -/
inductive IsReading : ComplexType → Json → Record → Prop where
  | object {type : ComplexType} {members : List (String × Json)} {record : Record}
      (names : record.names =
        (type.fields.filter fun field => (given? members field).isSome).map Field.name)
      (noNulls : ∀ entry ∈ record.fields, entry.2.isNull = false)
      (held : ∀ entry ∈ record.fields, ∀ field ∈ type.fields, field.name = entry.1 →
        ∀ json, given? members field = some json → IsMember field json entry.2) :
      IsReading type (.object members) record

/-- The value is what a member gives for its field. -/
inductive IsMember : Field → Json → Value → Prop where
  /-- An array gives a list, whatever the field declares. -/
  | list {field : Field} {items : List Json} {values : List Value}
      (count : values.length = (takenItems field.type items).length)
      (inOrder : ∀ pair ∈ (takenItems field.type items).zip values,
        IsElement field.type pair.1 pair.2) :
      IsMember field (.array items) (.list values)
  /-- Anything else in a list field gives a list of one. -/
  | wrapped {field : Field} {json : Json} {value : Value} (noArray : ∀ items, json ≠ .array items)
      (isList : field.isList = true) (element : IsElement field.type json value) :
      IsMember field json (.list [value])
  | single {field : Field} {json : Json} {value : Value} (noArray : ∀ items, json ≠ .array items)
      (isSingle : field.isList = false) (element : IsElement field.type json value) :
      IsMember field json value

/-- The value is what a single JSON value gives for a type. -/
inductive IsElement : ValueType → Json → Value → Prop where
  | scalar {type : ValueType} {json : Json} {scalar : Scalar} (isKind : type.Declares scalar)
      (isRead : scalarOf? type json = some scalar) : IsElement type json (.scalar scalar)
  /-- Only an untyped element can be null. -/
  | null : IsElement .any .null .null
  | record {type : ComplexType} {json : Json} {record : Record}
      (reading : IsReading type json record) : IsElement (.complex type) json (.record record)

end

/-! ## One value -/

theorem declares_of_scalarOf? {type : ValueType} {json : Json} {scalar : Scalar}
    (isRead : scalarOf? type json = some scalar) : type.Declares scalar := by
  unfold scalarOf? at isRead
  split at isRead
  any_goals
    obtain ⟨value, -, rfl⟩ := Option.map_eq_some_iff.mp isRead
    trivial
  any_goals
    cases isRead
    trivial
  · -- a text for a truth value
    split at isRead
    · cases isRead
      trivial
    · split at isRead <;> cases isRead
      trivial
  · -- a number for an untyped scalar
    rename_i number
    cases isExact : number.int64? <;> rw [isExact] at isRead <;> cases isRead <;> trivial
  · cases isRead

theorem isElement_of_simpleOf {name : String} {type : ValueType} {json : Json} {value : Value}
    (isOk : simpleOf name type json = .ok value) : IsElement type json value := by
  unfold simpleOf at isOk
  split at isOk
  · cases isOk
    exact .null
  · split at isOk
    · rename_i scalar isRead
      cases isOk
      exact .scalar (declares_of_scalarOf? isRead) isRead
    · cases isOk

/-- Records of the type are read as the type says. -/
def ReadsTyped (type : ComplexType) : Prop :=
  ∀ json record, recordOf type json = .ok record → IsReading type json record

theorem isElement_of_valueOf {name : String} {type : ValueType}
    (inner : ∀ complex, type = .complex complex → ReadsTyped complex) {json : Json}
    {value : Value} (isOk : valueOf name type json = .ok value) : IsElement type json value := by
  cases isComplex : type.complex? with
  | none =>
      rw [valueOf_simple isComplex] at isOk
      exact isElement_of_simpleOf isOk
  | some complex =>
      obtain rfl : type = .complex complex := by
        cases type <;> cases isComplex
        rfl
      rw [valueOf] at isOk
      obtain ⟨record, isRecord, rfl⟩ := exists_of_map_ok isOk
      exact .record (inner complex rfl json record isRecord)

theorem memberOf_of_noArray {json : Json} (noArray : ∀ items, json ≠ .array items) (field : Field)
    (single : Json → Except Fault Value) :
    memberOf field single json =
      if field.isList then (single json).map fun value => .list [value] else single json := by
  cases json with
  | array items => exact absurd rfl (noArray items)
  | _ => rfl

/-- A field for a list takes a single value as a list of one. -/
theorem memberOf_of_isList {field : Field} (isList : field.isList = true)
    (single : Json → Except Fault Value) {json : Json} (notNull : json.isNull = false) :
    memberOf field single json =
      ((takenItems field.type json.items).mapM single).map .list := by
  by_cases isArray : ∃ items, json = .array items
  · obtain ⟨items, rfl⟩ := isArray
    rfl
  · rw [not_exists] at isArray
    have isItem : json.items = [json] := by
      cases json <;> first | rfl | exact absurd rfl (isArray _)
    have taken : takenItems field.type [json] = [json] := by simp [takenItems, notNull]
    rw [memberOf_of_noArray isArray, if_pos isList, isItem, taken, List.mapM_cons, List.mapM_nil]
    cases single json <;> rfl

theorem isMember_of_memberOf {field : Field}
    (inner : ∀ complex, field.type = .complex complex → ReadsTyped complex) {json : Json}
    {value : Value} (isOk : memberOf field (valueOf field.name field.type) json = .ok value) :
    IsMember field json value := by
  by_cases isArray : ∃ items, json = .array items
  · obtain ⟨items, rfl⟩ := isArray
    obtain ⟨values, areValues, rfl⟩ := exists_of_map_ok isOk
    have pairs := (forall₂_of_mapM_ok areValues).imp fun _ _ => isElement_of_valueOf inner
    exact .list pairs.length_eq.symm fun pair isPair => List.forall₂_zip pairs isPair
  · rw [not_exists] at isArray
    rw [memberOf_of_noArray isArray] at isOk
    split at isOk
    · rename_i isList
      obtain ⟨single, isSingle, rfl⟩ := exists_of_map_ok isOk
      exact .wrapped isArray isList (isElement_of_valueOf inner isSingle)
    · rename_i isSingle
      exact .single isArray (Bool.eq_false_iff.mpr isSingle) (isElement_of_valueOf inner isOk)

/-- Only a null gives a null. -/
theorem IsElement.notNull {type : ValueType} {json : Json} {value : Value}
    (element : IsElement type json value) (isGiven : json.isNull = false) :
    value.isNull = false := by
  cases element with
  | null => cases isGiven
  | scalar => rfl
  | record => rfl

theorem IsMember.notNull {field : Field} {json : Json} {value : Value}
    (isMember : IsMember field json value) (isGiven : json.isNull = false) :
    value.isNull = false := by
  cases isMember with
  | list => rfl
  | wrapped => rfl
  | single _ _ element => exact element.notNull isGiven

/-! ## The fields of a record -/

/-- What an object gives for the first of several fields is set before the others are read. -/
theorem fieldsOf_cons (field : Field) (rest : List Field) (members : List (String × Json))
    (before : Record) :
    fieldsOf (field :: rest) members before =
      match given? members field with
      | none => fieldsOf rest members before
      | some json => (memberOf field (valueOf field.name field.type) json).bind fun value =>
          fieldsOf rest members (before.set field.name value) := by
  unfold given?
  cases found : Json.get? field.name (.object members) with
  | none => exact fieldsOf_absent found rest before
  | some json =>
      cases isNull : json.isNull with
      | false =>
          rw [fieldsOf_present found isNull]
          simp [Option.filter, isNull]
      | true =>
          obtain rfl : json = .null := by
            cases json <;> cases isNull
            rfl
          cases field with
          | mk name =>
              rw [fieldsOf, found]
              rfl

theorem fieldsOf_append (first rest : List Field) (members : List (String × Json))
    (before : Record) :
    fieldsOf (first ++ rest) members before =
      (fieldsOf first members before).bind fun record => fieldsOf rest members record := by
  induction first generalizing before with
  | nil => rw [List.nil_append, fieldsOf, Except.bind]
  | cons field others ih =>
      rw [List.cons_append, fieldsOf_cons, fieldsOf_cons]
      cases given? members field with
      | none => exact ih before
      | some json =>
          cases isValue : memberOf field (valueOf field.name field.type) json with
          | error fault => simp only [isValue, Except.bind]
          | ok value =>
              simp only [isValue, Except.bind]
              exact ih (before.set field.name value)

/-- Fields of other names leave a value alone. -/
theorem get?_of_fieldsOf {fields : List Field} {members : List (String × Json)} {name : String}
    (others : ∀ field ∈ fields, field.name ≠ name) {before record : Record}
    (isOk : fieldsOf fields members before = .ok record) :
    record.get? name = before.get? name := by
  induction fields generalizing before with
  | nil =>
      rw [fieldsOf] at isOk
      cases isOk
      rfl
  | cons field rest ih =>
      obtain ⟨isOther, restOthers⟩ := List.forall_mem_cons.mp others
      rw [fieldsOf_cons] at isOk
      cases isGiven : given? members field with
      | none =>
          rw [isGiven] at isOk
          exact ih restOthers isOk
      | some json =>
          rw [isGiven] at isOk
          obtain ⟨value, -, isOk⟩ := exists_of_bind_ok isOk
          rw [ih restOthers isOk, Record.get?_set_of_ne _ isOther.symm]

/-- The only field of a name decides what a record has under it. -/
theorem get?_of_only {first rest : List Field} {field : Field} {members : List (String × Json)}
    (others : ∀ other ∈ first ++ rest, other.name ≠ field.name) {record : Record}
    (isOk : fieldsOf (first ++ field :: rest) members .empty = .ok record) :
    match given? members field with
    | none => record.get? field.name = none
    | some json => ∃ value, memberOf field (valueOf field.name field.type) json = .ok value ∧
        record.get? field.name = some value := by
  obtain ⟨firstOthers, restOthers⟩ := List.forall_mem_append.mp others
  rw [fieldsOf_append] at isOk
  obtain ⟨middle, isMiddle, isOk⟩ := exists_of_bind_ok isOk
  rw [fieldsOf_cons] at isOk
  cases isGiven : given? members field with
  | none =>
      rw [isGiven] at isOk
      exact (get?_of_fieldsOf restOthers isOk).trans (get?_of_fieldsOf firstOthers isMiddle)
  | some json =>
      rw [isGiven] at isOk
      obtain ⟨value, isValue, isOk⟩ := exists_of_bind_ok isOk
      refine ⟨value, isValue, ?_⟩
      rw [get?_of_fieldsOf restOthers isOk, Record.get?_set_self]

theorem notNull_of_given? {members : List (String × Json)} {field : Field} {json : Json}
    (isGiven : given? members field = some json) : json.isNull = false := by
  have kept := (Option.filter_eq_some_iff.mp isGiven).2
  simpa using kept

/-- What an object gives for fields of different names is put behind what was read before. -/
theorem exists_read_of_fieldsOf {members : List (String × Json)} {fields : List Field}
    (inner : ∀ field ∈ fields, ∀ complex, field.type = .complex complex → ReadsTyped complex)
    {before record : Record} (distinct : (before.names ++ fields.map Field.name).Nodup)
    (isOk : fieldsOf fields members before = .ok record) :
    ∃ read, record.fields = before.fields ++ read ∧
      read.map Prod.fst =
        (fields.filter fun field => (given? members field).isSome).map Field.name ∧
      ∀ entry ∈ read, ∃ field ∈ fields, field.name = entry.1 ∧
        ∃ json, given? members field = some json ∧ IsMember field json entry.2 := by
  induction fields generalizing before with
  | nil =>
      rw [fieldsOf] at isOk
      cases isOk
      exact ⟨[], (List.append_nil _).symm, rfl, List.forall_mem_nil _⟩
  | cons field rest ih =>
      obtain ⟨innerField, innerRest⟩ := List.forall_mem_cons.mp inner
      have weaken {entry : String × Value}
          (isRead : ∃ field ∈ rest, field.name = entry.1 ∧
            ∃ json, given? members field = some json ∧ IsMember field json entry.2) :
          ∃ other ∈ field :: rest, other.name = entry.1 ∧
            ∃ json, given? members other = some json ∧ IsMember other json entry.2 := by
        obtain ⟨other, isOther, isRead⟩ := isRead
        exact ⟨other, List.mem_cons_of_mem _ isOther, isRead⟩
      have moved : before.names ++ (field :: rest).map Field.name =
          before.names ++ [field.name] ++ rest.map Field.name := by simp
      rw [moved] at distinct
      rw [fieldsOf_cons] at isOk
      cases isGiven : given? members field with
      | none =>
          rw [isGiven] at isOk
          have restDistinct := distinct.sublist
            ((List.sublist_append_left before.names [field.name]).append_right _)
          obtain ⟨read, isRecord, names, held⟩ := ih innerRest restDistinct isOk
          refine ⟨read, isRecord, ?_, fun entry isEntry => weaken (held entry isEntry)⟩
          rw [List.filter_cons_of_neg (by simp [isGiven]), names]
      | some json =>
          rw [isGiven] at isOk
          obtain ⟨value, isValue, isOk⟩ := exists_of_bind_ok isOk
          have absent : field.name ∉ before.names := by
            have apart := (List.nodup_append.mp (List.nodup_append.mp distinct).1).2.2
            exact fun isName => apart _ isName _ List.mem_cons_self rfl
          have appended : (before.set field.name value).fields =
              before.fields ++ [(field.name, value)] := insert_of_not_mem absent value
          have setDistinct :
              ((before.set field.name value).names ++ rest.map Field.name).Nodup := by
            rw [Record.names, appended, List.map_append]
            exact distinct
          obtain ⟨read, isRecord, names, held⟩ := ih innerRest setDistinct isOk
          refine ⟨(field.name, value) :: read, ?_, ?_, ?_⟩
          · rw [isRecord, appended, List.append_assoc]
            rfl
          · rw [List.filter_cons_of_pos (by simp [isGiven]), List.map_cons, List.map_cons, names]
          · have isFirst := isMember_of_memberOf innerField isValue
            refine List.forall_mem_cons.mpr
              ⟨⟨field, List.mem_cons_self, rfl, json, isGiven, isFirst⟩, ?_⟩
            exact fun entry isEntry => weaken (held entry isEntry)

theorem readsTyped {type : ComplexType} (distinct : type.DistinctNames) : ReadsTyped type := by
  induction type using ComplexType.induction with
  | step type ih =>
      obtain ⟨names, innerDistinct⟩ := distinct
      intro json record isOk
      have inner : ∀ field ∈ type.fields, ∀ complex, field.type = .complex complex →
          ReadsTyped complex := fun field isField complex isComplex =>
        ih field isField complex isComplex (innerDistinct field isField complex isComplex)
      cases type with
      | mk name id collection fields =>
          cases json with
          | object members =>
              rw [recordOf] at isOk
              have distinct : (Record.empty.names ++ fields.map Field.name).Nodup := names
              obtain ⟨read, isRecord, areNames, held⟩ :=
                exists_read_of_fieldsOf inner distinct isOk
              obtain rfl : record.fields = read := isRecord
              refine .object areNames (fun entry isEntry => ?_) ?_
              · obtain ⟨field, -, -, json, isGiven, isMember⟩ := held entry isEntry
                exact isMember.notNull (notNull_of_given? isGiven)
              · intro entry isEntry field isField sameName json isGiven
                obtain ⟨other, isOther, otherName, found, isFound, isMember⟩ := held entry isEntry
                obtain rfl := List.inj_on_of_nodup_map names isOther isField
                  (otherName.trans sameName.symm)
                obtain rfl := Option.some.inj (isFound.symm.trans isGiven)
                exact isMember
          | _ =>
              rw [recordOf] at isOk <;> cases isOk

/-! ## Lists of a document -/

theorem recordOf_object (type : ComplexType) (members : List (String × Json)) :
    recordOf type (.object members) = fieldsOf type.fields members .empty := by
  cases type
  rw [recordOf]

/-- Only an object is read as a record. -/
theorem exists_members_of_recordOf {type : ComplexType} {levels : Nat}
    {document : Json.Document} {json : Json}
    (isJson : Json.ofDocument? levels document = some json) {record : Record}
    (isRecord : recordOf type json = .ok record) :
    ∃ written members, document = .object written ∧ json = .object members ∧
      Json.ofMembers? (levels - 1) [] written = some members := by
  cases Json.hasValue_of_ofDocument? isJson with
  | object areMembers => exact ⟨_, _, rfl, rfl, areMembers⟩
  | _ =>
      cases type
      rw [recordOf] at isRecord
      · cases isRecord
      · intro members isObject
        cases isObject

/-- What the only field of a name has, when it takes lists, is what is listed under that name
in the document. -/
theorem exists_values_of_list {type : ComplexType} {first rest : List Field} {field : Field}
    (fields : type.fields = first ++ field :: rest)
    (others : ∀ other ∈ first ++ rest, other.name ≠ field.name) (isList : field.isList = true)
    {levels : Nat} {written : List (List Json.Piece × Json.Document)}
    {members : List (String × Json)}
    (areMembers : Json.ofMembers? levels [] written = some members)
    {record : Record} (isRecord : recordOf type (.object members) = .ok record) :
    ∃ left items values,
      List.Forall₂ (fun document json => Json.ofDocument? left document = some json)
        (Json.Document.listed (Json.Document.lastMember? field.name written)) items ∧
      (takenItems field.type items).mapM (valueOf field.name field.type) = .ok values ∧
      Given .list [] values (record.get? field.name) := by
  rw [recordOf_object, fields] at isRecord
  have only := get?_of_only others isRecord
  cases isLast : Json.Document.lastMember? field.name written with
  | none =>
      have absent : given? members field = none := by
        rw [given?, Json.get?_of_noMember areMembers isLast]
        rfl
      rw [absent] at only
      exact ⟨0, [], [], .nil, rfl, .inr ⟨only, rfl⟩⟩
  | some part =>
      obtain ⟨json, isJson, found⟩ := Json.exists_get?_of_lastMember? areMembers isLast
      have sameNull := (Json.hasValue_of_ofDocument? isJson).isNull
      cases isNull : json.isNull with
      | true =>
          rw [isNull] at sameNull
          have absent : given? members field = none := by simp [given?, found, isNull]
          rw [absent] at only
          cases part <;> cases sameNull
          exact ⟨0, [], [], .nil, rfl, .inr ⟨only, rfl⟩⟩
      | false =>
          have present : given? members field = some json := by
            simp [given?, found, isNull, Option.filter]
          rw [present] at only
          obtain ⟨value, isValue, isHeld⟩ := only
          rw [memberOf_of_isList isList _ isNull] at isValue
          obtain ⟨values, areValues, rfl⟩ := exists_of_map_ok isValue
          obtain ⟨left, areItems⟩ := Json.exists_forall₂_items isJson
          have isListed : Json.Document.listed (some part) = part.items := by
            rw [isNull] at sameNull
            cases part <;> first | rfl | cases sameNull
          exact ⟨left, json.items, values, isListed ▸ areItems, areValues, .inl isHeld⟩

/-! ## Members that are not named -/

/-- The members of an object that the type names. -/
def namedMembers (type : ComplexType) (members : List (String × Json)) : List (String × Json) :=
  members.filter fun member => (type.field? member.1).isSome

mutual

/-- The values differ only in members that no type names in the objects read against it. -/
inductive SameNamed : ComplexType → Json → Json → Prop where
  | same {type : ComplexType} {json : Json} : SameNamed type json json
  | object {type : ComplexType} {first second : List (String × Json)}
      (names : (namedMembers type first).map Prod.fst = (namedMembers type second).map Prod.fst)
      (values : ∀ pair ∈ (namedMembers type first).zip (namedMembers type second),
        ∀ field ∈ type.fields, field.name = pair.1.1 →
          SameMember field.type pair.1.2 pair.2.2) :
      SameNamed type (.object first) (.object second)

/-- The same for the members of a field: they are equal, or differ in objects of its type. -/
inductive SameMember : ValueType → Json → Json → Prop where
  | same {type : ValueType} {json : Json} : SameMember type json json
  | single {type : ComplexType} {first second : Json} (differ : SameNamed type first second) :
      SameMember (.complex type) first second
  | list {type : ComplexType} {first second : List Json} (count : first.length = second.length)
      (items : ∀ pair ∈ first.zip second, SameNamed type pair.1 pair.2) :
      SameMember (.complex type) (.array first) (.array second)

end

theorem SameNamed.isNull {type : ComplexType} {first second : Json}
    (differ : SameNamed type first second) : first.isNull = second.isNull := by
  cases differ <;> rfl

theorem SameMember.isNull {type : ValueType} {first second : Json}
    (differ : SameMember type first second) : first.isNull = second.isNull := by
  cases differ with
  | same => rfl
  | single differ => exact differ.isNull
  | list => rfl

/-- Differences that are not named make no difference to what is read for the type. -/
def IgnoresUnnamed (type : ComplexType) : Prop :=
  ∀ first second, SameNamed type first second → recordOf type first = recordOf type second

theorem memberOf_of_sameMember {field : Field} {first second : Json}
    (inner : ∀ complex, field.type = .complex complex → IgnoresUnnamed complex)
    (differ : SameMember field.type first second) :
    memberOf field (valueOf field.name field.type) first =
      memberOf field (valueOf field.name field.type) second := by
  generalize isType : field.type = type at differ
  cases differ with
  | same => rfl
  | @single complex _ _ differ =>
      have sameRecord := inner complex isType first second differ
      cases differ with
      | same => rfl
      | object => simp only [memberOf, valueOf, sameRecord]
  | @list complex firsts seconds count items =>
      have pairs : List.Forall₂ (SameNamed complex) firsts seconds :=
        List.forall₂_iff_zip.mpr ⟨count, fun isPair => items _ isPair⟩
      have sameItems : (takenItems (.complex complex) firsts).mapM
            (valueOf field.name (.complex complex)) =
          (takenItems (.complex complex) seconds).mapM
            (valueOf field.name (.complex complex)) := by
        clear count items
        induction pairs with
        | nil => rfl
        | @cons item other rest others differ _ ih =>
            have sameValue : valueOf field.name (.complex complex) item =
                valueOf field.name (.complex complex) other := by
              rw [valueOf, valueOf, inner complex isType item other differ]
            simp only [takenItems, List.filter_cons, differ.isNull] at ih ⊢
            split
            · rw [List.mapM_cons, List.mapM_cons, sameValue, ih]
            · exact ih
      simp only [memberOf, isType, sameItems]

theorem get?_namedMembers {type : ComplexType} {name : String}
    (isNamed : (type.field? name).isSome = true) (members : List (String × Json)) :
    Json.get? name (.object (namedMembers type members)) = Json.get? name (.object members) := by
  rw [Json.get?, Json.get?, namedMembers, List.find?_filter]
  congr 2
  funext member
  by_cases same : member.1 = name
  · simp [same, isNamed]
  · simp [same]

/-- Two members of one name, whose values are alike for every field of it. -/
def Agree (type : ComplexType) (member other : String × Json) : Prop :=
  member.1 = other.1 ∧
    ∀ field ∈ type.fields, field.name = member.1 → SameMember field.type member.2 other.2

/-- Named members agree one by one exactly when their names and values do. -/
theorem forall₂_agree_iff {type : ComplexType} {members others : List (String × Json)} :
    List.Forall₂ (Agree type) members others ↔
      members.map Prod.fst = others.map Prod.fst ∧ ∀ pair ∈ members.zip others,
        ∀ field ∈ type.fields, field.name = pair.1.1 →
          SameMember field.type pair.1.2 pair.2.2 := by
  rw [← List.forall₂_eq_eq_eq, List.forall₂_map_left_iff, List.forall₂_map_right_iff,
    List.forall₂_iff_zip, List.forall₂_iff_zip]
  constructor
  · rintro ⟨count, agree⟩
    exact ⟨⟨count, fun isPair => (agree isPair).1⟩, fun pair isPair => (agree isPair).2⟩
  · rintro ⟨⟨count, names⟩, values⟩
    exact ⟨count, fun isPair => ⟨names isPair, values _ isPair⟩⟩

/-- What objects give for a field of the type is alike. -/
theorem given?_of_agree {type : ComplexType} {first second : List (String × Json)}
    (agree : List.Forall₂ (Agree type) (namedMembers type first) (namedMembers type second))
    {field : Field} (isField : field ∈ type.fields) :
    Option.Rel (SameMember field.type) (given? first field) (given? second field) := by
  have isNamed : (type.field? field.name).isSome = true := by
    rw [ComplexType.field?, List.find?_isSome]
    exact ⟨field, isField, by simp⟩
  rw [given?, given?, ← get?_namedMembers isNamed first, ← get?_namedMembers isNamed second]
  generalize namedMembers type first = firsts at agree ⊢
  generalize namedMembers type second = seconds at agree ⊢
  induction agree with
  | nil => exact .none
  | @cons member other _ _ isAlike _ ih =>
      obtain ⟨sameName, values⟩ := isAlike
      by_cases isFound : member.1 = field.name
      · have differ := values field isField isFound.symm
        simp only [Json.get?, List.find?_cons, isFound, ← sameName, beq_self_eq_true,
          Option.map_some, Option.filter, differ.isNull]
        split
        · exact .some differ
        · exact .none
      · have notFound : ¬ other.1 = field.name := sameName ▸ isFound
        simpa only [Json.get?, List.find?_cons, beq_eq_false_iff_ne.mpr isFound,
          beq_eq_false_iff_ne.mpr notFound] using ih

theorem ignoresUnnamed (type : ComplexType) : IgnoresUnnamed type := by
  induction type using ComplexType.induction with
  | step type ih =>
      intro first second differ
      cases differ with
      | same => rfl
      | @object _ firsts seconds names values =>
          have sameFields (fields : List Field) (areFields : fields ⊆ type.fields)
              (before : Record) :
              fieldsOf fields firsts before = fieldsOf fields seconds before := by
            induction fields generalizing before with
            | nil => rw [fieldsOf, fieldsOf]
            | cons field rest ihRest =>
                obtain ⟨isField, areRest⟩ := List.cons_subset.mp areFields
                have alike := given?_of_agree (forall₂_agree_iff.mpr ⟨names, values⟩) isField
                rw [fieldsOf_cons, fieldsOf_cons]
                generalize given? firsts field = firstGiven at alike ⊢
                generalize given? seconds field = secondGiven at alike ⊢
                cases alike with
                | none => exact ihRest areRest before
                | some differ =>
                    simp only [memberOf_of_sameMember (ih field isField) differ, ihRest areRest]
          cases type with
          | mk name id collection fields =>
              rw [recordOf, recordOf]
              exact sameFields fields (List.Subset.refl fields) .empty

/-! ## The reader -/

/-- What is read for a type without double names, at every depth, is typed by it, and
depends on no member that a type does not name. -/
theorem read_is_typed {type : ComplexType} (distinct : type.DistinctNames) (json : Json) :
    (∀ record, recordOf type json = .ok record → IsReading type json record) ∧
      ∀ other, SameNamed type json other → recordOf type other = recordOf type json :=
  ⟨readsTyped distinct json, fun other differ => (ignoresUnnamed type json other differ).symm⟩

/-- Phones of a contact. -/
def phoneType : ComplexType where
  name := "phone"
  fields := [{ name := "number", type := .string }, { name := "main", type := .boolean }]

/-- Contacts with a name, untyped tags and any number of phones. -/
def contactType : ComplexType where
  name := "contact"
  fields := [
    { name := "name", type := .string },
    { name := "tags", type := .any },
    { name := "phones", type := .complex phoneType, maxOccurs := some 0 }]

/-- The names of a contact. -/
def contactNames : Json := .array [.string "Ann", .null, .string "Anna"]

/-- The tags of a contact. -/
def contactTags : Json := .array [.null, .boolean true]

/-- A phone. -/
def phone : Json := .object [("kind", .null), ("number", .string "12"), ("main", .string "true")]

/-- The phone with another member that its type does not name. -/
def annotatedPhone : Json := .object [
  ("number", .string "12"), ("age", .boolean true), ("main", .string "true")]

/-- A contact with a single phone. -/
def contact : Json := .object [
  ("@odata.etag", .string "1"), ("name", contactNames), ("phones", phone), ("tags", contactTags)]

/-- The contact with other members that its types do not name. -/
def annotatedContact : Json := .object [
  ("name", contactNames), ("phones", annotatedPhone), ("role", .array [.object []]),
  ("tags", contactTags)]

/-- The record of the contact. -/
def contactRecord : Record := ⟨[
  ("name", .list [.scalar (.text "Ann"), .scalar (.text "Anna")]),
  ("tags", .list [.null, .scalar (.boolean true)]),
  ("phones", .list [.record ⟨[
    ("number", .scalar (.text "12")), ("main", .scalar (.boolean true))]⟩])]⟩

theorem distinctNames_contactType : contactType.DistinctNames := by
  apply ComplexType.DistinctNames.intro (by decide)
  intro field isMember inner isComplex
  simp only [contactType, List.mem_cons, List.not_mem_nil, or_false] at isMember
  rcases isMember with rfl | rfl | rfl <;> cases isComplex
  apply ComplexType.DistinctNames.intro (by decide)
  intro field isMember inner isComplex
  simp only [phoneType, List.mem_cons, List.not_mem_nil, or_false] at isMember
  rcases isMember with rfl | rfl <;> cases isComplex

theorem recordOf_contact : recordOf contactType contact = .ok contactRecord := by
  rfl

theorem sameNamed_annotatedContact : SameNamed contactType contact annotatedContact := by
  have same (type : ComplexType) (member : String × Json) : Agree type member member :=
    ⟨rfl, fun _ _ _ => .same⟩
  obtain ⟨names, values⟩ := forall₂_agree_iff.mp <|
    List.Forall₂.cons (same phoneType ("number", .string "12"))
      (.cons (same phoneType ("main", .string "true")) .nil)
  have phones : Agree contactType ("phones", phone) ("phones", annotatedPhone) := by
    refine ⟨rfl, fun field isField sameName => ?_⟩
    simp only [contactType, List.mem_cons, List.not_mem_nil, or_false] at isField
    rcases isField with rfl | rfl | rfl
    · exact absurd sameName (by decide)
    · exact absurd sameName (by decide)
    · exact .single (.object names values)
  obtain ⟨names, values⟩ := forall₂_agree_iff.mp <|
    List.Forall₂.cons (same contactType ("name", contactNames))
      (.cons phones (.cons (same contactType ("tags", contactTags)) .nil))
  exact .object names values

theorem contact_is_typed :
    recordOf contactType contact = .ok contactRecord ∧
      IsReading contactType contact contactRecord ∧
      recordOf contactType annotatedContact = .ok contactRecord := by
  obtain ⟨typed, ignores⟩ := read_is_typed distinctNames_contactType contact
  exact ⟨recordOf_contact, typed contactRecord recordOf_contact,
    (ignores annotatedContact sameNamed_annotatedContact).trans recordOf_contact⟩

end Body

end OData
