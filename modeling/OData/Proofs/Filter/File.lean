/-
# Filters in files and in inputs

Clauses can be handed over in two ways: as a file, which is read as a list of
structures with defaults, or as the `filters` of an input, which is read by a schema
into a record and then clause by clause. An array that the file reader accepts means
the same clauses when it comes with an input. What a clause leaves out is left out of
the record too, and the two defaults are the same; a null stays one among values, and
is no key in either way.

The converse is not claimed: an input may hold texts where a file has to hold truth
values, and a clause alone where a file has to hold a list.
-/

import OData.Filter.File
import OData.Proofs.Json.Structure
import OData.Proofs.Outcome
import OData.Query.Options
import OData.Service.Catalogue

namespace OData

namespace Record

/-- Set a field, if there is a value for it. -/
def give (record : Record) (name : String) (value : Option Value) : Record :=
  match value with
  | none => record
  | some value => record.set name value

theorem get?_give_self (record : Record) (name : String) (value : Option Value) :
    (record.give name value).get? name = value.or (record.get? name) := by
  cases value with
  | none => rfl
  | some value => exact get?_set_self record name value

theorem get?_give_of_ne (record : Record) {name other : String} (different : other ≠ name)
    (value : Option Value) : (record.give name value).get? other = record.get? other := by
  cases value with
  | none => rfl
  | some value => exact get?_set_of_ne record different value

end Record

namespace Body

/-- A field gives a record this value, or leaves it alone. -/
def Gives (members : List (String × Json)) (field : Field) (value : Option Value) : Prop :=
  ∀ rest record, fieldsOf (field :: rest) members record =
    fieldsOf rest members (record.give field.name value)

variable {members : List (String × Json)} {field : Field}

theorem gives_of_absent (absent : Json.get? field.name (.object members) = none) :
    Gives members field none := fun rest record => fieldsOf_absent absent rest record

theorem gives_of_null (isNull : Json.get? field.name (.object members) = some .null) :
    Gives members field none := by
  intro rest record
  cases field with
  | mk name =>
      simp only at isNull
      rw [fieldsOf, isNull]
      rfl

theorem gives_of_present {json : Json} {value : Value}
    (present : Json.get? field.name (.object members) = some json) (notNull : json.isNull = false)
    (isValue : memberOf field (valueOf field.name field.type) json = .ok value) :
    Gives members field (some value) := by
  intro rest record
  rw [fieldsOf_present present notNull, isValue]
  rfl

/-- A member that is given or left to its default gives a value or leaves it to its
default. -/
theorem exists_gives {α : Type} {form : α → Json} {default value : α} {held : α → Value}
    (given : Given form default value (Json.get? field.name (.object members)))
    (notNull : (form value).isNull = false)
    (isHeld : memberOf field (valueOf field.name field.type) (form value) = .ok (held value)) :
    ∃ found, Given held default value found ∧ Gives members field found := by
  rcases given with present | ⟨absent, isDefault⟩
  · exact ⟨_, .inl rfl, gives_of_present present notNull isHeld⟩
  · exact ⟨none, .inr ⟨rfl, isDefault⟩, gives_of_absent absent⟩

end Body

namespace Filter

open Body (Gives)
open Json (Decoder)

/-! ## Entries -/

/-- The members of an object are those of an entry, or left to their defaults. -/
structure Entry.IsGiven (entry : Entry) (members : List (String × Json)) : Prop where
  key : Given (fun key => (key.map .string).getD .null) none entry.key
    (Json.get? "key" (.object members))
  operator : Given .string "=" entry.operator (Json.get? "operator" (.object members))
  values : Given .array [] entry.values (Json.get? "values" (.object members))
  joinsByOr : Given .boolean false entry.joinsByOr (Json.get? "or" (.object members))
  ignoresCase : Given .boolean false entry.ignoresCase
    (Json.get? "caseInsensitive" (.object members))

theorem Entry.isGiven_of_form {levels : Nat} {document : Json.Document} {entry : Entry}
    {members : List (String × Json)} (isEntry : Entry.form levels document = some entry)
    (isObject : Json.ofDocument? levels document = some (.object members)) :
    entry.IsGiven members := by
  obtain ⟨⟨left, slots⟩, areSlots, isEntry⟩ := Option.bind_eq_some_iff.mp isEntry
  -- One slot for each of the five names.
  cases Json.holds_of_slots? areSlots isObject with
  | cons keyHolds others =>
  cases others with
  | cons operatorHolds others =>
  cases others with
  | cons valuesHold others =>
  cases others with
  | cons orHolds others =>
  cases others with
  | cons caseHolds others =>
  cases others
  obtain ⟨key, isKey, isEntry⟩ := Option.bind_eq_some_iff.mp isEntry
  obtain ⟨operator, isOperator, isEntry⟩ := Option.bind_eq_some_iff.mp isEntry
  obtain ⟨values, areValues, isEntry⟩ := Option.bind_eq_some_iff.mp isEntry
  obtain ⟨joinsByOr, isOr, isEntry⟩ := Option.bind_eq_some_iff.mp isEntry
  obtain ⟨ignoresCase, isCase, isEntry⟩ := Option.bind_eq_some_iff.mp isEntry
  cases isEntry
  exact {
    key := keyHolds.nullable Decoder.reads_text isKey
    operator := operatorHolds.withDefault Decoder.reads_text isOperator
    values := valuesHold.withDefault Decoder.reads_values areValues
    joinsByOr := orHolds.withDefault Decoder.reads_boolean isOr
    ignoresCase := caseHolds.withDefault Decoder.reads_boolean isCase }

/-! ## Values -/

/-- A literal of a file is the untyped value of an input. -/
theorem simpleOf_any_of_literalOf {json : Json} {literal : Literal}
    (isLiteral : literalOf json = .ok literal) (name : String) :
    Body.simpleOf name .any json = .ok literal.toValue := by
  cases json with
  | number number =>
      have isScalar : Body.scalarOf? .any (.number number) =
          some ((number.int64?.map .integer).getD (.decimal number.toFloat)) := rfl
      rw [literalOf] at isLiteral
      rw [Body.simpleOf_of_scalarOf? isScalar rfl]
      cases isInteger : number.int64? with
      | none =>
          rw [isInteger] at isLiteral
          cases isLiteral
          rfl
      | some value =>
          rw [isInteger] at isLiteral
          cases isLiteral
          rfl
  | null | boolean _ | string _ =>
      cases isLiteral
      rfl
  | array _ | object _ => cases isLiteral

theorem Literal.ofValue_toValue (literal : Literal) : ofValue literal.toValue = .ok literal := by
  cases literal <;> rfl

theorem mapM_simpleOf_of_mapM_literalOf {jsons : List Json} {literals : List Literal}
    (areLiterals : jsons.mapM literalOf = .ok literals) (name : String) :
    jsons.mapM (Body.simpleOf name .any) = .ok (literals.map Literal.toValue) := by
  induction jsons generalizing literals with
  | nil =>
      cases areLiterals
      rfl
  | cons json rest ih =>
      rw [List.mapM_cons] at areLiterals
      obtain ⟨literal, isLiteral, areLiterals⟩ := exists_of_bind_ok areLiterals
      obtain ⟨others, areOthers, areLiterals⟩ := exists_of_bind_ok areLiterals
      cases areLiterals
      rw [List.mapM_cons, simpleOf_any_of_literalOf isLiteral, ih areOthers]
      rfl

theorem mapM_ofValue_toValue (literals : List Literal) :
    (literals.map Literal.toValue).mapM Literal.ofValue = .ok literals := by
  induction literals with
  | nil => rfl
  | cons literal rest ih =>
      rw [List.map_cons, List.mapM_cons, Literal.ofValue_toValue, ih]
      rfl

/-! ## Clauses -/

section

variable {entry : Entry} {members : List (String × Json)}

theorem Entry.IsGiven.gives_key (isGiven : entry.IsGiven members) :
    Gives members { name := "key", type := .string }
      (entry.key.map fun key => .scalar (.text key)) := by
  rcases isGiven.key with present | ⟨absent, noKey⟩
  · cases isKey : entry.key with
    | none =>
        rw [isKey] at present
        exact Body.gives_of_null present
    | some key =>
        rw [isKey] at present
        exact Body.gives_of_present present rfl rfl
  · rw [noKey]
    exact Body.gives_of_absent absent

theorem Entry.IsGiven.exists_gives_values (isGiven : entry.IsGiven members)
    {literals : List Literal} (areLiterals : entry.values.mapM literalOf = .ok literals) :
    ∃ found, Given (fun values => .list (values.map Literal.toValue)) [] literals found ∧
      Gives members { name := "values", type := .any, maxOccurs := some 0, minOccurs := some 0 }
        found := by
  rcases isGiven.values with present | ⟨absent, noValues⟩
  · refine ⟨_, .inl rfl, Body.gives_of_present present rfl ?_⟩
    have takesAll : Body.takenItems .any entry.values = entry.values := by
      simp [Body.takenItems, ValueType.isAny]
    have asSimple : Body.valueOf "values" .any = Body.simpleOf "values" .any :=
      funext fun json => Body.valueOf_simple rfl json
    rw [Body.memberOf, takesAll, asSimple, mapM_simpleOf_of_mapM_literalOf areLiterals]
    rfl
  · rw [noValues] at areLiterals
    cases areLiterals
    exact ⟨none, .inr ⟨rfl, rfl⟩, Body.gives_of_absent absent⟩

end

/-- The clause of a record that was given five fields, or left to their defaults. -/
theorem Clause.ofRecord_given {record : Record} {clause : Clause}
    (key : record.value? "key" = clause.key.map fun key => .scalar (.text key))
    (operator : Given (fun text => .scalar (.text text)) "=" clause.operator
      (record.get? "operator"))
    (values : Given (fun values => .list (values.map Literal.toValue)) [] clause.values
      (record.get? "values"))
    (joinsByOr : Given (fun flag => .scalar (.boolean flag)) false clause.joinsByOr
      (record.get? "or"))
    (ignoresCase : Given (fun flag => .scalar (.boolean flag)) false clause.ignoresCase
      (record.get? "caseInsensitive")) :
    ofRecord record = .ok clause := by
  have isKey : keyOf record = .ok clause.key := by
    rw [keyOf, key]
    cases clause.key <;> rfl
  have areValues : literalsOf record = .ok clause.values := by
    unfold literalsOf
    rcases values with present | ⟨absent, isDefault⟩
    · rw [present]
      exact mapM_ofValue_toValue clause.values
    · rw [absent, isDefault]
  have isOperator : ((record.value? "operator").bind Value.plain?).getD "=" =
      clause.operator := by
    rw [Record.value?]
    rcases operator with present | ⟨absent, isDefault⟩
    · rw [present]
      rfl
    · rw [absent, isDefault]
      rfl
  have isFlag {name : String} {flag : Bool} (given : Given (fun flag => .scalar (.boolean flag))
      false flag (record.get? name)) : flagField record name = flag := by
    rw [flagField, Record.value?]
    rcases given with present | ⟨absent, isDefault⟩
    · rw [present]
      rfl
    · rw [absent, isDefault]
      rfl
  rw [ofRecord, isKey, areValues, isOperator, isFlag joinsByOr, isFlag ignoresCase]
  rfl

/-- An object that is read as a clause of a file is the record of that clause. -/
theorem exists_record_of_isGiven {entry : Entry} {members : List (String × Json)}
    {clause : Clause} (isGiven : entry.IsGiven members) (isClause : entry.clause = .ok clause) :
    ∃ record, Body.recordOf Catalogue.clauseType (.object members) = .ok record ∧
      Clause.ofRecord record = .ok clause := by
  obtain ⟨literals, areLiterals, isClause⟩ := exists_of_bind_ok isClause
  cases isClause
  have givesKey := isGiven.gives_key
  obtain ⟨values, givenValues, givesValues⟩ := isGiven.exists_gives_values areLiterals
  obtain ⟨operator, givenOperator, givesOperator⟩ :
      ∃ found, Given (fun text => .scalar (.text text)) "=" entry.operator found ∧
        Gives members { name := "operator", type := .string } found :=
    Body.exists_gives isGiven.operator rfl rfl
  obtain ⟨joinsByOr, givenOr, givesOr⟩ :
      ∃ found, Given (fun flag => .scalar (.boolean flag)) false entry.joinsByOr found ∧
        Gives members { name := "or", type := .boolean, minOccurs := some 0 } found :=
    Body.exists_gives isGiven.joinsByOr rfl rfl
  obtain ⟨ignoresCase, givenCase, givesCase⟩ :
      ∃ found, Given (fun flag => .scalar (.boolean flag)) false entry.ignoresCase found ∧
        Gives members { name := "caseInsensitive", type := .boolean, minOccurs := some 0 }
          found :=
    Body.exists_gives isGiven.ignoresCase rfl rfl
  let record := ((((Record.empty.give "key" (entry.key.map fun key => .scalar (.text key))).give
    "operator" operator).give "values" values).give "or" joinsByOr).give
      "caseInsensitive" ignoresCase
  refine ⟨record, ?_, ?_⟩
  · rw [Catalogue.clauseType, Body.recordOf, givesKey _ _, givesOperator _ _, givesValues _ _,
      givesOr _ _, givesCase _ _, Body.fieldsOf]
  · apply Clause.ofRecord_given
    · have given : record.get? "key" = entry.key.map fun key => .scalar (.text key) := by
        simp [record, Record.get?_give_self, Record.get?_give_of_ne]
      rw [Record.value?, given]
      cases entry.key <;> rfl
    · simpa [record, Record.get?_give_self, Record.get?_give_of_ne] using givenOperator
    · simpa [record, Record.get?_give_self, Record.get?_give_of_ne] using givenValues
    · simpa [record, Record.get?_give_self, Record.get?_give_of_ne] using givenOr
    · simpa [record, Record.get?_give_self, Record.get?_give_of_ne] using givenCase

/-! ## Lists of clauses -/

/-- Objects that are read as the clauses of a file are the records of these clauses. -/
theorem exists_records {entries : List Entry} {items : List Json}
    (areGiven : List.Forall₂ (fun entry item =>
      ∃ members, item = .object members ∧ entry.IsGiven members) entries items)
    {clauses : List Clause} (areClauses : entries.mapM Entry.clause = .ok clauses)
    (name : String) :
    ∃ records : List Record,
      items.mapM (Body.valueOf name (.complex Catalogue.clauseType)) =
        .ok (records.map .record) ∧
      records.mapM Clause.ofRecord = .ok clauses := by
  induction areGiven generalizing clauses with
  | nil =>
      cases areClauses
      exact ⟨[], rfl, rfl⟩
  | cons isGiven _ ih =>
      obtain ⟨members, rfl, isGiven⟩ := isGiven
      rw [List.mapM_cons] at areClauses
      obtain ⟨clause, isClause, areClauses⟩ := exists_of_bind_ok areClauses
      obtain ⟨others, areOthers, areClauses⟩ := exists_of_bind_ok areClauses
      cases areClauses
      obtain ⟨record, isRecord, isSame⟩ := exists_record_of_isGiven isGiven isClause
      obtain ⟨records, areRecords, areSame⟩ := ih areOthers
      refine ⟨record :: records, ?_, ?_⟩
      · rw [List.mapM_cons, Body.valueOf, isRecord, areRecords]
        rfl
      · rw [List.mapM_cons, isSame, areSame]
        rfl

theorem clausesOf_records (records : List Record) :
    clausesOf (.list (records.map .record)) = records.mapM Clause.ofRecord := by
  have keepsAll : (Value.list (records.map .record)).flatten = records.map .record := by
    rw [Value.flatten, List.filter_eq_self]
    intro value isMember
    obtain ⟨record, -, rfl⟩ := List.mem_map.mp isMember
    rfl
  rw [clausesOf, keepsAll, List.mapM_map]
  rfl

/-- The array of a file holds the entries that are read from it. -/
theorem areGiven_of_readText? {content : String} {entries : List Entry} {items : List Json}
    (isArray : Json.ofText? content = some (.array items))
    (areObjects : ∀ item ∈ items, ∃ members, item = .object members)
    (areEntries : (Decoder.list Entry.form).readText? content = some entries) :
    List.Forall₂ (fun entry item =>
      ∃ members, item = .object members ∧ entry.IsGiven members) entries items := by
  obtain ⟨document, isDocument, areListed⟩ := Option.bind_eq_some_iff.mp areEntries
  obtain ⟨same, isSame, areItems⟩ := Option.bind_eq_some_iff.mp isArray
  cases isDocument.symm.trans isSame
  have pairs := Decoder.forall₂_of_list areListed areItems
  clear areEntries isArray areListed areItems
  induction pairs with
  | nil => exact .nil
  | cons isPair _ ih =>
      obtain ⟨⟨members, rfl⟩, others⟩ := List.forall_mem_cons.mp areObjects
      obtain ⟨item, isEntry, isObject⟩ := isPair
      exact .cons ⟨members, rfl, Entry.isGiven_of_form isEntry isObject⟩ (ih others)

/-! ## Inputs -/

section

variable {fields : List Field} {members : List (String × Json)}

/-- Fields without a member leave the record as it is. -/
theorem fieldsOf_append_of_absent
    (absent : ∀ field ∈ fields, Json.get? field.name (.object members) = none)
    (rest : List Field) (record : Record) :
    Body.fieldsOf (fields ++ rest) members record = Body.fieldsOf rest members record := by
  induction fields with
  | nil => rfl
  | cons field others ih =>
      obtain ⟨isAbsent, areAbsent⟩ := List.forall_mem_cons.mp absent
      rw [List.cons_append, Body.fieldsOf_absent isAbsent, ih areAbsent]

theorem fieldsOf_of_absent
    (absent : ∀ field ∈ fields, Json.get? field.name (.object members) = none)
    (record : Record) : Body.fieldsOf fields members record = .ok record := by
  have noRest := fieldsOf_append_of_absent absent [] record
  rwa [List.append_nil, Body.fieldsOf] at noRest

end

theorem extraPath_absent {fields : List Field} {basePath : String} {field : Field}
    (isMember : field ∈ Catalogue.extraPath fields basePath) :
    field.name ≠ Query.names.filters := by
  unfold Catalogue.extraPath at isMember
  dsimp only at isMember
  split at isMember
  · rw [List.mem_singleton.mp isMember]
    show Query.names.path ≠ Query.names.filters
    decide
  · cases isMember

/-- The field for filters takes objects as they come. -/
theorem memberOf_filtersField {items : List Json} {records : List Record}
    (areObjects : ∀ item ∈ items, ∃ members, item = .object members)
    (areRecords : items.mapM (Body.valueOf Query.names.filters (.complex Catalogue.clauseType)) =
      .ok (records.map .record)) :
    Body.memberOf Catalogue.filtersField
        (Body.valueOf Query.names.filters (.complex Catalogue.clauseType)) (.array items) =
      .ok (.list (records.map .record)) := by
  have takesAll : Body.takenItems (.complex Catalogue.clauseType) items = items := by
    rw [Body.takenItems, List.filter_eq_self]
    intro item isMember
    obtain ⟨members, rfl⟩ := areObjects item isMember
    rfl
  rw [Body.memberOf, Catalogue.filtersField, takesAll, areRecords]
  rfl

/-- Of the input of a service, only the field for filters has a member. -/
theorem recordOf_inputInterface {items : List Json} {records : List Record}
    (areObjects : ∀ item ∈ items, ∃ members, item = .object members)
    (areRecords : items.mapM (Body.valueOf Query.names.filters (.complex Catalogue.clauseType)) =
      .ok (records.map .record))
    {function : Function} (takesExpression : (function.input.field? Query.names.filter).isSome)
    (noFilters : function.input.field? Query.names.filters = none) (basePath : String) :
    Body.recordOf (Catalogue.inputInterface function basePath)
        (.object [(Query.names.filters, .array items)]) =
      .ok (Record.empty.set Query.names.filters (.list (records.map .record))) := by
  have absent {field : Field} (different : field.name ≠ Query.names.filters) :
      Json.get? field.name (.object [(Query.names.filters, .array items)]) = none := by
    simp [Json.get?, different.symm]
  have present : Json.get? Query.names.filters
      (.object [(Query.names.filters, .array items)]) = some (.array items) := by
    simp [Json.get?]
  have declaredAbsent : ∀ field ∈ function.input.fields,
      Json.get? field.name (.object [(Query.names.filters, .array items)]) = none := by
    intro field isMember
    apply absent
    intro same
    exact List.find?_eq_none.mp noFilters field isMember (beq_iff_eq.mpr same)
  have takes : Catalogue.extraFilters function.input = [Catalogue.filtersField] := by
    simp [Catalogue.extraFilters, takesExpression, noFilters]
  -- The fields are those declared, the one for filters, and those for templates.
  show Body.fieldsOf (function.input.fields ++ Catalogue.extraFilters function.input ++
    Catalogue.extraPath _ basePath) _ _ = _
  have pathAbsent : ∀ field ∈ Catalogue.extraPath
      (function.input.fields ++ Catalogue.extraFilters function.input) basePath,
      Json.get? field.name (.object [(Query.names.filters, .array items)]) = none :=
    fun field isMember => absent (extraPath_absent isMember)
  rw [List.append_assoc, fieldsOf_append_of_absent declaredAbsent]
  rw [takes] at pathAbsent ⊢
  rw [List.singleton_append, Body.fieldsOf_present present rfl]
  show (Body.memberOf Catalogue.filtersField
    (Body.valueOf Query.names.filters (.complex Catalogue.clauseType)) _).bind _ = _
  rw [memberOf_filtersField areObjects areRecords]
  exact fieldsOf_of_absent pathAbsent _

/-- An input that holds filters and nothing else asks for their clauses and nothing
else. -/
theorem options_of_only_filters {record : Record} {value : Value} {clauses : List Clause}
    (others : ∀ name, name ≠ Query.names.filters → record.value? name = none)
    (isFilters : record.value? Query.names.filters = some value)
    (areClauses : clausesOf value = .ok clauses) :
    Query.Options.ofRecord record = .ok { filters := clauses } := by
  have noCount := others Query.names.totalCount (by decide)
  have noLimit := others Query.names.limit (by decide)
  have noOffset := others Query.names.offset (by decide)
  have noSearch := others Query.names.search (by decide)
  have noOrder := others Query.names.orderBy (by decide)
  have noExpression := others Query.names.filter (by decide)
  have areFilters : Query.clausesOption record = .ok clauses := by
    rw [Query.clausesOption, isFilters]
    exact areClauses
  rw [Query.Options.ofRecord, Query.booleanOption, noCount, Query.integerOption, noLimit,
    Query.integerOption, noOffset, areFilters, Query.textOption, noSearch, noOrder,
    Query.textOption, noExpression]
  rfl

/-- An array that a file of filters may be comes as well with the input of a service
that takes a filter expression and does not declare filters of its own: it is accepted,
and it means the same clauses. The options of a query with that input are these clauses
and nothing else, so that the compiled expression is the same too. -/
theorem input_means_same_clauses {content : String} {items : List Json} {clauses : List Clause}
    (isArray : Json.ofText? content = some (.array items))
    (areObjects : ∀ item ∈ items, ∃ members, item = .object members)
    (isAccepted : readClauses content = .ok clauses) (function : Function)
    (takesExpression : (function.input.field? Query.names.filter).isSome)
    (noFilters : function.input.field? Query.names.filters = none) (basePath : String) :
    ∃ record value,
      Body.recordOf (Catalogue.inputInterface function basePath)
          (.object [(Query.names.filters, .array items)]) = .ok record ∧
        record.value? Query.names.filters = some value ∧ clausesOf value = .ok clauses ∧
        Query.Options.ofRecord record = .ok { filters := clauses } := by
  unfold readClauses at isAccepted
  split at isAccepted
  · cases isAccepted
  · rename_i entries areEntries
    have areGiven := areGiven_of_readText? isArray areObjects areEntries
    obtain ⟨records, areRecords, areClauses⟩ :=
      exists_records areGiven isAccepted Query.names.filters
    have areSame : clausesOf (.list (records.map .record)) = .ok clauses := by
      rw [clausesOf_records, areClauses]
    have isRecord :=
      recordOf_inputInterface areObjects areRecords takesExpression noFilters basePath
    have isFilters : (Record.empty.set Query.names.filters
        (.list (records.map .record))).value? Query.names.filters =
          some (.list (records.map .record)) := by
      rw [Record.value?, Record.get?_set_self]
      rfl
    refine ⟨_, _, isRecord, isFilters, areSame, ?_⟩
    · apply options_of_only_filters _ isFilters areSame
      intro name different
      rw [Record.value?, Record.get?_set_of_ne _ different]
      rfl

/-- Lists accounts by a filter. -/
def listByFilter : Function where
  name := "list"
  context := some "accounts"
  method := .get
  input := { name := "accounts", fields := [{ name := "filter", type := .string }] }
  output := default

/-- A file with members that no clause has, a null for a key, and a number of more than 64
bits. -/
def sparseFile : String :=
  "[\x7b\"note\":\"all\",\"key\":null\x7d," ++
    "\x7b\"key\":\"size\",\"values\":[null,9223372036854775808],\"or\":true\x7d]"

/-- The array of the file. -/
def sparseItems : List Json := [
  .object [("key", .null), ("note", .string "all")],
  .object [("key", .string "size"), ("or", .boolean true),
    ("values", .array [.null, .number (.integer 9223372036854775808)])]]

/-- Its clauses. -/
def sparseClauses : List Clause := [
  { key := none },
  { key := some "size"
    values := [none, some (.decimal (Json.Number.integer 9223372036854775808).toFloat)]
    joinsByOr := true }]

/-- The array means the clauses of the file, also under a base path with a template. -/
theorem sparse_items_mean_sparse_clauses :
    ∃ record value,
      Body.recordOf (Catalogue.inputInterface listByFilter "/\x7bsite\x7d")
          (.object [(Query.names.filters, .array sparseItems)]) = .ok record ∧
        record.value? Query.names.filters = some value ∧ clausesOf value = .ok sparseClauses ∧
        Query.Options.ofRecord record = .ok { filters := sparseClauses } := by
  have isArray : Json.ofText? sparseFile = some (.array sparseItems) := rfl
  have areEntries : (Decoder.list Entry.form).readText? sparseFile = some [
      ⟨none, "=", [], false, false⟩,
      ⟨some "size", "=", [.null, .number (.integer 9223372036854775808)], true, false⟩] := rfl
  apply input_means_same_clauses isArray
  · intro item isMember
    simp only [sparseItems, List.mem_cons, List.not_mem_nil, or_false] at isMember
    rcases isMember with rfl | rfl
    · exact ⟨_, rfl⟩
    · exact ⟨_, rfl⟩
  · rw [readClauses, areEntries]
    rfl
  · rfl
  · rfl

end Filter

end OData
