/-
# The values of a filter in its document

A filter comes as a file or with the input of a service. Either way its text is one
document, and each clause compares with the values that stand at its place in that
document, one for one: nothing is left out, added or moved between the document and the
clauses. Every value has the literal that it has by itself.
-/

import OData.Proofs.Body.Reading
import OData.Proofs.Filter.File

namespace OData.Filter

open Json (Decoder Document)

/-- How a filter comes: as a file, or with the input of a service. -/
inductive Route where
  | file
  | input (function : Function) (basePath : String)

namespace Route

/-- The input of the service has clauses; a file always does. -/
def TakesClauses : Route → Prop
  | .file => True
  | .input function _ => (function.input.field? Query.names.filter).isSome ∧
      function.input.field? Query.names.filters = none

/-- The clauses that a text brings, unless it is refused. -/
def clauses? (route : Route) (content : String) : Option (List Clause) :=
  match route with
  | .file => (readClauses content).toOption
  | .input function basePath =>
      (Body.decode (Catalogue.inputInterface function basePath) content.toUTF8).toOption.bind
        fun input => (Query.clausesOption input).toOption

/-- The written clauses of a document. An input may hold a single one, and null for some. -/
def entries (route : Route) (document : Document) : List Document :=
  match route with
  | .file => document.items
  | .input _ _ => (Document.listed (document.member? Query.names.filters)).filter
      fun item => !item.isNull

end Route

/-- The written values of a clause. -/
def valuesOf (entry : Document) : List Document := Document.listed (entry.part? 2 "values")

/-- The literal is that of a written value. -/
def IsLiteralOf (item : Document) (literal : Literal) : Prop :=
  ∃ levels json, Json.ofDocument? levels item = some json ∧ literalOf json = .ok literal

/-- The clause compares with the values that are written, one for one. -/
def Clause.Takes (entry : Document) (clause : Clause) : Prop :=
  List.Forall₂ IsLiteralOf (valuesOf entry) clause.values

/-! ## Files -/

/-- A written clause of a file has the values that are read from it. -/
theorem exists_forall₂_values {levels : Nat} {document : Document} {entry : Entry}
    (isEntry : Entry.form levels document = some entry) :
    ∃ left, List.Forall₂ (fun item json => Json.ofDocument? left item = some json)
      (valuesOf document) entry.values := by
  obtain ⟨⟨left, slots⟩, areSlots, isEntry⟩ := Option.bind_eq_some_iff.mp isEntry
  have isName : ["key", "operator", "values", "or", "caseInsensitive"][2]? = some "values" := rfl
  obtain ⟨slot, isSlot, content⟩ := Json.content?_of_slots? areSlots isName
  dsimp only at isEntry
  split at isEntry
  · obtain ⟨key, -, isEntry⟩ := Option.bind_eq_some_iff.mp isEntry
    obtain ⟨operator, -, isEntry⟩ := Option.bind_eq_some_iff.mp isEntry
    obtain ⟨values, areValues, isEntry⟩ := Option.bind_eq_some_iff.mp isEntry
    obtain ⟨joinsByOr, -, isEntry⟩ := Option.bind_eq_some_iff.mp isEntry
    obtain ⟨ignoresCase, -, isEntry⟩ := Option.bind_eq_some_iff.mp isEntry
    cases isEntry
    cases isSlot
    rw [Json.Slot.withDefault_eq, content] at areValues
    rw [valuesOf]
    cases part : document.part? 2 "values" with
    | none =>
        rw [part] at areValues
        cases areValues
        exact ⟨0, .nil⟩
    | some written =>
        rw [part] at areValues
        change Decoder.list Decoder.value left written = some values at areValues
        cases written with
        | array items =>
            rw [Decoder.list] at areValues
            split at areValues
            · cases areValues
            · exact ⟨left - 1, Json.forall₂_of_mapM_some areValues⟩
        | _ => cases areValues
  · cases isEntry

theorem takes_of_form {levels : Nat} {document : Document} {entry : Entry} {clause : Clause}
    (isEntry : Entry.form levels document = some entry) (isClause : entry.clause = .ok clause) :
    clause.Takes document := by
  obtain ⟨left, areValues⟩ := exists_forall₂_values isEntry
  obtain ⟨literals, areLiterals, isClause⟩ := exists_of_bind_ok isClause
  cases isClause
  exact (forall₂_comp areValues (forall₂_of_mapM_ok areLiterals)).imp fun _ _ isLiteral =>
    ⟨left, isLiteral⟩

/-- A file brings one clause for each item of its list. -/
theorem forall₂_takes_of_file {content : String} {document : Document}
    (isDocument : Document.ofText? content = some document) {clauses : List Clause}
    (areClauses : readClauses content = .ok clauses) :
    List.Forall₂ (fun entry clause => clause.Takes entry) document.items clauses := by
  unfold readClauses at areClauses
  split at areClauses
  · cases areClauses
  · rename_i entries areEntries
    rw [Decoder.readText?, isDocument] at areEntries
    change Decoder.list Entry.form _ document = some entries at areEntries
    cases document with
    | array items =>
        rw [Decoder.list] at areEntries
        split at areEntries
        · cases areEntries
        · have pairs := Json.forall₂_of_mapM_some areEntries
          apply (forall₂_comp pairs (forall₂_of_mapM_ok areClauses)).imp
          rintro document clause ⟨entry, isEntry, isClause⟩
          exact takes_of_form isEntry isClause
    | _ => cases areEntries

/-! ## Inputs -/

/-- The untyped value of an input is the literal of a file. -/
theorem literalOf_of_simpleOf_any {json : Json} {name : String} {value : Value}
    (isValue : Body.simpleOf name .any json = .ok value) {literal : Literal}
    (isLiteral : Literal.ofValue value = .ok literal) : literalOf json = .ok literal := by
  cases isOther : literalOf json with
  | ok other =>
      rw [simpleOf_any_of_literalOf isOther name] at isValue
      cases isValue
      rw [Literal.ofValue_toValue] at isLiteral
      rw [Except.ok.inj isLiteral]
  | error fault =>
      cases json with
      | array _ | object _ => cases isValue
      | number number =>
          rw [literalOf] at isOther
          split at isOther <;> cases isOther
      | _ => cases isOther

theorem forall₂_literals {items : List Json} {values : List Value} {name : String}
    (areValues : items.mapM (Body.valueOf name .any) = .ok values) {literals : List Literal}
    (areLiterals : values.mapM Literal.ofValue = .ok literals) :
    List.Forall₂ (fun json literal => literalOf json = .ok literal) items literals := by
  apply (forall₂_comp (forall₂_of_mapM_ok areValues) (forall₂_of_mapM_ok areLiterals)).imp
  rintro json literal ⟨value, isValue, isLiteral⟩
  rw [Body.valueOf_simple rfl] at isValue
  exact literalOf_of_simpleOf_any isValue isLiteral

/-- The values of a record are the literals of its clause. -/
theorem literalsOf_of_given {record : Record} {values : List Value}
    (given : Given .list [] values (record.get? "values")) :
    Clause.literalsOf record = values.mapM Literal.ofValue := by
  unfold Clause.literalsOf
  rcases given with present | ⟨absent, none⟩
  · rw [present]
  · rw [absent, none]
    rfl

/-- A written clause of an input has the values of its record. -/
theorem takes_of_record {levels : Nat} {document : Document} {json : Json}
    (isJson : Json.ofDocument? levels document = some json) {record : Record}
    (isRecord : Body.recordOf Catalogue.clauseType json = .ok record) {clause : Clause}
    (isClause : Clause.ofRecord record = .ok clause) : clause.Takes document := by
  obtain ⟨key, -, isClause⟩ := exists_of_bind_ok isClause
  obtain ⟨literals, areLiterals, isClause⟩ := exists_of_bind_ok isClause
  cases isClause
  obtain ⟨written, members, rfl, rfl, areMembers⟩ :=
    Body.exists_members_of_recordOf isJson isRecord
  let field : Field :=
    { name := "values", type := .any, maxOccurs := some 0, minOccurs := some 0 }
  obtain ⟨first, rest, fields, others⟩ : ∃ first rest,
      Catalogue.clauseType.fields = first ++ field :: rest ∧
        ∀ other ∈ first ++ rest, other.name ≠ field.name :=
    ⟨Catalogue.clauseType.fields.take 2, Catalogue.clauseType.fields.drop 3, rfl, by decide⟩
  obtain ⟨left, items, values, areItems, areValues, given⟩ :=
    Body.exists_values_of_list fields others rfl areMembers isRecord
  have takesAll : Body.takenItems field.type items = items := by
    simp [field, Body.takenItems, ValueType.isAny]
  rw [takesAll] at areValues
  rw [literalsOf_of_given given] at areLiterals
  exact (forall₂_comp areItems (forall₂_literals areValues areLiterals)).imp fun _ _ isLiteral =>
    ⟨left, isLiteral⟩

/-- The input of a service with clauses has one field for them. -/
theorem fields_inputInterface {function : Function} {basePath : String}
    (takes : (Route.input function basePath).TakesClauses) :
    ∃ rest, (Catalogue.inputInterface function basePath).fields =
        function.input.fields ++ Catalogue.filtersField :: rest ∧
      ∀ other ∈ function.input.fields ++ rest, other.name ≠ Catalogue.filtersField.name := by
  obtain ⟨takesExpression, noFilters⟩ := takes
  have takes : Catalogue.extraFilters function.input = [Catalogue.filtersField] := by
    simp [Catalogue.extraFilters, takesExpression, noFilters]
  refine ⟨Catalogue.extraPath (function.input.fields ++ [Catalogue.filtersField]) basePath,
    ?_, ?_⟩
  · rw [Catalogue.inputInterface, takes]
    exact List.append_assoc _ _ _
  · refine List.forall_mem_append.mpr
      ⟨fun other isMember same => ?_, fun other => extraPath_absent⟩
    exact List.find?_eq_none.mp noFilters other isMember (beq_iff_eq.mpr same)

/-- What is decoded is the value of the document. -/
theorem exists_json_of_decode {type : ComplexType} {content : String} {document : Document}
    (isDocument : Document.ofText? content = some document) {input : Record}
    (isInput : Body.decode type content.toUTF8 = .ok input) :
    ∃ json, Json.ofDocument? Json.greatestDepth document = some json ∧
      Body.recordOf type json = .ok input := by
  have isValue : Json.read? content.toUTF8 = Json.ofDocument? Json.greatestDepth document := by
    show (Document.ofText? content).bind _ = _
    rw [isDocument]
    rfl
  unfold Body.decode Json.read at isInput
  rw [isValue] at isInput
  cases isJson : Json.ofDocument? Json.greatestDepth document with
  | none =>
      rw [isJson] at isInput
      cases isInput
  | some json =>
      rw [isJson] at isInput
      exact ⟨json, rfl, isInput⟩

/-- The records of an input are those of its clauses. -/
theorem clausesOption_of_given {input : Record} {records : List Record}
    (given : Given .list [] (records.map .record) (input.get? Query.names.filters)) :
    Query.clausesOption input = records.mapM Clause.ofRecord := by
  rw [Query.clausesOption, Record.value?]
  rcases given with present | ⟨absent, none⟩
  · rw [present]
    exact clausesOf_records records
  · rw [absent, List.map_eq_nil_iff.mp none]
    rfl

theorem exists_records_of_values {items : List Json} {values : List Value} {name : String}
    (areValues : (Body.takenItems (.complex Catalogue.clauseType) items).mapM
      (Body.valueOf name (.complex Catalogue.clauseType)) = .ok values) :
    ∃ records : List Record, values = records.map .record ∧
      List.Forall₂ (fun json record => Body.recordOf Catalogue.clauseType json = .ok record)
        (items.filter fun item => !item.isNull) records := by
  have taken : Body.takenItems (.complex Catalogue.clauseType) items =
      items.filter fun item => !item.isNull := by
    simp [Body.takenItems, ValueType.isAny]
  have asRecord : Body.valueOf name (.complex Catalogue.clauseType) =
      fun json => (Body.recordOf Catalogue.clauseType json).map .record := by
    funext json
    rw [Body.valueOf]
  rw [taken, asRecord, mapM_map_result] at areValues
  obtain ⟨records, areRecords, rfl⟩ := exists_of_map_ok areValues
  exact ⟨records, rfl, forall₂_of_mapM_ok areRecords⟩

/-- An input brings one clause for each of its filters that is not null. -/
theorem forall₂_takes_of_input {function : Function} {basePath content : String}
    (takes : (Route.input function basePath).TakesClauses) {document : Document}
    (isDocument : Document.ofText? content = some document) {input : Record}
    (isInput :
      Body.decode (Catalogue.inputInterface function basePath) content.toUTF8 = .ok input)
    {clauses : List Clause} (areClauses : Query.clausesOption input = .ok clauses) :
    List.Forall₂ (fun entry clause => clause.Takes entry)
      ((Route.input function basePath).entries document) clauses := by
  obtain ⟨json, isJson, isInput⟩ := exists_json_of_decode isDocument isInput
  obtain ⟨written, members, rfl, rfl, areMembers⟩ :=
    Body.exists_members_of_recordOf isJson isInput
  obtain ⟨rest, fields, others⟩ := fields_inputInterface takes
  obtain ⟨left, items, values, areItems, areValues, given⟩ :=
    Body.exists_values_of_list fields others rfl areMembers isInput
  obtain ⟨records, rfl, areRecords⟩ := exists_records_of_values areValues
  rw [clausesOption_of_given given] at areClauses
  have areEntries := forall₂_comp (Json.forall₂_filter_notNull areItems) areRecords
  apply (forall₂_comp areEntries (forall₂_of_mapM_ok areClauses)).imp
  rintro entry clause ⟨record, ⟨json, isJson, isRecord⟩, isClause⟩
  exact takes_of_record isJson isRecord isClause

/-! ## Both ways -/

/-- Either way, each written clause is one clause, and each of its values one literal. -/
theorem Route.forall₂_takes {route : Route} (takes : route.TakesClauses) {content : String}
    {document : Document} (isDocument : Document.ofText? content = some document)
    {clauses : List Clause} (areClauses : route.clauses? content = some clauses) :
    List.Forall₂ (fun entry clause => clause.Takes entry) (route.entries document) clauses := by
  cases route with
  | file =>
      rw [clauses?] at areClauses
      exact forall₂_takes_of_file isDocument (ok_of_toOption areClauses)
  | input function basePath =>
      obtain ⟨input, isInput, areClauses⟩ := Option.bind_eq_some_iff.mp areClauses
      exact forall₂_takes_of_input takes isDocument (ok_of_toOption isInput)
        (ok_of_toOption areClauses)

end OData.Filter
