/-
# Preparation

Before a client sends anything, it works out what to send: the target of a request or of
an association, the links of the entity, and its body. Whatever is wrong with any of
these is wrong with the definition, the function or the input, and shows as a fault of
that phase. After the last response it reads the answer, and there only answers are at
fault.

There is one lemma for each computation that may fail, in the order in which they build on
each other. Those on records and types follow the recursion of what they are about.
-/

import OData.Client.Run
import OData.Proofs.Outcome

namespace OData

/-! ## Texts -/

theorem ValueType.failsIn_text (type : ValueType) (value : Value) :
    FailsIn .preparation (type.text value) := by
  unfold ValueType.text
  split
  · exact .error rfl
  · split
    · exact .error rfl
    · exact .error rfl
    · exact .error rfl
    · exact .ok _

theorem Field.failsIn_remoteField (field : Field) : FailsIn .preparation field.remoteField := by
  unfold Field.remoteField
  split
  · exact .ok _
  · split
    · exact .ok _
    · exact .error rfl

theorem Function.failsIn_requireContext (function : Function) :
    FailsIn .preparation function.requireContext := by
  unfold Function.requireContext
  split
  · split
    · exact .error rfl
    · exact .ok _
  · exact .error rfl

/-! ## Definitions -/

theorem Address.failsIn_split (endpoint : String) : FailsIn .preparation (split endpoint) := by
  unfold split
  split
  · exact .error rfl
  · dsimp only
    split
    · exact .error rfl
    · exact .ok _

/-- However a definition is come by, there are faults of preparation only. -/
theorem Definition.failsIn_ofSource (files : Files) (source : DefinitionSource) :
    FailsIn .preparation (ofSource files source) := by
  cases source with
  | known definition => exact .ok _
  | file path endpoint =>
      rw [ofSource, ofFile]
      split
      · split
        · exact .error rfl
        · split
          · exact .ok _
          · exact (Address.failsIn_split _).bind fun _ => .ok _
      · exact .error rfl

/-! ## Filters -/

namespace Filter

theorem Literal.failsIn_ofValue (value : Value) :
    FailsIn .preparation (Literal.ofValue value) := by
  cases value with
  | null => exact .ok _
  | scalar value => exact .ok _
  | record record => exact .error rfl
  | list items => exact .error rfl

namespace Clause

theorem failsIn_literalsOf (record : Record) : FailsIn .preparation (literalsOf record) := by
  unfold literalsOf
  split
  · exact .ok _
  · exact .mapM _ fun item _ => Literal.failsIn_ofValue item
  · exact (Literal.failsIn_ofValue _).map _

theorem failsIn_keyOf (record : Record) : FailsIn .preparation (keyOf record) := by
  unfold keyOf
  split
  · exact .ok _
  · split
    · exact .ok _
    · exact .error rfl

theorem failsIn_ofRecord (record : Record) : FailsIn .preparation (ofRecord record) :=
  (failsIn_keyOf record).bind fun _ => (failsIn_literalsOf record).bind fun _ => .ok _

theorem failsIn_check (clause : Clause) (key : String) :
    FailsIn .preparation (clause.check key) := by
  unfold check
  split
  · exact .error rfl
  · exact .ok _

end Clause

theorem failsIn_clausesOf (value : Value) : FailsIn .preparation (clausesOf value) := by
  refine .mapM _ fun entry _ => ?_
  split
  · exact Clause.failsIn_ofRecord _
  · exact .error rfl

theorem failsIn_compileFrom (started grouped : Bool) (clauses : List Clause) :
    FailsIn .preparation (compileFrom started grouped clauses) := by
  induction clauses generalizing started grouped with
  | nil => exact .ok _
  | cons clause rest ih =>
      rw [compileFrom]
      cases clause.keptKey? with
      | none => exact ih started grouped
      | some key =>
          exact (clause.failsIn_check key).bind fun _ => (ih _ _).bind fun _ => .ok _

end Filter

/-! ## Options -/

namespace Query

theorem failsIn_integerOption (input : Record) (name : String) :
    FailsIn .preparation (integerOption input name) := by
  unfold integerOption
  split
  · exact .ok _
  · split
    · exact .ok _
    · exact .error rfl

theorem failsIn_booleanOption (input : Record) (name : String) :
    FailsIn .preparation (booleanOption input name) := by
  unfold booleanOption
  split
  · exact .ok _
  · split
    · exact .ok _
    · exact .error rfl

theorem failsIn_clausesOption (input : Record) : FailsIn .preparation (clausesOption input) := by
  unfold clausesOption
  split
  · exact .ok _
  · exact Filter.failsIn_clausesOf _

namespace Options

theorem failsIn_ofInput (input : Option Record) : FailsIn .preparation (ofInput input) := by
  cases input with
  | none => exact .ok _
  | some record =>
      refine (failsIn_booleanOption record _).bind fun _ => ?_
      refine (failsIn_integerOption record _).bind fun _ => ?_
      refine (failsIn_integerOption record _).bind fun _ => ?_
      exact (failsIn_clausesOption record).bind fun _ => .ok _

theorem failsIn_filterExpression (options : Options) :
    FailsIn .preparation options.filterExpression := by
  unfold filterExpression
  split
  · exact .ok _
  · split
    · exact .ok _
    · exact ((Filter.failsIn_compileFrom _ _ _).map _).bind fun _ => .ok _

theorem failsIn_queryString (options : Options) : FailsIn .preparation options.queryString := by
  refine (options.failsIn_filterExpression.bind fun _ => .ok _).bind fun parameters => ?_
  split
  · exact .ok _
  · exact .ok _

end Options

end Query

/-! ## Targets -/

namespace Target

theorem failsIn_need {α : Type} (cause : SchemaFault) (value : Option α) :
    FailsIn .preparation (need cause value) := by
  cases value with
  | none => exact .error rfl
  | some value => exact .ok _

theorem failsIn_parentKey (type : Option ComplexType) (name : String) (value : Value) :
    FailsIn .preparation (parentKey type name value) := by
  unfold parentKey
  split
  · exact ValueType.failsIn_text _ _
  · split
    · exact .ok _
    · exact .error rfl

namespace Site

variable (site : Site)

theorem failsIn_parentSegments (type : Option ComplexType) (name set : String)
    (values : List Value) : FailsIn .preparation (site.parentSegments type name set values) :=
  .mapM _ fun value _ => (failsIn_parentKey type name value).bind fun _ => .ok _

theorem failsIn_recordParents (type : Option ComplexType) (record : Record) :
    FailsIn .preparation (site.recordParents type record) := by
  refine .bind (.mapM _ fun field _ => ?_) fun _ => .ok _
  split
  · exact .ok _
  · exact site.failsIn_parentSegments _ _ _ _

theorem failsIn_bodyParents (function : Function) (input : Option Record) :
    FailsIn .preparation (site.bodyParents function input) := by
  refine .bind (.mapM _ fun field _ => ?_) fun _ => .ok _
  split
  · exact .ok _
  · exact site.failsIn_recordParents _ _

theorem failsIn_clauseParents (type : Option ComplexType) (clause : Filter.Clause) :
    FailsIn .preparation (site.clauseParents type clause) := by
  unfold clauseParents
  split
  · exact .ok _
  · split
    · exact .ok _
    · exact site.failsIn_parentSegments _ _ _ _

theorem failsIn_filterParents (function : Function) (clauses : List Filter.Clause) :
    FailsIn .preparation (site.filterParents function clauses) :=
  .bind (.mapM _ fun clause _ => site.failsIn_clauseParents _ clause) fun _ => .ok _

theorem failsIn_keyParts (function : Function) (input : Option Record) :
    FailsIn .preparation (site.keyParts function input) := by
  refine .mapM _ fun field _ => ?_
  split
  · exact .error rfl
  · exact (ValueType.failsIn_text _ _).bind fun _ => .ok _

theorem failsIn_entityTarget (function : Function) (input : Option Record) :
    FailsIn .preparation (site.entityTarget function input) := by
  refine (site.failsIn_bodyParents function input).bind fun _ => ?_
  refine (Query.Options.failsIn_ofInput input).bind fun _ => ?_
  refine (site.failsIn_filterParents function _).bind fun _ => ?_
  refine function.failsIn_requireContext.bind fun _ => ?_
  refine (site.failsIn_keyParts function input).bind fun _ => ?_
  exact (Query.Options.failsIn_queryString _).bind fun _ => .ok _

theorem failsIn_boundIds (field : Field) (input : Option Record) :
    FailsIn .preparation (boundIds field input) := by
  unfold boundIds
  split
  · exact .ok _
  · exact .mapM _ fun value _ => ValueType.failsIn_text _ value

theorem failsIn_associationTarget (function : Function) (input : Option Record) :
    FailsIn .preparation (site.associationTarget function input) := by
  refine (failsIn_need _ _).bind fun _ => (failsIn_need _ _).bind fun _ => ?_
  refine (failsIn_need _ _).bind fun _ => (failsIn_need _ _).bind fun _ => ?_
  refine (failsIn_need _ _).bind fun _ => (ValueType.failsIn_text _ _).bind fun _ => ?_
  exact (failsIn_boundIds _ input).bind fun _ =>
    function.failsIn_requireContext.bind fun _ => .ok _

end Site

end Target

/-! ## Links -/

namespace Body

theorem failsIn_keyLiteral (field : Field) (value : Value) :
    FailsIn .preparation (keyLiteral field value) :=
  (ValueType.failsIn_text _ _).bind fun _ => .ok _

theorem failsIn_setSingleLink (bindName collection : String) (field : Field) (record : Record) :
    FailsIn .preparation (setSingleLink bindName collection field record) := by
  unfold setSingleLink
  split
  · exact .ok _
  · exact .ok _
  · exact .bind (.mapM _ fun item _ => (failsIn_keyLiteral field item).map _) fun _ => .ok _
  · exact (failsIn_keyLiteral field _).bind fun _ => .ok _

theorem failsIn_takeKeyParts (fields : List Field) (record : Record) :
    FailsIn .preparation (takeKeyParts fields record) := by
  induction fields generalizing record with
  | nil => exact .ok _
  | cons field rest ih =>
      refine field.failsIn_remoteField.bind fun _ => ?_
      split
      · exact (failsIn_keyLiteral field _).bind fun _ => (ih _).bind fun _ => .ok _
      · exact ih record

theorem failsIn_setCompositeLink (bindName collection : String) (fields : List Field)
    (record : Record) :
    FailsIn .preparation (setCompositeLink bindName collection fields record) := by
  refine (failsIn_takeKeyParts fields record).bind fun ⟨parts, left⟩ => ?_
  dsimp only
  split
  · exact .ok _
  · exact .ok _

theorem failsIn_setLink (links : Links) (type : ComplexType) (bindName base : String)
    (record : Record) : FailsIn .preparation (setLink links type bindName base record) := by
  unfold setLink
  split
  · exact .ok _
  · split
    · exact .ok _
    · split
      · exact .ok _
      · exact failsIn_setSingleLink _ _ _ record
      · exact failsIn_setCompositeLink _ _ _ record

mutual

theorem failsIn_setLinks (links : Links) : ∀ (type : ComplexType) (record : Record),
    FailsIn .preparation (setLinks links type record)
  | ⟨name, id, collectionName, fields⟩, record => by
      rw [setLinks]
      exact failsIn_setFieldLinks links _ fields record

theorem failsIn_setFieldLinks (links : Links) (type : ComplexType) :
    ∀ (fields : List Field) (record : Record),
      FailsIn .preparation (setFieldLinks links type fields record)
  | [], record => by
      rw [setFieldLinks]
      exact .ok _
  | ⟨name, fieldType, _, _, _, _, _, _, _, _⟩ :: rest, record => by
      rw [setFieldLinks]
      split
      · exact (failsIn_setLink links type name _ record).bind fun linked =>
          failsIn_setFieldLinks links type rest linked
      · exact (failsIn_setInnerLinks links name fieldType record).bind fun linked =>
          failsIn_setFieldLinks links type rest linked

theorem failsIn_setInnerLinks (links : Links) (name : String) :
    ∀ (type : ValueType) (record : Record),
      FailsIn .preparation (setInnerLinks links name type record)
  | .complex type, record => by
      rw [setInnerLinks]
      split
      · exact (failsIn_setLinks links type _).bind fun _ => .ok _
      · refine .bind (.mapM _ fun item _ => ?_) fun _ => .ok _
        split
        · exact (failsIn_setLinks links type _).map _
        · exact .ok _
      · exact .ok _
  | .string, _ | .integer, _ | .decimal, _ | .boolean, _ | .dateTime, _ | .date, _ | .guid, _
  | .any, _ => .ok _

end

/-! ## Bodies -/

theorem failsIn_scalarToJson (field : Option Field) (scalar : Scalar) :
    FailsIn .preparation (scalarToJson field scalar) := by
  unfold scalarToJson
  split
  · exact .ok _
  · exact .ok _
  · split
    · exact .ok _
    · exact .error rfl
  · exact .ok _
  · split
    · exact .ok _
    · exact .ok _
  · exact .ok _

mutual

theorem failsIn_valueToJson (field : Option Field) : ∀ value : Value,
    FailsIn .preparation (valueToJson field value)
  | .null => .ok _
  | .scalar value => by
      rw [valueToJson]
      exact failsIn_scalarToJson field value
  | .record record => by
      rw [valueToJson]
      exact failsIn_recordToJson _ record
  | .list items => by
      rw [valueToJson]
      exact (failsIn_itemsToJson field items).bind fun _ => .ok _

theorem failsIn_itemsToJson (field : Option Field) : ∀ items : List Value,
    FailsIn .preparation (itemsToJson field items)
  | [] => .ok _
  | item :: rest => by
      rw [itemsToJson]
      split
      · exact failsIn_itemsToJson field rest
      · exact (failsIn_valueToJson field item).bind fun _ =>
          (failsIn_itemsToJson field rest).bind fun _ => .ok _

theorem failsIn_recordToJson (type : Option ComplexType) : ∀ record : Record,
    FailsIn .preparation (recordToJson type record)
  | ⟨fields⟩ => by
      rw [recordToJson]
      exact (failsIn_fieldsToMembers type fields).bind fun _ => .ok _

theorem failsIn_fieldsToMembers (type : Option ComplexType) : ∀ fields : List (String × Value),
    FailsIn .preparation (fieldsToMembers type fields)
  | [] => .ok _
  | (name, value) :: rest => by
      rw [fieldsToMembers]
      split
      · exact failsIn_fieldsToMembers type rest
      · exact (failsIn_valueToJson _ value).bind fun _ =>
          (failsIn_fieldsToMembers type rest).bind fun _ => .ok _

end

theorem failsIn_encode (type : ComplexType) (record : Record) :
    FailsIn .preparation (encode type record) :=
  (failsIn_recordToJson _ record).bind fun _ => .ok _

/-! ## Answers -/

theorem failsIn_simpleOf (name : String) (type : ValueType) (json : Json) :
    FailsIn .answer (simpleOf name type json) := by
  unfold simpleOf
  split
  · exact .ok _
  · split
    · exact .ok _
    · exact .error rfl

theorem failsIn_memberOf (field : Field) {single : Json → Except Fault Value}
    (fails : ∀ json, FailsIn .answer (single json)) (json : Json) :
    FailsIn .answer (memberOf field single json) := by
  unfold memberOf
  split
  · exact (FailsIn.mapM _ fun item _ => fails item).map _
  · split
    · exact (fails json).map _
    · exact fails json

mutual

theorem failsIn_recordOf : ∀ (type : ComplexType) (json : Json),
    FailsIn .answer (recordOf type json)
  | ⟨_, _, _, fields⟩, .object members => by
      rw [recordOf]
      exact failsIn_fieldsOf fields members _
  | ⟨_, _, _, _⟩, .null | ⟨_, _, _, _⟩, .boolean _ | ⟨_, _, _, _⟩, .number _
  | ⟨_, _, _, _⟩, .string _ | ⟨_, _, _, _⟩, .array _ => by
      simp only [recordOf]
      exact .error rfl

theorem failsIn_fieldsOf :
    ∀ (fields : List Field) (members : List (String × Json)) (record : Record),
    FailsIn .answer (fieldsOf fields members record)
  | [], _, _ => .ok _
  | ⟨name, type, key, foreignName, foreignKey, collection, navigation, expand, most, least⟩
      :: rest, members, record => by
      rw [fieldsOf]
      split
      · exact failsIn_fieldsOf rest members record
      · exact failsIn_fieldsOf rest members record
      · exact (failsIn_memberOf _ (failsIn_valueOf name type) _).bind fun _ =>
          failsIn_fieldsOf rest members _

theorem failsIn_valueOf (name : String) : ∀ (type : ValueType) (json : Json),
    FailsIn .answer (valueOf name type json)
  | .complex type, json => by
      rw [valueOf]
      exact (failsIn_recordOf type json).map _
  | .string, _ | .integer, _ | .decimal, _ | .boolean, _ | .dateTime, _ | .date, _ | .guid, _
  | .any, _ => by
      simp only [valueOf]
      exact failsIn_simpleOf name _ _

end

theorem failsIn_decode (type : ComplexType) (bytes : ByteArray) :
    FailsIn .answer (decode type bytes) := by
  unfold decode
  split
  · exact .error rfl
  · exact failsIn_recordOf type _

theorem failsIn_outputOf (output : ComplexType) (body : ByteArray) :
    FailsIn .answer (outputOf output body) := by
  unfold outputOf
  split
  · exact (failsIn_decode output body).map _
  · split
    · exact .ok _
    · split
      · exact .ok _
      · exact (failsIn_decode _ body).bind fun _ => .ok _

theorem failsIn_answer (function : Function) (response : Http.Response) :
    FailsIn .answer (answer function response) := by
  unfold answer
  split
  · exact .ok _
  · split
    · exact .ok _
    · exact failsIn_outputOf _ _

end Body

theorem Association.failsIn_existing (response : Http.Response) :
    FailsIn .answer (existing response) := by
  unfold existing
  split
  · exact .ok _
  · split
    · exact .error rfl
    · exact .ok _

/-! ## Requests -/

namespace Client

theorem failsIn_bodyOf (client : Client) (definition : Definition) (function : Function)
    (input : Option Record) : FailsIn .preparation (client.bodyOf definition function input) := by
  unfold bodyOf
  split
  · exact .ok _
  · split
    · exact (Body.failsIn_setLinks _ _ _).bind fun _ =>
        (Body.failsIn_encode _ _).bind fun _ => .ok _
    · exact (FailsIn.ok _).bind fun _ => (Body.failsIn_encode _ _).bind fun _ => .ok _

theorem failsIn_requestOf (client : Client) (site : Target.Site) (function : Function)
    (input : Option Record) : FailsIn .preparation (client.requestOf site function input) :=
  (site.failsIn_entityTarget function input).bind fun _ =>
    (client.failsIn_bodyOf site.definition function input).bind fun _ => .ok _

end Client

end OData
