/-
# JSON to records

Bodies of responses, and inputs written as JSON. Members that the type does not
name are passed over, nulls are left out, and single values of list fields become
lists. Texts may stand for numbers and truth values, and the reverse.
-/

import OData.Json.Diagnosis
import OData.Number.Numeral
import OData.Schema.Basic
import OData.Time.Reader

namespace OData.Body

/-- The scalar that a JSON value is for a simple type; none when it does not fit. -/
def scalarOf? : ValueType → Json → Option Scalar
  | .string, .string value => some (.text value)
  | .string, .number value => some (.text value.text)
  | .string, .boolean value => some (.text (Scalar.boolText value))
  | .integer, .number value => value.int64?.map .integer
  | .integer, .string value => (Number.readInt64? value).map .integer
  | .decimal, .number value => some (.decimal value.toFloat)
  | .decimal, .string value => (Number.readFloat? value).map .decimal
  | .boolean, .boolean value => some (.boolean value)
  | .boolean, .string value =>
      if value == "true" then some (.boolean true)
      else if value == "false" then some (.boolean false)
      else none
  | .dateTime, .string value => (Time.readInstant? value).map .instant
  | .date, .string value => (Time.readInstant? value).map .instant
  | .guid, .string value => (Uuid.read? value).map .uuid
  | .any, .boolean value => some (.boolean value)
  | .any, .number value => some ((value.int64?.map .integer).getD (.decimal value.toFloat))
  | .any, .string value => some (.text value)
  | _, _ => none

/-- The value of a field of simple type. Only an untyped field can hold a null. -/
def simpleOf (name : String) (type : ValueType) (json : Json) : Except Fault Value :=
  match type, json with
  | .any, .null => .ok .null
  | _, _ =>
      match scalarOf? type json with
      | some scalar => .ok (.scalar scalar)
      | none => .error (.decode (.mismatch json name))

/-- The items of an array that a field of this type takes. -/
def takenItems (type : ValueType) (items : List Json) : List Json :=
  items.filter fun item => !item.isNull || type.isAny

/-- The value of a member, given how a single value of its field is read. -/
def memberOf (field : Field) (single : Json → Except Fault Value) : Json → Except Fault Value
  | .array items => (takenItems field.type items).mapM single |>.map .list
  | json => if field.isList then (single json).map fun value => .list [value] else single json

mutual

/-- The record that a JSON value is for a complex type. -/
def recordOf : ComplexType → Json → Except Fault Record
  | ⟨_, _, _, fields⟩, .object members => (fieldsOf fields members .empty)
  | ⟨name, _, _, _⟩, _ => .error (.decode (.notObject name))

/-- Set the fields that an object has members for, one after another. -/
def fieldsOf : List Field → List (String × Json) → Record → Except Fault Record
  | [], _, record => .ok record
  | ⟨name, type, key, foreignName, foreignKey, collection, navigation, expand, most, least⟩
      :: rest, members, record =>
      match Json.get? name (.object members) with
      | none => fieldsOf rest members record
      | some .null => fieldsOf rest members record
      | some json => do
          let field : Field :=
            ⟨name, type, key, foreignName, foreignKey, collection, navigation, expand, most,
              least⟩
          let value ← memberOf field (valueOf name type) json
          fieldsOf rest members (record.set name value)

/-- The value of a single JSON value for a field's name and type. -/
def valueOf (name : String) : ValueType → Json → Except Fault Value
  | .complex type, json => (recordOf type json).map .record
  | type, json => simpleOf name type json

end

/-- The record that a body holds. -/
def decode (type : ComplexType) (bytes : ByteArray) : Except Fault Record :=
  match Json.read bytes with
  | .error why => .error (.decode (.malformed why))
  | .ok json => recordOf type json

end OData.Body
