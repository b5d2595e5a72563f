/-
# Records to JSON

Bodies of requests. Fields that are null are left out, so a partial update never
clears what it does not name. Only lists of untyped values keep their nulls.
-/

import OData.Schema.Basic

namespace OData.Body

/-- The form of a scalar in a field. -/
def scalarToJson (field : Option Field) : Scalar → Except Fault Json
  | .text value => .ok (.string value)
  | .integer value => .ok (.number (.integer value.toInt))
  | .decimal value =>
      if Number.isFinite value then .ok (.number (.decimal value))
      else .error (.schema (.unsendable value))
  | .boolean value => .ok (.boolean value)
  | .instant value =>
      match field.map Field.type with
      | some .date => .ok (.string value.date.text)
      | _ => .ok (.string value.zonedText)
  | .uuid value => .ok (.string value.text)

/-- The list of a field keeps its nulls. -/
def keepsNulls (field : Option Field) : Bool := field.any fun declared => declared.type.isAny

mutual

/-- The form of a value in a field, which may be undeclared. -/
def valueToJson (field : Option Field) : Value → Except Fault Json
  | .null => .ok .null
  | .scalar value => scalarToJson field value
  | .record record => recordToJson (field.bind Field.complex?) record
  | .list items => do
      let values ← itemsToJson field items
      return .array values

/-- The forms of the items of a list. -/
def itemsToJson (field : Option Field) : List Value → Except Fault (List Json)
  | [] => .ok []
  | item :: rest =>
      if item.isNull && !keepsNulls field then itemsToJson field rest
      else do
        let value ← valueToJson field item
        let values ← itemsToJson field rest
        return value :: values

/-- The form of a record. Members are sorted by name. -/
def recordToJson (type : Option ComplexType) : Record → Except Fault Json
  | ⟨fields⟩ => do
      let members ← fieldsToMembers type fields
      return .object (members.foldl (fun sorted member =>
        Json.insertMember member.1 member.2 sorted) [])

/-- The members for the fields of a record that are not null, in their order. -/
def fieldsToMembers (type : Option ComplexType) :
    List (String × Value) → Except Fault (List (String × Json))
  | [] => .ok []
  | (name, value) :: rest =>
      if value.isNull then fieldsToMembers type rest
      else do
        let member ← valueToJson (type.bind (·.field? name)) value
        let members ← fieldsToMembers type rest
        return (name, member) :: members

end

/-- The body that a record makes. -/
def encode (type : ComplexType) (record : Record) : Except Fault ByteArray := do
  let json ← recordToJson (some type) record
  return json.compact.toUTF8

end OData.Body
