/-
# Written schemas

The JSON form of value types, fields and complex types. A simple type is its name
alone, a complex one an object that holds its structure.
-/

import OData.Json.Decode
import OData.Schema.Basic

namespace OData

open Json (Decoder Document)

/-- The names of the simple types. -/
def ValueType.simple? (name : String) : Option ValueType :=
  if name == "string" then some .string
  else if name == "integer" then some .integer
  else if name == "decimal" then some .decimal
  else if name == "boolean" then some .boolean
  else if name == "datetime" then some .dateTime
  else if name == "date" then some .date
  else if name == "guid" then some .guid
  else if name == "any" then some .any
  else none

namespace Schema

/-- A value type, given the reader of the structures inside it. -/
def valueTypeWith (inner : Decoder ComplexType) : Decoder ValueType := fun levels document => do
  let (name, content) ← Json.variant? levels document
  if name == "complex" then
    let (left, structure_) ← content
    return .complex (← inner left structure_)
  else if Json.isBare content then ValueType.simple? name
  else none

/-- The members of a written field. -/
def fieldMembers : List String :=
  ["name", "type", "primaryKey", "foreignName", "foreignKey", "collectionName", "alias", "expand",
   "maxOccurs", "minOccurs"]

/-- A field, given the reader of the structures inside it. -/
def fieldWith (inner : Decoder ComplexType) : Decoder Field := fun levels document => do
  let (left, slots) ← Json.slots? fieldMembers levels document
  match slots with
  | [name, type, primaryKey, foreignName, foreignKey, collectionName, navigation, expand,
     maxOccurs, minOccurs] =>
      return {
        name := ← name.required Decoder.text left
        type := ← type.required (valueTypeWith inner) left
        primaryKey := ← primaryKey.withDefault false Decoder.boolean left
        foreignName := ← foreignName.optional Decoder.text left
        foreignKey := ← foreignKey.optional Decoder.text left
        collectionName := ← collectionName.optional Decoder.text left
        navigation := ← navigation.optional Decoder.text left
        expand := ← expand.optional Decoder.text left
        maxOccurs := ← maxOccurs.optional Decoder.natural32 left
        minOccurs := ← minOccurs.optional Decoder.natural32 left }
  | _ => none

/-- A complex type whose structures nest at most `depth` deep. -/
def complexTypeWithin : (depth : Nat) → Decoder ComplexType
  | 0 => fun _ _ => none
  | depth + 1 => fun levels document => do
      let (left, slots) ← Json.slots? ["name", "id", "collectionName", "fields"] levels document
      match slots with
      | [name, id, collectionName, fields] =>
          return {
            name := ← name.required Decoder.text left
            id := ← id.optional Decoder.text left
            collectionName := ← collectionName.optional Decoder.text left
            fields := ← fields.withDefault []
              (Decoder.list (fieldWith (complexTypeWithin depth))) left }
      | _ => none

/-- A complex type. Each structure takes at least one level of nesting. -/
def complexType : Decoder ComplexType := complexTypeWithin (Json.greatestDepth + 1)

/-- A value type. -/
def valueType : Decoder ValueType := valueTypeWith complexType

end Schema

mutual

/-- JSON form of a value type. -/
def ValueType.toJson : ValueType → Json
  | .string => .string "string"
  | .integer => .string "integer"
  | .decimal => .string "decimal"
  | .boolean => .string "boolean"
  | .dateTime => .string "datetime"
  | .date => .string "date"
  | .guid => .string "guid"
  | .any => .string "any"
  | .complex type => .object [("complex", type.toJson)]

/-- JSON form of a complex type, members in declared order. -/
def ComplexType.toJson : ComplexType → Json
  | ⟨name, id, collectionName, fields⟩ => .object [
      ("name", .string name),
      ("id", Json.ofText id),
      ("collectionName", Json.ofText collectionName),
      ("fields", .array (Schema.fieldsToJson fields))]

/-- JSON forms of fields. -/
def Schema.fieldsToJson : List Field → List Json
  | [] => []
  | ⟨name, type, primaryKey, foreignName, foreignKey, collectionName, navigation, expand,
      maxOccurs, minOccurs⟩ :: rest =>
      .object [
        ("name", .string name),
        ("type", type.toJson),
        ("primaryKey", .boolean primaryKey),
        ("foreignName", Json.ofText foreignName),
        ("foreignKey", Json.ofText foreignKey),
        ("collectionName", Json.ofText collectionName),
        ("alias", Json.ofText navigation),
        ("expand", Json.ofText expand),
        ("maxOccurs", Json.ofNat maxOccurs),
        ("minOccurs", Json.ofNat minOccurs)] :: Schema.fieldsToJson rest

end

/-- JSON form of a field. -/
def Field.toJson (field : Field) : Json :=
  (Schema.fieldsToJson [field]).headD .null

end OData
