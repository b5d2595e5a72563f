/-
# Schemas

Complex types and their fields. The annotations of a field say how it takes part
in addresses: as a key, as a link to another entity, or as a property to expand.
-/

import OData.Fault
import OData.Record

namespace OData

mutual

/-- Declared type of a field. -/
inductive ValueType where
  | string
  | integer
  | decimal
  | boolean
  | dateTime
  | date
  | guid
  /-- An untyped scalar, kept as it comes, nulls included. -/
  | any
  | complex (type : ComplexType)

/-- A field of a complex type. -/
structure Field where
  name : String
  type : ValueType
  /-- The field is part of the entity's key. -/
  primaryKey : Bool := false
  /-- The complex sibling that this field links to. -/
  foreignName : Option String := none
  /-- Part of a composite link, written `entitySet:remoteField`. -/
  foreignKey : Option String := none
  /-- The entity set that the field's values are from. -/
  collectionName : Option String := none
  /-- The navigation property through which the field's ids are bound. -/
  navigation : Option String := none
  /-- Navigation property to expand when the field is asked for. -/
  expand : Option String := none
  /-- Greatest number of values, zero for no limit; none means exactly one. -/
  maxOccurs : Option Nat := none
  /-- Least number of values. -/
  minOccurs : Option Nat := none

/-- A named structure of fields. -/
structure ComplexType where
  name : String
  /-- The name under which the type is registered. -/
  id : Option String := none
  /-- The entity set that holds entities of this type. -/
  collectionName : Option String := none
  fields : List Field := []

end

instance : Inhabited ComplexType := ⟨⟨"", none, none, []⟩⟩

namespace ValueType

/-- The structure of a complex type. -/
def complex? : ValueType → Option ComplexType
  | .complex type => some type
  | _ => none

/-- The type is a structure of fields. -/
def isComplex (type : ValueType) : Bool := type.complex?.isSome

/-- The type keeps scalars as they come. -/
def isAny : ValueType → Bool
  | .any => true
  | _ => false

/-- Keys of this type stand in quotes in addresses. -/
def isQuoted : ValueType → Bool
  | .string => true
  | _ => false

/-- Text of a scalar in a field of this type: a date has no clock. -/
def scalarText : ValueType → Scalar → String
  | .date, .instant value => value.date.text
  | _, value => value.plain

/-- Text of a value in a field of this type. Only scalars have one. -/
def text (type : ValueType) (value : Value) : Except Fault String :=
  if type.isComplex then .error (.schema .complexType)
  else match value with
    | .null => .error (.schema .nullValue)
    | .record _ | .list _ => .error (.schema .compositeValue)
    | .scalar scalar => .ok (type.scalarText scalar)

end ValueType

namespace Field

/-- The structure of a complex field. -/
def complex? (field : Field) : Option ComplexType := field.type.complex?

/-- The field holds a structure. -/
def isComplex (field : Field) : Bool := field.type.isComplex

/-- The field holds a list of values. -/
def isList (field : Field) : Bool := field.maxOccurs.any (· != 1)

/-- The remote field of a composite link, if the field is part of one. -/
def remoteField (field : Field) : Except Fault (Option String) :=
  match field.foreignKey with
  | none => .ok none
  | some mapping =>
      match Text.cut? ":" mapping with
      | some (_, remote) => .ok (some remote)
      | none => .error (.schema (.foreignKeyMapping mapping field.name))

end Field

namespace ComplexType

/-- The first field of a name. -/
def field? (type : ComplexType) (name : String) : Option Field :=
  type.fields.find? fun field => field.name == name

/-- The fields that hold structures. -/
def complexFields (type : ComplexType) : List Field := type.fields.filter Field.isComplex

/-- The field that carries the entity: the last one that holds a structure. -/
def bodyField? (type : ComplexType) : Option Field := type.complexFields.getLast?

end ComplexType

end OData
