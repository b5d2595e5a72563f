/-
# Records that conform to a type

What a type admits at every depth, and what is left of a record that is written
and read again: nulls are dropped, except in lists of untyped values, single values
of list fields become lists, and fields follow the order of the type. Types nest
only finitely deep, which is the induction that everything here goes by.
-/

import OData.Number.Notation
import OData.Proofs.Time.ReadBack
import OData.Schema.Basic
import Mathlib.Data.List.Nodup

namespace OData

namespace ComplexType

/-- What holds of a type when it holds of the types of its fields holds of every type. -/
theorem induction {motive : ComplexType → Prop}
    (step : ∀ type : ComplexType,
      (∀ field ∈ type.fields, ∀ inner, field.type = .complex inner → motive inner) → motive type)
    (type : ComplexType) : motive type := by
  apply step
  intro field isMember inner isComplex
  exact induction step inner
termination_by sizeOf type
decreasing_by
  cases type with
  | mk name id collection fields =>
      have fieldLt := List.sizeOf_lt_of_mem isMember
      cases field with
      | mk =>
          simp only at isComplex
          subst isComplex
          simp only [ComplexType.mk.sizeOf_spec, Field.mk.sizeOf_spec,
            ValueType.complex.sizeOf_spec] at *
          omega

/-- No two fields of the type, or of a type in it, have one name. -/
inductive DistinctNames : ComplexType → Prop where
  | intro {type : ComplexType} (distinct : (type.fields.map Field.name).Nodup)
      (inner : ∀ field ∈ type.fields, ∀ inner, field.type = .complex inner →
        DistinctNames inner) : DistinctNames type

theorem field?_of_mem {type : ComplexType} (distinct : (type.fields.map Field.name).Nodup)
    {field : Field} (isMember : field ∈ type.fields) : type.field? field.name = some field := by
  cases found : type.field? field.name with
  | none =>
      have none := List.find?_eq_none.mp found field isMember
      simp at none
  | some other =>
      have sameName : other.name = field.name := by
        simpa using List.find?_some found
      have isOther := List.mem_of_find?_eq_some found
      rw [List.inj_on_of_nodup_map distinct isOther isMember sameName]

end ComplexType

namespace ValueType

/-- The scalars that a field of simple type holds. Instants are whole milliseconds
of the years that are written without a sign, and dates are the first of them. -/
def Admits : ValueType → Scalar → Prop
  | .string, .text _ => True
  | .integer, .integer _ => True
  | .decimal, .decimal value => Number.isFinite value = true
  | .boolean, .boolean _ => True
  | .dateTime, .instant value =>
      value.isLeapSecond = false ∧ value.nanosecond % 1000000 = 0 ∧ value.date.HasPlainYear
  | .date, .instant value => value = Time.Instant.midnight value.date ∧ value.date.HasPlainYear
  | .guid, .uuid _ => True
  | .any, .boolean _ => True
  | .any, .integer _ => True
  | .any, .decimal value => Number.isFinite value = true
  | .any, .text _ => True
  | _, _ => False

end ValueType

mutual

/-- The record has no name twice, and its fields that are not null are declared and
hold what their type admits. -/
inductive Conforms : ComplexType → Record → Prop where
  | intro {type : ComplexType} {record : Record} (distinct : record.names.Nodup)
      (declared : ∀ entry ∈ record.fields, entry.2.isNull = false →
        (type.field? entry.1).isSome = true)
      (held : ∀ entry ∈ record.fields, ∀ field, type.field? entry.1 = some field →
        Holds field.type entry.2) : Conforms type record

/-- A null, a single value or a list of values and nulls. -/
inductive Holds : ValueType → Value → Prop where
  | null {type : ValueType} : Holds type .null
  | single {type : ValueType} {value : Value} (fits : Fits type value) : Holds type value
  | list {type : ValueType} {items : List Value}
      (fit : ∀ item ∈ items, item.isNull = false → Fits type item) : Holds type (.list items)

/-- A single value of a type. -/
inductive Fits : ValueType → Value → Prop where
  | scalar {type : ValueType} {scalar : Scalar} (admits : type.Admits scalar) :
      Fits type (.scalar scalar)
  | record {type : ComplexType} {record : Record} (conforms : Conforms type record) :
      Fits (.complex type) (.record record)

end

/-! ## The normal form -/

/-- The items of a list that are kept. -/
def keptItems (type : ValueType) (items : List Value) : List Value :=
  items.filter fun item => !item.isNull || type.isAny

/-- A field's value as it is read back, given how a single value of it is. -/
def restoredMember (field : Field) (element : Value → Value) : Value → Value
  | .list items => .list ((keptItems field.type items).map element)
  | value => if field.isList then .list [element value] else element value

mutual

/-- The record as it is read back: its fields that are not null, in the order of
the type. -/
def restored : ComplexType → Record → Record
  | ⟨_, _, _, fields⟩, record => ⟨restoredFields fields record⟩

/-- What the record holds in these fields. -/
def restoredFields : List Field → Record → List (String × Value)
  | [], _ => []
  | ⟨name, type, key, foreignName, foreignKey, collection, navigation, expand, most, least⟩ ::
      rest, record =>
      match record.value? name with
      | none => restoredFields rest record
      | some value =>
          let field : Field :=
            ⟨name, type, key, foreignName, foreignKey, collection, navigation, expand, most,
              least⟩
          (name, restoredMember field (restoredElement type) value) :: restoredFields rest record

/-- A single value; only records in it change. -/
def restoredElement : ValueType → Value → Value
  | .complex type, .record record => .record (restored type record)
  | _, value => value

end

theorem restoredElement_scalar (type : ValueType) (scalar : Scalar) :
    restoredElement type (.scalar scalar) = .scalar scalar := by
  cases type <;> rfl

theorem restoredFields_cons (field : Field) (rest : List Field) (record : Record) :
    restoredFields (field :: rest) record =
      ((record.value? field.name).map fun value =>
        (field.name, restoredMember field (restoredElement field.type) value)).toList ++
          restoredFields rest record := by
  cases field with
  | mk name =>
      rw [restoredFields]
      cases record.value? name <;> rfl

end OData
