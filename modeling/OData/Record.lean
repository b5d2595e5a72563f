/-
# Records

Ordered trees of named values: what operations take as input and give as output.
A record keeps its fields in the order in which they were first set. Replacing a
value never moves a field, and removing one never moves the others. The leaves are
scalars, each of which has one plain text in keys and query options.
-/

import OData.Number.Notation
import OData.Text.Search
import OData.Time.Instant
import OData.Uuid

namespace OData

/-! ## Scalars -/

/-- A single value. -/
inductive Scalar where
  | text (value : String)
  | integer (value : Int64)
  | decimal (value : Float)
  | boolean (value : Bool)
  | instant (value : Time.Instant)
  | uuid (value : Uuid)

namespace Scalar

/-- The words for truth values. -/
def boolText (value : Bool) : String := if value then "true" else "false"

/-- Plain text of a scalar. Instants have no zone here. -/
def plain : Scalar → String
  | .text value => value
  | .integer value => toString value.toInt
  | .decimal value => Number.plainText value
  | .boolean value => boolText value
  | .instant value => value.text
  | .uuid value => value.text

end Scalar

/-! ## Values and records -/

mutual

/-- The value of a field. -/
inductive Value where
  | null
  | scalar (value : Scalar)
  | record (value : Record)
  | list (items : List Value)

/-- An ordered sequence of named values. -/
structure Record where
  /-- The fields in order; no name occurs twice in a record built by `set`. -/
  fields : List (String × Value)

end

instance : Inhabited Value := ⟨.null⟩

instance : Inhabited Record := ⟨⟨[]⟩⟩

instance : Coe String Value := ⟨fun text => .scalar (.text text)⟩

namespace Value

/-- The value is the explicit absence of one. -/
def isNull : Value → Bool
  | .null => true
  | _ => false

/-- The single value, if this is one. -/
def scalar? : Value → Option Scalar
  | .scalar value => some value
  | _ => none

/-- Plain text of a scalar; nulls, records and lists have none. -/
def plain? (value : Value) : Option String := value.scalar?.map Scalar.plain

/-- The text, if this is one. -/
def text? : Value → Option String
  | .scalar (.text value) => some value
  | _ => none

/-- The truth value, if this is one. -/
def boolean? : Value → Option Bool
  | .scalar (.boolean value) => some value
  | _ => none

/-- The nested record, if this is one. -/
def record? : Value → Option Record
  | .record value => some value
  | _ => none

/-- The items, if this is a list. -/
def items? : Value → Option (List Value)
  | .list items => some items
  | _ => none

/-- A single value, or the items of a list; nulls are left out of either. -/
def flatten : Value → List Value
  | .list items => items.filter fun item => !item.isNull
  | .null => []
  | single => [single]

end Value

namespace Record

/-- The record without fields. -/
def empty : Record := ⟨[]⟩

/-- The value in a sequence of fields under a name, nulls included. -/
def lookup (name : String) : List (String × Value) → Option Value
  | [] => none
  | (other, value) :: rest => if other = name then some value else lookup name rest

/-- The value of a field, nulls included. -/
def get? (record : Record) (name : String) : Option Value := lookup name record.fields

/-- The value of a field that is not null. -/
def value? (record : Record) (name : String) : Option Value :=
  (record.get? name).filter fun value => !value.isNull

/-- The record has the field, be it null. -/
def contains (record : Record) (name : String) : Bool := (record.get? name).isSome

/-- Set a field in a sequence: in its place when it is there, else at the end. -/
def insert (name : String) (value : Value) : List (String × Value) → List (String × Value)
  | [] => [(name, value)]
  | (other, kept) :: rest =>
      if other = name then (other, value) :: rest else (other, kept) :: insert name value rest

/-- Set a field. -/
def set (record : Record) (name : String) (value : Value) : Record :=
  ⟨insert name value record.fields⟩

/-- Replace the value of a field that the record has. -/
def assign? (record : Record) (name : String) (value : Value) : Option Record :=
  if record.contains name then some (record.set name value) else none

/-- Take the first field of a name out of a sequence. -/
def erase (name : String) : List (String × Value) → List (String × Value)
  | [] => []
  | (other, value) :: rest => if other = name then rest else (other, value) :: erase name rest

/-- Remove a field; also the value it had. -/
def remove (record : Record) (name : String) : Option Value × Record :=
  (record.get? name, ⟨erase name record.fields⟩)

/-- Number of fields. -/
def size (record : Record) : Nat := record.fields.length

/-- The record has no field. -/
def isEmpty (record : Record) : Bool := record.fields.isEmpty

/-- The names of the fields, in order. -/
def names (record : Record) : List String := record.fields.map Prod.fst

/-- The record that results from setting the given fields one after another. -/
def ofFields (fields : List (String × Value)) : Record :=
  fields.foldl (fun record field => record.set field.1 field.2) empty

/-- The value reached from a value through nested records. -/
def descend (value : Value) : List String → Option Value
  | [] => some value
  | name :: names => do
      let record ← value.record?
      let next ← record.value? name
      descend next names

/-- The value at a path of names with slashes between them. No step may be null. -/
def path? (record : Record) (path : String) : Option Value :=
  descend (.record record) (Text.splitAt '/' path)

@[simp] theorem get?_empty (name : String) : empty.get? name = none := rfl

theorem lookup_insert_self (name : String) (value : Value) (fields : List (String × Value)) :
    lookup name (insert name value fields) = some value := by
  induction fields with
  | nil => simp [insert, lookup]
  | cons field rest ih =>
      obtain ⟨other, kept⟩ := field
      by_cases same : other = name <;> simp [insert, lookup, same, ih]

/-- A field that was set has the value it was set to. -/
@[simp] theorem get?_set_self (record : Record) (name : String) (value : Value) :
    (record.set name value).get? name = some value :=
  lookup_insert_self name value record.fields

theorem lookup_insert_of_ne {name other : String} (different : other ≠ name) (value : Value)
    (fields : List (String × Value)) :
    lookup other (insert name value fields) = lookup other fields := by
  induction fields with
  | nil => simp [insert, lookup, different.symm]
  | cons field rest ih =>
      obtain ⟨key, kept⟩ := field
      by_cases same : key = name
      · subst same; simp [insert, lookup, different.symm]
      · by_cases found : key = other
        · subst found; simp [insert, lookup, same]
        · simp [insert, lookup, same, found, ih]

/-- Setting a field leaves the value of every other field alone. -/
theorem get?_set_of_ne (record : Record) {name other : String} (different : other ≠ name)
    (value : Value) : (record.set name value).get? other = record.get? other :=
  lookup_insert_of_ne different value record.fields

end Record

end OData
