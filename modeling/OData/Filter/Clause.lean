/-
# Filter clauses

A filter is a list of clauses. Each compares a field with values, or is a flag
with three states: a flag whose first value is null is not set and drops out, and
one whose first value is false is turned around.
-/

import OData.Schema.Basic
import OData.Text.Escaped

namespace OData.Filter

/-- A value in a filter: a scalar, or null. -/
abbrev Literal := Option Scalar

namespace Literal

/-- Text of a literal without quotes. -/
def raw : Literal → String
  | none => "null"
  | some scalar => scalar.plain

/-- Text of a literal in an expression: texts are quoted, and instants have their
zone. -/
def expression : Literal → String
  | some (.text value) => Text.quote value
  | some (.instant value) => value.zonedText
  | literal => raw literal

/-- The literal of a field's value; records and lists are none. -/
def ofValue : Value → Except Fault Literal
  | .null => .ok none
  | .scalar value => .ok (some value)
  | .record _ | .list _ => .error (.filter .valueNotScalar)

/-- The value of a field for a literal. -/
def toValue : Literal → Value
  | none => .null
  | some scalar => .scalar scalar

end Literal

/-- One clause of a filter. -/
structure Clause where
  /-- The field; a clause without one drops out. -/
  key : Option String
  /-- The operator as it was given; unknown ones are kept. -/
  operator : String := "="
  values : List Literal := []
  /-- The clause joins those before it by `or` instead of `and`. -/
  joinsByOr : Bool := false
  /-- Case does not count in the comparison. -/
  ignoresCase : Bool := false

/-- The operators that compare a field with values. Case and spacing count. -/
def comparisonOperators : List String :=
  ["=", "<>", "!=", ">", "<", ">=", "<=", "like", "ilike", "not like", "not ilike"]

/-- The operator compares a field with values; any other is a flag. -/
def isComparison (operator : String) : Bool := comparisonOperators.contains operator

namespace Clause

/-- The state of a clause that is a flag. -/
def flag? (clause : Clause) : Option Literal :=
  if isComparison clause.operator then none else clause.values.head?

/-- The clause is a flag that is not set. -/
def isSkipped (clause : Clause) : Bool :=
  match clause.flag? with
  | some none => true
  | _ => false

/-- The clause is a flag that is set to false. -/
def isInverted (clause : Clause) : Bool :=
  match clause.flag? with
  | some (some (.boolean false)) => true
  | _ => false

/-- A clause that compares a field with one value. -/
def comparing (operator key : String) (value : Literal) : Clause :=
  { key := some key, operator := operator, values := [value] }

/-- The field has the value. -/
def equal (key : String) (value : Literal) : Clause := comparing "=" key value

/-- The field has another value. -/
def unequal (key : String) (value : Literal) : Clause := comparing "<>" key value

/-- The field contains the text; percent signs in it do not count. -/
def like (key pattern : String) : Clause := comparing "like" key (some (.text pattern))

/-- The field has no value. -/
def isNull (key : String) : Clause := { key := some key, operator := "is null" }

/-- The clause with more values after those it has. -/
def withValues (clause : Clause) (values : List Literal) : Clause :=
  { clause with values := clause.values ++ values }

/-- The clause, joined to those before it by `or`. -/
def joinedByOr (clause : Clause) : Clause := { clause with joinsByOr := true }

/-- The clause, in which case does not count. -/
def ignoringCase (clause : Clause) : Clause := { clause with ignoresCase := true }

/-- The truth value of a field of a record, false unless it is one. -/
def flagField (record : Record) (name : String) : Bool :=
  ((record.value? name).bind Value.boolean?).getD false

/-- The literals of the `values` of a record: a list of them, or a single one. -/
def literalsOf (record : Record) : Except Fault (List Literal) :=
  match record.get? "values" with
  | none => .ok []
  | some (.list items) => items.mapM Literal.ofValue
  | some single => (Literal.ofValue single).map fun literal => [literal]

/-- The key of a clause's record. -/
def keyOf (record : Record) : Except Fault (Option String) :=
  match record.value? "key" with
  | none => .ok none
  | some value =>
      match value.plain? with
      | some key => .ok (some key)
      | none => .error (.filter .keyNotScalar)

/-- The clause that a record describes. -/
def ofRecord (record : Record) : Except Fault Clause := do
  let key ← keyOf record
  let values ← literalsOf record
  return {
    key := key
    operator := ((record.value? "operator").bind Value.plain?).getD "="
    values := values
    joinsByOr := flagField record "or"
    ignoresCase := flagField record "caseInsensitive" }

/-- A text, or null for none. -/
def textOrNull (text : Option String) : Value :=
  match text with
  | some value => .scalar (.text value)
  | none => .null

/-- The record that describes a clause. -/
def toRecord (clause : Clause) : Record := ⟨[
  ("key", textOrNull clause.key),
  ("operator", .scalar (.text clause.operator)),
  ("values", .list (clause.values.map Literal.toValue)),
  ("or", .scalar (.boolean clause.joinsByOr)),
  ("caseInsensitive", .scalar (.boolean clause.ignoresCase))]⟩

end Clause

/-- The clauses that a value describes: a record, or a list of them. -/
def clausesOf (value : Value) : Except Fault (List Clause) :=
  value.flatten.mapM fun entry =>
    match entry.record? with
    | some record => Clause.ofRecord record
    | none => .error (.filter .clauseNotRecord)

end OData.Filter
