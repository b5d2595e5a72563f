/-
# Building inputs

Putting an input record together step by step. Plain fields are set at once;
clauses, order items and path values are gathered and set when the record is
built, after all others.
-/

import OData.Query.Options

namespace OData.Query

/-- An input record under construction. -/
structure InputBuilder where
  record : Record := .empty
  filters : List Record := []
  orderBy : List String := []
  path : Record := .empty

/-- One step of the construction. -/
inductive InputStep where
  /-- Set a field, such as a key. -/
  | field (name : String) (value : Value)
  /-- Set the record of an entity. -/
  | body (name : String) (record : Record)
  /-- Add a clause to the filter. -/
  | filter (clause : Filter.Clause)
  /-- Set the filter's expression, which wins over the clauses. -/
  | rawFilter (expression : String)
  /-- Add an item to the ordering. -/
  | orderBy (item : OrderItem)
  /-- At most so many entities. -/
  | top (count : Int64)
  /-- Leave so many entities out. -/
  | skip (count : Int64)
  /-- Ask for the number of entities. -/
  | count
  /-- Search for a text. -/
  | search (text : String)
  /-- Set the value of a path template. -/
  | path (name value : String)
  /-- Set the transaction that the call belongs to. -/
  | transaction (id : String)
  /-- Ask for active entities only. -/
  | activeOnly
  /-- Ask for the newest entities first. -/
  | newestFirst

namespace InputBuilder

/-- Set a field of the record. -/
def setField (builder : InputBuilder) (name : String) (value : Value) : InputBuilder :=
  { builder with record := builder.record.set name value }

/-- Add a clause. -/
def addFilter (builder : InputBuilder) (clause : Filter.Clause) : InputBuilder :=
  { builder with filters := builder.filters ++ [clause.toRecord] }

/-- Add an item to the ordering. -/
def addOrder (builder : InputBuilder) (item : OrderItem) : InputBuilder :=
  { builder with orderBy := builder.orderBy ++ [item.text] }

/-- Take one step. -/
def step (builder : InputBuilder) : InputStep → InputBuilder
  | .field name value => builder.setField name value
  | .body name record => builder.setField name (.record record)
  | .filter clause => builder.addFilter clause
  | .rawFilter expression => builder.setField names.filter expression
  | .orderBy item => builder.addOrder item
  | .top count => builder.setField names.limit (.scalar (.integer count))
  | .skip count => builder.setField names.offset (.scalar (.integer count))
  | .count => builder.setField names.totalCount (.scalar (.boolean true))
  | .search text => builder.setField names.search text
  | .path name value => { builder with path := builder.path.set name value }
  | .transaction id => builder.setField names.transaction id
  | .activeOnly => builder.addFilter (.equal "statecode" (some (.integer 0)))
  | .newestFirst => builder.addOrder (.descending "createdon")

/-- Set a field of a record unless its value would be empty. -/
def setUnless (isEmpty : Bool) (name : String) (value : Value) (record : Record) : Record :=
  if isEmpty then record else record.set name value

/-- The finished record. -/
def build (builder : InputBuilder) : Record :=
  setUnless builder.path.isEmpty names.path (.record builder.path)
    (setUnless builder.orderBy.isEmpty names.orderBy
      (.list (builder.orderBy.map fun item => .scalar (.text item)))
      (setUnless builder.filters.isEmpty names.filters (.list (builder.filters.map .record))
        builder.record))

/-- The record that a sequence of steps builds. -/
def ofSteps (steps : List InputStep) : Record :=
  (steps.foldl step ({} : InputBuilder)).build

end InputBuilder

end OData.Query
