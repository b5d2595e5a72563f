/-
# Query options

The options that an input record asks for, under well-known field names, and the
query string that they make. Options stand in one fixed order, each at most once.
The items of an ordering are encoded one by one, so that the commas between them are
the only ones in its value.
-/

import OData.Filter.Expression
import OData.Number.Numeral
import OData.Text.Character
import OData.Text.Escaped

namespace OData.Query

/-! ## Ordering -/

/-- One item of an ordering. -/
inductive OrderItem where
  /-- Smallest first. -/
  | ascending (field : String)
  /-- Greatest first. -/
  | descending (field : String)
  /-- An item as it was given. -/
  | given (item : String)

namespace OrderItem

/-- Text of an item. -/
def text : OrderItem → String
  | .ascending field => field ++ " asc"
  | .descending field => field ++ " desc"
  | .given item => item

end OrderItem

/-- The items of an ordering, the first one first. -/
abbrev OrderBy := List OrderItem

namespace OrderBy

/-- The ordering that a value describes: an item, or a list of items. Records and
empty items are passed over. -/
def ofValue (value : Value) : OrderBy :=
  ((value.flatten.filterMap Value.plain?).filter fun item => !item.isEmpty).map .given

/-- The encoded value of `$orderby`; none without items. -/
def queryValue? (items : OrderBy) : Option String :=
  if items.isEmpty then none
  else some (",".intercalate (items.map fun item => Text.percentEncode item.text))

end OrderBy

/-! ## Options -/

/-- Well-known fields of an input record. -/
structure FieldNames where
  limit : String := "limit"
  offset : String := "offset"
  totalCount : String := "totalCount"
  search : String := "search"
  orderBy : String := "orderBy"
  filter : String := "filter"
  filters : String := "filters"
  path : String := "path"
  transaction : String := "transactionId"
  entityId : String := "entityId"
  boundIds : String := "boundIds"

/-- The names of the well-known fields. -/
def names : FieldNames := {}

/-- The options of a query. -/
structure Options where
  limit : Option Int64 := none
  offset : Option Int64 := none
  totalCount : Option Bool := none
  search : Option String := none
  orderBy : OrderBy := []
  /-- An expression as it was given, which wins over the clauses. -/
  filter : Option String := none
  filters : List Filter.Clause := []
  /-- Navigation properties to expand. -/
  expand : List String := []

/-- The integer that a value is, or that its text stands for. -/
def integer? : Value → Option Int64
  | .scalar (.integer value) => some value
  | .scalar (.text value) => Number.readInt64? value
  | _ => none

/-- An option that has to be an integer. -/
def integerOption (input : Record) (name : String) : Except Fault (Option Int64) :=
  match input.value? name with
  | none => .ok none
  | some value =>
      match integer? value with
      | some number => .ok (some number)
      | none => .error (.schema (.notInteger name))

/-- An option that has to be a truth value. -/
def booleanOption (input : Record) (name : String) : Except Fault (Option Bool) :=
  match input.value? name with
  | none => .ok none
  | some value =>
      match value.boolean? with
      | some flag => .ok (some flag)
      | none => .error (.schema (.notBoolean name))

/-- An option that is taken as text when it is a scalar. -/
def textOption (input : Record) (name : String) : Option String :=
  (input.value? name).bind Value.plain?

/-- The clauses that an input record asks for. -/
def clausesOption (input : Record) : Except Fault (List Filter.Clause) :=
  match input.value? names.filters with
  | none => .ok []
  | some value => Filter.clausesOf value

namespace Options

/-- The options of an input record. -/
def ofRecord (input : Record) : Except Fault Options := do
  let totalCount ← booleanOption input names.totalCount
  let limit ← integerOption input names.limit
  let offset ← integerOption input names.offset
  let filters ← clausesOption input
  return {
    limit := limit
    offset := offset
    totalCount := totalCount
    search := textOption input names.search
    orderBy := ((input.value? names.orderBy).map OrderBy.ofValue).getD []
    filter := textOption input names.filter
    filters := filters }

/-- The options of an input, if there is one. -/
def ofInput : Option Record → Except Fault Options
  | none => .ok {}
  | some input => ofRecord input

/-- The options with the properties to expand that an output declares. -/
def expanding (options : Options) (output : ComplexType) : Options :=
  { options with
    expand := ((output.fields.filterMap Field.expand).map Text.trim).filter fun name =>
      !name.isEmpty }

/-- The filter expression that applies. A blank one does not. -/
def filterExpression (options : Options) : Except Fault (Option String) := do
  let expression ← match options.filter with
    | some filter => .ok (some filter)
    | none =>
        if options.filters.isEmpty then .ok none
        else (Filter.compile options.filters).map some
  return expression.filter fun text => !Text.isBlankText text

/-- One parameter of a query string: its name, and its value already encoded. -/
structure Parameter where
  name : String
  value : String

/-- The options that apply, in order. -/
def parameters (options : Options) : Except Fault (List Parameter) := do
  let expression ← options.filterExpression
  let given : List (Option Parameter) := [
    options.limit.map fun limit => ⟨"$top", toString limit.toInt⟩,
    options.offset.map fun offset => ⟨"$skip", toString offset.toInt⟩,
    options.totalCount.map fun count => ⟨"$count", Scalar.boolText count⟩,
    options.search.map fun search => ⟨"$search", Text.percentEncode search⟩,
    options.orderBy.queryValue?.map fun items => ⟨"$orderby", items⟩,
    expression.map fun filter => ⟨"$filter", Text.percentEncode filter⟩,
    if options.expand.isEmpty then none
    else some ⟨"$expand", Text.percentEncode (",".intercalate options.expand)⟩]
  return given.filterMap id

/-- The query string: empty, or a question mark and the parameters. -/
def queryString (options : Options) : Except Fault String := do
  let parameters ← options.parameters
  if parameters.isEmpty then return ""
  else return "?" ++ "&".intercalate (parameters.map fun p => p.name ++ "=" ++ p.value)

end Options

end OData.Query
