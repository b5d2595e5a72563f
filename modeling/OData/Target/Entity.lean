/-
# Targets of entities

Path and query of a request: the base path, a segment for each parent, the
context of the function, the key of the entity, and the query options.
-/

import OData.Service.Definition
import OData.Target.Template

namespace OData.Target

/-- Mark of the fields and filter keys that hold the id of a parent. -/
def parentMark : String := "@odata.parent.id"

/-- The entity set that a field or filter key holds a parent id of. -/
def parentSet? (name : String) : Option String :=
  match Text.cut? parentMark name with
  | some (set, _) => if set.isEmpty then none else some set
  | none => none

/-- A service together with the way it is spoken to. -/
structure Site where
  definition : Definition
  endpoint : Endpoint

/-- The type by which parent ids are read: that of the entity in the input, or
else in the output. -/
def entityType? (function : Function) : Option ComplexType :=
  (function.input.bodyField?.orElse fun _ => function.output.bodyField?).bind Field.complex?

/-- Text of a parent id: by its declared field, or as any scalar. -/
def parentKey (type : Option ComplexType) (name : String) (value : Value) :
    Except Fault String :=
  match type.bind (·.field? name) with
  | some field => field.type.text value
  | none =>
      match value.plain? with
      | some text => .ok text
      | none => .error (.schema (.parentId name))

namespace Site

/-- The base path of the service for an input. -/
def basePath (site : Site) (input : Option Record) : String :=
  substitute site.definition.basePath input

/-- The segments of the parents whose ids are the values of a name. -/
def parentSegments (site : Site) (type : Option ComplexType) (name set : String)
    (values : List Value) : Except Fault (List String) :=
  values.mapM fun value => do
    let key ← parentKey type name value
    return "/" ++ set ++ site.endpoint.keySuffix key

/-- The segments of the parents that the record of an entity names. -/
def recordParents (site : Site) (type : Option ComplexType) (record : Record) :
    Except Fault (List String) := do
  let segments ← record.fields.mapM fun field =>
    match parentSet? field.1 with
    | none => .ok []
    | some set => site.parentSegments type field.1 set field.2.flatten
  return segments.flatten

/-- The segments of the parents that the entities of an input name. -/
def bodyParents (site : Site) (function : Function) (input : Option Record) :
    Except Fault (List String) := do
  let segments ← function.input.complexFields.mapM fun field =>
    match (input.bind (·.value? field.name)).bind Value.record? with
    | none => .ok []
    | some record => site.recordParents field.complex? record
  return segments.flatten

/-- The clause names a parent instead of a condition. -/
def isParentClause (clause : Filter.Clause) : Bool :=
  (clause.key.bind parentSet?).isSome

/-- The segments of the parents that a clause names; nulls name none. -/
def clauseParents (site : Site) (type : Option ComplexType) (clause : Filter.Clause) :
    Except Fault (List String) :=
  match clause.key with
  | none => .ok []
  | some key =>
      match parentSet? key with
      | none => .ok []
      | some set =>
          site.parentSegments type key set
            ((clause.values.map Filter.Literal.toValue).filter fun value => !value.isNull)

/-- The segments of the parents that the filter of an input names. -/
def filterParents (site : Site) (function : Function) (clauses : List Filter.Clause) :
    Except Fault (List String) := do
  let segments ← clauses.mapM (site.clauseParents (entityType? function))
  return segments.flatten

/-- A primary key after the entity set. Keys of string type stand in quotes,
unless keys are segments. -/
def keyPart (site : Site) (field : Field) (key : String) : String :=
  if site.endpoint.keyAsSegment then "/" ++ key
  else if field.type.isQuoted then "(" ++ Text.quote key ++ ")"
  else "(" ++ key ++ ")"

/-- The primary keys of the entity that an input names. -/
def keyParts (site : Site) (function : Function) (input : Option Record) :
    Except Fault (List String) :=
  (function.input.fields.filter Field.primaryKey).mapM fun field =>
    match input.bind (·.value? field.name) with
    | none => .error (.schema (.missingKey field.name))
    | some value => do
        let key ← field.type.text value
        return site.keyPart field key

/-- Path and query of a function with a regular verb. -/
def entityTarget (site : Site) (function : Function) (input : Option Record) :
    Except Fault String := do
  let bodyParents ← site.bodyParents function input
  let options ← Query.Options.ofInput input
  let filterParents ← site.filterParents function options.filters
  let context ← function.requireContext
  let keys ← site.keyParts function input
  let conditions :=
    { options with filters := options.filters.filter fun clause => !isParentClause clause }
  let asked := if function.method = .get then conditions.expanding function.output else conditions
  let query ← asked.queryString
  return site.basePath input ++ String.join bodyParents ++ String.join filterParents ++ "/" ++
    context ++ String.join keys ++ query

end Site

end OData.Target
