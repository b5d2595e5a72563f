/-
# Filter files

Clauses written as a JSON list of objects with the members `key`, `operator`,
`values`, `or` and `caseInsensitive`.
-/

import OData.Filter.Clause
import OData.Json.Decode

namespace OData.Filter

open Json (Decoder)

/-- A clause as it is written, its values still JSON. -/
structure Entry where
  key : Option String
  operator : String
  values : List Json
  joinsByOr : Bool
  ignoresCase : Bool

namespace Entry

/-- Reader of a written clause. -/
def form : Decoder Entry := fun levels document => do
  let (left, slots) ←
    Json.slots? ["key", "operator", "values", "or", "caseInsensitive"] levels document
  match slots with
  | [key, operator, values, joinsByOr, ignoresCase] =>
      return {
        key := ← key.nullable Decoder.text left
        operator := ← operator.withDefault "=" Decoder.text left
        values := ← values.withDefault [] (Decoder.list Decoder.value) left
        joinsByOr := ← joinsByOr.withDefault false Decoder.boolean left
        ignoresCase := ← ignoresCase.withDefault false Decoder.boolean left }
  | _ => none

end Entry

/-- Why a filter file is refused. -/
inductive FileFault where
  /-- It is not a list of clauses. -/
  | malformed
  /-- A value is an object or an array. -/
  | valueNotScalar (json : Json)

/-- The literal of a JSON value. Integers that do not fit 64 bits are floats. -/
def literalOf : Json → Except FileFault Literal
  | .null => .ok none
  | .boolean value => .ok (some (.boolean value))
  | .number number =>
      match number.int64? with
      | some value => .ok (some (.integer value))
      | none => .ok (some (.decimal number.toFloat))
  | .string value => .ok (some (.text value))
  | json => .error (.valueNotScalar json)

/-- The clause of an entry. -/
def Entry.clause (entry : Entry) : Except FileFault Clause := do
  let values ← entry.values.mapM literalOf
  return {
    key := entry.key
    operator := entry.operator
    values := values
    joinsByOr := entry.joinsByOr
    ignoresCase := entry.ignoresCase }

/-- The clauses of a filter file. -/
def readClauses (content : String) : Except FileFault (List Clause) :=
  match (Decoder.list Entry.form).readText? content with
  | none => .error .malformed
  | some entries => entries.mapM Entry.clause

end OData.Filter
