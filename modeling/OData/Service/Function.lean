/-
# Functions

One operation that a service exposes: a verb, the entity set it works on, and the
shapes of its input and output.
-/

import OData.Json.Print
import OData.Schema.Form
import OData.Service.Method

namespace OData

open Json (Decoder)

/-- An exposed operation. -/
structure Function where
  name : String
  method : Method
  /-- The entity set, or the navigation property, that the function works on. -/
  context : Option String
  input : ComplexType
  output : ComplexType

namespace Function

/-- The context, which everything that is sent must have. -/
def requireContext (function : Function) : Except Fault String :=
  match function.context with
  | some context =>
      if context.isEmpty then .error (.schema (.missingContext function.name)) else .ok context
  | none => .error (.schema (.missingContext function.name))

/-- The name of the function after its context. -/
def qualifiedName (function : Function) : String :=
  match function.context with
  | some context => context ++ "." ++ function.name
  | none => function.name

/-- Reader of a written verb. -/
def methodForm : Decoder Method := fun levels document => do
  let (name, content) ← Json.variant? levels document
  if Json.isBare content then Method.ofName? name else none

/-- A complex type without name and fields. -/
def shapeless : ComplexType := { name := "" }

/-- Reader of a written function. -/
def form : Decoder Function := fun levels document => do
  let (left, slots) ←
    Json.slots? ["name", "method", "context", "input", "output"] levels document
  match slots with
  | [name, method, context, input, output] =>
      return {
        name := ← name.required Decoder.text left
        method := ← method.required methodForm left
        context := ← context.optional Decoder.text left
        input := ← input.withDefault shapeless Schema.complexType left
        output := ← output.withDefault shapeless Schema.complexType left }
  | _ => none

/-- JSON form of a function. -/
def toJson (function : Function) : Json := .object [
  ("name", .string function.name),
  ("method", .string function.method.name),
  ("context", Json.ofText function.context),
  ("input", function.input.toJson),
  ("output", function.output.toJson)]

end Function

end OData
