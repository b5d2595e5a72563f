/-
# Answers

What a response gives to the caller. A created entity without a body is known by
its key alone; a collection is read as the whole output; a single entity is put
under the output's field for it.
-/

import OData.Body.Decode
import OData.Http.Message
import OData.Service.Function
import OData.Target.Reference

namespace OData.Body

open Http (Response)

/-- The status of an answer without a body. -/
def noContent : Nat := 204

/-- The address that a response gives for a new entity. -/
def createdAt? (response : Response) : Option String :=
  (response.headers.get? "OData-EntityId").orElse fun _ => response.headers.get? "Location"

/-- The output for a new entity without a body: its key in the first field. -/
def createdOutput? (output : ComplexType) (response : Response) : Option Record := do
  let location ← createdAt? response
  let field ← output.fields.head?
  return Record.empty.set field.name (.scalar (.text (Target.createdKey location)))

/-- An output has a list of entities, and so is read as a whole. -/
def isCollection (output : ComplexType) : Bool := output.complexFields.any Field.isList

/-- The field for a single entity: the last one that is no list. -/
def entityField? (output : ComplexType) : Option Field :=
  (output.complexFields.filter fun field => !field.isList).getLast?

/-- The output that the body of a response holds. -/
def outputOf (output : ComplexType) (body : ByteArray) : Except Fault (Option Record) :=
  if isCollection output then (decode output body).map some
  else match entityField? output with
    | none => .ok none
    | some field =>
        match field.complex? with
        | none => .ok none
        | some type => do
            let entity ← decode type body
            return some (Record.empty.set field.name (.record entity))

/-- The output of a function for a response. -/
def answer (function : Function) (response : Response) : Except Fault (Option Record) :=
  if response.status = noContent ∧ function.method = .post then
    .ok (createdOutput? function.output response)
  else match response.content? with
    | none => .ok none
    | some body => outputOf function.output body

end OData.Body
