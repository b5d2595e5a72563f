/-
# Association plans

Turning what is bound into what is wanted: one request for each entity that has to
be unbound, then one for each that has to be bound. Nothing is planned for an
entity that is both bound and wanted.
-/

import OData.Association.State
import OData.Http.Message
import OData.Json.Decode
import OData.Json.Diagnosis
import OData.Target.Association
import OData.Target.Reference

namespace OData.Association

open Json (Decoder)
open Target (Site AssociationTarget)
open Http (Request Response)

/-- Segment that addresses the reference to an entity instead of the entity. -/
def referenceSegment : String := "$ref"

/-- Member that holds the address of a referenced entity. -/
def idMember : String := "@odata.id"

/-- A request that works on references, with a JSON body if there is one. It is
never conditional. -/
def referenceRequest (definition : Definition) (method target : String)
    (body : Option ByteArray) : Request :=
  (Request.ofBody method target (body.map fun bytes => (Http.jsonType, bytes))).accepting
    definition.host

/-- The absolute address of an entity of the bound set. -/
def entityUrl (site : Site) (target : AssociationTarget) (key : String) : String :=
  site.definition.root ++ "/" ++ target.collection ++ site.endpoint.keySuffix key

/-- Path of the references of a target. -/
def referencesPath (target : AssociationTarget) : String :=
  target.target ++ "/" ++ referenceSegment

/-- The request for the references that exist. -/
def listRequest (site : Site) (target : AssociationTarget) : Request :=
  referenceRequest site.definition Method.get.name (referencesPath target) none

/-- The request that unbinds an entity. -/
def unbindRequest (site : Site) (target : AssociationTarget) (key : String) : Request :=
  referenceRequest site.definition Method.delete.name
    (target.target ++ site.endpoint.keySuffix key ++ "/" ++ referenceSegment) none

/-- The body that names an entity to bind. -/
def bindBody (site : Site) (target : AssociationTarget) (key : String) : Json :=
  .object [(idMember, .string (entityUrl site target key))]

/-- The verb by which references are created. -/
def bindMethod (site : Site) : Method :=
  if site.endpoint.usePostForRelations then .post else .put

/-- The request that binds an entity. -/
def bindRequest (site : Site) (target : AssociationTarget) (key : String) : Request :=
  referenceRequest site.definition (bindMethod site).name (referencesPath target)
    (some (bindBody site target key).compact.toUTF8)

/-- The bound keys that are not wanted, in order. -/
def unwanted (existing : State) (desired : List String) : List String :=
  existing.keys.filter fun key => !desired.contains key

/-- The wanted keys that are not bound, each once, in order of first occurrence. -/
def lacking (existing : State) (desired : List String) : List String :=
  (Target.distinct desired).filter fun key => !existing.contains key

/-- The requests that turn what is bound into what is wanted. -/
def plan (site : Site) (target : AssociationTarget) (existing : State) (desired : List String) :
    List Request :=
  (unwanted existing desired).map (unbindRequest site target) ++
    (lacking existing desired).map (bindRequest site target)

/-- Every id that the caller names, taken as bound. -/
def assumed (site : Site) (target : AssociationTarget) : State :=
  State.ofList (target.boundIds.map fun key => (key, entityUrl site target key))

/-- Reader of one reference of a listing. -/
def referenceForm : Decoder (Option String) := fun levels document => do
  let (left, slots) ← Json.slots? [idMember] levels document
  match slots with
  | [id] => id.nullable Decoder.text left
  | _ => none

/-- Reader of a listing: the addresses of its references. -/
def listingForm : Decoder (List String) := fun levels document => do
  let (left, slots) ← Json.slots? ["value"] levels document
  match slots with
  | [value] => do
      let ids ← value.withDefault [] (Decoder.list referenceForm) left
      return ids.filterMap id
  | _ => none

/-- What a listing should look like. -/
def listingShape : Json.Shape :=
  .structure_ "ReferenceList" "value" true
    (.list (.structure_ "Reference" idMember false (.nullable .text)))

/-- The state that a listing of references shows. -/
def stateOf (references : List String) : State :=
  State.ofList (references.map fun reference => (Target.referenceKey reference, reference))

/-- What the response to a listing says is bound. Without a body it is nothing. -/
def existing (response : Response) : Except Fault State :=
  match response.content? with
  | none => .ok .empty
  | some body =>
      match (Json.Document.read? body).bind (listingForm Json.greatestDepth) with
      | none => .error (.decode (.references (Json.diagnose listingShape body)))
      | some references => .ok (stateOf references)

end OData.Association
