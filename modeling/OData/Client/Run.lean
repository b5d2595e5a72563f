/-
# Calls

Running a function against its service. All that can be checked is checked before
anything is sent: the definition, the target, the links and the body. Every single
request is authenticated, offered to the caller's hook, logged and sent, and only
a status of success lets the call go on. Nothing is tried twice or taken back.
-/

import OData.Association.Plan
import OData.Body.Answer
import OData.Body.Encode
import OData.Body.Link
import OData.Client.Session

namespace OData.Client

open Http (Request Response)
open Target (Site AssociationTarget)

/-- Log an event of a call, if its kind and weight are wanted. -/
def Operation.log (operation : Operation) (wanted : Bool) (event : LogEvent) : Action Unit :=
  if wanted then Action.note (.logged ⟨operation.number, operation.name, event⟩)
  else Action.compute (.ok ())

/-- The definition of the service. It is asked for until it is had, and then kept. -/
def definition (client : Client) : Action Definition := do
  match (← get).definition with
  | some known => return known
  | none =>
      let found ← Action.ask .resolved client.resolve
      modify fun session => { session with definition := some found }
      return found

/-- Have a request authenticated, when the endpoint asks for it. -/
def authenticate (client : Client) (request : Request) : Action Request := do
  match client.endpoint.securityType with
  | none => return request
  | some securityType =>
      match client.authenticator with
      | none => throw (.auth (.unavailable securityType))
      | some authenticator =>
          let verdict ← Action.ask (.authenticated request) fun history =>
            authenticator history request client.endpoint.securityContext
          if verdict.accepted then return verdict.request
          else throw (.auth (.refused securityType verdict.request.method verdict.request.target))

/-- Offer a request to the caller's hook, if there is one. -/
def amend (client : Client) (request : Request) : Action Request := do
  match client.amendment with
  | none => return request
  | some amendment =>
      Action.ask (.offered request) fun history => amendment history client.id request

/-- Hand a request to the transport, and log both ways. -/
def transmit (client : Client) (definition : Definition) (operation : Operation)
    (request : Request) : Action Response := do
  operation.log client.monitoring.logsRequests
    (.requested request.method request.target (shownHeaders request.headers)
      (request.body.map ByteArray.size))
  let dispatch : Dispatch :=
    ⟨request, definition.host, definition.usesTls, operation.transaction⟩
  let response ← Action.ask (.sent dispatch) fun history => client.transport history dispatch
  operation.log client.monitoring.logsRequests
    (.responded response.status (shownHeaders response.headers))
  return response

/-- Send one request. Only a status of success is no fault. -/
def send (client : Client) (definition : Definition) (operation : Operation) (request : Request) :
    Action Response := do
  let authenticated ← client.authenticate request
  let amended ← client.amend authenticated
  let response ← client.transmit definition operation amended
  if response.isSuccess then return response
  else throw (.protocol response.status response.contentText?)

/-- Send requests in order, up to the first fault. -/
def sendAll (client : Client) (definition : Definition) (operation : Operation) :
    List Request → Action Unit
  | [] => return ()
  | request :: rest => do
      let _ ← client.send definition operation request
      sendAll client definition operation rest

/-- What is bound before an association verb does its work: what the server says,
nothing, or everything that is to be unbound. -/
def boundBefore (client : Client) (site : Site) (operation : Operation)
    (mode : AssociationMode) (target : AssociationTarget) : Action Association.State := do
  match mode with
  | .merge =>
      let listing ← client.send site.definition operation (Association.listRequest site target)
      Action.compute (Association.existing listing)
  | .add => return .empty
  | .remove => return Association.assumed site target

/-- What is to be bound after an association verb did its work. -/
def boundAfter (mode : AssociationMode) (target : AssociationTarget) : List String :=
  match mode with
  | .remove => []
  | _ => target.boundIds

/-- Turn what is bound into what is wanted. -/
def associate (client : Client) (site : Site) (operation : Operation) (mode : AssociationMode)
    (target : AssociationTarget) : Action Unit := do
  let existing ← client.boundBefore site operation mode target
  client.sendAll site.definition operation
    (Association.plan site target existing (boundAfter mode target))

/-- The entity that an input holds for a function, with its type. -/
def entityOf? (function : Function) (input : Option Record) : Option (ComplexType × Record) := do
  let field ← function.input.bodyField?
  let type ← field.complex?
  let record ← (← (← input).value? field.name).record?
  return (type, record)

/-- The body of a request for a function. Verbs that write entities have their
links set first. -/
def bodyOf (client : Client) (definition : Definition) (function : Function)
    (input : Option Record) : Except Fault (Option (String × ByteArray)) :=
  match entityOf? function input with
  | none => .ok none
  | some (type, record) => do
      let linked ←
        if function.method.writesEntity then
          Body.setLinks ⟨definition, client.registry⟩ type record
        else .ok record
      let bytes ← Body.encode type linked
      return some (Http.jsonType, bytes)

/-- The request of a regular verb. Changes to entities are made on condition that
the entity exists, unless versions are ignored. -/
def entityRequest (site : Site) (method : Method) (target : String)
    (body : Option (String × ByteArray)) : Request :=
  let request := (Request.ofBody method.name target body).accepting site.definition.host
  if method.isConditional && !site.endpoint.ignoreEtag then request.setHeader "If-Match" "*"
  else request

/-- The single request that a function with a regular verb makes. -/
def requestOf (client : Client) (site : Site) (function : Function) (input : Option Record) :
    Except Fault Request := do
  let target ← site.entityTarget function input
  let body ← client.bodyOf site.definition function input
  return entityRequest site function.method target body

/-- Do what a function asks for. -/
def execute (client : Client) (definition : Definition) (function : Function)
    (input : Option Record) (operation : Operation) : Action (Option Record) := do
  let site : Site := ⟨definition, client.endpoint⟩
  match function.method.mode? with
  | some mode =>
      let target ← Action.compute (site.associationTarget function input)
      client.associate site operation mode target
      return some .empty
  | none =>
      let request ← Action.compute (client.requestOf site function input)
      let response ← client.send definition operation request
      Action.compute (Body.answer function response)

/-- The transaction of a call: the caller's, or the one that the input names. -/
def transactionOf (input : Option Record) (transaction : Option String) : Option String :=
  transaction.orElse fun _ =>
    (input.bind (·.value? Query.names.transaction)).bind Value.plain?

/-- Begin to follow a call. -/
def begin (client : Client) (function : Function) (transaction : Option String) :
    Action Operation := do
  let number := (← get).nextNumber
  modify fun session => { session with nextNumber := number + 1 }
  let operation : Operation :=
    ⟨number, function.qualifiedName, function.method.name, transaction⟩
  operation.log (client.monitoring.logs .info)
    (.started operation.method operation.transaction)
  return operation

/-- Log how a call ended. -/
def finish {α : Type} (client : Client) (operation : Operation) : Except Fault α → Action Unit
  | .ok _ => operation.log (client.monitoring.logs .info) (.completed operation.method)
  | .error fault => operation.log (client.monitoring.logs .error)
      (.failed operation.method fault.status? fault.message)

/-- Run a function and give its output. -/
def run (client : Client) (function : Function) (input : Option Record)
    (transaction : Option String) : Action (Option Record) := do
  let definition ← client.definition
  let operation ← client.begin function (transactionOf input transaction)
  let result ← (client.execute definition function input operation).outcome
  client.finish operation result
  Action.compute result

/-- Run the function of a name on an entity set. -/
def runNamed (client : Client) (context name : String) (input : Option Record)
    (transaction : Option String) : Action (Option Record) := do
  let definition ← client.definition
  match definition.function? context name with
  | none => throw (.schema (.unknownFunction context name))
  | some function => client.run function input transaction

end OData.Client
