/-
# Sessions

A client and the world around it. Everything that the client asks of the world,
and everything that it logs, is kept in order as a history; the world's answers
may depend on all of it. A fault ends a call but never loses its history.
-/

import OData.Client.Credentials
import OData.Client.Log
import OData.Service.Address

namespace OData

open Http (Request Response)

namespace Client

/-- A request as it is handed to the transport. -/
structure Dispatch where
  request : Request
  host : String
  /-- The connection is encrypted. -/
  secure : Bool
  transaction : Option String

/-- One thing that happened to a client. -/
inductive Happening where
  /-- The source of the definition was asked. -/
  | resolved
  /-- The authenticator was asked about a request. -/
  | authenticated (request : Request)
  /-- The caller's hook was given a request to change. -/
  | offered (request : Request)
  /-- A request was handed to the transport. -/
  | sent (dispatch : Dispatch)
  /-- An event was logged. -/
  | logged (entry : LogEntry)

/-- All that happened to a client, the first thing first. -/
abbrev History := List Happening

namespace History

/-- The requests that were handed to the transport. -/
def sent (history : History) : List Dispatch :=
  history.filterMap fun happening =>
    match happening with
    | .sent dispatch => some dispatch
    | _ => none

/-- The entries of the log. -/
def log (history : History) : List LogEntry :=
  history.filterMap fun happening =>
    match happening with
    | .logged entry => some entry
    | _ => none

/-- How often the source of the definition was asked. -/
def resolutions (history : History) : Nat :=
  history.countP fun happening =>
    match happening with
    | .resolved => true
    | _ => false

/-- How often the authenticator was asked. -/
def authentications (history : History) : Nat :=
  history.countP fun happening =>
    match happening with
    | .authenticated _ => true
    | _ => false

/-- How often the caller's hook was given a request. -/
def offers (history : History) : Nat :=
  history.countP fun happening =>
    match happening with
    | .offered _ => true
    | _ => false

end History

/-- Decides about requests by all that happened before. -/
abbrev Authenticator := History → Request → Option String → Except Fault Verdict

/-- The caller's hook, which may change any request before it is sent. -/
abbrev Amendment := History → (clientId : String) → Request → Except Fault Request

/-- Carries a request to a host and brings the response. -/
abbrev Transport := History → Dispatch → Except Fault Response

end Client

/-- A client of one service. -/
structure Client where
  id : String
  endpoint : Endpoint
  /-- The source of the service's definition. -/
  resolve : Client.History → Except Fault Definition
  transport : Client.Transport
  authenticator : Option Client.Authenticator
  amendment : Option Client.Amendment
  /-- Types that are looked up before those of the definition. -/
  registry : Option (String → Option ComplexType)
  /-- The entity sets whose functions are exposed as services. -/
  entitySets : List String
  monitoring : Monitoring

namespace Client

/-- What a client is set up from. -/
structure Setup where
  id : String
  resolve : History → Except Fault Definition
  transport : Transport
  endpoint : Endpoint := {}
  /-- The authenticator for every security type. -/
  authenticator : Option Authenticator := none
  /-- Authenticators by security type, when there is none for all. -/
  authenticators : List (String × Authenticator) := []
  amendment : Option Amendment := none
  registry : Option (String → Option ComplexType) := none
  entitySets : List String := []
  monitoring : Monitoring := {}

/-- The authenticator registered last for a security type. -/
def authenticatorFor? (authenticators : List (String × Authenticator)) (securityType : String) :
    Option Authenticator :=
  (authenticators.reverse.find? fun entry => entry.1 == securityType).map Prod.snd

/-- Set a client up. Only its charset can be wrong; an authenticator that is
missing shows at the first request. -/
def Setup.client (setup : Setup) : Except Fault Client := do
  setup.endpoint.validate
  return {
    id := setup.id
    endpoint := setup.endpoint
    resolve := setup.resolve
    transport := setup.transport
    authenticator := setup.authenticator.orElse fun _ =>
      setup.endpoint.securityType.bind (authenticatorFor? setup.authenticators)
    amendment := setup.amendment
    registry := setup.registry
    entitySets := setup.entitySets
    monitoring := setup.monitoring }

/-- What a client keeps between calls. -/
structure Session where
  /-- All that happened. -/
  history : History := []
  /-- The definition, once it was resolved. -/
  definition : Option Definition := none
  /-- Number of the next call. -/
  nextNumber : Nat := 0

/-- A step of a call: it may end in a fault, and always leaves its history. -/
abbrev Action (α : Type) := ExceptT Fault (StateM Session) α

namespace Action

/-- Note that something happened. -/
def note (happening : Happening) : Action Unit :=
  modify fun session => { session with history := session.history ++ [happening] }

/-- An answer of the world to all that happened before. -/
def ask {α : Type} (happening : Happening) (answer : History → Except Fault α) : Action α := do
  let history := (← get).history
  note happening
  ExceptT.mk (pure (answer history))

/-- A computation that the world has no part in. -/
def compute {α : Type} (result : Except Fault α) : Action α := ExceptT.mk (pure result)

/-- The outcome of an action, which itself does not end in a fault. -/
def outcome {α : Type} (action : Action α) : Action (Except Fault α) :=
  ExceptT.mk (do return .ok (← action.run))

end Action

end Client

end OData
