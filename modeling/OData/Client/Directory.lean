/-
# The directory of clients

The clients that the settings name, each under its id, and the services that they
expose.
-/

import OData.Client.Session
import OData.Service.Catalogue
import OData.Settings

namespace OData.Client

/-- What can go wrong with the clients of the settings. -/
inductive DirectoryFault where
  /-- A client can not be set up. -/
  | setup (client : String) (fault : Fault)
  /-- There is no such client. -/
  | unknownClient (name : String)
  /-- The definition of a client's service is not to be had. -/
  | unresolved (client : String) (fault : Fault)
  /-- A text is not the id of a service. -/
  | notServiceId (text : String)
  /-- There is no such service. -/
  | unknownService (id : String)

/-- Wording of a fault, from its outermost cause to its innermost. -/
def DirectoryFault.chain : DirectoryFault → List String
  | .setup client fault => ["Failed to set up client '" ++ client ++ "'", fault.message]
  | .unknownClient name => ["Client '" ++ name ++ "' not found"]
  | .unresolved client fault =>
      ["Failed to resolve the service definition of '" ++ client ++ "'", fault.message]
  | .notServiceId text => ["'" ++ text ++ "' is not a service id"]
  | .unknownService id => ["Service '" ++ id ++ "' not found"]

/-- What the clients of the settings share with the world. -/
structure World where
  files : Files
  /-- The variables of the environment. -/
  environment : String → Option String
  transport : Transport

/-- The security type of bearer tokens. -/
def bearerType : String := "bearer"

/-- The authenticators that every client of the settings can use. -/
def World.authenticators (world : World) : List (String × Authenticator) :=
  let bearer : Bearer := { environment := world.environment }
  [(bearerType, fun _ request context => .ok (bearer.authenticate request context))]

/-- The client that the settings describe under a name. -/
def World.client (world : World) (general : Monitoring) (name : String)
    (settings : ClientSettings) : Except Fault Client :=
  Setup.client {
    id := name
    resolve := fun _ => Definition.ofFile world.files settings.definition settings.endpoint
    transport := world.transport
    endpoint := settings.endpointSettings
    authenticators := world.authenticators
    entitySets := settings.entitySets
    monitoring := settings.monitoring general }

/-- Clients by id, sorted. -/
structure Directory where
  clients : List (String × Client)

namespace Directory

/-- Put a client among others sorted by id; one of the same id is replaced. -/
def put (name : String) (client : Client) : List (String × Client) → List (String × Client)
  | [] => [(name, client)]
  | (other, kept) :: rest =>
      if name = other then (name, client) :: rest
      else if name < other then (name, client) :: (other, kept) :: rest
      else (other, kept) :: put name client rest

/-- Add a client under its id. -/
def insert (directory : Directory) (client : Client) : Directory :=
  ⟨put client.id client directory.clients⟩

/-- The clients that the settings describe. -/
def ofSettings (world : World) (settings : Settings) : Except DirectoryFault Directory :=
  settings.clients.foldlM (fun directory entry =>
    match world.client settings.monitoring entry.1 entry.2 with
    | .ok client => .ok (directory.insert client)
    | .error fault => .error (.setup entry.1 fault)) ⟨[]⟩

/-- The ids of the clients, sorted. -/
def ids (directory : Directory) : List String := directory.clients.map Prod.fst

/-- The client of an id. -/
def client (directory : Directory) (name : String) : Except DirectoryFault Client :=
  match directory.clients.find? fun entry => entry.1 == name with
  | some entry => .ok entry.2
  | none => .error (.unknownClient name)

/-- The services that a client exposes. -/
def services (directory : Directory) (name : String) :
    Except DirectoryFault (List ServiceDescriptor) := do
  let client ← directory.client name
  match client.resolve [] with
  | .ok definition => return Catalogue.services client.id definition client.entitySets
  | .error fault => throw (.unresolved name fault)

/-- The service of an id, and the client that exposes it. -/
def service (directory : Directory) (id : String) :
    Except DirectoryFault (Client × ServiceDescriptor) :=
  match Text.cut? Catalogue.idMark id with
  | none => .error (.notServiceId id)
  | some (name, _) => do
      let client ← directory.client name
      let services ← directory.services name
      match services.find? fun service => service.id == id with
      | some service => return (client, service)
      | none => throw (.unknownService id)

end Directory

end OData.Client
