/-
# Settings

The configuration file: one table for each client, and one for what is logged.
-/

import OData.Client.Log
import OData.Service.Endpoint
import OData.Toml.Printer
import OData.Toml.Reader

namespace OData

/-- Settings of one client. -/
structure ClientSettings where
  /-- Address of the service, which replaces the one in the definition. -/
  endpoint : Option String
  /-- File that holds the definition. -/
  definition : String
  charset : String
  keyAsSegment : Bool
  ignoreEtag : Bool
  usePostForRelations : Bool
  securityType : Option String
  securityContext : Option String
  /-- The entity sets whose functions are exposed as services. -/
  entitySets : List String
  /-- Requests of this client are logged in any case. -/
  requestLogging : Bool
  deriving DecidableEq

/-- The settings of all clients. -/
structure Settings where
  /-- The clients, sorted by name. -/
  clients : List (String × ClientSettings) := []
  monitoring : Monitoring := {}
  deriving DecidableEq

namespace ClientSettings

/-- The settings of the endpoint. -/
def endpointSettings (client : ClientSettings) : Endpoint := {
  charset := client.charset
  keyAsSegment := client.keyAsSegment
  ignoreEtag := client.ignoreEtag
  usePostForRelations := client.usePostForRelations
  securityType := client.securityType
  securityContext := client.securityContext }

/-- What is logged of this client, on top of what is logged of all. -/
def monitoring (client : ClientSettings) (general : Monitoring) : Monitoring :=
  { general with requestLogging := general.requestLogging || client.requestLogging }

/-- A member that has a default. -/
def withDefault {α : Type} (default : α) (read : Toml → Option α) : Option Toml → Option α
  | none => some default
  | some value => read value

/-- A member that may be missing. -/
def optional {α : Type} (read : Toml → Option α) : Option Toml → Option (Option α)
  | none => some none
  | some value => (read value).map some

/-- The members of a client's table. -/
def memberNames : List String :=
  ["endpoint", "definition", "charset", "key_as_segment", "ignore_etag",
   "use_post_for_relations", "security_type", "security_context", "entity_sets",
   "request_logging"]

/-- The settings in a client's table. -/
def ofToml (toml : Toml) : Option ClientSettings := do
  let slots ← Toml.slots? memberNames toml
  match slots with
  | [endpoint, definition, charset, keyAsSegment, ignoreEtag, usePostForRelations, securityType,
     securityContext, entitySets, requestLogging] =>
      return {
        endpoint := ← optional Toml.string? endpoint
        definition := ← definition.bind Toml.string?
        charset := ← withDefault "UTF-8" Toml.string? charset
        keyAsSegment := ← withDefault false Toml.boolean? keyAsSegment
        ignoreEtag := ← withDefault false Toml.boolean? ignoreEtag
        usePostForRelations := ← withDefault false Toml.boolean? usePostForRelations
        securityType := ← optional Toml.string? securityType
        securityContext := ← optional Toml.string? securityContext
        entitySets := ← withDefault [] Toml.strings? entitySets
        requestLogging := ← withDefault false Toml.boolean? requestLogging }
  | _ => none

/-- A line with a text, if there is one. -/
def textLine (key : String) : Option String → String
  | none => ""
  | some value => Toml.line key (Toml.quoted value)

/-- The lines of a client's table. -/
def lines (client : ClientSettings) : String :=
  textLine "endpoint" client.endpoint ++
  Toml.line "definition" (Toml.quoted client.definition) ++
  Toml.line "charset" (Toml.quoted client.charset) ++
  Toml.line "key_as_segment" (Toml.flag client.keyAsSegment) ++
  Toml.line "ignore_etag" (Toml.flag client.ignoreEtag) ++
  Toml.line "use_post_for_relations" (Toml.flag client.usePostForRelations) ++
  textLine "security_type" client.securityType ++
  textLine "security_context" client.securityContext ++
  Toml.line "entity_sets" (Toml.textArray client.entitySets) ++
  Toml.line "request_logging" (Toml.flag client.requestLogging)

end ClientSettings

namespace Settings

/-- Put a client among clients sorted by name. -/
def insertClient (name : String) (client : ClientSettings) :
    List (String × ClientSettings) → List (String × ClientSettings)
  | [] => [(name, client)]
  | (other, kept) :: rest =>
      if name = other then (name, client) :: rest
      else if name < other then (name, client) :: (other, kept) :: rest
      else (other, kept) :: insertClient name client rest

/-- The clients of a file. -/
def clientsOf (toml : Toml) : Option (List (String × ClientSettings)) := do
  let entries ← toml.entries?
  let clients ← entries.mapM fun entry => (ClientSettings.ofToml entry.2).map fun client =>
    (entry.1, client)
  return clients.foldl (fun sorted entry => insertClient entry.1 entry.2 sorted) []

/-- What a file says about logging. -/
def monitoringOf (toml : Toml) : Option Monitoring := do
  let slots ← Toml.slots? ["request_logging", "log_level"] toml
  match slots with
  | [requestLogging, logLevel] =>
      return {
        requestLogging := ← ClientSettings.withDefault true Toml.boolean? requestLogging
        logLevel := ← ClientSettings.withDefault .info
          (fun level => level.string?.bind LogLevel.ofName?) logLevel }
  | _ => none

/-- The settings in a file. -/
def read? (content : String) : Option Settings := do
  let toml ← Toml.read? content
  let slots ← Toml.slots? ["clients", "monitoring"] toml
  match slots with
  | [clients, monitoring] =>
      return {
        clients := ← ClientSettings.withDefault [] clientsOf clients
        monitoring := ← ClientSettings.withDefault {} monitoringOf monitoring }
  | _ => none

/-- The table of a client, and the blank line after it. -/
def clientTable (entry : String × ClientSettings) : String :=
  Toml.headerLine ["clients", entry.1] ++ entry.2.lines ++ "\n"

/-- The tables of the clients. Without clients, an empty table stands for them. -/
def clientTables (clients : List (String × ClientSettings)) : String :=
  if clients.isEmpty then Toml.headerLine ["clients"] ++ "\n"
  else String.join (clients.map clientTable)

/-- The file that holds the settings. -/
def save (settings : Settings) : String :=
  clientTables settings.clients ++
    Toml.headerLine ["monitoring"] ++
    Toml.line "request_logging" (Toml.flag settings.monitoring.requestLogging) ++
    Toml.line "log_level" (Toml.quoted settings.monitoring.logLevel.name)

/-- Stand-in for the position and the cause that a malformed file is reported with. -/
def malformedText : String := "<toml>"

end Settings

end OData
