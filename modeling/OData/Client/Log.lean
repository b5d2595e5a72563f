/-
# The log

The events that a call leaves behind. All events of a call carry its number, so
they can be followed through the log. Headers that hold credentials are shown
without their values.
-/

import OData.Http.Message
import OData.Json.Decode
import OData.Text.Search

namespace OData

open Json (Decoder)

/-- How much weight an event has, the heaviest first. -/
inductive LogLevel where
  | error
  | warn
  | info
  | debug
  | trace
  deriving DecidableEq

namespace LogLevel

/-- Name of a level. -/
def name : LogLevel → String
  | .error => "error"
  | .warn => "warn"
  | .info => "info"
  | .debug => "debug"
  | .trace => "trace"

/-- Every level. -/
def all : List LogLevel := [.error, .warn, .info, .debug, .trace]

/-- The level of a name. -/
def ofName? (name : String) : Option LogLevel := all.find? fun level => level.name == name

/-- Position of a level, the heaviest first. -/
def rank : LogLevel → Nat
  | .error => 0
  | .warn => 1
  | .info => 2
  | .debug => 3
  | .trace => 4

end LogLevel

/-- What is logged. -/
structure Monitoring where
  /-- Single requests and responses are logged too. -/
  requestLogging : Bool := true
  /-- The lightest events that are logged. -/
  logLevel : LogLevel := .info
  deriving DecidableEq

namespace Monitoring

/-- Events of a level are logged. -/
def logs (monitoring : Monitoring) (level : LogLevel) : Bool :=
  level.rank ≤ monitoring.logLevel.rank

/-- Single requests and responses are logged. -/
def logsRequests (monitoring : Monitoring) : Bool :=
  monitoring.requestLogging && monitoring.logs .debug

/-- Reader of a written level. -/
def levelForm : Decoder LogLevel := fun levels document => do
  let (name, content) ← Json.variant? levels document
  if Json.isBare content then LogLevel.ofName? name else none

/-- Reader of written settings; each has a default. -/
def form : Decoder Monitoring := fun levels document => do
  let (left, slots) ← Json.slots? ["request_logging", "log_level"] levels document
  match slots with
  | [requestLogging, logLevel] =>
      return {
        requestLogging := ← requestLogging.withDefault true Decoder.boolean left
        logLevel := ← logLevel.withDefault .info levelForm left }
  | _ => none

/-- JSON form of the settings. -/
def toJson (monitoring : Monitoring) : Json := .object [
  ("request_logging", .boolean monitoring.requestLogging),
  ("log_level", .string monitoring.logLevel.name)]

end Monitoring

namespace Client

/-- A function call that is being followed. -/
structure Operation where
  /-- Number of the call, by which its events are found. -/
  number : Nat
  /-- Qualified name of the function. -/
  name : String
  /-- Name of its verb. -/
  method : String
  /-- The transaction that the call belongs to. -/
  transaction : Option String

/-- What happened in a call. -/
inductive LogEvent where
  /-- The call began. -/
  | started (method : String) (transaction : Option String)
  /-- A request is handed to the transport. -/
  | requested (method target : String) (headers : List (String × String))
      (bodyLength : Option Nat)
  /-- The transport brought a response. -/
  | responded (status : Nat) (headers : List (String × String))
  /-- The call ended well. -/
  | completed (method : String)
  /-- The call ended in a fault. -/
  | failed (method : String) (status : Option Nat) (message : String)

/-- An entry of the log. -/
structure LogEntry where
  /-- Number of the call that the entry belongs to. -/
  number : Nat
  /-- Qualified name of the function that was called. -/
  operation : String
  event : LogEvent

/-- Words in the names of headers that hold credentials. -/
def secretWords : List String := ["authorization", "cookie", "token"]

/-- The header holds credentials. -/
def isSecret (name : String) : Bool :=
  secretWords.any fun word => Text.occursIn word.toList (Text.lowered name)

/-- What is shown in place of credentials. -/
def redacted : String := "[REDACTED]"

/-- Headers as the log shows them. -/
def shownHeaders (headers : Http.Headers) : List (String × String) :=
  headers.entries.map fun entry => (entry.1, if isSecret entry.1 then redacted else entry.2)

namespace LogEvent

/-- Weight of an event. -/
def level : LogEvent → LogLevel
  | .started _ _ => .info
  | .requested _ _ _ _ => .debug
  | .responded status _ => if 400 ≤ status then .warn else .debug
  | .completed _ => .info
  | .failed _ _ _ => .error

/-- Title of an event. -/
def title : LogEvent → String
  | .started _ _ => "OData Operation Started"
  | .requested _ _ _ _ => "HTTP Request"
  | .responded status _ => if 400 ≤ status then "HTTP Response (Error)" else "HTTP Response"
  | .completed _ => "OData Operation Completed"
  | .failed _ _ _ => "OData Operation Failed"

/-- Headers as a JSON object. -/
def headersJson (headers : List (String × String)) : Json :=
  .object (headers.foldl (fun members header =>
    Json.insertMember header.1 (.string header.2) members) [])

/-- The members that describe an event. -/
def members : LogEvent → List (String × Json)
  | .started method transaction => [
      ("event", .string "operation_started"),
      ("method", .string method),
      ("transaction_id", Json.ofText transaction)]
  | .requested method target headers bodyLength => [
      ("event", .string "http_request"),
      ("method", .string method),
      ("target", .string target),
      ("headers", headersJson headers),
      ("body_length", Json.ofNat bodyLength)]
  | .responded status headers => [
      ("event", .string "http_response"),
      ("status_code", Json.ofNat (some status)),
      ("headers", headersJson headers)]
  | .completed method => [
      ("event", .string "operation_completed"),
      ("method", .string method),
      ("success", .boolean true),
      ("status_code", .null),
      ("error_message", .null)]
  | .failed method status message => [
      ("event", .string "operation_completed"),
      ("method", .string method),
      ("success", .boolean false),
      ("status_code", Json.ofNat status),
      ("error_message", .string message)]

end LogEvent

/-- JSON form of an entry. -/
def LogEntry.toJson (entry : LogEntry) : Json :=
  .object (("operation", .string entry.operation) :: entry.event.members)

end Client

end OData
