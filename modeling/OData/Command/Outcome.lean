/-
# Commands

What the command line does: listing services, running one, and compiling filter
files. A command gives the text that it prints and, when it does not end well, the
chain of causes.
-/

import OData.Client.Directory
import OData.Client.Run
import OData.Command.Arguments
import OData.Filter.File

namespace OData.Command

open Client (Directory World)

/-- Why a command did not end well. -/
inductive CommandFault where
  /-- There is no settings file of the given name. -/
  | missingSettings (path : String)
  /-- The settings file can not be read. -/
  | unreadableSettings (path reason : String)
  /-- The settings file is malformed. -/
  | malformedSettings (path : String)
  /-- The clients, or their services, are not as asked for. -/
  | directory (fault : Client.DirectoryFault)
  /-- The filter file can not be read. -/
  | unreadableFilter (path reason : String)
  /-- The filter file is no list of clauses. -/
  | filterFile (fault : Filter.FileFault)
  /-- The input file can not be read. -/
  | unreadableInput (path reason : String)
  /-- The input is not JSON. -/
  | malformedInput
  /-- The service did not end well. -/
  | failed (service : String) (fault : Fault)
  /-- A step of the command itself failed. -/
  | plain (fault : Fault)

/-- Wording of a filter file's fault, from its outermost cause to its innermost. -/
def fileFaultChain : Filter.FileFault → List String
  | .malformed => ["Expected a JSON list of filter clauses", Json.malformedText]
  | .valueNotScalar json => ["Filter values must be scalars, got " ++ json.compact]

namespace CommandFault

/-- Wording of a fault, from its outermost cause to its innermost. -/
def chain : CommandFault → List String
  | .missingSettings path =>
      ["Failed to load configuration", "Config file does not exist: " ++ path]
  | .unreadableSettings path reason =>
      ["Failed to load configuration", "Failed to read config file: " ++ Text.visible path,
        reason]
  | .malformedSettings path =>
      ["Failed to load configuration", "Failed to parse config file: " ++ Text.visible path,
       Settings.malformedText]
  | .directory fault => fault.chain
  | .unreadableFilter path reason => ["Failed to read filter file: " ++ path, reason]
  | .filterFile fault => fileFaultChain fault
  | .unreadableInput path reason => ["Failed to read input file: " ++ path, reason]
  | .malformedInput => ["Input is not valid JSON", Json.malformedText]
  | .failed service fault => ["Service '" ++ service ++ "' failed", fault.message]
  | .plain fault => [fault.message]

end CommandFault

/-- What a command printed, and why it did not end well, if it did not. -/
structure Outcome where
  output : String
  fault : Option CommandFault

/-- A step of a command: it prints, and may end in a fault. -/
abbrev Step (α : Type) := ExceptT CommandFault (StateM String) α

namespace Step

/-- Print a line. -/
def print (text : String) : Step Unit := modify fun printed => printed ++ text ++ "\n"

/-- A computation that prints nothing. -/
def compute {α : Type} (result : Except CommandFault α) : Step α := ExceptT.mk (pure result)

/-- What a command printed, and how it ended. -/
def outcome (step : Step Unit) : Outcome :=
  match step.run "" with
  | (.ok (), output) => ⟨output, none⟩
  | (.error fault, output) => ⟨output, some fault⟩

end Step

/-- The settings in a file that need not be there. -/
def settingsIn (path : String) : FileContent → Except CommandFault Settings
  | .missing => .ok {}
  | .unreadable reason => .error (.unreadableSettings path reason)
  | .text content =>
      match Settings.read? content with
      | some settings => .ok settings
      | none => .error (.malformedSettings path)

/-- The settings in the file that was asked for, which has to be there, or in the
usual one. -/
def loadSettings (files : Files) (usual : String) : Option String → Except CommandFault Settings
  | none => settingsIn usual (files usual)
  | some path =>
      match files path with
      | .missing => .error (.missingSettings path)
      | content => settingsIn path content

/-- The clients that the settings describe. -/
def loadDirectory (world : World) (usual : String) (path : Option String) :
    Except CommandFault Directory := do
  let settings ← loadSettings world.files usual path
  match Directory.ofSettings world settings with
  | .ok directory => return directory
  | .error fault => throw (.directory fault)

/-- An input written as JSON. -/
def readInput (content : String) (type : ComplexType) : Except CommandFault Record :=
  match Json.ofText? content with
  | none => .error .malformedInput
  | some json => (Body.recordOf type json).mapError .plain

/-- An output as text. -/
def formatOutput (output : Option Record) (type : ComplexType) (pretty : Bool) :
    Except Fault String :=
  match output with
  | none => .ok "null"
  | some record => (Body.recordToJson (some type) record).map fun json =>
      if pretty then json.indented else json.compact

/-- A text with spaces after it up to a width. -/
def padTo (width : Nat) (text : String) : String :=
  text ++ String.ofList (List.replicate (width - text.length) ' ')

/-- The two lines of a service. -/
def printService (service : ServiceDescriptor) : Step Unit := do
  Step.print ("  " ++ padTo 20 service.dependency.method.name ++ " " ++ service.id)
  Step.print ("  " ++ padTo 20 "" ++ " " ++ service.dependency.endpoint)

/-- The services of a client. -/
def printServices (directory : Directory) (client : String) : Step Unit := do
  let services ← Step.compute ((directory.services client).mapError .directory)
  Step.print (client ++ " (" ++ toString services.length ++ " services)")
  services.forM printService

/-- List the services of all clients, or of one. -/
def listServices (directory : Directory) (client : Option String) : Step Unit := do
  let clients := match client with
    | some name => [name]
    | none => directory.ids
  if clients.isEmpty then Step.print "No clients configured."
  else clients.forM (printServices directory)

/-- The input of a service, from a file if there is one. -/
def loadInput (files : Files) (type : ComplexType) :
    Option String → Except CommandFault (Option Record)
  | none => .ok none
  | some path =>
      match files path with
      | .text content => (readInput content type).map some
      | other => .error (.unreadableInput path other.reason)

/-- Run a service and print its output. -/
def runService (world : World) (directory : Directory) (id : String)
    (input transaction : Option String) (pretty : Bool) : Step Unit := do
  let (client, service) ← Step.compute ((directory.service id).mapError .directory)
  let record ← Step.compute (loadInput world.files service.input input)
  Step.print ("🚀 " ++ service.function.method.name ++ " " ++ service.id)
  let ended := (client.run service.function record transaction).run {}
  let output ← Step.compute (ended.1.mapError (.failed service.id))
  let text ← Step.compute ((formatOutput output service.function.output pretty).mapError .plain)
  Step.print text

/-- Compile a filter file and print the expression. -/
def compileFilter (files : Files) (path : String) : Step Unit := do
  let content ← match files path with
    | .text content => pure content
    | other => throw (.unreadableFilter path other.reason)
  let clauses ← Step.compute ((Filter.readClauses content).mapError .filterFile)
  let expression ← Step.compute ((Filter.compile clauses).mapError .plain)
  if expression.isEmpty then Step.print "No filter expression (all clauses skipped)."
  else Step.print (Text.trimStart expression)

/-- Do what the arguments ask for. -/
def perform (world : World) (usual : String) (arguments : Arguments) : Step Unit :=
  match arguments.task with
  | .services client => do
      let directory ← Step.compute (loadDirectory world usual arguments.settings)
      listServices directory client
  | .run service input transaction pretty => do
      let directory ← Step.compute (loadDirectory world usual arguments.settings)
      runService world directory service input transaction pretty
  | .filter path => compileFilter world.files path

/-- What a command prints, and how it ends. -/
def execute (world : World) (usual : String) (arguments : Arguments) : Outcome :=
  (perform world usual arguments).outcome

end OData.Command
