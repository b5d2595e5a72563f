/-
# Endpoint addresses

Splitting the address of a service into scheme, host and base path, and reading
definitions from files that an address may be laid over. Braces in the path are
kept, so templates survive.
-/

import OData.Service.Definition
import OData.Text.Character

namespace OData

/-- The parts of an endpoint address. -/
structure Address where
  scheme : String
  host : String
  /-- Empty, or a path that begins but does not end with a slash. -/
  path : String
  deriving DecidableEq

namespace Address

/-- Drop the slashes at the end. -/
def trimSlashes (chars : List Char) : List Char := Text.dropEndWhile (· == '/') chars

/-- Split an address at its first `://` and at the first slash after that. -/
def split (endpoint : String) : Except Fault Address :=
  match Text.cutChars? "://".toList endpoint.toList with
  | none => .error (.metadata (.missingScheme endpoint))
  | some (scheme, rest) =>
      let host := rest.takeWhile (· != '/')
      if host.isEmpty then .error (.metadata (.missingHost endpoint))
      else .ok {
        scheme := String.ofList scheme
        host := String.ofList host
        path := String.ofList (trimSlashes (rest.dropWhile (· != '/'))) }

/-- The address in one piece. -/
def root (address : Address) : String := serviceRoot address.scheme address.host address.path

end Address

/-- What reading a file gives: its text, or why it can not be read. -/
inductive FileContent where
  | text (content : String)
  /-- There is no file of this name. -/
  | missing
  /-- The file is there and can not be read. -/
  | unreadable (reason : String)

/-- The files that can be read, by path. -/
abbrev Files := String → FileContent

/-- Why a file could not be read. -/
def FileContent.reason : FileContent → String
  | .text _ => ""
  | .missing => "No such file or directory (os error 2)"
  | .unreadable reason => reason

/-- Where a definition is kept. -/
inductive DefinitionSource where
  /-- It is known up front. -/
  | known (definition : Definition)
  /-- It is a file, whose address may be replaced. -/
  | file (path : String) (endpoint : Option String)

namespace Definition

/-- The definition at another address. -/
def atAddress (definition : Definition) (address : Address) : Definition :=
  { definition with scheme := address.scheme, host := address.host, basePath := address.path }

/-- Read a definition from a file, and lay an endpoint address over it. -/
def ofFile (files : Files) (path : String) (endpoint : Option String) : Except Fault Definition :=
  match files path with
  | .text content =>
      match form.readText? content with
      | none => .error (.metadata (.malformed path))
      | some definition =>
          match endpoint with
          | none => .ok definition
          | some address => do
              let parts ← Address.split address
              return definition.atAddress parts
  | other => .error (.metadata (.unreadable path other.reason))

/-- The definition of a source. -/
def ofSource (files : Files) : DefinitionSource → Except Fault Definition
  | .known definition => .ok definition
  | .file path endpoint => ofFile files path endpoint

end Definition

end OData
