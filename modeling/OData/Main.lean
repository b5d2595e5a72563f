/-
# The command line

Gathers what a command reads, carries it out, and prints what it gives. Nothing
here reaches the network, so every request that gets as far as the transport ends
in a fault.
-/

import OData.Command.Sources

namespace OData.Command

/-- The content of a file. -/
def readContent (path : String) : IO FileContent := do
  try
    let bytes ← IO.FS.readBinFile path
    match String.fromUTF8? bytes with
    | some content => return .text content
    | none => return .unreadable "stream did not contain valid UTF-8"
  catch fault =>
    match fault with
    | .noFileOrDirectory _ _ _ => return .missing
    | other => return .unreadable (toString other)

/-- The contents of files under their names. -/
def readContents (paths : List String) : IO (List (String × FileContent)) :=
  paths.mapM fun path => do return (path, ← readContent path)

/-- The variables of the environment that are set. -/
def readVariables (names : List String) : IO (List (String × Option String)) :=
  names.mapM fun name => do return (name, ← IO.getEnv name)

/-- The world of a command, as far as it reads it. -/
def gatherWorld (arguments : Arguments) (usual : String) : IO Client.World := do
  let first ← readContents (arguments.files usual)
  let settings := arguments.settingsFrom (gathered .missing first) usual
  let later ← readContents (definitionFiles settings)
  let environment ← readVariables (tokenVariables settings)
  return {
    files := gathered .missing (first ++ later)
    environment := gathered none environment
    transport := fun _ dispatch => .error (.transport ("no connection to " ++ dispatch.host)) }

/-- Print a chain of causes, the outermost first. -/
def printChain (chain : List String) : IO Unit := do
  match chain with
  | [] => return ()
  | outermost :: causes =>
      IO.eprintln ("Error: " ++ outermost)
      if !causes.isEmpty then IO.eprintln "\nCaused by:"
      for cause in causes do
        IO.eprintln ("    " ++ cause)

/-- How the command line is used. -/
def usageText : String :=
  "Usage: odata-client [--config <file>] services [--client <name>]\n" ++
  "       odata-client [--config <file>] run <service> [--input <file>] " ++
    "[--transaction <id>] [--pretty]\n" ++
  "       odata-client [--config <file>] filter <file>"

/-- Carry out a command and give its exit status. -/
def carryOut (arguments : List String) : IO UInt32 := do
  match Arguments.read? arguments with
  | none =>
      IO.eprintln usageText
      return 2
  | some read =>
      let usual := usualSettings (← IO.getEnv "XDG_CONFIG_HOME") (← IO.getEnv "HOME")
      let outcome := execute (← gatherWorld read usual) usual read
      IO.print outcome.output
      match outcome.fault with
      | none => return 0
      | some fault =>
          printChain fault.chain
          return 1

end OData.Command

def main (arguments : List String) : IO UInt32 := OData.Command.carryOut arguments
