/-
# What a command reads

The files and the variables of the environment that a command depends on, so that
they can be gathered before it is carried out. The settings say which definitions
and variables there are, so the settings are gathered first.
-/

import OData.Command.Outcome

namespace OData.Command

/-- Where a command looks for its settings. -/
def Arguments.settingsFile (arguments : Arguments) (usual : String) : String :=
  arguments.settings.getD usual

/-- The files that a command names itself. -/
def Arguments.files (arguments : Arguments) (usual : String) : List String :=
  match arguments.task with
  | .services _ => [arguments.settingsFile usual]
  | .run _ input _ _ => arguments.settingsFile usual :: input.toList
  | .filter path => [path]

/-- The settings that a command finds, empty if there are none. -/
def Arguments.settingsFrom (arguments : Arguments) (files : Files) (usual : String) : Settings :=
  match loadSettings files usual arguments.settings with
  | .ok settings => settings
  | .error _ => {}

/-- The files that hold the definitions of the settings. -/
def definitionFiles (settings : Settings) : List String :=
  settings.clients.map fun client => client.2.definition

/-- The variables that may hold tokens. -/
def tokenVariables (settings : Settings) : List String :=
  settings.clients.filterMap fun client => client.2.securityContext

/-- Where the usual settings file lies, given the folder of settings or else the
home folder of the user. The folder of settings counts only if it is absolute. -/
def usualSettings (settingsFolder home : Option String) : String :=
  let folder := match settingsFolder.filter fun folder => folder.startsWith "/" with
    | some folder => folder
    | none => home.getD "" ++ "/.config"
  folder ++ "/odata-client/config.toml"

/-- Contents that were gathered under their names. -/
def gathered {α : Type} (missing : α) (entries : List (String × α)) (name : String) : α :=
  match entries.find? fun entry => entry.1 == name with
  | some entry => entry.2
  | none => missing

end OData.Command
