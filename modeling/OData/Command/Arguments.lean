/-
# Arguments

The arguments of the command line: options in their long and short forms, one
subcommand, and its own options and operands. An option is given at most once at
each level, and a value never looks like an option.
-/

namespace OData.Command

/-- An option of the command line. -/
structure Switch where
  /-- Name after two hyphens. -/
  long : String
  /-- Letter after one hyphen. -/
  short : Option Char := none
  /-- The option has a value. -/
  hasValue : Bool := true
  /-- The value may be empty. -/
  allowsEmpty : Bool := false

/-- What was read of a level of arguments. -/
structure Given where
  /-- Options with their values, empty for those that have none. -/
  options : List (String × String) := []
  operands : List String := []

/-- An argument looks like an option. -/
def looksLikeOption (argument : String) : Bool :=
  match argument.toList with
  | '-' :: _ :: _ => true
  | _ => false

namespace Given

/-- The option was given. -/
def has (given : Given) (name : String) : Bool := given.options.any fun entry => entry.1 == name

/-- The value of an option. -/
def value? (given : Given) (name : String) : Option String :=
  (given.options.find? fun entry => entry.1 == name).map Prod.snd

/-- Note an option; none when it was given before or its value may not be empty. -/
def add? (given : Given) (switch : Switch) (value : String) : Option Given :=
  if given.has switch.long then none
  else if switch.hasValue && value.isEmpty && !switch.allowsEmpty then none
  else some { given with options := given.options ++ [(switch.long, value)] }

end Given

/-- What an argument leaves to be done. -/
inductive Pending where
  /-- Nothing. -/
  | done (given : Given)
  /-- The next argument is the value of an option. -/
  | valueOf (switch : Switch) (given : Given)

/-- An option in its long form, with its value after an equals sign if it is there. -/
def readLong? (switches : List Switch) (chars : List Char) (given : Given) : Option Pending := do
  let name := chars.takeWhile (· != '=')
  let switch ← switches.find? fun switch => switch.long.toList == name
  match chars.dropWhile (· != '=') with
  | [] =>
      if switch.hasValue then some (.valueOf switch given)
      else (given.add? switch "").map .done
  | _ :: value =>
      if switch.hasValue then (given.add? switch (String.ofList value)).map .done else none

/-- Options in their short form. The first that has a value takes what is left of
the argument, if anything is. -/
def readShort? (switches : List Switch) : List Char → Given → Option Pending
  | [], given => some (.done given)
  | letter :: rest, given =>
      match switches.find? fun switch => switch.short == some letter with
      | none => none
      | some switch =>
          if switch.hasValue then
            match rest with
            | [] => some (.valueOf switch given)
            | '=' :: value => (given.add? switch (String.ofList value)).map .done
            | value => (given.add? switch (String.ofList value)).map .done
          else (given.add? switch "").bind (readShort? switches rest)

/-- Read the options at the front of the arguments, and their operands too unless
the first operand ends the level. -/
def readLevel? (switches : List Switch) (stopsAtOperand : Bool) :
    List String → Given → Option (Given × List String)
  | [], given => some (given, [])
  | argument :: rest, given =>
      if argument == "--" then some ({ given with operands := given.operands ++ rest }, [])
      else
        let pending := match argument.toList with
          | '-' :: '-' :: long => some (readLong? switches long given)
          | '-' :: letter :: more => some (readShort? switches (letter :: more) given)
          | _ => none
        match pending with
        | none =>
            if stopsAtOperand then some (given, argument :: rest)
            else readLevel? switches stopsAtOperand rest
              { given with operands := given.operands ++ [argument] }
        | some none => none
        | some (some (.done next)) => readLevel? switches stopsAtOperand rest next
        | some (some (.valueOf switch next)) =>
            match rest with
            | [] => none
            | value :: others =>
                if looksLikeOption value then none
                else (next.add? switch value).bind (readLevel? switches stopsAtOperand others)

/-- What is to be done. -/
inductive Task where
  /-- List the services of all clients, or of one. -/
  | services (client : Option String)
  /-- Run a service. -/
  | run (service : String) (input transaction : Option String) (pretty : Bool)
  /-- Compile a filter file. -/
  | filter (path : String)

/-- The arguments as a whole. -/
structure Arguments where
  /-- The settings file, when it is not the usual one. -/
  settings : Option String
  task : Task

/-- The option for the settings file, at every level. -/
def settingsSwitch : Switch := { long := "config" }

/-- The options of listing services. -/
def servicesSwitches : List Switch :=
  [settingsSwitch, { long := "client", short := some 'c', allowsEmpty := true }]

/-- The options of running a service. -/
def runSwitches : List Switch :=
  [settingsSwitch,
   { long := "input", short := some 'i' },
   { long := "transaction", short := some 't', allowsEmpty := true },
   { long := "pretty", short := some 'p', hasValue := false }]

/-- The task of a subcommand. -/
def readTask? (name : String) (arguments : List String) : Option (Given × Task) :=
  if name == "services" then do
    let (given, _) ← readLevel? servicesSwitches false arguments {}
    if !given.operands.isEmpty then none
    return (given, .services (given.value? "client"))
  else if name == "run" then do
    let (given, _) ← readLevel? runSwitches false arguments {}
    match given.operands with
    | [service] =>
        return (given, .run service (given.value? "input") (given.value? "transaction")
          (given.has "pretty"))
    | _ => none
  else if name == "filter" then do
    let (given, _) ← readLevel? [settingsSwitch] false arguments {}
    match given.operands with
    | [path] => if path.isEmpty then none else return (given, .filter path)
    | _ => none
  else none

/-- Read the arguments after the program's name. The settings file of the
subcommand's level wins over that of the outer one. -/
def Arguments.read? (arguments : List String) : Option Arguments := do
  let (outer, rest) ← readLevel? [settingsSwitch] true arguments {}
  match rest with
  | [] => none
  | name :: others =>
      let (inner, task) ← readTask? name others
      return ⟨(inner.value? "config").orElse fun _ => outer.value? "config", task⟩

end OData.Command
