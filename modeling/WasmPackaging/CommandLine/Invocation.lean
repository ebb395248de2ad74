import WasmPackaging.CommandLine.Options

/-!
What the program is asked to do on its command line: to build targets, or to list them.
-/

namespace WasmPackaging.CommandLine

open Text

/-- What a build is asked for. An empty path counts as not given. -/
structure BuildRequest where
  targets : List String
  settings : Option String
  projectRoot : Option String
  asJson : Bool
  deriving DecidableEq

/-- What the program is asked to do. -/
inductive Command where
  | build (request : BuildRequest)
  | listTargets
  deriving DecidableEq

/-- A command, and whether its course is to be told. -/
structure Invocation where
  verbose : Bool
  command : Command
  deriving DecidableEq

/-- The name of the program. -/
def programName : String := "bindings-pack"

/-- The names of the commands. -/
def commandNames : List String := ["build", "targets"]

/-- The option to tell the course of a command. -/
def verboseOption : OptionSpec := { names := ["--verbose", "-v"] }

/-- The option for a target to build. -/
def targetOption : OptionSpec :=
  { names := ["--target"], takesValue := true, choices := ["edge", "server", "all"] }

/-- The option for a settings file. -/
def settingsOption : OptionSpec := { names := ["--config"], takesValue := true }

/-- The option for the root of the project. -/
def rootOption : OptionSpec := { names := ["--project-root"], takesValue := true }

/-- The option for a report in JSON. -/
def jsonOption : OptionSpec := { names := ["--json"] }

/-- The options before the command. -/
def mainGrammar : Grammar := ⟨programName, [helpOption, verboseOption]⟩

/-- The options of the command to build. -/
def buildGrammar : Grammar :=
  ⟨programName ++ " build", [helpOption, targetOption, settingsOption, rootOption, jsonOption]⟩

/-- The options of the command to list targets. -/
def targetsGrammar : Grammar := ⟨programName ++ " targets", [helpOption]⟩

/-- The last value of an option, unless it is empty. -/
def lastValue (spec : OptionSpec) (given : List Given) : Option String :=
  (valuesOf spec given).getLast?.filter (· != "")

/-- Reads the arguments of a command; also answers with those that mean nothing to it. -/
def readCommand (name : String) (arguments : List String) : Except Refusal (Command × List String) :=
  if name = "build" then do
    let (given, extras, _) ← buildGrammar.read false (← buildGrammar.words arguments)
    return (.build {
      targets := valuesOf targetOption given
      settings := lastValue settingsOption given
      projectRoot := lastValue rootOption given
      asJson := isGiven jsonOption given }, extras)
  else do
    let (_, extras, _) ← targetsGrammar.read false (← targetsGrammar.words arguments)
    return (.listTargets, extras)

/-- Reads a command line. -/
def invocation (arguments : List String) : Except Refusal Invocation := do
  let (given, extras, rest) ← mainGrammar.read true (← mainGrammar.words arguments)
  match rest with
  | [] | [⟨_, .separator⟩] => mainGrammar.refuse "the following arguments are required: command"
  | word :: rest =>
    if !commandNames.contains word.text then
      mainGrammar.refuse (invalidChoice "command" word.text commandNames)
    else do
      let (command, more) ← readCommand word.text (rest.map Word.text)
      match extras ++ more with
      | [] => return ⟨isGiven verboseOption given, command⟩
      | extras =>
        let listed := " ".intercalate extras
        mainGrammar.refuse s!"unrecognized arguments: {listed}"

/-- What is said of a refused command line. -/
def Refusal.message : Refusal → String
  | .usage program message => s!"{program}: error: {message}"
  | .help program => s!"usage: {program} [options]"

end WasmPackaging.CommandLine
