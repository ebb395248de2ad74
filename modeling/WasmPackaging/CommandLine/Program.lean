import WasmPackaging.CommandLine.Invocation
import WasmPackaging.Config.Loading
import WasmPackaging.Document.Json
import WasmPackaging.Targets.Registry

/-!
What the program does for a command line, and what it writes. A failure of a build is reported in a
line and ends the program with status 1; any other failure is left to the caller.
-/

namespace WasmPackaging.CommandLine

open Config Document Targets

/-- How the program ended: its exit status, its output, and its complaints. -/
structure Outcome where
  status : Nat
  output : String
  complaints : String
  deriving DecidableEq

variable {τ : Type}

/-- Some lines, each with its end. -/
def lines (texts : List String) : String := String.join (texts.map (· ++ "\n"))

/-- The report on built targets. -/
def report (asJson : Bool) (results : List TargetResult) : String :=
  if asJson then lines [Json.write 0 (.list (results.map TargetResult.document))]
  else lines (results.map fun result =>
    let entry := (result.entry.map Path.toString).getD "None"
    s!"{result.target}: {entry}")

/-- The list of targets. -/
def targetList (registry : Registry τ) : String :=
  lines (registry.map fun target => s!"{target.name}\t{target.description}")

/-- The settings file that a build uses: the given one, or the one in the project. -/
def settingsFile (request : BuildRequest) (root : Option Path) : FileRun (Option Path) := do
  match request.settings with
  | some file => return some (Path.ofString file)
  | none =>
    discover (root.getD (.ofLocation (← get).workingDirectory))

/-- Builds what a request asks for. -/
def buildTargets (contextOf : Settings → FileRun (Context τ)) (request : BuildRequest)
    (file root : Option Path) (nesting : Nat := Yaml.usualNesting) : Run τ (List TargetResult) := do
  let settings ← (load file root nesting : FileRun Settings)
  let context ← (contextOf settings : FileRun (Context τ))
  let registry : Registry τ := Registry.standard
  registry.buildAll (registry.wanted request.targets) context

/-- The outcome of a build, unless it failed in a way that is not reported. -/
def buildOutcome (asJson : Bool) (act : Run τ (List TargetResult)) : Run τ Outcome := fun world =>
  match act world with
  | (.ok results, world) => (.ok ⟨0, report asJson results, ""⟩, world)
  | (.error failure, world) =>
    if failure.isReported then (.ok ⟨1, "", failure.message ++ "\n"⟩, world) else (.error failure, world)

/-- Carries out a command. -/
def perform (contextOf : Settings → FileRun (Context τ)) (nesting : Nat) : Command → Run τ Outcome
  | .listTargets => return ⟨0, targetList (Registry.standard : Registry τ), ""⟩
  | .build request => do
    let root ← (request.projectRoot.mapM fun root => FileRun.resolve (.ofString root) : FileRun (Option Path))
    let file ← (settingsFile request root : FileRun (Option Path))
    buildOutcome request.asJson (buildTargets contextOf request file root nesting)

/-- Carries out a command line; its settings file may be nested to some depth. -/
def run (contextOf : Settings → FileRun (Context τ)) (arguments : List String)
    (nesting : Nat := Yaml.usualNesting) : Run τ Outcome :=
  match invocation arguments with
  | .ok invocation => perform contextOf nesting invocation.command
  | .error (.help program) => return ⟨0, (Refusal.help program).message ++ "\n", ""⟩
  | .error refusal => return ⟨2, "", refusal.message ++ "\n"⟩

end WasmPackaging.CommandLine
