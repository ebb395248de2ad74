import WasmPackaging.Config.Violation
import WasmPackaging.FileTree.Fault
import WasmPackaging.FileTree.Resolution
import WasmPackaging.FileTree.Search
import WasmPackaging.Loader.Mismatch
import WasmPackaging.Yaml.Fault

/-!
Everything that can end a packaging run early, with its wording. A failure of the build itself is
reported to the user (`Failure.isReported`); any other shows that something the build relies on was
used in a way it does not support.
-/

namespace WasmPackaging

open Text

/-- Why the settings cannot be used. -/
inductive SettingsError where
  | unreadable (path : String) (cause : FileError)
  | malformed (path : String) (cause : Yaml.Fault)
  | notMapping (path : String)
  | invalid (violations : List Config.Violation)
  deriving DecidableEq

/-- The wording of the error. -/
def SettingsError.message : SettingsError → String
  | .unreadable path cause => s!"Unable to read config {path}: {cause.message}"
  | .malformed path cause => s!"Invalid YAML in {path}: {cause.message}"
  | .notMapping path => s!"Config {path} must contain a mapping."
  | .invalid violations =>
    let lines := "\n".intercalate (violations.map Config.Violation.line)
    s!"Invalid configuration: {lines}"

/-- A command that did not succeed: what was run, its exit status and what it wrote. -/
structure CommandReport where
  command : List String
  status : Int
  output : String
  complaints : String
  deriving DecidableEq

/-- The text without blanks at its ends, if anything is left of it. -/
def trimmed? (s : String) : Option String :=
  match trim s.toList with
  | [] => none
  | rest => some (String.ofList rest)

/-- The wording of a report: the command, then what it wrote. -/
def CommandReport.message (report : CommandReport) : String :=
  let command := " ".intercalate report.command
  let head := s!"Command failed with exit code {report.status}: {command}"
  "\n".intercalate (head :: [report.output, report.complaints].filterMap trimmed?)

/-- A value that the operation it was given to does not know. -/
inductive Unsupported where
  | emptyCommand
  | zeroInArgument
  | stage (name : String)
  | targetTaken (name : String)
  | lineEnd (text : String)
  | emptyText
  deriving DecidableEq

/-- The wording of the error. -/
def Unsupported.message : Unsupported → String
  | .emptyCommand => "Command must not be empty."
  | .zeroInArgument => "embedded null byte"
  | .stage name => s!"{quoted name} is not a valid Stage"
  | .targetTaken name => s!"Target '{name}' already registered."
  | .lineEnd text => s!"illegal newline value: {text}"
  | .emptyText => "empty separator"

/-- Why the build of a target cannot go on. -/
inductive BuildFault where
  | outsideProject (module project : String)
  | unsupportedLoader (loader source : String)
  | foreignPath (path start : String)
  | stageOrder (target current next : String)
  | noEntry (entry : String)
  | suffixLeft (paths : List String)
  deriving DecidableEq

/-- The wording of the fault. -/
def BuildFault.message : BuildFault → String
  | .outsideProject module project => s!"Module {module} lies outside the project root {project}"
  | .unsupportedLoader loader source => s!"Unsupported loader '{loader}' for {source}"
  | .foreignPath path start => s!"Path {path} does not contain '{start}'"
  | .stageOrder target current next => s!"Target '{target}' cannot move from {current} to {next}."
  | .noEntry entry => s!"Expected entry file {entry} was not produced."
  | .suffixLeft paths => s!"Platform-suffixed files remain after publishing: {commaList paths}"

/-- The wording of an action on files that failed, with what is known of the cause. -/
def failedAction (verb subject : String) (cause : Option String) : String :=
  s!"Failed to {verb} {subject}" ++ (cause.map (": " ++ ·)).getD ""

/-- What can end a run. The last one stands for a bound on a loop that is too low; no run ends so. -/
inductive Failure where
  | loader (cause : LoaderMismatch)
  | template (cause : TemplateError)
  | ambiguous (specifier : String) (plugins : List String)
  | action (verb subject : String) (cause : Option FileError)
  | command (report : CommandReport)
  | bundler (report : CommandReport)
  | settings (cause : SettingsError)
  | build (cause : BuildFault)
  | refused (cause : FileError)
  | unresolvable (cause : Unresolvable)
  | undecodable (cause : DecodeError)
  | name (cause : NameError)
  | pattern (cause : PatternError)
  | value (cause : Yaml.ValueFault)
  | unsupported (cause : Unsupported)
  | unknownTarget (wanted : String) (available : List String)
  | unfinished

/-- The wording of a failure. -/
def Failure.message : Failure → String
  | .loader cause => cause.message
  | .template cause => cause.message
  | .ambiguous specifier plugins =>
    s!"Specifier '{specifier}' is claimed by multiple plugins: {commaList plugins}"
  | .action verb subject cause => failedAction verb subject (cause.map FileError.message)
  | .command report => report.message
  | .bundler report => report.message
  | .settings cause => cause.message
  | .build cause => cause.message
  | .refused cause => cause.message
  | .unresolvable cause => cause.message
  | .undecodable cause => cause.message
  | .name cause => cause.message
  | .pattern cause => cause.message
  | .value cause => cause.message
  | .unsupported cause => cause.message
  | .unknownTarget wanted available =>
    s!"Unknown target '{wanted}'. Available targets: {commaList available}."
  | .unfinished => "more modules than paths"

/-- Whether a failure is one of the build, which the command line reports in a line. -/
def Failure.isReported : Failure → Bool
  | .loader _ | .ambiguous .. | .action .. | .command _ | .bundler _ | .settings _ | .build _ => true
  | _ => false

/-- An operation that the file system refused as the failure of an action. -/
def Failure.during (verb subject : String) : Failure → Failure
  | .refused cause => if cause.isSystem then .action verb subject (some cause) else .refused cause
  | failure => failure

/-- The failure of preparing a loader module. -/
def LoaderError.failure : LoaderError → Failure
  | .mismatch cause => .loader cause
  | .template cause => .template cause

end WasmPackaging
