/-!
What can be wrong with a value in the settings, and where.
-/

namespace WasmPackaging.Config

/-- The groups of settings. -/
inductive Section where
  | build
  | edge
  | server
  | workerHooks
  deriving DecidableEq

/-- The name of a group in messages. -/
def Section.name : Section → String
  | .build => "BuildConfig"
  | .edge => "EdgeTargetConfig"
  | .server => "ServerTargetConfig"
  | .workerHooks => "WorkerHooks"

/-- How a value or a key fails to be what is declared at its place. -/
inductive Complaint where
  | notText
  | undecodable
  | notPath
  | notList
  | notMapping
  | notSection (group : Section)
  | keyNotText
  | undeclared
  deriving DecidableEq

/-- The short name of a complaint. -/
def Complaint.code : Complaint → String
  | .notText => "string_type"
  | .undecodable => "string_unicode"
  | .notPath => "path_type"
  | .notList => "list_type"
  | .notMapping => "dict_type"
  | .notSection _ => "model_type"
  | .keyNotText => "invalid_key"
  | .undeclared => "extra_forbidden"

/-- The wording of a complaint. -/
def Complaint.message : Complaint → String
  | .notText => "Input should be a valid string"
  | .undecodable => "Input should be a valid string, unable to parse raw data as a unicode string"
  | .notPath => "Input is not a valid path for <class 'pathlib.Path'>"
  | .notList => "Input should be a valid list"
  | .notMapping => "Input should be a valid dictionary"
  | .notSection group => s!"Input should be a valid dictionary or instance of {group.name}"
  | .keyNotText => "Keys should be strings"
  | .undeclared => "Extra inputs are not permitted"

/-- A complaint and the keys and list positions that lead to its place. -/
structure Violation where
  place : List String
  complaint : Complaint
  deriving DecidableEq

/-- The violation seen from further outside. -/
def Violation.within (key : String) (v : Violation) : Violation := { v with place := key :: v.place }

/-- The line that reports a violation. -/
def Violation.line (v : Violation) : String := ".".intercalate v.place ++ ": " ++ v.complaint.message

end WasmPackaging.Config
