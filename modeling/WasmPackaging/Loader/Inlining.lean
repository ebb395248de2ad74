import WasmPackaging.Loader.Mismatch
import WasmPackaging.Loader.Options
import WasmPackaging.Loader.Payload

/-!
Preparing a loader module for the bundler. The run-time construction of its payload's URL becomes a
static import that the bundler can inline, the module's own location becomes a fixed placeholder,
and the worker hooks are declared ahead.
-/

namespace WasmPackaging.Loader

open Text

/-- The names of the payloads that a module constructs URLs of, each once, in order of appearance. -/
def payloadNames (source : List Char) : List String :=
  ((finds payloadUrl source).map fun url => String.ofList url.name).eraseDups

/-- The specifier that imports a payload: a bare name is taken from the module's own directory. -/
def payloadSpecifier (name : String) : String :=
  match name.toList with
  | '.' :: _ => name
  | '/' :: _ => name
  | _ => s!"./{name}"

/-- The import of the payload and the declaration of the hooks, a line each. -/
def header (options : LoaderOptions) (specifier : String) : String :=
  s!"import {options.payloadBinding} from '{specifier}';\n" ++
    s!"let {commaList options.workerHooks};\n"

/-- The one payload that a module refers to. -/
def payload? (source : List Char) : Except LoaderMismatch String :=
  match payloadNames source with
  | [] => .error .noPayload
  | [name] => .ok name
  | names => .error (.manyPayloads (names.mergeSort fun a b => decide (a ≤ b)))

/-- A template read against its groups. -/
def readTemplate (groups : Groups) (template : String) : Except LoaderError (List Template.Part) :=
  (Template.read groups template).mapError .template

/-- The module with its payload's URLs replaced by the binding. -/
def bindPayload (options : LoaderOptions) (source : List Char) : Except LoaderError (List Char) := do
  let parts ← readTemplate payloadGroups options.payloadBinding
  return replaceFinds payloadUrl (fun url whole => Template.expand parts (url.group whole)) source

/-- The module with its location replaced by the placeholder. -/
def fixLocation (options : LoaderOptions) (source : List Char) : Except LoaderError (List Char) := do
  let parts ← readTemplate locationGroups options.locationPlaceholder
  return replaceFinds locationUse (fun _ whole => Template.expand parts fun _ => whole) source

/-- Prepares a loader module for the bundler. -/
def inlinePayload (options : LoaderOptions) (source : String) : Except LoaderError String := do
  let text := source.toList
  let name ← (payload? text).mapError .mismatch
  let body ← fixLocation options (← bindPayload options text)
  return header options (payloadSpecifier name) ++ String.ofList body

end WasmPackaging.Loader
