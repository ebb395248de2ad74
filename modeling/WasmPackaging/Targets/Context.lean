import WasmPackaging.Bundling.Bundler
import WasmPackaging.CommandTemplate
import WasmPackaging.Config.Settings
import WasmPackaging.Publishing
import WasmPackaging.Targets.Progress

/-!
What the builds of all targets share: the settings, the tools, and the steps that read and write
scripts, check types and make sure of the output.
-/

namespace WasmPackaging.Targets

open Bundling Config

/-- What a build works with. -/
structure Context (τ : Type) where
  settings : Settings
  bundler : Bundler τ
  publisher : Publisher
  runner : Runner τ
  hostPlatform : String := defaultPlatform

variable {τ : Type}

/-- What a build finds on its host beside files and tools: the platform, and what is drawn for the names of
stages. -/
structure Host (τ : Type) where
  platform : String := defaultPlatform
  draw : World τ → StageToken := fun _ => .standIn

/-- The context of some settings, with a bundler that is given. -/
def Context.withBundler (settings : Settings) (bundler : Bundler τ) (runner : Runner τ)
    (hostPlatform : String := defaultPlatform) : FileRun (Context τ) := do
  return ⟨settings, bundler, ← Publisher.forProject settings.projectRoot, runner, hostPlatform⟩

/-- The context of some settings, with the bundler whose command they name. -/
def Context.create (settings : Settings) (runner : Runner τ) (host : Host τ := {}) : FileRun (Context τ) := do
  let root ← FileRun.resolve settings.projectRoot
  let command := BundlingCommand.mk root.parts settings.bundlerCommand
  Context.withBundler settings (command.bundler runner host.draw) runner host.platform

/-! ## Steps -/

/-- The text of a script. -/
def readScript (path : Path) : FileRun String := FileRun.during "read" path.toString (FileRun.readText path)

/-- Writes a script. -/
def writeScript (path : Path) (content : String) : FileRun Unit :=
  FileRun.during "write" path.toString (FileTask.writeText path content : FileTask Unit)

/-- The name of the entry's script, or why there is none. -/
def entryScript (settings : Settings) : FileRun String :=
  match settings.entryScript with
  | .ok name => pure name
  | .error e => throw (.name e)

/-- A build at its next stage. -/
def reach (result : TargetResult) (next : Stage) : FileRun TargetResult :=
  match result.advance next with
  | .ok result => pure result
  | .error fault => throw (.build fault)

/-- The entry of a finished build. The file must be there, and no script below the output directory may
still have a suffix in its name that was to be taken out. -/
def verifyOutput (output entry : Path) (suffix : Option String) : FileRun Path := do
  if !(← FileRun.askFor .refused (·.asksFile entry)) then throw (.build (.noEntry entry.toString))
  match suffix.filter (· != "") with
  | none => return entry
  | some suffix =>
    match PathPattern.ofString s!"**/*{suffix}.js" with
    | .error e => throw (.pattern e)
    | .ok pattern =>
      match ← FileRun.askFor .refused (·.search output pattern) with
      | [] => return entry
      | left => throw (.build (.suffixLeft (left.map Path.toString)))

namespace Context

/-- The root of the project. -/
def root (context : Context τ) : FileRun Path := FileRun.resolve context.settings.projectRoot

/-- A path that starts at the root of the project. -/
def path (context : Context τ) (path : Path) : FileRun Path :=
  if path.isAbsolute then pure path else do return (← context.root).join path

/-- The text of the relative path from the project to a path. -/
def relativeText (context : Context τ) (path : Path) : FileRun String := do
  let root ← context.root
  let tree ← get
  let normal (path : Path) : Location := path.normalize tree.workingDirectory
  return (Path.relativeTo (normal path) (normal root)).toString

/-- The values of the names in command templates. -/
def placeholders (context : Context τ) (output : Path) : FileRun (List (String × String)) := do
  return [("output_dir", ← context.relativeText output), ("project_root", (← context.root).toString)]

/-- Checks the types of the project. -/
def checkTypes (context : Context τ) (template : List String) (output : Path) : Run τ Unit := do
  let values ← (context.placeholders output : FileRun (List (String × String)))
  let directory ← (context.root : FileRun Path)
  let _ ← context.runner { arguments := CommandTemplate.render template values, directory }

/-- Minifies a script in its place. -/
def minify (context : Context τ) (path : Path) : Run τ Unit := do
  let code ← (readScript path : FileRun String)
  let options : TransformOptions :=
    { target := context.settings.target, minify := true, logLevel := "error" }
  let minified ← context.bundler.transform code options
  (writeScript path minified : FileRun Unit)

end Context

end WasmPackaging.Targets
