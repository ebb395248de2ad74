import WasmPackaging.Config.Settings
import WasmPackaging.FileTree.Task
import WasmPackaging.Yaml.Document

/-!
Settings files: finding one in a project and reading one.
-/

namespace WasmPackaging.Config

open Document

/-- The name of a settings file in the directory of its project. -/
def settingsFileName : String := "bindings-pack.yaml"

/-- The settings file in a directory, if it is there. -/
def discover (directory : Path) : FileRun (Option Path) := do
  let candidate := directory.child settingsFileName
  return if ← FileRun.askFor .refused (·.asksFile candidate) then some candidate else none

/-- The document in a settings file, nested to some depth at most. -/
def readDocument (file : Path) (nesting : Nat := Yaml.usualNesting) : FileRun Value := do
  let text ←
    match (← get).read file with
    | .error e =>
      if e.isSystem then throw (.settings (.unreadable file.toString e)) else throw (.refused e)
    | .ok _ => FileRun.readText file
  match Yaml.read text.toList nesting with
  | .error (.text fault) => throw (.settings (.malformed file.toString fault))
  | .error (.value fault) => throw (.value fault)
  | .ok .null => return .mapping []
  | .ok (.mapping entries) => return .mapping entries
  | .ok _ => throw (.settings (.notMapping file.toString))

/-- A document with a text under a key. -/
def withText (key value : String) (document : Value) : Value :=
  match document with
  | .mapping entries =>
    .mapping (entries.filter (fun entry => entry.1.text? != some key) ++ [(.text key, .text value)])
  | other => other

/-- The settings of a file, or the defaults if there is none. The project's root is the given one; if
none is given and the file names none, it is the directory that the file is in. -/
def load (file root : Option Path) (nesting : Nat := Yaml.usualNesting) : FileRun Settings := do
  let document ← match file with
    | none => pure (.mapping [])
    | some file => readDocument file nesting
  let document ←
    match root, file with
    | some root, _ => pure (withText "project_root" root.toString document)
    | none, some file =>
      if (document.member? "project_root").isSome then pure document
      else
        let place ← FileRun.resolve file
        pure (withText "project_root" place.parent.toString document)
    | none, none => pure document
  match Settings.read document with
  | .ok settings => return settings
  | .error violations => throw (.settings (.invalid violations))

end WasmPackaging.Config
