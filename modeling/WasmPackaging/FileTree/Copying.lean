import WasmPackaging.FileTree.Task
import WasmPackaging.Text.Wildcard

/-!
Copying files and directories. A directory is merged into its target: links are followed, files are
overwritten, and what cannot be copied is reported when all else has been.
-/

namespace WasmPackaging.FileTask

open Text

/-- How a message shows a path that was given as such. -/
def shownPath (path : Path) : String := s!"PosixPath({quoted path.toString})"

/-- How a message shows the place that a file is copied to. -/
def shownTarget (nested : Bool) (path : Path) : String :=
  if nested then quoted path.toString else shownPath path

/-- How a message shows a file that is copied. -/
def shownSource (nested : Bool) (path : Path) : String :=
  if nested then s!"<DirEntry {quoted path.name}>" else shownPath path

/-- Copies a file to a path, or into the directory that the path leads to. `nested` says that it is
copied as part of a directory. -/
def copyFile (nested : Bool) (source target : Path) : FileTask Unit := do
  let tree ← get
  let inside := tree.isDirectory target
  let target := if inside then target.child source.name else target
  if tree.isSame source target then
    throw (.sameFile (shownSource nested source) (shownTarget (nested || inside) target))
  match tree.read source with
  | .error e => throw e
  | .ok content => change (·.write target content)

/-- What a failed copy adds to the report on its directory. A file that is its own copy is reported by
the characters of the message. -/
def reportOf (source target : Path) : FileError → List String
  | .several reports => reports
  | .sameFile a b => (FileError.sameFile a b).message.toList.map fun c => quoted (String.singleton c)
  | e => [s!"({quoted source.toString}, {quoted target.toString}, {quoted e.message})"]

/-- What goes wrong in a task, as a report. -/
def reported (report : FileError → List String) (task : FileTask Unit) : FileTask (List String) :=
  tryCatch (do task; return []) fun e => return report e

/-- Whether a name is left out of a copy. -/
def isIgnored (ignored : List String) (name : String) : Bool :=
  ignored.any fun pattern => Wildcard.matchesName pattern name

/-- Copies what a directory holds into another; links may lead `depth` directories down at most. -/
def copyDirectory (ignored : List String) : Nat → Path → Path → FileTask Unit
  | 0, source, _ => throw (.refused .linkLoop source.toString)
  | depth + 1, source, target => do
    match (← get).follow source with
    | .error fault => throw (.refused fault source.toString)
    | .ok (.vacant _) => throw (.refused .notFound source.toString)
    | .ok (.entry location _) =>
      let names := ((← get).children location).map Prod.fst
      makeDirectories target
      let reports ← (names.filter fun name => !isIgnored ignored name).mapM fun name => do
        let (old, new) := (source.child name, target.child name)
        reported (reportOf old new)
          (do if (← get).isDirectory old then copyDirectory ignored depth old new
              else copyFile true old new)
      if reports.flatten ≠ [] then throw (.several reports.flatten)

/-- How many directories deep a copy may lead: each link starts anew among the entries of the tree. -/
def depthLimit (tree : FileTree) : Nat := (tree.entries.length + 2) * (FileTree.linkLimit + 1)

/-- Copies a file, or what a directory holds. -/
def copy (ignored : List String) (source target : Path) : FileTask Unit := do
  let tree ← get
  match tree.asksDirectory source with
  | .error e => throw e
  | .ok true => copyDirectory ignored (depthLimit tree) source target
  | .ok false => do
    ensureDirectory target.parent
    copyFile false source target

end WasmPackaging.FileTask
