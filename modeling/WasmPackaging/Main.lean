import WasmPackaging.CommandLine.Program
import WasmPackaging.FileTree.Difference
import WasmPackaging.Shell.Launch

/-!
The command line. What lies below the directories that a command line names is read from the disk, the
command is carried out on that tree, and what has changed is written back. Anything else on the disk
counts as missing, and the tools that a build calls are the programs of the shell.
-/

namespace WasmPackaging.CommandLine

open Config Targets

/-- The locations above a location, the root left out. -/
def above (location : Location) : List Location :=
  (List.range location.length).tail.map fun count => location.take count

/-- The directories whose files a command line works with. -/
def scope (here : Location) (arguments : List String) : List Location :=
  let placed (path : Path) : Location := path.normalize here
  match invocation arguments with
  | .ok ⟨_, .build request⟩ =>
    here :: (request.projectRoot.toList.map fun root => placed (.ofString root)) ++
      request.settings.toList.map fun file => placed (Path.ofString file).parent
  | _ => []

/-! ## The disk -/

/-- The entries on the disk at a location and below it. A link is read as the place it leads to. -/
partial def readBelow (location : Location) : IO (List (Location × Entry)) := do
  let place := (← IO.currentDir) / (Path.ofLocation location).toString
  match ← place.symlinkMetadata.toBaseIO with
  | .error _ => return []
  | .ok found =>
    match found.type with
    | .file => return [(location, .file (← IO.FS.readBinFile place).toList)]
    | .symlink => return [(location, .link (← IO.FS.realPath place).toString)]
    | .dir =>
      let parts ← (← place.readDir).toList.mapM fun entry => readBelow (location ++ [entry.fileName])
      return (location, .directory) :: parts.flatten
    | .other => return []

/-- The tree of what lies in some directories. -/
def readTree (here : Location) (roots : List Location) : IO FileTree := do
  let outer := (roots.flatMap above).map fun location => (location, Entry.directory)
  let inner ← roots.mapM readBelow
  let add (entries : List (Location × Entry)) (e : Location × Entry) : List (Location × Entry) :=
    FileTree.set e.1 e.2 entries
  return ⟨(outer ++ inner.flatten).foldl add [], here⟩

/-- Brings the disk from one tree to another. A link that a tool has made is left out. -/
def writeBack (before after : FileTree) : IO Unit := do
  let disk ← IO.currentDir
  for location in before.gone after do
    let place := disk / (Path.ofLocation location).toString
    match before.lookup location with
    | some .directory => IO.FS.removeDir place
    | _ => IO.FS.removeFile place
  for (location, entry) in before.fresh after do
    let place := disk / (Path.ofLocation location).toString
    match entry with
    | .file content => IO.FS.writeBinFile place (ByteArray.mk content.toArray)
    | .directory => IO.FS.createDir place
    | .link _ => pure ()

end WasmPackaging.CommandLine

open WasmPackaging WasmPackaging.CommandLine

/-- Carries out a command line. -/
def main (arguments : List String) : IO UInt32 := do
  let here := (Path.ofString (← IO.currentDir).toString).parts
  let before ← readTree here (scope here arguments)
  let contextOf (settings : Config.Settings) : FileRun (Targets.Context Unit) :=
    Targets.Context.create settings Shell.runCommand
  let (ended, world) := (run contextOf arguments).run ⟨before, ()⟩
  writeBack before world.files
  match ended with
  | .ok outcome =>
    IO.print outcome.output
    IO.eprint outcome.complaints
    return outcome.status.toUInt32
  | .error failure =>
    IO.eprintln failure.message
    return 1
