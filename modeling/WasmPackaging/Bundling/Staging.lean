import WasmPackaging.Bundling.ModuleText
import WasmPackaging.Bundling.Options
import WasmPackaging.Digest.Sha256
import WasmPackaging.FileTree.Copying

/-!
Staging copies the modules that an entry point leads to below a directory of their own, in the layout
of the project, with the decisions of the plugins written into them: an external specifier becomes the
path that the plugin gives, a loaded one the path of a payload file beside the copies. Which way a
specifier goes is decided by looking at the files alone (`Stager.route`).
-/

namespace WasmPackaging.Bundling

open Text

/-- The endings of the files whose specifiers are followed. -/
def scannedSuffixes : List String :=
  [".js", ".mjs", ".cjs", ".ts", ".mts", ".cts", ".jsx", ".tsx"]

/-- The endings of payload files by the loader that reads them. -/
def payloadSuffixes : List (String × String) := [("binary", ".bin"), ("text", ".txt")]

/-- What staging leaves behind: the directory of the copies, the copy of the entry point, the patterns
of external paths, the loaders by file ending, and the class of each specifier. -/
structure Staged where
  root : Path
  entryPoint : Path
  external : List String := []
  loaders : List (String × String) := []
  classes : List (String × ImportClass) := []

/-- A table with a value set under a key. -/
def setKey {α : Type} (key : String) (value : α) : List (String × α) → List (String × α)
  | [] => [(key, value)]
  | (other, old) :: rest =>
    if other = key then (key, value) :: rest else (other, old) :: setKey key value rest

/-- Where a path leads as a module: to a file, to a file whose ending is left out, or to the index of a
directory. -/
def resolveModule (extensions : List String) (tree : FileTree) (path : Path) :
    Except Failure (Option Location) := do
  let real (path : Path) : Except Failure (Option Location) :=
    ((tree.resolve path).mapError .unresolvable).map some
  let rec firstFile (candidate : String → Except Failure Path) :
      List String → Except Failure (Option Path)
    | [] => .ok none
    | ending :: rest => do
      let path ← candidate ending
      if ← (tree.asksFile path).mapError .refused then return some path else firstFile candidate rest
  if ← (tree.asksFile path).mapError .refused then real path
  else
    match ← firstFile (fun ending => (path.withName (path.name ++ ending)).mapError .name) extensions with
    | some file => real file
    | none =>
      if ← (tree.asksDirectory path).mapError .refused then
        match ← firstFile (fun ending => return path.child s!"index{ending}") extensions with
        | some index => real index
        | none => return none
      else return none

/-- What staging is given. -/
structure Stager where
  project : Location
  root : Path
  options : BuildOptions

/-- What becomes of a specifier: it stays, it is left to the host under a path, it is replaced by a
payload, or it leads to a module, and is rewritten if need be. -/
inductive Route where
  | keep
  | external (path : String)
  | payload (source : Path) (loaded : Loaded)
  | module (location : Location) (specifier : Option String)

namespace Stager

/-- The copy of a file of the project. -/
def copyOf (s : Stager) (location : Location) : Except Failure Path :=
  match Path.below? s.project location with
  | some parts => .ok (s.root.join ⟨.relative, parts⟩)
  | none =>
    let module := (Path.ofLocation location).toString
    .error (.build (.outsideProject module (Path.ofLocation s.project).toString))

/-- The directory of the payloads. -/
def payloadDirectory (s : Stager) : Path := s.root.child "__payloads__"

/-- The specifier that leads from one path to another. -/
def specifierTo (tree : FileTree) (target directory : Path) : String :=
  Specifier.relative (target.normalize tree.workingDirectory) (directory.normalize tree.workingDirectory)

/-- Where a path leads as a module of this build. -/
def resolveModule (s : Stager) (tree : FileTree) (path : Path) : Except Failure (Option Location) :=
  Bundling.resolveModule s.options.extensions tree path

/-- Whether the options leave a specifier alone. -/
def isExcluded (s : Stager) (specifier : String) : Bool :=
  s.options.external.any fun pattern => Wildcard.matchesName pattern specifier

/-- The way of a specifier that a plugin resolved, in the copy of a module at `copy`. -/
def routeResolved (s : Stager) (tree : FileTree) (copy : Path) (plugin : Plugin)
    (resolution : Resolution) : Except Failure Route := do
  if resolution.external then return .external resolution.path
  else match ← plugin.load tree resolution.path resolution.namespaceName with
    | some loaded => return .payload (.ofString resolution.path) loaded
    | none =>
      match ← s.resolveModule tree (.ofString resolution.path) with
      | some location => return .module location (specifierTo tree (← s.copyOf location) copy.parent)
      | none => return .keep

/-- The way of a specifier that is left to the bundler. -/
def routeOrdinary (s : Stager) (tree : FileTree) (directory copy : Path) (specifier : String) :
    Except Failure Route := do
  if Specifier.isLocal specifier.toList then
    match ← s.resolveModule tree (directory.child specifier) with
    | some location =>
      if (Path.ofString specifier).isAbsolute then
        return .module location (specifierTo tree (← s.copyOf location) copy.parent)
      else return .module location none
    | none => return .keep
  else return .keep

/-- The way of a specifier in a module, with its class unless the options leave it alone. -/
def route (s : Stager) (tree : FileTree) (module : Location) (specifier : String) :
    Except Failure (Option ImportClass × Route) := do
  if s.isExcluded specifier then return (none, .keep)
  else
    let copy ← s.copyOf module
    let directory := (Path.ofLocation module).parent
    let found ← classify s.options.plugins specifier
    let ordinary := s.routeOrdinary tree directory copy specifier
    match found.plugin with
    | none => return (some found.importClass, ← ordinary)
    | some plugin =>
      match ← plugin.resolve tree directory specifier (Path.ofLocation module) with
      | none => return (some found.importClass, ← ordinary)
      | some resolution =>
        return (some found.importClass, ← s.routeResolved tree copy plugin resolution)

/-- The file that holds loaded content: named for its source and its digest. -/
def payloadFile (s : Stager) (source : Path) (loaded : Loaded) (suffix : String) : Path :=
  let digest := (Digest.sha256 loaded.content.toBytes).toList.take 12
  s.payloadDirectory.child (source.stem ++ "." ++ String.ofList digest ++ suffix)

end Stager

/-- The state of staging: what was staged, and the modules still to be, the next one first. -/
structure StageState where
  staged : Staged
  queue : List Location

/-- A part of staging. -/
abbrev StageRun := StateT StageState FileRun

namespace Stager

/-- Writes loaded content into its payload file. -/
def writePayload (s : Stager) (source : Path) (loaded : Loaded) : StageRun Path := do
  match payloadSuffixes.lookup loaded.loader with
  | none => throw (.build (.unsupportedLoader loaded.loader source.toString))
  | some suffix =>
    let file := s.payloadFile source loaded suffix
    (FileTask.writeBytes file loaded.content.toBytes : FileRun Unit)
    modify fun state =>
      { state with staged.loaders := setKey suffix loaded.loader state.staged.loaders }
    return file

/-- Notes the pattern of an external path, once. -/
def noteExternal (path : String) : StageRun Unit :=
  modify fun state =>
    let pattern := String.ofList (Specifier.externalPattern path.toList)
    if state.staged.external.contains pattern then state
    else { state with staged.external := state.staged.external ++ [pattern] }

/-- Notes the class of a specifier. -/
def noteClass (specifier : String) : Option ImportClass → StageRun Unit
  | none => return
  | some importClass => modify fun state =>
    { state with staged.classes := setKey specifier importClass state.staged.classes }

/-- Takes a specifier of a module its way; the result stands in its place, if it changes. -/
def follow (s : Stager) (copy : Path) : Route → StageRun (Option String)
  | .keep => return none
  | .external path => do
    noteExternal path
    return some path
  | .payload source loaded => do
    let file ← s.writePayload source loaded
    let tree ← (get : FileRun FileTree)
    return some (specifierTo tree file copy.parent)
  | .module location specifier => do
    modify fun state => { state with queue := location :: state.queue }
    return specifier

/-- The text that a piece of a module has in its copy. -/
def copyPiece (s : Stager) (module : Location) (copy : Path) : Piece Mention → StageRun (List Char)
  | .plain c => return [c]
  | .hit found text => do
    let specifier := String.ofList found.specifier
    let tree ← (get : FileRun FileTree)
    match s.route tree module specifier with
    | .error e => throw e
    | .ok (importClass, way) =>
      noteClass specifier importClass
      match ← s.follow copy way with
      | none => return text
      | some replacement => return found.withSpecifier text replacement.toList

/-- Writes the copy of a module whose specifiers are followed. -/
def stageText (s : Stager) (module : Location) (copy : Path) : StageRun Unit := do
  let path := Path.ofLocation module
  let source ← FileRun.during "read module" path.toString (FileRun.readText path)
  let parts ← (pieces mention none source.toList).mapM (s.copyPiece module copy)
  (FileTask.writeText copy (String.ofList parts.flatten) : FileRun Unit)

/-- Writes the copy of a module. -/
def stageModule (s : Stager) (module : Location) : StageRun Unit := do
  match s.copyOf module with
  | .error e => throw e
  | .ok copy =>
    let path := Path.ofLocation module
    if scannedSuffixes.contains path.suffix then s.stageText module copy
    else
      FileRun.during "stage" path.toString do
        FileTask.ensureDirectory copy.parent
        FileTask.copyFile false path copy

/-- Stages the queued modules that were not seen, the last queued first; at most `limit` of them. The end
that stands for too low a limit is not met from `moduleLimit` on (`stageQueue_drains`). -/
def stageQueue (s : Stager) : Nat → List Location → StageRun Unit
  | limit, seen => do
    match (← get).queue.dropWhile seen.contains with
    | [] => return
    | module :: rest =>
      modify fun state => { state with queue := rest }
      match limit with
      | 0 => throw .unfinished
      | limit + 1 =>
        s.stageModule module
        s.stageQueue limit (module :: seen)

/-- How many modules may be staged: more than there are paths that can be looked up. There may be more than
files at the start, since copies of modules may be found as modules in turn. -/
def moduleLimit : Nat := FileTree.pathCount FileTree.longestPath + 1

/-- Stages the modules that the entry point leads to. -/
def stage (s : Stager) : FileRun Staged := do
  let tree ← get
  match s.resolveModule tree s.options.entryPoint with
  | .error e => throw e
  | .ok none => throw (.action "resolve entry point" s.options.entryPoint.toString none)
  | .ok (some entry) =>
    match s.copyOf entry with
    | .error e => throw e
    | .ok copy =>
      let start : StageState := ⟨{ root := s.root, entryPoint := copy }, [entry]⟩
      let ((), state) ← (s.stageQueue moduleLimit []).run start
      return state.staged

end Stager

/-- Stages the modules of a build below a directory. -/
def stage (project root : Path) (options : BuildOptions) : FileRun Staged := do
  let location ← FileRun.askFor .unresolvable (·.resolve project)
  Stager.stage ⟨location, root, options⟩

end WasmPackaging.Bundling
