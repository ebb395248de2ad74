import WasmPackaging.Failure
import WasmPackaging.FileTree.Change

/-!
Tasks on files: sequences of changes. What was changed before a failure stays changed.
-/

namespace WasmPackaging

open Text

/-- A sequence of changes that a file system may refuse. -/
abbrev FileTask := ExceptT FileError (StateM FileTree)

/-- A sequence of changes that may fail for any reason. -/
abbrev FileRun := ExceptT Failure (StateM FileTree)

instance : MonadLift FileTask FileRun := ⟨ExceptT.adapt Failure.refused⟩

namespace FileTask

/-- A change as a task. -/
def change (f : FileTree → Except FileError FileTree) : FileTask Unit := do
  match f (← get) with
  | .ok tree => set tree
  | .error e => throw e

/-- Makes a directory where nothing stands, and tells its location. -/
def makeFresh (path : Path) : FileTask Location := do
  let tree ← get
  match tree.vacancy path with
  | .ok location =>
    set (tree.put location .directory)
    return location
  | .error e => throw e

/-- Makes a directory; that it is there already is no failure. -/
def allowDirectory (path : Path) (e : FileError) : FileTask Unit := do
  if (← get).isDirectory path then return else throw e

/-- Makes a directory, and its parent first if that is found to be missing. -/
def ensureDirectory (path : Path) : FileTask Unit := do
  match (← get).makeDirectory path with
  | .ok tree => set tree
  | .error (.refused .notFound name) =>
    if _h : path.parts = [] then throw (.refused .notFound name)
    else
      ensureDirectory path.parent
      match (← get).makeDirectory path with
      | .ok tree => set tree
      | .error (.refused .notFound name) => throw (.refused .notFound name)
      | .error e => allowDirectory path e
  | .error e => allowDirectory path e
termination_by path.parts.length
decreasing_by
  have := List.length_pos_iff.2 _h
  simp [Path.parent]
  omega

/-- Makes the directories of a path that do not exist, the outermost first. -/
def makeDirectories (path : Path) : FileTask Unit := do
  if _h : path.parts = [] then pure ()
  else if (← get).exists? path.parent then pure ()
  else
    try makeDirectories path.parent
    catch
      | .refused .exists _ => pure ()
      | e => throw e
  match (← get).makeDirectory path with
  | .ok tree => set tree
  | .error e => allowDirectory path e
termination_by path.parts.length
decreasing_by
  have := List.length_pos_iff.2 _h
  simp [Path.parent]
  omega

/-- Writes a file in a directory that is made if need be. -/
def writeBytes (path : Path) (content : Bytes) : FileTask Unit := do
  ensureDirectory path.parent
  change (·.write path content)

/-- Writes a text in a directory that is made if need be. -/
def writeText (path : Path) (content : String) : FileTask Unit := writeBytes path (encode content)

end FileTask

namespace FileRun

/-- What a question about the files has for an answer. -/
def ask {α : Type} (question : FileTree → α) : FileRun α := do return question (← get)

/-- What a computation on the files yields, which may fail. -/
def askFor {α ε : Type} (failure : ε → Failure) (question : FileTree → Except ε α) : FileRun α := do
  match question (← get) with
  | .ok answer => return answer
  | .error e => throw (failure e)

/-- A run in which a refused operation counts as the failure of an action. -/
def during {α : Type} (verb subject : String) (run : FileRun α) : FileRun α :=
  ExceptT.adapt (Failure.during verb subject) run

/-- The real path of a path. -/
def resolve (path : Path) : FileRun Path := do
  return .ofLocation (← askFor .unresolvable (·.resolve path))

/-- The bytes of a file. -/
def readBytes (path : Path) : FileRun Bytes := askFor .refused (·.read path)

/-- The text of a file, each line end read as a line feed. -/
def readText (path : Path) : FileRun String := do
  match decode (← readBytes path) with
  | .ok text => return String.ofList (plainNewlines text)
  | .error e => throw (.undecodable e)

/-- The text with another line end in place of each line feed. -/
def withLineEnd (lineEnd : List Char) (content : String) : String :=
  String.ofList (content.toList.flatMap fun c => if c = '\n' then lineEnd else [c])

/-- Writes a text with a given line end, in a directory that is made if need be. An unknown line end
is noticed when the file is already empty. -/
def writeTextWith (path : Path) (content : String) (lineEnd : String) : FileRun Unit :=
  if lineEnd = "" ∨ lineEnd = "\n" ∨ lineEnd = "\r" ∨ lineEnd = "\r\n" then
    let ending := if lineEnd = "" then ['\n'] else lineEnd.toList
    FileTask.writeText path (withLineEnd ending content)
  else do
    FileTask.writeText path ""
    throw (.unsupported (.lineEnd lineEnd))

/-- A path against a root, resolved. -/
def resolveIn (root path : Path) : FileRun Path := resolve (root.join path)

end FileRun

end WasmPackaging
