import WasmPackaging.FileTree.Copying
import WasmPackaging.Text.Pieces
import WasmPackaging.World

/-!
Laying out what a target publishes: copying, renaming and cleaning up. Relative paths start at the root
of the publisher. In a batch every entry is attempted; then the failure of the first one that failed
ends the run.
-/

namespace WasmPackaging

open Text

/-- Lays out files under a root. -/
structure Publisher where
  root : Path
  deriving DecidableEq

/-- Attempts all of some runs; the first failure counts. -/
def attemptAll : List (FileRun Unit) → FileRun Unit
  | [] => pure ()
  | run :: rest => fun tree =>
    match run tree with
    | (.ok _, tree) => attemptAll rest tree
    | (.error failure, tree) => (.error failure, (attemptAll rest tree).2)

/-- A text with the first place where another stands replaced. -/
def replaceFirst (old new : List Char) : List Char → List Char
  | [] => if old = [] then new else []
  | c :: rest =>
    if old.isPrefixOf (c :: rest) then new ++ (c :: rest).drop old.length
    else c :: replaceFirst old new rest

/-- Whether a text stands somewhere in another. -/
def standsIn (part : List Char) : List Char → Bool
  | [] => part = []
  | c :: rest => part.isPrefixOf (c :: rest) || standsIn part rest

/-- A name without the last place where a text stands in it. -/
def withoutLast? (part name : List Char) : Option (List Char) :=
  if standsIn part name then some (replaceFirst part.reverse [] name.reverse).reverse else none

namespace Publisher

/-- The publisher for a project. -/
def forProject (project : Path) : FileRun Publisher := do return ⟨← FileRun.resolve project⟩

/-- The real path of a path that starts at the root. -/
def place (publisher : Publisher) (path : Path) : FileRun Path := FileRun.resolveIn publisher.root path

/-! ## Copying -/

/-- Copies an entry of a batch. -/
def copyEntry (ignored : List String) (source target : Path) : FileRun Unit :=
  FileRun.during "copy" source.toString (FileTask.copy ignored source target)

/-- Copies each source to its target, directories with all they hold; names that an ignored pattern
describes are left out of directories. Answers with the targets. -/
def copy (publisher : Publisher) (mapping : List (Path × Path)) (ignored : List String) :
    FileRun (List Path) := do
  let pairs ← mapping.mapM fun (source, target) => do
    return (← publisher.place source, ← publisher.place target)
  attemptAll (pairs.map fun (source, target) => copyEntry ignored source target)
  return pairs.map Prod.snd

/-- The path that a path is copied to when one text in it is swapped for another. -/
def swapped (old new : String) (path : Path) : Except BuildFault (Path × Path) :=
  let text := path.toString
  if standsIn old.toList text.toList then
    .ok (path, .ofString (String.ofList (replaceFirst old.toList new.toList text.toList)))
  else .error (.foreignPath text old)

/-- Copies each path to the one that swapping a text for another gives. -/
def copySwapped (publisher : Publisher) (paths : List Path) (old new : String) : FileRun (List Path) := do
  match paths.eraseDups.mapM (swapped old new) with
  | .error fault => throw (.build fault)
  | .ok mapping => publisher.copy mapping []

/-! ## Renaming -/

/-- The path that a file is moved to when a text is taken out of its name; nothing if its name lacks
the text. -/
def renamed? (suffix : String) (path : Path) : Except NameError (Option (Path × Path)) :=
  match withoutLast? suffix.toList path.name.toList with
  | none => .ok none
  | some name => (path.withName (String.ofList name)).map fun target => some (path, target)

/-- Moves a file, over one that stands at its target. -/
def moveEntry (source target : Path) : FileRun Unit :=
  FileRun.during "move" source.toString (FileTask.change (·.move source target) : FileTask Unit)

/-- The moves that take a text out of the names of files. -/
def moves (tree : FileTree) (suffix : String) (paths : List Path) :
    Except Failure (List (Path × Path)) := do
  let found ← paths.mapM fun path => do
    if ← (tree.asksFile path).mapError .refused then (renamed? suffix path).mapError .name
    else return none
  return found.filterMap id

/-- Takes a text out of the names of all files that a pattern describes. Answers with their new paths. -/
def moveAndRename (publisher : Publisher) (pattern suffix : String) (base : Option Path) :
    FileRun (List Path) := do
  let start ← match base with
    | some base => publisher.place base
    | none => pure publisher.root
  match PathPattern.ofString pattern with
  | .error e => throw (.pattern e)
  | .ok pattern =>
    let found ← FileRun.askFor .refused (·.search start pattern)
    let pairs ← FileRun.askFor id (moves · suffix found)
    attemptAll (pairs.map fun (source, target) => moveEntry source target)
    return pairs.map Prod.snd

/-! ## Temporary files -/

/-- Deletes a file. -/
def deleteTemporary (publisher : Publisher) (path : Path) : FileRun Unit := do
  let target ← publisher.place path
  FileRun.during "delete" target.toString (FileTask.change (·.unlink target) : FileTask Unit)

/-- Deletes a file if it is there. -/
def discard (path : Path) : FileRun Unit := do
  if ← FileRun.askFor .refused (·.asksEntry path) then (FileTask.change (·.unlink path) : FileTask Unit)

/-- Does something with the path of a temporary file, which is deleted at the end in any case. -/
def withTemporary {τ α : Type} (publisher : Publisher) (path : Path) (act : Path → Run τ α) : Run τ α := do
  let target ← (publisher.place path : FileRun Path)
  try act target finally (discard target : FileRun Unit)

end Publisher

end WasmPackaging
