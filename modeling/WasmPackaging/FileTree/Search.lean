import WasmPackaging.FileTree.Walk
import WasmPackaging.Text.Wildcard

/-!
Searching a directory for the paths that a pattern describes. A part of a pattern is a name, a wildcard
pattern of names, or two stars for any number of directories; the directories that two stars stand for
are not reached through links.
-/

namespace WasmPackaging

open Text

/-- Why a pattern of paths cannot be used for a search. -/
inductive PatternError where
  | empty (pattern : String)
  | absolute
  | noParts
  | onlySlash
  | partOfName
  deriving DecidableEq

/-- The wording of the error. -/
def PatternError.message : PatternError → String
  | .empty pattern => s!"Unacceptable pattern: {quoted pattern}"
  | .absolute => "Non-relative patterns are unsupported"
  | .noParts => "tuple index out of range"
  | .onlySlash => "'_TerminatingSelector' object has no attribute 'select_from'"
  | .partOfName => "Invalid pattern: '**' can only be an entire path component"

/-- A part of a pattern. -/
inductive PatternPart where
  | name (name : String)
  | wildcard (pattern : String)
  | anyDepth
  deriving DecidableEq

/-- A pattern of paths; one that ends in a slash describes directories only. -/
structure PathPattern where
  parts : List PatternPart
  onlyDirectories : Bool
  deriving DecidableEq

/-- The sign for any number of directories. -/
def anyDepthSign : String := "**"

/-- Whether a text holds two stars next to each other. -/
def holdsTwoStars : List Char → Bool
  | '*' :: '*' :: _ => true
  | _ :: rest => holdsTwoStars rest
  | [] => false

namespace PatternPart

/-- The part that a text between slashes writes. -/
def ofText (s : String) : Except PatternError PatternPart :=
  if s = anyDepthSign then .ok .anyDepth
  else if holdsTwoStars s.toList then .error .partOfName
  else if s.toList.any fun c => c == '*' || c == '?' || c == '[' then .ok (.wildcard s)
  else .ok (.name s)

end PatternPart

namespace PathPattern

/-- The pattern that a text writes. -/
def ofString (s : String) : Except PatternError PathPattern :=
  let path := Path.ofString s
  if s = "" then .error (.empty s)
  else if path.isAbsolute then .error .absolute
  else
    let onlyDirectories := s.toList.getLast? == some '/'
    if path.parts = [] then .error (if onlyDirectories then .onlySlash else .noParts)
    else do
      let parts ← path.parts.mapM PatternPart.ofText
      return ⟨parts, onlyDirectories⟩

end PathPattern

namespace FileTree

/-- The names in the directory that a path leads to. -/
def namesIn (tree : FileTree) (directory : Path) : List String :=
  match tree.follow directory with
  | .ok (.entry location .directory) => (tree.children location).map Prod.fst
  | _ => []

/-- The names that lead from a directory to each directory below it, without links; the directory
itself is reached by none. -/
def directoriesBelow (tree : FileTree) (directory : Path) : List (List String) :=
  match tree.follow directory with
  | .ok (.entry location .directory) =>
    [] :: tree.entries.filterMap fun (place, entry) =>
      match entry, Path.below? location place with
      | .directory, some (name :: names) => some (name :: names)
      | _, _ => none
  | _ => []

/-- The paths from a directory on that the parts of a pattern describe. -/
def matchesFrom (tree : FileTree) (onlyDirectories : Bool) (here : Path) :
    List PatternPart → Except FileError (List Path)
  | [] => .ok [here]
  | part :: rest =>
    let last := rest = [] ∧ onlyDirectories = false
    let step (path : Path) (name : String) : Path := { path with parts := path.parts ++ [name] }
    match part with
    | .name name => do
      if ← if last then tree.asksEntry (step here name) else tree.asksDirectory (step here name) then
        tree.matchesFrom onlyDirectories (step here name) rest
      else return []
    | .wildcard pattern => do
      let found ← (tree.namesIn here).mapM fun name => do
        let enters : Except FileError Bool := if last then .ok true else tree.asksDirectory (step here name)
        if (← enters) && Wildcard.matchesName pattern name then
          tree.matchesFrom onlyDirectories (step here name) rest
        else return []
      return found.flatten
    | .anyDepth => do
      let found ← (tree.directoriesBelow here).mapM fun names =>
        tree.matchesFrom onlyDirectories { here with parts := here.parts ++ names } rest
      return found.flatten.eraseDups

/-- Whether a path comes before another, or is the same: their parts decide in order. -/
def isBefore (a b : Path) : Bool := !decide (b.parts < a.parts)

/-- The paths in a directory that a pattern describes, in order. -/
def search (tree : FileTree) (directory : Path) (pattern : PathPattern) :
    Except FileError (List Path) := do
  if ← tree.asksDirectory directory then
    return (← tree.matchesFrom pattern.onlyDirectories directory pattern.parts).mergeSort isBefore
  else return []

end FileTree

end WasmPackaging
