import WasmPackaging.Shell.Pattern
import WasmPackaging.Shell.Process

/-!
From a word with its values put in to the fields it stands for: it is split at separators, and a field
with signs of a pattern becomes the paths that the pattern describes.
-/

namespace WasmPackaging.Shell

open Text

/-- A part of a word with its values put in. Only what `splits` says is cut into fields; a mark stands
where something quoted starts, which may be empty, and a boundary between two arguments. -/
inductive Piece where
  | text (quoted splits : Bool) (text : String)
  | mark
  | boundary

/-- The text of some pieces, uncut. -/
def piecesText (pieces : List Piece) : String :=
  String.join (pieces.map fun
    | .text _ _ text => text
    | .mark => ""
    | .boundary => " ")

/-- The characters of some pieces, uncut. -/
def piecesMarked (pieces : List Piece) : List Marked :=
  pieces.flatMap fun
    | .text quoted _ text => marked quoted text
    | .mark => []
    | .boundary => [⟨' ', false⟩]

/-! ## Cutting -/

/-- Fields of a word: those that are complete and the characters of the one that is being put together,
the last ones first, and whether a blank has just ended a field. -/
structure Fields where
  complete : List (List Marked) := []
  current : Option (List Marked) := none
  isAfterBlank : Bool := false

namespace Fields

/-- The fields with a character put behind the current one. -/
def append (f : Fields) (c : Marked) : Fields := ⟨f.complete, some (c :: f.current.getD []), false⟩

/-- The fields with the current one completed. -/
def close (f : Fields) : Fields :=
  match f.current with
  | some field => ⟨field.reverse :: f.complete, none, false⟩
  | none => f

/-- The fields behind a separator: blanks are one with the separators around them. -/
def separate (f : Fields) (c : Char) : Fields :=
  if c == ' ' || c == '\t' || c == '\n' then
    if f.current.isSome then { f.close with isAfterBlank := true } else f
  else if f.current.isSome then f.close
  else if f.isAfterBlank then { f with isAfterBlank := false }
  else { f with complete := [] :: f.complete }

/-- The fields with a piece put behind. -/
def add (separators : List Char) (f : Fields) : Piece → Fields
  | .mark => { f with current := some (f.current.getD []) }
  | .boundary => { f.close with isAfterBlank := false }
  | .text quoted splits text =>
    if splits then
      text.foldl (fun f c => if separators.contains c then f.separate c else f.append ⟨c, quoted⟩) f
    else text.foldl (fun f c => f.append ⟨c, quoted⟩) f

/-- The fields that pieces are cut into. -/
def ofPieces (separators : List Char) (pieces : List Piece) : List (List Marked) :=
  (pieces.foldl (add separators) {}).close.complete.reverse

end Fields

/-! ## Paths -/

/-- The parts of a field between slashes. -/
def slashParts (field : List Marked) : List (List Marked) :=
  field.foldr (fun c parts => match parts with
    | part :: rest => if c.char == '/' then [] :: part :: rest else (c :: part) :: rest
    | [] => [[c]]) [[]]

/-- The names in a directory, itself and its parent too. -/
def namesIn (files : FileTree) (directory : Path) : List String :=
  match files.follow directory with
  | .ok (.entry location .directory) =>
    "." :: ".." :: (files.children location).map fun child => ofText child.1
  | _ => []

/-- Whether a pattern for names describes one: a dot at the start has to be written. -/
def describesName (part : List Marked) (name : String) : Bool :=
  (!name.startsWith "." || part.head?.any (·.char == '.')) && (Pattern.ofMarked part).accepts name.toList

/-- The paths behind a start that parts between slashes describe. -/
def matchingPaths (files : FileTree) (directory : Path) (start : String) : List (List Marked) → List String
  | [] => [start]
  | part :: rest =>
    let isLast := rest.isEmpty
    let slash := if isLast then "" else "/"
    if part.isEmpty then
      if isLast then
        if files.isDirectory (directory.join (.ofString (toText start))) then [start] else []
      else matchingPaths files directory (start ++ slash) rest
    else if Pattern.isWritten part then
      let names := namesIn files (directory.join (.ofString (toText start)))
      (names.filter (describesName part)).flatMap fun name =>
        let path := start ++ name
        if isLast then [path]
        else if files.isDirectory (directory.join (.ofString (toText path))) then
          matchingPaths files directory (path ++ slash) rest
        else []
    else
      let path := start ++ unmarked part
      if isLast then
        match files.locate (directory.join (.ofString (toText path))) with
        | .ok (.entry _ _) => [path]
        | _ => []
      else matchingPaths files directory (path ++ slash) rest

/-- The texts that a field stands for: the paths that it describes in order, or itself. -/
def textsOf (files : FileTree) (directory : Path) (keepsPatterns : Bool) (field : List Marked) :
    List String :=
  if keepsPatterns || !Pattern.isWritten field then [unmarked field]
  else
    match matchingPaths files directory "" (slashParts field) with
    | [] => [unmarked field]
    | paths => paths.mergeSort fun a b => decide (a ≤ b)

end WasmPackaging.Shell
