import WasmPackaging.Path
import WasmPackaging.Text.Pieces

/-!
Specifiers of imports: which of them name a place relative to the importing module, which pattern
covers the paths they end in, and the specifier that leads from a directory to a file. Main fact: a
specifier that was made to lead to a file is local (`isLocal_relative`).
-/

namespace WasmPackaging.Specifier

open Text

/-- Whether a specifier names a place relative to the module that imports it, or an absolute one. -/
def isLocal : List Char → Bool
  | '/' :: _ => true
  | ['.'] => true
  | ['.', '.'] => true
  | '.' :: '/' :: _ => true
  | '.' :: '.' :: '/' :: _ => true
  | _ => false

/-- The specifier without its leading steps to the current and the parent directory. -/
def dropSteps : List Char → List Char
  | '.' :: '/' :: rest => dropSteps rest
  | '.' :: '.' :: '/' :: rest => dropSteps rest
  | rest => rest

/-- The pattern of import paths that stays valid wherever the importing module is moved: of a local
specifier, its end. -/
def externalPattern (specifier : List Char) : List Char :=
  if isLocal specifier then '*' :: (dropSteps specifier).dropWhile (· == '/') else specifier

/-- Whether a text starts like the name of a package: neither with a slash nor with a step. -/
def namesPackage : List Char → Bool
  | '.' :: '.' :: c :: _ => c != '/' && c != '\\'
  | '.' :: c :: _ => c != '.' && c != '/' && c != '\\'
  | c :: _ => c != '.' && c != '/' && c != '\\'
  | [] => false

/-- The specifier that a relative path is written as. -/
def ofRelative (path : Path) : String :=
  let text := path.toString
  match text.toList with
  | '.' :: '.' :: '/' :: _ => text
  | _ => "./" ++ text

/-- The specifier that leads from one location to another. -/
def relative (target start : Location) : String := ofRelative (Path.relativeTo target start)

/-- A specifier made from a relative path is local. -/
theorem isLocal_ofRelative (path : Path) : isLocal (ofRelative path).toList = true := by
  unfold ofRelative
  simp only
  split
  · rename_i rest h; rw [h]; rfl
  · rw [String.toList_append]; rfl

/-- A specifier that leads to a file is local. -/
theorem isLocal_relative (target start : Location) : isLocal (relative target start).toList = true :=
  isLocal_ofRelative _

end WasmPackaging.Specifier
