import WasmPackaging.Text.Blank
import WasmPackaging.Text.Quoted

/-!
Why an operation on files fails, and how that is worded.
-/

namespace WasmPackaging

open Text

/-- What a file system refuses; a path that holds the zero character is refused before it is looked up. -/
inductive Fault where
  | notFound
  | noPermission
  | exists
  | notDirectory
  | isDirectory
  | nameTooLong
  | linkLoop
  | zeroCharacter
  deriving DecidableEq

/-- The number of a fault. -/
def Fault.number : Fault → Nat
  | .notFound => 2
  | .noPermission => 13
  | .exists => 17
  | .notDirectory => 20
  | .isDirectory => 21
  | .nameTooLong => 36
  | .linkLoop => 40
  | .zeroCharacter => 22

/-- The wording of a fault. -/
def Fault.text : Fault → String
  | .notFound => "No such file or directory"
  | .noPermission => "Permission denied"
  | .exists => "File exists"
  | .notDirectory => "Not a directory"
  | .isDirectory => "Is a directory"
  | .nameTooLong => "File name too long"
  | .linkLoop => "Too many levels of symbolic links"
  | .zeroCharacter => "embedded null byte"

/-- A refused operation: on one path, on a pair of them, or a copy of a file onto itself, or a copy of a
directory in which some copies failed. -/
inductive FileError where
  | refused (fault : Fault) (path : String)
  | refusedPair (fault : Fault) (source target : String)
  | sameFile (source target : String)
  | several (reports : List String)
  deriving DecidableEq

/-- A fault by its number and wording, and the paths it concerns as they are shown. -/
def faultText (number wording : String) (paths : List String) : String :=
  s!"[Errno {number}] {wording}" ++ if paths = [] then "" else ": " ++ " -> ".intercalate paths

/-- Whether the file system itself refused an operation. -/
def FileError.isSystem : FileError → Bool
  | .refused .zeroCharacter _ | .refusedPair .zeroCharacter _ _ => false
  | _ => true

/-- The wording of a refused operation. -/
def FileError.message : FileError → String
  | .refused .zeroCharacter _ | .refusedPair .zeroCharacter _ _ => Fault.zeroCharacter.text
  | .refused fault path => faultText (toString fault.number) fault.text [quoted path]
  | .refusedPair fault source target =>
    faultText (toString fault.number) fault.text [quoted source, quoted target]
  | .sameFile source target => s!"{source} and {target} are the same file"
  | .several reports => "[" ++ commaList reports ++ "]"

end WasmPackaging
