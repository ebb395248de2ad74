import WasmPackaging.FileTree.Walk

/-!
Single changes of a file tree. Each either fails and changes nothing, or changes the entry at one
location, or at two for a move.
-/

namespace WasmPackaging.FileTree

/-- Writes a file, through a link at the end of its path. -/
def write (tree : FileTree) (path : Path) (content : Text.Bytes) : Except FileError FileTree :=
  match tree.follow path with
  | .ok (.entry location (.file _)) => .ok (tree.put location (.file content))
  | .ok (.vacant location) => .ok (tree.put location (.file content))
  | .ok (.entry _ _) => .error (.refused .isDirectory path.toString)
  | .error fault => .error (.refused fault path.toString)

/-- The free place that a path names. -/
def vacancy (tree : FileTree) (path : Path) : Except FileError Location :=
  match tree.locate path with
  | .ok (.vacant location) => .ok location
  | .ok (.entry _ _) => .error (.refused .exists path.toString)
  | .error fault => .error (.refused fault path.toString)

/-- Makes a directory in one that is there. -/
def makeDirectory (tree : FileTree) (path : Path) : Except FileError FileTree :=
  (tree.vacancy path).map (tree.put · .directory)

/-- Makes a symbolic link. -/
def makeLink (tree : FileTree) (path : Path) (target : String) : Except FileError FileTree :=
  (tree.vacancy path).map (tree.put · (.link target))

/-- Removes a file or a link. -/
def unlink (tree : FileTree) (path : Path) : Except FileError FileTree :=
  match tree.locate path with
  | .ok (.entry _ .directory) => .error (.refused .isDirectory path.toString)
  | .ok (.entry location _) => .ok (tree.erase location)
  | .ok (.vacant _) => .error (.refused .notFound path.toString)
  | .error fault => .error (.refused fault path.toString)

/-- Moves a file or a link to a path, over the file or link that stands there. -/
def move (tree : FileTree) (source target : Path) : Except FileError FileTree :=
  let refuse (fault : Fault) : Except FileError FileTree :=
    .error (.refusedPair fault source.toString target.toString)
  match tree.locate source, tree.locate target with
  | .error fault, _ => refuse fault
  | .ok (.vacant _), _ => refuse .notFound
  | .ok (.entry _ .directory), _ => refuse .isDirectory
  | _, .error fault => refuse fault
  | _, .ok (.entry _ .directory) => refuse .isDirectory
  | .ok (.entry here entry), .ok (.entry there _) =>
    .ok (if here = there then tree else (tree.erase here).put there entry)
  | .ok (.entry here entry), .ok (.vacant there) => .ok ((tree.erase here).put there entry)

end WasmPackaging.FileTree
