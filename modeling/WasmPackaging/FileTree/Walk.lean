import WasmPackaging.FileTree.Basic
import WasmPackaging.FileTree.Fault

/-!
Walking a path through a file tree. Every link on the way is followed, the one at the end only when
asked to; a walk that meets too many links fails. The questions about a path that have a yes or no
for an answer, and the reading of files, rest on the walk.
-/

namespace WasmPackaging

open Text

namespace FileTree

/-- Where a walk ends: at an entry, or at a free place in a directory. -/
inductive Found where
  | entry (location : Location) (entry : Entry)
  | vacant (location : Location)
  deriving DecidableEq

/-- The longest name that an entry can have, in bytes. -/
def longestName : Nat := 255

/-- The longest text of a path that can be looked up, in bytes. -/
def longestPath : Nat := 4095

/-- A bound on the number of paths of so many bytes: each byte gives a digit at most, for a character or for
the start of a name. -/
def pathCount (bytes : Nat) : Nat := Nat.pow 0x110002 bytes

/-- The number of links that a walk may follow. -/
def linkLimit : Nat := 40

/-- Where a link leads on from, given the directory it stands in. -/
def linkStart (place : Location) (target : String) : Location :=
  if Anchor.ofText target.toList = .relative then place else []

/-- Walks on from a directory, following a number of links at most. -/
def walk (tree : FileTree) (follow : Bool) (limit : Nat) (place : Location) :
    List String → Except Fault Found
  | [] => .ok (.entry place .directory)
  | part :: rest =>
    if !isPart part then tree.walk follow limit place rest
    else if part = parentStep then tree.walk follow limit place.dropLast rest
    else if longestName < part.utf8ByteSize then .error .nameTooLong
    else
      let here := place ++ [part]
      match _hentry : tree.lookup here with
      | none => if rest = [] then .ok (.vacant here) else .error .notFound
      | some .directory => tree.walk follow limit here rest
      | some (.file content) =>
        if rest = [] then .ok (.entry here (.file content)) else .error .notDirectory
      | some (.link target) =>
        if rest = [] ∧ follow = false then .ok (.entry here (.link target))
        else match limit with
          | 0 => .error .linkLoop
          | limit + 1 => tree.walk follow limit (linkStart place target) (slashed target ++ rest)
termination_by parts => parts.length + limit * (linkSize tree.entries + 1)
decreasing_by
  · simp
  · simp
  · simp
  · have := length_le_of_link _hentry
    rw [Nat.succ_mul]
    simp
    omega

/-- The directory that a path starts at. -/
def start (tree : FileTree) (path : Path) : Location :=
  if path.isAbsolute then [] else tree.workingDirectory

/-- Why a path cannot be looked up at all. -/
def pathFault? (path : Path) : Option Fault :=
  if path.holdsZero then some .zeroCharacter
  else if longestPath < path.toString.utf8ByteSize then some .nameTooLong else none

/-- What a path leads to, every link followed. -/
def follow (tree : FileTree) (path : Path) : Except Fault Found :=
  match pathFault? path with
  | some fault => .error fault
  | none => tree.walk true linkLimit (tree.start path) path.steps

/-- What a path names, a link at its end not followed. -/
def locate (tree : FileTree) (path : Path) : Except Fault Found :=
  match pathFault? path with
  | some fault => .error fault
  | none => tree.walk false linkLimit (tree.start path) path.steps

/-- Whether what a path leads to passes a test. Nothing passes where the path leads nowhere, but a name
that is too long leaves the question open. -/
def asks (tree : FileTree) (path : Path) (test : Entry → Bool) : Except FileError Bool :=
  match tree.follow path with
  | .ok (.entry _ entry) => .ok (test entry)
  | .ok (.vacant _) => .ok false
  | .error .nameTooLong => .error (.refused .nameTooLong path.toString)
  | .error _ => .ok false

/-- Whether a path leads to a file, unless that is left open. -/
def asksFile (tree : FileTree) (path : Path) : Except FileError Bool :=
  tree.asks path fun
    | .file _ => true
    | _ => false

/-- Whether a path leads to a directory, unless that is left open. -/
def asksDirectory (tree : FileTree) (path : Path) : Except FileError Bool := tree.asks path (· == .directory)

/-- Whether a path leads to anything, unless that is left open. -/
def asksEntry (tree : FileTree) (path : Path) : Except FileError Bool := tree.asks path fun _ => true

/-- Whether a path leads to a file. -/
def isFile (tree : FileTree) (path : Path) : Bool :=
  match tree.follow path with
  | .ok (.entry _ (.file _)) => true
  | _ => false

/-- Whether a path leads to a directory. -/
def isDirectory (tree : FileTree) (path : Path) : Bool :=
  match tree.follow path with
  | .ok (.entry _ .directory) => true
  | _ => false

/-- Whether a path leads to anything. -/
def exists? (tree : FileTree) (path : Path) : Bool :=
  match tree.follow path with
  | .ok (.entry _ _) => true
  | _ => false

/-- The content of the file that a path leads to. -/
def read (tree : FileTree) (path : Path) : Except FileError Bytes :=
  match tree.follow path with
  | .ok (.entry _ (.file content)) => .ok content
  | .ok (.entry _ _) => .error (.refused .isDirectory path.toString)
  | .ok (.vacant _) => .error (.refused .notFound path.toString)
  | .error fault => .error (.refused fault path.toString)

/-- Whether two paths lead to the same entry. -/
def isSame (tree : FileTree) (a b : Path) : Bool :=
  match tree.follow a, tree.follow b with
  | .ok (.entry here _), .ok (.entry there _) => here == there
  | _, _ => false

end FileTree

end WasmPackaging
