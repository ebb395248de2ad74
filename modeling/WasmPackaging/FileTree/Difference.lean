import WasmPackaging.FileTree.Basic

/-!
What tells two file trees apart: what has to go from the one, and what has to be put there, before it
is the other.
-/

namespace WasmPackaging

/-- Whether another entry can be put where an entry stands. -/
def Entry.replaceable : Entry → Entry → Bool
  | .file _, .file _ | .directory, .directory => true
  | .link target, .link other => target = other
  | _, _ => false

namespace FileTree

/-- The locations whose entries have no successor in another tree, what lies deepest first. -/
def gone (before after : FileTree) : List Location :=
  let stays (e : Location × Entry) : Bool := (after.lookup e.1).any e.2.replaceable
  ((before.entries.filter fun e => !stays e).map Prod.fst).mergeSort fun a b => b.length ≤ a.length

/-- The entries of another tree that a tree does not have, what lies highest first. -/
def fresh (before after : FileTree) : List (Location × Entry) :=
  (after.entries.filter fun e => before.lookup e.1 ≠ some e.2).mergeSort fun a b =>
    a.1.length ≤ b.1.length

end FileTree

end WasmPackaging
