import WasmPackaging.Path
import WasmPackaging.Text.Utf8

/-!
File trees: what stands at each location below the root directory. Two trees are the same files when
they agree on every location; `lookup_put` and `lookup_erase` say what a change does to that view.
-/

namespace WasmPackaging

open Text

/-- What stands at a location: a file, a symbolic link with the text it holds, or a directory. -/
inductive Entry where
  | file (content : Bytes)
  | link (target : String)
  | directory
  deriving DecidableEq

/-- The entries below the root directory, and the directory at which relative paths start. -/
structure FileTree where
  entries : List (Location × Entry)
  workingDirectory : Location

namespace FileTree

/-- The first entry of a list at a location. -/
def find? (location : Location) : List (Location × Entry) → Option Entry
  | [] => none
  | (other, entry) :: rest => if other = location then some entry else find? location rest

/-- What stands at a location; the root is a directory. -/
def lookup (tree : FileTree) : Location → Option Entry
  | [] => some .directory
  | name :: names => find? (name :: names) tree.entries

/-- The entries of a list with one of them set. -/
def set (location : Location) (entry : Entry) : List (Location × Entry) → List (Location × Entry)
  | [] => [(location, entry)]
  | (other, old) :: rest =>
    if other = location then (location, entry) :: rest else (other, old) :: set location entry rest

/-- The tree with an entry set. -/
def put (tree : FileTree) (location : Location) (entry : Entry) : FileTree :=
  { tree with entries := set location entry tree.entries }

/-- The tree without the entry at a location. -/
def erase (tree : FileTree) (location : Location) : FileTree :=
  { tree with entries := tree.entries.filter fun e => e.1 ≠ location }

/-- The tree without a location and everything below it. -/
def eraseBelow (tree : FileTree) (location : Location) : FileTree :=
  { tree with entries := tree.entries.filter fun e => (Path.below? location e.1).isNone }

/-- The names in a directory with what stands there. -/
def children (tree : FileTree) (location : Location) : List (String × Entry) :=
  tree.entries.filterMap fun e =>
    match Path.below? location e.1 with
    | some [name] => some (name, e.2)
    | _ => none

/-- The number of parts in the texts of some links. -/
def linkSize : List (Location × Entry) → Nat
  | [] => 0
  | (_, .link target) :: rest => (slashed target).length + linkSize rest
  | _ :: rest => linkSize rest

theorem length_le_linkSize {entries : List (Location × Entry)} {location : Location} {target : String}
    (h : find? location entries = some (.link target)) : (slashed target).length ≤ linkSize entries := by
  induction entries with
  | nil => simp [find?] at h
  | cons e rest ih =>
    obtain ⟨place, entry⟩ := e
    simp only [find?] at h
    split at h
    · obtain rfl := Option.some.inj h
      simp [linkSize]
    · have := ih h
      cases entry <;> simp only [linkSize] <;> omega

/-- A link that stands in a tree has no more parts than all of its links have. -/
theorem length_le_of_link {tree : FileTree} {location : Location} {target : String}
    (h : tree.lookup location = some (.link target)) : (slashed target).length ≤ linkSize tree.entries := by
  cases location with
  | nil => simp [lookup] at h
  | cons name names => exact length_le_linkSize h

@[simp] theorem lookup_nil (tree : FileTree) : tree.lookup [] = some .directory := rfl

theorem find?_set (location other : Location) (entry : Entry) (entries : List (Location × Entry)) :
    find? other (set location entry entries) =
      if other = location then some entry else find? other entries := by
  induction entries with
  | nil => simp [set, find?, eq_comm]
  | cons e rest ih =>
    obtain ⟨place, old⟩ := e
    by_cases h : place = location
    · by_cases h2 : location = other
      · simp [set, find?, h, h2]
      · simp [set, find?, h, h2, Ne.symm h2]
    · by_cases h2 : place = other
      · have h3 : other ≠ location := h2 ▸ h
        simp [set, find?, h2, h3]
      · simp [set, find?, h, h2, ih]

/-- Setting an entry changes one location. -/
theorem lookup_put (tree : FileTree) {location : Location} (h : location ≠ []) (other : Location)
    (entry : Entry) :
    (tree.put location entry).lookup other =
      if other = location then some entry else tree.lookup other := by
  cases other with
  | nil => simp [lookup, h.symm]
  | cons name names => simp [lookup, put, find?_set]

theorem find?_filter (keep : Location → Bool) (other : Location) (entries : List (Location × Entry)) :
    find? other (entries.filter fun e => keep e.1) =
      if keep other then find? other entries else none := by
  induction entries with
  | nil => simp [find?]
  | cons e rest ih =>
    obtain ⟨place, entry⟩ := e
    by_cases hk : keep place = true
    · by_cases h : place = other
      · subst h; simp [find?, hk]
      · simp [find?, hk, h, ih]
    · by_cases h : place = other
      · subst h; simp [hk, ih]
      · simp [find?, hk, h, ih]

/-- Erasing an entry changes one location. -/
theorem lookup_erase (tree : FileTree) {location : Location} (h : location ≠ []) (other : Location) :
    (tree.erase location).lookup other = if other = location then none else tree.lookup other := by
  cases other with
  | nil => simp [lookup, h.symm]
  | cons name names =>
    have h2 := find?_filter (fun l => decide (l ≠ location)) (name :: names) tree.entries
    by_cases h3 : name :: names = location
    · simpa [lookup, erase, h3] using h2
    · simpa [lookup, erase, h3] using h2

/-- Erasing a directory changes what lies in it and nothing else. -/
theorem lookup_eraseBelow (tree : FileTree) {location : Location} (h : location ≠ [])
    (other : Location) :
    (tree.eraseBelow location).lookup other =
      if (Path.below? location other).isNone then tree.lookup other else none := by
  cases other with
  | nil => cases location with
    | nil => exact absurd rfl h
    | cons => simp [lookup, Path.below?]
  | cons name names =>
    exact find?_filter (fun l => (Path.below? location l).isNone) (name :: names) tree.entries

end FileTree

end WasmPackaging
