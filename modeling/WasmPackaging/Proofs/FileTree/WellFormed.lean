import Mathlib.Data.List.Induction
import Mathlib.Tactic.ByContra
import WasmPackaging.FileTree.Basic
import WasmPackaging.Proofs.Text.Spans

/-!
Well-formed file trees: every entry stands in a directory under a name that an entry can have. Main
facts: a file or a directory that is put where one may stand leaves the tree well-formed
(`WellFormed.put`), and a change at or below a location is undone by erasing what lies there
(`eraseBelow_put`).
-/

namespace WasmPackaging

open Text

/-! ## Names -/

/-- A text that can name an entry of a directory. -/
def IsEntryName (name : String) : Prop :=
  isPart name = true ∧ name ≠ parentStep ∧ '/' ∉ name.toList

instance : DecidablePred IsEntryName := fun _ => inferInstanceAs (Decidable (_ ∧ _ ∧ _))

theorem slashed_of_not_mem {name : String} (plain : '/' ∉ name.toList) : slashed name = [name] := by
  simp [slashed, splitAt_of_not_mem plain]

theorem not_mem_of_mem_slashed {s part : String} (h : part ∈ slashed s) : '/' ∉ part.toList := by
  obtain ⟨stretch, mem, rfl⟩ := List.mem_map.1 h
  intro slash
  rw [String.toList_ofList] at slash
  simpa using test_eq_false_of_mem_splitWhere mem '/' slash

/-- Names that lead down from a location, one directory after the other. -/
def AreNames (names : List String) : Prop := ∀ name ∈ names, IsEntryName name

instance (names : List String) : Decidable (AreNames names) :=
  inferInstanceAs (Decidable (∀ name ∈ names, _))

@[simp] theorem areNames_nil : AreNames [] := by simp [AreNames]

@[simp] theorem areNames_cons {name : String} {names : List String} :
    AreNames (name :: names) ↔ IsEntryName name ∧ AreNames names := by simp [AreNames]

@[simp] theorem areNames_append {a b : List String} : AreNames (a ++ b) ↔ AreNames a ∧ AreNames b := by
  simp [AreNames, or_imp, forall_and]

theorem AreNames.dropLast {names : List String} (named : AreNames names) : AreNames names.dropLast :=
  fun name mem => named name (List.dropLast_subset _ mem)

theorem flatMap_slashed {parts : List String} (plain : ∀ part ∈ parts, '/' ∉ part.toList) :
    parts.flatMap slashed = parts := by
  induction parts with
  | nil => rfl
  | cons part parts ih =>
    obtain ⟨first, rest⟩ := List.forall_mem_cons.1 plain
    simp [slashed_of_not_mem first, ih rest]

theorem AreNames.flatMap_slashed {names : List String} (named : AreNames names) :
    names.flatMap slashed = names := WasmPackaging.flatMap_slashed fun name mem => (named name mem).2.2

namespace Path

/-- The path that leads down from another by some names. -/
def under (p : Path) (names : List String) : Path := ⟨p.anchor, p.parts ++ names⟩

theorem join_relative (p : Path) (names : List String) : p.join ⟨.relative, names⟩ = p.under names := rfl

@[simp] theorem under_nil (p : Path) : p.under [] = p := by simp [under]

@[simp] theorem under_under (p : Path) (a b : List String) : (p.under a).under b = p.under (a ++ b) := by
  simp [under]

theorem steps_under (p : Path) {names : List String} (named : AreNames names) :
    (p.under names).steps = p.steps ++ names := by
  simp [steps, under, named.flatMap_slashed]

theorem parent_under (p : Path) {names : List String} (filled : names ≠ []) :
    (p.under names).parent = p.under names.dropLast := by
  simp [parent, under, List.dropLast_append_of_ne_nil filled]

theorem steps_ofLocation {location : Location} (named : AreNames location) :
    (ofLocation location).steps = location := named.flatMap_slashed

theorem child_of_name (p : Path) {name : String} (valid : IsEntryName name) :
    p.child name = p.under [name] := by
  have relative : Anchor.ofText name.toList = .relative := by
    unfold Anchor.ofText
    split <;> first | rfl | (rename_i h; exact absurd (h ▸ List.mem_cons_self) valid.2.2)
  have plain : ofString name = ⟨.relative, [name]⟩ := by
    simp [ofString, relative, slashed_of_not_mem valid.2.2, valid.1]
  rw [child, plain, join_relative]

theorem child_ofLocation {name : String} (valid : IsEntryName name) (location : Location) :
    (ofLocation location).child name = .ofLocation (location ++ [name]) := child_of_name _ valid

theorem below?_eq_none_iff {root location : Location} :
    below? root location = none ↔ ∀ parts, location ≠ root ++ parts := by
  rw [Option.eq_none_iff_forall_ne_some]
  simp [below?_eq_some_iff]

@[simp] theorem below?_append (root : Location) (parts : List String) :
    below? root (root ++ parts) = some parts := below?_eq_some_iff.2 rfl

end Path

namespace FileTree

/-! ## Trees in which every entry has a place -/

/-- A tree whose entries stand in directories, under names that entries can have. -/
structure WellFormed (tree : FileTree) : Prop where
  parent : ∀ place name, tree.lookup (place ++ [name]) ≠ none → tree.lookup place = some .directory
  named : ∀ place name, tree.lookup (place ++ [name]) ≠ none → IsEntryName name
  working : tree.lookup tree.workingDirectory = some .directory

namespace WellFormed

variable {tree : FileTree}

/-- Whatever lies above an entry is a directory. -/
theorem above (sound : tree.WellFormed) {place rest : Location} (filled : rest ≠ [])
    (present : tree.lookup (place ++ rest) ≠ none) : tree.lookup place = some .directory := by
  induction rest using List.reverseRecOn with
  | nil => exact absurd rfl filled
  | append_singleton rest name ih =>
    rw [← List.append_assoc] at present
    have outer := sound.parent _ _ present
    cases rest with
    | nil => simpa using outer
    | cons first rest => exact ih (by simp) (by rw [outer]; simp)

theorem areNames (sound : tree.WellFormed) {location : Location} (present : tree.lookup location ≠ none) :
    AreNames location := by
  induction location using List.reverseRecOn with
  | nil => exact areNames_nil
  | append_singleton place name ih =>
    refine areNames_append.2 ⟨ih ?_, by simpa using sound.named _ _ present⟩
    rw [sound.parent _ _ present]
    simp

theorem directory_dropLast (sound : tree.WellFormed) {place : Location}
    (directory : tree.lookup place = some .directory) : tree.lookup place.dropLast = some .directory := by
  cases place using List.reverseRecOn with
  | nil => rfl
  | append_singleton place name =>
    rw [List.dropLast_concat]
    exact sound.parent place name (by rw [directory]; simp)

/-- Whatever leads down to a directory is one. -/
theorem directory_above (sound : tree.WellFormed) {place rest : Location}
    (directory : tree.lookup (place ++ rest) = some .directory) : tree.lookup place = some .directory := by
  by_cases filled : rest = []
  · simpa [filled] using directory
  · exact sound.above filled (by simp [directory])

/-- Nothing lies below what is no directory. -/
theorem vacant_below (sound : tree.WellFormed) {location : Location} {rest : List String}
    (none : tree.lookup location ≠ some .directory) (filled : rest ≠ []) :
    tree.lookup (location ++ rest) = .none := by
  by_contra present
  exact none (sound.above filled present)

/-- Nothing lies deeper below a location that has nothing right below it. -/
theorem vacant_of_empty (sound : tree.WellFormed) {location : Location} {rest : List String}
    (empty : ∀ name, tree.lookup (location ++ [name]) = none) (filled : rest ≠ []) :
    tree.lookup (location ++ rest) = none := by
  obtain ⟨name, names, rfl⟩ := List.exists_cons_of_ne_nil filled
  by_cases last : names = []
  · simpa [last] using empty name
  · rw [List.append_cons]
    exact sound.vacant_below (by simp [empty]) last

/-- What is put in a directory, and takes no directory's place unless it is one, leaves the tree
well-formed. -/
theorem put (sound : tree.WellFormed) {place : Location} {name : String} {entry : Entry}
    (inside : tree.lookup place = some .directory) (valid : IsEntryName name)
    (fits : tree.lookup (place ++ [name]) = some .directory → entry = .directory) :
    (tree.put (place ++ [name]) entry).WellFormed := by
  have look := tree.lookup_put (List.concat_ne_nil name place)
  have kept {location : Location} (directory : tree.lookup location = some .directory) :
      (tree.put (place ++ [name]) entry).lookup location = some .directory := by
    rw [look]
    split
    · next same => rw [fits (same ▸ directory)]
    · exact directory
  constructor
  · intro outer other present
    rw [look] at present
    split at present
    · next same =>
      obtain ⟨rfl, -⟩ := List.append_inj' same rfl
      exact kept inside
    · exact kept (sound.parent _ _ present)
  · intro outer other present
    rw [look] at present
    split at present
    · next same =>
      obtain ⟨-, same⟩ := List.append_inj' same rfl
      rwa [List.singleton_inj.1 same]
    · exact sound.named _ _ present
  · exact kept sound.working

/-- What is no directory can be erased. -/
theorem erase (sound : tree.WellFormed) {location : Location} (solid : tree.lookup location ≠ some .directory) :
    (tree.erase location).WellFormed := by
  have filled : location ≠ [] := by
    rintro rfl
    exact solid rfl
  have look := tree.lookup_erase filled
  have present {other : Location} (there : (tree.erase location).lookup other ≠ none) : tree.lookup other ≠ none := by
    rw [look] at there
    split at there
    · exact absurd rfl there
    · exact there
  have kept {other : Location} (directory : tree.lookup other = some .directory) :
      (tree.erase location).lookup other = some .directory := by
    rw [look, if_neg]
    · exact directory
    · rintro rfl
      exact solid directory
  constructor
  · intro place name there
    exact kept (sound.parent place name (present there))
  · intro place name there
    exact sound.named place name (present there)
  · exact kept sound.working

/-- What is no directory stands in one, under a name. -/
theorem exists_outer (sound : tree.WellFormed) {location : Location} (present : tree.lookup location ≠ none)
    (solid : tree.lookup location ≠ some .directory) :
    ∃ outer name, location = outer ++ [name] ∧ tree.lookup outer = some .directory ∧ IsEntryName name := by
  cases location using List.reverseRecOn with
  | nil => exact absurd rfl solid
  | append_singleton outer name => exact ⟨outer, name, rfl, sound.parent _ _ present, sound.named _ _ present⟩

end WellFormed

theorem find?_eq_none_iff {location : Location} {entries : List (Location × Entry)} :
    find? location entries = none ↔ ∀ e ∈ entries, e.1 ≠ location := by
  induction entries with
  | nil => simp [find?]
  | cons e entries ih =>
    by_cases same : e.1 = location
    · simp [find?, same]
    · simp [find?, same, ih]

theorem mem_of_find? {location : Location} {entries : List (Location × Entry)} {entry : Entry}
    (found : find? location entries = some entry) : (location, entry) ∈ entries := by
  induction entries with
  | nil => simp [find?] at found
  | cons e entries ih =>
    obtain ⟨place, first⟩ := e
    simp only [find?] at found
    split at found
    · next same => simp [← same, Option.some.inj found]
    · exact List.mem_cons_of_mem _ (ih found)

theorem mem_entries_of_lookup {tree : FileTree} {location : Location} {entry : Entry}
    (filled : location ≠ []) (found : tree.lookup location = some entry) :
    (location, entry) ∈ tree.entries := by
  cases location with
  | nil => exact absurd rfl filled
  | cons name names => exact mem_of_find? found

/-- Something stands at each location that is listed. -/
theorem lookup_ne_none_of_mem {tree : FileTree} {location : Location} {entry : Entry} (listed : (location, entry) ∈ tree.entries) :
    tree.lookup location ≠ none := by
  cases location with
  | nil => simp
  | cons name names =>
    intro missing
    exact find?_eq_none_iff.1 missing _ listed rfl

/-- A tree is well-formed if each entry of its list has a name and stands in a directory. -/
theorem wellFormed_of_entries {tree : FileTree}
    (placed : ∀ e ∈ tree.entries,
      tree.lookup e.1.dropLast = some .directory ∧ ∀ name ∈ e.1.getLast?, IsEntryName name)
    (working : tree.lookup tree.workingDirectory = some .directory) : tree.WellFormed := by
  have listed (place : Location) (name : String) (present : tree.lookup (place ++ [name]) ≠ none) :
      tree.lookup place = some .directory ∧ IsEntryName name := by
    obtain ⟨entry, found⟩ := Option.ne_none_iff_exists'.1 present
    have both := placed _ (mem_entries_of_lookup (List.concat_ne_nil name place) found)
    simpa using both
  exact ⟨fun place name h => (listed place name h).1, fun place name h => (listed place name h).2, working⟩

/-! ## Changes at and below a location -/

theorem filter_set_of_drop (keep : Location → Bool) {location : Location} (dropped : keep location = false)
    (entry : Entry) (entries : List (Location × Entry)) :
    (set location entry entries).filter (fun e => keep e.1) = entries.filter fun e => keep e.1 := by
  induction entries with
  | nil => simp [set, dropped]
  | cons e entries ih =>
    obtain ⟨place, old⟩ := e
    by_cases same : place = location
    · simp [set, same, dropped]
    · simp [set, same, List.filter_cons, ih]

/-- What is put below a location is gone once that is erased. -/
theorem eraseBelow_put (tree : FileTree) (root : Location) (parts : List String) (entry : Entry) :
    (tree.put (root ++ parts) entry).eraseBelow root = tree.eraseBelow root := by
  simp only [eraseBelow, put]
  rw [filter_set_of_drop (fun location => (Path.below? root location).isNone) (by simp)]

/-- Trees that agree once a location is erased agree everywhere else. -/
theorem lookup_eq_of_eraseBelow_eq {a b : FileTree} {root location : Location}
    (same : a.eraseBelow root = b.eraseBelow root) (outside : Path.below? root location = none) :
    a.lookup location = b.lookup location := by
  cases root with
  | nil => simp [Path.below?] at outside
  | cons first root =>
    have both := congrArg (·.lookup location) same
    simpa [lookup_eraseBelow _ (List.cons_ne_nil first root), outside] using both

theorem workingDirectory_eq_of_eraseBelow_eq {a b : FileTree} {root : Location}
    (same : a.eraseBelow root = b.eraseBelow root) : a.workingDirectory = b.workingDirectory :=
  congrArg (fun tree => tree.workingDirectory) same

/-- Erasing a location at which nothing stands changes nothing. -/
theorem eraseBelow_of_vacant {tree : FileTree} {root : Location} (filled : root ≠ [])
    (vacant : ∀ parts, tree.lookup (root ++ parts) = none) : tree.eraseBelow root = tree := by
  have kept : tree.entries.filter (fun e => (Path.below? root e.1).isNone) = tree.entries := by
    refine List.filter_eq_self.2 fun e mem => ?_
    rw [Option.isNone_iff_eq_none, Path.below?_eq_none_iff]
    intro parts place
    have missing := vacant parts
    obtain ⟨name, names, whole⟩ := List.exists_cons_of_ne_nil (List.append_ne_nil_of_left_ne_nil filled parts)
    rw [whole] at place missing
    exact find?_eq_none_iff.1 missing e mem place
  simp [eraseBelow, kept]

end FileTree

end WasmPackaging
