import WasmPackaging.Proofs.FileTree.Confinement

/-!
What a copy puts in one place. A file that is copied to a place where no directory stands either stands there then, or
nothing is changed (`copyFile_leaves`); a directory that is copied changes nothing in its target by a name that it lacks.
-/

namespace WasmPackaging.FileTree

open Text

variable {now : FileTree}

theorem isDirectory_of_lookup (sound : now.WellFormed) (free : now.LinkFree) {path : Path}
    (solid : now.lookup (now.straight path) ≠ some .directory) : now.isDirectory path = false := by
  refine Bool.eq_false_iff.2 fun there => solid ?_
  obtain ⟨place, leads⟩ := isDirectory_eq_true_iff.1 there
  obtain ⟨rfl, directory⟩ := found_eq_entry_iff.1 (free.follow_eq sound leads).symm
  exact directory

section copy

variable {tree after : FileTree} {ignored : List String} {source target : Path}

theorem copy_of_directory (directory : tree.asksDirectory source = .ok true) :
    FileTask.copy ignored source target tree = FileTask.copyDirectory ignored (FileTask.depthLimit tree) source target tree := by
  unfold FileTask.copy
  rw [get_bind_apply, directory]

theorem copy_of_file (solid : tree.asksDirectory source = .ok false) :
    FileTask.copy ignored source target tree = (do
      FileTask.ensureDirectory target.parent
      FileTask.copyFile false source target : FileTask Unit) tree := by
  unfold FileTask.copy
  rw [get_bind_apply, solid]

theorem copy_of_unasked {e : FileError} (asked : tree.asksDirectory source = .error e) :
    FileTask.copy ignored source target tree = (.error e, tree) := by
  unfold FileTask.copy
  rw [get_bind_apply, asked]
  rfl

/-- A copy is that of a directory, or that of a file for which a place is made. -/
theorem ends_of_copy (ended : FileTask.copy ignored source target tree = (.ok (), after)) :
    (tree.asksDirectory source = .ok true ∧ FileTask.copyDirectory ignored (FileTask.depthLimit tree) source target tree = (.ok (), after)) ∨
      (tree.asksDirectory source = .ok false ∧ ∃ between, FileTask.ensureDirectory target.parent tree = (.ok (), between) ∧
        FileTask.copyFile false source target between = (.ok (), after)) := by
  rcases asked : tree.asksDirectory source with e | _ | _
  · rw [copy_of_unasked asked] at ended
    cases (Prod.mk.inj ended).1
  · rw [copy_of_file asked] at ended
    obtain ⟨⟨⟩, between, made, copied⟩ := bind_ends_iff.1 ended
    exact .inr ⟨rfl, between, made, copied⟩
  · rw [copy_of_directory asked] at ended
    exact .inl ⟨rfl, ended⟩

end copy

/-- A file is copied whole or not at all. -/
theorem copyFile_leaves (nested : Bool) (source : Path) {target : Path} (solid : now.isDirectory target = false) :
    Leaves (FileTask.copyFile nested source target) now
      (fun _ after => ∃ content, now.read source = .ok content ∧ now.write target content = .ok after) (fun after => after = now) := by
  refine .get ?_
  simp only [solid, Bool.false_eq_true, if_false]
  split
  · exact .bind (.throw rfl)
  · split
    · exact .throw rfl
    · next content read =>
      refine .get ?_
      split
      · next after written => exact .set ⟨content, read, written⟩
      · exact .throw rfl

/-- A file that is copied to a place where no directory stands changes nothing else, and makes no directory there. -/
theorem lookup_copyFile (sound : now.WellFormed) (free : now.LinkFree) (nested : Bool) (source : Path) {place : Location}
    (named : AreNames place) (solid : now.lookup place ≠ some .directory) :
    let after := (FileTask.copyFile nested source (.ofLocation place) now).2
    (∀ location, location ≠ place → after.lookup location = now.lookup location) ∧ after.lookup place ≠ some .directory := by
  have spelled : now.straight (.ofLocation place) = place := straight_ofLocation named
  have leaves := copyFile_leaves nested source (isDirectory_of_lookup sound free (spelled.symm ▸ solid))
  rcases ran : FileTask.copyFile nested source (.ofLocation place) now with ⟨e | _, after⟩
  · obtain rfl := leaves.of_error ran
    exact ⟨fun _ _ => rfl, solid⟩
  · obtain ⟨content, -, written⟩ := leaves.of_ok ran
    have look := free.lookup_write sound written
    rw [spelled] at look
    refine ⟨fun location other => by rw [look, if_neg other], ?_⟩
    rw [look, if_pos rfl]
    simp

/-- A directory is not copied as a file. -/
theorem copyFile_of_directory (sound : now.WellFormed) (free : now.LinkFree) (nested : Bool) {source target : Path}
    (directory : now.lookup (now.straight source) = some .directory) : (FileTask.copyFile nested source target now).2 = now := by
  have leaves : Leaves (FileTask.copyFile nested source target) now (fun _ _ => False) (fun after => after = now) := by
    refine .get ?_
    simp only
    generalize (if now.isDirectory target = true then target.child source.name else target) = target
    split
    · exact .bind (.throw rfl)
    · split
      · exact .throw rfl
      · next content read => simp [(free.lookup_of_read sound read).2] at directory
  rcases ran : FileTask.copyFile nested source target now with ⟨e | _, after⟩
  · exact leaves.of_error ran
  · exact (leaves.of_ok ran).elim

/-- An answer that a path leads to an entry is about the location that the path spells. -/
theorem exists_of_asks (sound : now.WellFormed) (free : now.LinkFree) {path : Path} {test : Entry → Bool}
    (asked : now.asks path test = .ok true) : ∃ entry, now.lookup (now.straight path) = some entry ∧ test entry = true := by
  obtain ⟨place, entry, leads, passed⟩ := asks_eq_true_iff.1 asked
  obtain ⟨rfl, present⟩ := found_eq_entry_iff.1 (free.follow_eq sound leads).symm
  exact ⟨entry, present, passed⟩

/-- The way to a directory is made without a change to anything that stands in it: no entry has the empty name. -/
theorem keeps_way {tree : FileTree} {outer : Location} (named : AreNames outer) :
    KeepsTo (.below (outer ++ [""])) tree (FileTask.ensureDirectory (.ofLocation outer)) :=
  keeps_ensureDirectory (Zone.roams_above tree named (List.prefix_append outer [""]))

theorem not_nameless_prefix {outer location : Location} (named : AreNames location) : ¬ outer ++ [""] <+: location := by
  intro below
  obtain ⟨valid, -⟩ := named "" (below.subset (by simp))
  cases valid

/-- A file that is copied to a place where no directory stands is there in the end. -/
theorem lookup_of_copy (sound : now.WellFormed) (free : now.LinkFree) {ignored : List String} {source place : Location} {content : Bytes}
    (named : AreNames source) (named' : AreNames place) (file : now.lookup source = some (.file content))
    (solid : now.lookup place ≠ some .directory) {after : FileTree}
    (ended : FileTask.copy ignored (.ofLocation source) (.ofLocation place) now = (.ok (), after)) :
    after.lookup place = some (.file content) := by
  have spelled (other : FileTree) : other.straight (.ofLocation source) = source := straight_ofLocation named
  have spelled' (other : FileTree) : other.straight (.ofLocation place) = place := straight_ofLocation named'
  obtain ⟨outer, name, rfl⟩ : ∃ outer name, place = outer ++ [name] := by
    rcases List.eq_nil_or_concat place with rfl | ⟨outer, name, rfl⟩
    · exact absurd rfl solid
    · exact ⟨outer, name, List.concat_eq_append⟩
  obtain ⟨named_, valid⟩ := areNames_append.1 named'
  have regular : now.asksDirectory (.ofLocation source) ≠ .ok true := by
    intro asked
    obtain ⟨entry, there, isDirectory⟩ := exists_of_asks sound free asked
    rw [spelled, file] at there
    obtain rfl := Option.some.inj there
    cases isDirectory
  have parent : Path.parent (.ofLocation (outer ++ [name])) = .ofLocation outer := by simp [Path.parent, Path.ofLocation]
  obtain ⟨asked, -⟩ | ⟨-, between, made, ended⟩ := ends_of_copy ended
  · exact absurd asked regular
  rw [parent] at made
  have confined : Confined (.below (outer ++ [""])) now between :=
    ((keeps_way named_).of_ok (.startBelow sound free) made).2
  have beyond {location : Location} (named : AreNames location) : ¬ (Zone.below (outer ++ [""])).Allows location := by
    rw [Zone.allows_below]
    exact not_nameless_prefix named
  have aside : ¬ outer ++ [name] <+: outer ++ [""] := by
    intro above
    obtain rfl : name = "" := by simpa using above
    cases (valid "" List.mem_cons_self).1
  have kept : between.lookup source = some (.file content) := by
    rw [confined.present (beyond named) (by simp [file]), file]
  have solid' : between.lookup (between.straight (.ofLocation (outer ++ [name]))) ≠ some .directory := by
    rw [spelled', confined.lookup_eq (beyond named') aside]
    exact solid
  have leaves := copyFile_leaves false (.ofLocation source) (isDirectory_of_lookup confined.sound confined.free solid')
  obtain ⟨copied, read, written⟩ := leaves.of_ok ended
  obtain ⟨-, there⟩ := confined.free.lookup_of_read confined.sound read
  rw [spelled, kept] at there
  obtain rfl : content = copied := by simpa using there
  rw [confined.free.lookup_write confined.sound written, if_pos (spelled' _).symm]

end WasmPackaging.FileTree
