import WasmPackaging.Proofs.FileTree.Confinement
import WasmPackaging.Proofs.FileTree.Growth
import WasmPackaging.Proofs.FileTree.Ways

/-!
Changes that take nothing away. Directories stay directories, files stay files, and the links are those that were there
(`Extends`), so every path that led to something still leads there (`Extends.follow`, `Extends.exists?`). Writing, making
directories and copying are such changes, in trees with links too, and they touch the places alone where their targets lead
(`keeps_copy`).
-/

namespace WasmPackaging

open Text

namespace FileTree

/-- A tree has all that another has, and differs from it at allowed places alone; what is there more are files and directories. -/
structure Extends (allowed : Location → Prop) (tree now : FileTree) : Prop where
  sound : now.WellFormed
  working : now.workingDirectory = tree.workingDirectory
  directory : ∀ location, tree.lookup location = some .directory → now.lookup location = some .directory
  file : ∀ location, tree.HoldsFile location → now.HoldsFile location
  link : ∀ location target, now.lookup location = some (.link target) ↔ tree.lookup location = some (.link target)
  beyond : ∀ location, ¬ allowed location → now.lookup location = tree.lookup location

namespace Extends

variable {allowed allowed' : Location → Prop} {tree now after : FileTree}

theorem refl (sound : tree.WellFormed) : Extends allowed tree tree :=
  ⟨sound, rfl, fun _ h => h, fun _ h => h, fun _ _ => Iff.rfl, fun _ _ => rfl⟩

theorem weaken (more : Extends allowed tree now) (weaker : ∀ location, allowed location → allowed' location) : Extends allowed' tree now :=
  ⟨more.sound, more.working, more.directory, more.file, more.link,
    fun location outside => more.beyond location fun inside => outside (weaker location inside)⟩

theorem trans (first : Extends allowed tree now) (second : Extends allowed now after) : Extends allowed tree after := by
  refine ⟨second.sound, second.working.trans first.working, fun location there => ?_, fun location there => ?_,
    fun location target => ?_, fun location outside => ?_⟩
  · exact second.directory location (first.directory location there)
  · exact second.file location (first.file location there)
  · rw [second.link, first.link]
  · rw [second.beyond location outside, first.beyond location outside]

variable (more : Extends allowed tree now)

include more

theorem start_eq (path : Path) : now.start path = tree.start path := by
  unfold start
  rw [more.working]

theorem present {location : Location} (there : tree.lookup location ≠ none) : now.lookup location ≠ none := by
  obtain ⟨entry, found⟩ := Option.ne_none_iff_exists'.1 there
  cases entry with
  | file content =>
    obtain ⟨content', file⟩ := more.file location ⟨content, found⟩
    simp [file]
  | link target => simp [(more.link location target).2 found]
  | directory => simp [more.directory location found]

/-- Parts that lead to a location still do. -/
theorem reaches {n : Nat} {place goal : Location} {parts : List String} (sound : tree.WellFormed)
    (start : tree.lookup place = some .directory) (reaches : tree.Reaches n place parts goal) : now.Reaches n place parts goal := by
  refine reaches.mono (fun location entry there open_ => ?_) fun target there => ?_
  · cases entry with
    | file => simp [IsEnd] at open_
    | link target => exact (more.link location target).2 there
    | directory => exact more.directory location there
  · exact reaches.not_link sound start target ((more.link goal target).1 there)

/-- A path that led somewhere still leads there. -/
theorem follow (sound : tree.WellFormed) {path : Path} {location : Location}
    (leads : tree.follow path = .ok (tree.found location)) : now.follow path = .ok (now.found location) := by
  obtain ⟨fine, n, enough, goal, reaches, same⟩ := (follow_eq_ok_iff sound).1 leads
  obtain rfl := found_inj same
  refine (follow_eq_ok_iff more.sound).2 ⟨fine, n, enough, location, ?_, rfl⟩
  rw [more.start_eq]
  exact more.reaches sound (lookup_start sound path) reaches

theorem follow_entry (sound : tree.WellFormed) {path : Path} {location : Location} {entry : Entry}
    (leads : tree.follow path = .ok (.entry location entry)) :
    tree.lookup location = some entry ∧ now.follow path = .ok (now.found location) := by
  obtain ⟨-, n, -, goal, -, same⟩ := (follow_eq_ok_iff sound).1 leads
  obtain ⟨rfl, there⟩ := found_eq_entry_iff.1 same.symm
  exact ⟨there, more.follow sound (leads.trans (congrArg _ same))⟩

theorem exists? (sound : tree.WellFormed) {path : Path} (there : tree.exists? path = true) : now.exists? path = true := by
  obtain ⟨location, entry, leads⟩ := exists?_eq_true_iff.1 there
  obtain ⟨present, leads'⟩ := more.follow_entry sound leads
  obtain ⟨entry', present'⟩ := Option.ne_none_iff_exists'.1 (more.present (by simp [present] : tree.lookup location ≠ none))
  rw [found_eq_entry_iff.2 ⟨rfl, present'⟩] at leads'
  exact exists?_eq_true_iff.2 ⟨location, entry', leads'⟩

theorem isDirectory (sound : tree.WellFormed) {path : Path} (there : tree.isDirectory path = true) : now.isDirectory path = true := by
  obtain ⟨location, leads⟩ := isDirectory_eq_true_iff.1 there
  obtain ⟨present, leads'⟩ := more.follow_entry sound leads
  rw [found_of_directory (more.directory location present)] at leads'
  exact isDirectory_eq_true_iff.2 ⟨location, leads'⟩

theorem unlinked {location : Location} (unlinked : tree.Unlinked location) : now.Unlinked location :=
  fun place within target there => unlinked place within target ((more.link place target).1 there)

/-- A file comes to stand in a free place or in a file's, a directory in a free place. -/
theorem put {outer : Location} {name : String} {entry : Entry} (inside : now.lookup outer = some .directory) (valid : IsEntryName name)
    (fits : now.lookup (outer ++ [name]) = none ∨ now.HoldsFile (outer ++ [name]) ∧ ∃ content, entry = .file content)
    (solid : ∀ target, entry ≠ .link target) (place : allowed (outer ++ [name])) : Extends allowed tree (now.put (outer ++ [name]) entry) := by
  have look := now.lookup_put (List.concat_ne_nil name outer)
  have other : now.lookup (outer ++ [name]) ≠ some .directory := by
    obtain free | ⟨⟨content, file⟩, -⟩ := fits
    · simp [free]
    · simp [file]
  refine ⟨more.sound.put inside valid fun directory => absurd directory other, more.working, ?_, ?_, ?_, ?_⟩
  · intro location there
    rw [look, if_neg]
    · exact more.directory location there
    · rintro rfl
      exact other (more.directory _ there)
  · intro location there
    obtain ⟨content, file⟩ := more.file location there
    by_cases same : location = outer ++ [name]
    · subst same
      obtain free | ⟨-, content', rfl⟩ := fits
      · simp [free] at file
      · exact ⟨content', by rw [look, if_pos rfl]⟩
    · exact ⟨content, by rw [look, if_neg same, file]⟩
  · intro location target
    rw [← more.link, look]
    by_cases same : location = outer ++ [name]
    · subst same
      have none_ : now.lookup (outer ++ [name]) ≠ some (.link target) := by
        obtain free | ⟨⟨content, file⟩, -⟩ := fits
        · simp [free]
        · simp [file]
      simp [solid target, none_]
    · rw [if_neg same]
  · intro location outside
    rw [look, if_neg, more.beyond location outside]
    rintro rfl
    exact outside place

end Extends

/-! ## Single changes -/

section

variable {tree now after : FileTree}

/-- What is written becomes a file where the path led to one, or to a free place. -/
theorem exists_of_write {path : Path} {content : Bytes} (sound : tree.WellFormed) (written : tree.write path content = .ok after) :
    ∃ outer name, tree.follow path = .ok (tree.found (outer ++ [name])) ∧ tree.lookup outer = some .directory ∧ IsEntryName name ∧
      (tree.lookup (outer ++ [name]) = none ∨ tree.HoldsFile (outer ++ [name])) ∧ after = tree.put (outer ++ [name]) (.file content) := by
  unfold write at written
  split at written
  · next location old leads =>
    obtain ⟨-, n, -, goal, -, same⟩ := (follow_eq_ok_iff sound).1 leads
    obtain ⟨rfl, there⟩ := found_eq_entry_iff.1 same.symm
    obtain ⟨outer, name, rfl, inside, valid⟩ := sound.exists_outer (by simp [there]) (by simp [there] : tree.lookup goal ≠ some .directory)
    exact ⟨outer, name, leads.trans (congrArg _ same), inside, valid, .inr ⟨old, there⟩, (Except.ok.inj written).symm⟩
  · next location leads =>
    obtain ⟨-, n, -, goal, reaches, same⟩ := (follow_eq_ok_iff sound).1 leads
    obtain ⟨rfl, free⟩ := found_eq_vacant_iff.1 same.symm
    obtain ⟨outer, name, rfl, inside, valid⟩ :=
      reaches.vacant sound (lookup_start sound path) (fun part => Path.not_mem_of_mem_steps) free
    exact ⟨outer, name, leads.trans (congrArg _ same), inside, valid, .inl free, (Except.ok.inj written).symm⟩
  · cases written
  · cases written

/-- A directory that is made stands where the path led to a free place. -/
theorem exists_of_makeDirectory {path : Path} (sound : tree.WellFormed) (made : tree.makeDirectory path = .ok after) :
    ∃ outer name, tree.follow path = .ok (tree.found (outer ++ [name])) ∧ tree.lookup outer = some .directory ∧ IsEntryName name ∧
      tree.lookup (outer ++ [name]) = none ∧ after = tree.put (outer ++ [name]) .directory := by
  unfold makeDirectory at made
  cases named : tree.vacancy path with
  | error e => simp [named, Except.map] at made
  | ok location =>
    obtain ⟨fine, free, n, enough, reaches⟩ := reaches_of_vacancy sound named
    obtain ⟨outer, name, rfl, inside, valid⟩ :=
      reaches.vacant sound (lookup_start sound path) (fun part => Path.not_mem_of_mem_steps) free
    simp only [named, Except.map, Except.ok.injEq] at made
    exact ⟨outer, name, (follow_eq_ok_iff sound).2 ⟨fine, n, enough, _, reaches, rfl⟩, inside, valid, free, made.symm⟩

variable {allowed : Location → Prop} {path : Path}

/-- Wherever a path leads to a file or to a free place while a tree grows, a file or a directory may come to stand. -/
def LandsIn (allowed : Location → Prop) (tree : FileTree) (path : Path) : Prop :=
  ∀ now location, Extends allowed tree now → now.follow path = .ok (now.found location) → now.lookup location ≠ some .directory →
    allowed location

/-- No place is closed to changes. -/
def Anywhere (_ : Location) : Prop := True

theorem landsIn_anywhere (tree : FileTree) (path : Path) : LandsIn Anywhere tree path := fun _ _ _ _ _ => trivial

/-- The path to a location that no link leads away from leads there, however the tree grows. -/
theorem landsIn_ofLocation {location : Location} (unlinked : tree.Unlinked location) (named : AreNames location) (place : allowed location) :
    LandsIn allowed tree (.ofLocation location) := by
  intro now place' more leads _
  obtain ⟨-, same⟩ := (more.unlinked unlinked).follow_eq more.sound named leads
  exact found_inj same ▸ place

theorem Extends.write (more : Extends allowed tree now) (lands : LandsIn allowed tree path) {content : Bytes}
    (written : now.write path content = .ok after) : Extends allowed tree after := by
  obtain ⟨outer, name, leads, inside, valid, fits, rfl⟩ := exists_of_write more.sound written
  have solid : now.lookup (outer ++ [name]) ≠ some .directory := by
    obtain free | ⟨old, file⟩ := fits
    · simp [free]
    · simp [file]
  exact more.put inside valid (fits.imp_right fun file => ⟨file, content, rfl⟩) (by simp) (lands now _ more leads solid)

theorem Extends.makeDirectory (more : Extends allowed tree now) (lands : LandsIn allowed tree path)
    (made : now.makeDirectory path = .ok after) : Extends allowed tree after := by
  obtain ⟨outer, name, leads, inside, valid, free, rfl⟩ := exists_of_makeDirectory more.sound made
  exact more.put inside valid (.inl free) (by simp) (lands now _ more leads (by simp [free]))

end

/-! ## Tasks -/

section tasks

variable {allowed : Location → Prop} {tree : FileTree}

/-- A task takes nothing away, and changes allowed places alone. -/
abbrev KeepsAll (allowed : Location → Prop) (tree : FileTree) {ε α : Type} (act : ExceptT ε (StateM FileTree) α) : Prop :=
  Keeps (Extends allowed tree) (fun _ => True) act

/-- Directories may be made all the way to the end of a path. -/
def OpensIn (allowed : Location → Prop) (tree : FileTree) (path : Path) : Prop :=
  ∀ parts, parts <+: path.parts → LandsIn allowed tree ⟨path.anchor, parts⟩

theorem opensIn_anywhere (tree : FileTree) (path : Path) : OpensIn Anywhere tree path := fun _ _ => landsIn_anywhere _ _

theorem opensIn_ofLocation {location : Location} (unlinked : tree.Unlinked location) (named : AreNames location)
    (place : ∀ above, above <+: location → allowed above) : OpensIn allowed tree (.ofLocation location) := by
  intro above within
  refine landsIn_ofLocation (fun place inside => unlinked place (inside.trans within)) (fun name mem => ?_) (place above within)
  exact named name (within.subset mem)

theorem OpensIn.makesKeep {path : Path} (opens : OpensIn allowed tree path) : MakesKeep (Extends allowed tree) path :=
  fun parts within _ _ more made => more.makeDirectory (opens parts within) made

theorem keepsAll_ensureDirectory {path : Path} (opens : OpensIn allowed tree path) : KeepsAll allowed tree (FileTask.ensureDirectory path) :=
  keeps_ensureDirectory_of opens.makesKeep

theorem keepsAll_makeDirectories {path : Path} (opens : OpensIn allowed tree path) : KeepsAll allowed tree (FileTask.makeDirectories path) :=
  keeps_makeDirectories_of opens.makesKeep

theorem OpensIn.parent {path : Path} (opens : OpensIn allowed tree path) : OpensIn allowed tree path.parent :=
  fun parts within => opens parts (within.trans (List.dropLast_prefix _))

theorem keepsAll_write {path : Path} (lands : LandsIn allowed tree path) (content : Bytes) :
    KeepsAll allowed tree (FileTask.change (·.write path content)) :=
  FileTask.keeps_change fun _ _ more written => more.write lands written

theorem keepsAll_writeBytes {path : Path} (opens : OpensIn allowed tree path) (content : Bytes) :
    KeepsAll allowed tree (FileTask.writeBytes path content) :=
  .bind (keepsAll_ensureDirectory opens.parent) fun _ _ => keepsAll_write (opens path.parts (List.prefix_refl _)) content

theorem keepsAll_copyFile {nested : Bool} {source target : Path} (lands : LandsIn allowed tree target)
    (inside : LandsIn allowed tree (target.child source.name)) : KeepsAll allowed tree (FileTask.copyFile nested source target) := by
  refine keeps_copyFile_of fun now content after more _ written => ?_
  by_cases directory : now.isDirectory target = true
  · rw [if_pos directory] at written
    exact more.write inside written
  · rw [if_neg directory] at written
    exact more.write lands written

theorem OpensIn.lands {path : Path} (opens : OpensIn allowed tree path) : LandsIn allowed tree path := opens path.parts (List.prefix_refl _)

/-- What is copied may land: at the target, and below it under names none of which is left out. -/
def TakesIn (allowed : Location → Prop) (tree : FileTree) (ignored : List String) (target : Path) : Prop :=
  ∀ names, AreNames names → (∀ name ∈ names, FileTask.isIgnored ignored name = false) → OpensIn allowed tree (target.under names)

theorem takesIn_anywhere (tree : FileTree) (ignored : List String) (target : Path) : TakesIn Anywhere tree ignored target :=
  fun _ _ _ => opensIn_anywhere _ _

section

variable {ignored : List String} {target : Path} {name : String} (takes : TakesIn allowed tree ignored target)

include takes

theorem TakesIn.opens : OpensIn allowed tree target := by
  simpa using takes [] areNames_nil (by simp)

theorem TakesIn.child (valid : IsEntryName name) (copied : FileTask.isIgnored ignored name = false) :
    TakesIn allowed tree ignored (target.child name) := by
  intro names named copied'
  rw [Path.child_of_name _ valid, Path.under_under]
  exact takes ([name] ++ names) (by simp [valid, named]) (by simpa [copied] using copied')

/-- A file is copied to its place, or into the directory there. -/
theorem TakesIn.copyFile {nested : Bool} {source : Path} (last : source.name = name) (valid : IsEntryName name)
    (copied : FileTask.isIgnored ignored name = false) : KeepsAll allowed tree (FileTask.copyFile nested source target) := by
  refine keepsAll_copyFile takes.opens.lands ?_
  rw [last]
  exact (takes.child valid copied).opens.lands

end

theorem name_child (path : Path) {name : String} (valid : IsEntryName name) : (path.child name).name = name := by
  rw [Path.child_of_name _ valid]
  simp [Path.name, Path.under]

theorem keepsAll_copyDirectory {ignored : List String} (depth : Nat) (source : Path) {target : Path}
    (takes : TakesIn allowed tree ignored target) : KeepsAll allowed tree (FileTask.copyDirectory ignored depth source target) := by
  induction depth generalizing source target with
  | zero => exact .throw
  | succ depth ih =>
    refine keeps_copyDirectory_step (keepsAll_makeDirectories takes.opens) ?_
    intro now place entry more leads name mem copied
    have valid := isEntryName_of_mem_children more.sound mem
    refine .get fun now more => ?_
    split
    · exact ih _ (takes.child valid copied) now more
    · exact (takes.child valid copied).copyFile (name_child source valid) valid copied now more

/-- What is copied takes nothing away, and lands where it may. -/
theorem keepsAll_copy {ignored : List String} {source target : Path} (takes : TakesIn allowed tree ignored target)
    (inside : LandsIn allowed tree (target.child source.name)) : KeepsAll allowed tree (FileTask.copy ignored source target) := by
  refine .get fun now more => ?_
  split
  · exact .throw more
  · exact keepsAll_copyDirectory _ source takes now more
  · have opens := keepsAll_ensureDirectory takes.opens.parent
    exact Keeps.bind opens (fun _ _ => keepsAll_copyFile takes.opens.lands inside) now more

end tasks

end FileTree

end WasmPackaging
