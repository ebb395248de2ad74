import WasmPackaging.Proofs.FileTree.Area
import WasmPackaging.Proofs.Path

/-!
Trees without links. A path leads to the location that its text spells, when each step to a parent undoes the
name before it (`straight`): walking ends there (`LinkFree.follow_eq`), whether or not a link at the end would
be followed, and the real location of the path is that location (`LinkFree.resolve_eq`).
-/

namespace WasmPackaging

open Text

namespace FileTree

variable {tree : FileTree}

/-- No link stands anywhere in a tree. -/
def LinkFree (tree : FileTree) : Prop := ∀ location target, tree.lookup location ≠ some (.link target)

/-- The location that a path spells, when each step to a parent undoes the name before it. -/
def straight (tree : FileTree) (path : Path) : Location :=
  Path.normalizeFrom (tree.start path) (path.steps.filter isPart)

theorem areNames_start (sound : tree.WellFormed) (path : Path) : AreNames (tree.start path) :=
  sound.areNames (by simp [lookup_start sound path])

theorem areNames_straight (sound : tree.WellFormed) (path : Path) : AreNames (tree.straight path) := by
  refine Path.areNames_normalizeFrom (areNames_start sound path) fun part mem => ?_
  obtain ⟨inside, valid⟩ := List.mem_filter.1 mem
  exact ⟨valid, Path.not_mem_of_mem_steps inside⟩

theorem straight_ofLocation {location : Location} (named : AreNames location) :
    tree.straight (Path.ofLocation location) = location := by
  unfold straight
  rw [Path.steps_ofLocation named, Path.filter_isPart_of_areNames named,
    Path.normalizeFrom_of_names fun up => (named _ up).2.1 rfl]
  rfl

theorem straight_join_ofLocation (tree : FileTree) (root : Path) {location : Location} (named : AreNames location) :
    tree.straight (root.join (.ofLocation location)) = location := by
  rw [Path.join_of_isAbsolute _ rfl, straight_ofLocation named]

theorem straight_congr {other : FileTree} (same : other.workingDirectory = tree.workingDirectory) (path : Path) :
    other.straight path = tree.straight path := by
  simp [straight, start, same]

/-- Where a path spells that leads on from another. -/
theorem straight_under (tree : FileTree) (path : Path) {parts : List String} (plain : ∀ part ∈ parts, '/' ∉ part.toList) :
    tree.straight (path.under parts) = Path.normalizeFrom (tree.straight path) (parts.filter isPart) := by
  have start : tree.start (path.under parts) = tree.start path := rfl
  rw [straight, start, Path.steps_under_of_plain path plain, List.filter_append, Path.normalizeFrom_append, straight]

theorem linkFree_of_entries {tree : FileTree} (solid : ∀ e ∈ tree.entries, ∀ target, e.2 ≠ .link target) : tree.LinkFree := by
  intro location target there
  cases location with
  | nil => cases there
  | cons name names => exact solid _ (mem_entries_of_lookup (List.cons_ne_nil name names) there) target rfl

namespace LinkFree

variable (free : tree.LinkFree)

include free

/-- Parts lead where they spell. -/
theorem reaches_eq {n : Nat} {place goal : Location} {parts : List String} (reaches : tree.Reaches n place parts goal) :
    n = 0 ∧ goal = Path.normalizeFrom place (parts.filter isPart) := by
  induction reaches with
  | here => exact ⟨rfl, rfl⟩
  | stay blank _ ih => rwa [List.filter_cons_of_neg (by simp [blank])]
  | up _ ih =>
    rw [List.filter_cons_of_pos isPart_parentStep]
    exact ih
  | down step _ _ ih =>
    obtain ⟨rfl, rfl⟩ := ih
    rw [List.filter_cons_of_pos step.1]
    simp [Path.normalizeFrom, Path.takePart, step.2.1]
  | last _ step _ =>
    rw [List.filter_cons_of_pos step.1]
    simp [Path.normalizeFrom, Path.takePart, step.2.1]
  | link _ entry => exact absurd entry (free _ _)

/-- It makes no difference whether a link at the end of a walk would be followed. -/
theorem walk_eq (follow : Bool) (limit : Nat) (place : Location) (parts : List String) :
    tree.walk follow limit place parts = tree.walk true limit place parts := by
  induction parts generalizing place with
  | nil => rw [walk_nil, walk_nil]
  | cons part rest ih =>
    obtain blank | rfl | step | ⟨valid, other, long⟩ := part_cases part
    · simpa only [walk_stay blank] using ih place
    · simpa only [walk_up] using ih place.dropLast
    · rw [walk_step step, walk_step step]
      split
      · rfl
      · exact ih _
      · rfl
      · next target entry => exact absurd entry (free _ _)
    · simp [walk_of_nameTooLong valid other long]

theorem walk_ne_linkLoop (limit : Nat) (place : Location) (parts : List String) :
    tree.walk true limit place parts ≠ .error .linkLoop := by
  induction parts generalizing place with
  | nil => simp
  | cons part rest ih =>
    obtain blank | rfl | step | ⟨valid, other, long⟩ := part_cases part
    · simpa only [walk_stay blank] using ih place
    · simpa only [walk_up] using ih place.dropLast
    · rw [walk_step step]
      split
      · split <;> simp
      · exact ih _
      · split <;> simp
      · next target entry => exact absurd entry (free _ _)
    · simp [walk_of_nameTooLong valid other long]

theorem locate_eq (path : Path) : tree.locate path = tree.follow path := by
  unfold locate follow
  rw [free.walk_eq]

/-- What a path leads to is what stands at the location that it spells. -/
theorem follow_eq (sound : tree.WellFormed) {path : Path} {end_ : Found} (leads : tree.follow path = .ok end_) :
    end_ = tree.found (tree.straight path) := by
  obtain ⟨-, n, -, goal, reaches, rfl⟩ := (follow_eq_ok_iff sound).1 leads
  rw [(free.reaches_eq reaches).2, straight]

/-- A path that leads to anything leads to what stands at the location that it spells. -/
theorem follow_of_exists? (sound : tree.WellFormed) {path : Path} (there : tree.exists? path = true) :
    ∃ entry, tree.follow path = .ok (.entry (tree.straight path) entry) ∧ tree.lookup (tree.straight path) = some entry := by
  obtain ⟨place, entry, leads⟩ := exists?_eq_true_iff.1 there
  obtain ⟨rfl, present⟩ := found_eq_entry_iff.1 (free.follow_eq sound leads).symm
  exact ⟨entry, leads, present⟩

/-- A free place that a path names is the location that it spells. -/
theorem vacancy_eq (sound : tree.WellFormed) {path : Path} {location : Location} (found : tree.vacancy path = .ok location) :
    location = tree.straight path ∧ tree.lookup location = none := by
  obtain ⟨-, vacant, n, -, reaches⟩ := reaches_of_vacancy sound found
  exact ⟨(free.reaches_eq reaches).2, vacant⟩

/-- A path that leads to a free place, or to what is no directory, leads to a name in a directory. -/
theorem exists_outer (sound : tree.WellFormed) {path : Path} {end_ : Found} (leads : tree.follow path = .ok end_)
    (solid : tree.lookup (tree.straight path) ≠ some .directory) :
    ∃ outer name, tree.straight path = outer ++ [name] ∧ tree.lookup outer = some .directory ∧ IsEntryName name := by
  by_cases vacant : tree.lookup (tree.straight path) = none
  · obtain ⟨-, n, -, goal, reaches, -⟩ := (follow_eq_ok_iff sound).1 leads
    obtain ⟨-, rfl⟩ := free.reaches_eq reaches
    exact reaches.vacant sound (lookup_start sound path) (fun part => Path.not_mem_of_mem_steps) vacant
  · exact sound.exists_outer vacant solid

/-- Writing a file puts it at the location that the path spells, in a directory that is there. -/
theorem write_eq (sound : tree.WellFormed) {path : Path} {content : Bytes} {after : FileTree}
    (written : tree.write path content = .ok after) :
    after = tree.put (tree.straight path) (.file content) ∧ tree.lookup (tree.straight path) ≠ some .directory ∧
      ∃ outer name, tree.straight path = outer ++ [name] ∧ tree.lookup outer = some .directory ∧ IsEntryName name := by
  unfold FileTree.write at written
  cases leads : tree.follow path with
  | error fault =>
    rw [leads] at written
    cases written
  | ok end_ =>
    have there := free.follow_eq sound leads
    have outer := free.exists_outer sound leads
    rw [leads] at written
    split at written
    · next location old same =>
      obtain rfl := Except.ok.inj same
      obtain ⟨rfl, present⟩ := found_eq_entry_iff.1 there.symm
      have solid : tree.lookup (tree.straight path) ≠ some .directory := by simp [present]
      exact ⟨(Except.ok.inj written).symm, solid, outer solid⟩
    · next location same =>
      obtain rfl := Except.ok.inj same
      obtain ⟨rfl, vacant⟩ := found_eq_vacant_iff.1 there.symm
      have solid : tree.lookup (tree.straight path) ≠ some .directory := by simp [vacant]
      exact ⟨(Except.ok.inj written).symm, solid, outer solid⟩
    · cases written
    · cases written

theorem lookup_write (sound : tree.WellFormed) {path : Path} {content : Bytes} {after : FileTree}
    (written : tree.write path content = .ok after) (location : Location) :
    after.lookup location = if location = tree.straight path then some (.file content) else tree.lookup location := by
  obtain ⟨rfl, -, outer, name, whole, -⟩ := free.write_eq sound written
  exact tree.lookup_put (whole ▸ List.concat_ne_nil name outer) location _

/-- Moving takes a file from the location that the source spells to the one that the target does. -/
theorem move_eq (sound : tree.WellFormed) {source target : Path} {after : FileTree} (moved : tree.move source target = .ok after) :
    ∃ content, tree.lookup (tree.straight source) = some (.file content) ∧
      tree.lookup (tree.straight target) ≠ some .directory ∧
      (∃ outer name, tree.straight target = outer ++ [name] ∧ tree.lookup outer = some .directory ∧ IsEntryName name) ∧
      (after = tree ∨ after = (tree.erase (tree.straight source)).put (tree.straight target) (.file content)) := by
  unfold FileTree.move at moved
  rw [free.locate_eq, free.locate_eq] at moved
  cases leads : tree.follow source with
  | error fault => simp [leads] at moved
  | ok end_ =>
    obtain rfl := free.follow_eq sound leads
    rcases from_ : tree.lookup (tree.straight source) with _ | content | link | _
    · simp [leads, found, from_] at moved
    · cases leads' : tree.follow target with
      | error fault => simp [leads, leads', found, from_] at moved
      | ok end_' =>
        have outer := free.exists_outer sound leads'
        obtain rfl := free.follow_eq sound leads'
        refine ⟨content, rfl, ?_⟩
        rcases to_ : tree.lookup (tree.straight target) with _ | old | link | _
        · simp only [leads, leads', found, from_, to_, Except.ok.injEq] at moved
          exact ⟨by simp, outer (by simp [to_]), .inr moved.symm⟩
        · simp only [leads, leads', found, from_, to_, Except.ok.injEq] at moved
          refine ⟨by simp, outer (by simp [to_]), ?_⟩
          split at moved
          · exact .inl moved.symm
          · exact .inr moved.symm
        · exact absurd to_ (free _ _)
        · simp [leads, leads', found, from_, to_] at moved
    · exact absurd from_ (free _ _)
    · simp [leads, found, from_] at moved

/-- Whatever a way to an entry passes is a directory. -/
theorem directory_on_way {n : Nat} {place goal : Location} {parts rest : List String} (sound : tree.WellFormed)
    (start : tree.lookup place = some .directory) (more : rest ≠ []) (reaches : tree.Reaches n place (parts ++ rest) goal) :
    tree.lookup (Path.normalizeFrom place (parts.filter isPart)) = some .directory := by
  generalize whole : parts ++ rest = all at reaches
  induction reaches generalizing parts with
  | here =>
    obtain ⟨-, rfl⟩ := List.append_eq_nil_iff.1 whole
    exact absurd rfl more
  | stay blank _ ih =>
    cases parts with
    | nil => exact start
    | cons part parts =>
      obtain ⟨rfl, onward⟩ := List.cons.inj whole
      rw [List.filter_cons_of_neg (by simp [blank])]
      exact ih start onward
  | up _ ih =>
    cases parts with
    | nil => exact start
    | cons part parts =>
      obtain ⟨rfl, onward⟩ := List.cons.inj whole
      rw [List.filter_cons_of_pos isPart_parentStep]
      exact ih (sound.directory_dropLast start) onward
  | down step directory _ ih =>
    cases parts with
    | nil => exact start
    | cons part parts =>
      obtain ⟨rfl, onward⟩ := List.cons.inj whole
      have inner := ih directory onward
      rw [List.filter_cons_of_pos step.1]
      simpa [Path.normalizeFrom, Path.takePart, step.2.1] using inner
  | last =>
    cases parts with
    | nil => exact start
    | cons part parts =>
      obtain ⟨-, onward⟩ := List.cons.inj whole
      exact absurd (List.append_eq_nil_iff.1 onward).2 more
  | link _ entry => exact absurd entry (free _ _)

theorem resolveFrom_eq (place : Location) (parts : List String) :
    tree.resolveFrom [] place (parts.map .part) = Path.normalizeFrom place (parts.filter isPart) := by
  induction parts generalizing place with
  | nil =>
    rw [List.map_nil, resolveFrom]
    rfl
  | cons part rest ih =>
    rw [List.map_cons]
    by_cases valid : isPart part = true
    · rw [List.filter_cons_of_pos valid]
      by_cases up : part = parentStep
      · subst up
        rw [resolveFrom_up, ih]
        rfl
      · rw [resolveFrom_down valid up (free _), ih]
        simp [Path.normalizeFrom, Path.takePart, up]
    · rw [resolveFrom_stay (by simpa using valid), List.filter_cons_of_neg valid, ih]

/-- The real location of a path is the one that it spells. -/
theorem resolve_eq {path : Path} (zero : path.holdsZero = false) : tree.resolve path = .ok (tree.straight path) := by
  have looped : tree.follow (Path.ofLocation (tree.straight path)) ≠ .error .linkLoop := by
    unfold follow
    split
    · next fault known =>
      obtain rfl | rfl := pathFault?_eq_some known <;> simp
    · exact free.walk_ne_linkLoop _ _ _
  have same : tree.resolveFrom [] (tree.start path) (path.steps.map .part) = tree.straight path := free.resolveFrom_eq _ _
  rw [resolve, zero, same]
  simp only [Bool.false_eq_true, if_false]

/-- A path has the same real location in trees without links and with the same working directory. -/
theorem resolve_congr {other : FileTree} (free' : other.LinkFree) (same : other.workingDirectory = tree.workingDirectory) (path : Path) :
    other.resolve path = tree.resolve path := by
  cases zero : path.holdsZero with
  | true => simp [FileTree.resolve, zero]
  | false => rw [free'.resolve_eq zero, free.resolve_eq zero, straight_congr same]

/-- A location that a path resolves to is the one that the path spells. -/
theorem straight_of_resolve {path : Path} {location : Location} (resolved : tree.resolve path = .ok location) :
    path.holdsZero = false ∧ tree.straight path = location := by
  have zero : path.holdsZero = false := by
    cases held : path.holdsZero with
    | false => rfl
    | true =>
      rw [resolve, held] at resolved
      cases resolved
  rw [free.resolve_eq zero] at resolved
  exact ⟨zero, Except.ok.inj resolved⟩

/-- A file that is read stands at the location that its path spells. -/
theorem lookup_of_read (sound : tree.WellFormed) {path : Path} {content : Bytes} (read : tree.read path = .ok content) :
    pathFault? path = none ∧ tree.lookup (tree.straight path) = some (.file content) := by
  obtain ⟨place, leads⟩ := read_eq_ok_iff.1 read
  obtain ⟨rfl, present⟩ := found_eq_entry_iff.1 (free.follow_eq sound leads).symm
  exact ⟨((follow_eq_ok_iff sound).1 leads).1, present⟩

end LinkFree

namespace Area

variable {root : Path} {base : Location} {before now : FileTree} (area : Area root base before now)

include area

/-- What is written in an area adds no link. -/
theorem linkFree (free : before.LinkFree) : now.LinkFree := by
  intro location target
  cases below : Path.below? base location with
  | none =>
    rw [area.lookup_outside below]
    exact free location target
  | some parts =>
    rw [Path.below?_eq_some_iff.1 below]
    exact area.unlinked parts target

end Area

end FileTree

end WasmPackaging
