import WasmPackaging.Proofs.Copying
import WasmPackaging.Proofs.FileTree.Fronts

/-!
One copy, made in two trees without links. The trees are alike in what the copy asks about (`Level`): what it reads, what stands at
and below its target, and whether the directories on the way there are there or can be made. Then the copies agree: both succeed or both
fail, they leave the same at and below the target, and on the way there each directory stands in both trees or was touched in neither
(`Twins.copy`).
-/

namespace WasmPackaging.FileTree

open Text

variable {tree other now now' : FileTree} {source target place location front : Location} {names outer : List String} {name : String}
  {ignored : List String}

/-! ## Parts of trees -/

/-- Nothing stands at a location, or a directory. -/
def Open (tree : FileTree) (location : Location) : Prop := tree.lookup location = none ∨ tree.lookup location = some .directory

/-- The entries of a tree at and below a location, in their order. -/
def entriesFrom (tree : FileTree) (place : Location) : List (Location × Entry) := tree.entries.filter fun e => place <+: e.1

theorem entriesFrom_append (tree : FileTree) (place : Location) (names : List String) :
    tree.entriesFrom (place ++ names) = (tree.entriesFrom place).filter fun e => place ++ names <+: e.1 := by
  unfold entriesFrom
  rw [List.filter_filter]
  refine List.filter_congr fun e _ => ?_
  by_cases below : place ++ names <+: e.1
  · simp [below, (List.prefix_append place names).trans below]
  · simp [below]

section

variable (same : other.entriesFrom place = tree.entriesFrom place)

include same

theorem entriesFrom_below (names : List String) : other.entriesFrom (place ++ names) = tree.entriesFrom (place ++ names) := by
  rw [entriesFrom_append, entriesFrom_append, same]

theorem lookup_of_entriesFrom (names : List String) : other.lookup (place ++ names) = tree.lookup (place ++ names) :=
  lookup_eq_of_filter_eq (fun location => decide (place <+: location)) same (by simp)

/-- The names in a directory are listed in the order of the entries. -/
theorem children_of_entriesFrom : other.children place = tree.children place := by
  have listed (tree : FileTree) : tree.children place = { tree with entries := tree.entriesFrom place : FileTree }.children place := by
    unfold children entriesFrom
    rw [List.filterMap_filter]
    refine List.filterMap_congr fun e _ => ?_
    by_cases below : place <+: e.1
    · simp [below]
    · have missing : Path.below? place e.1 = none := Path.below?_eq_none_iff.2 fun parts whole => below (whole ▸ List.prefix_append _ _)
      simp [below, missing]
  rw [listed, listed tree, same]
  rfl

end

theorem entriesFrom_put (beyond : ¬ place <+: location) (entry : Entry) : (tree.put location entry).entriesFrom place = tree.entriesFrom place :=
  filter_set_of_drop (fun location => decide (place <+: location)) (by simpa using beyond) entry tree.entries

theorem entriesFrom_fill (beyond : ¬ place <+: location) : (tree.fill location).entriesFrom place = tree.entriesFrom place := by
  induction location using List.reverseRecOn with
  | nil => rfl
  | append_singleton outer name ih =>
    rw [fill_append, withDirectory]
    split
    · rw [entriesFrom_put beyond]
      exact ih fun within => beyond (within.trans (List.prefix_append _ _))
    · exact ih fun within => beyond (within.trans (List.prefix_append _ _))

theorem workingDirectory_fill (tree : FileTree) (location : Location) : (tree.fill location).workingDirectory = tree.workingDirectory := by
  induction location using List.reverseRecOn with
  | nil => rfl
  | append_singleton outer name ih =>
    rw [fill_append, withDirectory]
    split
    · exact ih
    · exact ih

/-! ## What a copy leaves alone -/

/-- A tree that differs from another at and below a target alone, but for directories on the way there; what lies apart from the target
is listed in the same order. -/
structure Kept (target : Location) (tree now : FileTree) : Prop extends Confined (.below target) tree now where
  entries : ∀ place, Apart target place → now.entriesFrom place = tree.entriesFrom place

namespace Kept

theorem start (sound : tree.WellFormed) (free : tree.LinkFree) : Kept target tree tree := ⟨.startBelow sound free, fun _ _ => rfl⟩

variable (kept : Kept target tree now)

include kept

/-- What lies apart from the target is as it was. -/
theorem lookup_apart (apart : Apart target place) : now.lookup place = tree.lookup place :=
  kept.lookup_eq (by simpa using apart.1) apart.2

/-- A directory comes to stand where something changes on the way to the target. -/
theorem directory_of_changed (above : ¬ target <+: place) (changed : now.lookup place ≠ tree.lookup place) :
    place <+: target ∧ tree.lookup place = none ∧ now.lookup place = some .directory :=
  (kept.kept place (by simpa using above)).resolve_left changed

theorem put {content : Bytes} (inside : now.lookup outer = some .directory) (valid : IsEntryName name)
    (solid : now.lookup (outer ++ [name]) ≠ some .directory) (below : target <+: outer ++ [name]) :
    Kept target tree (now.put (outer ++ [name]) (.file content)) := by
  refine ⟨kept.toConfined.putFile inside valid solid (by simpa using below), fun place apart => ?_⟩
  rw [entriesFrom_put, kept.entries place apart]
  intro within
  obtain above | below' := List.prefix_or_prefix_of_prefix below within
  · exact apart.1 above
  · exact apart.2 below'

theorem fill (clear : now.Clear front) (named : AreNames front) (near : front <+: target ++ names) : Kept target tree (now.fill front) := by
  refine ⟨⟨clear.sound_fill named kept.sound, Clear.free_fill kept.free, (workingDirectory_fill _ _).trans kept.working,
    fun _ loose => (nomatch loose), fun location outside => ?_⟩, fun place apart => ?_⟩
  · rw [lookup_fill]
    split
    · next both =>
      obtain ⟨within, vacant⟩ := both
      rw [Zone.allows_below] at outside
      have above : location <+: target :=
        (List.prefix_or_prefix_of_prefix (List.prefix_append target names) (within.trans near)).resolve_left outside
      refine .inr ⟨above, ?_, rfl⟩
      obtain same | ⟨-, missing, -⟩ := kept.kept location (by simpa using outside)
      · rw [← same, vacant]
      · exact missing
    · exact kept.kept location outside
  · rw [entriesFrom_fill, kept.entries place apart]
    intro within
    obtain above | below := List.prefix_or_prefix_of_prefix (List.prefix_append target names) (within.trans near)
    · exact apart.1 above
    · exact apart.2 below

end Kept

/-- A file that cannot be copied leaves the tree as it is. -/
theorem eq_of_copyFile_fails {nested : Bool} {from_ to_ : Path} {e : FileError}
    (failed : FileTask.copyFile nested from_ to_ tree = (.error e, now)) : now = tree := by
  have leaves : Leaves (FileTask.copyFile nested from_ to_) tree (fun _ _ => True) (· = tree) := by
    refine .get ?_
    simp only
    generalize (if tree.isDirectory to_ = true then to_.child from_.name else to_) = place
    split
    · exact .bind (.throw rfl)
    · split
      · exact .throw rfl
      · unfold FileTask.change
        refine .get ?_
        split
        · exact .set trivial
        · exact .throw rfl
  exact leaves.of_error failed

/-- A directory whose path cannot be looked up cannot be copied. -/
theorem copyDirectory_of_not_fits (sound : tree.WellFormed) (free : tree.LinkFree) (named : AreNames place) (unfit : ¬ Fits place)
    (depth : Nat) {to_ : Path} : ∃ e, FileTask.copyDirectory ignored depth (.ofLocation place) to_ tree = (.error e, tree) := by
  cases depth with
  | zero => exact ⟨_, rfl⟩
  | succ depth =>
    rw [FileTask.copyDirectory_eq, get_bind_apply]
    rcases leads : tree.follow (.ofLocation place) with fault | ⟨end_, entry⟩ | end_
    · exact ⟨_, rfl⟩
    · exact absurd ((follow_entry_iff sound free named).1 leads).1 unfit
    · exact ⟨_, rfl⟩

/-- Tasks that agree leave reports of which both are empty or neither. -/
theorem agree_reported {pair : FileTree → FileTree → Prop} {report : FileError → List String} {task task' : FileTask Unit}
    (told : FailsWith (fun e => report e ≠ []) task) (told' : FailsWith (fun e => report e ≠ []) task')
    (agree : Agree pair (fun _ _ => True) (task tree) (task' other)) :
    Agree pair BothEmpty (FileTask.reported report task tree) (FileTask.reported report task' other) := by
  rw [FileTask.reported_apply, FileTask.reported_apply]
  rcases ran : task tree with ⟨e | ⟨⟩, after⟩ <;> rcases ran' : task' other with ⟨e' | ⟨⟩, after'⟩ <;> rw [ran, ran'] at agree
  · exact .answer (by simp [BothEmpty, told _ _ _ ran, told' _ _ _ ran']) agree.after
  · cases agree
  · cases agree
  · exact .answer (by simp [BothEmpty]) agree.after

/-- The entries of a directory are copied alike if each of them is. -/
theorem agree_copies {pair : FileTree → FileTree → Prop} {depth depth' : Nat} {from_ to_ : Path} {list : List String}
    (each : ∀ name ∈ list, ∀ now now', pair now now' → Agree pair (fun _ _ => True)
      (FileTask.copyInto ignored depth from_ to_ name now) (FileTask.copyInto ignored depth' from_ to_ name now')) (paired : pair tree other) :
    Agree pair (List.Forall₂ BothEmpty)
      (list.mapM (fun name => FileTask.reported (FileTask.reportOf (from_.child name) (to_.child name))
        (FileTask.copyInto ignored depth from_ to_ name)) tree)
      (list.mapM (fun name => FileTask.reported (FileTask.reportOf (from_.child name) (to_.child name))
        (FileTask.copyInto ignored depth' from_ to_ name)) other) := by
  have told (depth : Nat) (name : String) : FailsWith (fun e => FileTask.reportOf (from_.child name) (to_.child name) e ≠ [])
      (FileTask.copyInto ignored depth from_ to_ name) :=
    fun _ _ _ failed => FileTask.reportOf_ne_nil (FileTask.fails_copyInto _ _ _ _ _ _ _ _ failed)
  exact .mapM (fun name mem now now' paired => agree_reported (told depth name) (told depth' name) (each name mem now now' paired)) paired

/-- No directory lies deeper below a location than a copy may go. -/
def Deep (tree : FileTree) (place : Location) (depth : Nat) : Prop :=
  ∀ names, tree.lookup (place ++ names) = some .directory → names.length < depth

theorem deep_depthLimit (sound : tree.WellFormed) (place : Location) : tree.Deep place (FileTask.depthLimit tree) :=
  fun names directory => length_lt_depthLimit sound (by simp [directory] : tree.lookup (place ++ names) ≠ none)

/-! ## Two trees -/

/-- Two trees that are alike in all that a copy from a source to a target asks about. -/
structure Level (source target : Location) (tree other : FileTree) : Prop where
  source : other.entriesFrom source = tree.entriesFrom source
  inside : ∀ names, other.lookup (target ++ names) = tree.lookup (target ++ names)
  way : ∀ place, place <+: target → (other.Open place ↔ tree.Open place)

/-- The trees of two runs that make the same copy. -/
structure Twins (target : Location) (tree other now now' : FileTree) : Prop where
  first : Kept target tree now
  second : Kept target other now'
  inside : ∀ names, now'.lookup (target ++ names) = now.lookup (target ++ names)
  way : ∀ place, place <+: target → place ≠ target →
    now.lookup place = tree.lookup place ∧ now'.lookup place = other.lookup place ∨
      now.lookup place = some .directory ∧ now'.lookup place = some .directory

theorem Twins.start (level : Level source target tree other) (sound : tree.WellFormed) (free : tree.LinkFree) (sound' : other.WellFormed)
    (free' : other.LinkFree) : Twins target tree other tree other :=
  ⟨.start sound free, .start sound' free', level.inside, fun _ _ _ => .inl ⟨rfl, rfl⟩⟩

theorem Level.symm (level : Level source target tree other) : Level source target other tree :=
  ⟨level.source.symm, fun names => (level.inside names).symm, fun place above => (level.way place above).symm⟩

namespace Twins

variable (twins : Twins target tree other now now')

include twins

theorem symm : Twins target other tree now' now :=
  ⟨twins.second, twins.first, fun names => (twins.inside names).symm,
    fun place above apart => (twins.way place above apart).imp And.symm And.symm⟩

section

variable (level : Level source target tree other)

include level

theorem open_iff (near : place <+: target ++ names) : now'.Open place ↔ now.Open place := by
  unfold Open
  by_cases inside : target <+: place
  · obtain ⟨rest, rfl⟩ := inside
    rw [twins.inside]
  · have above := (List.prefix_or_prefix_of_prefix (List.prefix_append target names) near).resolve_left inside
    obtain ⟨same, same'⟩ | ⟨there, there'⟩ := twins.way place above fun same => inside (same ▸ List.prefix_refl _)
    · rw [same, same']
      exact level.way place above
    · simp [there, there']

theorem clear_iff (near : location <+: target ++ names) : now'.Clear location ↔ now.Clear location :=
  forall₂_congr fun _ within => twins.open_iff level (within.trans near)

end

theorem entries (level : Level source target tree other) (apart : Apart target source) (names : List String) :
    now'.entriesFrom (source ++ names) = now.entriesFrom (source ++ names) := by
  refine entriesFrom_below ?_ names
  rw [twins.first.entries _ apart, twins.second.entries _ apart, level.source]

/-! ## Changes that both runs make -/

theorem put {content : Bytes} (named : AreNames (target ++ names)) (inside : now.lookup (target ++ names).dropLast = some .directory)
    (inside' : now'.lookup (target ++ names).dropLast = some .directory) (solid : now.lookup (target ++ names) ≠ some .directory) :
    Twins target tree other (now.put (target ++ names) (.file content)) (now'.put (target ++ names) (.file content)) := by
  have solid' := twins.inside names ▸ solid
  have filled : target ++ names ≠ [] := by
    intro empty
    rw [empty] at solid
    exact solid rfl
  obtain ⟨outer, name, whole⟩ := (List.eq_nil_or_concat (target ++ names)).resolve_left filled
  rw [List.concat_eq_append] at whole
  have below : target <+: outer ++ [name] := whole ▸ List.prefix_append _ _
  refine ⟨?_, ?_, fun rest => ?_, fun place above apart => ?_⟩
  · rw [whole] at named inside solid ⊢
    rw [List.dropLast_concat] at inside
    exact twins.first.put inside (by simpa using (areNames_append.1 named).2) solid below
  · rw [whole] at named inside' solid' ⊢
    rw [List.dropLast_concat] at inside'
    exact twins.second.put inside' (by simpa using (areNames_append.1 named).2) solid' below
  · rw [now.lookup_put filled, now'.lookup_put filled, twins.inside]
  · have short : place ≠ target ++ names := fun same => apart (above.eq_of_length_le (same ▸ by simp))
    rw [now.lookup_put filled, now'.lookup_put filled, if_neg short, if_neg short]
    exact twins.way place above apart

theorem fill (level : Level source target tree other) (clear : now.Clear front) (named : AreNames front) (near : front <+: target ++ names) :
    Twins target tree other (now.fill front) (now'.fill front) := by
  have clear' := (twins.clear_iff level near).2 clear
  refine ⟨twins.first.fill clear named near, twins.second.fill clear' named near, fun rest => ?_, fun place above apart => ?_⟩
  · rw [lookup_fill, lookup_fill, twins.inside]
  · by_cases within : place <+: front
    · have made (now : FileTree) (clear : now.Clear front) : (now.fill front).lookup place = some .directory := by
        rw [lookup_fill]
        split
        · rfl
        · next there => exact (clear place within).resolve_left fun vacant => there ⟨within, vacant⟩
      exact .inr ⟨made now clear, made now' clear'⟩
    · rw [lookup_fill, lookup_fill, if_neg fun both => within both.1, if_neg fun both => within both.1]
      exact twins.way place above apart

/-- Directories are made in both trees or in neither. -/
theorem prepare {task : FileTask Unit} (level : Level source target tree other) (prepares : Prepares task location) (named : AreNames location)
    (near : location <+: target ++ names) : Agree (Twins target tree other) (fun _ _ => True) (task now) (task now') := by
  obtain ⟨front, within, leaves⟩ := prepares.leaves
  have ends (after : FileTree) := prepares.ends now after twins.first.sound twins.first.free
  have ends' (after : FileTree) := prepares.ends now' after twins.second.sound twins.second.free
  have clear := twins.clear_iff level near
  have paired : Twins target tree other (task now).2 (task now').2 := by
    have same := twins.clear_iff level (within.trans near)
    have named' : AreNames front := fun name mem => named name (within.subset mem)
    obtain ⟨clear, done⟩ | ⟨blocked, done⟩ := leaves now twins.first.sound twins.first.free <;>
      obtain ⟨clear', done'⟩ | ⟨blocked', done'⟩ := leaves now' twins.second.sound twins.second.free
    · rw [done, done']
      exact twins.fill level clear named' (within.trans near)
    · exact absurd (same.2 clear) blocked'
    · exact absurd (same.1 clear') blocked
    · rwa [done, done']
  refine .of_success (fun _ after ran => ?_) (fun _ after' ran' => ?_) fun e e' after after' ran ran' => ?_
  · obtain ⟨fits, clear', rfl⟩ := (ends after).1 ran
    have ran' := (ends' _).2 ⟨fits, clear.2 clear', rfl⟩
    rw [ran, ran'] at paired
    exact ⟨(), _, ran', trivial, paired⟩
  · obtain ⟨fits, clear', -⟩ := (ends' after').1 ran'
    exact ⟨(), _, (ends _).2 ⟨fits, clear.1 clear', rfl⟩⟩
  · rwa [ran, ran'] at paired

/-! ## Files -/

theorem lookup_source (level : Level source target tree other) (apart : Apart target source) (names : List String) :
    now'.lookup (source ++ names) = now.lookup (source ++ names) := by
  have same := twins.entries level apart []
  rw [List.append_nil] at same
  exact lookup_of_entriesFrom same names

/-- A file that is copied in the one tree is copied in the other. -/
theorem copyFile_follows {nested : Bool} {rest : List String} {after : FileTree} (level : Level source target tree other)
    (apart : Apart target source) (named : AreNames (source ++ rest)) (named' : AreNames (target ++ names))
    (around : now.lookup (target ++ names).dropLast = some .directory → now'.lookup (target ++ names).dropLast = some .directory)
    (ended : FileTask.copyFile nested (.ofLocation (source ++ rest)) (.ofLocation (target ++ names)) now = (.ok (), after)) :
    ∃ after', FileTask.copyFile nested (.ofLocation (source ++ rest)) (.ofLocation (target ++ names)) now' = (.ok (), after') ∧
      Twins target tree other after after' := by
  have read := twins.lookup_source level apart rest
  have away (parts : List String) : source ++ rest ≠ target ++ parts := fun same => (apart.append rest).1 (same ▸ List.prefix_append _ _)
  have filled : source ++ rest ≠ [] := by
    intro empty
    rw [(List.append_eq_nil_iff.1 empty).1] at apart
    exact apart.2 List.nil_prefix
  obtain ⟨outer, name, whole⟩ := (List.eq_nil_or_concat (source ++ rest)).resolve_left filled
  rw [List.concat_eq_append] at whole
  rw [whole] at named read away ended ⊢
  have lands : landing now' (target ++ names) [] name = landing now (target ++ names) [] name := by
    refine landing_congr ?_ name
    rw [List.append_nil, twins.inside]
  have apart' : outer ++ [name] ≠ target ++ names ++ [name] := List.append_assoc target names [name] ▸ away (names ++ [name])
  obtain ⟨content, given, written⟩ :=
    (copyFile_ends_iff twins.first.sound twins.first.free named named' (away names) apart').1 ended
  obtain ⟨fits, file⟩ := (read_ofLocation_iff twins.first.sound twins.first.free named).1 given
  have landed : AreNames (target ++ (names ++ landing now (target ++ names) [] name)) := by
    rw [← List.append_assoc]
    exact areNames_landing (by rwa [List.append_nil]) (by simpa using (areNames_append.1 named).2)
  rw [List.append_assoc] at written
  obtain ⟨fits', solid, inside, rfl⟩ := (write_ofLocation_iff twins.first.sound twins.first.free landed).1 written
  have inside' : now'.lookup (target ++ (names ++ landing now (target ++ names) [] name)).dropLast = some .directory := by
    revert inside
    rw [← List.append_assoc]
    unfold landing
    split
    · rw [List.nil_append, List.dropLast_concat, twins.inside]
      exact id
    · rw [List.append_nil]
      exact around
  refine ⟨_, (copyFile_ends_iff twins.second.sound twins.second.free named named' (away names) apart').2 ⟨content, ?_, ?_⟩,
    twins.put landed inside inside' solid⟩
  · exact (read_ofLocation_iff twins.second.sound twins.second.free named).2 ⟨fits, read.trans file⟩
  · rw [lands, List.append_assoc]
    exact (write_ofLocation_iff twins.second.sound twins.second.free landed).2 ⟨fits', twins.inside _ ▸ solid, inside', rfl⟩

theorem copyFile {nested : Bool} {rest : List String} (level : Level source target tree other)
    (apart : Apart target source) (named : AreNames (source ++ rest)) (named' : AreNames (target ++ names))
    (around : now.lookup (target ++ names).dropLast = some .directory ↔ now'.lookup (target ++ names).dropLast = some .directory) :
    Agree (Twins target tree other) (fun _ _ => True)
      (FileTask.copyFile nested (.ofLocation (source ++ rest)) (.ofLocation (target ++ names)) now)
      (FileTask.copyFile nested (.ofLocation (source ++ rest)) (.ofLocation (target ++ names)) now') := by
  refine .of_success (fun _ after ended => ?_) (fun _ after' ended => ?_) fun e e' after after' failed failed' => ?_
  · obtain ⟨after', ended', paired⟩ := twins.copyFile_follows level apart named named' around.1 ended
    exact ⟨(), after', ended', trivial, paired⟩
  · obtain ⟨after, ended', -⟩ := twins.symm.copyFile_follows level.symm apart named named' around.2 ended
    exact ⟨(), after, ended'⟩
  · rwa [eq_of_copyFile_fails failed, eq_of_copyFile_fails failed']

/-! ## Directories -/

section

variable (level : Level source target tree other) (apart : Apart target source) (named : AreNames source) (named' : AreNames target)

include level apart

/-- An entry of a directory is copied alike in both trees if it is when it is a directory. -/
theorem copyInto {depth depth' : Nat} (named : AreNames (source ++ (names ++ [name]))) (named' : AreNames (target ++ (names ++ [name])))
    (directories : now.lookup (source ++ (names ++ [name])) = some .directory → Agree (Twins target tree other) (fun _ _ => True)
      (FileTask.copyDirectory ignored depth (.ofLocation (source ++ (names ++ [name]))) (.ofLocation (target ++ (names ++ [name]))) now)
      (FileTask.copyDirectory ignored depth' (.ofLocation (source ++ (names ++ [name]))) (.ofLocation (target ++ (names ++ [name]))) now')) :
    Agree (Twins target tree other) (fun _ _ => True)
      (FileTask.copyInto ignored depth (.ofLocation (source ++ names)) (.ofLocation (target ++ names)) name now)
      (FileTask.copyInto ignored depth' (.ofLocation (source ++ names)) (.ofLocation (target ++ names)) name now') := by
  have valid : IsEntryName name := by simpa using (areNames_append.1 (areNames_append.1 named).2).2
  have same := isDirectory_congr twins.first.sound twins.first.free twins.second.sound twins.second.free named (twins.lookup_source level apart _)
  unfold FileTask.copyInto
  rw [get_bind_apply, get_bind_apply, Path.child_ofLocation valid, Path.child_ofLocation valid, List.append_assoc, List.append_assoc, same]
  split
  · next there => exact directories ((isDirectory_ofLocation_iff twins.first.sound twins.first.free named).1 there).2
  · refine twins.copyFile level apart named named' ?_
    rw [← List.append_assoc, List.dropLast_concat, twins.inside]

theorem copyDirectory {depth depth' : Nat} (named : AreNames (source ++ names)) (named' : AreNames (target ++ names))
    (there : now.lookup (source ++ names) = some .directory) (deep : now.Deep (source ++ names) depth) (deep' : now.Deep (source ++ names) depth') :
    Agree (Twins target tree other) (fun _ _ => True)
      (FileTask.copyDirectory ignored depth (.ofLocation (source ++ names)) (.ofLocation (target ++ names)) now)
      (FileTask.copyDirectory ignored depth' (.ofLocation (source ++ names)) (.ofLocation (target ++ names)) now') := by
  induction depth generalizing names depth' now now' with
  | zero => exact absurd (deep [] (by rwa [List.append_nil])) (Nat.not_lt_zero _)
  | succ depth ih =>
    obtain ⟨depth', rfl⟩ : ∃ n, depth' = n + 1 := ⟨depth' - 1, by have := deep' [] (by rwa [List.append_nil]); omega⟩
    have there' := (twins.lookup_source level apart names).trans there
    by_cases fits : Fits (source ++ names)
    · have leads := (follow_entry_iff twins.first.sound twins.first.free named).2 ⟨fits, rfl, there⟩
      have leads' := (follow_entry_iff twins.second.sound twins.second.free named).2 ⟨fits, rfl, there'⟩
      have list : FileTask.copiedNames ignored now' (source ++ names) = FileTask.copiedNames ignored now (source ++ names) := by
        rw [FileTask.copiedNames, FileTask.copiedNames, children_of_entriesFrom (twins.entries level apart names)]
      rw [FileTask.copyDirectory_eq, FileTask.copyDirectory_eq, get_bind_apply, get_bind_apply, leads, leads']
      simp only [list]
      refine (twins.prepare level (prepares_makeDirectories named') named' (List.prefix_refl _)).bind fun _ _ between between' _ _ _ paired => ?_
      refine (agree_copies (fun name mem x y twins' => ?_) paired).bind fun reports reports' _ _ _ _ together paired => ?_
      · have valid : AreNames [name] := by simpa using isEntryName_of_mem_children twins.first.sound (List.mem_filter.1 mem).1
        have below {place : Location} (named : AreNames (place ++ names)) : AreNames (place ++ (names ++ [name])) := by
          rw [← List.append_assoc]
          exact areNames_append.2 ⟨named, valid⟩
        -- what is copied is as it was at the start
        have deeper {depth : Nat} (deep : now.Deep (source ++ names) (depth + 1)) : x.Deep (source ++ (names ++ [name])) depth := by
          intro rest directory
          have same : x.lookup (source ++ (names ++ [name]) ++ rest) = now.lookup (source ++ (names ++ [name]) ++ rest) := by
            rw [List.append_assoc, twins'.first.lookup_apart (apart.append _), twins.first.lookup_apart (apart.append _)]
          have short := deep (name :: rest) (by rw [← directory, same]; simp)
          simpa using short
        exact twins'.copyInto level apart (below named) (below named') fun there =>
          ih twins' (below named) (below named') there (deeper deep) (deeper deep')
      have both := BothEmpty.flatten together
      by_cases quiet : reports.flatten = []
      · rw [if_neg (by simp [quiet]), if_neg (by simp [both.1 quiet])]
        exact .answer trivial paired
      · rw [if_pos quiet, if_pos fun quiet' => quiet (both.2 quiet')]
        exact .failure paired
    · obtain ⟨e, failed⟩ := copyDirectory_of_not_fits twins.first.sound twins.first.free named fits (depth + 1)
      obtain ⟨e', failed'⟩ := copyDirectory_of_not_fits twins.second.sound twins.second.free named fits (depth' + 1)
      rw [failed, failed']
      exact .failure twins

end

end Twins

/-! ## Questions -/

theorem asks_of_notFound {path : Path} (leads : tree.follow path = .error .notFound) (test : Entry → Bool) : tree.asks path test = .ok false := by
  rw [asks, leads]

theorem asks_of_nameTooLong {path : Path} (leads : tree.follow path = .error .nameTooLong) (test : Entry → Bool) :
    tree.asks path test = .error (.refused .nameTooLong path.toString) := by
  rw [asks, leads]

/-- A walk down names that can be looked up does not end for one that is too long. -/
theorem walk_ne_nameTooLong (free : tree.LinkFree) {limit : Nat} (steps : ∀ name ∈ names, IsStep name) :
    tree.walk true limit place names ≠ .error .nameTooLong := by
  induction names generalizing place with
  | nil => simp
  | cons name names ih =>
    obtain ⟨step, rest⟩ := List.forall_mem_cons.1 steps
    rw [walk_step step]
    split
    · split <;> simp
    · exact ih rest
    · split <;> simp
    · next target there => exact absurd there (free _ _)

/-- What stands at a location that can be looked up answers each question about it. -/
theorem asks_ofLocation_of_fits (sound : tree.WellFormed) (free : tree.LinkFree) (fits : Fits location) (test : Entry → Bool) :
    tree.asks (.ofLocation location) test = .ok ((tree.lookup location).any test) := by
  rcases there : tree.lookup location with _ | entry
  · unfold asks
    have short : tree.follow (.ofLocation location) ≠ .error .nameTooLong := by
      rw [follow_ofLocation_eq_walk tree fits.named fits.fine]
      exact walk_ne_nameTooLong free fits.steps
    rcases leads : tree.follow (.ofLocation location) with fault | ⟨end_, entry⟩ | end_
    · cases fault <;> first | rfl | exact absurd leads short
    · obtain ⟨-, rfl, present⟩ := (follow_entry_iff sound free fits.named).1 leads
      rw [there] at present
      cases present
    · rfl
  · exact asks_ofLocation_of_present sound free fits.named fits there test

/-- A name of a location that is too long to be looked up stands in something that is there. -/
def Decided (tree : FileTree) (location : Location) : Prop :=
  ∀ outer name rest, location = outer ++ name :: rest → longestName < name.utf8ByteSize → tree.lookup outer ≠ none

theorem decided_of_short (short : ∀ name ∈ location, name.utf8ByteSize ≤ longestName) : tree.Decided location := by
  intro outer name rest whole long
  exact absurd (short name (whole ▸ by simp)) (Nat.not_le.2 long)

/-- A walk that goes on from an entry to a name that is too long ends there, or at the entry if that is a file. -/
theorem walk_to_long (sound : tree.WellFormed) (free : tree.LinkFree) {rest : List String} {limit : Nat} (steps : ∀ name ∈ outer, IsStep name)
    (valid : IsEntryName name) (long : longestName < name.utf8ByteSize) (there : tree.lookup outer ≠ none) :
    tree.walk true limit [] (outer ++ name :: rest) =
      if tree.lookup outer = some .directory then .error .nameTooLong else .error .notDirectory := by
  have onward {front rest : List String} (steps : ∀ name ∈ front, IsStep name) (directory : tree.lookup front = some .directory) (more : rest ≠ []) :
      tree.walk true limit [] (front ++ rest) = tree.walk true limit front rest := by
    have way : tree.Reaches 0 [] front ([] ++ front) := reaches_names sound steps (by simp [directory]) (by simp [directory])
    exact walk_append way (Nat.zero_le _) true more directory
  by_cases directory : tree.lookup outer = some .directory
  · rw [if_pos directory, onward steps directory (List.cons_ne_nil name rest)]
    exact walk_of_nameTooLong valid.1 valid.2.1 long
  · rw [if_neg directory]
    obtain ⟨up, last, rfl, around, -⟩ := sound.exists_outer there directory
    rw [List.append_assoc, onward (fun part mem => steps part (List.mem_append_left _ mem)) around (by simp), List.singleton_append,
      walk_step (steps last (by simp))]
    rcases entry : tree.lookup (up ++ [last]) with _ | content | link | _
    · exact absurd entry there
    · simp
    · exact absurd entry (free _ _)
    · exact absurd entry directory

/-- The first name that cannot be looked up. -/
theorem exists_first_long (named : AreNames location) (long : ¬ ∀ name ∈ location, IsStep name) :
    ∃ outer name rest, location = outer ++ name :: rest ∧ (∀ part ∈ outer, IsStep part) ∧ longestName < name.utf8ByteSize := by
  induction location with
  | nil => exact absurd (by simp) long
  | cons first names ih =>
    obtain ⟨valid, others⟩ := areNames_cons.1 named
    by_cases step : IsStep first
    · obtain ⟨outer, name, rest, rfl, steps, beyond⟩ := ih others fun all => long (List.forall_mem_cons.2 ⟨step, all⟩)
      exact ⟨first :: outer, name, rest, rfl, List.forall_mem_cons.2 ⟨step, steps⟩, beyond⟩
    · exact ⟨[], first, names, rfl, by simp, Nat.lt_of_not_le fun short => step ⟨valid.1, valid.2.1, short⟩⟩

/-- A question that is decided has the same answer in a tree that has the same there, and all that leads there. -/
theorem asks_congr (sound : tree.WellFormed) (free : tree.LinkFree) (sound' : other.WellFormed) (free' : other.LinkFree)
    (named : AreNames location) (decided : tree.Decided location) (same : other.lookup location = tree.lookup location)
    (kept : ∀ outer, outer <+: location → tree.lookup outer ≠ none → other.lookup outer = tree.lookup outer) (test : Entry → Bool) :
    other.asks (.ofLocation location) test = tree.asks (.ofLocation location) test := by
  rcases fine : pathFault? (.ofLocation location) with _ | fault
  · by_cases steps : ∀ name ∈ location, IsStep name
    · rw [asks_ofLocation_of_fits sound free ⟨named, fine, steps⟩, asks_ofLocation_of_fits sound' free' ⟨named, fine, steps⟩, same]
    · obtain ⟨outer, name, rest, whole, steps, long⟩ := exists_first_long named steps
      have there := decided outer name rest whole long
      have there' := kept outer (whole ▸ List.prefix_append _ _) there
      have valid : IsEntryName name := named name (whole ▸ by simp)
      have same : other.follow (.ofLocation location) = tree.follow (.ofLocation location) := by
        rw [follow_ofLocation_eq_walk other named fine, follow_ofLocation_eq_walk tree named fine, whole,
          walk_to_long sound free steps valid long there, walk_to_long sound' free' steps valid long (there' ▸ there), there']
      unfold asks
      rw [same]
  · unfold asks follow
    rw [fine]

/-! ## Copies -/

/-- What a copy asks about decides it: in two trees that are alike in that, both copies succeed or both fail, and what they leave is paired. -/
theorem Twins.copy (level : Level source target tree other) (apart : Apart target source) (sound : tree.WellFormed) (free : tree.LinkFree)
    (sound' : other.WellFormed) (free' : other.LinkFree) (named : AreNames source) (named' : AreNames target)
    (asked : other.asksDirectory (.ofLocation source) = tree.asksDirectory (.ofLocation source)) :
    Agree (Twins target tree other) (fun _ _ => True)
      (FileTask.copy ignored (.ofLocation source) (.ofLocation target) tree) (FileTask.copy ignored (.ofLocation source) (.ofLocation target) other) := by
  have twins : Twins target tree other tree other := .start level sound free sound' free'
  have parent : Path.parent (.ofLocation target) = .ofLocation target.dropLast := rfl
  rcases question : tree.asksDirectory (.ofLocation source) with e | _ | _
  · rw [copy_of_unasked question, copy_of_unasked (asked.trans question)]
    exact .failure twins
  · rw [copy_of_file question, copy_of_file (asked.trans question), parent]
    have near : target.dropLast <+: target ++ [] := by simpa using List.dropLast_prefix target
    refine (twins.prepare level (prepares_ensureDirectory named'.dropLast) named'.dropLast near).bind fun _ _ between between' made made' _ paired => ?_
    obtain ⟨-, clear, rfl⟩ := (ensureDirectory_ends_iff sound free named'.dropLast).1 made
    obtain ⟨-, clear', rfl⟩ := (ensureDirectory_ends_iff sound' free' named'.dropLast).1 made'
    have around : (tree.fill target.dropLast).lookup target.dropLast = some .directory ↔
        (other.fill target.dropLast).lookup target.dropLast = some .directory := by
      rw [clear.lookup_fill_self, clear'.lookup_fill_self]
    have single := @Twins.copyFile tree other _ _ source target [] paired false [] level apart
    simp only [List.append_nil] at single
    exact single named named' around
  · obtain ⟨-, entry, there, directory⟩ := (asks_ofLocation_true_iff sound free named).1 question
    obtain rfl : entry = .directory := by simpa using directory
    have deep' : tree.Deep source (FileTask.depthLimit other) := by
      intro names directory
      exact deep_depthLimit sound' source names (by rwa [lookup_of_entriesFrom level.source])
    have whole := @Twins.copyDirectory tree other tree other source target [] ignored twins level apart (FileTask.depthLimit tree)
      (FileTask.depthLimit other)
    simp only [List.append_nil] at whole
    rw [copy_of_directory question, copy_of_directory (asked.trans question)]
    exact whole named named' there (deep_depthLimit sound source) deep'

end WasmPackaging.FileTree
