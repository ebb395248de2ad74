import WasmPackaging.FileTree.Copying
import WasmPackaging.Proofs.FileTree.LinkFree

/-!
Changes that keep to a zone: one location with all that stands below it, and perhaps one place beside it. A tree
that was changed there alone (`Confined`) differs from the tree before in nothing else, but for directories
that were made on the way to the zone. Each single change keeps to the zone when the location that its path
spells lies there, and so do the tasks that are put together from single changes (`keeps_writeBytes`,
`keeps_copy`).
-/

namespace WasmPackaging

open Text

namespace FileTree

/-- What may be changed: whatever stands at and below one location, and perhaps the file at another, which lies neither
below the first nor above it. -/
structure Zone where
  top : Location
  loose : Option Location
  beside : ∀ place ∈ loose, ¬ top <+: place ∧ ¬ place <+: top

namespace Zone

variable (zone : Zone)

/-- The zone of all that stands at and below one location. -/
def below (top : Location) : Zone := ⟨top, none, by simp⟩

/-- A location at which files may be written. -/
def Allows (location : Location) : Prop := zone.top <+: location ∨ location ∈ zone.loose

/-- A location at which directories may be made: in the zone, or on the way to it. -/
def Opens (location : Location) : Prop := zone.top <+: location ∨ location <+: zone.top

/-- A path whose directories may be made: each that it passes lies in the zone or on the way to it, or is there. -/
def Roams (tree : FileTree) (path : Path) : Prop :=
  ∀ parts, parts <+: path.parts → zone.Opens (tree.straight ⟨path.anchor, parts⟩) ∨
    tree.straight ⟨path.anchor, parts⟩ ∉ zone.loose ∧ tree.lookup (tree.straight ⟨path.anchor, parts⟩) ≠ none

@[simp] theorem allows_below {top location : Location} : (below top).Allows location ↔ top <+: location := by
  simp [Allows, below]

theorem allows_top {top location : Location} (same : location = top) : (below top).Allows location :=
  .inl (same ▸ List.prefix_refl _)

variable {zone}

theorem Opens.not_loose {location : Location} (opens : zone.Opens location) : location ∉ zone.loose := by
  intro loose
  obtain below | above := opens
  · exact (zone.beside _ loose).1 below
  · exact (zone.beside _ loose).2 above

theorem Roams.parent {tree : FileTree} {path : Path} (roams : zone.Roams tree path) : zone.Roams tree path.parent :=
  fun parts within => roams parts (within.trans (List.dropLast_prefix _))

/-- The way to a location in the zone lies in the zone, or on the way to it. -/
theorem roams_ofLocation (tree : FileTree) {location : Location} (named : AreNames location) (inside : zone.top <+: location) :
    zone.Roams tree (.ofLocation location) := by
  intro parts within
  have straight : tree.straight ⟨.root, parts⟩ = parts :=
    straight_ofLocation fun name mem => named name (within.subset mem)
  have opens : zone.Opens parts := (List.prefix_or_prefix_of_prefix inside within)
  exact .inl (straight.symm ▸ opens)

/-- The way to the zone can be made. -/
theorem roams_above (tree : FileTree) {location : Location} (named : AreNames location) (above : location <+: zone.top) :
    zone.Roams tree (.ofLocation location) := by
  intro parts within
  have straight : tree.straight ⟨.root, parts⟩ = parts :=
    straight_ofLocation fun name mem => named name (within.subset mem)
  exact .inl (straight.symm ▸ .inr (within.trans above))

end Zone

/-- A tree without links differs from another in a zone alone, but for directories on the way to it, and no directory
stands in the place beside it. -/
structure Confined (zone : Zone) (tree now : FileTree) : Prop where
  sound : now.WellFormed
  free : now.LinkFree
  working : now.workingDirectory = tree.workingDirectory
  loose : ∀ place ∈ zone.loose, now.lookup place ≠ some .directory
  kept : ∀ location, ¬ zone.Allows location → now.lookup location = tree.lookup location ∨
    location <+: zone.top ∧ tree.lookup location = none ∧ now.lookup location = some .directory

namespace Confined

variable {zone : Zone} {tree now : FileTree}

theorem start (sound : tree.WellFormed) (free : tree.LinkFree) (loose : ∀ place ∈ zone.loose, tree.lookup place ≠ some .directory) :
    Confined zone tree tree := ⟨sound, free, rfl, loose, fun _ _ => .inl rfl⟩

theorem startBelow {top : Location} (sound : tree.WellFormed) (free : tree.LinkFree) : Confined (.below top) tree tree :=
  .start sound free fun _ loose => nomatch loose

variable (confined : Confined zone tree now)

include confined

theorem straight_eq (path : Path) : now.straight path = tree.straight path := straight_congr confined.working path

/-- A path has the real location that it had before. -/
theorem resolve_eq (free : tree.LinkFree) (path : Path) : now.resolve path = tree.resolve path :=
  free.resolve_congr confined.free confined.working path

/-- What was there outside the zone still is. -/
theorem present {location : Location} (outside : ¬ zone.Allows location) (there : tree.lookup location ≠ none) :
    now.lookup location = tree.lookup location :=
  (confined.kept location outside).resolve_right fun made => there made.2.1

/-- What lies neither in the zone nor on the way to it is as it was. -/
theorem lookup_eq {location : Location} (outside : ¬ zone.Allows location) (aside : ¬ location <+: zone.top) :
    now.lookup location = tree.lookup location :=
  (confined.kept location outside).resolve_right fun made => aside made.1

/-- What is changed below a location of the zone is changed in the zone. -/
theorem widen {after : FileTree} {top : Location} (inside : zone.top <+: top) (changed : Confined (.below top) now after) :
    Confined zone tree after := by
  have beyond {location : Location} (outside : ¬ zone.top <+: location) : ¬ (Zone.below top).Allows location := by
    rw [Zone.allows_below]
    exact fun below => outside (inside.trans below)
  refine ⟨changed.sound, changed.free, changed.working.trans confined.working, fun place loose => ?_, fun location outside => ?_⟩
  · obtain ⟨below, above⟩ := zone.beside place loose
    have aside : ¬ place <+: top := fun way => (List.prefix_or_prefix_of_prefix inside way).elim below above
    rw [changed.lookup_eq (beyond below) aside]
    exact confined.loose place loose
  · have outside' : ¬ zone.top <+: location := fun below => outside (.inl below)
    obtain same | ⟨way, missing, made⟩ := changed.kept location (beyond outside')
    · rw [same]
      exact confined.kept location outside
    · -- a directory that was made on the way to the location was made on the way to the zone
      have above : location <+: zone.top := (List.prefix_or_prefix_of_prefix inside way).resolve_left outside'
      obtain same | ⟨-, -, there⟩ := confined.kept location outside
      · exact .inr ⟨above, same ▸ missing, made⟩
      · simp [there] at missing

/-- Whatever the path of a file passes that is read can be made, for it is there. -/
theorem roams_of_read {base : Path} {extra : List String} {content : Bytes} (read : now.read (base.under extra) = .ok content)
    (apart : tree.straight (base.under extra) ∉ zone.loose) : zone.Roams tree base := by
  intro parts within
  obtain ⟨rest, whole⟩ := within
  obtain ⟨-, file⟩ := confined.free.lookup_of_read confined.sound read
  have steps : (base.under extra).steps = Path.steps ⟨base.anchor, parts⟩ ++ (rest ++ extra).flatMap slashed := by
    simp [Path.steps, Path.under, ← whole]
  have passed : now.lookup (now.straight ⟨base.anchor, parts⟩) ≠ none ∧ now.straight ⟨base.anchor, parts⟩ ∉ zone.loose := by
    by_cases more : (rest ++ extra).flatMap slashed = []
    · have same : now.straight ⟨base.anchor, parts⟩ = now.straight (base.under extra) := by
        unfold straight
        rw [steps, more, List.append_nil]
        rfl
      rw [same]
      exact ⟨by simp [file], confined.straight_eq _ ▸ apart⟩
    · obtain ⟨place, leads⟩ := read_eq_ok_iff.1 read
      obtain ⟨-, n, -, goal, reaches, -⟩ := (follow_eq_ok_iff confined.sound).1 leads
      rw [steps] at reaches
      have directory : now.lookup (now.straight ⟨base.anchor, parts⟩) = some .directory :=
        confined.free.directory_on_way confined.sound (lookup_start confined.sound _) more reaches
      exact ⟨by simp [directory], fun loose => confined.loose _ loose directory⟩
  rw [confined.straight_eq] at passed
  obtain ⟨there, other⟩ := passed
  by_cases inside : zone.top <+: tree.straight ⟨base.anchor, parts⟩
  · exact .inl (.inl inside)
  · have outside : ¬ zone.Allows (tree.straight ⟨base.anchor, parts⟩) := fun allowed => allowed.elim inside other
    obtain same | ⟨above, -, -⟩ := confined.kept _ outside
    · exact .inr ⟨other, same ▸ there⟩
    · exact .inl (.inr above)

/-! ## Single changes -/

theorem putFile {outer : Location} {name : String} {content : Bytes} (inside : now.lookup outer = some .directory)
    (valid : IsEntryName name) (fits : now.lookup (outer ++ [name]) ≠ some .directory) (allowed : zone.Allows (outer ++ [name])) :
    Confined zone tree (now.put (outer ++ [name]) (.file content)) := by
  have look := now.lookup_put (List.concat_ne_nil name outer)
  constructor
  · exact confined.sound.put inside valid fun directory => absurd directory fits
  · intro location target
    rw [look]
    split
    · simp
    · exact confined.free location target
  · exact confined.working
  · intro place loose
    rw [look]
    split
    · simp
    · exact confined.loose place loose
  · intro location outside
    rw [look, if_neg]
    · exact confined.kept location outside
    · rintro rfl
      exact outside allowed

theorem putDirectory {outer : Location} {name : String} (inside : now.lookup outer = some .directory)
    (valid : IsEntryName name) (vacant : now.lookup (outer ++ [name]) = none) (opens : zone.Opens (outer ++ [name])) :
    Confined zone tree (now.put (outer ++ [name]) .directory) := by
  have look := now.lookup_put (List.concat_ne_nil name outer)
  constructor
  · exact confined.sound.put inside valid fun _ => rfl
  · intro location target
    rw [look]
    split
    · simp
    · exact confined.free location target
  · exact confined.working
  · intro place loose
    have apart : place ≠ outer ++ [name] := fun same => opens.not_loose (same ▸ loose)
    rw [look, if_neg apart]
    exact confined.loose place loose
  · intro location outside
    rw [look]
    split
    · next same =>
      subst same
      have above : outer ++ [name] <+: zone.top := opens.resolve_left fun below => outside (.inl below)
      have missing : tree.lookup (outer ++ [name]) = none := by
        obtain same | ⟨-, missing, -⟩ := confined.kept _ outside
        · rw [← same, vacant]
        · exact missing
      exact .inr ⟨above, missing, rfl⟩
    · exact confined.kept location outside

theorem erase {location : Location} (solid : now.lookup location ≠ some .directory) (allowed : zone.Allows location) :
    Confined zone tree (now.erase location) := by
  have filled : location ≠ [] := by
    rintro rfl
    exact solid rfl
  have look := now.lookup_erase filled
  constructor
  · exact confined.sound.erase solid
  · intro other target
    rw [look]
    split
    · simp
    · exact confined.free other target
  · exact confined.working
  · intro place loose
    rw [look]
    split
    · simp
    · exact confined.loose place loose
  · intro other outside
    rw [look, if_neg]
    · exact confined.kept other outside
    · rintro rfl
      exact outside allowed

theorem write {path : Path} {content : Bytes} {after : FileTree} (allowed : zone.Allows (tree.straight path))
    (written : now.write path content = .ok after) : Confined zone tree after := by
  obtain ⟨rfl, solid, outer, name, whole, inside, valid⟩ := confined.free.write_eq confined.sound written
  rw [← confined.straight_eq, whole] at allowed
  rw [whole] at solid ⊢
  exact confined.putFile inside valid solid allowed

theorem makeDirectory {path : Path} {after : FileTree} (roams : zone.Roams tree path)
    (made : now.makeDirectory path = .ok after) : Confined zone tree after := by
  unfold FileTree.makeDirectory at made
  cases found : now.vacancy path with
  | error e => simp [found, Except.map] at made
  | ok location =>
    simp only [found, Except.map, Except.ok.injEq] at made
    subst made
    obtain ⟨-, -, n, -, reaches⟩ := reaches_of_vacancy confined.sound found
    obtain ⟨rfl, vacant⟩ := confined.free.vacancy_eq confined.sound found
    obtain ⟨outer, name, whole, inside, valid⟩ := reaches.vacant confined.sound (lookup_start confined.sound path)
      (fun part => Path.not_mem_of_mem_steps) vacant
    have opens : zone.Opens (tree.straight path) := by
      obtain opens | ⟨apart, there⟩ := roams path.parts (List.prefix_refl _)
      · exact opens
      · -- what stands outside the zone stands there still, so the place was not free
        refine .inl (Classical.byContradiction fun beyond => there ?_)
        have outside : ¬ zone.Allows (tree.straight path) := fun allowed => allowed.elim beyond apart
        rw [← confined.present outside there, ← confined.straight_eq]
        exact vacant
    rw [← confined.straight_eq, whole] at opens
    rw [whole] at vacant ⊢
    exact confined.putDirectory inside valid vacant opens

theorem unlink {path : Path} {after : FileTree} (allowed : zone.Allows (tree.straight path))
    (gone : now.unlink path = .ok after) : Confined zone tree after := by
  unfold FileTree.unlink at gone
  rw [confined.free.locate_eq] at gone
  cases leads : now.follow path with
  | error fault =>
    rw [leads] at gone
    cases gone
  | ok end_ =>
    have there := confined.free.follow_eq confined.sound leads
    rw [leads] at gone
    split at gone
    · cases gone
    · next location entry solid same =>
      obtain rfl := Except.ok.inj same
      obtain ⟨rfl, present⟩ := found_eq_entry_iff.1 there.symm
      rw [← Except.ok.inj gone]
      rw [confined.straight_eq] at present ⊢
      refine confined.erase (fun directory => ?_) allowed
      rw [present] at directory
      exact solid (Option.some.inj directory)
    · cases gone
    · cases gone

/-- A file is moved in the zone, unless its target leads to a directory, which is refused. -/
theorem move {source target : Path} {after : FileTree} (allowed : zone.Allows (tree.straight source))
    (allowed' : ∀ content, now.lookup (tree.straight source) = some (.file content) →
      now.lookup (tree.straight target) ≠ some .directory → zone.Allows (tree.straight target))
    (moved : now.move source target = .ok after) : Confined zone tree after := by
  obtain ⟨content, from_, solid, ⟨outer, name, whole, inside, valid⟩, rfl | rfl⟩ := confined.free.move_eq confined.sound moved
  · exact confined
  · rw [confined.straight_eq source] at from_ ⊢
    rw [confined.straight_eq target] at solid whole ⊢
    have there := allowed' content from_ solid
    have filled : tree.straight source ≠ [] := by
      intro root
      rw [root] at from_
      cases from_
    have erased := confined.erase (by simp [from_]) allowed
    have apart : outer ≠ tree.straight source := by
      rintro rfl
      simp [from_] at inside
    rw [whole] at solid there ⊢
    refine erased.putFile ?_ valid ?_ there
    · rw [now.lookup_erase filled, if_neg apart]
      exact inside
    · rw [now.lookup_erase filled]
      split
      · simp
      · exact solid

end Confined

/-! ## Tasks -/

/-- Something stands at each name that a directory lists. -/
theorem lookup_ne_none_of_mem_children {tree : FileTree} {location : Location} {name : String}
    (mem : name ∈ (tree.children location).map Prod.fst) : tree.lookup (location ++ [name]) ≠ none := by
  obtain ⟨⟨_, entry⟩, listed, rfl⟩ := List.mem_map.1 mem
  obtain ⟨⟨place, other⟩, stored, named⟩ := List.mem_filterMap.1 listed
  split at named
  · next below =>
    obtain ⟨rfl, rfl⟩ := Prod.mk.inj (Option.some.inj named)
    obtain rfl := Path.below?_eq_some_iff.1 below
    exact lookup_ne_none_of_mem stored
  · cases named

theorem mem_children_iff {tree : FileTree} {location : Location} {name : String} :
    name ∈ (tree.children location).map Prod.fst ↔ tree.lookup (location ++ [name]) ≠ none := by
  refine ⟨lookup_ne_none_of_mem_children, fun there => ?_⟩
  obtain ⟨entry, found⟩ := Option.ne_none_iff_exists'.1 there
  have listed := mem_entries_of_lookup (List.concat_ne_nil name location) found
  exact List.mem_map.2 ⟨(name, entry), List.mem_filterMap.2 ⟨_, listed, by simp⟩, rfl⟩

/-- The names in a directory are names that entries can have. -/
theorem isEntryName_of_mem_children {tree : FileTree} (sound : tree.WellFormed) {location : Location} {name : String}
    (mem : name ∈ (tree.children location).map Prod.fst) : IsEntryName name :=
  sound.named location _ (lookup_ne_none_of_mem_children mem)

section steps

variable {invariant : FileTree → Prop}

theorem keeps_allowDirectory (path : Path) (e : FileError) : Keeps invariant (fun _ => True) (FileTask.allowDirectory path e) := by
  refine .get fun now kept => ?_
  split
  · exact .pure ⟨trivial, kept⟩
  · exact .throw kept

/-- Makes a directory, or leaves the one that is there. -/
def makeOrAllow (path : Path) : FileTask Unit := do
  match (← MonadState.get).makeDirectory path with
  | .ok tree => MonadState.set tree
  | .error e => FileTask.allowDirectory path e

theorem keeps_makeOrAllow {path : Path}
    (makes : ∀ now after, invariant now → now.makeDirectory path = .ok after → invariant after) :
    Keeps invariant (fun _ => True) (makeOrAllow path) := by
  refine .get fun now kept => ?_
  split
  · next after made => exact .set ⟨trivial, makes now after kept made⟩
  · exact keeps_allowDirectory _ _ now kept

/-- Making a directory on the way to a path, or the one at its end, keeps an invariant. -/
def MakesKeep (invariant : FileTree → Prop) (path : Path) : Prop :=
  ∀ parts, parts <+: path.parts → ∀ now after, invariant now → now.makeDirectory ⟨path.anchor, parts⟩ = .ok after → invariant after

theorem MakesKeep.last {path : Path} (makes : MakesKeep invariant path) :
    ∀ now after, invariant now → now.makeDirectory path = .ok after → invariant after := makes path.parts (List.prefix_refl _)

theorem MakesKeep.outer {anchor : Anchor} {parts : List String} {part : String} (makes : MakesKeep invariant ⟨anchor, parts ++ [part]⟩) :
    MakesKeep invariant ⟨anchor, parts⟩ := fun above within => makes above (within.trans (List.prefix_append _ _))

theorem keeps_makeInside {path : Path} (makes : ∀ now after, invariant now → now.makeDirectory path = .ok after → invariant after) :
    Keeps invariant (fun _ => True) (makeInside path) :=
  fun now kept => leaves_makeInside (fun after made => ⟨trivial, makes now after kept made⟩) (fun _ => ⟨trivial, kept⟩) kept

theorem keeps_ensureDirectory_of {path : Path} (makes : MakesKeep invariant path) :
    Keeps invariant (fun _ => True) (FileTask.ensureDirectory path) := by
  obtain ⟨anchor, parts⟩ := path
  induction parts using List.reverseRecOn with
  | nil => exact fun now kept => (keeps_makeInside makes.last now kept).congr (ensureDirectory_eq_makeInside (.inl rfl))
  | append_singleton parts part ih =>
    have parent : Path.parent ⟨anchor, parts ++ [part]⟩ = ⟨anchor, parts⟩ := by simp [Path.parent]
    intro now kept
    by_cases lacks : now.LacksAround ⟨anchor, parts ++ [part]⟩
    · have apart := ensureDirectory_of_lacksAround (by simp) lacks
      rw [parent] at apart
      exact Leaves.congr (Keeps.bind (ih makes.outer) (fun _ _ => keeps_makeInside makes.last) now kept) apart
    · exact (keeps_makeInside makes.last now kept).congr (ensureDirectory_eq_makeInside (.inr lacks))

theorem keeps_makeDirectories_of {path : Path} (makes : MakesKeep invariant path) :
    Keeps invariant (fun _ => True) (FileTask.makeDirectories path) := by
  obtain ⟨anchor, parts⟩ := path
  induction parts using List.reverseRecOn with
  | nil =>
    rw [FileTask.makeDirectories, dif_pos rfl]
    exact keeps_makeOrAllow makes.last
  | append_singleton parts part ih =>
    have parent : Path.parent ⟨anchor, parts ++ [part]⟩ = ⟨anchor, parts⟩ := by simp [Path.parent]
    rw [FileTask.makeDirectories, dif_neg (by simp), parent]
    refine .get fun now kept => ?_
    split
    · exact keeps_makeOrAllow makes.last now kept
    · refine Keeps.bind (Keeps.tryCatch (ih makes.outer) fun error => ?_) (fun _ _ => keeps_makeOrAllow makes.last) now kept
      split
      · exact .pure trivial
      · exact .throw

/-- What writing the file keeps that a path leads to, or the one in the directory that it leads to, copying a file keeps. -/
theorem keeps_copyFile_of {nested : Bool} {source target : Path}
    (writes : ∀ now content after, invariant now → now.read source = .ok content →
      now.write (if now.isDirectory target then target.child source.name else target) content = .ok after → invariant after) :
    Keeps invariant (fun _ => True) (FileTask.copyFile nested source target) := by
  refine .get fun now kept => ?_
  have writes' := writes now
  simp only
  generalize (if now.isDirectory target = true then target.child source.name else target) = place at writes' ⊢
  split
  · exact .bind (.throw kept)
  · split
    · exact .throw kept
    · next content read =>
      unfold FileTask.change
      refine .get ?_
      split
      · next after written => exact .set ⟨trivial, writes' content after kept read written⟩
      · exact .throw kept

end steps

/-- What making the target directory keeps, and copying each entry that is not left out, copying a directory keeps. -/
theorem keeps_copyDirectory_step {invariant : FileTree → Prop} {ignored : List String} {depth : Nat} {source target : Path}
    (directories : Keeps invariant (fun _ => True) (FileTask.makeDirectories target))
    (entries : ∀ now place entry, invariant now → now.follow source = .ok (.entry place entry) →
      ∀ name ∈ (now.children place).map Prod.fst, FileTask.isIgnored ignored name = false → Keeps invariant (fun _ => True) (do
        if (← MonadState.get).isDirectory (source.child name) then
          FileTask.copyDirectory ignored depth (source.child name) (target.child name)
        else FileTask.copyFile true (source.child name) (target.child name) : FileTask Unit)) :
    Keeps invariant (fun _ => True) (FileTask.copyDirectory ignored (depth + 1) source target) := by
  rw [FileTask.copyDirectory]
  refine .get fun now kept => ?_
  split
  · exact .throw kept
  · exact .throw kept
  · next place entry leads =>
    refine .get ?_
    refine Keeps.bind directories (fun _ _ => ?_) now kept
    have each (name : String) (mem : name ∈ ((now.children place).map Prod.fst).filter (fun name => !FileTask.isIgnored ignored name)) :
        Keeps invariant (fun _ : List String => True)
          (FileTask.reported (FileTask.reportOf (source.child name) (target.child name))
            (do if (← MonadState.get).isDirectory (source.child name) then
                  FileTask.copyDirectory ignored depth (source.child name) (target.child name)
                else FileTask.copyFile true (source.child name) (target.child name))) := by
      obtain ⟨listed, copied⟩ := List.mem_filter.1 mem
      have copies := entries now place entry kept leads name listed (by simpa using copied)
      exact .tryCatch (.bind copies fun _ _ => .pure trivial) fun error => .pure trivial
    refine Keeps.bind (Keeps.mapM _ each) fun reports _ => ?_
    split
    · exact .throw
    · exact .pure trivial

section tasks

variable {zone : Zone} {tree : FileTree}

/-- A task keeps to the zone. -/
abbrev KeepsTo (zone : Zone) (tree : FileTree) {ε α : Type} (act : ExceptT ε (StateM FileTree) α) : Prop :=
  Keeps (Confined zone tree) (fun _ => True) act

theorem keeps_write {path : Path} {content : Bytes} (allowed : zone.Allows (tree.straight path)) :
    KeepsTo zone tree (FileTask.change (·.write path content)) :=
  FileTask.keeps_change fun _ _ confined => confined.write allowed

theorem keeps_unlink {path : Path} (allowed : zone.Allows (tree.straight path)) :
    KeepsTo zone tree (FileTask.change (·.unlink path)) :=
  FileTask.keeps_change fun _ _ confined => confined.unlink allowed

theorem Zone.Roams.makesKeep {path : Path} (roams : zone.Roams tree path) : MakesKeep (Confined zone tree) path := by
  intro parts within now after confined made
  have outer : zone.Roams tree ⟨path.anchor, parts⟩ := fun above inside => roams above (inside.trans within)
  exact confined.makeDirectory outer made

theorem keeps_ensureDirectory {path : Path} (roams : zone.Roams tree path) : KeepsTo zone tree (FileTask.ensureDirectory path) :=
  keeps_ensureDirectory_of roams.makesKeep

theorem keeps_makeDirectories {path : Path} (roams : zone.Roams tree path) : KeepsTo zone tree (FileTask.makeDirectories path) :=
  keeps_makeDirectories_of roams.makesKeep

theorem keeps_writeBytes {path : Path} {content : Bytes} (roams : zone.Roams tree path.parent)
    (allowed : zone.Allows (tree.straight path)) : KeepsTo zone tree (FileTask.writeBytes path content) :=
  .bind (keeps_ensureDirectory roams) fun _ _ => keeps_write allowed

variable {location : Location} (named : AreNames location) (inside : zone.top <+: location)

include named inside

/-- A file is copied to a place in the zone, or into the directory that stands there. -/
theorem keeps_copyFile (nested : Bool) {source : Path} (valid : source.name = "" ∨ IsEntryName source.name) :
    KeepsTo zone tree (FileTask.copyFile nested source (.ofLocation location)) := by
  have allowed (below : Bool) : zone.Allows (tree.straight
      (if below then (Path.ofLocation location).child source.name else .ofLocation location)) := by
    cases below with
    | false =>
      rw [if_neg Bool.false_ne_true, straight_ofLocation named]
      exact .inl inside
    | true =>
      rw [if_pos rfl]
      obtain empty | name := valid
      · have same : (Path.ofLocation location).child "" = .ofLocation location :=
          (Path.join_relative _ []).trans (Path.under_nil _)
        rw [empty, same, straight_ofLocation named]
        exact .inl inside
      · have named' : AreNames (location ++ [source.name]) := by simp [named, name]
        rw [Path.child_ofLocation name, straight_ofLocation named']
        exact .inl (inside.trans (List.prefix_append _ _))
  refine keeps_copyFile_of fun now content after confined _ written => ?_
  exact confined.write (allowed (now.isDirectory (.ofLocation location))) written

/-- What a directory holds is copied into a directory of the zone. -/
theorem keeps_copyDirectory (ignored : List String) (depth : Nat) (source : Path) :
    KeepsTo zone tree (FileTask.copyDirectory ignored depth source (.ofLocation location)) := by
  induction depth generalizing source location with
  | zero => exact .throw
  | succ depth ih =>
    refine keeps_copyDirectory_step (keeps_makeDirectories (Zone.roams_ofLocation tree named inside)) ?_
    intro now place entry confined leads name mem _
    have valid := isEntryName_of_mem_children confined.sound mem
    have named' : AreNames (location ++ [name]) := by simp [named, valid]
    have inside' : zone.top <+: location ++ [name] := inside.trans (List.prefix_append _ _)
    have name' : (source.child name).name = name := by
      rw [Path.child_of_name _ valid]
      simp [Path.name, Path.under]
    rw [Path.child_ofLocation valid]
    refine .get fun now confined => ?_
    split
    · exact ih named' inside' _ now confined
    · exact keeps_copyFile named' inside' true (.inr (name'.symm ▸ valid)) now confined

/-- A file, or what a directory holds, is copied to a place in the zone. -/
theorem keeps_copy (ignored : List String) {source : Path} (valid : source.name = "" ∨ IsEntryName source.name) :
    KeepsTo zone tree (FileTask.copy ignored source (.ofLocation location)) := by
  refine .get fun now confined => ?_
  split
  · exact .throw confined
  · exact keeps_copyDirectory named inside ignored _ source now confined
  · have roams := (Zone.roams_ofLocation tree named inside).parent
    exact Keeps.bind (keeps_ensureDirectory roams) (fun _ _ => keeps_copyFile named inside false valid) now confined

end tasks

end FileTree

end WasmPackaging
