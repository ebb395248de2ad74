import WasmPackaging.FileTree.Copying
import WasmPackaging.Proofs.FileTree.Resolution
import WasmPackaging.Proofs.Outcome

/-!
An area: a location that a path leads to, at and below which nothing but directories and files stands.
What is written under that path stays in the area (`Area.writeBytes`, `Area.copyFile`), so erasing it
gives back the tree without it, and each operation that succeeds changes what it names and nothing else
in the area.
-/

namespace WasmPackaging

open Text

namespace FileTree

/-- `root` leads to an area at `base`, and `now` differs from `before` in that area alone. -/
structure Area (root : Path) (base : Location) (before now : FileTree) : Prop where
  outside : now.eraseBelow base = before.eraseBelow base
  sound : now.WellFormed
  reached : ∃ n ≤ linkLimit, now.Reaches n (now.start root) root.steps base
  unlinked : ∀ parts target, now.lookup (base ++ parts) ≠ some (.link target)
  free : now.lookup base = some .directory ∨ now.lookup base = none
  kept : ∀ location, before.lookup location = some .directory → now.lookup location = some .directory

/-- Below `base`, one tree holds what another does, but with directories all the way down to some names,
where nothing stood in the way. -/
structure OpensTo (base : Location) (names : List String) (now after : FileTree) : Prop where
  fits : ∀ parts, parts <+: names →
    now.lookup (base ++ parts) = some .directory ∨ now.lookup (base ++ parts) = none
  lookup : ∀ parts, after.lookup (base ++ parts) =
    if parts <+: names then some .directory else now.lookup (base ++ parts)

/-- Below `base`, one tree holds what another does, but for a file in a place that no directory has. -/
structure WritesTo (base : Location) (names : List String) (content : Bytes) (now after : FileTree) : Prop where
  fits : now.lookup (base ++ names) ≠ some .directory
  lookup : ∀ parts, after.lookup (base ++ parts) =
    if parts = names then some (.file content) else now.lookup (base ++ parts)

/-- Where a file that is copied to names comes to stand: in the directory that stands there, if one does. -/
def landing (now : FileTree) (base : Location) (names : List String) (name : String) : List String :=
  if now.lookup (base ++ names) = some .directory then names ++ [name] else names

section landing

variable {now after : FileTree} {base : Location} {names : List String} {name : String}

theorem landing_of_directory (inside : now.lookup (base ++ names) = some .directory) : landing now base names name = names ++ [name] :=
  if_pos inside

theorem landing_of_not_directory (outside : now.lookup (base ++ names) ≠ some .directory) : landing now base names name = names :=
  if_neg outside

theorem landing_congr (same : after.lookup (base ++ names) = some .directory ↔ now.lookup (base ++ names) = some .directory)
    (name : String) : landing after base names name = landing now base names name := by
  unfold landing
  simp only [same]

theorem areNames_landing (named : AreNames (base ++ names)) (valid : IsEntryName name) : AreNames (base ++ landing now base names name) := by
  unfold landing
  split
  · rw [← List.append_assoc]
    exact areNames_append.2 ⟨named, by simpa using valid⟩
  · exact named

end landing

/-! ## Making the directories of a path -/

/-- Making a directory is refused because the one around it is missing. -/
def LacksAround (tree : FileTree) (path : Path) : Prop := ∃ text, tree.makeDirectory path = .error (.refused .notFound text)

/-- Makes a directory in the one around it, or leaves the one that is there. -/
def makeInside (path : Path) : FileTask Unit := do
  match (← MonadState.get).makeDirectory path with
  | .ok tree => MonadState.set tree
  | .error (.refused .notFound name) => throw (.refused .notFound name)
  | .error e => FileTask.allowDirectory path e

/-- The last of the directories of a path is the only one to be made, unless the one around it is missing. -/
theorem ensureDirectory_eq_makeInside {tree : FileTree} {path : Path} (known : path.parts = [] ∨ ¬ tree.LacksAround path) :
    FileTask.ensureDirectory path tree = makeInside path tree := by
  rw [FileTask.ensureDirectory, makeInside, get_bind_apply, get_bind_apply]
  cases made : tree.makeDirectory path with
  | ok after => rfl
  | error e =>
    cases e with
    | refused fault text =>
      cases fault with
      | notFound =>
        have empty : path.parts = [] := known.resolve_right fun around => around ⟨text, made⟩
        simp only [dif_pos empty]
      | _ => rfl
    | _ => rfl

theorem ensureDirectory_of_lacksAround {tree : FileTree} {path : Path} (filled : path.parts ≠ []) (lacks : tree.LacksAround path) :
    FileTask.ensureDirectory path tree = (do FileTask.ensureDirectory path.parent; makeInside path : FileTask Unit) tree := by
  obtain ⟨text, refused⟩ := lacks
  rw [FileTask.ensureDirectory, get_bind_apply, refused]
  simp only
  rw [dif_neg filled]
  rfl

/-- What is left when a directory is made in the one around it. -/
theorem leaves_makeInside {tree : FileTree} {path : Path} {done : Unit → FileTree → Prop} {failed : FileTree → Prop}
    (made : ∀ after, tree.makeDirectory path = .ok after → done () after) (there : tree.isDirectory path = true → done () tree)
    (refused : failed tree) : Leaves (makeInside path) tree done failed := by
  refine .get ?_
  split
  · next after ended => exact .set (made after ended)
  · exact .throw refused
  · refine .get ?_
    split
    · next directory => exact .pure (there directory)
    · exact .throw refused

/-- Directories that are made down to some names, and then one name further. -/
theorem OpensTo.trans {base : Location} {names : List String} {name : String} {now between after : FileTree}
    (outer : OpensTo base names now between) (inner : OpensTo base (names ++ [name]) between after) :
    OpensTo base (names ++ [name]) now after := by
  refine ⟨fun parts within => ?_, fun parts => ?_⟩
  · by_cases above : parts <+: names
    · exact outer.fits parts above
    · have fits := inner.fits parts within
      rwa [outer.lookup parts, if_neg above] at fits
  · rw [inner.lookup parts, outer.lookup parts]
    split
    · rfl
    · next beyond => rw [if_neg fun above => beyond (above.trans (List.prefix_append names [name]))]

namespace Area

variable {root : Path} {base : Location} {before now : FileTree}

/-- A path that leads to a directory, or to a free place, leads to an area if no link stands there. -/
theorem enter (sound : before.WellFormed)
    (leads : before.follow root = .ok (.entry base .directory) ∨ before.follow root = .ok (.vacant base))
    (unlinked : ∀ parts target, before.lookup (base ++ parts) ≠ some (.link target)) : Area root base before before := by
  have ends (end_ : Found) (leads : before.follow root = .ok end_) :
      ∃ n ≤ linkLimit, ∃ goal, before.Reaches n (before.start root) root.steps goal ∧ end_ = before.found goal :=
    ((follow_eq_ok_iff sound).1 leads).2
  obtain ⟨reached, free⟩ : (∃ n ≤ linkLimit, before.Reaches n (before.start root) root.steps base) ∧
      (before.lookup base = some .directory ∨ before.lookup base = none) := by
    obtain leads | leads := leads <;> obtain ⟨n, enough, goal, reaches, same⟩ := ends _ leads
    · obtain ⟨rfl, present⟩ := found_eq_entry_iff.1 same.symm
      exact ⟨⟨n, enough, reaches⟩, .inl present⟩
    · obtain ⟨rfl, missing⟩ := found_eq_vacant_iff.1 same.symm
      exact ⟨⟨n, enough, reaches⟩, .inr missing⟩
  exact ⟨rfl, sound, reached, unlinked, free, fun _ h => h⟩

/-- A path that leads to an empty directory, or to a free place, leads to an area. -/
theorem start (sound : before.WellFormed)
    (leads : before.follow root = .ok (.entry base .directory) ∨ before.follow root = .ok (.vacant base))
    (empty : ∀ name, before.lookup (base ++ [name]) = none) : Area root base before before := by
  refine enter sound leads fun parts target => ?_
  cases parts with
  | nil =>
    rw [List.append_nil]
    obtain leads | leads := leads <;> obtain ⟨-, n, -, goal, -, same⟩ := (follow_eq_ok_iff sound).1 leads
    · obtain ⟨rfl, present⟩ := found_eq_entry_iff.1 same.symm
      simp [present]
    · obtain ⟨rfl, missing⟩ := found_eq_vacant_iff.1 same.symm
      simp [missing]
  | cons name names => simp [sound.vacant_of_empty empty (List.cons_ne_nil name names)]

variable (area : Area root base before now) {names : List String}

include area

theorem lookup_outside {location : Location} (outside : Path.below? base location = none) :
    now.lookup location = before.lookup location := lookup_eq_of_eraseBelow_eq area.outside outside

theorem workingDirectory_eq : now.workingDirectory = before.workingDirectory :=
  workingDirectory_eq_of_eraseBelow_eq area.outside

/-- Where names below the root of the area lead. -/
theorem walk_under {follow : Bool} {end_ : Found} (named : AreNames names) (filled : names ≠ [])
    (walked : now.walk follow linkLimit (now.start root) (root.steps ++ names) = .ok end_) :
    end_ = now.found (base ++ names) ∧ now.lookup (base ++ names.dropLast) = some .directory := by
  obtain ⟨n, enough, reaches⟩ := area.reached
  obtain directory | vacant := area.free
  · rw [walk_append reaches enough follow filled directory] at walked
    obtain ⟨same, above⟩ := walk_names named directory area.unlinked walked
    exact ⟨same, above filled⟩
  · exact absurd walked (walk_append_of_isEnd reaches enough follow filled (lookup_start area.sound root)
      area.sound (by simp [IsEnd, vacant]) end_)

theorem follow_under {end_ : Found} (named : AreNames names) (leads : now.follow (root.under names) = .ok end_) :
    end_ = now.found (base ++ names) ∧
      (names ≠ [] → now.lookup (base ++ names.dropLast) = some .directory) := by
  have walked : now.walk true linkLimit (now.start root) (root.steps ++ names) = .ok end_ := by
    unfold follow at leads
    split at leads
    · cases leads
    · rwa [Path.steps_under root named] at leads
  by_cases filled : names = []
  · subst filled
    obtain ⟨n, enough, reaches⟩ := area.reached
    rw [List.append_nil, walk_of_reaches area.sound (lookup_start area.sound root) reaches enough] at walked
    simp [← Except.ok.inj walked]
  · obtain ⟨same, above⟩ := area.walk_under named filled walked
    exact ⟨same, fun _ => above⟩

/-- A free place under the root of the area is the one that the names lead to. -/
theorem vacancy_under {location : Location} (named : AreNames names)
    (found : now.vacancy (root.under names) = .ok location) :
    location = base ++ names ∧ now.lookup (base ++ names) = none ∧
      (names ≠ [] → now.lookup (base ++ names.dropLast) = some .directory) := by
  obtain ⟨-, vacant, n, enough, reaches⟩ := reaches_of_vacancy area.sound found
  rw [Path.steps_under root named] at reaches
  by_cases filled : names = []
  · subst filled
    obtain ⟨m, -, reaches'⟩ := area.reached
    obtain ⟨-, rfl⟩ := reaches'.unique (by simpa using reaches)
    simpa using vacant
  · have walked := walk_of_reaches area.sound (lookup_start area.sound _) reaches enough
    obtain ⟨same, above⟩ := area.walk_under named filled walked
    rw [found_eq_vacant_iff.2 ⟨rfl, vacant⟩] at same
    obtain ⟨rfl, vacant⟩ := found_eq_vacant_iff.1 same.symm
    exact ⟨rfl, vacant, fun _ => above⟩

/-- What lies above a place in the area, or the area itself, is a directory in which the place has a name. -/
theorem place_under (named : AreNames names)
    (above : names ≠ [] → now.lookup (base ++ names.dropLast) = some .directory)
    (vacant : names = [] → now.lookup base = none) :
    ∃ outer name, base ++ names = outer ++ [name] ∧ now.lookup outer = some .directory ∧ IsEntryName name := by
  cases names using List.reverseRecOn with
  | nil =>
    obtain ⟨n, -, reaches⟩ := area.reached
    have plain (part : String) (mem : part ∈ root.steps) : '/' ∉ part.toList := by
      obtain ⟨_, _, inside⟩ := List.mem_flatMap.1 mem
      exact not_mem_of_mem_slashed inside
    simpa using reaches.vacant area.sound (lookup_start area.sound root) plain (vacant rfl)
  | append_singleton names name =>
    refine ⟨base ++ names, name, by simp, by simpa using above (by simp), ?_⟩
    exact (areNames_cons.1 (areNames_append.1 named).2).1

/-- What is put in the area keeps it one. -/
theorem put {entry : Entry} (named : AreNames names)
    (above : names ≠ [] → now.lookup (base ++ names.dropLast) = some .directory)
    (fits : now.lookup (base ++ names) ≠ some .directory)
    (other : ∀ target, entry ≠ .link target) (top : names = [] → entry = .directory) :
    Area root base before (now.put (base ++ names) entry) := by
  have vacant (empty : names = []) : now.lookup base = none := by
    subst empty
    obtain directory | vacant := area.free
    · exact absurd (by simpa using directory) fits
    · exact vacant
  obtain ⟨outer, name, whole, inside, valid⟩ := area.place_under named above vacant
  have look (location : Location) : (now.put (base ++ names) entry).lookup location =
      if location = base ++ names then some entry else now.lookup location :=
    now.lookup_put (by simp [whole]) location entry
  have kept (location : Location) (old : Entry) (there : now.lookup location = some old)
      (solid : ¬ IsEnd (some old)) : (now.put (base ++ names) entry).lookup location = some old := by
    rw [look, if_neg]
    · exact there
    · rintro rfl
      cases old with
      | file => simp [IsEnd] at solid
      | link target => exact area.unlinked names target there
      | directory => exact fits there
  have unlinked (parts : List String) (target : String) :
      (now.put (base ++ names) entry).lookup (base ++ parts) ≠ some (.link target) := by
    rw [look]
    split
    · simpa using other target
    · exact area.unlinked parts target
  constructor
  · rw [eraseBelow_put, area.outside]
  · rw [whole] at fits ⊢
    exact area.sound.put inside valid (fun directory => absurd directory fits)
  · obtain ⟨n, enough, reaches⟩ := area.reached
    exact ⟨n, enough, reaches.mono kept (by simpa using unlinked [])⟩
  · exact unlinked
  · rw [look]
    split
    · next same =>
      exact .inl (by rw [top (List.self_eq_append_right.1 same)])
    · exact area.free
  · exact fun location directory => kept location .directory (area.kept location directory) (by simp [IsEnd])

theorem lookup_put {entry : Entry} (named : AreNames names)
    (above : names ≠ [] → now.lookup (base ++ names.dropLast) = some .directory)
    (vacant : names = [] → now.lookup base = none) (parts : List String) :
    (now.put (base ++ names) entry).lookup (base ++ parts) =
      if parts = names then some entry else now.lookup (base ++ parts) := by
  obtain ⟨outer, name, whole, -⟩ := area.place_under named above vacant
  rw [FileTree.lookup_put _ (by simp [whole])]
  simp

/-! ## Directories -/

theorem isDirectory_under (named : AreNames names) (directory : now.isDirectory (root.under names) = true) :
    now.lookup (base ++ names) = some .directory := by
  obtain ⟨location, leads⟩ := isDirectory_eq_true_iff.1 directory
  obtain ⟨rfl, present⟩ := found_eq_entry_iff.1 (area.follow_under named leads).1.symm
  exact present

/-- Whatever leads down to a directory of the area is one. -/
theorem lookup_prefix {parts : List String} (directory : now.lookup (base ++ names) = some .directory)
    (within : parts <+: names) : now.lookup (base ++ parts) = some .directory := by
  obtain ⟨rest, rfl⟩ := within
  exact area.sound.directory_above (by simpa using directory)

theorem opensTo_self (directory : now.lookup (base ++ names) = some .directory) :
    OpensTo base names now now := by
  refine ⟨fun parts within => .inl (area.lookup_prefix directory within), fun parts => ?_⟩
  split
  · next within => exact area.lookup_prefix directory within
  · rfl

/-- A directory made in the area is the only change. -/
theorem makeDirectory {after : FileTree} (named : AreNames names)
    (made : now.makeDirectory (root.under names) = .ok after) :
    Area root base before after ∧ OpensTo base names now after := by
  unfold FileTree.makeDirectory at made
  cases found : now.vacancy (root.under names) with
  | error e => simp [found, Except.map] at made
  | ok location =>
    obtain ⟨rfl, vacant, above⟩ := area.vacancy_under named found
    simp only [found, Except.map, Except.ok.injEq] at made
    subst made
    have inner {parts : List String} (within : parts <+: names) :
        parts = names ∨ now.lookup (base ++ parts) = some .directory := by
      cases names using List.reverseRecOn with
      | nil => exact .inl (List.prefix_nil.1 within)
      | append_singleton names name =>
        rw [List.dropLast_concat] at above
        exact (List.prefix_concat_iff.1 within).imp_right (area.lookup_prefix (above (by simp)))
    refine ⟨area.put named above (by simp [vacant]) (by simp) (by simp), fun parts within => ?_, fun parts => ?_⟩
    · obtain rfl | directory := inner within
      · exact .inr vacant
      · exact .inl directory
    · rw [area.lookup_put named above (by rintro rfl; simpa using vacant)]
      by_cases same : parts = names
      · simp [same]
      · rw [if_neg same]
        split
        · next within => exact (inner within).resolve_left same
        · rfl

/-- The root of the area is not missing a directory to stand in. -/
theorem makeDirectory_root_ne_notFound (path : String) :
    now.makeDirectory root ≠ .error (.refused .notFound path) := by
  obtain ⟨n, enough, reaches⟩ := area.reached
  have walked := walk_of_reaches area.sound (lookup_start area.sound root) reaches enough
  unfold FileTree.makeDirectory vacancy locate
  split
  · next location leads =>
    split at leads <;> simp [Except.map]
  · simp [Except.map]
  · next fault leads =>
    split at leads
    · next known =>
      obtain rfl := Except.error.inj leads
      obtain rfl | rfl := pathFault?_eq_some known <;> simp [Except.map]
    · obtain same | ⟨place, target, link⟩ := now.walk_false linkLimit (now.start root) root.steps
      · simp [same, walked] at leads
      · simp [link] at leads

/-- A directory that is made in the area is the only change, and one that is there may stay. -/
theorem makeInside (named : AreNames names) :
    Leaves (FileTree.makeInside (root.under names)) now
      (fun _ after => Area root base before after ∧ OpensTo base names now after) (Area root base before) :=
  leaves_makeInside (fun _ made => area.makeDirectory named made)
    (fun directory => ⟨area, area.opensTo_self (area.isDirectory_under named directory)⟩) area

/-- Directories that are made down to names in the area are the only change. -/
theorem ensureDirectory (named : AreNames names) :
    Leaves (FileTask.ensureDirectory (root.under names)) now
      (fun _ after => Area root base before after ∧ OpensTo base names now after)
      (Area root base before) := by
  induction names using List.reverseRecOn generalizing now with
  | nil =>
    have around : ¬ now.LacksAround (root.under []) := by
      rintro ⟨text, refused⟩
      exact area.makeDirectory_root_ne_notFound text (by simpa using refused)
    exact (area.makeInside named).congr (ensureDirectory_eq_makeInside (.inr around))
  | append_singleton names name ih =>
    by_cases lacks : now.LacksAround (root.under (names ++ [name]))
    · have parts := ensureDirectory_of_lacksAround (by simp [Path.under]) lacks
      rw [Path.parent_under root (by simp), List.dropLast_concat] at parts
      refine Leaves.congr (.bind ((ih area (areNames_append.1 named).1).mono (fun _ between outer => ?_) fun _ kept => kept)) parts
      obtain ⟨area', opens⟩ := outer
      exact (area'.makeInside named).mono (fun _ after inner => ⟨inner.1, opens.trans inner.2⟩) fun _ kept => kept
    · exact (area.makeInside named).congr (ensureDirectory_eq_makeInside (.inr lacks))

/-! ## Files -/

/-- A file written in the area is the only change. -/
theorem write {content : Bytes} {after : FileTree} (named : AreNames names) (filled : names ≠ [])
    (written : now.write (root.under names) content = .ok after) :
    Area root base before after ∧ WritesTo base names content now after := by
  have wrote (location : Location) (leads : now.found (base ++ names) = .vacant location ∨
        ∃ old, now.found (base ++ names) = .entry location (.file old))
      (above : now.lookup (base ++ names.dropLast) = some .directory)
      (same : now.put location (.file content) = after) :
      Area root base before after ∧ WritesTo base names content now after := by
    obtain ⟨rfl, fits⟩ : base ++ names = location ∧ now.lookup (base ++ names) ≠ some .directory := by
      obtain leads | ⟨old, leads⟩ := leads
      · obtain ⟨rfl, vacant⟩ := found_eq_vacant_iff.1 leads
        simp [vacant]
      · obtain ⟨rfl, present⟩ := found_eq_entry_iff.1 leads
        simp [present]
    subst same
    refine ⟨area.put named (fun _ => above) fits (by simp) (fun empty => absurd empty filled), fits, fun parts => ?_⟩
    exact area.lookup_put named (fun _ => above) (fun empty => absurd empty filled) parts
  unfold FileTree.write at written
  split at written
  · next location old leads =>
    obtain ⟨same, above⟩ := area.follow_under named leads
    exact wrote location (.inr ⟨old, same.symm⟩) (above filled) (Except.ok.inj written)
  · next location leads =>
    obtain ⟨same, above⟩ := area.follow_under named leads
    exact wrote location (.inl same.symm) (above filled) (Except.ok.inj written)
  · cases written
  · cases written

theorem change_write (named : AreNames names) (filled : names ≠ []) (content : Bytes) :
    Leaves (FileTask.change (·.write (root.under names) content)) now
      (fun _ after => Area root base before after ∧ WritesTo base names content now after)
      (Area root base before) := by
  unfold FileTask.change
  refine .get ?_
  split
  · next after written => exact .set (area.write named filled written)
  · exact .throw area

/-- A file that is written with the directories above it is the only change in the area. -/
theorem writeBytes (named : AreNames names) (filled : names ≠ []) (content : Bytes) :
    Leaves (FileTask.writeBytes (root.under names) content) now
      (fun _ after => Area root base before after ∧
        ∃ between, OpensTo base names.dropLast now between ∧ WritesTo base names content between after)
      (Area root base before) := by
  unfold FileTask.writeBytes
  rw [Path.parent_under root filled]
  refine .bind ((area.ensureDirectory named.dropLast).mono (fun _ between ⟨area', opens⟩ => ?_) fun _ h => h)
  exact (area'.change_write named filled content).mono (fun _ after ⟨kept, writes⟩ => ⟨kept, between, opens, writes⟩)
    fun _ h => h

/-- A file is copied to a place in the area, or into the directory that stands there. -/
theorem copyFile (named : AreNames names) (filled : names ≠ []) {source : Path} (valid : IsEntryName source.name) :
    Leaves (FileTask.copyFile false source (root.under names)) now
      (fun _ after => Area root base before after ∧ ∃ content, now.read source = .ok content ∧
        WritesTo base (landing now base names source.name) content now after)
      (Area root base before) := by
  obtain ⟨places, chosen, named', filled', lands⟩ : ∃ places,
      (if now.isDirectory (root.under names) = true then (root.under names).child source.name
        else root.under names) = root.under places ∧ AreNames places ∧ places ≠ [] ∧
      ∀ content after, WritesTo base places content now after →
        WritesTo base (landing now base names source.name) content now after := by
    by_cases inside : now.isDirectory (root.under names) = true
    · refine ⟨names ++ [source.name], ?_, by simp [named, valid], by simp, fun content after writes => ?_⟩
      · rw [if_pos inside, Path.child_of_name _ valid, Path.under_under]
      · rwa [landing_of_directory (area.isDirectory_under named inside)]
    · refine ⟨names, if_neg inside, named, filled, fun content after writes => ?_⟩
      rwa [landing_of_not_directory writes.fits]
  unfold FileTask.copyFile
  refine .get ?_
  simp only [chosen]
  by_cases self : now.isSame source (root.under places) = true
  · rw [if_pos self]
    exact .bind (.throw area)
  · rw [if_neg self]
    cases read : now.read source with
    | error e => exact .throw area
    | ok content =>
      exact (area.change_write named' filled' content).mono
        (fun _ after ⟨kept, writes⟩ => ⟨kept, content, rfl, lands content after writes⟩) fun _ h => h

end Area

end FileTree

end WasmPackaging
