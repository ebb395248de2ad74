import WasmPackaging.Proofs.Copying

/-!
A directory merged into another, links followed. What the directory shows under names that are not left out (`Shown`) comes to
stand at the same names below the target, a file in the directory that has its place there. Nothing else below the target is
touched, and nothing that was read (`keeps_copyDirectory_merging`). A file whose place a directory has does not stand there afterwards
(`copy_merges_into_directory`).
-/

namespace WasmPackaging

open Text FileTree

namespace FileTree

/-- Names of which none is left out lead from a path to an entry, links followed. -/
structure Shown (tree : FileTree) (ignored : List String) (source : Path) (names : List String) (place : Location) (entry : Entry) : Prop where
  valid : AreNames names
  copied : ∀ name ∈ names, FileTask.isIgnored ignored name = false
  leads : tree.follow (source.under names) = .ok (.entry place entry)

/-- All that a directory shows lies apart from a location, and each name in it that is not left out leads to something. -/
structure ShowsApart (tree : FileTree) (ignored : List String) (source : Path) (target : Location) : Prop where
  apart : ∀ names place entry, Shown tree ignored source names place entry → Apart target place
  whole : ∀ names place name, Shown tree ignored source names place .directory → FileTask.isIgnored ignored name = false →
    tree.lookup (place ++ [name]) ≠ none → ∃ goal entry, Shown tree ignored source (names ++ [name]) goal entry

/-- Where what a directory shows comes to stand in a target: at the same names, a file in the directory that has its place. The
way to the target is made too. -/
inductive Fills (tree : FileTree) (ignored : List String) (source : Path) (target : Location) : Location → Prop where
  | way {place : Location} : place <+: target → Fills tree ignored source target place
  | directory {names : List String} {place : Location} : Shown tree ignored source names place .directory →
      Fills tree ignored source target (target ++ names)
  | file {outer : List String} {name : String} {place : Location} {content : Bytes} :
      Shown tree ignored source (outer ++ [name]) place (.file content) →
      Fills tree ignored source target (target ++ landing tree target (outer ++ [name]) name)

/-- A tree while a directory is merged into a target: only what the directory shows was set in, and no directory in place of a file. -/
structure Merging (tree : FileTree) (ignored : List String) (source : Path) (target : Location) (now : FileTree) : Prop where
  more : Extends (Fills tree ignored source target) tree now
  solid : ∀ outer name place content, Shown tree ignored source (outer ++ [name]) place (.file content) →
    now.lookup (target ++ (outer ++ [name])) = some .directory → tree.lookup (target ++ (outer ++ [name])) = some .directory

variable {tree now after : FileTree} {ignored : List String} {source : Path} {target place goal : Location} {names outer rest : List String}
  {name : String} {entry : Entry} {content : Bytes}

namespace Shown

theorem unique {place' : Location} {entry' : Entry} (shown : Shown tree ignored source names place entry)
    (shown' : Shown tree ignored source names place' entry') : place = place' ∧ entry = entry' :=
  Found.entry.inj (Except.ok.inj (shown.leads.symm.trans shown'.leads))

theorem lookup (shown : Shown tree ignored source names place entry) (sound : tree.WellFormed) : tree.lookup place = some entry :=
  lookup_of_follow sound shown.leads

theorem follow_eq (shown : Shown tree ignored source names place entry) (sound : tree.WellFormed) :
    tree.follow (source.under names) = .ok (tree.found place) := by
  rw [shown.leads, found_eq_entry_iff.2 ⟨rfl, shown.lookup sound⟩]

/-- Names on the way to what is shown show a directory. -/
theorem front (shown : Shown tree ignored source (names ++ rest) place entry) (sound : tree.WellFormed) (filled : rest ≠ []) :
    ∃ base, Shown tree ignored source names base .directory := by
  obtain ⟨valid, valid'⟩ := areNames_append.1 shown.valid
  have leads : tree.follow ((source.under names).under rest) = .ok (tree.found place) := by rw [Path.under_under, shown.follow_eq sound]
  obtain ⟨base, -, into, -⟩ := exists_base_of_follow_under sound valid' filled leads
  exact ⟨base, valid, fun name mem => shown.copied name (List.mem_append_left _ mem), into⟩

/-- Only a directory shows directories. -/
theorem isDirectory (shown : Shown tree ignored source names place .directory) (sound : tree.WellFormed) : tree.isDirectory source = true := by
  obtain ⟨base, first⟩ : ∃ base, Shown tree ignored source [] base .directory := by
    by_cases filled : names = []
    · subst filled
      exact ⟨place, shown⟩
    · exact Shown.front (show Shown tree ignored source ([] ++ names) place .directory from shown) sound filled
  have leads := first.leads
  rw [Path.under_nil] at leads
  exact isDirectory_eq_true_iff.2 ⟨base, leads⟩

/-- The first of the names that show something is copied. -/
theorem first_copied {first : String} {base : Location} {start : Entry} (shown : Shown tree ignored source (first :: rest) place entry)
    (sound : tree.WellFormed) (led : tree.follow source = .ok (.entry base start)) : first ∈ FileTask.copiedNames ignored tree base :=
  first_mem_copiedNames sound shown.valid (List.forall_mem_cons.1 shown.copied).1 (shown.follow_eq sound) (by simp [shown.lookup sound]) led

/-- What a directory shows is shown by the one of the first name, whatever is added meanwhile. -/
theorem behind_first {first : String} (shown : Shown tree ignored source (first :: rest) place .directory) (sound : tree.WellFormed)
    (more : Extends Anywhere tree now) : Shown now ignored (source.child first) rest place .directory := by
  obtain ⟨valid, valid'⟩ := areNames_cons.1 shown.valid
  have leads := more.follow sound (shown.follow_eq sound)
  rw [found_of_directory (more.directory _ (shown.lookup sound))] at leads
  refine ⟨valid', (List.forall_mem_cons.1 shown.copied).2, ?_⟩
  rw [Path.child_of_name _ valid, Path.under_under]
  exact leads

/-- What is shown is no link. -/
theorem file_of_solid (shown : Shown tree ignored source names place entry) (sound : tree.WellFormed) (solid : entry ≠ .directory) :
    ∃ content, entry = .file content := by
  cases entry with
  | file content => exact ⟨content, rfl⟩
  | directory => exact absurd rfl solid
  | link goal =>
    obtain ⟨-, n, -, place', reaches, same⟩ := (follow_eq_ok_iff sound).1 shown.leads
    obtain ⟨rfl, there⟩ := found_eq_entry_iff.1 same.symm
    exact absurd there (reaches.not_link sound (lookup_start sound _) goal)

end Shown

/-- What is filled in stands at the target, below it, or on the way to it. -/
theorem Fills.near (fills : Fills tree ignored source target place) : ¬ Apart target place := by
  rintro ⟨above, below⟩
  cases fills with
  | way within => exact below within
  | directory => exact above (List.prefix_append _ _)
  | file => exact above (List.prefix_append _ _)

/-- What is filled in below the target has names that are shown, or those of a file with the last one twice. -/
theorem Fills.below (fills : Fills tree ignored source target (target ++ names)) (filled : names ≠ []) :
    (∃ place entry, Shown tree ignored source names place entry) ∨
      ∃ outer name place content, names = outer ++ [name, name] ∧ Shown tree ignored source (outer ++ [name]) place (.file content) := by
  generalize whole : target ++ names = location at fills
  cases fills with
  | way within =>
    have length := within.length_le
    have more := List.length_pos_iff.2 filled
    rw [← whole, List.length_append] at length
    omega
  | directory shown => exact .inl ⟨_, _, List.append_cancel_left whole ▸ shown⟩
  | @file outer name place content shown =>
    have same := List.append_cancel_left whole
    unfold landing at same
    split at same
    · exact .inr ⟨outer, name, place, content, by simpa using same, shown⟩
    · exact .inl ⟨_, _, same ▸ shown⟩

namespace Merging

variable (merging : Merging tree ignored source target now)

include merging

theorem same (apart : Apart target place) : now.lookup place = tree.lookup place := merging.more.beyond place fun fills => fills.near apart

/-- What the directory showed it still shows. -/
theorem shown (sound : tree.WellFormed) (shows : ShowsApart tree ignored source target) (shown : Shown tree ignored source names place entry) :
    Shown now ignored source names place entry := by
  have still := (merging.same (shows.apart names place entry shown)).trans (shown.lookup sound)
  have leads := (merging.more.follow_entry sound shown.leads).2
  rw [found, still] at leads
  exact ⟨shown.valid, shown.copied, leads⟩

end Merging

theorem Merging.start (sound : tree.WellFormed) : Merging tree ignored source target tree := ⟨.refl sound, fun _ _ _ _ _ there => there⟩

section

variable (sound : tree.WellFormed) (bare : tree.Bare target) (named : AreNames target)

include bare named

include sound in
theorem keeps_makeDirectories_merging (shown : Shown tree ignored source names place .directory) :
    Keeps (Merging tree ignored source target) (fun _ => True) (FileTask.makeDirectories (.ofLocation (target ++ names))) := by
  refine keeps_makeDirectories_of fun parts within now after merging made => ?_
  have named' : AreNames parts := fun name mem => areNames_append.2 ⟨named, shown.valid⟩ name (within.subset mem)
  have unlinked : tree.Unlinked parts := fun place inside => bare.unlinked names place (inside.trans within)
  have spot : parts <+: target ∨ ∃ front place, parts = target ++ front ∧ Shown tree ignored source front place .directory := by
    obtain outer | ⟨front, rfl⟩ := List.prefix_or_prefix_of_prefix within (List.prefix_append target names)
    · exact .inl outer
    · obtain ⟨rest, rfl⟩ := (List.prefix_append_right_inj target).1 within
      by_cases filled : rest = []
      · subst filled
        rw [List.append_nil] at shown
        exact .inr ⟨front, place, rfl, shown⟩
      · obtain ⟨base, shown'⟩ := shown.front sound filled
        exact .inr ⟨front, base, rfl, shown'⟩
  have fills : Fills tree ignored source target parts := by
    obtain above | ⟨front, base, rfl, shown'⟩ := spot
    · exact .way above
    · exact .directory shown'
  refine ⟨merging.more.makeDirectory (landsIn_ofLocation unlinked named' fills) made, fun outer name file content single there => ?_⟩
  obtain ⟨above, last, leads, -, -, -, rfl⟩ := exists_of_makeDirectory merging.more.sound made
  obtain rfl := found_inj ((merging.more.unlinked unlinked).follow_eq merging.more.sound named' leads).2
  rw [now.lookup_put (List.concat_ne_nil last above)] at there
  split at there
  · next same =>
    -- no directory is made where a file is shown
    rw [← same] at spot
    obtain short | ⟨front, base, same', shown'⟩ := spot
    · have length := short.length_le
      simp only [List.length_append, List.length_singleton] at length
      omega
    · obtain rfl := List.append_cancel_left same'
      cases (single.unique shown').2
  · exact merging.solid outer name file content single there

theorem keeps_copyFile_merging (shown : Shown tree ignored source (outer ++ [name]) place (.file content)) :
    Keeps (Merging tree ignored source target) (fun _ => True)
      (FileTask.copyFile true (source.under (outer ++ [name])) (.ofLocation (target ++ (outer ++ [name])))) := by
  have named' : AreNames (target ++ (outer ++ [name])) := areNames_append.2 ⟨named, shown.valid⟩
  have valid : IsEntryName name := by simpa using (areNames_append.1 shown.valid).2
  have last : (source.under (outer ++ [name])).name = name := by simp [Path.name, Path.under]
  have unlinked := bare.unlinked (outer ++ [name])
  refine keeps_copyFile_of fun now bytes after merging _ written => ?_
  have directory := (merging.more.unlinked unlinked).isDirectory_iff merging.more.sound named'
  have fills : Fills tree ignored source target (target ++ landing tree target (outer ++ [name]) name) := .file shown
  have more : Extends (Fills tree ignored source target) tree after := by
    by_cases inside : now.isDirectory (.ofLocation (target ++ (outer ++ [name]))) = true
    · have there := merging.solid outer name place content shown (directory.1 inside).2
      rw [if_pos inside, last, Path.child_ofLocation valid, List.append_assoc target] at written
      rw [landing_of_directory there] at fills
      have named'' : AreNames (target ++ (outer ++ [name] ++ [name])) :=
        areNames_append.2 ⟨named, areNames_append.2 ⟨shown.valid, by simpa using valid⟩⟩
      exact merging.more.write (landsIn_ofLocation (bare.unlinked _) named'' fills) written
    · rw [if_neg inside] at written
      have vacant : tree.lookup (target ++ (outer ++ [name])) ≠ some .directory := by
        intro there
        obtain ⟨above, last, leads, -, -, free, -⟩ := exists_of_write merging.more.sound written
        obtain ⟨-, same⟩ := (merging.more.unlinked unlinked).follow_eq merging.more.sound named' leads
        rw [found_inj same, merging.more.directory _ there] at free
        obtain none_ | ⟨old, file⟩ := free
        · cases none_
        · rw [merging.more.directory _ there] at file
          cases file
      rw [landing_of_not_directory vacant] at fills
      exact merging.more.write (landsIn_ofLocation unlinked named' fills) written
  refine ⟨more, fun outer' name' file content' single there => merging.solid outer' name' file content' single ?_⟩
  obtain ⟨above, last, -, -, -, -, rfl⟩ := exists_of_write merging.more.sound written
  rw [now.lookup_put (List.concat_ne_nil last above)] at there
  split at there
  · cases there
  · exact there

include sound in
/-- Copying a directory that is shown, with all that it shows, is merging. -/
theorem keeps_copyDirectory_merging (shows : ShowsApart tree ignored source target) (shown : Shown tree ignored source names place .directory)
    (depth : Nat) : Keeps (Merging tree ignored source target) (fun _ => True)
      (FileTask.copyDirectory ignored depth (source.under names) (.ofLocation (target ++ names))) := by
  induction depth generalizing names place with
  | zero => exact .throw
  | succ depth ih =>
    refine keeps_copyDirectory_step (keeps_makeDirectories_merging sound bare named shown) ?_
    intro now base entry merging leads name mem copied
    obtain ⟨rfl, -⟩ := Found.entry.inj (Except.ok.inj ((merging.shown sound shows shown).leads.symm.trans leads))
    have apart := (shows.apart names place .directory shown).append [name]
    have listed : tree.lookup (place ++ [name]) ≠ none := merging.same apart ▸ lookup_ne_none_of_mem_children mem
    have valid := isEntryName_of_mem_children merging.more.sound mem
    obtain ⟨goal, entry, inner⟩ := shows.whole names place name shown copied listed
    have child : (source.under names).child name = source.under (names ++ [name]) := by
      rw [Path.child_of_name _ valid, Path.under_under]
    rw [child, Path.child_ofLocation valid, List.append_assoc]
    refine .get fun now' merging' => ?_
    have leads' := (merging'.shown sound shows inner).leads
    by_cases directory : entry = .directory
    · subst directory
      have there : now'.isDirectory (source.under (names ++ [name])) = true := isDirectory_eq_true_iff.2 ⟨goal, leads'⟩
      rw [if_pos there]
      exact ih inner now' merging'
    · obtain ⟨content, rfl⟩ := inner.file_of_solid sound directory
      have solid : ¬ now'.isDirectory (source.under (names ++ [name])) = true := by simp [isDirectory, leads']
      rw [if_neg solid]
      exact keeps_copyFile_merging bare named inner now' merging'

end

/-! ## Directories without links -/

/-- Below a location that no link stands at, on the way to or below, names lead where they spell. -/
theorem Shown.place_eq (shown : Shown tree ignored (.ofLocation place) names goal entry) (sound : tree.WellFormed) (bare : tree.Bare place)
    (named : AreNames place) : goal = place ++ names :=
  (((bare.unlinked names).follow_entry_iff sound (areNames_append.2 ⟨named, shown.valid⟩)).1 shown.leads).2.1

/-- A directory without links shows what stands in it. -/
theorem ShowsApart.of_bare (sound : tree.WellFormed) (bare : tree.Bare place) (named : AreNames place) (apart : Apart target place)
    (fits : ∀ e ∈ tree.entries, Fits e.1) : ShowsApart tree ignored (.ofLocation place) target := by
  constructor
  · intro names goal entry shown
    rw [shown.place_eq sound bare named]
    exact apart.append names
  · intro names goal name shown copied there
    obtain rfl := shown.place_eq sound bare named
    obtain ⟨entry, present⟩ := Option.ne_none_iff_exists'.1 there
    have named' : AreNames (place ++ (names ++ [name])) := by
      refine areNames_append.2 ⟨named, areNames_append.2 ⟨shown.valid, ?_⟩⟩
      simpa using sound.named _ _ there
    have fits' : Fits (place ++ (names ++ [name])) := by
      rw [← List.append_assoc]
      exact fits _ (mem_entries_of_lookup (List.concat_ne_nil name (place ++ names)) present)
    rw [List.append_assoc] at present
    have leads := ((bare.unlinked (names ++ [name])).follow_entry_iff sound named').2 ⟨fits', rfl, present⟩
    refine ⟨_, entry, (areNames_append.1 named').2, fun part mem => ?_, leads⟩
    exact (List.mem_append.1 mem).elim (shown.copied part) fun last => by rwa [List.mem_singleton.1 last]

/-! ## What has come to stand -/

/-- A directory that is shown has one at its names below the target, once it is copied. -/
theorem lookup_of_shown_directory {depth : Nat} (sound : tree.WellFormed) (bare : tree.Bare target) (named : AreNames target)
    (shown : Shown tree ignored source names place .directory)
    (ended : FileTask.copyDirectory ignored depth source (.ofLocation target) tree = (.ok (), after)) :
    after.lookup (target ++ names) = some .directory := by
  induction depth generalizing tree after source target names with
  | zero => cases (Prod.mk.inj ended).1
  | succ depth ih =>
    cases names with
    | nil =>
      have more : Extends Anywhere tree after := ((keepsAll_copyDirectory _ _ (takesIn_anywhere _ _ _)).of_ok (.refl sound) ended).2
      have there := isDirectory_of_copyDirectory sound ended
      rw [List.append_nil]
      exact (((more.bare bare).way.isDirectory_iff more.sound named).1 there).2
    | cons first rest =>
      obtain ⟨base, entry, led, ended⟩ := FileTask.copyDirectory_ends_iff.1 ended
      obtain ⟨⟨⟩, between, made, ended⟩ := bind_ends_iff.1 ended
      have opened : Extends Anywhere tree between := ((keepsAll_makeDirectories (opensIn_anywhere _ _)).of_ok (.refl sound) made).2
      have valid : IsEntryName first := (areNames_cons.1 shown.valid).1
      refine (forM_settles (Extends Anywhere between) (·.lookup (target ++ first :: rest) = some .directory) (shown.first_copied sound led)
        ?_ ?_ (.refl opened.sound) ended).2
      · intro now next more ran
        have whole := opened.trans more
        have onward := ((keepsAll_copyInto (takesIn_anywhere _ _ _) valid (List.forall_mem_cons.1 shown.copied).1).of_ok (.refl more.sound) ran).2
        refine ⟨more.trans onward, ?_⟩
        -- the directory of the first name is copied, and what it showed it still shows
        have inner := shown.behind_first sound whole
        unfold FileTask.copyInto at ran
        rw [get_bind_apply, if_pos (inner.isDirectory more.sound), Path.child_ofLocation valid] at ran
        have landed := ih more.sound ((whole.bare bare).append [first]) (areNames_append.2 ⟨named, by simpa using valid⟩) inner ran
        rwa [List.append_assoc] at landed
      · intro other mem _ now next more ran
        obtain ⟨listed, copied⟩ := List.mem_filter.1 mem
        have onward : Extends Anywhere now next := ((keepsAll_copyInto (takesIn_anywhere _ _ _) (isEntryName_of_mem_children sound listed)
          (by simpa using copied)).of_ok (.refl more.sound) ran).2
        exact ⟨more.trans onward, onward.directory _⟩

end FileTree

namespace Publisher

variable {tree after : FileTree} {ignored : List String} {from_ to_ : Location}

/-- When a directory has been copied, every file that it shows has its bytes at the same names below the target, or in the directory
that had its place there; every directory that it shows is there; every other place is as it was; and so is the directory that was
copied, and what it shows. -/
theorem copy_merges (publisher : Publisher) {source target : Path} {targets : List Path} (sound : tree.WellFormed)
    (placed : publisher.placesOf tree (source, target) = .ok (from_, to_)) (bare : tree.Bare to_) (apart : Apart to_ from_)
    (directory : tree.asksDirectory (.ofLocation from_) = .ok true) (shows : ShowsApart tree ignored (.ofLocation from_) to_)
    (ended : publisher.copy [(source, target)] ignored tree = (.ok targets, after)) :
    targets = [.ofLocation to_] ∧
      (∀ outer name place content, Shown tree ignored (.ofLocation from_) (outer ++ [name]) place (.file content) →
        after.lookup (to_ ++ landing tree to_ (outer ++ [name]) name) = some (.file content)) ∧
      (∀ names place, Shown tree ignored (.ofLocation from_) names place .directory → after.lookup (to_ ++ names) = some .directory) ∧
      (∀ place, ¬ Fills tree ignored (.ofLocation from_) to_ place → after.lookup place = tree.lookup place) ∧
      (∀ rest, after.lookup (from_ ++ rest) = tree.lookup (from_ ++ rest)) ∧
      ∀ names place entry, Shown tree ignored (.ofLocation from_) names place entry → Shown after ignored (.ofLocation from_) names place entry := by
  obtain ⟨pairs, places, ran, rfl⟩ := publisher.copy_ends_iff.1 ended
  have single : [(source, target)].mapM (publisher.placesOf tree) = .ok [(from_, to_)] := by
    rw [List.mapM_cons, placed]
    rfl
  obtain rfl := Except.ok.inj (single.symm.trans places)
  obtain ⟨named, named'⟩ := publisher.areNames_of_mem_places sound places (List.mem_singleton.2 rfl)
  have copied : FileTask.copy ignored (.ofLocation from_) (.ofLocation to_) tree = (.ok (), after) := by
    have alone : (copyPlace ignored (from_, to_) >>= fun _ => pure ()) tree = (.ok (), after) := ran
    obtain ⟨⟨⟩, between, first, last⟩ := bind_ends_iff.1 alone
    obtain ⟨-, rfl⟩ := Prod.mk.inj last
    exact ends_of_copyPlace first
  rw [copy_of_directory directory] at copied
  obtain ⟨base, leads⟩ := asksDirectory_eq_true_iff.1 directory
  have root : Shown tree ignored (.ofLocation from_) [] base .directory := ⟨by simp, by simp, by rwa [Path.under_nil]⟩
  have merging : Merging tree ignored (.ofLocation from_) to_ after := by
    have keeps := keeps_copyDirectory_merging sound bare named' shows root (FileTask.depthLimit tree)
    rw [Path.under_nil, List.append_nil] at keeps
    exact (keeps.of_ok (.start sound) copied).2
  refine ⟨rfl, fun outer name place content shown => ?_, fun names place shown => lookup_of_shown_directory sound bare named' shown copied,
    merging.more.beyond, fun rest => merging.same (apart.append rest), fun names place entry shown => merging.shown sound shows shown⟩
  have wanted : Wanted tree ignored (.ofLocation from_) to_ (outer ++ [name]) place content :=
    ⟨sound, bare, named', shown.valid, shown.copied, shown.leads, (shows.apart _ _ _ shown).1⟩
  exact copyDirectory_lands wanted copied

/-- A project with a directory to copy and one to copy it to. -/
def mergedProject (targets : List (Location × Entry)) : FileTree where
  entries := [(["p"], .directory), (["p", "src"], .directory), (["p", "src", "a.js"], .file (encode "1")), (["p", "src", "lib"], .directory),
    (["p", "src", "lib", "b.js"], .file (encode "2")), (["p", "src", "lib", "b.map"], .file (encode "3")), (["p", "dst"], .directory)] ++ targets
  workingDirectory := ["p"]

/-- The publisher of the project. -/
def mergingPublisher : Publisher := ⟨.ofLocation ["p"]⟩

/-- What is not left out is copied over a file and beside another. -/
theorem copy_merges_plain : ∃ targets after,
    mergingPublisher.copy [(.ofString "src", .ofString "dst")] ["*.map"]
        (mergedProject [(["p", "dst", "a.js"], .file (encode "0")), (["p", "dst", "keep"], .file (encode "k"))]) = (.ok targets, after) ∧
      after.lookup ["p", "dst", "a.js"] = some (.file (encode "1")) ∧ after.lookup ["p", "dst", "lib", "b.js"] = some (.file (encode "2")) ∧
      after.lookup ["p", "dst", "lib", "b.map"] = none ∧ after.lookup ["p", "dst", "keep"] = some (.file (encode "k")) := by
  generalize whole : mergedProject [(["p", "dst", "a.js"], .file (encode "0")), (["p", "dst", "keep"], .file (encode "k"))] = tree
  have sound : tree.WellFormed := whole ▸ wellFormed_of_entries (by decide) (by decide)
  have free : tree.LinkFree := whole ▸ linkFree_of_entries (by simp [mergedProject])
  have bare (place : Location) : tree.Bare place := ⟨fun above _ => free above, fun parts => free _⟩
  have fits : ∀ e ∈ tree.entries, Fits e.1 := whole ▸ by decide
  have named : AreNames ["p", "src"] := by decide
  have apart : Apart ["p", "dst"] ["p", "src"] := by decide
  have shows : ShowsApart tree ["*.map"] (.ofLocation ["p", "src"]) ["p", "dst"] := .of_bare sound (bare _) named apart fits
  have placed : mergingPublisher.placesOf tree (.ofString "src", .ofString "dst") = .ok (["p", "src"], ["p", "dst"]) :=
    whole ▸ eq_ok_of_toOption (by decide +kernel)
  have directory : tree.asksDirectory (.ofLocation ["p", "src"]) = .ok true := whole ▸ eq_ok_of_toOption (by decide +kernel)
  have returns : (mergingPublisher.copy [(.ofString "src", .ofString "dst")] ["*.map"] tree).1 = .ok [.ofLocation ["p", "dst"]] :=
    whole ▸ eq_ok_of_toOption (by decide +kernel)
  obtain ⟨-, files, -, others, -⟩ := mergingPublisher.copy_merges sound placed (bare _) apart directory shows (Prod.ext returns rfl)
  refine ⟨_, _, Prod.ext returns rfl, ?_, ?_, ?_, ?_⟩
  · have shown : Shown tree ["*.map"] (.ofLocation ["p", "src"]) ([] ++ ["a.js"]) ["p", "src", "a.js"] (.file (encode "1")) :=
      ⟨by decide, by decide +kernel, whole ▸ eq_ok_of_toOption (by decide +kernel)⟩
    have place : landing tree ["p", "dst"] ([] ++ ["a.js"]) "a.js" = ["a.js"] := whole ▸ by decide
    have landed := files _ _ _ _ shown
    rwa [place] at landed
  · have shown : Shown tree ["*.map"] (.ofLocation ["p", "src"]) (["lib"] ++ ["b.js"]) ["p", "src", "lib", "b.js"] (.file (encode "2")) :=
      ⟨by decide, by decide +kernel, whole ▸ eq_ok_of_toOption (by decide +kernel)⟩
    have place : landing tree ["p", "dst"] (["lib"] ++ ["b.js"]) "b.js" = ["lib", "b.js"] := whole ▸ by decide
    have landed := files _ _ _ _ shown
    rwa [place] at landed
  · have vacant : tree.lookup ["p", "dst", "lib", "b.map"] = none := whole ▸ by decide
    refine (others _ fun fills => ?_).trans vacant
    have fills' : Fills tree ["*.map"] (.ofLocation ["p", "src"]) ["p", "dst"] (["p", "dst"] ++ ["lib", "b.map"]) := fills
    obtain ⟨place, entry, shown⟩ | ⟨outer, name, place, content, same, -⟩ := fills'.below (by simp)
    · exact absurd (shown.copied "b.map" (by simp)) (by decide +kernel)
    · have short := congrArg List.length same
      obtain rfl : outer = [] := by simpa using short
      obtain ⟨rfl, rest⟩ := List.cons.inj same
      exact absurd (List.cons.inj rest).1 (by decide)
  · have there : tree.lookup ["p", "dst", "keep"] = some (.file (encode "k")) := whole ▸ by decide +kernel
    refine (others _ fun fills => ?_).trans there
    have fills' : Fills tree ["*.map"] (.ofLocation ["p", "src"]) ["p", "dst"] (["p", "dst"] ++ ["keep"]) := fills
    obtain ⟨place, entry, shown⟩ | ⟨outer, name, place, content, same, -⟩ := fills'.below (by simp)
    · obtain rfl := shown.place_eq sound (bare _) named
      have vacant : tree.lookup (["p", "src"] ++ ["keep"]) = none := whole ▸ by decide
      cases vacant.symm.trans (shown.lookup sound)
    · have short := congrArg List.length same
      simp at short

/-- A file whose place a directory has comes to stand in that directory. -/
theorem copy_merges_into_directory : ∃ after,
    mergingPublisher.copy [(.ofString "src", .ofString "dst")] [] (mergedProject [(["p", "dst", "a.js"], .directory)]) =
        (.ok [.ofLocation ["p", "dst"]], after) ∧
      (mergedProject [(["p", "dst", "a.js"], .directory)]).lookup ["p", "src", "a.js"] = some (.file (encode "1")) ∧
      after.lookup ["p", "dst", "a.js"] = some .directory ∧ after.lookup ["p", "dst", "a.js", "a.js"] = some (.file (encode "1")) := by
  refine ⟨_, Prod.ext (eq_ok_of_toOption ?_) rfl, ?_, ?_, ?_⟩
  all_goals decide +kernel

/-- A directory that shows the target through a link is copied with what the copy has brought there so far. -/
example : (mergingPublisher.copy [(.ofString "src", .ofString "dst")] ["*.map", "lib"]
    ((mergedProject []).put ["p", "src", "self"] (.link "../dst"))).2.lookup ["p", "dst", "self", "a.js"] = some (.file (encode "1")) := by
  decide +kernel

end Publisher

end WasmPackaging
