import WasmPackaging.Proofs.FileTree.Extension
import WasmPackaging.Proofs.FileTree.LikeCopies

/-!
What a copied directory holds. A copy that succeeds leaves something at its target (`exists?_of_copy`). It lands where no name
of what is copied is left out (`takesIn_bare`), and every file that can be read below the source by such names comes to stand
below the target with its bytes, or in the directory that has its place there (`copyDirectory_lands`).
-/

namespace WasmPackaging

open Text

namespace FileTree

variable {tree after : FileTree}

/-! ## What single tasks leave -/

/-- A path that is written leads to what was written. -/
theorem follow_of_write {path : Path} {content : Bytes} (sound : tree.WellFormed) (written : tree.write path content = .ok after) :
    ∃ location, after.follow path = .ok (.entry location (.file content)) ∧ tree.follow path = .ok (tree.found location) ∧
      after.lookup location = some (.file content) := by
  have more : Extends Anywhere tree after := (Extends.refl sound).write (landsIn_anywhere _ _) written
  obtain ⟨outer, name, leads, -, -, -, rfl⟩ := exists_of_write sound written
  have look := tree.lookup_put (List.concat_ne_nil name outer) (outer ++ [name]) (.file content)
  rw [if_pos rfl] at look
  have leads' := more.follow sound leads
  rw [found, look] at leads'
  exact ⟨_, leads', leads, look⟩

theorem isDirectory_of_makeOrAllow {path : Path} (sound : tree.WellFormed) (ended : makeOrAllow path tree = (.ok (), after)) :
    after.isDirectory path = true := by
  unfold makeOrAllow at ended
  rw [get_bind_apply] at ended
  rcases made : tree.makeDirectory path with e | tree' <;> rw [made] at ended
  · change FileTask.allowDirectory path e tree = (.ok (), after) at ended
    unfold FileTask.allowDirectory at ended
    rw [get_bind_apply] at ended
    split at ended
    · next there =>
      obtain ⟨-, rfl⟩ := Prod.mk.inj ended
      exact there
    · cases (Prod.mk.inj ended).1
  · obtain ⟨-, rfl⟩ := Prod.mk.inj ended
    have more : Extends Anywhere tree tree' := (Extends.refl sound).makeDirectory (landsIn_anywhere _ _) made
    obtain ⟨outer, name, leads, -, -, -, rfl⟩ := exists_of_makeDirectory sound made
    have look := tree.lookup_put (List.concat_ne_nil name outer) (outer ++ [name]) .directory
    rw [if_pos rfl] at look
    exact isDirectory_eq_true_iff.2 ⟨_, (more.follow sound leads).trans (congrArg _ (found_of_directory look))⟩

/-- A path whose directories were made leads to a directory. -/
theorem isDirectory_of_makeDirectories {path : Path} (sound : tree.WellFormed) (ended : FileTask.makeDirectories path tree = (.ok (), after)) :
    after.isDirectory path = true := by
  obtain ⟨anchor, parts⟩ := path
  cases parts using List.reverseRecOn with
  | nil =>
    rw [FileTask.makeDirectories, dif_pos rfl] at ended
    exact isDirectory_of_makeOrAllow sound ended
  | append_singleton parts part =>
    have parent : Path.parent ⟨anchor, parts ++ [part]⟩ = ⟨anchor, parts⟩ := by simp [Path.parent]
    rw [FileTask.makeDirectories, dif_neg (by simp), parent, get_bind_apply] at ended
    split at ended
    · exact isDirectory_of_makeOrAllow sound ended
    · obtain ⟨⟨⟩, between, made, ended⟩ := bind_ends_iff.1 ended
      have more : Extends Anywhere tree between := by
        refine ((Keeps.tryCatch (keepsAll_makeDirectories (opensIn_anywhere _ _)) fun error => ?_).of_ok (.refl sound) made).2
        split
        · exact .pure trivial
        · exact .throw
      exact isDirectory_of_makeOrAllow more.sound ended

/-- A copied file comes to stand where its target leads, or in the directory that it leads to. -/
theorem exists_of_copyFile {nested : Bool} {source target : Path} (ended : FileTask.copyFile nested source target tree = (.ok (), after)) :
    ∃ content, tree.read source = .ok content ∧
      tree.write (if tree.isDirectory target then target.child source.name else target) content = .ok after := by
  unfold FileTask.copyFile at ended
  rw [get_bind_apply] at ended
  simp only at ended
  generalize (if tree.isDirectory target = true then target.child source.name else target) = place at ended ⊢
  split at ended
  · cases (Prod.mk.inj ended).1
  · rcases read : tree.read source with e | content <;> rw [read] at ended
    · cases (Prod.mk.inj ended).1
    · refine ⟨content, rfl, ?_⟩
      change FileTask.change (·.write place content) tree = (.ok (), after) at ended
      rw [FileTask.change_apply] at ended
      split at ended
      · next tree' written =>
        obtain ⟨-, rfl⟩ := Prod.mk.inj ended
        exact written
      · cases (Prod.mk.inj ended).1

theorem exists?_of_isDirectory {path : Path} (there : tree.isDirectory path = true) : tree.exists? path = true := by
  obtain ⟨place, leads⟩ := isDirectory_eq_true_iff.1 there
  exact exists?_eq_true_iff.2 ⟨place, _, leads⟩

theorem exists?_of_copyFile {nested : Bool} {source target : Path} (sound : tree.WellFormed)
    (ended : FileTask.copyFile nested source target tree = (.ok (), after)) : after.exists? target = true := by
  obtain ⟨content, -, written⟩ := exists_of_copyFile ended
  by_cases inside : tree.isDirectory target = true
  · rw [if_pos inside] at written
    have more : Extends Anywhere tree after := (Extends.refl sound).write (landsIn_anywhere _ _) written
    exact exists?_of_isDirectory (more.isDirectory sound inside)
  · rw [if_neg inside] at written
    obtain ⟨location, leads, -⟩ := follow_of_write sound written
    exact exists?_eq_true_iff.2 ⟨location, _, leads⟩

/-! ## Copies of directories -/

section copies

variable {allowed : Location → Prop} {ignored : List String} {depth : Nat} {source target : Path}

theorem keepsAll_copyInto {name : String} (takes : TakesIn allowed tree ignored (target.child name)) (valid : IsEntryName name)
    (copied : FileTask.isIgnored ignored name = false) : KeepsAll allowed tree (FileTask.copyInto ignored depth source target name) := by
  refine .get fun now more => ?_
  split
  · exact keepsAll_copyDirectory _ _ takes now more
  · exact takes.copyFile (name_child source valid) valid copied now more

/-- A directory that is copied leaves one at its target. -/
theorem isDirectory_of_copyDirectory (sound : tree.WellFormed)
    (ended : FileTask.copyDirectory ignored depth source target tree = (.ok (), after)) : after.isDirectory target = true := by
  cases depth with
  | zero => cases (Prod.mk.inj ended).1
  | succ depth =>
    obtain ⟨place, entry, -, ended⟩ := FileTask.copyDirectory_ends_iff.1 ended
    obtain ⟨⟨⟩, between, made, copied⟩ := bind_ends_iff.1 ended
    have sound' := ((keepsAll_makeDirectories (opensIn_anywhere tree target)).of_ok (.refl sound) made).2.sound
    have there := isDirectory_of_makeDirectories sound made
    have each : KeepsAll Anywhere between
        ((FileTask.copiedNames ignored tree place).forM (FileTask.copyInto ignored depth source target)) := by
      refine Keeps.forM _ fun name mem => ?_
      obtain ⟨listed, copied⟩ := List.mem_filter.1 mem
      exact keepsAll_copyInto (takesIn_anywhere _ _ _) (isEntryName_of_mem_children sound listed) (by simpa using copied)
    exact (each.of_ok (Extends.refl sound') copied).2.isDirectory sound' there

/-- What is copied leaves something at its target. -/
theorem exists?_of_copy (sound : tree.WellFormed) (ended : FileTask.copy ignored source target tree = (.ok (), after)) :
    after.exists? target = true := by
  obtain ⟨-, ended⟩ | ⟨-, between, made, copied⟩ := ends_of_copy ended
  · exact exists?_of_isDirectory (isDirectory_of_copyDirectory sound ended)
  · have sound' := ((keepsAll_ensureDirectory (opensIn_anywhere tree target.parent)).of_ok (.refl sound) made).2.sound
    exact exists?_of_copyFile sound' copied

end copies

/-! ## Places without links -/

/-- No link stands at a location, on the way down to it, or below it. -/
structure Bare (tree : FileTree) (location : Location) : Prop where
  way : tree.Unlinked location
  below : ∀ parts target, tree.lookup (location ++ parts) ≠ some (.link target)

namespace Bare

variable {location : Location} (bare : tree.Bare location)

include bare

theorem unlinked (parts : List String) : tree.Unlinked (location ++ parts) := by
  intro place within target
  obtain above | ⟨rest, rfl⟩ := List.prefix_or_prefix_of_prefix within (List.prefix_append location parts)
  · exact bare.way place above target
  · exact bare.below rest target

theorem append (parts : List String) : tree.Bare (location ++ parts) := by
  refine ⟨bare.unlinked parts, fun more target => ?_⟩
  rw [List.append_assoc]
  exact bare.below (parts ++ more) target

end Bare

theorem Extends.bare {allowed : Location → Prop} {now : FileTree} (more : Extends allowed tree now) {location : Location}
    (bare : tree.Bare location) : now.Bare location :=
  ⟨more.unlinked bare.way, fun parts target there => bare.below parts target ((more.link _ target).1 there)⟩

/-- Where the copy of a directory may land: on the way to its target, and below it under names none of which is left out. -/
def Spot (ignored : List String) (target place : Location) : Prop :=
  place <+: target ∨ ∃ names, (∀ name ∈ names, FileTask.isIgnored ignored name = false) ∧ place = target ++ names

section

variable {allowed : Location → Prop} {ignored : List String} {target : Location}

theorem takesIn_bare (bare : tree.Bare target) (named : AreNames target) (covers : ∀ place, Spot ignored target place → allowed place) :
    TakesIn allowed tree ignored (.ofLocation target) := by
  have spot {names : List String} (copied : ∀ name ∈ names, FileTask.isIgnored ignored name = false) {above : Location}
      (within : above <+: target ++ names) : Spot ignored target above := by
    obtain outer | ⟨rest, rfl⟩ := List.prefix_or_prefix_of_prefix within (List.prefix_append target names)
    · exact .inl outer
    · have inner : rest <+: names := (List.prefix_append_right_inj target).1 within
      exact .inr ⟨rest, fun name mem => copied name (inner.subset mem), rfl⟩
  intro names valid copied
  exact opensIn_ofLocation (bare.unlinked names) (areNames_append.2 ⟨named, valid⟩) fun above within => covers above (spot copied within)

/-- A file that is copied into a directory may land there under its name. -/
theorem landsIn_bare (bare : tree.Bare target) (named : AreNames target) {source : Location} (named' : AreNames source)
    (itself : allowed target) (inside : allowed (target ++ [(Path.ofLocation source).name])) :
    LandsIn allowed tree ((Path.ofLocation target).child (Path.ofLocation source).name) := by
  obtain empty | mem := (Path.ofLocation source).name_mem
  · have blank : Path.ofString "" = ⟨.relative, []⟩ := by decide
    have same : (Path.ofLocation target).child "" = .ofLocation target := by
      simp [Path.child, Path.join, blank, Path.isAbsolute, Path.ofLocation]
    rw [empty, same]
    exact landsIn_ofLocation bare.way named itself
  · have valid := named' _ mem
    rw [Path.child_of_name _ valid]
    exact landsIn_ofLocation (bare.unlinked _) (areNames_append.2 ⟨named, by simpa using valid⟩) inside

end

/-! ## Copied files -/

/-- What one task of a list settles and the others leave alone is settled in the end. -/
theorem forM_settles {ε α : Type} (holds settled : FileTree → Prop) {task : α → ExceptT ε (StateM FileTree) Unit} {list : List α} {a : α}
    (mem : a ∈ list)
    (itself : ∀ now next, holds now → task a now = (.ok (), next) → holds next ∧ settled next)
    (others : ∀ b ∈ list, b ≠ a → ∀ now next, holds now → task b now = (.ok (), next) → holds next ∧ (settled now → settled next))
    (before : holds tree) (ended : list.forM task tree = (.ok (), after)) : holds after ∧ settled after := by
  have onward (list : List α) (others : ∀ b ∈ list, b ≠ a → ∀ now next, holds now → task b now = (.ok (), next) →
      holds next ∧ (settled now → settled next)) (now : FileTree) (held : holds now) (once : a ∈ list ∨ settled now)
      (ended : list.forM task now = (.ok (), after)) : holds after ∧ settled after := by
    induction list generalizing now with
    | nil =>
      obtain ⟨-, rfl⟩ := Prod.mk.inj ended
      exact ⟨held, once.resolve_left (by simp)⟩
    | cons b list ih =>
      obtain ⟨first, rest⟩ := List.forall_mem_cons.1 others
      have parts : (b :: list).forM task = (do task b; list.forM task) := rfl
      rw [parts] at ended
      obtain ⟨⟨⟩, next, ran, ended⟩ := bind_ends_iff.1 ended
      by_cases same : b = a
      · subst same
        obtain ⟨held', done⟩ := itself now next held ran
        exact ih rest next held' (.inr done) ended
      · obtain ⟨held', stays⟩ := first same now next held ran
        refine ih rest next held' (once.imp (fun mem => ?_) stays) ended
        exact (List.mem_cons.1 mem).resolve_left fun other => same other.symm
  exact onward list others tree before (.inl mem) ended

/-- What is copied under one name does not land under another. -/
theorem not_spot {ignored : List String} {target : Location} {name other : String} (differs : other ≠ name) (rest : List String) :
    ¬ Spot ignored (target ++ [other]) (target ++ name :: rest) := by
  rintro (above | ⟨names, -, same⟩)
  · have within := (List.prefix_append_right_inj target).1 above
    exact differs (List.cons_prefix_cons.1 within).1.symm
  · rw [List.append_assoc] at same
    have same' := List.append_cancel_left same
    exact differs (List.cons.inj same').1.symm

/-- What is copied under a name leaves alone what stands under the others. -/
theorem copyInto_extends {ignored : List String} {depth : Nat} {source : Path} {target : Location} (sound : tree.WellFormed)
    (bare : tree.Bare target) (named : AreNames target) {other : String} (valid : IsEntryName other)
    (copied : FileTask.isIgnored ignored other = false)
    (ended : FileTask.copyInto ignored depth source (.ofLocation target) other tree = (.ok (), after)) :
    Extends (fun place => target <+: place ∨ place <+: target) tree after ∧
      ∀ name rest, other ≠ name → after.lookup (target ++ name :: rest) = tree.lookup (target ++ name :: rest) := by
  have named' : AreNames (target ++ [other]) := areNames_append.2 ⟨named, by simpa using valid⟩
  have takes : TakesIn (Spot ignored (target ++ [other])) tree ignored (.ofLocation (target ++ [other])) :=
    takesIn_bare (bare.append [other]) named' fun _ spot => spot
  rw [← Path.child_ofLocation valid] at takes
  have more := ((keepsAll_copyInto takes valid copied).of_ok (.refl sound) ended).2
  refine ⟨more.weaken ?_, fun name rest differs => more.beyond _ (not_spot differs rest)⟩
  rintro place (above | ⟨names, -, rfl⟩)
  · obtain rfl | above := List.prefix_concat_iff.1 above
    · exact .inl (List.prefix_append _ _)
    · exact .inr above
  · rw [List.append_assoc]
    exact .inl (List.prefix_append _ _)

/-- A file that is copied under a name stands there, or in the directory that has its place. -/
theorem lookup_of_copyFile {nested : Bool} {source : Path} {place : Location} {name : String} (sound : tree.WellFormed) (bare : tree.Bare place)
    (named : AreNames place) (last : source.name = name) (valid : IsEntryName name) {content : Bytes} (read : tree.read source = .ok content)
    (ended : FileTask.copyFile nested source (.ofLocation place) tree = (.ok (), after)) :
    after.lookup (if tree.lookup place = some .directory then place ++ [name] else place) = some (.file content) := by
  obtain ⟨content', read', written⟩ := exists_of_copyFile ended
  obtain rfl : content = content' := by simpa [read] using read'
  have lands {parts : List String} (named' : AreNames (place ++ parts)) (written : tree.write (.ofLocation (place ++ parts)) content = .ok after) :
      tree.lookup (place ++ parts) ≠ some .directory ∧ Fits (place ++ parts) ∧ after.lookup (place ++ parts) = some (.file content) := by
    obtain ⟨outer, last, leads, -, -, free, rfl⟩ := exists_of_write sound written
    obtain ⟨fits, same⟩ := (bare.unlinked parts).follow_eq sound named' leads
    have look := tree.lookup_put (List.concat_ne_nil last outer) (outer ++ [last]) (.file content)
    rw [if_pos rfl] at look
    rw [← found_inj same]
    refine ⟨?_, found_inj same ▸ fits, look⟩
    obtain none_ | ⟨old, file⟩ := free
    · simp [none_]
    · simp [file]
  have directory := bare.way.isDirectory_iff sound named
  by_cases inside : tree.isDirectory (.ofLocation place) = true
  · rw [if_pos inside, last, Path.child_ofLocation valid] at written
    rw [if_pos (directory.1 inside).2]
    exact (lands (areNames_append.2 ⟨named, by simpa using valid⟩) written).2.2
  · rw [if_neg inside] at written
    obtain ⟨solid, -, there⟩ := @lands [] (by simpa using named) (by simpa using written)
    rw [List.append_nil] at solid there
    rwa [if_neg solid]

/-- The first of the names that lead from a directory to something is among those that are copied. -/
theorem first_mem_copiedNames (sound : tree.WellFormed) {ignored : List String} {source : Path} {base place : Location} {start : Entry}
    {first : String} {rest : List String} (valid : AreNames (first :: rest)) (copied : FileTask.isIgnored ignored first = false)
    (leads : tree.follow (source.under (first :: rest)) = .ok (tree.found place)) (there : tree.lookup place ≠ none)
    (led : tree.follow source = .ok (.entry base start)) : first ∈ FileTask.copiedNames ignored tree base := by
  obtain ⟨base', n, into, behind⟩ := exists_base_of_follow_under sound valid (List.cons_ne_nil first rest) leads
  obtain ⟨rfl, -⟩ := Found.entry.inj (Except.ok.inj (into.symm.trans led))
  have listed := behind.first_ne_none (areNames_cons.1 valid).1 there
  exact List.mem_filter.2 ⟨mem_children_iff.2 listed, by simp [copied]⟩

/-- A file that the copy of a directory has to bring: it can be read below the source by names none of which is left out, and it
does not stand in the target. -/
structure Wanted (tree : FileTree) (ignored : List String) (source : Path) (target : Location) (names : List String) (place : Location)
    (content : Bytes) : Prop where
  sound : tree.WellFormed
  bare : tree.Bare target
  named : AreNames target
  valid : AreNames names
  copied : ∀ part ∈ names, FileTask.isIgnored ignored part = false
  leads : tree.follow (source.under names) = .ok (.entry place (.file content))
  apart : ¬ target <+: place

namespace Wanted

variable {now : FileTree} {ignored : List String} {depth : Nat} {source : Path} {target place : Location} {names : List String} {content : Bytes}
  (wanted : Wanted tree ignored source target names place content)

include wanted

theorem file : tree.lookup place = some (.file content) := by
  obtain ⟨-, n, -, goal, -, same⟩ := (follow_eq_ok_iff wanted.sound).1 wanted.leads
  obtain ⟨rfl, there⟩ := found_eq_entry_iff.1 same.symm
  exact there

/-- The file does not stand on the way to a target at which a directory can be made. -/
theorem not_above {allowed : Location → Prop} (more : Extends allowed tree now) (directory : now.lookup target = some .directory) :
    ¬ place <+: target := by
  rintro ⟨rest, rfl⟩
  obtain ⟨other, file⟩ := more.file place ⟨content, wanted.file⟩
  simp [more.sound.directory_above directory] at file

/-- What is done at the target and on the way to it does not touch the file. -/
theorem still (more : Extends (fun location => target <+: location ∨ location <+: target) tree now) (solid : ¬ place <+: target) :
    now.lookup place = tree.lookup place := more.beyond place (not_or.2 ⟨wanted.apart, solid⟩)

/-- A file that is not touched can still be read. -/
theorem later {allowed : Location → Prop} (more : Extends allowed tree now) (same : now.lookup place = tree.lookup place) :
    Wanted now ignored source target names place content := by
  have still : now.lookup place = some (.file content) := same.trans wanted.file
  refine ⟨more.sound, more.bare wanted.bare, wanted.named, wanted.valid, wanted.copied, ?_, wanted.apart⟩
  have leads := (more.follow_entry wanted.sound wanted.leads).2
  rwa [found, still] at leads

theorem leads_found : tree.follow (source.under names) = .ok (tree.found place) := by
  rw [wanted.leads, found, wanted.file]

/-- The directory that holds the file. -/
theorem exists_base (filled : names ≠ []) : ∃ base n, tree.follow source = .ok (.entry base .directory) ∧ tree.Reaches n base names place :=
  exists_base_of_follow_under wanted.sound wanted.valid filled wanted.leads_found

/-- The first name on the way to the file is one of those that are copied. -/
theorem listed {base : Location} {entry : Entry} {first : String} {rest : List String} (whole : names = first :: rest)
    (leads : tree.follow source = .ok (.entry base entry)) : first ∈ FileTask.copiedNames ignored tree base := by
  subst whole
  exact first_mem_copiedNames wanted.sound wanted.valid (List.forall_mem_cons.1 wanted.copied).1 wanted.leads_found (by simp [wanted.file]) leads

/-- Below a directory on the way, the file is wanted from there. -/
theorem inner {first : String} {rest : List String} (whole : names = first :: rest) (filled : rest ≠ []) :
    tree.isDirectory (source.child first) = true ∧ Wanted tree ignored (source.child first) (target ++ [first]) rest place content := by
  subst whole
  obtain ⟨valid, valid'⟩ := areNames_cons.1 wanted.valid
  have under : source.under (first :: rest) = (source.child first).under rest := by
    rw [Path.child_of_name _ valid, Path.under_under]
    rfl
  have leads := wanted.leads
  have leads' := wanted.leads_found
  rw [under] at leads leads'
  obtain ⟨base, -, into, -⟩ := exists_base_of_follow_under wanted.sound valid' filled leads'
  constructor
  · exact isDirectory_eq_true_iff.2 ⟨base, into⟩
  · refine ⟨wanted.sound, wanted.bare.append [first], areNames_append.2 ⟨wanted.named, by simpa using valid⟩, valid',
      (List.forall_mem_cons.1 wanted.copied).2, leads, fun below => wanted.apart ((List.prefix_append _ _).trans below)⟩

end Wanted

section

variable {ignored : List String} {depth : Nat} {source : Path} {target place : Location} {outer : List String} {name : String} {content : Bytes}

theorem landing_cons (tree : FileTree) (base : Location) (first : String) (names : List String) (name : String) :
    landing tree base (first :: names) name = first :: landing tree (base ++ [first]) names name := by
  by_cases inside : tree.lookup (base ++ first :: names) = some .directory
  · have inside' : tree.lookup ((base ++ [first]) ++ names) = some .directory := by simpa using inside
    rw [landing_of_directory inside, landing_of_directory inside', List.cons_append]
  · have outside' : tree.lookup ((base ++ [first]) ++ names) ≠ some .directory := by simpa using inside
    rw [landing_of_not_directory inside, landing_of_not_directory outside']

/-- The entry on the way to a wanted file brings it, if the copies of directories below do. -/
theorem copyInto_lands (deeper : ∀ {tree after source target outer}, Wanted tree ignored source target (outer ++ [name]) place content →
      FileTask.copyDirectory ignored depth source (.ofLocation target) tree = (.ok (), after) →
      after.lookup (target ++ landing tree target (outer ++ [name]) name) = some (.file content))
    (wanted : Wanted tree ignored source target (outer ++ [name]) place content) {first : String} {rest : List String}
    (whole : outer ++ [name] = first :: rest) (ended : FileTask.copyInto ignored depth source (.ofLocation target) first tree = (.ok (), after)) :
    after.lookup (target ++ landing tree target (outer ++ [name]) name) = some (.file content) := by
  unfold FileTask.copyInto at ended
  rw [get_bind_apply] at ended
  cases outer with
  | nil =>
    obtain ⟨rfl, rfl⟩ := List.cons.inj whole
    obtain ⟨valid, -⟩ := areNames_cons.1 wanted.valid
    have leads : tree.follow (source.child name) = .ok (.entry place (.file content)) := by
      rw [Path.child_of_name _ valid]
      exact wanted.leads
    have solid : tree.isDirectory (source.child name) ≠ true := by simp [isDirectory, leads]
    have read : tree.read (source.child name) = .ok content := read_eq_ok_iff.2 ⟨place, leads⟩
    have named : AreNames (target ++ [name]) := areNames_append.2 ⟨wanted.named, by simpa using valid⟩
    rw [if_neg solid, Path.child_ofLocation valid] at ended
    have landed := lookup_of_copyFile wanted.sound (wanted.bare.append [name]) named (name_child source valid) valid read ended
    split at landed
    · next inside => rwa [List.nil_append, landing_of_directory inside, ← List.append_assoc]
    · next outside => rwa [List.nil_append, landing_of_not_directory outside]
  | cons next outer =>
    obtain ⟨rfl, rfl⟩ := List.cons.inj whole
    obtain ⟨directory, inside⟩ := wanted.inner whole (List.concat_ne_nil name outer)
    have valid := (areNames_cons.1 wanted.valid).1
    rw [if_pos directory, Path.child_ofLocation valid] at ended
    have landed := deeper inside ended
    rwa [List.append_assoc, List.singleton_append, ← landing_cons] at landed

/-- A wanted file stands, once the directory is copied, below the target under its names, or in the directory that has its place
there. -/
theorem copyDirectory_lands (wanted : Wanted tree ignored source target (outer ++ [name]) place content)
    (ended : FileTask.copyDirectory ignored depth source (.ofLocation target) tree = (.ok (), after)) :
    after.lookup (target ++ landing tree target (outer ++ [name]) name) = some (.file content) := by
  induction depth generalizing tree after source target outer with
  | zero => cases (Prod.mk.inj ended).1
  | succ depth ih =>
    obtain ⟨base, entry, led, ended⟩ := FileTask.copyDirectory_ends_iff.1 ended
    obtain ⟨⟨⟩, between, made, ended⟩ := bind_ends_iff.1 ended
    have opens : OpensIn (· <+: target) tree (.ofLocation target) :=
      opensIn_ofLocation wanted.bare.way wanted.named fun above within => within
    have opened := ((keepsAll_makeDirectories opens).of_ok (.refl wanted.sound) made).2
    have directory : between.lookup target = some .directory :=
      (((opened.bare wanted.bare).way.isDirectory_iff opened.sound wanted.named).1 (isDirectory_of_makeDirectories wanted.sound made)).2
    have wanted' := wanted.later opened (wanted.still (opened.weaken fun _ above => .inr above) (wanted.not_above opened directory))
    have filled := List.concat_ne_nil name outer
    obtain ⟨first, rest, whole⟩ := List.exists_cons_of_ne_nil filled
    have same : between.lookup (target ++ (outer ++ [name])) = tree.lookup (target ++ (outer ++ [name])) := by
      refine opened.beyond _ fun above => filled ?_
      have short := above.length_le
      rw [List.length_append] at short
      exact List.length_eq_zero_iff.1 (by omega)
    rw [← landing_congr (by rw [same])]
    -- every entry keeps what was there, and whether a directory stands in the file's place; the entry of the first name brings the file
    refine (forM_settles
      (fun now => Extends (fun location => target <+: location ∨ location <+: target) between now ∧
        (now.lookup (target ++ (outer ++ [name])) = some .directory ↔ between.lookup (target ++ (outer ++ [name])) = some .directory))
      (fun now => now.lookup (target ++ landing between target (outer ++ [name]) name) = some (.file content))
      (wanted.listed whole led) ?_ ?_ ⟨.refl opened.sound, Iff.rfl⟩ ended).2
    · rintro now next ⟨more, settled⟩ ran
      have wantedNow := wanted'.later more (wanted'.still more (wanted'.not_above more (more.directory _ directory)))
      have landed := copyInto_lands ih wantedNow whole ran
      rw [landing_congr settled] at landed
      obtain ⟨valid, -⟩ := areNames_cons.1 (whole ▸ wanted.valid)
      obtain ⟨copied, -⟩ := List.forall_mem_cons.1 (whole ▸ wanted.copied)
      obtain ⟨more', -⟩ := copyInto_extends wantedNow.sound wantedNow.bare wantedNow.named valid copied ran
      refine ⟨⟨more.trans more', fun there => ?_, fun there => (more.trans more').directory _ there⟩, landed⟩
      by_contra outside
      rw [landing_of_not_directory outside, there] at landed
      cases landed
    · rintro other mem differs now next ⟨more, settled⟩ ran
      obtain ⟨listed, copied⟩ := List.mem_filter.1 mem
      have valid := isEntryName_of_mem_children wanted.sound listed
      obtain ⟨more', alone⟩ := copyInto_extends more.sound (more.bare wanted'.bare) wanted.named valid (by simpa using copied) ran
      have still (names : List String) : next.lookup (target ++ first :: names) = now.lookup (target ++ first :: names) := alone first names differs
      refine ⟨⟨more.trans more', ?_⟩, ?_⟩
      · rw [whole, still, ← whole]
        exact settled
      · have place : landing between target (outer ++ [name]) name = first :: landing between (target ++ [first]) rest name := by
          rw [whole, landing_cons]
        rw [place, still]
        exact id

end

end FileTree

end WasmPackaging
