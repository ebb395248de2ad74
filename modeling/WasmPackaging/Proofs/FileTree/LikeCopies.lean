import Mathlib.Data.List.Nodup
import Mathlib.Data.List.Perm.Subperm
import WasmPackaging.Proofs.FileTree.LikeTasks

/-!
Copies that two runs make alike. A copied directory is a source of both runs, and what it holds is copied in the same order,
so the second run repeats the first entry by entry (`repeats_copyDirectory`). How deep a copy may go depends on the tree, but
it is deep enough for all directories that are there.
-/

namespace WasmPackaging

open Text

namespace FileTask

/-! ## What a copy comes to -/

theorem reportOf_ne_nil {source target : Path} {e : FileError} (told : e ≠ .several []) : reportOf source target e ≠ [] := by
  cases e with
  | several reports =>
    rintro rfl
    exact told rfl
  | sameFile a b =>
    simp only [reportOf, FileError.message, ne_eq, List.map_eq_nil_iff, String.toList_eq_nil_iff, String.append_eq_empty_iff, not_and]
    exact fun _ => by decide
  | refused | refusedPair => simp [reportOf]

theorem fails_change {test : FileError → Prop} {change : FileTree → Except FileError FileTree}
    (known : ∀ tree e, change tree = .error e → test e) : FailsWith test (FileTask.change change) := by
  intro before error after ended
  rw [change_apply] at ended
  rcases changed : change before with e | tree <;> rw [changed] at ended
  · obtain ⟨same, -⟩ := Prod.mk.inj ended
    exact Except.error.inj same ▸ known before e changed
  · cases (Prod.mk.inj ended).1

theorem ne_several_of_makeDirectory {tree : FileTree} {path : Path} {e : FileError} (failed : tree.makeDirectory path = .error e) :
    e ≠ .several [] := by
  unfold FileTree.makeDirectory FileTree.vacancy at failed
  split at failed <;> simp only [Except.map, Except.error.injEq, reduceCtorEq] at failed <;> simp [← failed]

theorem fails_allowDirectory {path : Path} {e : FileError} (told : e ≠ .several []) : FailsWith (· ≠ .several []) (allowDirectory path e) := by
  refine .get fun now => ?_
  split
  · exact .pure _
  · exact .throw told

theorem fails_makeOrAllow (path : Path) : FailsWith (· ≠ .several []) (FileTree.makeOrAllow path) := by
  intro before
  refine FailsWith.get (fun now => ?_) before
  split
  · intro _ _ _ ended
    cases (Prod.mk.inj ended).1
  · next made => exact fails_allowDirectory (ne_several_of_makeDirectory made)

theorem fails_makeDirectories (path : Path) : FailsWith (· ≠ .several []) (makeDirectories path) := by
  obtain ⟨anchor, parts⟩ := path
  induction parts using List.reverseRecOn with
  | nil =>
    rw [makeDirectories, dif_pos rfl]
    exact fails_makeOrAllow _
  | append_singleton parts part ih =>
    have parent : Path.parent ⟨anchor, parts ++ [part]⟩ = ⟨anchor, parts⟩ := by simp [Path.parent]
    rw [makeDirectories, dif_neg (by simp), parent]
    refine .get fun now => ?_
    split
    · exact fails_makeOrAllow _
    · refine .bind (fun before error after ended => ?_) fun _ => fails_makeOrAllow _
      rw [tryCatch_apply] at ended
      rcases ran : makeDirectories ⟨anchor, parts⟩ before with ⟨e | _, between⟩ <;> simp only [ran] at ended
      · split at ended
        · cases (Prod.mk.inj ended).1
        · obtain ⟨same, -⟩ := Prod.mk.inj ended
          exact Except.error.inj same ▸ ih _ _ _ ran
      · cases (Prod.mk.inj ended).1

theorem fails_writeRead (read : Except FileError Bytes) (place : Path) : (∀ e, read = .error e → e ≠ .several []) →
    FailsWith (· ≠ .several []) (match read with
      | .error e => throw e
      | .ok content => FileTask.change (·.write place content) : FileTask Unit) := by
  intro known
  split
  · exact .throw (known _ rfl)
  · refine fails_change fun tree e failed => ?_
    unfold FileTree.write at failed
    split at failed <;> simp only [Except.error.injEq, reduceCtorEq] at failed <;> simp [← failed]

theorem fails_copyFile (nested : Bool) (source target : Path) : FailsWith (· ≠ .several []) (copyFile nested source target) := by
  have reads (now : FileTree) (e : FileError) (failed : now.read source = .error e) : e ≠ .several [] := by
    unfold FileTree.read at failed
    split at failed <;> simp only [Except.error.injEq, reduceCtorEq] at failed <;> simp [← failed]
  refine .get fun now => ?_
  simp only
  generalize (if now.isDirectory target = true then target.child source.name else target) = place
  split
  · exact .bind (.throw (by simp)) fun _ => fails_writeRead _ _ (reads now)
  · exact fails_writeRead _ _ (reads now)

/-- Copies an entry of a directory into another. -/
def copyInto (ignored : List String) (depth : Nat) (source target : Path) (name : String) : FileTask Unit := do
  if (← MonadState.get).isDirectory (source.child name) then copyDirectory ignored depth (source.child name) (target.child name)
  else copyFile true (source.child name) (target.child name)

/-- The names in a directory that are copied. -/
def copiedNames (ignored : List String) (tree : FileTree) (place : Location) : List String :=
  ((tree.children place).map Prod.fst).filter fun name => !isIgnored ignored name

theorem copyDirectory_eq (ignored : List String) (depth : Nat) (source target : Path) :
    copyDirectory ignored (depth + 1) source target = (do
      let tree ← MonadState.get
      match tree.follow source with
      | .error fault => throw (.refused fault source.toString)
      | .ok (.vacant _) => throw (.refused .notFound source.toString)
      | .ok (.entry place _) =>
        makeDirectories target
        let reports ← (copiedNames ignored tree place).mapM fun name =>
          reported (reportOf (source.child name) (target.child name)) (copyInto ignored depth source target name)
        if reports.flatten ≠ [] then throw (.several reports.flatten) : FileTask Unit) := by
  funext tree
  rw [copyDirectory, get_bind_apply, get_bind_apply]
  rcases tree.follow source with fault | _ | _ <;> rfl

theorem reported_apply (report : FileError → List String) (task : FileTask Unit) (before : FileTree) :
    reported report task before =
      match task before with
      | (.ok _, after) => (.ok [], after)
      | (.error e, after) => (.ok (report e), after) := by
  unfold reported
  rw [tryCatch_apply, bind_apply]
  rcases task before with ⟨_ | _, after⟩ <;> rfl

theorem fails_copyDirectory (ignored : List String) (depth : Nat) (source target : Path) :
    FailsWith (· ≠ .several []) (copyDirectory ignored depth source target) := by
  cases depth with
  | zero => exact .throw (by simp)
  | succ depth =>
    have never (report : FileError → List String) (task : FileTask Unit) : FailsWith (· ≠ .several []) (reported report task) := by
      intro before error after ended
      rw [reported_apply] at ended
      rcases ran : task before with ⟨_ | _, between⟩ <;> rw [ran] at ended <;> cases (Prod.mk.inj ended).1
    rw [copyDirectory_eq]
    refine .get fun tree => ?_
    split
    · exact .throw (by simp)
    · exact .throw (by simp)
    · refine .bind (fails_makeDirectories _) fun _ => .bind (.mapM _ fun _ _ => never _ _) fun reports => ?_
      split
      · next left => exact .throw (by simpa using left)
      · exact .pure _

theorem fails_copyInto (ignored : List String) (depth : Nat) (source target : Path) (name : String) :
    FailsWith (· ≠ .several []) (copyInto ignored depth source target name) := by
  refine .get fun now => ?_
  split
  · exact fails_copyDirectory _ _ _ _
  · exact fails_copyFile _ _ _

/-- Tasks whose failures are all reported leave no report just when none of them fails. -/
theorem mapM_reported_ends_iff {α : Type} {report : α → FileError → List String} {task : α → FileTask Unit} {list : List α}
    (told : ∀ a ∈ list, FailsWith (fun e => report a e ≠ []) (task a)) {before after : FileTree} :
    (∃ reports, (list.mapM fun a => reported (report a) (task a)) before = (.ok reports, after) ∧ reports.flatten = []) ↔
      list.forM task before = (.ok (), after) := by
  induction list generalizing before with
  | nil =>
    rw [List.mapM_nil]
    constructor
    · rintro ⟨reports, ended, -⟩
      obtain ⟨-, rfl⟩ := Prod.mk.inj ended
      rfl
    · intro ended
      obtain ⟨-, rfl⟩ := Prod.mk.inj ended
      exact ⟨[], rfl, rfl⟩
  | cons a list ih =>
    obtain ⟨first, rest⟩ := List.forall_mem_cons.1 told
    have onward : (a :: list).forM task = (do task a; list.forM task) := rfl
    rw [List.mapM_cons, onward, bind_ends_iff]
    constructor
    · rintro ⟨reports, ended, quiet⟩
      obtain ⟨here, between, ran, ended⟩ := bind_ends_iff.1 ended
      obtain ⟨later, final, onward, ended⟩ := bind_ends_iff.1 ended
      obtain ⟨same, rfl⟩ := Prod.mk.inj ended
      obtain rfl := Except.ok.inj same
      obtain ⟨quiet, quiet'⟩ := List.append_eq_nil_iff.1 quiet
      rw [reported_apply] at ran
      rcases done : task a before with ⟨e | ⟨⟩, between'⟩ <;> rw [done] at ran <;> obtain ⟨same, rfl⟩ := Prod.mk.inj ran
      · rw [← Except.ok.inj same] at quiet
        exact absurd quiet (first _ _ _ done)
      · exact ⟨(), between', rfl, (ih rest).1 ⟨later, onward, quiet'⟩⟩
    · rintro ⟨⟨⟩, between, done, onward⟩
      obtain ⟨later, ended, quiet⟩ := (ih rest).2 onward
      have here : reported (report a) (task a) before = (.ok [], between) := by rw [reported_apply, done]
      exact ⟨[] :: later, bind_ends_iff.2 ⟨[], between, here, bind_ends_iff.2 ⟨later, after, ended, rfl⟩⟩, quiet⟩

/-- A directory is copied just when a directory can be made for it, and each of its entries is copied there. -/
theorem copyDirectory_ends_iff {ignored : List String} {depth : Nat} {source target : Path} {before after : FileTree} :
    copyDirectory ignored (depth + 1) source target before = (.ok (), after) ↔
      ∃ place entry, before.follow source = .ok (.entry place entry) ∧
        (do makeDirectories target
            (copiedNames ignored before place).forM (copyInto ignored depth source target) : FileTask Unit) before = (.ok (), after) := by
  have told (name : String) : FailsWith (fun e => reportOf (source.child name) (target.child name) e ≠ [])
      (copyInto ignored depth source target name) :=
    fun _ _ _ failed => reportOf_ne_nil (fails_copyInto _ _ _ _ _ _ _ _ failed)
  rw [copyDirectory_eq, get_bind_apply]
  rcases leads : before.follow source with fault | ⟨place, entry⟩ | place
  · simp only [reduceCtorEq, false_and, exists_false, iff_false]
    intro ended
    cases (Prod.mk.inj ended).1
  · simp only [Except.ok.injEq, FileTree.Found.entry.injEq]
    have copied : (∃ place' entry', (place = place' ∧ entry = entry') ∧
        (do makeDirectories target
            (copiedNames ignored before place').forM (copyInto ignored depth source target) : FileTask Unit) before = (.ok (), after)) ↔
        (do makeDirectories target
            (copiedNames ignored before place).forM (copyInto ignored depth source target) : FileTask Unit) before = (.ok (), after) :=
      ⟨fun ⟨_, _, ⟨same, _⟩, ended⟩ => same ▸ ended, fun ended => ⟨place, entry, ⟨rfl, rfl⟩, ended⟩⟩
    rw [copied, bind_ends_iff, bind_ends_iff]
    refine exists_congr fun _ => exists_congr fun between => and_congr_right fun _ => ?_
    rw [← mapM_reported_ends_iff fun name _ => told name, bind_ends_iff]
    refine exists_congr fun reports => ⟨?_, ?_⟩
    · rintro ⟨final, ran, ended⟩
      split at ended
      · cases (Prod.mk.inj ended).1
      · next quiet =>
        obtain ⟨-, rfl⟩ := Prod.mk.inj ended
        exact ⟨ran, by simpa using quiet⟩
    · rintro ⟨ran, quiet⟩
      exact ⟨after, ran, by rw [if_neg (by simp [quiet])]; rfl⟩
  · simp only [Except.ok.injEq, reduceCtorEq, false_and, exists_false, iff_false]
    intro ended
    cases (Prod.mk.inj ended).1

end FileTask

namespace FileTree

variable {plan : Plan} {tree other : FileTree} {location place target : Location} {name : String} {ignored : List String}

theorem isDirectory_congr (sound : tree.WellFormed) (free : tree.LinkFree) (sound' : other.WellFormed) (free' : other.LinkFree)
    (named : AreNames location) (same : other.lookup location = tree.lookup location) :
    other.isDirectory (.ofLocation location) = tree.isDirectory (.ofLocation location) := by
  rw [Bool.eq_iff_iff, isDirectory_ofLocation_iff sound free named, isDirectory_ofLocation_iff sound' free' named, same]

/-- A location has no more names than the tree has entries, since each that leads to it is one. -/
theorem length_le_of_lookup (sound : tree.WellFormed) (there : tree.lookup location ≠ none) : location.length ≤ tree.entries.length := by
  have above : (List.range location.length).map (fun n => location.take (n + 1)) ⊆ tree.entries.map Prod.fst := by
    intro place mem
    obtain ⟨n, within, rfl⟩ := List.mem_map.1 mem
    have short := List.mem_range.1 within
    have present : tree.lookup (location.take (n + 1)) ≠ none := by
      by_cases more : location.drop (n + 1) = []
      · rwa [← List.append_nil (location.take (n + 1)), ← more, List.take_append_drop]
      · simp [sound.above more (by rwa [List.take_append_drop])]
    obtain ⟨entry, found⟩ := Option.ne_none_iff_exists'.1 present
    have filled : location.take (n + 1) ≠ [] := by
      rw [← List.length_pos_iff, List.length_take]
      omega
    exact List.mem_map.2 ⟨_, mem_entries_of_lookup filled found, rfl⟩
  have apart : ((List.range location.length).map fun n => location.take (n + 1)).Nodup := by
    refine List.Nodup.map_on (fun n within m within' same => ?_) List.nodup_range
    have long := congrArg List.length same
    rw [List.length_take, List.length_take] at long
    have := List.mem_range.1 within
    have := List.mem_range.1 within'
    omega
  simpa using (List.Nodup.subperm apart above).length_le

/-- A tree allows copies that are deep enough for all that is there. -/
theorem length_lt_depthLimit (sound : tree.WellFormed) {rest : List String} (there : tree.lookup (place ++ rest) ≠ none) :
    rest.length < FileTask.depthLimit tree := by
  have long := length_le_of_lookup sound there
  rw [List.length_append] at long
  unfold FileTask.depthLimit
  calc rest.length ≤ tree.entries.length := by omega
    _ < (tree.entries.length + 2) * 1 := by omega
    _ ≤ (tree.entries.length + 2) * (linkLimit + 1) := Nat.mul_le_mul_left _ (by omega)

/-- What is copied is a directory, or a file that comes to stand at its target or below it. -/
theorem copied_cases (sound : tree.WellFormed) (free : tree.LinkFree) {target : Location} {after : FileTree}
    (named : AreNames (place ++ [name])) (named' : AreNames target) (apart : ∀ rest, place ++ [name] ≠ target ++ rest)
    (ended : FileTask.copy ignored (.ofLocation (place ++ [name])) (.ofLocation target) tree = (.ok (), after)) :
    tree.lookup (place ++ [name]) = some .directory ∨
      ∃ content rest, tree.lookup (place ++ [name]) = some (.file content) ∧ after.lookup (target ++ rest) = some (.file content) := by
  have parent : Path.parent (.ofLocation target) = .ofLocation target.dropLast := rfl
  obtain ⟨asked, -⟩ | ⟨-, between, made, copied⟩ := ends_of_copy ended
  · obtain ⟨-, entry, present, directory⟩ := (asks_ofLocation_true_iff sound free named).1 asked
    obtain rfl : entry = .directory := by simpa using directory
    exact .inl present
  · rw [parent] at made
    obtain ⟨-, clear, rfl⟩ := (ensureDirectory_ends_iff sound free named'.dropLast).1 made
    have sound' := clear.sound_fill named'.dropLast sound
    have free' : (tree.fill target.dropLast).LinkFree := Clear.free_fill free
    obtain ⟨content, read, written⟩ := (copyFile_ends_iff sound' free' named named' (by simpa using apart []) (apart [name])).1 copied
    have landed : AreNames (target ++ landing (tree.fill target.dropLast) target [] name) :=
      areNames_landing (by rwa [List.append_nil]) (by simpa using (areNames_append.1 named).2)
    obtain ⟨-, solid, -, rfl⟩ := (write_ofLocation_iff sound' free' landed).1 written
    refine .inr ⟨content, _, ?_, by rw [FileTree.lookup_put _ (Plan.ne_nil_of_lookup solid), if_pos rfl]⟩
    obtain ⟨-, file⟩ := (read_ofLocation_iff sound' free' named).1 read
    rw [lookup_fill] at file
    split at file
    · cases file
    · exact file

namespace Plan

/-- A location that is copied, with all below it whose names are not ignored, is a source. -/
structure Copies (plan : Plan) (ignored : List String) (place : Location) : Prop where
  named : AreNames place
  parts : ∀ rest, (∀ name ∈ rest, FileTask.isIgnored ignored name = false) → plan.part (place ++ rest) = .source

/-- The directories that are copied lie not too deep below a location. -/
def Deep (plan : Plan) (ignored : List String) (place : Location) (depth : Nat) : Prop :=
  ∀ rest, (∀ name ∈ rest, FileTask.isIgnored ignored name = false) → plan.base.lookup (place ++ rest) = some .directory →
    rest.length < depth

theorem Copies.source (copies : plan.Copies ignored place) : plan.part place = .source := by simpa using copies.parts [] (by simp)

theorem Copies.child (copies : plan.Copies ignored place) (valid : IsEntryName name) (kept : FileTask.isIgnored ignored name = false) :
    plan.Copies ignored (place ++ [name]) := by
  refine ⟨areNames_append.2 ⟨copies.named, by simpa using valid⟩, fun rest others => ?_⟩
  rw [List.append_assoc]
  exact copies.parts (name :: rest) (List.forall_mem_cons.2 ⟨kept, others⟩)

theorem Deep.child {depth : Nat} (deep : plan.Deep ignored place (depth + 1)) (kept : FileTask.isIgnored ignored name = false) :
    plan.Deep ignored (place ++ [name]) depth := by
  intro rest others directory
  rw [List.append_assoc] at directory
  exact Nat.lt_of_succ_lt_succ (deep (name :: rest) (List.forall_mem_cons.2 ⟨kept, others⟩) directory)

theorem Receives.ne_of_source (receives : plan.Receives target) (source : plan.part location = .source) (rest : List String) :
    location ≠ target ++ rest := by
  rintro rfl
  obtain writes | writes := receives.writes rest <;> simp [source] at writes

/-- The names that are copied are those among the sources. -/
theorem Holds.copiedNames_eq (holds : plan.Holds tree) (copies : plan.Copies ignored place) :
    FileTask.copiedNames ignored tree place = FileTask.copiedNames ignored plan.base place := by
  unfold FileTask.copiedNames children
  rw [← holds.sources, Plan.sources]
  induction tree.entries with
  | nil => rfl
  | cons e entries ih =>
    obtain ⟨location, entry⟩ := e
    by_cases source : plan.part location = .source
    · rw [List.filter_cons_of_pos (by simpa using source), List.filterMap_cons, List.filterMap_cons]
      split
      · exact ih
      · rw [List.map_cons, List.map_cons, List.filter_cons, List.filter_cons, ih]
    · rw [List.filter_cons_of_neg (by simpa using source), ← ih, List.filterMap_cons]
      split
      · rfl
      · next found =>
        -- a name that is not among the sources is ignored
        split at found
        · next name below =>
          obtain rfl := Option.some.inj found
          rw [List.map_cons, List.filter_cons_of_neg]
          intro kept
          have there : location = place ++ [name] := Path.below?_eq_some_iff.1 below
          exact source (there ▸ copies.parts [name] (by simpa using kept))
        · cases found

theorem Holds.isEntryName_of_copied (holds : plan.Holds tree) (copies : plan.Copies ignored place)
    (mem : name ∈ FileTask.copiedNames ignored plan.base place) : IsEntryName name := by
  rw [← holds.copiedNames_eq copies] at mem
  exact isEntryName_of_mem_children holds.sound (List.mem_filter.1 mem).1

/-- A directory that is copied by the one run is copied by the other. -/
theorem repeats_copyDirectory {depth depth' : Nat} (copies : plan.Copies ignored place) (receives : plan.Receives target)
    (directory : plan.base.lookup place = some .directory) (deep : plan.Deep ignored place depth') :
    plan.Repeats (FileTask.copyDirectory ignored depth (.ofLocation place) (.ofLocation target))
      (FileTask.copyDirectory ignored depth' (.ofLocation place) (.ofLocation target)) := by
  induction depth generalizing depth' place target with
  | zero => exact .throw
  | succ depth ih =>
    cases depth' with
    | zero => cases deep [] (by simp) (by simpa using directory)
    | succ depth' =>
      rintro tree after ⟨⟩ holds ended
      obtain ⟨place', entry, leads, ended⟩ := FileTask.copyDirectory_ends_iff.1 ended
      obtain ⟨fits, rfl, present⟩ := (follow_entry_iff holds.sound holds.free copies.named).1 leads
      have each (name : String) (mem : name ∈ FileTask.copiedNames ignored plan.base place') :
          plan.Repeats (FileTask.copyInto ignored depth (.ofLocation place') (.ofLocation target) name)
            (FileTask.copyInto ignored depth' (.ofLocation place') (.ofLocation target) name) := by
        have valid := holds.isEntryName_of_copied copies mem
        have kept : FileTask.isIgnored ignored name = false := by simpa using (List.mem_filter.1 mem).2
        have copies' := copies.child valid kept
        have known : plan.Known (place' ++ [name]) := .inl copies'.source
        unfold FileTask.copyInto
        rw [Path.child_ofLocation valid, Path.child_ofLocation valid]
        refine .branch (fun tree other holds related => ?_) ?_ ?_
        · exact isDirectory_congr holds.sound holds.free related.holds.sound related.holds.free copies'.named
            (related.lookup_shared (.inl copies'.source))
        · by_cases directory : plan.base.lookup (place' ++ [name]) = some .directory
          · exact (ih copies' (receives.child valid) directory (deep.child kept)).given
          · rintro tree after ⟨⟩ ⟨holds, answered⟩
            rw [← holds.lookup_source copies'.source] at directory
            exact absurd ((isDirectory_ofLocation_iff holds.sound holds.free copies'.named).1 answered).2 directory
        · exact (repeats_copyFile true known copies'.named (receives.child valid) (receives.ne_of_source copies'.source [name])
            ((receives.child valid).ne_of_source copies'.source [name])).given
      have steps := (repeats_makeDirectories receives.reaches).bind fun _ => Simulates.forM _ each
      rw [holds.copiedNames_eq copies] at ended
      obtain ⟨held, carried⟩ := steps holds ended
      refine ⟨held, fun leads' => ?_⟩
      obtain ⟨leads', now⟩ := carried leads'
      refine ⟨leads', fun other related => ?_⟩
      obtain ⟨after', ended', related'⟩ := now other related
      refine ⟨after', FileTask.copyDirectory_ends_iff.2 ⟨place', entry, ?_, ?_⟩, related'⟩
      · exact (follow_entry_iff related.holds.sound related.holds.free copies.named).2 ⟨fits, rfl, related.present (.inl copies.source) present⟩
      · rwa [related.holds.copiedNames_eq copies]

/-- A tree allows copies that are deep enough. -/
theorem Holds.deep (holds : plan.Holds tree) (copies : plan.Copies ignored place) : plan.Deep ignored place (FileTask.depthLimit tree) := by
  intro rest others directory
  rw [← holds.lookup_source (copies.parts rest others)] at directory
  exact length_lt_depthLimit holds.sound (by simp [directory] : tree.lookup (place ++ rest) ≠ none)

/-- A file, or a directory that is a source, is copied by the other run when it is by the one. -/
theorem repeats_copy (known : plan.Known (place ++ [name])) (named : AreNames (place ++ [name]))
    (receives : plan.Receives target) (apart : ∀ rest, place ++ [name] ≠ target ++ rest)
    (copies : ∀ tree, plan.Holds tree → tree.lookup (place ++ [name]) = some .directory → plan.Copies ignored (place ++ [name])) :
    plan.Repeats (FileTask.copy ignored (.ofLocation (place ++ [name])) (.ofLocation target))
      (FileTask.copy ignored (.ofLocation (place ++ [name])) (.ofLocation target)) := by
  have parent : Path.parent (.ofLocation target) = .ofLocation target.dropLast := rfl
  rintro tree after ⟨⟩ holds ended
  obtain ⟨asked, ended⟩ | ⟨-, between, made, copied⟩ := ends_of_copy ended
  · obtain ⟨fits, entry, present, directory⟩ := (asks_ofLocation_true_iff holds.sound holds.free named).1 asked
    obtain rfl : entry = .directory := by simpa using directory
    have copies := copies tree holds present
    rw [holds.lookup_source copies.source] at present
    have asked' (other : FileTree) (holds : plan.Holds other) : other.asksDirectory (.ofLocation (place ++ [name])) = .ok true := by
      refine (asks_ofLocation_true_iff holds.sound holds.free named).2 ⟨fits, .directory, ?_, by simp⟩
      rw [holds.lookup_source copies.source, present]
    obtain ⟨held, carried⟩ := repeats_copyDirectory copies receives present (holds.deep copies) holds ended
    refine ⟨held, fun leads => ⟨(carried leads).1, fun other related => ?_⟩⟩
    rw [copy_of_directory (asked' other related.holds)]
    obtain ⟨held', carried'⟩ := repeats_copyDirectory copies receives present (related.holds.deep copies) holds ended
    exact (carried' leads).2 other related
  · -- a file: it is there when it is read, so it was there before the way to its target was made
    have single := (repeats_ensureDirectory receives.reaches.dropLast).bind fun _ =>
      @repeats_copyFile plan place name false target known named receives (by simpa using apart []) (apart [name])
    rw [parent] at made
    obtain ⟨held, carried⟩ := single holds (bind_ends_iff.2 ⟨(), between, made, copied⟩)
    refine ⟨held, fun leads => ?_⟩
    obtain ⟨leads, now⟩ := carried leads
    refine ⟨leads, fun other related => ?_⟩
    obtain ⟨after', ended', related'⟩ := now other related
    refine ⟨after', ?_, related'⟩
    obtain ⟨-, -, rfl⟩ := (ensureDirectory_ends_iff holds.sound holds.free receives.reaches.named.dropLast).1 made
    have held := ((repeats_ensureDirectory receives.reaches.dropLast) holds made).1
    obtain ⟨content, read, -⟩ := (copyFile_ends_iff held.sound held.free named receives.reaches.named (by simpa using apart [])
      (apart [name])).1 copied
    obtain ⟨fits, file⟩ := (read_ofLocation_iff held.sound held.free named).1 read
    rw [lookup_fill] at file
    split at file
    · cases file
    · have asked' : other.asksDirectory (.ofLocation (place ++ [name])) = .ok false :=
        asks_ofLocation_of_present related.holds.sound related.holds.free named fits (related.present known file) _
      rw [copy_of_file asked', parent]
      exact ended'

theorem repeats_copySource (filled : location ≠ []) (copies : plan.Copies ignored location) (receives : plan.Receives target) :
    plan.Repeats (FileTask.copy ignored (.ofLocation location) (.ofLocation target))
      (FileTask.copy ignored (.ofLocation location) (.ofLocation target)) := by
  obtain ⟨place, name, rfl⟩ := (List.eq_nil_or_concat location).resolve_left filled
  rw [List.concat_eq_append] at copies ⊢
  exact repeats_copy (.inl copies.source) copies.named receives (receives.ne_of_source copies.source) fun _ _ _ => copies

end Plan

end FileTree

end WasmPackaging
