import WasmPackaging.Proofs.FileTree.Copies
import WasmPackaging.Proofs.FileTree.Likeness

/-!
Tasks that two runs do alike. Where a plan lets both runs write, a task of the one that succeeds can be repeated by the other,
and keeps their trees paired: each single change (`repeats_write`, `repeats_move`), and the writing and copying of a file
(`repeats_writeBytes`, `repeats_copyFile`). A file comes to stand in the same place in both trees, since where the second has
a directory from before, so has the first in the end. A task that only reads what the runs have made before can be repeated as
if that were a source (`repeats_of_freeze`).
-/

namespace WasmPackaging

open Text

theorem FileTask.change_ends_iff {change : FileTree → Except FileError FileTree} {before after : FileTree} :
    FileTask.change change before = (.ok (), after) ↔ change before = .ok after := by
  rw [change_apply]
  rcases change before with e | changed
  · constructor <;> intro same <;> cases same
  · constructor <;> intro same <;> cases same <;> rfl

namespace FileTree

variable {plan : Plan} {tree other : FileTree} {location outer : Location} {name : String}

namespace Plan

/-- What succeeds in the first run succeeds in the second, and keeps their trees paired. -/
abbrev Repeats (plan : Plan) {ε α : Type} (act other : ExceptT ε (StateM FileTree) α) : Prop :=
  Simulates plan.pairing plan.pairing act other

/-- A location to which all directories can be made. -/
structure Reaches (plan : Plan) (location : Location) : Prop where
  named : AreNames location
  passes : ∀ outer, outer <+: location → plan.Passes outer

/-- A location at which a file can be put. -/
structure Takes (plan : Plan) (location : Location) : Prop where
  named : AreNames location
  files : plan.Files location
  outer : plan.Known location.dropLast

/-- A location below which all can be written. -/
structure Lays (plan : Plan) (location : Location) : Prop where
  reaches : plan.Reaches location
  writes : ∀ rest, plan.Writes (location ++ rest)

/-- A location at and below which all can be written. -/
structure Receives (plan : Plan) (location : Location) : Prop extends plan.Lays location where
  outer : plan.Known location.dropLast

theorem Reaches.above {rest : List String} (reaches : plan.Reaches (outer ++ rest)) : plan.Reaches outer :=
  ⟨(areNames_append.1 reaches.named).1, fun place within => reaches.passes place (within.trans (List.prefix_append _ _))⟩

theorem Reaches.dropLast (reaches : plan.Reaches location) : plan.Reaches location.dropLast :=
  ⟨reaches.named.dropLast, fun place within => reaches.passes place (within.trans (List.dropLast_prefix _))⟩

theorem Receives.takes (receives : plan.Receives location) : plan.Takes location :=
  ⟨receives.reaches.named, .inl (by simpa using receives.writes []), receives.outer⟩

theorem Lays.child (lays : plan.Lays location) (valid : IsEntryName name) : plan.Receives (location ++ [name]) := by
  refine ⟨⟨⟨areNames_append.2 ⟨lays.reaches.named, by simpa using valid⟩, fun place within => ?_⟩, fun rest => ?_⟩, ?_⟩
  · obtain rfl | within := List.prefix_concat_iff.1 within
    · exact .inl (lays.writes [name])
    · exact lays.reaches.passes place within
  · rw [List.append_assoc]
    exact lays.writes _
  · rw [List.dropLast_concat]
    exact Writes.known (by simpa using lays.writes [])

theorem Lays.below {rest : List String} (lays : plan.Lays location) (valid : AreNames rest) : plan.Lays (location ++ rest) := by
  induction rest using List.reverseRecOn with
  | nil => simpa using lays
  | append_singleton rest name ih =>
    obtain ⟨valid, last⟩ := areNames_append.1 valid
    rw [← List.append_assoc]
    exact ((ih valid).child (areNames_cons.1 last).1).toLays

theorem Lays.receives {rest : List String} (lays : plan.Lays location) (valid : AreNames rest) (filled : rest ≠ []) :
    plan.Receives (location ++ rest) := by
  obtain ⟨outer, name, rfl⟩ := (List.eq_nil_or_concat rest).resolve_left filled
  rw [List.concat_eq_append] at valid ⊢
  obtain ⟨valid, last⟩ := areNames_append.1 valid
  rw [← List.append_assoc]
  exact (lays.below valid).child (areNames_cons.1 last).1

theorem Receives.child (receives : plan.Receives location) (valid : IsEntryName name) : plan.Receives (location ++ [name]) :=
  receives.toLays.child valid

/-! ## Reading -/

theorem Relates.read (related : plan.Relates tree other) (holds : plan.Holds tree) (known : plan.Known location) (named : AreNames location)
    {content : Bytes} (read : tree.read (.ofLocation location) = .ok content) : other.read (.ofLocation location) = .ok content := by
  obtain ⟨fits, file⟩ := (read_ofLocation_iff holds.sound holds.free named).1 read
  exact (read_ofLocation_iff related.holds.sound related.holds.free named).2 ⟨fits, related.present known file⟩

/-- A text that is read alike in related trees. -/
theorem simulates_readText {p : Pairing FileTree} {path : Path}
    (alike : ∀ tree other content, p.holds tree → p.relates tree other → tree.read path = .ok content → other.read path = .ok content) :
    Simulates p p (FileRun.readText path) (FileRun.readText path) := by
  have bytes : Simulates p p (FileRun.readBytes path) (FileRun.readBytes path) := .askFor alike
  refine bytes.bind fun content => ?_
  split
  · exact .pure _ _
  · exact .throw

theorem repeats_readText (known : plan.Known location) (named : AreNames location) :
    plan.Repeats (FileRun.readText (.ofLocation location)) (FileRun.readText (.ofLocation location)) :=
  simulates_readText fun _ _ _ holds related read => related.read holds known named read

/-! ## Single changes -/

/-- A task that makes a location a directory, with all that leads there, can be repeated. -/
theorem repeats_fill {task : FileTask Unit} (reaches : plan.Reaches location)
    (fills : ∀ tree after : FileTree, tree.WellFormed → tree.LinkFree →
      (task tree = (.ok (), after) ↔ Fits location ∧ tree.Clear location ∧ after = tree.fill location)) : plan.Repeats task task := by
  rintro tree after ⟨⟩ holds ended
  obtain ⟨fits, clear, rfl⟩ := (fills tree after holds.sound holds.free).1 ended
  refine ⟨holds.fill reaches.named fits clear reaches.passes, fun leads => ⟨leads.of_fill, fun other related => ?_⟩⟩
  obtain ⟨clear', related'⟩ := related.fill reaches.named fits clear reaches.passes leads
  exact ⟨_, (fills other _ related.holds.sound related.holds.free).2 ⟨fits, clear', rfl⟩, related'⟩

theorem repeats_ensureDirectory (reaches : plan.Reaches location) :
    plan.Repeats (FileTask.ensureDirectory (.ofLocation location)) (FileTask.ensureDirectory (.ofLocation location)) :=
  repeats_fill reaches fun _ _ sound free => ensureDirectory_ends_iff sound free reaches.named

theorem repeats_makeDirectories (reaches : plan.Reaches location) :
    plan.Repeats (FileTask.makeDirectories (.ofLocation location)) (FileTask.makeDirectories (.ofLocation location)) :=
  repeats_fill reaches fun _ _ sound free => makeDirectories_ends_iff sound free reaches.named

/-- A location that comes to have a file in the first tree has no directory in the second. -/
theorem Relates.not_directory (related : plan.Relates tree other) (known : plan.Known location) (solid : tree.lookup location ≠ some .directory)
    (file : ∀ old, plan.spare location = some old → old ≠ .directory) : other.lookup location ≠ some .directory := by
  rw [related.lookup known]
  rcases there : tree.lookup location with _ | entry
  · rw [Option.none_or]
    exact fun directory => file _ directory rfl
  · rw [Option.some_or]
    exact fun directory => solid (there.trans directory)

theorem Leads.of_file {content : Bytes} (leads : plan.Leads tree) (file : tree.lookup location = some (.file content)) :
    ∀ old, plan.spare location = some old → old ≠ .directory := by
  intro old before directory
  cases (leads.alike location _ old file before).2 directory

theorem ne_nil_of_lookup (solid : tree.lookup location ≠ some .directory) : location ≠ [] := by
  rintro rfl
  exact solid rfl

/-- A file can be put where one was put before. -/
theorem Takes.put (takes : plan.Takes location) (fits : Fits location) (holds : plan.Holds tree)
    (solid : tree.lookup location ≠ some .directory) (inside : tree.lookup location.dropLast = some .directory) (content : Bytes) :
    plan.Holds (tree.put location (.file content)) := by
  cases location using List.reverseRecOn with
  | nil => exact absurd rfl solid
  | append_singleton outer name =>
    rw [List.dropLast_concat] at inside
    have valid : IsEntryName name := (areNames_cons.1 (areNames_append.1 takes.named).2).1
    exact holds.put inside valid takes.files.not_source (fun _ => by simp) (by simp) (fun directory => absurd directory solid) fits

theorem repeats_write (takes : plan.Takes location) (content : Bytes) :
    plan.Repeats (FileTask.change (·.write (.ofLocation location) content)) (FileTask.change (·.write (.ofLocation location) content)) := by
  rintro tree after ⟨⟩ holds ended
  obtain ⟨fits, solid, inside, rfl⟩ := (write_ofLocation_iff holds.sound holds.free takes.named).1 (FileTask.change_ends_iff.1 ended)
  have filled := ne_nil_of_lookup solid
  refine ⟨takes.put fits holds solid inside content, fun leads => ⟨?_, fun other related => ?_⟩⟩
  · refine leads.of_put filled fun old there => ?_
    simp only [reduceCtorEq, iff_false]
    rintro rfl
    exact solid there
  · have solid' := related.not_directory takes.files.known solid (leads.of_file (by rw [tree.lookup_put filled, if_pos rfl]))
    have inside' := related.present takes.outer inside
    refine ⟨_, FileTask.change_ends_iff.2 ((write_ofLocation_iff related.holds.sound related.holds.free takes.named).2
      ⟨fits, solid', inside', rfl⟩), ?_⟩
    exact related.put filled (fun way => absurd way takes.files.not_way) (takes.put fits related.holds solid' inside' content)

theorem repeats_unlink (named : AreNames location) (files : plan.Files location) (gone : plan.spare location = none) :
    plan.Repeats (FileTask.change (·.unlink (.ofLocation location))) (FileTask.change (·.unlink (.ofLocation location))) := by
  have changes := files.not_source
  rintro tree after ⟨⟩ holds ended
  obtain ⟨fits, ⟨content, file⟩, rfl⟩ := (unlink_ofLocation_iff holds.sound holds.free named).1 (FileTask.change_ends_iff.1 ended)
  have filled : location ≠ [] := @ne_nil_of_lookup tree location (by simp [file])
  refine ⟨holds.erase changes (by simp [file]), fun leads => ⟨leads.of_erase filled files.not_way gone, fun other related => ?_⟩⟩
  have file' := related.present files.known file
  refine ⟨_, FileTask.change_ends_iff.2 ((unlink_ofLocation_iff related.holds.sound related.holds.free named).2
    ⟨fits, ⟨content, file'⟩, rfl⟩), ?_⟩
  exact related.erase filled gone (related.holds.erase changes (by simp [file']))

/-- A file is moved to another place, and the second tree had nothing before where it was. -/
theorem repeats_move {target : Location} (named : AreNames location) (files : plan.Files location) (gone : plan.spare location = none)
    (takes : plan.Takes target) (apart : location ≠ target) :
    plan.Repeats (FileTask.change (·.move (.ofLocation location) (.ofLocation target)))
      (FileTask.change (·.move (.ofLocation location) (.ofLocation target))) := by
  have changes := files.not_source
  rintro tree after ⟨⟩ holds ended
  obtain ⟨fits, fits', solid, inside, content, file, rfl⟩ :=
    (move_ofLocation_iff holds.sound holds.free named takes.named apart).1 (FileTask.change_ends_iff.1 ended)
  have filled : location ≠ [] := @ne_nil_of_lookup tree location (by simp [file])
  have filled' := ne_nil_of_lookup solid
  have erased (tree : FileTree) (holds : plan.Holds tree) (file : tree.lookup location = some (.file content))
      (solid : tree.lookup target ≠ some .directory) (inside : tree.lookup target.dropLast = some .directory) :
      plan.Holds (tree.erase location) ∧ plan.Holds ((tree.erase location).put target (.file content)) ∧
        (tree.erase location).lookup target ≠ some .directory := by
    have solid' : (tree.erase location).lookup target ≠ some .directory := by
      rwa [tree.lookup_erase filled, if_neg apart.symm]
    have inside' : (tree.erase location).lookup target.dropLast = some .directory := by
      rw [tree.lookup_erase filled, if_neg]
      · exact inside
      · intro same
        rw [same, file] at inside
        cases inside
    have between := holds.erase changes (by simp [file])
    exact ⟨between, takes.put fits' between solid' inside' content, solid'⟩
  obtain ⟨between, held, solid'⟩ := erased tree holds file solid inside
  refine ⟨held, fun leads => ?_⟩
  have leads' : plan.Leads (tree.erase location) := by
    refine leads.of_put filled' fun old there => ?_
    simp only [reduceCtorEq, iff_false]
    rintro rfl
    exact solid' there
  refine ⟨leads'.of_erase filled files.not_way gone, fun other related => ?_⟩
  have file' := related.present files.known file
  have inside' := related.present takes.outer inside
  have solid'' := related.not_directory takes.files.known solid (leads.of_file (by rw [FileTree.lookup_put _ filled', if_pos rfl]))
  obtain ⟨between', held', -⟩ := erased other related.holds file' solid'' inside'
  refine ⟨_, FileTask.change_ends_iff.2 ((move_ofLocation_iff related.holds.sound related.holds.free named takes.named apart).2
    ⟨fits, fits', solid'', inside', content, file', rfl⟩), ?_⟩
  exact (related.erase filled gone between').put filled' (fun way => absurd way takes.files.not_way) held'

/-! ## Files -/

theorem repeats_writeBytes (reaches : plan.Reaches location.dropLast) (takes : plan.Takes location) (content : Bytes) :
    plan.Repeats (FileTask.writeBytes (.ofLocation location) content) (FileTask.writeBytes (.ofLocation location) content) :=
  (repeats_ensureDirectory reaches).bind fun _ => repeats_write takes content

/-! ## A mirror that is left alone -/

/-- The plan in which the mirror is a source, as it stands in a tree. -/
def freeze (plan : Plan) (tree : FileTree) : Plan where
  part location := if plan.part location = .mirror then .source else plan.part location
  base := { entries := plan.shared tree, workingDirectory := tree.workingDirectory }
  rest := plan.rest
  fitting := plan.fitting

theorem part_freeze (plan : Plan) (tree : FileTree) (location : Location) :
    (plan.freeze tree).part location = if plan.part location = .mirror then .source else plan.part location := rfl

theorem part_freeze_iff {part : Part} (known : part ≠ .source ∧ part ≠ .mirror) :
    (plan.freeze tree).part location = part ↔ plan.part location = part := by
  rw [part_freeze]
  split
  · next mirror =>
    rw [mirror]
    exact ⟨fun same => absurd same.symm known.1, fun same => absurd same.symm known.2⟩
  · rfl

theorem part_freeze_source_iff :
    (plan.freeze tree).part location = .source ↔ plan.part location = .source ∨ plan.part location = .mirror := by
  rw [part_freeze]
  split
  · next mirror => simp [mirror]
  · next other => simp [other]

theorem sources_freeze (now : FileTree) : (plan.freeze tree).sources now = plan.shared now :=
  List.filter_congr fun _ _ => decide_eq_decide.2 part_freeze_source_iff

theorem shared_freeze (now : FileTree) : (plan.freeze tree).shared now = plan.shared now := by
  refine List.filter_congr fun e _ => decide_eq_decide.2 ?_
  have never : (plan.freeze tree).part e.1 ≠ .mirror := by
    rw [part_freeze]
    split
    · simp
    · assumption
  rw [part_freeze_source_iff, or_iff_left never]

theorem sources_of_shared {now : FileTree} (same : plan.shared now = plan.shared tree) : plan.sources now = plan.sources tree := by
  have within (tree : FileTree) : plan.sources tree = (plan.shared tree).filter fun e => plan.part e.1 = .source := by
    rw [sources, shared, List.filter_filter]
    refine List.filter_congr fun e _ => ?_
    by_cases source : plan.part e.1 = .source <;> simp [source]
  rw [within, within, same]

theorem spare_freeze (location : Location) : (plan.freeze tree).spare location = plan.spare location := by
  unfold spare
  simp only [@part_freeze_iff plan tree location .output (by decide)]
  rfl

/-- What holds with the mirror frozen is what holds without, and that the mirror is as it was. -/
theorem holds_freeze_iff {now : FileTree} (holds : plan.Holds tree) :
    (plan.freeze tree).Holds now ↔ plan.Holds now ∧ plan.shared now = plan.shared tree := by
  constructor
  · intro held
    have same : plan.shared now = plan.shared tree := (sources_freeze now).symm.trans held.sources
    refine ⟨⟨held.sound, held.free, held.working.trans holds.working, (sources_of_shared same).trans holds.sources,
      fun location loose => held.loose location ((part_freeze_iff (by decide)).2 loose), fun fitting location output => ?_⟩, same⟩
    exact held.fits fitting location ((part_freeze_iff (by decide)).2 output)
  · rintro ⟨held, same⟩
    refine ⟨held.sound, held.free, held.working.trans holds.working.symm, (sources_freeze now).trans same,
      fun location loose => held.loose location ((part_freeze_iff (by decide)).1 loose), fun fitting location output => ?_⟩
    exact held.fits fitting location ((part_freeze_iff (by decide)).1 output)

theorem leads_freeze_iff {now : FileTree} : (plan.freeze tree).Leads now ↔ plan.Leads now := by
  constructor <;> intro leads
  · exact ⟨fun location entry old there before => leads.alike location entry old there ((spare_freeze location).trans before),
      fun location way => leads.way location ((part_freeze_iff (by decide)).2 way)⟩
  · exact ⟨fun location entry old there before => leads.alike location entry old there ((spare_freeze location).symm.trans before),
      fun location way => leads.way location ((part_freeze_iff (by decide)).1 way)⟩

theorem relates_freeze_iff {now : FileTree} (holds : plan.Holds tree) (same : plan.shared now = plan.shared tree) :
    (plan.freeze tree).Relates now other ↔ plan.Relates now other := by
  constructor <;> intro related
  · obtain ⟨held, -⟩ := (holds_freeze_iff holds).1 related.holds
    refine ⟨held, ?_, fun location output => related.output location ((part_freeze_iff (by decide)).2 output),
      fun location loose => related.loose location ((part_freeze_iff (by decide)).2 loose),
      fun location way => related.way location ((part_freeze_iff (by decide)).2 way)⟩
    have shared := related.shared
    rwa [shared_freeze, shared_freeze] at shared
  · refine ⟨(holds_freeze_iff holds).2 ⟨related.holds, related.shared.trans same⟩, ?_,
      fun location output => related.output location ((part_freeze_iff (by decide)).1 output),
      fun location loose => related.loose location ((part_freeze_iff (by decide)).1 loose),
      fun location way => related.way location ((part_freeze_iff (by decide)).1 way)⟩
    rw [shared_freeze, shared_freeze, related.shared]

/-- What leaves the mirror alone can be repeated as if the mirror were a source. -/
theorem repeats_of_freeze {ε α : Type} {act other : ExceptT ε (StateM FileTree) α}
    (frozen : ∀ tree, plan.Holds tree → (plan.freeze tree).Repeats act other) : plan.Repeats act other := by
  intro before after answer holds ended
  obtain ⟨held, carried⟩ := frozen before holds ((holds_freeze_iff holds).2 ⟨holds, rfl⟩) ended
  obtain ⟨held, same⟩ := (holds_freeze_iff holds).1 held
  refine ⟨held, fun leads => ?_⟩
  obtain ⟨leads, now⟩ := carried (leads_freeze_iff.2 leads)
  refine ⟨leads_freeze_iff.1 leads, fun before' related => ?_⟩
  obtain ⟨after', ended', related'⟩ := now before' ((relates_freeze_iff holds rfl).2 related)
  exact ⟨after', ended', (relates_freeze_iff holds same).1 related'⟩

/-! ## A loose file -/

/-- The plan in which a location that the runs have had nothing to do with is that of a loose file. -/
def loosen (plan : Plan) (place : Location) : Plan where
  part location := if location = place then .loose else plan.part location
  base := plan.base
  rest := plan.rest
  fitting := plan.fitting

/-- Trees that are paired by a plan, where no directory stands at some place in either. -/
def clearOf (plan : Plan) (place : Location) : Pairing FileTree where
  holds := plan.Holds
  leads tree := plan.Leads tree ∧ tree.lookup place ≠ some .directory
  relates tree other := plan.Relates tree other ∧ other.lookup place ≠ some .directory

theorem part_loosen (plan : Plan) (place location : Location) :
    (plan.loosen place).part location = if location = place then .loose else plan.part location := rfl

variable {place : Location} (apart : plan.part place = .other)

include apart

theorem part_loosen_iff {part : Part} (known : part ≠ .loose ∧ part ≠ .other) :
    (plan.loosen place).part location = part ↔ plan.part location = part := by
  by_cases same : location = place
  · subst same
    rw [apart, part_loosen, if_pos rfl]
    exact ⟨fun same => absurd same.symm known.1, fun same => absurd same.symm known.2⟩
  · rw [part_loosen, if_neg same]

theorem spare_loosen (location : Location) : (plan.loosen place).spare location = plan.spare location := by
  unfold spare
  simp only [@part_loosen_iff plan _ place apart .output (by decide)]
  rfl

theorem sources_loosen (tree : FileTree) : (plan.loosen place).sources tree = plan.sources tree :=
  List.filter_congr fun e _ => by simp only [@part_loosen_iff plan _ place apart .source (by decide)]

theorem shared_loosen (tree : FileTree) : (plan.loosen place).shared tree = plan.shared tree :=
  List.filter_congr fun e _ => by
    simp only [@part_loosen_iff plan _ place apart .source (by decide), @part_loosen_iff plan _ place apart .mirror (by decide)]

theorem Holds.loosen (holds : plan.Holds tree) (solid : tree.lookup place ≠ some .directory) : (plan.loosen place).Holds tree := by
  refine ⟨holds.sound, holds.free, holds.working, (sources_loosen apart tree).trans holds.sources,
    fun location loose => ?_, fun fitting location output => ?_⟩
  · by_cases same : location = place
    · exact same ▸ solid
    · rw [part_loosen, if_neg same] at loose
      exact holds.loose location loose
  · exact holds.fits fitting location ((part_loosen_iff apart (by decide)).1 output)

/-- A file is written where the runs have had nothing to do before. -/
theorem simulates_loosen (named : AreNames place) (outer : plan.part place.dropLast = .source) (content : Bytes) :
    Simulates (plan.clearOf place) (plan.loosen place).pairing (FileTask.change (·.write (.ofLocation place) content))
      (FileTask.change (·.write (.ofLocation place) content)) := by
  have takes : (plan.loosen place).Takes place := by
    refine ⟨named, .inr (if_pos rfl), .inl ((part_loosen_iff apart (by decide)).2 outer)⟩
  rintro tree after ⟨⟩ holds ended
  obtain ⟨fits, solid, inside, rfl⟩ := (write_ofLocation_iff holds.sound holds.free named).1 (FileTask.change_ends_iff.1 ended)
  have filled := ne_nil_of_lookup solid
  refine ⟨takes.put fits (holds.loosen apart solid) solid inside content, fun leads => ⟨?_, fun other ⟨related, solid'⟩ => ?_⟩⟩
  · have leads : plan.Leads (tree.put place (.file content)) :=
      ⟨fun location entry old there before => leads.alike location entry old there ((spare_loosen apart location).trans before),
        fun location way => leads.way location ((part_loosen_iff apart (by decide)).2 way)⟩
    refine ⟨leads.of_put filled fun old there => ?_, solid⟩
    simp only [reduceCtorEq, iff_false]
    rintro rfl
    exact solid there
  · have inside' := related.present (.inl outer) inside
    have held := takes.put fits (related.holds.loosen apart solid') solid' inside' content
    refine ⟨_, FileTask.change_ends_iff.2 ((write_ofLocation_iff related.holds.sound related.holds.free named).2
      ⟨fits, solid', inside', rfl⟩), held, ?_, fun location output => ?_, fun location loose => ?_, fun location way => ?_⟩
    · rw [shared_put, shared_put, shared_loosen apart, shared_loosen apart, related.shared]
    · rw [other.lookup_put filled, tree.lookup_put filled]
      split
      · rfl
      · exact related.output location ((part_loosen_iff apart (by decide)).1 output)
    · rw [other.lookup_put filled, tree.lookup_put filled]
      split
      · rfl
      · next away =>
        rw [part_loosen, if_neg away] at loose
        exact related.loose location loose
    · have plays := (part_loosen_iff apart (by decide)).1 way
      rw [other.lookup_put filled, if_neg (by rintro rfl; simp [apart] at plays)]
      exact related.way location plays

end Plan

/-- A file is copied over another location just when it can be read, and written there. -/
theorem copyOver_ends_iff (sound : tree.WellFormed) (free : tree.LinkFree) {place : Location} {after : FileTree} {refusal : FileError}
    (named : AreNames location) (named' : AreNames place) (apart : location ≠ place) :
    (if tree.isSame (.ofLocation location) (.ofLocation place) then throw refusal
      else match tree.read (.ofLocation location) with
      | .error e => throw e
      | .ok content => FileTask.change (·.write (.ofLocation place) content) : FileTask Unit) tree = (.ok (), after) ↔
      ∃ content, tree.read (.ofLocation location) = .ok content ∧ tree.write (.ofLocation place) content = .ok after := by
  have other : tree.isSame (.ofLocation location) (.ofLocation place) = false := by
    unfold isSame
    split
    · next here _ there _ leads leads' =>
      obtain ⟨-, rfl, -⟩ := (follow_entry_iff sound free named).1 leads
      obtain ⟨-, rfl, -⟩ := (follow_entry_iff sound free named').1 leads'
      simpa using apart
    · rfl
  rw [if_neg (by simp [other])]
  rcases read : tree.read (.ofLocation location) with e | content
  · simp only [reduceCtorEq, false_and, exists_false, iff_false]
    intro ended
    cases (Prod.mk.inj ended).1
  · simp [FileTask.change_ends_iff]

/-- A file is copied just when it can be read, and written where it comes to stand. -/
theorem copyFile_ends_iff (sound : tree.WellFormed) (free : tree.LinkFree) {nested : Bool} {target : Location} {after : FileTree}
    (named : AreNames (outer ++ [name])) (named' : AreNames target) (apart : outer ++ [name] ≠ target)
    (apart' : outer ++ [name] ≠ target ++ [name]) :
    FileTask.copyFile nested (.ofLocation (outer ++ [name])) (.ofLocation target) tree = (.ok (), after) ↔
      ∃ content, tree.read (.ofLocation (outer ++ [name])) = .ok content ∧
        tree.write (.ofLocation (target ++ landing tree target [] name)) content = .ok after := by
  have valid : IsEntryName name := (areNames_cons.1 (areNames_append.1 named).2).1
  have last : (Path.ofLocation (outer ++ [name])).name = name := by simp [Path.name, Path.ofLocation]
  have named'' : AreNames (target ++ [name]) := areNames_append.2 ⟨named', by simpa using valid⟩
  unfold FileTask.copyFile
  rw [get_bind_apply, last, Path.child_ofLocation valid]
  by_cases directory : tree.lookup target = some .directory
  · have place : landing tree target [] name = [name] := if_pos (by rwa [List.append_nil])
    rw [place]
    by_cases fits : Fits target
    · rw [(isDirectory_ofLocation_iff sound free named').2 ⟨fits, directory⟩]
      exact copyOver_ends_iff sound free named named'' apart'
    · have refused : ¬ tree.isDirectory (.ofLocation target) = true := fun there =>
        fits ((isDirectory_ofLocation_iff sound free named').1 there).1
      rw [Bool.not_eq_true] at refused
      rw [refused]
      refine (copyOver_ends_iff sound free named named' apart).trans ⟨?_, ?_⟩
      · rintro ⟨content, -, written⟩
        exact absurd ((write_ofLocation_iff sound free named').1 written).1 fits
      · rintro ⟨content, -, written⟩
        exact absurd ((write_ofLocation_iff sound free named'').1 written).1.above fits
  · have place : landing tree target [] name = [] := if_neg (by rwa [List.append_nil])
    have refused : ¬ tree.isDirectory (.ofLocation target) = true := fun there =>
      directory ((isDirectory_ofLocation_iff sound free named').1 there).2
    rw [Bool.not_eq_true] at refused
    rw [place, List.append_nil, refused]
    exact copyOver_ends_iff sound free named named' apart

/-- A file that can be read by both runs is copied by both. -/
theorem Plan.repeats_copyFile (nested : Bool) {target : Location} (known : plan.Known (outer ++ [name])) (named : AreNames (outer ++ [name]))
    (receives : plan.Receives target) (apart : outer ++ [name] ≠ target) (apart' : outer ++ [name] ≠ target ++ [name]) :
    plan.Repeats (FileTask.copyFile nested (.ofLocation (outer ++ [name])) (.ofLocation target))
      (FileTask.copyFile nested (.ofLocation (outer ++ [name])) (.ofLocation target)) := by
  have valid : IsEntryName name := (areNames_cons.1 (areNames_append.1 named).2).1
  rintro tree after ⟨⟩ holds ended
  obtain ⟨content, read, written⟩ := (copyFile_ends_iff holds.sound holds.free named receives.reaches.named apart apart').1 ended
  have takes : plan.Takes (target ++ landing tree target [] name) := by
    unfold landing
    split
    · exact (receives.child valid).takes
    · simpa using receives.takes
  obtain ⟨held, carried⟩ := repeats_write takes content holds (FileTask.change_ends_iff.2 written)
  refine ⟨held, fun leads => ?_⟩
  obtain ⟨leads', now⟩ := carried leads
  refine ⟨leads', fun other related => ?_⟩
  obtain ⟨after', written', related'⟩ := now other related
  have same : landing other target [] name = landing tree target [] name := by
    refine landing_congr ?_ name
    rw [List.append_nil]
    by_cases directory : tree.lookup target = some .directory
    · exact iff_of_true (related.present receives.takes.files.known directory) directory
    · refine iff_of_false (related.not_directory receives.takes.files.known directory (@Leads.of_file plan _ target content leads ?_)) directory
      rw [landing_of_not_directory (by rwa [List.append_nil]), List.append_nil] at written
      obtain ⟨-, solid, -, rfl⟩ := (write_ofLocation_iff holds.sound holds.free receives.reaches.named).1 written
      rw [tree.lookup_put (ne_nil_of_lookup solid), if_pos rfl]
  refine ⟨after', (copyFile_ends_iff related.holds.sound related.holds.free named receives.reaches.named apart apart').2
    ⟨content, related.read holds known named read, ?_⟩, related'⟩
  rw [same]
  exact FileTask.change_ends_iff.1 written'

end FileTree

end WasmPackaging
