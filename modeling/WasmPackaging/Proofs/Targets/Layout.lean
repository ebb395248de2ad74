import WasmPackaging.Proofs.FileTree.LikeTasks

/-!
Where a target writes. A target has its output directory beside those of the others, and some files among the sources
(`Layout`). All other locations are sources of its builds, or are hidden from them: two builds whose trees differ there go
alike all the same.
-/

namespace WasmPackaging.Targets

open FileTree FileTree.Plan

/-- Where a target writes in a project: in a directory of its own, and in some places among the sources. -/
structure Layout where
  project : Location
  name : String
  beside : Location → Bool
  inside : ∀ location, beside location = true → ∃ below, location = project ++ "src" :: below

namespace Layout

/-- The output directory of a target. -/
def output (layout : Layout) : Location := layout.project ++ ["dist", layout.name]

/-- The directory in which the output directories are. -/
def way (layout : Layout) : Location := layout.project ++ ["dist"]

/-- A location at which a target does not write. -/
def Outside (layout : Layout) (location : Location) : Prop :=
  ¬ layout.output <+: location ∧ layout.beside location = false ∧ location ≠ layout.way

variable {layout : Layout} {hidden : Location → Bool} {scratch : Part} {files tree other : FileTree} {rest : Location → Option Entry}
  {fitting : Prop} {location : Location}

theorem not_output_of_beside (beside : layout.beside location = true) : ¬ layout.output <+: location := by
  obtain ⟨below, rfl⟩ := layout.inside location beside
  simp [output]

theorem not_beside_way : layout.beside layout.way = false := by
  by_contra beside
  obtain ⟨below, same⟩ := layout.inside _ (Bool.not_eq_false _ ▸ beside)
  simp [way] at same

theorem not_output_way : ¬ layout.output <+: layout.way := by simp [output, way]

/-- On the way to a source nothing is written, unless it is beside the sources. -/
theorem outside_of_within {below : List String} (within : location <+: layout.project ++ "src" :: below)
    (clear : layout.beside location = false) : layout.Outside location := by
  refine ⟨fun inside => ?_, clear, ?_⟩
  · have same := (List.prefix_append_right_inj _).1 (inside.trans within)
    simp at same
  · rintro rfl
    have same := (List.prefix_append_right_inj _).1 within
    simp at same

/-! ## Plans -/

/-- The part that a location plays in the builds of a target, when some locations are hidden from them. What is beside the
sources may play different parts. -/
def part (layout : Layout) (hidden : Location → Bool) (scratch : Part) (location : Location) : Part :=
  if layout.output <+: location then .output
  else if layout.beside location then scratch
  else if location = layout.way then .way
  else if hidden location then .other
  else .source

/-- The plan of the builds of a target. -/
def plan (layout : Layout) (hidden : Location → Bool) (scratch : Part) (files : FileTree) (rest : Location → Option Entry) (fitting : Prop) :
    Plan where
  part := layout.part hidden scratch
  base := files
  rest
  fitting

theorem part_output (inside : layout.output <+: location) : layout.part hidden scratch location = .output := if_pos inside

theorem part_beside (beside : layout.beside location = true) : layout.part hidden scratch location = scratch := by
  rw [part, if_neg (not_output_of_beside beside), if_pos beside]

theorem part_way : layout.part hidden scratch layout.way = .way := by
  rw [part, if_neg not_output_way, if_neg (by simp [not_beside_way]), if_pos rfl]

theorem part_source (outside : layout.Outside location) (visible : hidden location = false) : layout.part hidden scratch location = .source := by
  obtain ⟨off, clear, apart⟩ := outside
  rw [part, if_neg off, if_neg (by simp [clear]), if_neg apart, if_neg (by simp [visible])]

/-- The part of a location, case by case. -/
theorem part_cases (layout : Layout) (hidden : Location → Bool) (scratch : Part) (location : Location) :
    (layout.part hidden scratch location = .output ∧ layout.output <+: location) ∨
      (layout.part hidden scratch location = scratch ∧ layout.beside location = true) ∨
      (layout.part hidden scratch location = .way ∧ location = layout.way) ∨
      (layout.part hidden scratch location = .other ∧ hidden location = true) ∨
      (layout.part hidden scratch location = .source ∧ layout.Outside location ∧ hidden location = false) := by
  unfold part
  split
  · next inside => exact .inl ⟨rfl, inside⟩
  · next off =>
    split
    · next beside => exact .inr (.inl ⟨rfl, beside⟩)
    · next clear =>
      split
      · next same => exact .inr (.inr (.inl ⟨rfl, same⟩))
      · next apart =>
        split
        · next unseen => exact .inr (.inr (.inr (.inl ⟨rfl, unseen⟩)))
        · next visible => exact .inr (.inr (.inr (.inr ⟨rfl, ⟨off, by simpa using clear, apart⟩, by simpa using visible⟩)))

theorem output_of_plan (apart : scratch ≠ .output) (output : (layout.plan hidden scratch files rest fitting).part location = .output) :
    layout.output <+: location := by
  obtain ⟨-, inside⟩ | ⟨part, -⟩ | ⟨part, -⟩ | ⟨part, -⟩ | ⟨part, -⟩ := layout.part_cases hidden scratch location
  · exact inside
  · exact absurd (part.symm.trans output) apart
  all_goals cases part.symm.trans output

theorem way_of_plan (apart : scratch ≠ .way) (way : (layout.plan hidden scratch files rest fitting).part location = .way) :
    location = layout.way := by
  obtain ⟨part, -⟩ | ⟨part, -⟩ | ⟨-, same⟩ | ⟨part, -⟩ | ⟨part, -⟩ := layout.part_cases hidden scratch location
  · cases part.symm.trans way
  · exact absurd (part.symm.trans way) apart
  · exact same
  all_goals cases part.symm.trans way

/-- What is a mirror or a loose file is so beside the sources alone. -/
theorem plan_ne {part : Part} (apart : scratch ≠ part) (never : part = .mirror ∨ part = .loose) :
    (layout.plan hidden scratch files rest fitting).part location ≠ part := by
  intro same
  obtain ⟨plays, -⟩ | ⟨plays, -⟩ | ⟨plays, -⟩ | ⟨plays, -⟩ | ⟨plays, -⟩ := layout.part_cases hidden scratch location
  · obtain rfl | rfl := never <;> cases plays.symm.trans same
  · exact apart (plays.symm.trans same)
  all_goals obtain rfl | rfl := never <;> cases plays.symm.trans same

/-- What is beside the sources is not among them, whatever part it plays. -/
theorem part_source_iff (apart : scratch ≠ .source) : layout.part hidden scratch location = .source ↔ layout.part hidden .other location = .source := by
  unfold part
  split
  · rfl
  · split
    · simp [apart]
    · rfl

/-- The output directory can be made, and all can be written below it. -/
theorem lays (named : AreNames layout.project) (valid : IsEntryName layout.name)
    (above : ∀ outer, outer <+: layout.project → hidden outer = false ∧ files.lookup outer = some .directory) :
    (layout.plan hidden scratch files rest fitting).Lays layout.output := by
  have whole : layout.output = layout.way ++ [layout.name] := by simp [output, way]
  refine ⟨⟨areNames_append.2 ⟨named, areNames_cons.2 ⟨by decide, areNames_cons.2 ⟨valid, areNames_nil⟩⟩⟩, fun outer within => ?_⟩,
    fun below => .inr (part_output (List.prefix_append _ _))⟩
  rw [whole] at within
  obtain rfl | within := List.prefix_concat_iff.1 within
  · rw [← whole]
    exact .inl (.inr (part_output (List.prefix_refl _)))
  · obtain rfl | within := List.prefix_concat_iff.1 within
    · exact .inr (.inl part_way)
    · obtain ⟨visible, directory⟩ := above outer within
      refine .inr (.inr ⟨part_source (@outside_of_within layout outer [] (within.trans (List.prefix_append _ _)) ?_) visible, directory⟩)
      by_contra beside
      obtain ⟨below, rfl⟩ := layout.inside outer (Bool.not_eq_false _ ▸ beside)
      have long := within.length_le
      rw [List.length_append, List.length_cons] at long
      omega

/-! ## The sources of a tree -/

/-- The files that the builds of a target read. -/
def base (layout : Layout) (hidden : Location → Bool) (tree : FileTree) : FileTree where
  entries := tree.entries.filter fun e => layout.part hidden .other e.1 = .source
  workingDirectory := tree.workingDirectory

theorem sources_plan (apart : scratch ≠ .source) (tree : FileTree) :
    (layout.plan hidden scratch files rest fitting).sources tree = (layout.base hidden tree).entries :=
  List.filter_congr fun _ _ => decide_eq_decide.2 (part_source_iff apart)

theorem holds_plan (sound : tree.WellFormed) (free : tree.LinkFree) (apart : scratch ≠ .source ∧ scratch ≠ .loose ∧ scratch ≠ .output)
    (fits : fitting → ∀ location, layout.output <+: location → tree.lookup location ≠ none → Fits location) :
    (layout.plan hidden scratch (layout.base hidden tree) rest fitting).Holds tree := by
  refine ⟨sound, free, rfl, sources_plan apart.1 tree, fun location loose => absurd loose (plan_ne apart.2.1 (.inr rfl)), ?_⟩
  exact fun fitted location output => fits fitted location (output_of_plan apart.2.2 output)

/-- Without a mirror both trees share just the sources. -/
theorem shared_plan (apart : scratch ≠ .mirror) (tree : FileTree) :
    (layout.plan hidden scratch files rest fitting).shared tree = (layout.plan hidden scratch files rest fitting).sources tree := by
  refine List.filter_congr fun e _ => ?_
  have plays : (layout.plan hidden scratch files rest fitting).part e.1 ≠ .mirror := plan_ne apart (.inl rfl)
  simp [plays]

/-! ## What is left as it is -/

/-- A tree has in all places at which a target does not write what another has there. -/
structure Leaves (layout : Layout) (tree other : FileTree) : Prop where
  same : (layout.base (fun _ => false) other).entries = (layout.base (fun _ => false) tree).entries
  working : other.workingDirectory = tree.workingDirectory

theorem Leaves.filter_eq (leaves : layout.Leaves tree other) {keep : Location → Bool} (kept : ∀ location, keep location = true → layout.Outside location) :
    other.entries.filter (fun e => keep e.1) = tree.entries.filter fun e => keep e.1 := by
  have twice (tree : FileTree) : tree.entries.filter (fun e => keep e.1) =
      (layout.base (fun _ => false) tree).entries.filter fun e => keep e.1 := by
    rw [base, List.filter_filter]
    refine List.filter_congr fun e _ => ?_
    by_cases held : keep e.1 = true
    · have source : layout.part (fun _ => false) .other e.1 = .source := part_source (kept _ held) rfl
      simp [held, source]
    · simp [held]
  rw [twice other, twice tree, leaves.same]

theorem Leaves.lookup (leaves : layout.Leaves tree other) (outside : layout.Outside location) : other.lookup location = tree.lookup location := by
  refine lookup_eq_of_filter_eq (fun place => decide (layout.part (fun _ => false) .other place = .source)) leaves.same ?_
  simpa using part_source outside rfl

/-- A build that keeps its sources leaves all as it is where it does not write. -/
theorem leaves_of_holds (apart : scratch ≠ .source)
    (holds : (layout.plan (fun _ => false) scratch (layout.base (fun _ => false) tree) rest fitting).Holds other) : layout.Leaves tree other :=
  ⟨(sources_plan apart other).symm.trans holds.sources, holds.working⟩

theorem Leaves.symm (leaves : layout.Leaves tree other) : layout.Leaves other tree := ⟨leaves.same.symm, leaves.working.symm⟩

/-- Where nothing was before, the second run can follow when the way is a directory. -/
theorem leads_plan (apart : scratch ≠ .way) (there : tree.lookup layout.way = some .directory) :
    (layout.plan hidden scratch files (fun _ => none) fitting).Leads tree := by
  refine ⟨fun location entry old _ before => ?_, fun location onWay => .inr (way_of_plan apart onWay ▸ there)⟩
  unfold spare at before
  split at before <;> cases before

/-! ## Two targets in a project -/

/-- Whether a target writes at a location. -/
def covers (layout : Layout) (location : Location) : Bool := decide (layout.output <+: location) || layout.beside location

theorem outside_iff : layout.Outside location ↔ layout.covers location = false ∧ location ≠ layout.way := by
  simp [Outside, covers, and_assoc]

theorem covers_way : layout.covers layout.way = false := by simp [covers, not_output_way, not_beside_way]

/-- Two targets in a project, neither of which writes where the other does. -/
structure Apart (layout other : Layout) : Prop where
  project : other.project = layout.project
  outside : ∀ location, layout.covers location = true → other.Outside location

namespace Apart

variable {other : Layout} (apart : layout.Apart other)

include apart

theorem way : other.way = layout.way := by rw [Layout.way, Layout.way, apart.project]

theorem symm : other.Apart layout := by
  refine ⟨apart.project.symm, fun location covered => outside_iff.2 ⟨?_, ?_⟩⟩
  · by_contra covered'
    have outside := outside_iff.1 (apart.outside location (by simpa using covered'))
    rw [covered] at outside
    cases outside.1
  · rintro rfl
    rw [← apart.way, covers_way] at covered
    cases covered

/-- What the other target changes is hidden from the builds of the one: the trees before and after are related. -/
theorem relates {tree now : FileTree} (leaves : other.Leaves tree now) (sound : now.WellFormed) (free : now.LinkFree)
    (way : now.lookup layout.way = none ∨ now.lookup layout.way = some .directory)
    (plays : scratch ≠ .source ∧ scratch ≠ .loose ∧ scratch ≠ .output ∧ scratch ≠ .way) :
    (layout.plan other.covers scratch (layout.base other.covers tree) (fun _ => none) False).Relates tree now := by
  have outside (location : Location) (part : Part) (known : part = .source ∨ part = .mirror ∨ part = .output)
      (same : layout.part other.covers scratch location = part) : other.Outside location := by
    obtain ⟨-, inside⟩ | ⟨-, beside⟩ | ⟨part', -⟩ | ⟨part', -⟩ | ⟨-, outside, visible⟩ := layout.part_cases other.covers scratch location
    · exact apart.outside location (by simp [covers, inside])
    · exact apart.outside location (by simp [covers, beside])
    · rw [← same, part'] at known
      simp at known
    · rw [← same, part'] at known
      simp at known
    · exact outside_iff.2 ⟨visible, fun onWay => outside.2.2 (onWay.trans apart.way)⟩
  have sources : (layout.plan other.covers scratch (layout.base other.covers tree) (fun _ => none) False).sources now =
      (layout.plan other.covers scratch (layout.base other.covers tree) (fun _ => none) False).sources tree :=
    leaves.filter_eq fun location kept => outside location _ (.inl rfl) (of_decide_eq_true kept)
  refine ⟨⟨sound, free, leaves.working, sources.trans (sources_plan plays.1 tree),
    fun location loose => absurd loose (plan_ne plays.2.1 (.inr rfl)), fun never => never.elim⟩, ?_, fun location output => ?_,
    fun location loose => absurd loose (plan_ne plays.2.1 (.inr rfl)), fun location onWay => ?_⟩
  · refine @Leaves.filter_eq other tree now leaves
      (fun location => decide (layout.part other.covers scratch location = .source ∨ layout.part other.covers scratch location = .mirror))
      fun location kept => ?_
    obtain source | mirror := of_decide_eq_true kept
    · exact outside location _ (.inl rfl) source
    · exact outside location _ (.inr (.inl rfl)) mirror
  · rw [leaves.lookup (outside location _ (.inr (.inr rfl)) output)]
    exact Option.or_none.symm
  · exact way_of_plan plays.2.2.2 onWay ▸ way

end Apart

end Layout

end WasmPackaging.Targets
