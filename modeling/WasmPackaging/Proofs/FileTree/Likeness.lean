import WasmPackaging.Proofs.FileTree.Filling
import WasmPackaging.Proofs.Simulation

/-!
Trees that two runs change alike. A plan gives each location a part to play: the runs read it, change it alike, make a
directory of it, or have nothing to do with it. The trees of the runs are paired while they agree on what is read, and where
the one has nothing among what is changed, the other may have an entry from before (`Plan.Relates`). A change that both runs
make keeps the trees paired (`Relates.put`, `Relates.erase`, `Relates.fill`), if an entry from before is a directory just
where the first run comes to have one (`Plan.Leads`).
-/

namespace WasmPackaging.FileTree

open Text

/-! ## Parts of lists -/

theorem filter_set_of_keep (keep : Location → Bool) {location : Location} (kept : keep location = true) (entry : Entry)
    (entries : List (Location × Entry)) :
    (set location entry entries).filter (fun e => keep e.1) = set location entry (entries.filter fun e => keep e.1) := by
  induction entries with
  | nil => simp [set, kept]
  | cons e entries ih =>
    obtain ⟨place, old⟩ := e
    by_cases same : place = location
    · simp [set, same, kept]
    · by_cases held : keep place = true
      · simp [set, same, held, ih]
      · simp [set, same, held, ih]

/-- Trees that have the same entries at some locations agree there. -/
theorem lookup_eq_of_filter_eq {tree other : FileTree} (keep : Location → Bool)
    (same : tree.entries.filter (fun e => keep e.1) = other.entries.filter fun e => keep e.1) {location : Location}
    (kept : keep location = true) : tree.lookup location = other.lookup location := by
  cases location with
  | nil => rfl
  | cons name names =>
    have found (entries : List (Location × Entry)) :
        find? (name :: names) (entries.filter fun e => keep e.1) = find? (name :: names) entries := by
      rw [find?_filter, if_pos kept]
    exact (found _).symm.trans ((congrArg _ same).trans (found _))

/-! ## Plans -/

/-- What two runs have to do with a location. A source is read, and left as it is. What is changed stands in a mirror, which
both trees have alike, or in the output, where the second may have more; a loose file is alike in both trees. On the way
directories are made. -/
inductive Part where
  | source
  | mirror
  | output
  | loose
  | way
  | other
  deriving DecidableEq

/-- The parts that all locations play, what the sources hold, and what the second tree may have in the output where the first
has nothing. -/
structure Plan where
  part : Location → Part
  base : FileTree
  rest : Location → Option Entry
  /-- Whether all that stands in the output can be looked up. -/
  fitting : Prop

namespace Plan

variable (plan : Plan)

/-- The entries of a tree that are sources. -/
def sources (tree : FileTree) : List (Location × Entry) := tree.entries.filter fun e => plan.part e.1 = .source

/-- The entries of a tree that are sources or stand in the mirror. -/
def shared (tree : FileTree) : List (Location × Entry) :=
  tree.entries.filter fun e => plan.part e.1 = .source ∨ plan.part e.1 = .mirror

/-- A location at which both runs may put files and directories. -/
def Writes (location : Location) : Prop := plan.part location = .mirror ∨ plan.part location = .output

/-- A location at which both runs may put files. -/
def Files (location : Location) : Prop := plan.Writes location ∨ plan.part location = .loose

/-- A location at which both trees have the same, but for what the second had before. -/
def Known (location : Location) : Prop := plan.part location = .source ∨ plan.Files location

/-- A location at which both runs may make a directory, or find one. -/
def Passes (location : Location) : Prop :=
  plan.Writes location ∨ plan.part location = .way ∨ plan.part location = .source ∧ plan.base.lookup location = some .directory

/-- What the second tree may have where the first has nothing. -/
def spare (location : Location) : Option Entry := if plan.part location = .output then plan.rest location else none

/-- What holds of the tree of each run. -/
structure Holds (tree : FileTree) : Prop where
  sound : tree.WellFormed
  free : tree.LinkFree
  working : tree.workingDirectory = plan.base.workingDirectory
  sources : plan.sources tree = plan.base.entries
  loose : ∀ location, plan.part location = .loose → tree.lookup location ≠ some .directory
  fits : plan.fitting → ∀ location, plan.part location = .output → tree.lookup location ≠ none → Fits location

/-- What must hold of the tree that the first run comes to, so that the second can follow: where it has an entry and the second
tree had one before, both are directories or neither is, and on the way there are directories. -/
structure Leads (tree : FileTree) : Prop where
  alike : ∀ location entry old, tree.lookup location = some entry → plan.spare location = some old → (entry = .directory ↔ old = .directory)
  way : ∀ location, plan.part location = .way → tree.lookup location = none ∨ tree.lookup location = some .directory

/-- How the tree of the second run is related to that of the first. -/
structure Relates (tree other : FileTree) : Prop where
  holds : plan.Holds other
  shared : plan.shared other = plan.shared tree
  output : ∀ location, plan.part location = .output → other.lookup location = (tree.lookup location).or (plan.rest location)
  loose : ∀ location, plan.part location = .loose → other.lookup location = tree.lookup location
  way : ∀ location, plan.part location = .way → other.lookup location = none ∨ other.lookup location = some .directory

/-- Trees paired by a plan. -/
def pairing : Pairing FileTree := ⟨plan.Holds, plan.Leads, plan.Relates⟩

variable {plan} {tree other : FileTree} {location outer : Location} {name : String} {entry : Entry}

theorem spare_of_output (output : plan.part location = .output) : plan.spare location = plan.rest location := if_pos output

theorem Writes.files (writes : plan.Writes location) : plan.Files location := .inl writes

theorem Writes.known (writes : plan.Writes location) : plan.Known location := .inr (.inl writes)

theorem Files.known (files : plan.Files location) : plan.Known location := .inr files

theorem Files.not_source (files : plan.Files location) : plan.part location ≠ .source := by
  intro source
  obtain (writes | writes) | loose := files
  · simp [source] at writes
  · simp [source] at writes
  · simp [source] at loose

theorem Files.not_way (files : plan.Files location) : plan.part location ≠ .way := by
  intro way
  obtain (writes | writes) | loose := files
  · simp [way] at writes
  · simp [way] at writes
  · simp [way] at loose

theorem Passes.not_loose (passes : plan.Passes location) : plan.part location ≠ .loose := by
  intro loose
  obtain (writes | writes) | way | ⟨source, -⟩ := passes <;> simp_all

theorem Holds.lookup_source (holds : plan.Holds tree) (source : plan.part location = .source) :
    tree.lookup location = plan.base.lookup location := by
  have kept : plan.base.entries.filter (fun e => plan.part e.1 = .source) = plan.base.entries := by
    rw [← holds.sources, Plan.sources, List.filter_filter]
    simp
  refine lookup_eq_of_filter_eq (fun place => decide (plan.part place = .source)) ?_ (by simpa using source)
  exact (holds.sources).trans kept.symm

namespace Relates

variable (related : plan.Relates tree other)

include related

theorem lookup_shared (shared : plan.part location = .source ∨ plan.part location = .mirror) : other.lookup location = tree.lookup location :=
  lookup_eq_of_filter_eq (fun place => decide (plan.part place = .source ∨ plan.part place = .mirror)) related.shared (by simpa using shared)

theorem lookup (known : plan.Known location) : other.lookup location = (tree.lookup location).or (plan.spare location) := by
  obtain source | (mirror | output) | loose := known
  · rw [related.lookup_shared (.inl source), spare, if_neg (by simp [source]), Option.or_none]
  · rw [related.lookup_shared (.inr mirror), spare, if_neg (by simp [mirror]), Option.or_none]
  · rw [related.output _ output, spare, if_pos output]
  · rw [related.loose _ loose, spare, if_neg (by simp [loose]), Option.or_none]

theorem lookup_passes (passes : plan.Passes location) (here : ¬ plan.Writes location) :
    other.lookup location = none ∨ other.lookup location = some .directory := by
  obtain writes | way | ⟨source, directory⟩ := passes
  · exact absurd writes here
  · exact related.way _ way
  · exact .inr ((related.holds.lookup_source source).trans directory)

/-- What the first tree has the second has too. -/
theorem present (known : plan.Known location) (there : tree.lookup location = some entry) : other.lookup location = some entry := by
  rw [related.lookup known, there, Option.some_or]

end Relates

/-! ## What is put -/

theorem shared_put (tree : FileTree) (location : Location) (entry : Entry) :
    plan.shared (tree.put location entry) =
      if plan.part location = .source ∨ plan.part location = .mirror then set location entry (plan.shared tree) else plan.shared tree := by
  split
  · next kept =>
    exact filter_set_of_keep (fun place => decide (plan.part place = .source ∨ plan.part place = .mirror)) (by simpa using kept) _ _
  · next dropped =>
    exact filter_set_of_drop (fun place => decide (plan.part place = .source ∨ plan.part place = .mirror)) (by simpa using dropped) _ _

theorem Holds.put (holds : plan.Holds tree) (inside : tree.lookup outer = some .directory) (valid : IsEntryName name)
    (changes : plan.part (outer ++ [name]) ≠ .source)
    (loose : plan.part (outer ++ [name]) = .loose → entry ≠ .directory) (plain : ∀ target, entry ≠ .link target)
    (covers : tree.lookup (outer ++ [name]) = some .directory → entry = .directory)
    (fits : Fits (outer ++ [name])) : plan.Holds (tree.put (outer ++ [name]) entry) := by
  have look := tree.lookup_put (List.concat_ne_nil name outer)
  constructor
  · exact holds.sound.put inside valid covers
  · intro location target
    rw [look]
    split
    · exact fun same => plain target (Option.some.inj same)
    · exact holds.free location target
  · exact holds.working
  · rw [← holds.sources]
    exact filter_set_of_drop (fun place => decide (plan.part place = .source)) (by simpa using changes) _ _
  · intro location single
    rw [look]
    split
    · next same => exact fun directory => loose (same ▸ single) (Option.some.inj directory)
    · exact holds.loose location single
  · intro fitting location output there
    rw [look] at there
    split at there
    · next same => exact same ▸ fits
    · exact holds.fits fitting location output there

theorem Leads.of_put (filled : location ≠ []) (same : ∀ old, tree.lookup location = some old → (old = .directory ↔ entry = .directory))
    (leads : plan.Leads (tree.put location entry)) : plan.Leads tree := by
  constructor
  · intro place now old there before
    have put := tree.lookup_put filled place entry
    by_cases here : place = location
    · subst here
      rw [if_pos rfl] at put
      exact (same now there).trans (leads.alike place entry old put before)
    · rw [if_neg here] at put
      exact leads.alike place now old (put.trans there) before
  · intro place onWay
    have put := tree.lookup_put filled place entry
    have there := leads.way place onWay
    by_cases here : place = location
    · subst here
      rw [put, if_pos rfl] at there
      rcases before : tree.lookup place with _ | old
      · exact .inl rfl
      · obtain none | directory := there
        · cases none
        · exact .inr (congrArg some ((same old before).2 (Option.some.inj directory)))
    · rwa [put, if_neg here] at there

/-- What both runs put keeps their trees paired. -/
theorem Relates.put (related : plan.Relates tree other) (filled : location ≠ []) (way : plan.part location = .way → entry = .directory)
    (holds : plan.Holds (other.put location entry)) : plan.Relates (tree.put location entry) (other.put location entry) := by
  refine ⟨holds, ?_, fun place output => ?_, fun place loose => ?_, fun place onWay => ?_⟩
  · rw [shared_put, shared_put, related.shared]
  · rw [other.lookup_put filled, tree.lookup_put filled]
    split
    · rfl
    · exact related.output place output
  · rw [other.lookup_put filled, tree.lookup_put filled]
    split
    · rfl
    · exact related.loose place loose
  · rw [other.lookup_put filled]
    split
    · next same => exact .inr (congrArg some (way (same ▸ onWay)))
    · exact related.way place onWay

/-! ## What is erased -/

theorem Holds.erase (holds : plan.Holds tree) (changes : plan.part location ≠ .source) (solid : tree.lookup location ≠ some .directory) :
    plan.Holds (tree.erase location) := by
  have filled : location ≠ [] := by
    rintro rfl
    exact solid rfl
  have look := tree.lookup_erase filled
  constructor
  · exact holds.sound.erase solid
  · intro place target
    rw [look]
    split
    · simp
    · exact holds.free place target
  · exact holds.working
  · rw [← holds.sources, Plan.sources, Plan.sources, FileTree.erase, List.filter_filter]
    refine List.filter_congr fun e mem => ?_
    by_cases same : e.1 = location <;> simp [same, changes]
  · intro place single
    rw [look]
    split
    · simp
    · exact holds.loose place single
  · intro fitting place output there
    rw [look] at there
    split at there
    · exact absurd rfl there
    · exact holds.fits fitting place output there

theorem Leads.of_erase (filled : location ≠ []) (aside : plan.part location ≠ .way) (gone : plan.spare location = none)
    (leads : plan.Leads (tree.erase location)) : plan.Leads tree := by
  constructor
  · intro place now old there before
    have erased := tree.lookup_erase filled place
    by_cases here : place = location
    · rw [here, gone] at before
      cases before
    · rw [if_neg here] at erased
      exact leads.alike place now old (erased.trans there) before
  · intro place onWay
    have there := leads.way place onWay
    have apart : place ≠ location := fun same => aside (same ▸ onWay)
    rwa [tree.lookup_erase filled, if_neg apart] at there

/-- What both runs erase, and the second had not before, keeps their trees paired. -/
theorem Relates.erase (related : plan.Relates tree other) (filled : location ≠ []) (gone : plan.spare location = none)
    (holds : plan.Holds (other.erase location)) : plan.Relates (tree.erase location) (other.erase location) := by
  refine ⟨holds, ?_, fun place output => ?_, fun place loose => ?_, fun place onWay => ?_⟩
  · have swapped (tree : FileTree) : plan.shared (tree.erase location) = (plan.shared tree).filter fun e => e.1 ≠ location := by
      rw [Plan.shared, Plan.shared, FileTree.erase, List.filter_filter, List.filter_filter]
      simp only [Bool.and_comm]
    rw [swapped, swapped, related.shared]
  · rw [other.lookup_erase filled, tree.lookup_erase filled]
    split
    · next same =>
      subst same
      rw [spare_of_output output] at gone
      rw [gone, Option.or_none]
    · exact related.output place output
  · rw [other.lookup_erase filled, tree.lookup_erase filled]
    split
    · rfl
    · exact related.loose place loose
  · rw [other.lookup_erase filled]
    split
    · exact .inl rfl
    · exact related.way place onWay

/-! ## What is filled in -/

theorem Holds.withDirectory (holds : plan.Holds tree) (inside : tree.lookup outer = some .directory) (valid : IsEntryName name)
    (passes : plan.Passes (outer ++ [name])) (fits : Fits (outer ++ [name])) : plan.Holds (tree.withDirectory (outer ++ [name])) := by
  unfold FileTree.withDirectory
  split
  · next vacant =>
    refine holds.put inside valid (fun source => ?_) (fun loose => absurd loose passes.not_loose) (by simp) (fun _ => rfl) fits
    obtain writes | way | ⟨-, directory⟩ := passes
    · exact writes.files.not_source source
    · simp [source] at way
    · rw [← holds.lookup_source source, vacant] at directory
      cases directory
  · exact holds

theorem Leads.of_withDirectory (leads : plan.Leads (tree.withDirectory location)) : plan.Leads tree := by
  unfold FileTree.withDirectory at leads
  split at leads
  · next vacant =>
    have filled : location ≠ [] := by
      rintro rfl
      cases vacant
    exact leads.of_put filled (by simp [vacant])
  · exact leads

/-- A directory stands at a place in the second tree, or nothing does, when the first comes to have one there. -/
theorem Relates.clear_of_passes (related : plan.Relates tree other) (passes : plan.Passes location)
    (clear : tree.lookup location = none ∨ tree.lookup location = some .directory) (leads : plan.Leads (tree.withDirectory location)) :
    other.lookup location = none ∨ other.lookup location = some .directory := by
  by_cases writes : plan.Writes location
  · have made : (tree.withDirectory location).lookup location = some .directory := by
      rw [lookup_withDirectory]
      obtain vacant | directory := clear <;> simp [*]
    rw [related.lookup writes.known]
    obtain vacant | directory := clear
    · rw [vacant, Option.none_or]
      rcases before : plan.spare location with _ | old
      · exact .inl rfl
      · exact .inr (congrArg some ((leads.alike _ _ old made before).1 rfl))
    · exact .inr (by rw [directory, Option.some_or])
  · exact related.lookup_passes passes writes

theorem Relates.withDirectory (related : plan.Relates tree other) (passes : plan.Passes location)
    (clear : tree.lookup location = none ∨ tree.lookup location = some .directory) (leads : plan.Leads (tree.withDirectory location))
    (holds : plan.Holds (other.withDirectory location)) : plan.Relates (tree.withDirectory location) (other.withDirectory location) := by
  have clear' := related.clear_of_passes passes clear leads
  refine ⟨holds, ?_, fun place output => ?_, fun place loose => ?_, fun place onWay => ?_⟩
  · -- a source is a directory already, and what is missing in the mirror is missing in both trees
    by_cases shared : plan.part location = .source ∨ plan.part location = .mirror
    · have same := related.lookup_shared shared
      unfold FileTree.withDirectory
      rw [same]
      split
      · rw [shared_put, shared_put, related.shared]
      · exact related.shared
    · have apart (tree : FileTree) : plan.shared (tree.withDirectory location) = plan.shared tree := by
        unfold FileTree.withDirectory
        split
        · rw [shared_put, if_neg shared]
        · rfl
      rw [apart, apart, related.shared]
  · rw [lookup_withDirectory, lookup_withDirectory]
    by_cases same : place = location
    · subst same
      have there := related.output place output
      obtain vacant | directory := clear <;> obtain vacant' | directory' := clear' <;> simp_all
    · rw [if_neg (by simp [same]), if_neg (by simp [same])]
      exact related.output place output
  · have apart : place ≠ location := fun same => passes.not_loose (same ▸ loose)
    rw [lookup_withDirectory, lookup_withDirectory, if_neg (by simp [apart]), if_neg (by simp [apart])]
    exact related.loose place loose
  · rw [lookup_withDirectory]
    split
    · exact .inr rfl
    · exact related.way place onWay

end Plan

/-- Directories that are filled in keep what holds of the tree of a run. -/
theorem Plan.Holds.fill {plan : Plan} {tree : FileTree} {location : Location} (holds : plan.Holds tree) (named : AreNames location)
    (fits : Fits location) (clear : tree.Clear location) (passes : ∀ outer, outer <+: location → plan.Passes outer) :
    plan.Holds (tree.fill location) := by
  induction location using List.reverseRecOn with
  | nil => exact holds
  | append_singleton outer name ih =>
    obtain ⟨named', valid⟩ := areNames_append.1 named
    rw [fill_append]
    refine (ih named' fits.above clear.above fun place within => passes place (within.trans (List.prefix_append _ _))).withDirectory
      clear.above.lookup_fill_self (by simpa using valid) (passes _ (List.prefix_refl _)) fits

theorem Plan.Leads.of_fill {plan : Plan} {tree : FileTree} {location : Location} (leads : plan.Leads (tree.fill location)) : plan.Leads tree := by
  induction location using List.reverseRecOn with
  | nil => exact leads
  | append_singleton outer name ih =>
    rw [fill_append] at leads
    exact ih leads.of_withDirectory

/-- Directories that the first run fills in can be filled in by the second, and that keeps the trees paired. -/
theorem Plan.Relates.fill {plan : Plan} {tree other : FileTree} {location : Location} (related : plan.Relates tree other)
    (named : AreNames location) (fits : Fits location) (clear : tree.Clear location)
    (passes : ∀ outer, outer <+: location → plan.Passes outer) (leads : plan.Leads (tree.fill location)) :
    other.Clear location ∧ plan.Relates (tree.fill location) (other.fill location) := by
  induction location using List.reverseRecOn with
  | nil =>
    refine ⟨fun outer within => ?_, related⟩
    obtain rfl := List.prefix_nil.1 within
    exact .inr rfl
  | append_singleton outer name ih =>
    obtain ⟨named', valid⟩ := areNames_append.1 named
    have passes' : ∀ place, place <+: outer → plan.Passes place := fun place within => passes place (within.trans (List.prefix_append _ _))
    rw [fill_append] at leads
    obtain ⟨clear', related'⟩ := ih named' fits.above clear.above passes' leads.of_withDirectory
    have beyond : ¬ outer ++ [name] <+: outer := fun within => absurd within.length_le (by simp)
    have last : (tree.fill outer).lookup (outer ++ [name]) = none ∨ (tree.fill outer).lookup (outer ++ [name]) = some .directory := by
      rw [lookup_fill, if_neg fun both => beyond both.1]
      exact clear _ (List.prefix_refl _)
    have whole := passes _ (List.prefix_refl _)
    have last' := related'.clear_of_passes whole last leads
    rw [lookup_fill, if_neg fun both => beyond both.1] at last'
    refine ⟨fun place within => ?_, ?_⟩
    · obtain rfl | within := List.prefix_concat_iff.1 within
      · exact last'
      · exact clear' place within
    · rw [fill_append, fill_append]
      refine related'.withDirectory whole last leads ?_
      exact related'.holds.withDirectory clear'.lookup_fill_self (by simpa using valid) whole fits

end WasmPackaging.FileTree
