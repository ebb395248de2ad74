import WasmPackaging.Bundling.Bundler
import WasmPackaging.Proofs.Bundling.Steps

/-!
A build leaves no trace of its staging. However staging ends, it changes nothing outside the stage root
(`Stager.stage_leaves`); the directory that a build is staged in stands where nothing stood, and nothing
stands there in the end.
-/

namespace WasmPackaging

open Text FileTree

theorem FileTask.makeFresh_apply (path : Path) (tree : FileTree) :
    FileTask.makeFresh path tree =
      match tree.vacancy path with
      | .ok location => (.ok location, tree.put location .directory)
      | .error error => (.error error, tree) := by
  have run : FileTask.makeFresh path tree = (match tree.vacancy path with
      | .ok location => do
        set (tree.put location .directory)
        return location
      | .error error => throw error : FileTask Location) tree := rfl
  rw [run]
  cases tree.vacancy path <;> rfl

namespace Bundling

namespace Stager

variable {s : Stager} {base : Location} {before now : FileTree}

/-- Whatever a module leads to is proper. -/
theorem proper_of_resolved {module : Location} {path : Path} (area : Area s.root base before now)
    (project : before.lookup s.project = some .directory)
    (resolved : s.resolveModule now path = .ok (some module)) : s.Proper module := by
  obtain ⟨content, file⟩ := file_of_resolveModule area.sound resolved
  exact proper_of_file area.sound (area.kept _ project) file

theorem Copies.proper {module : Location} {copy : Path} {state state' : StageState} {after : FileTree}
    {list : List (Piece Mention)} {ways : List (Mention × Route)} {texts : List (List Char)}
    (project : before.lookup s.project = some .directory) (copied : s.copyOf module = .ok copy)
    (copies : s.Copies base before module copy state now list ways texts state' after)
    (queued : ∀ module ∈ state.queue, s.Proper module) : ∀ module ∈ state'.queue, s.Proper module := by
  intro other mem
  rw [copies.queue] at mem
  obtain added | old := List.mem_append.1 mem
  · obtain ⟨⟨found, way⟩, present, leads⟩ := List.mem_filterMap.1 (List.mem_reverse.1 added)
    obtain ⟨files, importClass, area, routed⟩ := copies.routed _ present
    cases way with
    | module location text =>
      obtain rfl : location = other := Option.some.inj leads
      obtain ⟨path, resolved⟩ := (goes_of_route copied routed).resolved
      exact proper_of_resolved area project resolved
    | keep | external | payload => cases leads
  · exact queued other old

theorem Stages.proper {module : Location} {state state' : StageState} {after : FileTree}
    (project : before.lookup s.project = some .directory)
    (stages : s.Stages base before module state now state' after)
    (queued : ∀ module ∈ state.queue, s.Proper module) : ∀ module ∈ state'.queue, s.Proper module := by
  cases stages with
  | text whole _ _ copies => exact copies.proper project (whole ▸ s.copyOf_project _) queued
  | file => exact queued

/-- Staging what is queued changes the area alone. -/
theorem stageQueue_leaves (project : before.lookup s.project = some .directory) (limit : Nat)
    (seen : List Location) (state : StageState) (area : Area s.root base before now)
    (queued : ∀ module ∈ state.queue, s.Proper module) :
    Leaves ((s.stageQueue limit seen).run state) now (fun _ => Area s.root base before)
      (Area s.root base before) := by
  induction limit generalizing seen state now with
  | zero =>
    cases next : state.queue.dropWhile seen.contains with
    | nil =>
      rw [s.stageQueue_done 0 next]
      exact .pure area
    | cons module rest =>
      rw [s.stageQueue_zero next]
      exact .throw area
  | succ limit ih =>
    cases next : state.queue.dropWhile seen.contains with
    | nil =>
      rw [s.stageQueue_done (limit + 1) next]
      exact .pure area
    | cons module rest =>
      have left (other : Location) (mem : other ∈ module :: rest) : s.Proper other :=
        queued other ((List.dropWhile_suffix _).subset (next ▸ mem))
      rw [s.stageQueue_succ next]
      refine .bind ((stageModule_leaves area (left module List.mem_cons_self) _).mono
        (fun result between ⟨kept, stages⟩ => ?_) fun _ h => h)
      exact ih (module :: seen) result.2 kept
        (stages.proper project fun other mem => left other (List.mem_cons_of_mem _ mem))

/-- Staging changes the area alone. -/
theorem stage_leaves (area : Area s.root base before now) (project : before.lookup s.project = some .directory) :
    Leaves s.stage now (fun _ => Area s.root base before) (Area s.root base before) := by
  unfold stage
  refine .get ?_
  split
  · exact .throw area
  · exact .throw area
  · next entry resolved =>
    split
    · exact .throw area
    · refine .bind ((stageQueue_leaves project _ [] _ area ?_).mono (fun result after kept => ?_) fun _ h => h)
      · intro module mem
        obtain rfl := List.mem_singleton.1 mem
        exact proper_of_resolved area project resolved
      · exact .pure kept

end Stager

/-! ## The directory of a build -/

section stageDirectory

variable {tree : FileTree} {outer location : Location} {name : String}

/-- A free place named in a location is named in the directory that the location leads to. -/
theorem vacancy_child (sound : tree.WellFormed) (valid : IsEntryName name)
    (found : tree.vacancy (Path.ofLocation (outer ++ [name])) = .ok location) :
    ∃ n place, tree.Reaches n [] (Path.ofLocation outer).steps place ∧ tree.lookup place = some .directory ∧
      location = place ++ [name] := by
  obtain ⟨fine, vacant, n, enough, reaches⟩ := reaches_of_vacancy sound found
  have steps : (Path.ofLocation (outer ++ [name])).steps = (Path.ofLocation outer).steps ++ [name] := by
    simp [Path.steps, Path.ofLocation, slashed_of_not_mem valid.2.2]
  rw [steps] at reaches
  obtain ⟨m, k, place, sum, before, last⟩ := reaches.split
  refine ⟨m, place, before, ?_⟩
  cases last with
  | stay blank => simp [valid.1] at blank
  | up => exact absurd rfl valid.2.1
  | down step entry later =>
    cases later
    simp [vacant] at entry
  | last inside => exact ⟨inside, rfl⟩
  | @link _ _ _ _ target _ step entry =>
    -- where a free place is asked for, a link at the end is not followed
    have directory := sound.parent place name (by simp [entry])
    have walked := walk_append before (show m ≤ linkLimit by omega) false (List.cons_ne_nil name []) directory
    rw [← steps, walk_step step, entry] at walked
    have located : tree.locate (Path.ofLocation (outer ++ [name])) =
        .ok (.entry (place ++ [name]) (.link target)) := by
      rw [FileTree.locate, fine]
      exact walked
    rw [vacancy, located] at found
    cases found

/-- Nothing stands at a free place, nor below it. -/
theorem vacant_of_vacancy (sound : tree.WellFormed) (valid : IsEntryName name)
    (found : tree.vacancy (Path.ofLocation (outer ++ [name])) = .ok location) :
    location ≠ [] ∧ ∀ parts, tree.lookup (location ++ parts) = none := by
  obtain ⟨-, vacant, -⟩ := reaches_of_vacancy sound found
  obtain ⟨-, place, -, -, rfl⟩ := vacancy_child sound valid found
  refine ⟨List.concat_ne_nil name place, fun parts => ?_⟩
  cases parts with
  | nil => simpa using vacant
  | cons inner parts => exact sound.vacant_below (by simp [vacant]) (List.cons_ne_nil inner parts)

/-- A directory made at a free place is an area in the real project. -/
theorem area_of_vacancy (sound : tree.WellFormed) (valid : IsEntryName name)
    (found : tree.vacancy (Path.ofLocation (outer ++ [name])) = .ok location) :
    Area (Path.ofLocation (outer ++ [name])) location (tree.put location .directory) (tree.put location .directory) ∧
      ∃ place, (tree.put location .directory).resolve (Path.ofLocation outer) = .ok place ∧
        (tree.put location .directory).lookup place = some .directory := by
  obtain ⟨fine, vacant, n, enough, reaches⟩ := reaches_of_vacancy sound found
  obtain ⟨m, place, leads, directory, rfl⟩ := vacancy_child sound valid found
  have sound' : (tree.put (place ++ [name]) .directory).WellFormed := sound.put directory valid (by simp)
  have look := tree.lookup_put (List.concat_ne_nil name place)
  have kept (location : Location) (entry : Entry) (there : tree.lookup location = some entry) :
      (tree.put (place ++ [name]) .directory).lookup location = some entry := by
    rw [look, if_neg]
    · exact there
    · rintro rfl
      simp [vacant] at there
  have made : (tree.put (place ++ [name]) .directory).lookup (place ++ [name]) = some .directory := by
    rw [look, if_pos rfl]
  refine ⟨Area.start sound' (.inl ?_) fun inner => ?_, place, ?_, kept _ _ directory⟩
  · refine (follow_eq_ok_iff sound').2 ⟨fine, n, enough, _, ?_, (found_of_directory made).symm⟩
    exact reaches.mono (fun location entry there _ => kept location entry there) (by simp [made])
  · rw [look, if_neg (by simp)]
    exact sound.vacant_below (by simp [vacant]) (List.cons_ne_nil inner [])
  · have zero : (Path.ofLocation outer).holdsZero = false := by
      have whole := holdsZero_of_pathFault? fine
      simp only [Path.holdsZero, Path.ofLocation, List.any_append, Bool.or_eq_false_iff] at whole ⊢
      exact whole.1
    refine resolve_of_reaches sound' zero (n := m) ?_ (by simp [kept _ _ directory])
    exact leads.mono (fun location entry there _ => kept location entry there) (by simp [kept _ _ directory])

end stageDirectory

/-- The stage of a build changes the area alone, when it is an area in the real project. -/
theorem stage_leaves {project root : Path} (options : BuildOptions) {base place : Location} {before now : FileTree}
    (area : Area root base before now) (real : now.resolve project = .ok place)
    (directory : before.lookup place = some .directory) :
    Leaves (stage project root options) now (fun _ => Area root base before) (Area root base before) := by
  unfold stage FileRun.askFor
  refine .bind (.get ?_)
  simp only [real]
  exact .pure (Stager.stage_leaves (s := ⟨place, root, options⟩) area directory)

namespace BundlingCommand

variable {τ : Type}

theorem isEntryName_stageName (token : StageToken) : IsEntryName (stageName token) := by
  have spelled : (stageName token).toList = ".bindings-pack-stage-".toList ++ token.text.toList := String.toList_append
  have longer (s : String) (short : s.length < 3) : stageName token ≠ s := by
    rintro rfl
    rw [← String.length_toList, spelled, List.length_append] at short
    have front : ".bindings-pack-stage-".toList.length = 21 := by decide
    omega
  refine ⟨by simp [isPart, longer "" (by decide), longer "." (by decide)], longer _ (by decide), fun slash => ?_⟩
  rw [spelled, List.mem_append] at slash
  obtain fixed | drawn := slash
  · exact absurd fixed (by decide)
  · exact absurd (List.all_eq_true.1 token.plain '/' drawn) (by decide)

/-- The command that bundles what was staged. -/
def commandFor (b : BundlingCommand) (options : BuildOptions) (output : Location) (staged : Staged) : Command where
  arguments := buildArguments b.arguments options output staged
  directory := Path.ofLocation b.project
  failure := Failure.bundler

/-- A staged build fails before its command, or it stages the modules and ends as the command does; until
then, nothing but the area was changed. -/
theorem bundleStaged_cases (b : BundlingCommand) (run : Runner τ) (options : BuildOptions) (token : StageToken) (world : World τ)
    {base place : Location} {before : FileTree}
    (area : Area (Path.ofLocation (b.stageLocation token)) base before world.files)
    (real : world.files.resolve (Path.ofLocation b.project) = .ok place)
    (directory : before.lookup place = some .directory) :
    ∃ files, Area (Path.ofLocation (b.stageLocation token)) base before files ∧
      ((∃ failure, b.bundleStaged run options token world = (.error failure, { world with files })) ∨
        ∃ staged output, stage (Path.ofLocation b.project) (Path.ofLocation (b.stageLocation token)) options world.files =
            (.ok staged, files) ∧
          b.bundleStaged run options token world =
            ((run (b.commandFor options output staged) { world with files }).1.map fun _ => (),
              (run (b.commandFor options output staged) { world with files }).2)) := by
  have kept := stage_leaves options area real directory
  unfold bundleStaged
  simp only [bind_apply, liftM, Run.onFiles_apply]
  cases staging : stage (Path.ofLocation b.project) (Path.ofLocation (b.stageLocation token)) options world.files with
  | mk result files =>
    cases result with
    | error failure => exact ⟨files, kept.of_error staging, .inl ⟨failure, rfl⟩⟩
    | ok staged =>
      refine ⟨files, kept.of_ok staging, ?_⟩
      simp only [FileRun.askFor_apply]
      cases files.resolve options.outputFile with
      | error failure => exact .inl ⟨.unresolvable failure, rfl⟩
      | ok output =>
        refine .inr ⟨staged, output, rfl, ?_⟩
        cases ran : run (b.commandFor options output staged) { world with files } with
        | mk result after =>
          unfold commandFor at ran
          simp only [mapError_ok, ran]
          cases result <;> rfl

theorem build_apply (b : BundlingCommand) (run : Runner τ) (options : BuildOptions) (token : StageToken) (world : World τ) :
    b.build run options token world =
      match world.files.vacancy (Path.ofLocation (b.stageLocation token)) with
      | .ok stage =>
        Run.always (·.eraseBelow stage) (b.bundleStaged run options token)
          { world with files := world.files.put stage .directory }
      | .error error => (.error (.refused error), world) := by
  unfold build
  simp only [bind_apply, liftM, monadLift, MonadLift.monadLift]
  simp only [Run.onFiles, adapt_apply, FileTask.makeFresh_apply]
  cases world.files.vacancy (Path.ofLocation (b.stageLocation token)) <;> rfl

/-- A build leaves no trace of its staging. Either it fails and everything is as it was; or the modules are
staged, which changes nothing outside a directory at a place where nothing stood, the command is run, and
what it leaves is all that is left, without that directory. -/
theorem build_leaves_no_trace (b : BundlingCommand) (run : Runner τ) (options : BuildOptions) (token : StageToken) (world : World τ)
    (sound : world.files.WellFormed) :
    (∃ failure, b.build run options token world = (.error failure, world)) ∨
      ∃ place files staged output, world.files.vacancy (Path.ofLocation (b.stageLocation token)) = .ok place ∧
        stage (Path.ofLocation b.project) (Path.ofLocation (b.stageLocation token)) options
          (world.files.put place .directory) = (.ok staged, files) ∧
        files.eraseBelow place = world.files ∧
        b.build run options token world =
          ((run (b.commandFor options output staged) { world with files }).1.map fun _ => (),
            { (run (b.commandFor options output staged) { world with files }).2 with
              files := (run (b.commandFor options output staged) { world with files }).2.files.eraseBelow place }) ∧
        ∀ parts, world.files.lookup (place ++ parts) = none ∧
          (b.build run options token world).2.files.lookup (place ++ parts) = none := by
  rw [build_apply]
  cases found : world.files.vacancy (Path.ofLocation (b.stageLocation token)) with
  | error e => exact .inl ⟨_, rfl⟩
  | ok place =>
    simp only [Run.run_always]
    obtain ⟨area, project, real, directory⟩ := area_of_vacancy sound (isEntryName_stageName token) found
    obtain ⟨filled, vacant⟩ := vacant_of_vacancy sound (isEntryName_stageName token) found
    obtain ⟨files, kept, ends⟩ := b.bundleStaged_cases run options token
      { world with files := world.files.put place .directory } area real directory
    have before : files.eraseBelow place = world.files := by
      have erased := eraseBelow_put world.files place [] .directory
      rw [List.append_nil] at erased
      rw [kept.outside, erased, eraseBelow_of_vacant filled vacant]
    obtain ⟨failure, ends⟩ | ⟨staged, output, staging, ends⟩ := ends
    · refine .inl ⟨failure, ?_⟩
      rw [ends]
      simp only [before]
    · refine .inr ⟨place, files, staged, output, rfl, staging, before, ?_, fun parts => ⟨vacant parts, ?_⟩⟩
      · rw [ends]
      · rw [ends, lookup_eraseBelow _ filled]
        simp

/-- A project of two modules, one of which imports the other. -/
def pairFiles : FileTree where
  entries := [(["p"], .directory), (["p", "main.js"], .file (encode "import './b.js';\n")),
    (["p", "b.js"], .file (encode "export {};\n"))]
  workingDirectory := ["p"]

/-- What is drawn for its stage. -/
def pairToken : StageToken := ⟨"k3_x9q0z", by decide, by decide⟩

/-- A command that counts its runs, writes its output, and leaves a file among the copies. -/
def pairRunner : Runner Nat := fun _ world =>
  let output := world.files.put ["p", "out.js"] (.file [])
  (.ok "", ⟨output.put ["p", stageName pairToken, "cache"] (.file []), world.tools + 1⟩)

/-- The build of the pair. -/
def pairBuild : Except Failure Unit × World Nat :=
  build ⟨["p"], defaultCommand⟩ pairRunner
    { entryPoint := .ofString "/p/main.js", outputFile := .ofString "/p/out.js" } pairToken ⟨pairFiles, 0⟩

theorem build_leaves_no_trace_pair :
    pairFiles.WellFormed ∧ pairBuild.1.toOption = some () ∧ pairBuild.2.tools = 1 ∧
      pairBuild.2.files.entries = pairFiles.entries ++ [(["p", "out.js"], .file [])] ∧
      ∃ place, ∀ parts, pairBuild.2.files.lookup (place ++ parts) = none := by
  have sound : pairFiles.WellFormed := wellFormed_of_entries (by decide) rfl
  have done : pairBuild.1.toOption = some () := by decide +kernel
  refine ⟨sound, done, by decide +kernel, by decide +kernel, ?_⟩
  obtain ⟨failure, failed⟩ | ⟨place, files, staged, output, -, -, -, -, gone⟩ :=
    build_leaves_no_trace ⟨["p"], defaultCommand⟩ pairRunner
      { entryPoint := .ofString "/p/main.js", outputFile := .ofString "/p/out.js" } pairToken ⟨pairFiles, 0⟩ sound
  · have same : pairBuild = (.error failure, ⟨pairFiles, 0⟩) := failed
    simp [same, Except.toOption] at done
  · exact ⟨place, fun parts => (gone parts).2⟩

end BundlingCommand

end Bundling

end WasmPackaging
