import WasmPackaging.Proofs.Targets.LikeEdge

/-!
Building the edge target again. A build that succeeds leaves its sources as they are, and in its output directory nothing
that is in the way of what it publishes. So a build from where it ended goes like it, and publishes the same over what is
there (`buildEdge_twice`).
-/

namespace WasmPackaging.Targets

open Bundling Config Text FileTree FileTree.Plan

variable {τ : Type} {project : Location} {hidden : Location → Bool} {rest : Location → Option Entry} {fitting : Prop} {tree : FileTree}

/-- Files that are the same, wherever they are looked up. -/
structure SameFiles (tree other : FileTree) : Prop where
  lookup : ∀ location, other.lookup location = tree.lookup location
  working : other.workingDirectory = tree.workingDirectory

/-! ## The sources of a tree -/

/-- What holds with the temporary loader among the files that are written holds without it, whatever else is planned. -/
theorem holds_of_loose {base : FileTree} {rest' : Location → Option Entry}
    (holds : (edgePlan project hidden .loose base rest fitting).Holds tree) : (edgePlan project hidden .other base rest' False).Holds tree := by
  refine ⟨holds.sound, holds.free, holds.working, ?_, fun location loose => absurd loose (Layout.plan_ne (by decide) (.inr rfl)), fun never => never.elim⟩
  exact (Layout.sources_plan (by decide) tree).trans ((Layout.sources_plan (by decide) tree).symm.trans holds.sources)

/-- What stands in the way of no build: the loader module is a file. -/
theorem EdgePlanning.of_loader (named : AreNames project) (sound : tree.WellFormed) (free : tree.LinkFree) {module : Bytes}
    (loader : tree.lookup (bindingsDirectory project ++ ["plonk_wasm.js"]) = some (.file module))
    (visible : ∀ outer, outer <+: bindingsDirectory project → hidden outer = false)
    (seen : ∀ source ∈ edgeSources project, ∀ below, hidden (source ++ below) = false)
    (scripts : ∀ outer name, Wildcard.matchesName ("*" ++ ".web" ++ ".js") name = true → rest (edgeDirectory project ++ outer ++ [name]) = none) :
    EdgePlanning project hidden ((edgeLayout project).base hidden tree) rest := by
  have holds : (edgePlan project hidden .other ((edgeLayout project).base hidden tree) rest False).Holds tree :=
    Layout.holds_plan sound free (by decide) fun never => never.elim
  refine ⟨named, fun outer within => ?_, visible, seen, scripts⟩
  have same := holds.lookup_source (Layout.part_source (outside_bindings within) (visible outer within))
  obtain ⟨below, whole⟩ := within
  have there : tree.lookup (outer ++ (below ++ ["plonk_wasm.js"])) ≠ none := by
    rw [← List.append_assoc, whole, loader]
    simp
  exact same.symm.trans (sound.above (by simp) there)

/-! ## What a build finds and leaves -/

section

variable {context : Context τ} (defaults : context.settings = { projectRoot := context.settings.projectRoot })
  (start : context.publisher.root = .ofLocation project) {world after : World τ} {result : TargetResult}
  (resolved : world.files.resolve context.settings.projectRoot = .ok project) (ended : context.buildEdge world = (.ok result, after))

include defaults start resolved ended

/-- A build that succeeds found the loader module. -/
theorem exists_loader_of_buildEdge (sound : world.files.WellFormed) (free : world.files.LinkFree) (named : AreNames project) :
    ∃ module, world.files.lookup (bindingsDirectory project ++ ["plonk_wasm.js"]) = some (.file module) := by
  obtain ⟨-, loader, -⟩ := paths_default defaults start
  rw [Context.buildEdge_apply ⟨project, resolved, start⟩] at ended
  obtain ⟨built, closed, wrapped, -⟩ := bind_ends_iff.1 ended
  obtain ⟨target, between, files, -, steps, -⟩ := Publisher.withTemporary_ends_iff.1 wrapped
  obtain ⟨prepared, first, ran, -⟩ := bind_ends_iff.1 steps
  obtain ⟨text, factory, bundled, ran, -⟩ := Context.prepareLoader_ends ran
  rw [loader] at ran
  exact exists_loader sound free (areNames_bindings named (by decide)) ran

/-- A build that succeeds leaves its entry in the output directory, and no script with the suffix of the platform. -/
theorem published_of_buildEdge : after.files.asksFile (.ofLocation (edgeDirectory project ++ ["index.js"])) = .ok true ∧
    after.files.search (.ofLocation (edgeDirectory project)) ⟨[.anyDepth, .wildcard ("*" ++ ".web" ++ ".js")], false⟩ = .ok [] := by
  obtain ⟨output, -, -⟩ := paths_default defaults start
  have suffix : context.settings.edge.platformSuffix = ".web" := by rw [defaults]
  rw [Context.buildEdge_apply ⟨project, resolved, start⟩] at ended
  obtain ⟨built, closed, wrapped, ended⟩ := bind_ends_iff.1 ended
  obtain ⟨target, between, files, -, steps, -⟩ := Publisher.withTemporary_ends_iff.1 wrapped
  have entry := EdgePlanning.entry_of_edgeSteps defaults start steps
  unfold Context.finishEdge at ended
  obtain ⟨place, checked, verified, ended⟩ := bind_ends_iff.1 ended
  obtain ⟨_, _, reached, reached'⟩ := bind_ends_iff.1 ended
  obtain rfl := reach_ends reached
  obtain rfl := reach_ends reached'
  obtain ⟨verified, -⟩ := Run.onFiles_ends verified
  rw [output, entry, suffix] at verified
  obtain ⟨asked, verified⟩ := verifyOutput_ends_iff.1 verified
  obtain ⟨searched, -, same⟩ := verifyNames_web_ends_iff.1 verified
  rw [same]
  exact ⟨asked, searched⟩

end

/-- Below a location where nothing stands, nothing stands. -/
theorem lookup_eq_none_below (sound : tree.WellFormed) {location place : Location} (vacant : tree.lookup place = none)
    (inside : place <+: location) : tree.lookup location = none := by
  obtain ⟨below, rfl⟩ := inside
  cases below with
  | nil => simpa using vacant
  | cons name below =>
    by_contra there
    have directory := sound.above (List.cons_ne_nil name below) there
    rw [vacant] at directory
    cases directory

/-- The output directory is in the directory for those of all targets. -/
theorem lookup_way_of_edgeDirectory (sound : tree.WellFormed) (directory : tree.lookup (edgeDirectory project) = some .directory) :
    tree.lookup (edgeLayout project).way = some .directory := by
  refine sound.parent _ "cloudflare" ?_
  have whole : (edgeLayout project).way ++ ["cloudflare"] = edgeDirectory project := by simp [edgeLayout, Layout.way, edgeDirectory]
  simp [whole, directory]

/-! ## The second build -/

/-- The plan of a second build: like the first, with what the first has left in the output directory. -/
abbrev againPlan (project : Location) (temporary : Part) (tree once : FileTree) : Plan :=
  edgePlan project (fun _ => false) temporary ((edgeLayout project).base (fun _ => false) tree) once.lookup False

/-- What the first build of a project leaves: its sources, and an output directory without a script that is to be renamed. -/
structure LeavesBuilt (project : Location) (tree once : FileTree) : Prop where
  holds : (edgePlan project (fun _ => false) .loose ((edgeLayout project).base (fun _ => false) tree) (fun _ => none) True).Holds once
  named : AreNames (edgeDirectory project)
  directory : once.lookup (edgeDirectory project) = some .directory
  clean : once.search (.ofLocation (edgeDirectory project)) ⟨[.anyDepth, .wildcard ("*" ++ ".web" ++ ".js")], false⟩ = .ok []

namespace LeavesBuilt

variable {once twice : FileTree} (built : LeavesBuilt project tree once)

include built

theorem not_script {outer : List String} {name : String} (matched : Wildcard.matchesName ("*" ++ ".web" ++ ".js") name = true) :
    once.lookup (edgeDirectory project ++ outer ++ [name]) = none := by
  by_contra filled
  have inside : edgeDirectory project <+: edgeDirectory project ++ outer ++ [name] := (List.prefix_append _ outer).trans (List.prefix_append _ _)
  have fits : Fits (edgeDirectory project ++ outer ++ [name]) := built.holds.fits trivial _ (part_edge inside) filled
  have plain := not_matches_of_search_nil rfl rfl built.holds.sound built.holds.free built.named built.clean rfl fits.above.above
    built.directory fits.above filled
  rw [matched] at plain
  cases plain

theorem leads : (againPlan project .loose tree once).Leads once := by
  refine ⟨fun location entry old present before => ?_, fun location way => .inr ?_⟩
  · unfold spare at before
    split at before
    · rw [Option.some.inj (present.symm.trans before)]
    · cases before
  · exact Layout.way_of_plan (by decide) way ▸ lookup_way_of_edgeDirectory built.holds.sound built.directory

/-- The trees before and after the first build are related when there was no output directory before. -/
theorem relates (sources : (againPlan project .other tree once).Holds tree)
    (empty : ∀ location, edgeDirectory project <+: location → tree.lookup location = none) :
    ((againPlan project .other tree once).clearOf (loaderPlace project)).relates tree once := by
  have holds : (againPlan project .other tree once).Holds once := holds_of_loose built.holds
  refine ⟨⟨holds, ?_, fun location output => ?_, fun location loose => ?_, fun location way => .inr ?_⟩, built.holds.loose _ part_loader⟩
  · rw [Layout.shared_plan (by decide), Layout.shared_plan (by decide), holds.sources, sources.sources]
  · rw [empty location (Layout.output_of_plan (by decide) output), Option.none_or]
    rfl
  · exact absurd loose (Layout.plan_ne (by decide) (.inr rfl))
  · exact Layout.way_of_plan (by decide) way ▸ lookup_way_of_edgeDirectory built.holds.sound built.directory

/-- A second build that goes like the first leaves the same files, for what it publishes is there already. -/
theorem sameFiles (related : (againPlan project .loose tree once).Relates once twice) : SameFiles once twice := by
  have output (location : Location) (inside : edgeDirectory project <+: location) : twice.lookup location = once.lookup location := by
    rw [related.output location (part_edge inside)]
    exact Option.or_self
  refine ⟨fun location => ?_, related.holds.working.trans built.holds.working.symm⟩
  obtain ⟨-, inside⟩ | ⟨part, -⟩ | ⟨-, rfl⟩ | ⟨-, unseen⟩ | ⟨part, -⟩ := (edgeLayout project).part_cases (fun _ => false) .loose location
  · exact output location inside
  · exact related.loose location part
  · have directory : twice.lookup (edgeDirectory project) = some .directory := (output _ (List.prefix_refl _)).trans built.directory
    exact (lookup_way_of_edgeDirectory related.holds.sound directory).trans
      (lookup_way_of_edgeDirectory built.holds.sound built.directory).symm
  · cases unseen
  · exact related.lookup_shared (.inl part)

end LeavesBuilt

variable {context : Context τ} {bundle : BuildOptions → Bytes → Option Bytes} {minified : String → TransformOptions → Option String}
  {files : List (List String × Bytes)} {world once : World τ} {result : TargetResult}

theorem Run.onFiles_ends_iff {α : Type} {act : FileRun α} {world : World τ} {answer : α} {files : FileTree} :
    (∃ tools, (monadLift act : Run τ α) world = (.ok answer, ⟨files, tools⟩)) ↔ act world.files = (.ok answer, files) := by
  rw [Run.onFiles_apply]
  constructor
  · rintro ⟨tools, ended⟩
    obtain ⟨first, second⟩ := Prod.mk.inj ended
    exact Prod.ext first (congrArg World.files second)
  · intro ended
    exact ⟨world.tools, by rw [ended]⟩

/-- What the bundler of the small project makes of a script. -/
def smallOutput (options : BuildOptions) (content : Bytes) : Bytes :=
  if options.outputFile = .ofLocation (loaderPlace ["p"]) then encode Context.smallBundle else content

/-- The output directory that a command names. -/
def outputNamed (command : Command) : Location :=
  if command.arguments.contains "dist/cloudflare-node" then ["p", "dist", "cloudflare-node"] else edgeDirectory ["p"]

/-- Tools that are determined: the bundler bundles the loader and leaves other scripts as they are, and the type check writes the
entry. -/
def determinedContext : Context Unit where
  settings := { projectRoot := .ofString "/p" }
  publisher := ⟨.ofLocation ["p"]⟩
  bundler :=
    { build := fun options => (do
        let content ← FileRun.readBytes options.entryPoint
        (FileTask.change (·.write options.outputFile (smallOutput options content)) : FileTask Unit) : FileRun Unit)
      transform := fun code _ => pure code }
  runner := fun command => (do
    (writeBelow (outputNamed command) [(["index.js"], encode "i")] : FileTask Unit)
    return "" : FileRun String)

theorem determined_small : Determined determinedContext (fun options content => some (smallOutput options content)) fun code _ => some code where
  build := by
    intro options world files
    refine Run.onFiles_ends_iff.trans ?_
    rw [bind_ends_iff]
    constructor
    · rintro ⟨content, between, asked, written⟩
      obtain ⟨read, rfl⟩ := FileRun.askFor_ends_iff.1 asked
      exact ⟨content, _, read, rfl, FileTask.change_ends_iff.1 (adapt_ends_iff.1 written)⟩
    · rintro ⟨content, out, read, same, written⟩
      obtain rfl := Option.some.inj same
      exact ⟨content, world.files, FileRun.askFor_ends_iff.2 ⟨read, rfl⟩, adapt_ends_iff.2 (FileTask.change_ends_iff.2 written)⟩
  transform := by
    intro code options world answer files
    constructor
    · rintro ⟨tools, ended⟩
      obtain ⟨same, rfl⟩ := Prod.mk.inj ended
      exact ⟨congrArg some (Except.ok.inj same), rfl⟩
    · rintro ⟨same, rfl⟩
      obtain rfl := Option.some.inj same
      exact ⟨world.tools, rfl⟩

theorem checksBy_small (command : Command) :
    ChecksBy (outputNamed command) [(["index.js"], encode "i")] (determinedContext.runner command) := by
  intro world files
  have ran (answer : String) : (∃ tools, determinedContext.runner command world = (.ok answer, ⟨files, tools⟩)) ↔ _ := Run.onFiles_ends_iff
  simp only [ran, bind_ends_iff]
  constructor
  · rintro ⟨answer, ⟨⟩, between, written, ended⟩
    obtain ⟨-, rfl⟩ := Prod.mk.inj ended
    exact adapt_ends_iff.1 written
  · intro written
    exact ⟨"", (), files, adapt_ends_iff.2 written, rfl⟩

theorem filesBelow_small : FilesBelow [(["index.js"], encode "i")] := by
  intro file mem
  obtain rfl := List.mem_singleton.1 mem
  exact ⟨by simp, by decide⟩

theorem buildEdge_returns_determined : (determinedContext.buildEdge ⟨Context.smallProject [], ()⟩).1.toOption.isSome = true := by
  decide +kernel

end WasmPackaging.Targets
