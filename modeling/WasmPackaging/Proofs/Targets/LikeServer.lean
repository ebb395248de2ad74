import WasmPackaging.Proofs.Targets.LikeEdge

/-!
Builds of the server target that go alike. A build reads its sources, makes all that is in its output directory, and stages
the bindings beside where they are (`serverPlan`). What is staged is made by the build and read by it later: it is a mirror,
which both trees have alike, and once the bindings are staged it is left alone (`repeats_of_freeze`). So two builds from trees
with the same sources and the same staged bindings publish the same (`alike_buildServer`).
-/

namespace WasmPackaging.Targets

open Bundling Config Text FileTree FileTree.Plan

variable {τ : Type} {project : Location} {hidden : Location → Bool} {staged : Part} {base : FileTree} {rest : Location → Option Entry}
  {fitting : Prop} {location : Location}

/-! ## The plan -/

/-- The output directory. -/
def serverDirectory (project : Location) : Location := project ++ ["dist", "cloudflare-node"]

/-- The directory of all bindings. -/
def compiledDirectory (project : Location) : Location := project ++ ["src", "bindings", "compiled"]

/-- The bindings for servers. -/
def nodeBindings (project : Location) : Location := compiledDirectory project ++ ["node_bindings"]

/-- Where the bindings are staged. -/
def stagedPlace (project : Location) : Location := compiledDirectory project ++ ["_node_bindings"]

/-- What the server target reads in the project. -/
def serverSources (project : Location) : List Location := [nodeBindings project, project ++ ["src", "snarky.d.ts"]]

/-- Where the server target writes: beside its sources it has the staged bindings. -/
def serverLayout (project : Location) : Layout where
  project
  name := "cloudflare-node"
  beside location := stagedPlace project <+: location
  inside location within := by
    obtain ⟨below, rfl⟩ := of_decide_eq_true within
    exact ⟨["bindings", "compiled", "_node_bindings"] ++ below, by simp [stagedPlace, compiledDirectory]⟩

/-- The plan of the builds of the server target. -/
abbrev serverPlan (project : Location) (hidden : Location → Bool) (staged : Part) (base : FileTree) (rest : Location → Option Entry)
    (fitting : Prop) : Plan := (serverLayout project).plan hidden staged base rest fitting

/-- What two builds of the server target can go by: the bindings are in a directory among their sources, none of which is
hidden. -/
structure ServerPlanning (project : Location) (hidden : Location → Bool) (base : FileTree) : Prop where
  named : AreNames project
  above : ∀ outer, outer <+: compiledDirectory project → base.lookup outer = some .directory
  visible : ∀ outer, outer <+: compiledDirectory project → hidden outer = false
  seen : ∀ source ∈ serverSources project, ∀ below, hidden (source ++ below) = false

theorem part_staged (inside : stagedPlace project <+: location) :
    (serverPlan project hidden staged base rest fitting).part location = staged :=
  @Layout.part_beside (serverLayout project) _ _ _ (decide_eq_true inside)

theorem freeze_serverPlan (tree : FileTree) : (serverPlan project hidden .mirror base rest fitting).freeze tree =
    serverPlan project hidden .source ((serverPlan project hidden .mirror base rest fitting).freeze tree).base rest fitting := by
  have parts (location : Location) : (if (serverLayout project).part hidden .mirror location = .mirror then Part.source
      else (serverLayout project).part hidden .mirror location) = (serverLayout project).part hidden .source location := by
    unfold Layout.part
    split <;> [skip; split] <;> [skip; skip; split] <;> [skip; skip; skip; split] <;> rfl
  exact congrArg (fun part => (⟨part, _, rest, fitting⟩ : Plan)) (funext parts)

/-- On the way to the bindings the server target does not write. -/
theorem outside_compiled {outer : Location} (within : outer <+: compiledDirectory project) : (serverLayout project).Outside outer := by
  refine @Layout.outside_of_within (serverLayout project) outer ["bindings", "compiled"] within (decide_eq_false fun inside => ?_)
  have long := (inside.trans within).length_le
  rw [stagedPlace, List.length_append] at long
  exact Nat.not_succ_le_self _ long

theorem outside_serverSource {source : Location} (mem : source ∈ serverSources project) (below : List String) :
    (serverLayout project).Outside (source ++ below) := by
  obtain ⟨names, rfl, apart⟩ : ∃ names, source = project ++ "src" :: names ∧
      ¬ ["bindings", "compiled", "_node_bindings"] <+: names ++ below := by
    simp only [serverSources, List.mem_cons, List.not_mem_nil, or_false] at mem
    obtain rfl | rfl := mem
    · exact ⟨["bindings", "compiled", "node_bindings"], by simp [nodeBindings, compiledDirectory], by simp⟩
    · exact ⟨["snarky.d.ts"], rfl, by simp⟩
  rw [List.append_assoc, List.cons_append]
  refine Layout.outside_of_within (List.prefix_refl _) (decide_eq_false fun inside => apart ?_)
  rw [stagedPlace, compiledDirectory, List.append_assoc, List.prefix_append_right_inj] at inside
  exact (List.cons_prefix_cons.1 inside).2

theorem areNames_serverSource (named : AreNames project) {source : Location} (mem : source ∈ serverSources project) : AreNames source := by
  simp only [serverSources, List.mem_cons, List.not_mem_nil, or_false] at mem
  obtain rfl | rfl := mem
  · exact areNames_append.2 ⟨areNames_append.2 ⟨named, by decide⟩, by decide⟩
  · exact areNames_append.2 ⟨named, by decide⟩

/-! ## Places of the default settings -/

section

variable {context : Context τ} (defaults : context.settings = { projectRoot := context.settings.projectRoot })
  (start : context.publisher.root = .ofLocation project)

include defaults start

/-- The paths of the default settings in a project. -/
theorem serverPaths_default : context.serverOutput = .ofLocation (serverDirectory project) ∧
    context.serverBindings = .ofLocation (nodeBindings project) := by
  have server : context.settings.server = {} := by rw [defaults]
  have output : ({} : ServerSettings).outputDirectory = ⟨.relative, ["dist", "cloudflare-node"]⟩ := by decide
  have bindings : ({} : ServerSettings).bindingsDirectory = ⟨.relative, ["src", "bindings", "compiled", "node_bindings"]⟩ := by
    decide
  constructor
  · rw [Context.serverOutput, server, output, start]
    rfl
  · rw [Context.serverBindings, server, bindings, start]
    simp [nodeBindings, compiledDirectory, Path.join, Path.isAbsolute, Path.ofLocation]

end

theorem withName_nodeBindings (project : Location) :
    Path.withName (.ofLocation (nodeBindings project)) "_node_bindings" = .ok (.ofLocation (stagedPlace project)) := by
  have reads : Path.ofString "_node_bindings" = ⟨.relative, ["_node_bindings"]⟩ := by decide
  have name : (Path.ofLocation (nodeBindings project)).name = "node_bindings" := by simp [Path.name, Path.ofLocation, nodeBindings]
  unfold Path.withName
  rw [name, reads]
  simp [Path.ofLocation, nodeBindings, stagedPlace]

/-- What is published by default, and where to. -/
theorem serverAssets_default :
    (({} : ServerSettings).assets.map Path.ofString).eraseDups.mapM (Publisher.swapped "src/" "dist/cloudflare-node/") =
      .ok [(⟨.relative, ["src", "snarky.d.ts"]⟩, ⟨.relative, ["dist", "cloudflare-node", "snarky.d.ts"]⟩),
        (⟨.relative, ["src", "bindings", "compiled", "_node_bindings"]⟩,
          ⟨.relative, ["dist", "cloudflare-node", "bindings", "compiled", "_node_bindings"]⟩),
        (⟨.relative, ["src", "bindings", "compiled", "node_bindings", "plonk_wasm.d.cts"]⟩,
          ⟨.relative, ["dist", "cloudflare-node", "bindings", "compiled", "node_bindings", "plonk_wasm.d.cts"]⟩)] :=
  eq_ok_of_toOption (by decide +kernel)

namespace ServerPlanning

variable (planning : ServerPlanning project hidden base)

include planning

theorem part_above {outer : Location} (within : outer <+: compiledDirectory project) :
    (serverLayout project).part hidden staged outer = .source :=
  Layout.part_source (outside_compiled within) (planning.visible outer within)

theorem lays : (serverPlan project hidden staged base rest fitting).Lays (serverDirectory project) := by
  have valid : IsEntryName "cloudflare-node" := by decide
  refine Layout.lays planning.named valid fun outer within => ?_
  have inside : outer <+: compiledDirectory project := within.trans (List.prefix_append _ _)
  exact ⟨planning.visible outer inside, planning.above outer inside⟩

theorem receives {names : List String} (valid : AreNames names) (filled : names ≠ []) :
    (serverPlan project hidden staged base rest fitting).Receives (serverDirectory project ++ names) := planning.lays.receives valid filled

/-- The bindings can be staged. -/
theorem receives_staged : (serverPlan project hidden .mirror base rest fitting).Receives (stagedPlace project) := by
  refine ⟨⟨⟨areNames_append.2 ⟨areNames_append.2 ⟨planning.named, by decide⟩, by decide⟩, fun outer within => ?_⟩,
    fun below => .inl (part_staged (List.prefix_append _ _))⟩, .inl ?_⟩
  · obtain rfl | within := List.prefix_concat_iff.1 within
    · exact .inl (.inl (part_staged (List.prefix_refl _)))
    · exact .inr (.inr ⟨planning.part_above within, planning.above outer within⟩)
  · rw [stagedPlace, List.dropLast_concat]
    exact planning.part_above (List.prefix_refl _)

theorem copies_source {source : Location} (mem : source ∈ serverSources project) {names : List String} (valid : AreNames names) :
    (serverPlan project hidden staged base rest fitting).Copies [] (source ++ names) := by
  refine ⟨areNames_append.2 ⟨areNames_serverSource planning.named mem, valid⟩, fun below _ => ?_⟩
  rw [List.append_assoc]
  exact Layout.part_source (outside_serverSource mem _) (planning.seen source mem _)

theorem copies_staged : (serverPlan project hidden .source base rest fitting).Copies [] (stagedPlace project) :=
  ⟨areNames_append.2 ⟨areNames_append.2 ⟨planning.named, by decide⟩, by decide⟩, fun _ _ => part_staged (List.prefix_append _ _)⟩

/-- The plan with the staged bindings frozen can be gone by too. -/
theorem freeze {tree : FileTree} (holds : (serverPlan project hidden .mirror base rest fitting).Holds tree) :
    ServerPlanning project hidden ((serverPlan project hidden .mirror base rest fitting).freeze tree).base := by
  refine ⟨planning.named, fun outer within => ?_, planning.visible, planning.seen⟩
  have source : (serverPlan project hidden .mirror base rest fitting).part outer = .source := planning.part_above within
  have frozen := ((holds_freeze_iff holds).2 ⟨holds, rfl⟩).lookup_source (part_freeze_source_iff.2 (.inl source))
  rw [← frozen, holds.lookup_source source]
  exact planning.above outer within

/-! ## Steps -/

variable {context : Context τ} (defaults : context.settings = { projectRoot := context.settings.projectRoot })
  (start : context.publisher.root = .ofLocation project)

section

include defaults

theorem repeats_stageBindings : (serverPlan project hidden .mirror base rest fitting).Repeats
    (context.stageBindings (.ofLocation (nodeBindings project))) (context.stageBindings (.ofLocation (nodeBindings project))) := by
  have name : context.settings.server.stagedBindingsName = "_node_bindings" := by rw [defaults]
  have bindings : nodeBindings project ∈ serverSources project := List.mem_cons_self
  have copies := @ServerPlanning.copies_source project hidden .mirror base rest fitting planning _ bindings [] areNames_nil
  rw [List.append_nil] at copies
  have receives := @ServerPlanning.receives_staged project hidden base rest fitting planning
  unfold Context.stageBindings
  rw [name, withName_nodeBindings]
  refine (repeats_copies context.publisher _ _ fun pair mem => ?_).bind fun _ => .pure _ _
  obtain rfl := List.mem_singleton.1 mem
  rw [straight_join_ofLocation _ _ copies.named, straight_join_ofLocation _ _ receives.reaches.named]
  exact repeats_copySource (by simp [nodeBindings]) copies receives

end

/-- What is published is copied from the sources and from the staged bindings, which both are left alone. -/
theorem repeats_serverAssets {publisher : Publisher} (start : publisher.root = .ofLocation project) :
    (serverPlan project hidden .mirror base rest fitting).Repeats
      (publisher.copySwapped (({} : ServerSettings).assets.map Path.ofString) "src/" "dist/cloudflare-node/")
      (publisher.copySwapped (({} : ServerSettings).assets.map Path.ofString) "src/" "dist/cloudflare-node/") := by
  unfold Publisher.copySwapped
  rw [serverAssets_default]
  refine repeats_of_freeze fun tree holds => ?_
  have planning := planning.freeze holds
  rw [freeze_serverPlan]
  refine repeats_copies publisher _ _ fun pair mem => ?_
  simp only [List.mem_cons, List.not_mem_nil, or_false] at mem
  have spelled {parts : List String} (valid : AreNames parts) (base : FileTree) :
      base.straight (publisher.root.join ⟨.relative, parts⟩) = project ++ parts :=
    straight_join start base (areNames_append.2 ⟨planning.named, valid⟩)
  have target (names : List String) : project ++ "dist" :: "cloudflare-node" :: names = serverDirectory project ++ names := by
    simp [serverDirectory]
  obtain rfl | rfl | rfl := mem <;> rw [spelled (by decide), spelled (by decide), target]
  · exact repeats_copySource (by simp) (by simpa using planning.copies_source (List.mem_cons_of_mem _ List.mem_cons_self) areNames_nil)
      (planning.receives (by decide) (by decide))
  · exact repeats_copySource (by simp) (by simpa [stagedPlace, compiledDirectory] using planning.copies_staged)
      (planning.receives (by decide) (by decide))
  · have names : AreNames ["plonk_wasm.d.cts"] := by decide
    exact repeats_copySource (by simp) (by simpa [nodeBindings, compiledDirectory] using planning.copies_source List.mem_cons_self names)
      (planning.receives (by decide) (by decide))

variable (resolved : base.straight context.settings.projectRoot = project)
  {bundle : BuildOptions → Bytes → Option Bytes} {minified : String → TransformOptions → Option String}
  (tools : Determined context bundle minified)

include defaults start resolved tools

/-- The steps after the type check go alike. -/
theorem alike_finishServer : RunsAlike (serverPlan project hidden .mirror base rest fitting)
    (context.finishServer (.ofLocation (serverDirectory project))) := by
  have server : context.settings.server = {} := by rw [defaults]
  have place : (serverPlan project hidden .mirror base rest fitting).Asks (context.relativeText (.ofLocation (serverDirectory project)))
      "dist/cloudflare-node" := by
    have asked := @Context.asks_relativeText τ (serverPlan project hidden .mirror base rest fitting) context project resolved
      (.ofLocation (serverDirectory project))
    rwa [serverDirectory, relativeTo_below _ planning.named (by decide)] at asked
  have entry : Path.child (.ofLocation (serverDirectory project)) "index.js" = .ofLocation (serverDirectory project ++ ["index.js"]) :=
    child_eq_ofLocation (by decide)
  have lifted : (monadLift (pure "index.js" : FileRun String) : Run τ String) = pure "index.js" := rfl
  have takes := (@ServerPlanning.receives project hidden .mirror base rest fitting planning ["index.js"] (by decide) (by decide)).takes
  unfold Context.finishServer
  simp only [server, liftM]
  refine runOnward place ?_
  refine (Simulates.onFiles (planning.repeats_serverAssets start)).bind fun files => ?_
  rw [entryScript_default defaults, lifted]
  simp only [pure_bind]
  rw [entry]
  have companions (tree other : FileTree) (holds : (serverPlan project hidden .mirror base rest fitting).Holds tree)
      (related : (serverPlan project hidden .mirror base rest fitting).Relates tree other) (suffixes : List String) :
      Plugin.forCompanions other (.ofLocation (serverDirectory project)) suffixes =
        Plugin.forCompanions tree (.ofLocation (serverDirectory project)) suffixes := by
    unfold Plugin.forCompanions
    rw [holds.free.resolve_congr related.holds.free (related.holds.working.trans holds.working.symm)]
  refine filesOnward (fun tree other holds related => by simp only [companions tree other holds related]) fun tree => ?_
  split
  · exact .throw
  · refine (alike_build takes (tools.build (serverBuild context.settings (.ofLocation (serverDirectory project ++ ["index.js"]))
      _ context.hostPlatform))).bind fun _ => ?_
    refine (Simulates.onFiles (simulates_reach _ _)).bind fun result => ?_
    refine (Simulates.onFiles (repeats_verifyEntry _ takes.files.known takes.named)).bind fun entry => ?_
    refine (Simulates.onFiles (simulates_reach _ _)).bind fun result => ?_
    exact .onFiles (simulates_reach _ _)

variable {listed : Option (List (List String × Bytes))} (below : ∀ list, listed = some list → FilesBelow list)
  (check : ChecksIn (serverPlan project hidden .mirror base rest fitting) (serverDirectory project) listed
    (context.runner (Context.checkCommand base.workingDirectory project defaultTypecheck (.ofLocation (serverDirectory project)))))
  (fine : context.settings.projectRoot.holdsZero = false)

include below check fine

/-- A build of the server target that succeeds succeeds in another tree that is paired with its own, with the same result. -/
theorem alike_buildServer : RunsAlike (serverPlan project hidden .mirror base rest fitting) context.buildServer := by
  obtain ⟨output, bindings⟩ := serverPaths_default defaults start
  have template : context.settings.server.typecheckCommand = defaultTypecheck := by rw [defaults]
  have steps : RunsAlike (serverPlan project hidden .mirror base rest fitting) (do
      runSteps (context.earlySteps .server)
      context.finishServer context.serverOutput : Run τ TargetResult) := by
    simp only [runSteps, Context.earlySteps, List.forM_cons, List.forM_nil, bind_assoc, pure_bind]
    rw [output, bindings, template]
    refine (Simulates.onFiles (planning.repeats_stageBindings defaults)).bind fun _ => ?_
    refine (Context.alike_checkTypes resolved planning.lays below check).bind fun _ => ?_
    exact planning.alike_finishServer defaults start resolved tools
  have rooted {tree : FileTree} (holds : (serverPlan project hidden .mirror base rest fitting).Holds tree) : context.Rooted tree :=
    Context.rooted_of_holds resolved start fine holds
  intro world after result holds ran
  rw [Context.buildServer_apply (rooted holds)] at ran
  obtain ⟨held, carried⟩ := steps holds ran
  refine ⟨held, fun leads => ?_⟩
  obtain ⟨leads, now⟩ := carried leads
  refine ⟨leads, fun world' related => ?_⟩
  rw [Context.buildServer_apply (rooted related.holds)]
  exact now world' related

end ServerPlanning

/-! ## What a build finds -/

/-- The bindings are in a directory when they are there. -/
theorem ServerPlanning.of_bindings {tree : FileTree} (named : AreNames project) (sound : tree.WellFormed) (free : tree.LinkFree)
    (there : tree.lookup (nodeBindings project) ≠ none) (visible : ∀ outer, outer <+: compiledDirectory project → hidden outer = false)
    (seen : ∀ source ∈ serverSources project, ∀ below, hidden (source ++ below) = false) :
    ServerPlanning project hidden ((serverLayout project).base hidden tree) := by
  have holds : (serverPlan project hidden .other ((serverLayout project).base hidden tree) (fun _ => none) False).Holds tree :=
    Layout.holds_plan sound free (by decide) fun never => never.elim
  refine ⟨named, fun outer within => ?_, visible, seen⟩
  have same := holds.lookup_source (Layout.part_source (outside_compiled within) (visible outer within))
  obtain ⟨below, whole⟩ := within
  refine same.symm.trans (sound.above (List.concat_ne_nil "node_bindings" below) ?_)
  rwa [← List.append_assoc, whole]

/-- A build that succeeds found the bindings. -/
theorem bindings_of_buildServer {context : Context τ} (defaults : context.settings = { projectRoot := context.settings.projectRoot })
    (start : context.publisher.root = .ofLocation project) {world after : World τ} {result : TargetResult}
    (resolved : world.files.resolve context.settings.projectRoot = .ok project) (ended : context.buildServer world = (.ok result, after))
    (sound : world.files.WellFormed) (free : world.files.LinkFree) (named : AreNames project) :
    world.files.lookup (nodeBindings project) ≠ none := by
  obtain ⟨-, bindings⟩ := serverPaths_default defaults start
  have name : context.settings.server.stagedBindingsName = "_node_bindings" := by rw [defaults]
  have source : AreNames (nodeBindings project) := areNames_serverSource named List.mem_cons_self
  have target : AreNames (stagedPlace project) := areNames_append.2 ⟨areNames_append.2 ⟨named, by decide⟩, by decide⟩
  rw [Context.buildServer_apply ⟨project, resolved, start⟩] at ended
  simp only [runSteps, Context.earlySteps, List.forM_cons, List.forM_nil, bind_assoc, pure_bind] at ended
  obtain ⟨⟨⟩, between, staged, -⟩ := bind_ends_iff.1 ended
  obtain ⟨staged, -⟩ := Run.onFiles_ends staged
  unfold Context.stageBindings at staged
  rw [bindings, name, withName_nodeBindings] at staged
  obtain ⟨_, _, copied, -⟩ := bind_ends_iff.1 staged
  have copied := context.publisher.copy_one_ends sound free copied
  rw [straight_join_ofLocation _ _ source, straight_join_ofLocation _ _ target] at copied
  obtain directory | ⟨content, rest, file, -⟩ := copied_cases sound free source target
    (fun rest same => by simp [stagedPlace] at same) copied
  · exact directory ▸ by simp
  · exact file ▸ by simp

end WasmPackaging.Targets
