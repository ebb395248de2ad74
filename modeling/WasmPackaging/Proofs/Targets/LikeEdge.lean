import WasmPackaging.Proofs.Targets.EarlyFailure
import WasmPackaging.Proofs.Targets.Layout
import WasmPackaging.Proofs.Targets.LikeSteps

/-!
Builds of the edge target that go alike. A build reads its sources, makes all that is in its output directory, and has
its temporary loader beside the sources (`edgePlan`). So two builds from trees with the same sources publish the same,
whatever was in the output directory of the second before, if that is in no way of what the first publishes
(`simulates_buildEdge`).
-/

namespace WasmPackaging.Targets

open Bundling Config Text FileTree FileTree.Plan

variable {τ : Type} {project : Location} {hidden : Location → Bool} {temporary : Part} {base : FileTree} {rest : Location → Option Entry}
  {fitting : Prop}

/-! ## The plan -/

/-- The temporary loader. -/
def loaderPlace (project : Location) : Location := bindingsDirectory project ++ ["plonk_wasm.tmp.js"]

/-- What the edge target publishes from the project. -/
def edgeSources (project : Location) : List Location :=
  [bindingsDirectory project, project ++ ["src", "snarky.d.ts"], project ++ ["src", "snarky.web.js"], project ++ ["src", "bindings", "js", "web"]]

/-- Where the edge target writes: beside its sources it has the temporary loader. -/
def edgeLayout (project : Location) : Layout where
  project
  name := "cloudflare"
  beside location := location = loaderPlace project
  inside location same := ⟨["bindings", "compiled", "web_bindings", "plonk_wasm.tmp.js"], by simpa [loaderPlace, bindingsDirectory] using same⟩

/-- The plan of the builds of the edge target. -/
abbrev edgePlan (project : Location) (hidden : Location → Bool) (temporary : Part) (base : FileTree) (rest : Location → Option Entry)
    (fitting : Prop) : Plan := (edgeLayout project).plan hidden temporary base rest fitting

/-- What two builds of the edge target can go by: the bindings are a directory among their sources, none of which is hidden,
and what the second has in its output directory from before is no script that is to be renamed. -/
structure EdgePlanning (project : Location) (hidden : Location → Bool) (base : FileTree) (rest : Location → Option Entry) : Prop where
  named : AreNames project
  above : ∀ outer, outer <+: bindingsDirectory project → base.lookup outer = some .directory
  visible : ∀ outer, outer <+: bindingsDirectory project → hidden outer = false
  seen : ∀ source ∈ edgeSources project, ∀ below, hidden (source ++ below) = false
  scripts : ∀ outer name, Wildcard.matchesName ("*" ++ ".web" ++ ".js") name = true → rest (edgeDirectory project ++ outer ++ [name]) = none

theorem part_edge {location : Location} (inside : edgeDirectory project <+: location) :
    (edgePlan project hidden temporary base rest fitting).part location = .output := Layout.part_output inside

theorem part_loader : (edgePlan project hidden temporary base rest fitting).part (loaderPlace project) = temporary :=
  @Layout.part_beside (edgeLayout project) _ _ _ (by simp [edgeLayout])

theorem loosen_edgePlan : (edgePlan project hidden .other base rest fitting).loosen (loaderPlace project) =
    edgePlan project hidden .loose base rest fitting := by
  have parts (location : Location) : (if location = loaderPlace project then Part.loose else (edgeLayout project).part hidden .other location) =
      (edgeLayout project).part hidden .loose location := by
    by_cases same : location = loaderPlace project
    · rw [if_pos same, same]
      exact (Layout.part_beside (by simp [edgeLayout])).symm
    · have clear : (edgeLayout project).beside location = false := by simp [edgeLayout, same]
      simp [same, Layout.part, clear]
  exact congrArg (fun part => (⟨part, base, rest, fitting⟩ : Plan)) (funext parts)

/-- On the way to the bindings the edge target does not write. -/
theorem outside_bindings {outer : Location} (within : outer <+: bindingsDirectory project) : (edgeLayout project).Outside outer := by
  refine @Layout.outside_of_within (edgeLayout project) outer ["bindings", "compiled", "web_bindings"] within (decide_eq_false ?_)
  rintro rfl
  have long := within.length_le
  rw [loaderPlace, List.length_append] at long
  exact Nat.not_succ_le_self _ long

namespace EdgePlanning

variable (planning : EdgePlanning project hidden base rest)

include planning

theorem part_above {outer : Location} (within : outer <+: bindingsDirectory project) :
    (edgeLayout project).part hidden temporary outer = .source := Layout.part_source (outside_bindings within) (planning.visible outer within)

theorem passes_above {outer : Location} (within : outer <+: bindingsDirectory project) :
    (edgePlan project hidden temporary base rest fitting).Passes outer :=
  .inr (.inr ⟨planning.part_above within, planning.above outer within⟩)

theorem lays : (edgePlan project hidden temporary base rest fitting).Lays (edgeDirectory project) := by
  have valid : IsEntryName "cloudflare" := by decide
  refine Layout.lays planning.named valid fun outer within => ?_
  have inside : outer <+: bindingsDirectory project := within.trans (List.prefix_append _ _)
  exact ⟨planning.visible outer inside, planning.above outer inside⟩

theorem tidy : (edgePlan project hidden temporary base rest fitting).Tidy (edgeDirectory project) where
  lays := planning.lays
  scripts outer name matched := by
    have inside : edgeDirectory project <+: edgeDirectory project ++ outer ++ [name] :=
      (List.prefix_append _ outer).trans (List.prefix_append _ _)
    rw [spare_of_output (part_edge inside)]
    exact planning.scripts outer name matched

theorem part_seen {below : List String} (seen : ∃ source ∈ edgeSources project, source <+: project ++ "src" :: below)
    (other : project ++ "src" :: below ≠ loaderPlace project) : (edgeLayout project).part hidden temporary (project ++ "src" :: below) = .source := by
  obtain ⟨source, mem, inner, same⟩ := seen
  refine Layout.part_source (Layout.outside_of_within (List.prefix_refl _) (decide_eq_false other)) ?_
  exact same ▸ planning.seen source mem inner

/-- The bindings are copied without the temporary loader. -/
theorem copies_bindings : (edgePlan project hidden temporary base rest fitting).Copies ["plonk_wasm.tmp.js"] (bindingsDirectory project) := by
  refine ⟨by simpa using areNames_bindings planning.named areNames_nil, fun below kept => ?_⟩
  have whole : bindingsDirectory project ++ below = project ++ "src" :: (["bindings", "compiled", "web_bindings"] ++ below) := by
    simp [bindingsDirectory]
  rw [whole]
  refine planning.part_seen ⟨_, List.mem_cons_self, whole ▸ List.prefix_append _ _⟩ fun same => ?_
  rw [← whole] at same
  obtain rfl := List.append_cancel_left same
  have ignored : FileTask.isIgnored ["plonk_wasm.tmp.js"] "plonk_wasm.tmp.js" = true := by decide +kernel
  rw [kept _ List.mem_cons_self] at ignored
  cases ignored

theorem copies_source {first : String} {below : List String} (mem : project ++ "src" :: first :: below ∈ edgeSources project)
    (other : ¬ first :: below <+: ["bindings", "compiled", "web_bindings", "plonk_wasm.tmp.js"]) (valid : AreNames (first :: below)) (ignored : List String) :
    (edgePlan project hidden temporary base rest fitting).Copies ignored (project ++ "src" :: first :: below) := by
  refine ⟨areNames_append.2 ⟨planning.named, areNames_cons.2 ⟨by decide, valid⟩⟩, fun rest _ => ?_⟩
  have whole : project ++ "src" :: first :: below ++ rest = project ++ "src" :: (first :: below ++ rest) := by simp
  rw [whole]
  refine planning.part_seen ⟨_, mem, whole ▸ List.prefix_append _ _⟩ fun same => ?_
  have inner : "src" :: (first :: below ++ rest) = ["src", "bindings", "compiled", "web_bindings", "plonk_wasm.tmp.js"] :=
    List.append_cancel_left (same.trans (by simp [loaderPlace, bindingsDirectory]))
  exact other ⟨rest, (List.cons.inj inner).2⟩

/-! ## Steps -/

theorem receives {names : List String} (valid : AreNames names) (filled : names ≠ []) :
    (edgePlan project hidden temporary base rest fitting).Receives (edgeDirectory project ++ names) := planning.lays.receives valid filled

theorem repeats_assets {publisher : Publisher} (start : publisher.root = .ofLocation project) (root : String) : (edgePlan project hidden temporary base rest fitting).Repeats
    (publisher.copy (edgeAssets {} [("output_dir", "dist/cloudflare"), ("project_root", root)]) ["plonk_wasm.tmp.js"])
    (publisher.copy (edgeAssets {} [("output_dir", "dist/cloudflare"), ("project_root", root)]) ["plonk_wasm.tmp.js"]) := by
  refine repeats_copies publisher _ _ fun pair mem => ?_
  rw [edgeAssets_default] at mem
  simp only [List.mem_cons, List.not_mem_nil, or_false] at mem
  have spelled {parts : List String} (valid : AreNames parts) :
      (edgePlan project hidden temporary base rest fitting).base.straight (publisher.root.join ⟨.relative, parts⟩) = project ++ parts :=
    straight_join start base (areNames_append.2 ⟨planning.named, valid⟩)
  have target (names : List String) : project ++ "dist" :: "cloudflare" :: names = edgeDirectory project ++ names := by simp [edgeDirectory]
  obtain rfl | rfl | rfl | rfl := mem <;> rw [spelled (by decide), spelled (by decide), target]
  · exact repeats_copySource (by simp) planning.copies_bindings (planning.receives (by decide) (by decide))
  · exact repeats_copySource (by simp) (planning.copies_source (by simp [edgeSources]) (by decide) (by decide) _)
      (planning.receives (by decide) (by decide))
  · exact repeats_copySource (by simp) (planning.copies_source (by simp [edgeSources]) (by decide) (by decide) _)
      (planning.receives (by decide) (by decide))
  · exact repeats_copySource (by simp) (planning.copies_source (by simp [edgeSources]) (by decide) (by decide) _)
      (planning.receives (by decide) (by decide))

/-- The loader is published alike. -/
theorem repeats_copyLoader (publisher : Publisher) : (edgePlan project hidden .loose base rest fitting).Repeats
    (publisher.copy [(.ofLocation (loaderPlace project), .ofLocation (edgeDirectory project ++ ["web_bindings", "plonk_wasm.js"]))] [])
    (publisher.copy [(.ofLocation (loaderPlace project), .ofLocation (edgeDirectory project ++ ["web_bindings", "plonk_wasm.js"]))] []) := by
  refine repeats_copies publisher _ _ fun pair mem => ?_
  obtain rfl := List.mem_singleton.1 mem
  have loader : AreNames (loaderPlace project) := areNames_bindings planning.named (by decide)
  have target : AreNames (edgeDirectory project ++ ["web_bindings", "plonk_wasm.js"]) := areNames_edge planning.named (by decide)
  have receives : (edgePlan project hidden .loose base rest fitting).Receives (edgeDirectory project ++ ["web_bindings", "plonk_wasm.js"]) :=
    planning.receives (by decide) (by decide)
  rw [straight_join_ofLocation _ _ loader, straight_join_ofLocation _ _ target]
  refine repeats_copy (.inr (.inr part_loader)) loader receives (fun rest same => ?_) fun tree holds directory => ?_
  · simp [bindingsDirectory, edgeDirectory] at same
  · exact absurd directory (holds.loose _ part_loader)

/-- The output directory is there when the loader is published. -/
theorem directory_of_copyLoader (publisher : Publisher) {before after : FileTree} {answer : List Path}
    (holds : (edgePlan project hidden .loose base rest fitting).Holds before)
    (ended : publisher.copy [(.ofLocation (loaderPlace project), .ofLocation (edgeDirectory project ++ ["web_bindings", "plonk_wasm.js"]))] []
      before = (.ok answer, after)) : after.lookup (edgeDirectory project) = some .directory := by
  have loader : AreNames (loaderPlace project) := areNames_bindings planning.named (by decide)
  have target : AreNames (edgeDirectory project ++ ["web_bindings", "plonk_wasm.js"]) := areNames_edge planning.named (by decide)
  have held := (planning.repeats_copyLoader publisher holds ended).1
  have copied := publisher.copy_one_ends holds.sound holds.free ended
  rw [straight_join_ofLocation _ _ loader, straight_join_ofLocation _ _ target] at copied
  obtain ⟨content, below, -, file⟩ := (copied_cases holds.sound holds.free loader target
    (fun rest same => by simp [bindingsDirectory, edgeDirectory] at same) copied).resolve_left (holds.loose _ part_loader)
  rw [List.append_assoc] at file
  have there : after.lookup (edgeDirectory project ++ (["web_bindings", "plonk_wasm.js"] ++ below)) ≠ none := by
    rw [file]
    simp
  exact held.sound.above (by simp) there

theorem takes_loader : (edgePlan project hidden .loose base rest fitting).Takes (loaderPlace project) := by
  refine ⟨areNames_bindings planning.named (by decide), .inr part_loader, .inl ?_⟩
  rw [loaderPlace, List.dropLast_concat]
  exact planning.part_above (List.prefix_refl _)

theorem reaches_bindings : (edgePlan project hidden .loose base rest fitting).Reaches (loaderPlace project).dropLast := by
  rw [loaderPlace, List.dropLast_concat]
  exact ⟨by simpa using areNames_bindings planning.named areNames_nil, fun outer within => planning.passes_above within⟩

variable {context : Context τ}

/-- The loader module is rewritten to the temporary loader, whatever file was there before. -/
theorem simulates_inlineLoader : Simulates ((edgePlan project hidden .other base rest fitting).clearOf (loaderPlace project))
    (edgePlan project hidden .loose base rest fitting).pairing
    (context.inlineLoader (.ofLocation (bindingsDirectory project ++ ["plonk_wasm.js"])) (.ofLocation (loaderPlace project)))
    (context.inlineLoader (.ofLocation (bindingsDirectory project ++ ["plonk_wasm.js"])) (.ofLocation (loaderPlace project))) := by
  have above : (loaderPlace project).dropLast = bindingsDirectory project := List.dropLast_concat
  have loader : AreNames (loaderPlace project) := areNames_bindings planning.named (by decide)
  have module : AreNames (bindingsDirectory project ++ ["plonk_wasm.js"]) := areNames_bindings planning.named (by decide)
  have known : (edgePlan project hidden .other base rest fitting).Known (bindingsDirectory project ++ ["plonk_wasm.js"]) := by
    have whole : bindingsDirectory project ++ ["plonk_wasm.js"] = project ++ "src" :: ["bindings", "compiled", "web_bindings", "plonk_wasm.js"] := by
      simp [bindingsDirectory]
    have source := @EdgePlanning.part_seen project hidden .other base rest planning ["bindings", "compiled", "web_bindings", "plonk_wasm.js"]
      ⟨_, List.mem_cons_self, whole ▸ List.prefix_append _ _⟩ (by simp [loaderPlace, bindingsDirectory])
    exact .inl (whole ▸ source)
  have outer : (edgePlan project hidden .other base rest fitting).part (loaderPlace project).dropLast = .source := by
    rw [above]
    exact planning.part_above (List.prefix_refl _)
  have directory {tree : FileTree} (holds : (edgePlan project hidden .other base rest fitting).Holds tree) :
      tree.lookup (loaderPlace project).dropLast = some .directory := by
    rw [holds.lookup_source outer, above]
    exact planning.above _ (List.prefix_refl _)
  -- the directory of the loader is there in both trees, so it need not be made
  have made {tree after : FileTree} (holds : (edgePlan project hidden .other base rest fitting).Holds tree) :
      FileTask.ensureDirectory (.ofLocation (loaderPlace project).dropLast) tree = (.ok (), after) ↔
        Fits (loaderPlace project).dropLast ∧ after = tree := by
    rw [ensureDirectory_ends_iff holds.sound holds.free loader.dropLast, fill_of_directory holds.sound (directory holds)]
    exact ⟨fun ⟨fits, _, same⟩ => ⟨fits, same⟩, fun ⟨fits, same⟩ => ⟨fits, .of_directory holds.sound (directory holds), same⟩⟩
  have read : Simulates ((edgePlan project hidden .other base rest fitting).clearOf (loaderPlace project))
      ((edgePlan project hidden .other base rest fitting).clearOf (loaderPlace project))
      (readScript (.ofLocation (bindingsDirectory project ++ ["plonk_wasm.js"]))) (readScript (.ofLocation (bindingsDirectory project ++ ["plonk_wasm.js"]))) :=
    .adapt (simulates_readText fun _ _ _ holds related read => related.1.read holds known module read)
  have ensured : Simulates ((edgePlan project hidden .other base rest fitting).clearOf (loaderPlace project))
      ((edgePlan project hidden .other base rest fitting).clearOf (loaderPlace project))
      (FileTask.ensureDirectory (.ofLocation (loaderPlace project).dropLast)) (FileTask.ensureDirectory (.ofLocation (loaderPlace project).dropLast)) :=
    .ask (fun before after answer holds ended => ((made holds).1 ended).2) fun before before' answer holds related ended =>
      (made related.1.holds).2 ⟨((made holds).1 ended).1, rfl⟩
  unfold Context.inlineLoader
  refine read.bind fun source => (simulates_inlined _ source).bind fun rewritten => .adapt (.adapt (ensured.bind fun _ => ?_))
  rw [← loosen_edgePlan]
  exact simulates_loosen part_loader loader outer _

theorem repeats_makeFactory : (edgePlan project hidden .loose base rest fitting).Repeats (context.makeFactory (.ofLocation (loaderPlace project)))
    (context.makeFactory (.ofLocation (loaderPlace project))) := by
  have takes := @EdgePlanning.takes_loader project hidden base rest fitting planning
  unfold Context.makeFactory
  refine (repeats_readScript takes.files.known takes.named).bind fun bundled => ?_
  refine (simulates_asFactory _ bundled).bind fun factory => ?_
  exact repeats_writeScript planning.reaches_bindings takes factory

variable (defaults : context.settings = { projectRoot := context.settings.projectRoot })
  (start : context.publisher.root = .ofLocation project) (resolved : base.straight context.settings.projectRoot = project)

include defaults start resolved

/-- What is published goes alike. -/
theorem alike_publishEdge {minified : String → TransformOptions → Option String}
    (transform : ∀ code options, MinifiesBy (minified code options) (context.bundler.transform code options)) (result : TargetResult) :
    RunsAlike (edgePlan project hidden .loose base rest fitting)
      (context.publishEdge result (.ofLocation (edgeDirectory project)) (.ofLocation (loaderPlace project))) := by
  have edge : context.settings.edge = {} := by rw [defaults]
  have templates : (edgePlan project hidden .loose base rest fitting).Asks (context.placeholders (.ofLocation (edgeDirectory project)))
      [("output_dir", "dist/cloudflare"), ("project_root", (Path.ofLocation project).toString)] := by
    have asked := @Context.asks_placeholders τ (edgePlan project hidden .loose base rest fitting) context project resolved
      (.ofLocation (edgeDirectory project))
    rwa [templateValues_default _ planning.named] at asked
  have name : (Path.ofLocation (loaderPlace project)).name = "plonk_wasm.tmp.js" := by simp [Path.name, Path.ofLocation, loaderPlace]
  have place : Path.child (.ofLocation (edgeDirectory project)) ({} : EdgeSettings).publishedLoader =
      .ofLocation (edgeDirectory project ++ ["web_bindings", "plonk_wasm.js"]) := child_eq_ofLocation (by decide)
  have minify : RunsAlike (edgePlan project hidden .loose base rest fitting)
      (({} : EdgeSettings).minifiedScripts.forM fun script => context.minify (Path.child (.ofLocation (edgeDirectory project)) script)) := by
    refine .forM _ fun script mem => ?_
    obtain rfl := List.mem_singleton.1 mem
    have script : Path.child (.ofLocation (edgeDirectory project)) "web_bindings/o1js_web.bc.js" =
        .ofLocation (edgeDirectory project ++ ["web_bindings", "o1js_web.bc.js"]) := child_eq_ofLocation (by decide)
    have receives := @EdgePlanning.receives project hidden .loose base rest fitting planning ["web_bindings", "o1js_web.bc.js"] (by decide) (by decide)
    rw [script]
    exact Context.alike_minify receives.takes.files.known receives.reaches.dropLast receives.takes transform
  unfold Context.publishEdge
  rw [edge]
  refine runOnward templates ?_
  rw [name]
  refine (Simulates.onFiles (planning.repeats_assets start _)).bind fun assets => ?_
  refine minify.bind fun _ => ?_
  rw [place]
  refine Simulates.bindWith (.onFiles (planning.repeats_copyLoader context.publisher))
    (fun before after answer holds ended => planning.directory_of_copyLoader context.publisher holds (Run.onFiles_ends ended).1) fun copies => ?_
  have renamed := (repeats_renameScripts context.publisher (@EdgePlanning.tidy project hidden .loose base rest fitting planning)).onFiles (τ := τ)
  exact renamed.bind fun _ => .pure _ _

variable {bundle : BuildOptions → Bytes → Option Bytes} {minified : String → TransformOptions → Option String}
  (tools : Determined context bundle minified)

include tools

/-- The steps after the type check go alike, and the temporary loader is gone then. -/
theorem simulates_publishSteps : Simulates (edgePlan project hidden .loose base rest fitting).pairing.ofFiles
    ((edgePlan project hidden .loose base rest fitting).pairing.given (Gone (loaderPlace project))).ofFiles
    (context.publishSteps (.ofLocation (edgeDirectory project)) (.ofLocation (loaderPlace project)))
    (context.publishSteps (.ofLocation (edgeDirectory project)) (.ofLocation (loaderPlace project))) := by
  have entry : Path.child (.ofLocation (edgeDirectory project)) "index.js" = .ofLocation (edgeDirectory project ++ ["index.js"]) :=
    child_eq_ofLocation (by decide)
  have lifted : (monadLift (pure "index.js" : FileRun String) : Run τ String) = pure "index.js" := rfl
  have bundled := tools.build (edgeBuild context.settings (.ofLocation (edgeDirectory project ++ ["index.js"])))
  have takes := @EdgePlanning.takes_loader project hidden base rest fitting planning
  have single : (edgePlan project hidden .loose base rest fitting).spare (loaderPlace project) = none := if_neg (by
    have part : (edgePlan project hidden .loose base rest fitting).part (loaderPlace project) = .loose := part_loader
    simp [part])
  unfold Context.publishSteps
  simp only [liftM]
  rw [entryScript_default defaults, lifted]
  simp only [pure_bind]
  rw [entry]
  refine (planning.alike_publishEdge defaults start resolved tools.transform _).bind fun result => ?_
  refine (alike_build (planning.receives (by decide) (by decide)).takes bundled).bind fun _ => ?_
  refine (Simulates.onFiles (simulates_reach result _)).bind fun result => ?_
  refine (Simulates.onFiles (simulates_deleteTemporary context.publisher takes.named takes.files single)).bind fun _ => ?_
  exact .pure _ _

variable {listed : Option (List (List String × Bytes))} (below : ∀ list, listed = some list → FilesBelow list)
  (check : ChecksIn (edgePlan project hidden .loose base rest fitting) (edgeDirectory project) listed
    (context.runner (Context.checkCommand base.workingDirectory project defaultTypecheck (.ofLocation (edgeDirectory project)))))

include below check

theorem simulates_edgeSteps : Simulates ((edgePlan project hidden .other base rest fitting).clearOf (loaderPlace project)).ofFiles
    ((edgePlan project hidden .loose base rest fitting).pairing.given (Gone (loaderPlace project))).ofFiles
    (context.edgeSteps context.edgeOutput context.edgeLoader context.edgeTemporary)
    (context.edgeSteps context.edgeOutput context.edgeLoader context.edgeTemporary) := by
  obtain ⟨output, loader, temporary⟩ := paths_default defaults start
  have temporary : context.edgeTemporary = .ofLocation (loaderPlace project) := temporary
  have template : context.settings.edge.typecheckCommand = defaultTypecheck := by rw [defaults]
  have bundled := tools.build (loaderBuild context.settings (.ofLocation (loaderPlace project)))
  rw [Context.edgeSteps_eq]
  simp only [runSteps, Context.earlySteps, List.drop_succ_cons, List.drop_zero, List.forM_cons, List.forM_nil, bind_assoc, pure_bind]
  rw [output, loader, temporary, template]
  refine (Simulates.onFiles planning.simulates_inlineLoader).bind fun _ => ?_
  refine (alike_build planning.takes_loader bundled).bind fun _ => ?_
  refine (Simulates.onFiles planning.repeats_makeFactory).bind fun _ => ?_
  refine (Context.alike_checkTypes resolved planning.lays below check).bind fun _ => ?_
  exact planning.simulates_publishSteps defaults start resolved tools

omit planning tools below check resolved in
/-- The steps of a build end with the entry in the output directory. -/
theorem entry_of_edgeSteps {world after : World τ} {built : TargetResult × Path}
    (ended : context.edgeSteps context.edgeOutput context.edgeLoader context.edgeTemporary world = (.ok built, after)) :
    built.2 = .ofLocation (edgeDirectory project ++ ["index.js"]) := by
  obtain ⟨output, -, -⟩ := paths_default defaults start
  have entry : Path.child (.ofLocation (edgeDirectory project)) "index.js" = .ofLocation (edgeDirectory project ++ ["index.js"]) :=
    child_eq_ofLocation (by decide)
  unfold Context.edgeSteps at ended
  obtain ⟨_, _, -, ended⟩ := bind_ends_iff.1 ended
  obtain ⟨_, _, -, ended⟩ := bind_ends_iff.1 ended
  obtain ⟨_, _, -, ended⟩ := bind_ends_iff.1 ended
  obtain ⟨found, _, named, ended⟩ := bind_ends_iff.1 ended
  obtain ⟨_, _, -, ended⟩ := bind_ends_iff.1 ended
  obtain ⟨_, _, -, ended⟩ := bind_ends_iff.1 ended
  obtain ⟨_, _, -, ended⟩ := bind_ends_iff.1 ended
  obtain ⟨named, -⟩ := Run.onFiles_ends named
  rw [entryScript_default defaults] at named
  obtain rfl := Except.ok.inj (Prod.mk.inj named).1
  obtain rfl := Except.ok.inj (Prod.mk.inj ended).1
  simp only
  rw [output, entry]

omit tools below check resolved in
theorem alike_finishEdge {built : TargetResult × Path} (entry : built.2 = .ofLocation (edgeDirectory project ++ ["index.js"])) :
    RunsAlike (edgePlan project hidden .loose base rest fitting) (context.finishEdge context.edgeOutput built) := by
  obtain ⟨output, -, -⟩ := paths_default defaults start
  have suffix : context.settings.edge.platformSuffix = ".web" := by rw [defaults]
  unfold Context.finishEdge
  rw [output, entry, suffix]
  refine (Simulates.onFiles (repeats_verifyOutput planning.tidy (by decide))).bind fun entry => ?_
  refine (Simulates.onFiles (simulates_reach _ _)).bind fun result => ?_
  exact .onFiles (simulates_reach _ _)

variable (fine : context.settings.projectRoot.holdsZero = false)

include fine

/-- A build of the edge target that succeeds succeeds in another tree that is paired with its own, with the same result. -/
theorem simulates_buildEdge : Simulates ((edgePlan project hidden .other base rest fitting).clearOf (loaderPlace project)).ofFiles
    (edgePlan project hidden .loose base rest fitting).pairing.ofFiles context.buildEdge context.buildEdge := by
  have rooted {tree : FileTree} (holds : (edgePlan project hidden .other base rest fitting).Holds tree) : context.Rooted tree :=
    Context.rooted_of_holds resolved start fine holds
  have above : (loaderPlace project).dropLast = bindingsDirectory project := List.dropLast_concat
  have takes := @EdgePlanning.takes_loader project hidden base rest fitting planning
  have directory {tree : FileTree} (holds : (edgePlan project hidden .loose base rest fitting).Holds tree) :
      tree.lookup (loaderPlace project).dropLast = some .directory := by
    rw [above, holds.lookup_source (planning.part_above (List.prefix_refl _))]
    exact planning.above _ (List.prefix_refl _)
  obtain ⟨-, -, temporary⟩ := paths_default defaults start
  obtain ⟨succeeds, places⟩ := @Asks.place (edgePlan project hidden .other base rest fitting) context.publisher context.edgeTemporary
  have spelled : (edgePlan project hidden .other base rest fitting).base.straight (context.publisher.root.join context.edgeTemporary) =
      loaderPlace project := by
    rw [temporary, Path.join_of_isAbsolute _ rfl]
    exact straight_ofLocation takes.named
  rw [spelled] at places
  intro world after result holds ran
  rw [Context.buildEdge_apply (rooted holds)] at ran
  obtain ⟨built, closed, wrapped, finished⟩ := bind_ends_iff.1 ran
  obtain ⟨target, between, files, placed, steps, discarded, rfl⟩ := Publisher.withTemporary_ends_iff.1 wrapped
  obtain ⟨succeeded, rfl, -⟩ := (places world.files holds target world.files).1 placed
  obtain ⟨⟨held, gone⟩, carried⟩ := planning.simulates_edgeSteps defaults start resolved tools below check holds steps
  obtain ⟨-, rfl⟩ := Prod.mk.inj (discarded.symm.trans (discard_of_gone held.sound held.free takes.named gone (directory held)))
  obtain ⟨held', carried'⟩ := planning.alike_finishEdge defaults start (entry_of_edgeSteps defaults start steps) held finished
  refine ⟨held', fun leads => ?_⟩
  obtain ⟨leads', later⟩ := carried' leads
  obtain ⟨leads, now⟩ := carried leads'
  refine ⟨leads, fun world' related => ?_⟩
  obtain ⟨between', steps', related'⟩ := now world' related
  obtain ⟨after', finished', related''⟩ := later between' related'
  have gone' : Gone (loaderPlace project) between'.files := ⟨gone.1, (related'.loose _ part_loader).trans gone.2⟩
  have discarded' := discard_of_gone related'.holds.sound related'.holds.free takes.named gone' (directory related'.holds)
  have placed' := (places world'.files related.1.holds _ _).2 ⟨succeeded, rfl, rfl⟩
  refine ⟨after', ?_, related''⟩
  rw [Context.buildEdge_apply (rooted related.1.holds), bind_ends_iff]
  exact ⟨built, between', Publisher.withTemporary_ends_iff.2 ⟨_, between', _, placed', steps', discarded', rfl⟩, finished'⟩

end EdgePlanning

end WasmPackaging.Targets
