import WasmPackaging.Proofs.Targets.CompleteResults
import WasmPackaging.Proofs.Targets.LikeServer
import WasmPackaging.Proofs.Targets.Rebuilding
import WasmPackaging.Targets.Registry

/-!
The targets do not depend on each other. A build is independent of another target when it leaves all as it is where it does
not write, and goes alike whatever the other target has written (`IndependentOf`). Two builds that are independent of each
other can be done in either order (`IndependentOf.swap`): neither writes where the other reads or writes. The edge target and
the server target are independent of each other (`independent_edge`, `independent_server`).
-/

namespace WasmPackaging.Targets

open Bundling Config Text FileTree FileTree.Plan

variable {τ α : Type} {project : Location}

/-! ## Builds in either order -/

/-- A project that stands among files without links. -/
structure Stands (root : Path) (workingDirectory project : Location) (tree : FileTree) : Prop where
  sound : tree.WellFormed
  free : tree.LinkFree
  working : tree.workingDirectory = workingDirectory
  resolved : tree.resolve root = .ok project

section

variable {root : Path} {workingDirectory : Location} {tree : FileTree} (stands : Stands root workingDirectory project tree)

include stands

theorem Stands.named : AreNames project := (stands.free.straight_of_resolve stands.resolved).2 ▸ areNames_straight stands.sound _

theorem Stands.onward {other : FileTree} (sound : other.WellFormed) (free : other.LinkFree)
    (same : other.workingDirectory = tree.workingDirectory) : Stands root workingDirectory project other :=
  ⟨sound, free, same.trans stands.working, (stands.free.resolve_congr free same root).trans stands.resolved⟩

end

/-- Whether the directory of the output directories is there or can be made. -/
def WayClear (layout : Layout) (tree : FileTree) : Prop :=
  tree.lookup layout.way = none ∨ tree.lookup layout.way = some .directory

/-- A build writes where its target does, and goes alike whatever another target has written. -/
structure IndependentOf (other layout : Layout) (root : Path) (workingDirectory : Location) (build : Run τ α) : Prop where
  /-- What a build that succeeds leaves. -/
  leaves : ∀ {world after : World τ} {answer : α}, Stands root workingDirectory layout.project world.files →
      build world = (.ok answer, after) →
    Stands root workingDirectory layout.project after.files ∧ layout.Leaves world.files after.files
  /-- A build makes its output directory. -/
  way : ∀ {world after : World τ} {answer : α}, Stands root workingDirectory layout.project world.files →
      build world = (.ok answer, after) →
    WayClear layout world.files ∧ after.files.lookup layout.way = some .directory
  /-- A build can be done in the files that the other target leaves. -/
  follows : ∀ {world after world' : World τ} {answer : α}, Stands root workingDirectory layout.project world.files →
      Stands root workingDirectory layout.project world'.files →
    build world = (.ok answer, after) → other.Leaves world.files world'.files → WayClear layout world'.files →
    ∃ after', build world' = (.ok answer, after') ∧
      ∀ location, layout.covers location = true → after'.files.lookup location = after.files.lookup location

/-- Where each of two builds that are independent of each other can be done, the second can be done after the first. -/
theorem IndependentOf.after {layout other : Layout} {root : Path} {workingDirectory : Location} {first second : Run τ α}
    (independent : IndependentOf other layout root workingDirectory first)
    (independent' : IndependentOf layout other root workingDirectory second)
    (apart : layout.Apart other) {world between between' : World τ} {answer answer' : α}
    (stands : Stands root workingDirectory layout.project world.files) (ended : first world = (.ok answer, between))
    (ended' : second world = (.ok answer', between')) : ∃ after, second between = (.ok answer', after) := by
  obtain ⟨standing, leaves⟩ := independent.leaves stands ended
  obtain ⟨-, made⟩ := independent.way stands ended
  rw [← apart.project] at stands standing
  have clear : WayClear other between.files := by
    rw [WayClear, apart.way]
    exact .inr made
  obtain ⟨after, finished, -⟩ := independent'.follows stands standing ended' leaves clear
  exact ⟨after, finished⟩

/-- Builds that are independent of each other can be done in either order, with the same answers and the same files in the end. -/
theorem IndependentOf.swap {layout other : Layout} {root : Path} {workingDirectory : Location} {first second : Run τ α}
    (independent : IndependentOf other layout root workingDirectory first)
    (independent' : IndependentOf layout other root workingDirectory second)
    (apart : layout.Apart other) {world between after : World τ} {answer answer' : α}
    (stands : Stands root workingDirectory layout.project world.files) (ended : first world = (.ok answer, between))
    (ended' : second between = (.ok answer', after)) :
    ∃ between' after', second world = (.ok answer', between') ∧ first between' = (.ok answer, after') ∧
        SameFiles after.files after'.files := by
  obtain ⟨standing, leaves⟩ := independent.leaves stands ended
  obtain ⟨clear, -⟩ := independent.way stands ended
  rw [← apart.project] at stands standing
  have wayClear (tree : FileTree) : WayClear other tree ↔ WayClear layout tree := by rw [WayClear, WayClear, apart.way]
  obtain ⟨-, leaves'⟩ := independent'.leaves standing ended'
  obtain ⟨-, there⟩ := independent'.way standing ended'
  -- the second build goes alike where the first has not been done yet
  obtain ⟨between', begun, same⟩ := independent'.follows standing stands ended' leaves.symm ((wayClear _).2 clear)
  obtain ⟨standing', leavesBegun⟩ := independent'.leaves stands begun
  obtain ⟨-, made⟩ := independent'.way stands begun
  rw [apart.project] at stands standing standing'
  -- and so does the first where the second has been done
  obtain ⟨after', finished, same'⟩ := independent.follows stands standing' ended leavesBegun ((wayClear _).1 (.inr made))
  obtain ⟨-, leavesFinished⟩ := independent.leaves standing' finished
  obtain ⟨-, there'⟩ := independent.way standing' finished
  refine ⟨between', after', begun, finished, fun location => ?_, ?_⟩
  · by_cases covered : layout.covers location = true
    · rw [same' location covered, leaves'.lookup (apart.outside location covered)]
    · by_cases covered' : other.covers location = true
      · rw [leavesFinished.lookup (apart.symm.outside location covered'), same location covered']
      · by_cases onWay : location = layout.way
        · rw [onWay, there', ← apart.way, there]
        · have outside : layout.Outside location := Layout.outside_iff.2 ⟨by simpa using covered, onWay⟩
          have outside' : other.Outside location := Layout.outside_iff.2 ⟨by simpa using covered', apart.way ▸ onWay⟩
          rw [leavesFinished.lookup outside, leavesBegun.lookup outside', leaves'.lookup outside', leaves.lookup outside]
  · rw [leavesFinished.working, leavesBegun.working, leaves'.working, leaves.working]

/-- A pairing from which a build starts: it is that of a plan, but for what is beside the sources. -/
structure StartsFrom (layout : Layout) (plan : Plan) (p : Pairing FileTree) : Prop where
  holds : ∀ tree, plan.Holds tree → p.holds tree
  leads : ∀ tree, p.leads tree → plan.Leads tree
  relates : ∀ tree other, p.leads tree → plan.Relates tree other →
    (∀ location, layout.beside location = true → other.lookup location = tree.lookup location) → p.relates tree other

/-- The plan in which some files are hidden from the builds of a target, and nothing is left in its output directory from before. -/
abbrev freshPlan (layout : Layout) (hidden : Location → Bool) (scratch : Part) (tree : FileTree) : Plan :=
  layout.plan hidden scratch (layout.base hidden tree) (fun _ => none) False

/-- A build that goes alike when nothing is hidden from it, and when what another target writes is, is independent of that target. -/
theorem IndependentOf.of_simulates {layout other : Layout} {root : Path} {workingDirectory : Location} {build : Run τ α}
    (apart : layout.Apart other) {start finish : Part}
    (begins : start ≠ .source ∧ start ≠ .loose ∧ start ≠ .output ∧ start ≠ .way) (ends : finish = .loose ∨ finish = .mirror)
    (made : ∀ {world after : World τ} {answer : α}, Stands root workingDirectory layout.project world.files →
        build world = (.ok answer, after) →
      after.files.WellFormed → after.files.LinkFree → after.files.lookup layout.way = some .directory)
    (alike : ∀ {world after : World τ} {answer : α}, Stands root workingDirectory layout.project world.files →
        build world = (.ok answer, after) →
      ∀ hidden, hidden = (fun _ => false) ∨ hidden = other.covers → ∃ p, StartsFrom layout (freshPlan layout hidden start world.files) p ∧
        Simulates p.ofFiles (freshPlan layout hidden finish world.files).pairing.ofFiles build build) :
    IndependentOf other layout root workingDirectory build := by
  have ne (part : Part) (never : part ≠ .loose ∧ part ≠ .mirror) : finish ≠ part := by
    obtain rfl | rfl := ends
    · exact never.1.symm
    · exact never.2.symm
  have holds {hidden : Location → Bool} {tree : FileTree} (stands : Stands root workingDirectory layout.project tree) :
      (freshPlan layout hidden start tree).Holds tree :=
    Layout.holds_plan stands.sound stands.free ⟨begins.1, begins.2.1, begins.2.2.1⟩ fun never => never.elim
  constructor
  case leaves =>
    intro world after answer stands ended
    obtain ⟨p, starts, simulates⟩ := alike stands ended _ (.inl rfl)
    obtain ⟨held, -⟩ := simulates (starts.holds _ (holds stands)) ended
    exact ⟨stands.onward held.sound held.free held.working, Layout.leaves_of_holds (ne _ (by decide)) held⟩
  case way =>
    intro world after answer stands ended
    obtain ⟨p, starts, simulates⟩ := alike stands ended _ (.inl rfl)
    obtain ⟨held, carried⟩ := simulates (starts.holds _ (holds stands)) ended
    have there := made stands ended held.sound held.free
    obtain ⟨leads, -⟩ := carried (Layout.leads_plan (ne _ (by decide)) there)
    have onWay : (freshPlan layout (fun _ => false) start world.files).part layout.way = .way :=
      @Layout.part_way layout (fun _ => false) start
    exact ⟨(starts.leads _ leads).way _ onWay, there⟩
  case follows =>
    intro world after world' answer stands stands' ended leaves clear
    obtain ⟨p, starts, simulates⟩ := alike stands ended _ (.inr rfl)
    obtain ⟨held, carried⟩ := simulates (starts.holds _ (holds stands)) ended
    obtain ⟨leads, now⟩ := carried (Layout.leads_plan (ne _ (by decide)) (made stands ended held.sound held.free))
    have beside (location : Location) (beside : layout.beside location = true) :
        world'.files.lookup location = world.files.lookup location :=
      leaves.lookup (apart.outside location (by simp [Layout.covers, beside]))
    obtain ⟨after', ended', related⟩ :=
      now world' (starts.relates _ _ leads (apart.relates leaves stands'.sound stands'.free clear begins) beside)
    refine ⟨after', ended', fun location covered => ?_⟩
    have known : (freshPlan layout other.covers finish world.files).Known location := by
      rw [Layout.covers, Bool.or_eq_true, decide_eq_true_eq] at covered
      obtain inside | beside := covered
      · exact .inr (.inl (.inr (Layout.part_output inside)))
      · have plays : (freshPlan layout other.covers finish world.files).part location = finish := Layout.part_beside beside
        obtain rfl | rfl := ends
        · exact .inr (.inr plays)
        · exact .inr (.inl (.inl plays))
    have nothing : (freshPlan layout other.covers finish world.files).spare location = none := by
      unfold spare
      split <;> rfl
    rw [related.lookup known, nothing, Option.or_none]

/-! ## The targets -/

theorem apart_edge (project : Location) : (edgeLayout project).Apart (serverLayout project) := by
  refine ⟨rfl, fun location covered => ?_⟩
  obtain ⟨names, rfl, names'⟩ : ∃ names, location = project ++ names ∧
      (["dist", "cloudflare"] <+: names ∨ names = ["src", "bindings", "compiled", "web_bindings", "plonk_wasm.tmp.js"]) := by
    rw [Layout.covers, Bool.or_eq_true, decide_eq_true_eq] at covered
    obtain ⟨below, rfl⟩ | beside := covered
    · exact ⟨["dist", "cloudflare"] ++ below, by simp [Layout.output, edgeLayout], .inl (List.prefix_append _ _)⟩
    · exact ⟨_, by simpa [edgeLayout, loaderPlace, bindingsDirectory] using beside, .inr rfl⟩
  have apart : ¬ ["dist", "cloudflare-node"] <+: names ∧ ¬ ["src", "bindings", "compiled", "_node_bindings"] <+: names ∧
      names ≠ ["dist"] := by
    obtain ⟨below, rfl⟩ | rfl := names' <;> simp
  refine ⟨fun inside => apart.1 ?_, decide_eq_false fun inside => apart.2.1 ?_, fun onWay => apart.2.2 (List.append_cancel_left onWay)⟩
  · exact (List.prefix_append_right_inj _).1 inside
  · rw [stagedPlace, compiledDirectory, List.append_assoc] at inside
    exact (List.prefix_append_right_inj _).1 inside

/-- Among the sources the server target writes where it stages its bindings alone. -/
theorem server_covers_eq_false {location : Location} {names : List String} (within : location <+: project ++ "src" :: names)
    (apart : ¬ ["bindings", "compiled", "_node_bindings"] <+: names) : (serverLayout project).covers location = false := by
  refine (Layout.outside_iff.1 (Layout.outside_of_within within (decide_eq_false fun inside => apart ?_))).1
  have inside := inside.trans within
  rw [stagedPlace, compiledDirectory, List.append_assoc] at inside
  exact (List.cons_prefix_cons.1 ((List.prefix_append_right_inj _).1 inside)).2

/-- Among the sources the edge target writes its temporary loader alone. -/
theorem edge_covers_eq_false {location : Location} {names : List String} (within : location <+: project ++ "src" :: names)
    (apart : ¬ ["bindings", "compiled", "web_bindings", "plonk_wasm.tmp.js"] <+: names) : (edgeLayout project).covers location = false := by
  refine (Layout.outside_iff.1 (Layout.outside_of_within within (decide_eq_false fun same => apart ?_))).1
  rw [same, loaderPlace, bindingsDirectory, List.append_assoc] at within
  exact (List.cons_prefix_cons.1 ((List.prefix_append_right_inj _).1 within)).2

/-- The text by which types are checked. -/
def entryPlace (project : Location) : Location := project ++ ["src", "index.ts"]

/-- The type checks of both targets are determined: each writes files in the output directory that its command names, which a
function makes of the command and of the text of the entry. -/
structure Checked (context : Context τ) (project workingDirectory : Location)
    (written : Command → Option Bytes → Option (List (List String × Bytes))) : Prop where
  below : ∀ command text list, written command text = some list → FilesBelow list
  runs : ∀ output ∈ [edgeDirectory project, serverDirectory project],
    ChecksText output (.ofLocation (entryPlace project))
      (written (Context.checkCommand workingDirectory project defaultTypecheck (.ofLocation output)))
      (context.runner (Context.checkCommand workingDirectory project defaultTypecheck (.ofLocation output)))

/-- A build that has come to its end has made its output directory. -/
theorem directory_of_completes {context : Context τ} {kind : TargetKind} {layout : Layout} {before after : FileTree} {result : TargetResult}
    (rooted : context.Rooted before) (output : context.outputOf kind = .ofLocation layout.output) (named : AreNames layout.output)
    (sound : after.WellFormed) (free : after.LinkFree) (completes : context.Completes kind before result after) :
    after.lookup layout.way = some .directory := by
  obtain ⟨directory, name, placed, -, valid, ⟨location, content, follows⟩, -⟩ := completes.output
  have place : context.publisher.root.join (kind.output context.settings) = context.outputOf kind := by cases kind <;> rfl
  rw [Context.path_apply rooted, place, output] at placed
  obtain rfl := Except.ok.inj (Prod.mk.inj placed).1
  have under : (Path.ofLocation layout.output).under [name] = .ofLocation (layout.output ++ [name]) := rfl
  rw [under] at follows
  have named' : AreNames (layout.output ++ [name]) := areNames_append.2 ⟨named, by simpa using valid⟩
  obtain ⟨-, rfl, present⟩ := (follow_entry_iff sound free named').1 follows
  have whole : layout.output = layout.way ++ [layout.name] := by simp [Layout.output, Layout.way]
  have directory := sound.parent layout.output name (by simp [present])
  rw [whole] at directory
  exact sound.parent layout.way layout.name (by simp [directory])

section

variable {context : Context τ} (defaults : context.settings = { projectRoot := context.settings.projectRoot })
  (start : context.publisher.root = .ofLocation project) {bundle : BuildOptions → Bytes → Option Bytes}
  {minified : String → TransformOptions → Option String} (tools : Determined context bundle minified) {workingDirectory : Location}
  {written : Command → Option Bytes → Option (List (List String × Bytes))} (checked : Checked context project workingDirectory written)

include defaults

theorem isPlain_entry : IsPlain context.settings.entry := by
  rw [defaults]
  exact isPlain_ofString "src/index.ts"

include start tools checked

/-- A build of the edge target goes alike when some files are hidden from it. -/
theorem simulates_edge {world after : World τ} {result : TargetResult}
    (stands : Stands context.settings.projectRoot workingDirectory project world.files)
    (ended : context.buildEdge world = (.ok result, after)) {hidden : Location → Bool}
    (visible : ∀ outer, outer <+: bindingsDirectory project → hidden outer = false)
    (seen : ∀ source ∈ edgeSources project, ∀ below, hidden (source ++ below) = false) (entry : hidden (entryPlace project) = false) :
    Simulates ((edgePlan project hidden .other ((edgeLayout project).base hidden world.files) (fun _ => none) False).clearOf
        (loaderPlace project)).ofFiles
      (edgePlan project hidden .loose ((edgeLayout project).base hidden world.files) (fun _ => none) False).pairing.ofFiles
      context.buildEdge context.buildEdge := by
  obtain ⟨fine, spelled⟩ := stands.free.straight_of_resolve stands.resolved
  obtain ⟨module, loader⟩ := exists_loader_of_buildEdge defaults start stands.resolved ended stands.sound stands.free stands.named
  have planning : EdgePlanning project hidden ((edgeLayout project).base hidden world.files) fun _ => none :=
    .of_loader stands.named stands.sound stands.free loader visible seen fun _ _ _ => rfl
  have outside : (edgeLayout project).Outside (entryPlace project) :=
    Layout.outside_of_within (List.prefix_refl _) (by simp [edgeLayout, loaderPlace, bindingsDirectory, entryPlace])
  have holds : (edgePlan project hidden .other ((edgeLayout project).base hidden world.files) (fun _ => none) False).Holds world.files :=
    Layout.holds_plan stands.sound stands.free (by decide) fun never => never.elim
  have named : AreNames (entryPlace project) := areNames_append.2 ⟨stands.named, by decide⟩
  have check : ChecksIn (edgePlan project hidden .loose ((edgeLayout project).base hidden world.files) (fun _ => none) False)
      (edgeDirectory project) _ _ :=
    (checked.runs _ List.mem_cons_self).inPlan stands.sound stands.free named (Layout.part_source outside entry)
      (holds.lookup_source (Layout.part_source outside entry))
  obtain rfl := stands.working
  exact planning.simulates_buildEdge defaults start spelled tools (checked.below _ _) check fine

/-- A build of the server target goes alike when some files are hidden from it. -/
theorem simulates_server {world after : World τ} {result : TargetResult}
    (stands : Stands context.settings.projectRoot workingDirectory project world.files)
    (ended : context.buildServer world = (.ok result, after)) {hidden : Location → Bool}
    (visible : ∀ outer, outer <+: compiledDirectory project → hidden outer = false)
    (seen : ∀ source ∈ serverSources project, ∀ below, hidden (source ++ below) = false) (entry : hidden (entryPlace project) = false) :
    RunsAlike (serverPlan project hidden .mirror ((serverLayout project).base hidden world.files) (fun _ => none) False)
      context.buildServer := by
  obtain ⟨fine, spelled⟩ := stands.free.straight_of_resolve stands.resolved
  have there := bindings_of_buildServer defaults start stands.resolved ended stands.sound stands.free stands.named
  have planning : ServerPlanning project hidden ((serverLayout project).base hidden world.files) :=
    .of_bindings stands.named stands.sound stands.free there visible seen
  have outside : (serverLayout project).Outside (entryPlace project) :=
    Layout.outside_of_within (List.prefix_refl _) (by simp [serverLayout, stagedPlace, compiledDirectory, entryPlace])
  have holds : (serverPlan project hidden .mirror ((serverLayout project).base hidden world.files) (fun _ => none)
      False).Holds world.files :=
    Layout.holds_plan stands.sound stands.free (by decide) fun never => never.elim
  have named : AreNames (entryPlace project) := areNames_append.2 ⟨stands.named, by decide⟩
  have check : ChecksIn (serverPlan project hidden .mirror ((serverLayout project).base hidden world.files) (fun _ => none) False)
      (serverDirectory project) _ _ :=
    (checked.runs _ (List.mem_cons_of_mem _ List.mem_cons_self)).inPlan stands.sound stands.free named (Layout.part_source outside entry)
      (holds.lookup_source (Layout.part_source outside entry))
  obtain rfl := stands.working
  exact planning.alike_buildServer defaults start spelled tools (checked.below _ _) check fine

/-- The edge target is independent of the server target. -/
theorem independent_edge : IndependentOf (serverLayout project) (edgeLayout project) context.settings.projectRoot workingDirectory
    context.buildEdge := by
  refine @IndependentOf.of_simulates τ _ (edgeLayout project) _ _ _ _ (apart_edge project) .other .loose (by decide) (.inl rfl) ?made ?alike
  case made =>
    intro world after result stands ended sound free
    have output : context.outputOf .edge = .ofLocation (edgeLayout project).output := (paths_default defaults start).1
    have named : AreNames (edgeDirectory project) := areNames_append.2 ⟨stands.named, by decide⟩
    exact directory_of_completes ⟨project, stands.resolved, start⟩ output named sound free
      (Context.buildEdge_completes (isPlain_entry defaults) ended)
  case alike =>
    intro world after result stands ended hidden hides
    have clear {location : Location} {names : List String} (within : location <+: project ++ "src" :: names)
        (apart : ¬ ["bindings", "compiled", "_node_bindings"] <+: names) : hidden location = false := by
      obtain rfl | rfl := hides
      · rfl
      · exact server_covers_eq_false within apart
    have starts : StartsFrom (edgeLayout project) (freshPlan (edgeLayout project) hidden .other world.files)
        ((freshPlan (edgeLayout project) hidden .other world.files).clearOf (loaderPlace project)) :=
      ⟨fun _ holds => holds, fun _ leads => leads.1,
        fun tree other leads related beside => ⟨related, beside (loaderPlace project) (by simp [edgeLayout]) ▸ leads.2⟩⟩
    have bindings (below : List String) : bindingsDirectory project ++ below =
        project ++ "src" :: (["bindings", "compiled", "web_bindings"] ++ below) := by
      simp [bindingsDirectory]
    refine ⟨_, starts, simulates_edge defaults start tools checked stands ended (fun outer within => ?above)
      (fun source mem below => ?source)
      (clear (List.prefix_refl _) (by decide))⟩
    case above => exact @clear outer ["bindings", "compiled", "web_bindings"] within (by decide)
    case source =>
      obtain ⟨names, same, apart⟩ : ∃ names, source ++ below = project ++ "src" :: names ∧
          ¬ ["bindings", "compiled", "_node_bindings"] <+: names := by
        simp only [edgeSources, List.mem_cons, List.not_mem_nil, or_false] at mem
        obtain rfl | rfl | rfl | rfl := mem
        · exact ⟨_, bindings below, by simp⟩
        all_goals exact ⟨_, List.append_assoc _ _ _, by simp⟩
      exact clear (same ▸ List.prefix_refl _) apart

/-- The server target is independent of the edge target. -/
theorem independent_server : IndependentOf (edgeLayout project) (serverLayout project) context.settings.projectRoot workingDirectory
    context.buildServer := by
  refine @IndependentOf.of_simulates τ _ (serverLayout project) _ _ _ _ (apart_edge project).symm .mirror .mirror (by decide)
      (.inr rfl) ?made ?alike
  case made =>
    intro world after result stands ended sound free
    have output : context.outputOf .server = .ofLocation (serverLayout project).output := (serverPaths_default defaults start).1
    have named : AreNames (serverDirectory project) := areNames_append.2 ⟨stands.named, by decide⟩
    exact directory_of_completes ⟨project, stands.resolved, start⟩ output named sound free
      (Context.buildServer_completes (isPlain_entry defaults) ended)
  case alike =>
    intro world after result stands ended hidden hides
    have clear {location : Location} {names : List String} (within : location <+: project ++ "src" :: names)
        (apart : ¬ ["bindings", "compiled", "web_bindings", "plonk_wasm.tmp.js"] <+: names) : hidden location = false := by
      obtain rfl | rfl := hides
      · rfl
      · exact edge_covers_eq_false within apart
    have starts : StartsFrom (serverLayout project) (freshPlan (serverLayout project) hidden .mirror world.files)
        (freshPlan (serverLayout project) hidden .mirror world.files).pairing :=
      ⟨fun _ holds => holds, fun _ leads => leads, fun _ _ _ related _ => related⟩
    refine ⟨_, starts, simulates_server defaults start tools checked stands ended (fun outer within => ?above)
      (fun source mem below => ?source)
      (clear (List.prefix_refl _) (by decide))⟩
    case above => exact @clear outer ["bindings", "compiled"] within (by decide)
    case source =>
      obtain ⟨names, same, apart⟩ : ∃ names, source ++ below = project ++ "src" :: names ∧
          ¬ ["bindings", "compiled", "web_bindings", "plonk_wasm.tmp.js"] <+: names := by
        simp only [serverSources, List.mem_cons, List.not_mem_nil, or_false] at mem
        obtain rfl | rfl := mem
        · exact ⟨["bindings", "compiled", "node_bindings"] ++ below, by simp [nodeBindings, compiledDirectory], by simp⟩
        · exact ⟨_, List.append_assoc _ _ _, by simp⟩
      exact clear (same ▸ List.prefix_refl _) apart

end

/-! ## Building both targets -/

/-- Two targets are built one after the other. -/
theorem buildAll_pair_ends_iff {names : List String} {first second : Target τ}
    (found : names.mapM Registry.standard.find = .ok [first, second])
    {context : Context τ} {world after : World τ} {results : List TargetResult} :
    Registry.standard.buildAll names context world = (.ok results, after) ↔ ∃ result between result',
      first.build context world = (.ok result, between) ∧ second.build context between = (.ok result', after) ∧
          results = [result, result'] := by
  unfold Registry.buildAll
  rw [found]
  simp only [List.mapM_cons, List.mapM_nil, bind_assoc, pure_bind]
  rw [bind_ends_iff]
  refine exists_congr fun result => exists_congr fun between => ?_
  rw [bind_ends_iff]
  constructor
  · rintro ⟨ended, result', last, ended', same⟩
    obtain ⟨results_eq, rfl⟩ := Prod.mk.inj same
    exact ⟨result', ended, ended', (Except.ok.inj results_eq).symm⟩
  · rintro ⟨result', ended, ended', rfl⟩
    exact ⟨ended, result', after, ended', rfl⟩

/-- A project with what both targets publish by default. -/
def bothProject : FileTree := Context.smallProject [(["p", "src", "index.ts"], .file (encode "i")),
  (["p", "src", "bindings", "compiled", "node_bindings"], .directory),
  (["p", "src", "bindings", "compiled", "node_bindings", "plonk_wasm.d.cts"], .file (encode "t"))]

theorem checked_both : Checked determinedContext ["p"] ["p"] fun _ _ => some [(["index.js"], encode "i")] where
  below _ _ list listed := Option.some.inj listed ▸ filesBelow_small
  runs output mem := by
    have named : outputNamed (Context.checkCommand ["p"] ["p"] defaultTypecheck (.ofLocation output)) = output := by
      simp only [List.mem_cons, List.not_mem_nil, or_false] at mem
      obtain rfl | rfl := mem <;> decide +kernel
    intro world files
    rw [checksBy_small (Context.checkCommand ["p"] ["p"] defaultTypecheck (.ofLocation output)) world files, named]
    exact ⟨fun written => ⟨_, rfl, written⟩, fun ⟨_, same, written⟩ => Option.some.inj same ▸ written⟩

/-- A build succeeds and lists a path. -/
def lists (outcome : Except Failure TargetResult × World Unit) (path : Path) : Bool := outcome.1.toOption.any (·.files.contains path)

theorem exists_of_lists {outcome : Except Failure TargetResult × World Unit} {path : Path} (listed : lists outcome path = true) :
    ∃ result, outcome = (.ok result, outcome.2) ∧ path ∈ result.files := by
  rcases outcome with ⟨_ | result, after⟩
  · cases listed
  · exact ⟨result, rfl, List.contains_iff_mem.1 listed⟩

theorem buildServer_lists_both :
    lists (determinedContext.buildServer ⟨bothProject, ()⟩) (.ofLocation ["p", "dist", "cloudflare-node", "snarky.d.ts"]) = true := by
  decide +kernel

theorem buildEdge_lists_both :
    lists (determinedContext.buildEdge ⟨bothProject, ()⟩) (.ofLocation ["p", "dist", "cloudflare", "snarky.js"]) = true := by
  decide +kernel

end WasmPackaging.Targets
