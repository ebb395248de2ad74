import WasmPackaging.Proofs.Targets.PublishedLoader
import WasmPackaging.Targets.Server

/-!
Failures no later than the type check. Up to there a build changes one place apart from its output directory: the
temporary loader, or the staged copy of the bindings. A build in which one of these steps fails calls none of the later
tools and leaves its output directory as it was (`build_publishes_nothing`), where no tool leaves a link: through one that
leads to a published file, the build itself writes over that file (`build_writes_through_link`). To say what the tools did
in one run, their calls are recorded with the files before and after each.
-/

namespace WasmPackaging.Targets

open Bundling Config FileTree

variable {τ α β : Type}

/-! ## Recorded calls -/

/-- A tool of a build. -/
inductive Tool where
  | bundler
  | minifier
  | runner
  deriving DecidableEq

/-- A call of a tool, with the files before it and after it. -/
structure Call where
  tool : Tool
  before : FileTree
  after : FileTree

/-- A run that is the call of a tool, which is recorded behind those before it. -/
def recordCall (tool : Tool) (run : Run τ α) : Run (τ × List Call) α := fun world =>
  let (result, after) := run ⟨world.files, world.tools.1⟩
  (result, ⟨after.files, after.tools, world.tools.2 ++ [⟨tool, world.files, after.files⟩]⟩)

/-- A context whose tools do the same, and whose calls are recorded. -/
def Context.recorded (context : Context τ) : Context (τ × List Call) where
  settings := context.settings
  publisher := context.publisher
  bundler :=
    { build := fun options => recordCall .bundler (context.bundler.build options)
      transform := fun code options => recordCall .minifier (context.bundler.transform code options) }
  runner := fun command => recordCall .runner (context.runner command)
  hostPlatform := context.hostPlatform

/-! ## Places that are spared -/

/-- Files that differ from others nowhere at or below one location, and have no links. That nothing was changed there is not
enough of a call: what follows may write through a link that it leaves elsewhere. -/
structure Spared (top : Location) (before after : FileTree) : Prop where
  sound : after.WellFormed
  free : after.LinkFree
  working : after.workingDirectory = before.workingDirectory
  kept : ∀ location, top <+: location → after.lookup location = before.lookup location

namespace Spared

variable {top scratch : Location} {before between after : FileTree}

theorem refl (sound : before.WellFormed) (free : before.LinkFree) : Spared top before before := ⟨sound, free, rfl, fun _ _ => rfl⟩

theorem trans (first : Spared top before between) (second : Spared top between after) : Spared top before after :=
  ⟨second.sound, second.free, second.working.trans first.working,
    fun location inside => (second.kept location inside).trans (first.kept location inside)⟩

/-- What is changed in another place leaves a location as it was, with all below it. -/
theorem of_confined (apart : ¬ top <+: scratch ∧ ¬ scratch <+: top) (confined : Confined (.below scratch) before after) :
    Spared top before after := by
  refine ⟨confined.sound, confined.free, confined.working, fun location inside => ?_⟩
  refine confined.lookup_eq (fun below => ?_) fun above => apart.1 (inside.trans above)
  rw [Zone.allows_below] at below
  exact (List.prefix_or_prefix_of_prefix inside below).elim apart.1 apart.2

end Spared

/-! ## Runs that follow a plan -/

/-- A run, recorded, is the run itself with its calls. They are those that are planned, in order, up to where it fails, and
when they spare a location, so does the run. -/
def Follows (top working : Location) (planned : List Tool) (recorded : Run (τ × List Call) α) (run : Run τ α) : Prop :=
  ∀ files tools calls, ∃ more,
    recorded ⟨files, tools, calls⟩ = ((run ⟨files, tools⟩).1, ⟨(run ⟨files, tools⟩).2.files, (run ⟨files, tools⟩).2.tools, calls ++ more⟩) ∧
    more.map Call.tool <+: planned ∧ (∀ answer, (run ⟨files, tools⟩).1 = .ok answer → more.map Call.tool = planned) ∧
    (files.WellFormed → files.LinkFree → files.workingDirectory = working →
      (∀ call ∈ more, Spared top call.before call.after) → Spared top files (run ⟨files, tools⟩).2.files)

namespace Follows

variable {top working : Location} {planned : List Tool}

theorem onFiles {act : FileRun α} (spares : ∀ now : FileTree, now.WellFormed → now.LinkFree → now.workingDirectory = working →
    Spared top now (act now).2) : Follows top working [] (monadLift act : Run (τ × List Call) α) (monadLift act : Run τ α) := by
  intro files tools calls
  refine ⟨[], by simp [Run.onFiles_apply], List.prefix_refl _, fun _ _ => rfl, fun sound free same _ => ?_⟩
  rw [Run.onFiles_apply]
  exact spares files sound free same

theorem pure (answer : α) : Follows top working [] (Pure.pure answer : Run (τ × List Call) α) (Pure.pure answer : Run τ α) :=
  fun files tools calls => ⟨[], by rw [List.append_nil]; rfl, List.prefix_refl _, fun _ _ => rfl,
    fun sound free _ _ => .refl sound free⟩

theorem call (tool : Tool) (run : Run τ α) : Follows top working [tool] (recordCall tool run) run := by
  intro files tools calls
  refine ⟨[⟨tool, files, (run ⟨files, tools⟩).2.files⟩], rfl, List.prefix_refl _, fun _ _ => rfl, fun _ _ _ spared => ?_⟩
  exact spared _ List.mem_cons_self

theorem bind {later : List Tool} {recorded : Run (τ × List Call) α} {run : Run τ α} {recorded' : α → Run (τ × List Call) β}
    {run' : α → Run τ β} (first : Follows top working planned recorded run)
    (second : ∀ answer, Follows top working later (recorded' answer) (run' answer)) :
    Follows top working (planned ++ later) (recorded >>= recorded') (run >>= run') := by
  intro files tools calls
  obtain ⟨more, same, within, complete, spares⟩ := first files tools calls
  rw [bind_apply, bind_apply, same]
  rcases ran : run ⟨files, tools⟩ with ⟨_ | answer, between⟩ <;> rw [ran] at complete spares <;> simp only
  · exact ⟨more, rfl, within.trans (List.prefix_append _ _), nofun, spares⟩
  · obtain ⟨more', same', within', complete', spares'⟩ := second answer between.files between.tools (calls ++ more)
    have whole := complete answer rfl
    refine ⟨more ++ more', by rw [same', List.append_assoc], ?_, fun answer' ended => ?_, fun sound free here spared => ?_⟩
    · rw [List.map_append, whole]
      exact (List.prefix_append_right_inj _).2 within'
    · rw [List.map_append, whole, complete' answer' ended]
    · have first := spares sound free here fun call mem => spared call (List.mem_append_left _ mem)
      have second := spares' first.sound first.free (first.working.trans here) fun call mem => spared call (List.mem_append_right _ mem)
      exact first.trans second

end Follows

/-! ## The steps up to the type check -/

/-- A target that can be built. -/
inductive TargetKind where
  | edge
  | server

/-- A step of a build, with the tools that it calls. -/
structure Step (τ : Type) where
  run : Run τ Unit
  tools : List Tool := []

/-- Does some steps one after another. -/
def runSteps (steps : List (Step τ)) : Run τ Unit := forM steps Step.run

namespace Context

variable (context : Context τ)

/-- The output directory of the server target in the project. -/
def serverOutput : Path := context.publisher.root.join context.settings.server.outputDirectory

/-- The bindings of the server target in the project. -/
def serverBindings : Path := context.publisher.root.join context.settings.server.bindingsDirectory

/-- Writes the loader module, with its payload taken from a binding, to its temporary file. -/
def inlineLoader (loader temporary : Path) : FileRun Unit := do
  let source ← readScript loader
  let rewritten ← inlined (loaderOptions context.settings.edge) source
  writeScript temporary rewritten

/-- Makes a factory of the bundled loader. -/
def makeFactory (temporary : Path) : FileRun Unit := do
  let bundled ← readScript temporary
  let factory ← asFactory (loaderOptions context.settings.edge) bundled
  writeScript temporary factory

/-- The output directory of a target. -/
def outputOf : TargetKind → Path
  | .edge => context.edgeOutput
  | .server => context.serverOutput

/-- The place that the steps of a target up to its type check change: the temporary loader, or the staged copy of the
bindings. -/
def scratchOf : TargetKind → Option Path
  | .edge => some context.edgeTemporary
  | .server =>
    (context.serverBindings.withName context.settings.server.stagedBindingsName).toOption.map context.publisher.root.join

/-- The steps of a target up to its type check. -/
def earlySteps : TargetKind → List (Step τ)
  | .edge => [
      { run := do let _ ← (context.publisher.place context.edgeTemporary : FileRun Path) },
      { run := (context.inlineLoader context.edgeLoader context.edgeTemporary : FileRun Unit) },
      { run := context.bundler.build (loaderBuild context.settings context.edgeTemporary), tools := [.bundler] },
      { run := (context.makeFactory context.edgeTemporary : FileRun Unit) },
      { run := context.checkTypes context.settings.edge.typecheckCommand context.edgeOutput, tools := [.runner] }]
  | .server => [
      { run := (context.stageBindings context.serverBindings : FileRun Unit) },
      { run := context.checkTypes context.settings.server.typecheckCommand context.serverOutput, tools := [.runner] }]

/-- The build of a target. -/
def build : TargetKind → Run τ TargetResult
  | .edge => context.buildEdge
  | .server => context.buildServer

/-- The calls of tools in the build of a target. -/
def callsOf (kind : TargetKind) (world : World τ) : List Call :=
  (context.recorded.build kind ⟨world.files, world.tools, []⟩).2.tools.2

end Context

/-- Some of the first steps fail just as all of them do then. -/
theorem runSteps_of_take {steps : List (Step τ)} {n : Nat} {world stopped : World τ} {failure : Failure}
    (failed : runSteps (steps.take n) world = (.error failure, stopped)) : runSteps steps world = (.error failure, stopped) := by
  have whole : runSteps steps = (do runSteps (steps.take n); runSteps (steps.drop n)) := by
    unfold runSteps
    rw [← List.forM_append, List.take_append_drop]
  rw [whole, bind_apply, failed]

theorem Run.onFiles_bind (act : FileRun α) (next : α → FileRun β) :
    (monadLift (act >>= next) : Run τ β) = (do let answer ← (monadLift act : Run τ α); monadLift (next answer)) := by
  funext world
  rw [bind_apply, Run.onFiles_apply, Run.onFiles_apply, bind_apply]
  rcases act world.files with ⟨_ | answer, between⟩ <;> rfl

namespace Context

variable {context : Context τ}

/-- What the loader's preparation comes to when it succeeds. -/
def preparedResult : TargetResult :=
  { target := "edge", sequence := edgeStages, stages := [.idle, .sourceRewritten, .bundled, .postRewritten] }

theorem prepareLoader_eq (loader temporary : Path) :
    context.prepareLoader { target := "edge", sequence := edgeStages } loader temporary = (do
      (context.inlineLoader loader temporary : FileRun Unit)
      context.bundler.build (loaderBuild context.settings temporary)
      (context.makeFactory temporary : FileRun Unit)
      return preparedResult : Run τ TargetResult) := by
  have first : reach { target := "edge", sequence := edgeStages } .sourceRewritten =
    pure { target := "edge", sequence := edgeStages, stages := [.idle, .sourceRewritten] } := rfl
  have second : reach { target := "edge", sequence := edgeStages, stages := [.idle, .sourceRewritten] } .bundled =
    pure { target := "edge", sequence := edgeStages, stages := [.idle, .sourceRewritten, .bundled] } := rfl
  have third : reach { target := "edge", sequence := edgeStages, stages := [.idle, .sourceRewritten, .bundled] } .postRewritten =
    pure preparedResult := rfl
  have lifted {α : Type} (a : α) : (monadLift (pure a : FileRun α) : Run τ α) = pure a := rfl
  unfold prepareLoader inlineLoader makeFactory
  simp only [liftM, Run.onFiles_bind, first, lifted, pure_bind, bind_assoc, second, third]

/-- What a build of the edge target does once the types are checked, while its temporary loader is there. -/
def publishSteps (context : Context τ) (output temporary : Path) : Run τ (TargetResult × Path) := do
  let result ← context.publishEdge preparedResult output temporary
  let entry := output.child (← (entryScript context.settings : FileRun String))
  context.bundler.build (edgeBuild context.settings entry)
  let result ← (reach result .repackagedBundled : FileRun TargetResult)
  (context.publisher.deleteTemporary temporary : FileRun Unit)
  return (result, entry)

theorem edgeSteps_eq : context.edgeSteps context.edgeOutput context.edgeLoader context.edgeTemporary = (do
    runSteps ((context.earlySteps .edge).drop 1)
    context.publishSteps context.edgeOutput context.edgeTemporary) := by
  unfold edgeSteps runSteps earlySteps publishSteps
  rw [prepareLoader_eq]
  simp only [bind_assoc, pure_bind, List.drop_succ_cons, List.drop_zero, List.forM_cons, List.forM_nil]

/-- A build of the edge target in a project begins with its early steps; what follows is not done when one of them fails. -/
theorem buildEdge_fails {world stopped : World τ} {failure : Failure} (rooted : context.Rooted world.files)
    (failed : runSteps (context.earlySteps .edge) world = (.error failure, stopped)) :
    ∃ failure' after, context.buildEdge world = (.error failure', after) ∧ after.tools = stopped.tools ∧
      (after.files = stopped.files ∨ ∃ target, context.publisher.place context.edgeTemporary world.files = (.ok target, world.files) ∧
        after.files = (Publisher.discard target stopped.files).2) := by
  have unchanged : (context.publisher.place context.edgeTemporary world.files).2 = world.files := by
    unfold Publisher.place FileRun.resolveIn
    rw [FileRun.resolve_apply]
  have split : runSteps (context.earlySteps .edge) = (do
      let _ ← (context.publisher.place context.edgeTemporary : FileRun Path)
      runSteps ((context.earlySteps .edge).drop 1)) := by
    simp only [runSteps, earlySteps, List.forM_cons, List.drop_succ_cons, List.drop_zero, bind_assoc, pure_bind]
  rw [split, bind_apply] at failed
  rw [buildEdge_apply rooted, bind_apply]
  unfold Publisher.withTemporary
  rw [bind_apply]
  rcases placed : context.publisher.place context.edgeTemporary world.files with ⟨_ | target, files⟩ <;> rw [placed] at unchanged
  · simp only [liftM, Run.onFiles_apply, placed] at failed ⊢
    obtain ⟨-, rfl⟩ := Prod.mk.inj failed
    exact ⟨_, _, rfl, rfl, .inl rfl⟩
  · obtain rfl : files = world.files := unchanged
    simp only [liftM, Run.onFiles_apply, placed] at failed ⊢
    rw [tryFinally_apply, edgeSteps_eq, bind_apply, failed]
    simp only [Run.onFiles_apply]
    rcases gone : Publisher.discard target stopped.files with ⟨_ | _, final⟩
    · exact ⟨_, _, rfl, rfl, .inr ⟨target, rfl, by rw [gone]⟩⟩
    · exact ⟨_, _, rfl, rfl, .inr ⟨target, rfl, by rw [gone]⟩⟩

/-- What a build of the server target does once the types are checked. -/
def finishServer (context : Context τ) (output : Path) : Run τ TargetResult := do
  let server := context.settings.server
  let place ← (context.relativeText output : FileRun String)
  let files ← (context.publisher.copySwapped (server.assets.map Path.ofString) server.sourceStart
    (place ++ "/") : FileRun (List Path))
  let entry := output.child (← (entryScript context.settings : FileRun String))
  match Plugin.forCompanions (← Run.files) output server.companionSuffixes with
  | .error failure => throw failure
  | .ok companions =>
    context.bundler.build (serverBuild context.settings entry companions context.hostPlatform)
    let result := TargetResult.publish { target := "server", sequence := serverStages } files
    let result ← (reach result .bundled : FileRun TargetResult)
    let entry ← (verifyOutput output entry none : FileRun Path)
    let result ← (reach { result with entry := some entry } .published : FileRun TargetResult)
    (reach result .done : FileRun TargetResult)

/-- A build of the server target in a project. -/
theorem buildServer_apply {world : World τ} (rooted : context.Rooted world.files) :
    context.buildServer world = (do
      runSteps (context.earlySteps .server)
      context.finishServer context.serverOutput : Run τ TargetResult) world := by
  have place (path : Path) : (liftM (context.path path) : Run τ Path) world = (.ok (context.publisher.root.join path), world) :=
    (Run.onFiles_apply _ _).trans (by rw [path_apply rooted])
  simp only [runSteps, earlySteps, List.forM_cons, List.forM_nil, bind_assoc, pure_bind]
  unfold buildServer
  rw [bind_apply, place]
  simp only
  rw [bind_apply, place]
  rfl

/-- When an early step of a build fails, what follows is not done; the temporary file is discarded if there is one. -/
theorem build_fails {kind : TargetKind} {world stopped : World τ} {failure : Failure} (rooted : context.Rooted world.files)
    (failed : runSteps (context.earlySteps kind) world = (.error failure, stopped)) :
    ∃ failure' after, context.build kind world = (.error failure', after) ∧ after.tools = stopped.tools ∧
      (after.files = stopped.files ∨ ∃ scratch ∈ context.scratchOf kind, ∃ target,
        context.publisher.place scratch world.files = (.ok target, world.files) ∧
        after.files = (Publisher.discard target stopped.files).2) := by
  cases kind with
  | edge =>
    obtain ⟨failure', after, ended, tools, files⟩ := buildEdge_fails rooted failed
    exact ⟨failure', after, ended, tools, files.imp_right fun discarded => ⟨_, rfl, discarded⟩⟩
  | server =>
    refine ⟨failure, stopped, ?_, rfl, .inl rfl⟩
    change context.buildServer world = _
    rw [buildServer_apply rooted, bind_apply, failed]

end Context

/-! ## What the steps spare -/

/-- What keeps each tree, keeps the files. -/
theorem unchanged_of_keeps {act : FileRun α} (keeps : ∀ now : FileTree, Keeps (· = now) (fun _ => True) act) (now : FileTree) :
    (act now).2 = now := (keeps now).after rfl

section

variable {top working scratch : Location} {planned : List Tool}

theorem Follows.of_unchanged {act : FileRun α} (unchanged : ∀ now, (act now).2 = now) :
    Follows top working [] (monadLift act : Run (τ × List Call) α) (monadLift act : Run τ α) :=
  .onFiles fun now sound free _ => by
    rw [unchanged]
    exact .refl sound free

/-- A run on the files that keeps to one place spares the others. -/
theorem Follows.of_keeps {act : FileRun α} (apart : ¬ top <+: scratch ∧ ¬ scratch <+: top)
    (keeps : ∀ now : FileTree, now.WellFormed → now.LinkFree → now.workingDirectory = working → KeepsTo (.below scratch) now act) :
    Follows top working [] (monadLift act : Run (τ × List Call) α) (monadLift act : Run τ α) :=
  .onFiles fun now sound free same => .of_confined apart ((keeps now sound free same).after (.startBelow sound free))

namespace Context

variable (context : Context τ)

theorem root_files (now : FileTree) : (context.root now).2 = now := by
  unfold root
  rw [FileRun.resolve_apply]

theorem keeps_any_root {invariant : FileTree → Prop} : Keeps invariant (fun _ => True) context.root :=
  .of_after fun before holds => by rwa [root_files]

theorem keeps_any_relativeText {invariant : FileTree → Prop} (path : Path) : Keeps invariant (fun _ => True) (context.relativeText path) :=
  Keeps.bind context.keeps_any_root fun _ _ => .get fun _ holds => .pure ⟨trivial, holds⟩

theorem keeps_any_placeholders {invariant : FileTree → Prop} (output : Path) : Keeps invariant (fun _ => True) (context.placeholders output) :=
  Keeps.bind (context.keeps_any_relativeText output) fun _ _ => Keeps.bind context.keeps_any_root fun _ _ => .pure trivial

theorem placeholders_files (output : Path) (now : FileTree) : (context.placeholders output now).2 = now :=
  unchanged_of_keeps (fun _ => context.keeps_any_placeholders output) now

/-- The type check calls its command, and changes files through it alone. -/
theorem follows_checkTypes (template : List String) (output : Path) :
    Follows top working [.runner] (context.recorded.checkTypes template output) (context.checkTypes template output) := by
  have called (command : Command) : Follows top working [.runner]
      (do let _ ← context.recorded.runner command) (do let _ ← context.runner command) :=
    (Follows.call .runner (context.runner command)).bind fun _ => .pure _
  refine (Follows.of_unchanged (context.placeholders_files output)).bind fun values => ?_
  exact (Follows.of_unchanged context.root_files).bind fun directory => called _

variable {context}

/-- A script that is written over one that was read changes nothing else: the directories on the way there are there. -/
theorem keeps_rewrite {tree : FileTree} {source target : Path} {extra : List String} (beside : source = target.parent.under extra)
    (change : String → FileRun String) (unchanged : ∀ text now, (change text now).2 = now) :
    KeepsTo (.below (tree.straight target)) tree (do
      let text ← readScript source
      let text ← change text
      writeScript target text) := by
  refine Keeps.bind (keeps_readScript _) fun text ⟨now, content, confined, script⟩ => ?_
  have roams : (Zone.below (tree.straight target)).Roams tree target.parent := by
    rw [beside] at script
    exact confined.roams_of_read script fun loose => nomatch loose
  refine Keeps.bind (.of_after fun now confined => by rwa [unchanged]) fun text _ => ?_
  exact keeps_writeScript roams (.inl (List.prefix_refl _))

/-- The loader is prepared in its temporary place. -/
theorem keeps_inlineLoader (tree : FileTree) :
    KeepsTo (.below (tree.straight context.edgeTemporary)) tree (context.inlineLoader context.edgeLoader context.edgeTemporary) := by
  obtain ⟨extra, beside, -⟩ := context.settings.edge.temporary_beside tree context.publisher.root
  exact keeps_rewrite beside (inlined _) fun text => unchanged_of_keeps fun _ => keeps_inlined _ text

theorem keeps_makeFactory (tree : FileTree) (temporary : Path) :
    KeepsTo (.below (tree.straight temporary)) tree (context.makeFactory temporary) := by
  obtain ⟨extra, whole⟩ := temporary.exists_under_parent
  exact keeps_rewrite whole (asFactory _) fun text => unchanged_of_keeps fun _ => keeps_asFactory _ text

/-- The bindings are staged in one place. -/
theorem keeps_stageBindings {tree : FileTree} (sound : tree.WellFormed) (free : tree.LinkFree) {bindings staged : Path}
    (renamed : bindings.withName context.settings.server.stagedBindingsName = .ok staged) :
    KeepsTo (.below (tree.straight (context.publisher.root.join staged))) tree (context.stageBindings bindings) := by
  unfold stageBindings
  rw [renamed]
  refine Keeps.bind (context.publisher.keeps_copy sound free _ _ fun pair mem => ?_) fun _ _ => .pure trivial
  obtain rfl := List.mem_singleton.1 mem
  exact List.prefix_refl _

/-- Each early step of a target follows its plan. -/
theorem follows_earlySteps (kind : TargetKind) (tree : FileTree)
    (apart : ∀ scratch ∈ context.scratchOf kind, ¬ top <+: tree.straight scratch ∧ ¬ tree.straight scratch <+: top) :
    List.Forall₂ (fun recorded step => Follows top tree.workingDirectory step.tools recorded.run step.run)
      (context.recorded.earlySteps kind) (context.earlySteps kind) := by
  cases kind with
  | edge =>
    obtain apart := apart _ rfl
    refine .cons ?place (.cons ?inline (.cons ?bundle (.cons ?factory (.cons ?check .nil))))
    case place =>
      refine (Follows.of_unchanged fun now => ?_).bind fun _ => .pure _
      unfold Publisher.place FileRun.resolveIn
      rw [FileRun.resolve_apply]
    case inline =>
      refine .of_keeps apart fun now _ _ same => ?_
      rw [← straight_congr same]
      exact keeps_inlineLoader now
    case bundle => exact .call .bundler _
    case factory =>
      refine .of_keeps apart fun now _ _ same => ?_
      rw [← straight_congr same]
      exact keeps_makeFactory now _
    case check => exact context.follows_checkTypes _ _
  | server =>
    refine .cons ?stage (.cons ?check .nil)
    case stage =>
      rcases renamed : context.serverBindings.withName context.settings.server.stagedBindingsName with e | staged
      · have unchanged (now : FileTree) : (context.stageBindings context.serverBindings now).2 = now := by
          unfold stageBindings
          rw [renamed]
          rfl
        exact .of_unchanged unchanged
      · have apart := apart _ (by rw [scratchOf, renamed]; rfl)
        refine .of_keeps apart fun now sound free same => ?_
        rw [← straight_congr same]
        exact keeps_stageBindings sound free renamed
    case check => exact context.follows_checkTypes _ _

end Context

/-- The first of some steps that follow their plans follow the whole plan one after another. -/
theorem Follows.runSteps {recorded : List (Step (τ × List Call))} {steps : List (Step τ)}
    (each : List.Forall₂ (fun recorded step => Follows top working step.tools recorded.run step.run) recorded steps) (n : Nat) :
    Follows top working ((steps.take n).flatMap Step.tools) (runSteps (recorded.take n)) (runSteps (steps.take n)) := by
  induction each generalizing n with
  | nil =>
    rw [List.take_nil, List.take_nil]
    exact .pure _
  | cons first _ ih =>
    cases n with
    | zero => exact .pure _
    | succ n => exact first.bind fun _ => ih n

end

namespace Context

variable {context : Context τ}

/-- A discarded file leaves what lies apart from it as it was. -/
theorem spared_discard {top : Location} {tree now : FileTree} {scratch target : Path}
    (apart : ¬ top <+: tree.straight scratch ∧ ¬ tree.straight scratch <+: top) (absolute : context.publisher.root.join scratch = scratch)
    (free : tree.LinkFree) (sound : tree.WellFormed)
    (placed : context.publisher.place scratch tree = (.ok target, tree)) (spared : Spared top tree now) :
    Spared top tree (Publisher.discard target now).2 := by
  have there : target = .ofLocation (tree.straight scratch) := by
    have still (other : FileTree) (same : other = tree) : Confined (.below []) tree other := by
      rw [same]
      exact .startBelow sound free
    rw [← absolute]
    exact ((context.publisher.keeps_place free still scratch).of_ok rfl placed).1
  refine spared.trans (.of_confined apart (Publisher.discard_confined ?_ (.startBelow spared.sound spared.free)))
  rw [there]
  exact Zone.allows_top (straight_ofLocation (areNames_straight sound _))

theorem join_scratch {kind : TargetKind} {tree : FileTree} (rooted : context.Rooted tree) {scratch : Path} (mem : scratch ∈ context.scratchOf kind) :
    context.publisher.root.join scratch = scratch := by
  have absolute (path : Path) : (context.publisher.root.join path).isAbsolute = true := Path.isAbsolute_join (isAbsolute_root rooted) path
  cases kind with
  | edge =>
    obtain rfl := Option.some.inj mem
    exact Path.join_of_isAbsolute _ (absolute _)
  | server =>
    obtain ⟨staged, -, rfl⟩ := Option.map_eq_some_iff.1 mem
    exact Path.join_of_isAbsolute _ (absolute _)

/-- A failure no later than the type check publishes nothing. When one of the first steps of a build fails, up to the type check,
the build fails; the output directory is as it was, unless a tool has written there or has left a link, and no tool is
called that none of those steps calls: the tools are as the failing step left them. -/
theorem build_publishes_nothing {kind : TargetKind} {n : Nat} {world stopped : World τ} {failure : Failure}
    (rooted : context.Rooted world.files) (sound : world.files.WellFormed) (free : world.files.LinkFree)
    (apart : ∀ scratch ∈ context.scratchOf kind, ¬ world.files.straight (context.outputOf kind) <+: world.files.straight scratch ∧
      ¬ world.files.straight scratch <+: world.files.straight (context.outputOf kind))
    (spared : ∀ call ∈ context.callsOf kind world, Spared (world.files.straight (context.outputOf kind)) call.before call.after)
    (failed : runSteps ((context.earlySteps kind).take n) world = (.error failure, stopped)) :
    ∃ failure' after, context.build kind world = (.error failure', after) ∧ after.tools = stopped.tools ∧
      (∀ location, world.files.straight (context.outputOf kind) <+: location →
        after.files.lookup location = world.files.lookup location) ∧
      (context.callsOf kind world).map Call.tool <+: ((context.earlySteps kind).take n).flatMap Step.tools := by
  have follows := Follows.runSteps (follows_earlySteps kind world.files apart) n
  obtain ⟨more, recorded, planned, -, spares⟩ := follows world.files world.tools []
  rw [failed] at recorded spares
  obtain ⟨_, _, recorded, calls, -⟩ :=
    @build_fails _ context.recorded kind ⟨world.files, world.tools, []⟩ _ _ rooted (runSteps_of_take recorded)
  have calls : context.callsOf kind world = more := by
    unfold callsOf
    rw [recorded, calls]
    rfl
  rw [calls] at spared ⊢
  have spared := spares sound free rfl spared
  obtain ⟨failure', after, ended, tools, files⟩ := build_fails rooted (runSteps_of_take failed)
  refine ⟨failure', after, ended, tools, ?_, planned⟩
  obtain same | ⟨scratch, mem, target, placed, same⟩ := files
  · rw [same]
    exact spared.kept
  · rw [same]
    exact (spared_discard (apart scratch mem) (join_scratch rooted mem) free sound placed spared).kept

/-- A project with bindings for servers and an output directory, with more entries behind them. -/
def serverProject (more : List (Location × Entry)) : FileTree where
  entries := [(["p"], .directory), (["p", "src"], .directory), (["p", "src", "bindings"], .directory),
    (["p", "src", "bindings", "compiled"], .directory), (["p", "src", "bindings", "compiled", "node_bindings"], .directory),
    (["p", "src", "bindings", "compiled", "node_bindings", "b.cjs"], .file (Text.encode "b")), (["p", "dist"], .directory),
    (["p", "dist", "cloudflare-node"], .directory), (["p", "dist", "cloudflare-node", "index.js"], .file (Text.encode "e"))] ++ more
  workingDirectory := ["p"]

/-- The bindings of the project as they are staged. -/
def stagedProject : FileTree := serverProject [(["p", "src", "bindings", "compiled", "_node_bindings"], .directory),
  (["p", "src", "bindings", "compiled", "_node_bindings", "b.cjs"], .file (Text.encode "b"))]

/-- The type check of the project fails. -/
def illTypedContext : Context Unit where
  settings := { projectRoot := .ofString "/p" }
  publisher := ⟨.ofLocation ["p"]⟩
  bundler := { build := fun _ => pure (), transform := fun code _ => pure code }
  runner := fun command => throw (command.failure ⟨command.arguments, 2, "", "type error"⟩)

/-- What tells calls apart. -/
def callParts (call : Call) : Tool × List (List (Location × Entry)) :=
  (call.tool, [call.before, call.after].map fun tree => (tree.workingDirectory, .directory) :: tree.entries)

theorem callParts_inj {call other : Call} (same : callParts call = callParts other) : call = other := by
  obtain ⟨tool, ⟨before, start⟩, ⟨after, stop⟩⟩ := call
  obtain ⟨tool', ⟨before', start'⟩, ⟨after', stop'⟩⟩ := other
  simp only [callParts, List.map_cons, List.map_nil, Prod.mk.injEq, List.cons.injEq, and_true] at same
  obtain ⟨rfl, ⟨rfl, rfl⟩, rfl, rfl⟩ := same
  rfl

/-- The type check is the one tool that is called. -/
theorem callsOf_illTyped : illTypedContext.callsOf .server ⟨serverProject [], ()⟩ = [⟨.runner, stagedProject, stagedProject⟩] := by
  have parts : (illTypedContext.callsOf .server ⟨serverProject [], ()⟩).map callParts =
      [(⟨.runner, stagedProject, stagedProject⟩ : Call)].map callParts := by decide +kernel
  exact (List.map_inj_right fun _ _ => callParts_inj).1 parts

theorem build_publishes_nothing_illTyped :
    (serverProject []).WellFormed ∧ (serverProject []).LinkFree ∧ illTypedContext.Rooted (serverProject []) ∧
      (∀ call ∈ illTypedContext.callsOf .server ⟨serverProject [], ()⟩, Spared ["p", "dist", "cloudflare-node"] call.before call.after) ∧
      ∃ failure after, illTypedContext.build .server ⟨serverProject [], ()⟩ = (.error failure, after) ∧
        after.files.lookup ["p", "dist", "cloudflare-node", "index.js"] = some (.file (Text.encode "e")) ∧
        after.files.lookup ["p", "dist", "cloudflare-node", "b.cjs"] = none := by
  have sound : (serverProject []).WellFormed := wellFormed_of_entries (by decide) (by decide)
  have free : (serverProject []).LinkFree := linkFree_of_entries (by simp [serverProject])
  have rooted : illTypedContext.Rooted (serverProject []) := ⟨["p"], eq_ok_of_toOption (by decide +kernel), rfl⟩
  have output : (serverProject []).straight (illTypedContext.outputOf .server) = ["p", "dist", "cloudflare-node"] := by decide +kernel
  have scratch : illTypedContext.scratchOf .server =
      some (.ofLocation ["p", "src", "bindings", "compiled", "_node_bindings"]) := by decide +kernel
  have spared : ∀ call ∈ illTypedContext.callsOf .server ⟨serverProject [], ()⟩,
      Spared ["p", "dist", "cloudflare-node"] call.before call.after := by
    intro call mem
    rw [callsOf_illTyped] at mem
    obtain rfl := List.mem_singleton.1 mem
    exact .refl (wellFormed_of_entries (by decide +kernel) (by decide)) (linkFree_of_entries (by simp [stagedProject, serverProject]))
  have failed : (runSteps ((illTypedContext.earlySteps .server).take 2) ⟨serverProject [], ()⟩).1.toOption = none := by decide +kernel
  rcases ran : runSteps ((illTypedContext.earlySteps .server).take 2) ⟨serverProject [], ()⟩ with ⟨failure | _, stopped⟩
  · obtain ⟨failure', after, ended, -, kept, -⟩ := @build_publishes_nothing _ illTypedContext .server 2 ⟨serverProject [], ()⟩ stopped
      failure rooted sound free (fun path mem => by
        rw [scratch] at mem
        obtain rfl := Option.some.inj mem
        rw [output]
        decide) (output ▸ spared) ran
    rw [output] at kept
    exact ⟨sound, free, rooted, spared, failure', after, ended, kept _ (by decide), kept _ (by decide)⟩
  · rw [ran] at failed
    cases failed

/-- The small project with a loader that was published before. -/
def publishedProject : FileTree := smallProject [(["p", "dist"], .directory), (["p", "dist", "cloudflare"], .directory),
  (["p", "dist", "cloudflare", "index.js"], .file (Text.encode smallBundle))]

/-- The bundler puts a link to the published loader in the place of the temporary one; the type check fails. -/
def linkingContext : Context Unit :=
  { illTypedContext with
    bundler :=
      { build := fun options => (do
          FileTask.change (·.unlink options.outputFile)
          FileTask.change (·.makeLink options.outputFile "/p/dist/cloudflare/index.js") : FileRun Unit)
        transform := fun code _ => pure code } }

/-- Whether two trees have the same entries at and below a location. -/
def sameBelow (top : Location) (before after : FileTree) : Bool :=
  let inside (tree : FileTree) := tree.entries.filter fun e => (Path.below? top e.1).isSome
  decide (inside after = inside before)

theorem lookup_eq_of_sameBelow {top location : Location} {before after : FileTree} (same : sameBelow top before after = true)
    (inside : top <+: location) : after.lookup location = before.lookup location := by
  cases location with
  | nil => rfl
  | cons name names =>
    have kept (tree : FileTree) := find?_filter (fun l => (Path.below? top l).isSome) (name :: names) tree.entries
    have below : (Path.below? top (name :: names)).isSome = true := by
      obtain ⟨parts, whole⟩ := inside
      rw [Path.below?_eq_some_iff.2 whole.symm]
      rfl
    simp only [below, if_true] at kept
    exact (kept after).symm.trans ((congrArg _ (of_decide_eq_true same)).trans (kept before))

/-- A tool that leaves a link need not write into the output directory to have it changed: what the build writes to its
temporary loader goes through the link, and the type check fails after that. -/
theorem build_writes_through_link :
    publishedProject.WellFormed ∧ publishedProject.LinkFree ∧ linkingContext.Rooted publishedProject ∧
      (∀ scratch ∈ linkingContext.scratchOf .edge,
        ¬ publishedProject.straight (linkingContext.outputOf .edge) <+: publishedProject.straight scratch ∧
          ¬ publishedProject.straight scratch <+: publishedProject.straight (linkingContext.outputOf .edge)) ∧
      (∀ call ∈ linkingContext.callsOf .edge ⟨publishedProject, ()⟩, ∀ location,
        publishedProject.straight (linkingContext.outputOf .edge) <+: location →
          call.after.lookup location = call.before.lookup location) ∧
      (∃ failure stopped, runSteps (linkingContext.earlySteps .edge) ⟨publishedProject, ()⟩ = (.error failure, stopped)) ∧
      ∃ failure after, linkingContext.build .edge ⟨publishedProject, ()⟩ = (.error failure, after) ∧
        publishedProject.straight (linkingContext.outputOf .edge) <+: ["p", "dist", "cloudflare", "index.js"] ∧
        after.files.lookup ["p", "dist", "cloudflare", "index.js"] ≠ publishedProject.lookup ["p", "dist", "cloudflare", "index.js"] := by
  have output : publishedProject.straight (linkingContext.outputOf .edge) = ["p", "dist", "cloudflare"] := by decide +kernel
  have scratch : linkingContext.scratchOf .edge =
      some (.ofLocation ["p", "src", "bindings", "compiled", "web_bindings", "plonk_wasm.tmp.js"]) := by decide +kernel
  obtain ⟨spared, failed, ended, changed⟩ :
      (linkingContext.callsOf .edge ⟨publishedProject, ()⟩).all
        (fun call => sameBelow ["p", "dist", "cloudflare"] call.before call.after) = true ∧
      (runSteps (linkingContext.earlySteps .edge) ⟨publishedProject, ()⟩).1.toOption = none ∧
      (linkingContext.build .edge ⟨publishedProject, ()⟩).1.toOption.isNone = true ∧
      (linkingContext.build .edge ⟨publishedProject, ()⟩).2.files.lookup ["p", "dist", "cloudflare", "index.js"] ≠
        publishedProject.lookup ["p", "dist", "cloudflare", "index.js"] := by decide +kernel
  rw [output]
  refine ⟨wellFormed_of_entries (by decide) (by decide), linkFree_of_entries (by simp [publishedProject, smallProject]),
    ⟨["p"], eq_ok_of_toOption (by decide +kernel), rfl⟩, fun path mem => ?_, fun call mem location inside => ?_, ?_, ?_⟩
  · rw [scratch] at mem
    obtain rfl := Option.some.inj mem
    decide
  · exact lookup_eq_of_sameBelow (List.all_eq_true.1 spared call mem) inside
  · rcases ran : runSteps (linkingContext.earlySteps .edge) ⟨publishedProject, ()⟩ with ⟨failure | _, stopped⟩
    · exact ⟨failure, stopped, rfl⟩
    · rw [ran] at failed
      cases failed
  · rcases built : linkingContext.build .edge ⟨publishedProject, ()⟩ with ⟨failure | _, after⟩ <;> rw [built] at ended changed
    · exact ⟨failure, after, rfl, by decide, changed⟩
    · cases ended

end Context

end WasmPackaging.Targets
