import WasmPackaging.Proofs.Bundling.Steps
import WasmPackaging.Proofs.Failures

/-!
What failures the bundler that drives a command can end with (`BundlingCommand.fails_build`): those of its command, and
those that come from the files that are staged. The plugins are those of the targets; one given by its own rules may fail
in any way. What is written lies below the directory of the stage (`Stager.InStage`), and the end that stands for too low a
bound on the modules is none of them (`Stager.exists_ends`).
-/

namespace WasmPackaging.Bundling

open Text

variable {τ α β : Type}

/-- A plugin that is not given by its own rules. -/
def Plugin.IsBuiltIn (plugin : Plugin) : Prop := ∀ rules, plugin ≠ .custom rules

/-! ## Plugins -/

namespace Plugin

theorem errs_locationOf (tree : FileTree) (directory : Path) (text : String) :
    ErrsWith Failure.Known (locationOf tree directory text) := .mapError fun _ resolved => .inr (.unresolvable resolved)

theorem errs_forCompanions (tree : FileTree) (directory : Path) (suffixes : List String) :
    ErrsWith Failure.Known (forCompanions tree directory suffixes) := by
  unfold forCompanions
  split
  · exact .ok _
  · next resolved => exact .error (.inr (.unresolvable resolved))

theorem errs_resolve {plugin : Plugin} (builtIn : plugin.IsBuiltIn) (tree : FileTree) (directory : Path) (specifier : String)
    (importer : Path) : ErrsWith Failure.Known (plugin.resolve tree directory specifier importer) := by
  cases plugin with
  | binary => exact .map (errs_locationOf _ _ _)
  | text => exact .bind (errs_locationOf _ _ _) fun _ => .ok _
  | native platform inlined =>
    change ErrsWith Failure.Known (if inlined.any (endsWith · specifier) then .ok none else .ok (some _))
    split <;> exact .ok _
  | companion => exact .bind (errs_locationOf _ _ _) fun _ => .ok _
  | custom rules => exact absurd rfl (builtIn rules)

theorem errs_load {plugin : Plugin} (builtIn : plugin.IsBuiltIn) (tree : FileTree) (path namespaceName : String) :
    ErrsWith Failure.Known (plugin.load tree path namespaceName) := by
  have read (verb : String) : ErrsWith Failure.Known ((tree.read (.ofString path)).mapError fun e =>
      Failure.during verb path (.refused e)) := .mapError fun e _ => FileRun.known_during _ _ (.inl ⟨e, rfl⟩)
  cases plugin with
  | binary => exact .bind (read _) fun _ => .ok _
  | text => exact .bind (read _) fun bytes => .bind (.mapError fun _ decoded => .inr (.undecodable decoded)) fun _ => .ok _
  | native | companion => exact .ok _
  | custom rules => exact absurd rfl (builtIn rules)

end Plugin

theorem errs_classify (plugins : List Plugin) (specifier : String) : ErrsWith Failure.Known (classify plugins specifier) := by
  unfold classify
  split
  · exact .ok _
  · exact .ok _
  · exact .error (.inl rfl)

theorem mem_of_classify {plugins : List Plugin} {specifier : String} {found : Classification} {plugin : Plugin}
    (classified : classify plugins specifier = .ok found) (claimed : found.plugin = some plugin) : plugin ∈ plugins := by
  unfold classify at classified
  split at classified
  · obtain rfl := Except.ok.inj classified
    cases claimed
  · next only =>
    obtain rfl := Except.ok.inj classified
    obtain rfl := Option.some.inj claimed
    exact (List.mem_filter.1 (only ▸ List.mem_singleton_self _)).1
  · cases classified

/-! ## Modules -/

theorem errs_firstFile (tree : FileTree) {candidate : String → Except Failure Path} (known : ∀ ending, ErrsWith Failure.Known (candidate ending))
    (extensions : List String) : ErrsWith Failure.Known (resolveModule.firstFile tree candidate extensions) := by
  induction extensions with
  | nil => exact .ok _
  | cons ending rest ih =>
    refine .bind (known ending) fun path => .bind (tree.errs_asked _ _) fun isFile => ?_
    cases isFile with
    | false => exact ih
    | true => exact .ok _

theorem errs_resolveModule (extensions : List String) (tree : FileTree) (path : Path) :
    ErrsWith Failure.Known (resolveModule extensions tree path) := by
  have real (path : Path) : ErrsWith Failure.Known (((tree.resolve path).mapError Failure.unresolvable).map some) :=
    .map (.mapError fun _ resolved => .inr (.unresolvable resolved))
  have named (ending : String) : ErrsWith Failure.Known ((path.withName (path.name ++ ending)).mapError Failure.name) :=
    .mapError fun _ renamed => .inr (.name (.inl renamed))
  refine .bind (tree.errs_asked _ _) fun isFile => ?_
  split
  · exact real path
  · refine .bind (errs_firstFile tree named extensions) fun found => ?_
    split
    · exact real _
    · refine .bind (tree.errs_asked _ _) fun isDirectory => ?_
      split
      · refine .bind (errs_firstFile tree (fun _ => .ok _) extensions) fun index => ?_
        split
        · exact real _
        · exact .ok _
      · exact .ok _

namespace Stager

variable (s : Stager)

theorem errs_copyOf (location : Location) : ErrsWith Failure.Known (s.copyOf location) := by
  unfold copyOf
  split
  · exact .ok _
  · exact .error (.inl rfl)

theorem errs_routeResolved (tree : FileTree) (copy : Path) {plugin : Plugin} (builtIn : plugin.IsBuiltIn) (resolution : Resolution) :
    ErrsWith Failure.Known (s.routeResolved tree copy plugin resolution) := by
  unfold routeResolved
  split
  · exact .ok _
  · refine .bind (Plugin.errs_load builtIn _ _ _) fun loaded => ?_
    split
    · exact .ok _
    · refine .bind (errs_resolveModule _ _ _) fun module => ?_
      split
      · exact .bind (s.errs_copyOf _) fun _ => .ok _
      · exact .ok _

theorem errs_routeOrdinary (tree : FileTree) (directory copy : Path) (specifier : String) :
    ErrsWith Failure.Known (s.routeOrdinary tree directory copy specifier) := by
  unfold routeOrdinary
  split
  · refine .bind (errs_resolveModule _ _ _) fun module => ?_
    split
    · split
      · exact .bind (s.errs_copyOf _) fun _ => .ok _
      · exact .ok _
    · exact .ok _
  · exact .ok _

theorem errs_route (builtIn : ∀ plugin ∈ s.options.plugins, plugin.IsBuiltIn) (tree : FileTree) (module : Location) (specifier : String) :
    ErrsWith Failure.Known (s.route tree module specifier) := by
  unfold route
  split
  · exact .ok _
  · refine .bind (s.errs_copyOf _) fun copy => .bindOk (errs_classify _ _) fun found classified => ?_
    have ordinary : ErrsWith Failure.Known (do
        return (some found.importClass, ← s.routeOrdinary tree (Path.ofLocation module).parent copy specifier)) :=
      .bind (s.errs_routeOrdinary _ _ _ _) fun _ => .ok _
    simp only
    split
    · exact ordinary
    · next plugin claimed =>
      have builtIn := builtIn plugin (mem_of_classify classified claimed)
      refine .bind (Plugin.errs_resolve builtIn _ _ _ _) fun resolution => ?_
      split
      · exact ordinary
      · exact .bind (s.errs_routeResolved _ _ builtIn _) fun _ => .ok _

end Stager

/-! ## Staging -/

/-- A part of staging ends with no failure but one that is known, whatever was staged before it. -/
def StageFails (part : StageRun α) : Prop := ∀ own, FailsWith Failure.Known (part.run own)

namespace StageFails

variable {part : StageRun α}

theorem pure (answer : α) : StageFails (Pure.pure answer : StageRun α) := fun _ => .pure _

theorem throw {failure : Failure} (known : failure.Known) : StageFails (MonadExcept.throw failure : StageRun α) := fun _ => .throw known

theorem bind {next : α → StageRun β} (first : StageFails part) (second : ∀ answer, StageFails (next answer)) :
    StageFails (part >>= next) := by
  intro own
  rw [StateT.run_bind]
  exact (first own).bind fun result => second result.1 result.2

theorem lift {act : FileRun α} (fails : FailsWith Failure.Known act) : StageFails (monadLift act : StageRun α) := by
  intro own
  rw [StateT.run_monadLift]
  exact fails.bind fun _ => .pure _

theorem modify (f : StageState → StageState) : StageFails (modify f : StageRun PUnit) := fun own => .pure ((), f own)

theorem get {next : StageState → StageRun α} (rest : ∀ own, StageFails (next own)) : StageFails (MonadState.get >>= next) :=
  bind (fun own => .pure (own, own)) rest

theorem mapM {f : α → StageRun β} (list : List α) (each : ∀ a, StageFails (f a)) : StageFails (list.mapM f) := by
  induction list with
  | nil =>
    rw [List.mapM_nil]
    exact pure _
  | cons a list ih =>
    rw [List.mapM_cons]
    exact bind (each a) fun _ => bind ih fun _ => pure _

end StageFails

namespace Stager

/-- Modules are staged in a directory with a drawn name. -/
def InStage (s : Stager) : Prop := ∃ project token, s.root = .ofLocation (project ++ [BundlingCommand.stageName token])

variable {s : Stager} (drawn : s.InStage)

include drawn

/-- A file of the stage that cannot be written is one that escapes the report. -/
theorem fails_write (names : List String) (content : Bytes) :
    FailsWith Failure.Known (monadLift (FileTask.writeBytes (s.root.under names) content) : FileRun Unit) := by
  obtain ⟨project, token, root⟩ := drawn
  rw [root]
  intro before failure after ended
  obtain ⟨cause, rfl, written⟩ := FileRun.exists_refused ended
  exact .inr (.staging written)

theorem fails_writePayload {source : Path} (plain : IsPlain source) (loaded : Loaded) : StageFails (s.writePayload source loaded) := by
  unfold writePayload
  split
  · exact .throw (.inl rfl)
  · next suffix known =>
    simp only [s.payloadFile_eq plain loaded known]
    exact .bind (.lift (fails_write drawn _ _)) fun _ => .bind (.modify _) fun _ => .pure _

theorem fails_follow {tree : FileTree} {module : Location} {specifier : String} {copy : Path} {way : Route}
    (goes : s.Goes tree module specifier copy way) : StageFails (s.follow copy way) := by
  cases way with
  | keep => exact .pure _
  | external path => exact .bind (.modify _) fun _ => .pure _
  | payload source loaded =>
    exact .bind (fails_writePayload drawn goes.isPlain _) fun _ => .bind (.lift .read) fun _ => .pure _
  | module location specifier => exact .bind (.modify _) fun _ => .pure _

section modules

variable (builtIn : ∀ plugin ∈ s.options.plugins, plugin.IsBuiltIn)

include builtIn

theorem fails_copyPiece {module : Location} {copy : Path} (copied : s.copyOf module = .ok copy) (piece : Piece Mention) :
    StageFails (s.copyPiece module copy piece) := by
  cases piece with
  | plain c => exact .pure _
  | hit found text =>
    refine .bind (.lift .read) fun tree => ?_
    split
    · next routed => exact .throw (s.errs_route builtIn _ _ _ _ routed)
    · next importClass way routed =>
      have noted : StageFails (noteClass (String.ofList found.specifier) importClass) := by
        cases importClass with
        | none => exact .pure _
        | some importClass => exact .modify _
      refine .bind noted fun _ => .bind (fails_follow drawn (goes_of_route copied routed)) fun replacement => ?_
      split <;> exact .pure _

theorem fails_stageModule (module : Location) : StageFails (s.stageModule module) := by
  unfold stageModule
  split
  · next outside => exact .throw (s.errs_copyOf _ _ outside)
  · next copy copied =>
    obtain ⟨parts, -, place⟩ := s.copyOf_eq_ok_iff.1 copied
    simp only
    split
    · refine .bind (.lift (FileRun.fails_during _ _ (FileRun.fails_readText _))) fun source => ?_
      refine .bind (.mapM _ fun piece => fails_copyPiece drawn builtIn copied piece) fun texts => ?_
      exact place ▸ .lift (fails_write drawn parts _)
    · exact .lift (FileRun.fails_during _ _ (.bind (FileRun.fails_task _) fun _ => FileRun.fails_task _))

/-- The loop over the queue fails with a module. -/
theorem Drains.known {seen : List Location} {state : StageState} {now after : FileTree} {result : Except Failure StageState}
    (drains : s.Drains seen state now result after) : ErrsWith Failure.Known result := by
  induction drains with
  | done => exact .ok _
  | failed _ staged => exact .error (fails_stageModule drawn builtIn _ _ _ _ _ staged)
  | next _ _ _ ih => exact ih

theorem fails_stage : FailsWith Failure.Known s.stage := by
  intro before error after ended
  obtain ⟨result, last, ends, staged⟩ := s.exists_ends before
  obtain ⟨rfl, -⟩ := Prod.mk.inj (staged.symm.trans ended)
  generalize same : (Except.error error : Except Failure Staged) = result at ends
  cases ends with
  | unresolved resolved => exact Except.error.inj same ▸ errs_resolveModule _ _ _ _ resolved
  | missing => exact Except.error.inj same ▸ .inl rfl
  | outside _ outside => exact Except.error.inj same ▸ s.errs_copyOf _ _ outside
  | drained _ _ drains => exact ErrsWith.map (drains.known drawn builtIn) _ same.symm

end modules

end Stager

/-! ## The bundler -/

namespace BundlingCommand

variable (b : BundlingCommand) {runner : Runner τ} (reports : runner.Reports)

include reports

/-- A build fails as its command does, or in what is done with the files of the stage; its name may end in any token. -/
theorem fails_build (options : BuildOptions) (builtIn : ∀ plugin ∈ options.plugins, plugin.IsBuiltIn) (token : StageToken) :
    FailsWith Failure.Known (b.build runner options token) := by
  have staged : FailsWith Failure.Known (stage (Path.ofLocation b.project) (Path.ofLocation (b.stageLocation token)) options) :=
    .bind (FileRun.fails_askFor fun _ _ resolved => .inr (.unresolvable resolved)) fun _ => Stager.fails_stage ⟨b.project, token, rfl⟩ builtIn
  have bundled : FailsWith Failure.Known (b.bundleStaged runner options token) := by
    refine .bind (.onFiles staged) fun staged => ?_
    refine .bind (.onFiles (FileRun.fails_askFor fun _ _ resolved => .inr (.unresolvable resolved))) fun output => ?_
    exact .bind (reports.known fun _ => rfl) fun _ => .pure _
  have opened : FailsWith (fun e => Failure.Known (.refused e)) (FileTask.makeFresh (Path.ofLocation (b.stageLocation token))) := by
    refine .get fun tree => ?_
    split
    · exact .bind (fun _ _ _ ended => nomatch ended) fun _ => .pure _
    · next taken => exact .throw (.inr (.stage taken))
  refine .bind (.onFiles (opened.adapt fun _ known => known)) fun stage world error after ended => ?_
  rw [Run.run_always] at ended
  exact bundled world error _ (Prod.ext (Prod.mk.inj ended).1 rfl)

theorem fails_transform (code : String) (options : TransformOptions) : FailsWith Failure.Known (b.transform runner code options) :=
  reports.known fun _ => rfl

end BundlingCommand

end WasmPackaging.Bundling
