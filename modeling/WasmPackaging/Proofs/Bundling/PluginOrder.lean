import WasmPackaging.Proofs.Outcome
import WasmPackaging.Bundling.Staging

/-!
Staging with the same plugins in another order. A specifier is classified by the one plugin that claims it, so
the order can be told only from the failure that names several (`agrees_classify`). Two runs of staging with
reordered plugins go in step, over every module that is reached: they leave the same files, and end with the
same answer or with failures that say the same (`stage_of_perm`).
-/

namespace WasmPackaging.Bundling

open Text

variable {α β : Type}

/-- Two failures say the same: they are equal, or they report the same plugins for the same specifier, in
some order. -/
inductive SaysSame : Failure → Failure → Prop
  | refl (failure : Failure) : SaysSame failure failure
  | ambiguous (specifier : String) {names names' : List String} : names.Perm names' →
      SaysSame (.ambiguous specifier names) (.ambiguous specifier names')

/-- Two outcomes agree: the same answer, or failures that say the same. -/
inductive Agrees : Except Failure α → Except Failure α → Prop
  | ok (answer : α) : Agrees (.ok answer) (.ok answer)
  | error {failure failure' : Failure} : SaysSame failure failure' → Agrees (.error failure) (.error failure')

namespace Agrees

variable {first second : Except Failure α}

theorem refl (outcome : Except Failure α) : Agrees outcome outcome := by
  cases outcome with
  | ok answer => exact .ok answer
  | error failure => exact .error (.refl failure)

theorem bind {next next' : α → Except Failure β} (agrees : Agrees first second)
    (later : ∀ answer, Agrees (next answer) (next' answer)) : Agrees (first >>= next) (second >>= next') := by
  cases agrees with
  | ok answer => exact later answer
  | error same => exact .error same

end Agrees

/-- Two actions on files go in step: from the same files, with outcomes that agree, to the same files. -/
def InStep (act other : FileRun α) : Prop :=
  ∀ before, Agrees (act before).1 (other before).1 ∧ (act before).2 = (other before).2

namespace InStep

variable {act other : FileRun α}

theorem refl (act : FileRun α) : InStep act act := fun before => ⟨.refl (act before).1, rfl⟩

theorem throw {failure failure' : Failure} (same : SaysSame failure failure') :
    InStep (MonadExcept.throw failure : FileRun α) (MonadExcept.throw failure') := fun _ => ⟨.error same, rfl⟩

theorem bind {next next' : α → FileRun β} (first : InStep act other)
    (second : ∀ answer, InStep (next answer) (next' answer)) : InStep (act >>= next) (other >>= next') := by
  intro before
  obtain ⟨agrees, files⟩ := first before
  rw [bind_apply, bind_apply]
  rcases ran : act before with ⟨outcome, after⟩
  rcases ran' : other before with ⟨outcome', after'⟩
  rw [ran, ran'] at agrees files
  obtain rfl : after = after' := files
  cases agrees with
  | ok answer => exact second answer after
  | error same => exact ⟨.error same, rfl⟩

end InStep

/-- Two parts of staging go in step, whatever was staged before. -/
def StageInStep (part other : StageRun α) : Prop := ∀ own, InStep (part.run own) (other.run own)

namespace StageInStep

variable {part other : StageRun α}

theorem refl (part : StageRun α) : StageInStep part part := fun own => .refl (part.run own)

theorem throw {failure failure' : Failure} (same : SaysSame failure failure') :
    StageInStep (MonadExcept.throw failure : StageRun α) (MonadExcept.throw failure') := fun _ => .throw same

theorem bind {next next' : α → StageRun β} (first : StageInStep part other)
    (second : ∀ answer, StageInStep (next answer) (next' answer)) : StageInStep (part >>= next) (other >>= next') := by
  intro own
  rw [StateT.run_bind, StateT.run_bind]
  exact (first own).bind fun result => second result.1 result.2

theorem mapM {f g : α → StageRun β} (list : List α) (each : ∀ a, StageInStep (f a) (g a)) :
    StageInStep (list.mapM f) (list.mapM g) := by
  induction list with
  | nil =>
    rw [List.mapM_nil, List.mapM_nil]
    exact refl _
  | cons a list ih =>
    rw [List.mapM_cons, List.mapM_cons]
    exact bind (each a) fun _ => bind ih fun _ => refl _

end StageInStep

/-! ## Classification -/

/-- The class of a specifier does not depend on the order of the plugins. -/
theorem agrees_classify {plugins plugins' : List Plugin} (same : plugins.Perm plugins') (specifier : String) :
    Agrees (classify plugins specifier) (classify plugins' specifier) := by
  have claimants := same.filter (·.accepts specifier)
  unfold classify
  generalize plugins.filter (·.accepts specifier) = first at claimants ⊢
  generalize plugins'.filter (·.accepts specifier) = second at claimants ⊢
  rcases first with _ | ⟨plugin, _ | ⟨another, more⟩⟩
  · obtain rfl := claimants.nil_eq
    exact .refl _
  · obtain rfl := claimants.singleton_eq
    exact .refl _
  · have several := claimants.length_eq
    rcases second with _ | ⟨plugin', _ | ⟨another', more'⟩⟩
    · cases several
    · cases several
    · exact .error (.ambiguous specifier (claimants.map Plugin.name))

/-- A failure that names several plugins names them in their order. -/
example : (classify [.binary ".wasm", .text "./"] "./p.wasm").mapError Failure.message ≠
    (classify [.text "./", .binary ".wasm"] "./p.wasm").mapError Failure.message := by
  intro same
  have names := Except.error.inj same
  revert names
  decide

namespace Stager

/-- The staging with other plugins. -/
def withPlugins (s : Stager) (plugins : List Plugin) : Stager := { s with options := { s.options with plugins } }

variable (s : Stager) {plugins : List Plugin}

@[simp] theorem withPlugins_copyOf (location : Location) : (s.withPlugins plugins).copyOf location = s.copyOf location := rfl

variable (same : s.options.plugins.Perm plugins)

include same

/-! ## The way of one module -/

theorem agrees_route (tree : FileTree) (module : Location) (specifier : String) :
    Agrees (s.route tree module specifier) ((s.withPlugins plugins).route tree module specifier) := by
  unfold route
  by_cases excluded : s.isExcluded specifier = true
  · have excluded' : (s.withPlugins plugins).isExcluded specifier = true := excluded
    rw [if_pos excluded, if_pos excluded']
    exact .refl _
  · have excluded' : ¬ (s.withPlugins plugins).isExcluded specifier = true := excluded
    rw [if_neg excluded, if_neg excluded']
    apply Agrees.bind (.refl (s.copyOf module))
    intro copy
    apply Agrees.bind (agrees_classify same specifier)
    intro found
    exact .refl _

theorem inStep_copyPiece (module : Location) (copy : Path) (piece : Piece Mention) :
    StageInStep (s.copyPiece module copy piece) ((s.withPlugins plugins).copyPiece module copy piece) := by
  cases piece with
  | plain c => exact .refl _
  | hit found text =>
    unfold copyPiece
    apply StageInStep.bind (.refl _)
    intro tree
    have routes := s.agrees_route same tree module (String.ofList found.specifier)
    cases way : s.route tree module (String.ofList found.specifier) with
    | ok answer =>
      rw [way] at routes
      cases other : (s.withPlugins plugins).route tree module (String.ofList found.specifier) with
      | ok answer' =>
        rw [other] at routes
        cases routes
        exact .refl _
      | error failure' =>
        rw [other] at routes
        cases routes
    | error failure =>
      rw [way] at routes
      cases other : (s.withPlugins plugins).route tree module (String.ofList found.specifier) with
      | ok answer' =>
        rw [other] at routes
        cases routes
      | error failure' =>
        rw [other] at routes
        cases routes with
        | error alike => exact .throw alike

theorem inStep_stageText (module : Location) (copy : Path) :
    StageInStep (s.stageText module copy) ((s.withPlugins plugins).stageText module copy) := by
  unfold stageText
  apply StageInStep.bind (.refl _)
  intro source
  apply StageInStep.bind (.mapM _ (s.inStep_copyPiece same module copy))
  intro parts
  exact .refl _

theorem inStep_stageModule (module : Location) :
    StageInStep (s.stageModule module) ((s.withPlugins plugins).stageModule module) := by
  unfold stageModule
  rw [withPlugins_copyOf]
  cases s.copyOf module with
  | error failure => exact .refl _
  | ok copy =>
    dsimp only
    by_cases scanned : scannedSuffixes.contains (Path.ofLocation module).suffix = true
    · rw [if_pos scanned, if_pos scanned]
      exact s.inStep_stageText same module copy
    · rw [if_neg scanned, if_neg scanned]
      exact .refl _

/-! ## The whole graph -/

/-- The queues of the two runs are the same from module to module, so the same modules are staged. -/
theorem inStep_stageQueue (limit : Nat) (seen : List Location) :
    StageInStep (s.stageQueue limit seen) ((s.withPlugins plugins).stageQueue limit seen) := by
  induction limit generalizing seen with
  | zero =>
    unfold stageQueue
    exact .refl _
  | succ limit ih =>
    unfold stageQueue
    apply StageInStep.bind (.refl _)
    intro state
    cases state.queue.dropWhile seen.contains with
    | nil => exact .refl _
    | cons module rest =>
      apply StageInStep.bind (.refl _)
      intro _
      apply StageInStep.bind (s.inStep_stageModule same module)
      intro _
      exact ih (module :: seen)

theorem inStep_stage : InStep s.stage (s.withPlugins plugins).stage := by
  unfold stage
  apply InStep.bind (.refl _)
  intro tree
  have resolves : (s.withPlugins plugins).resolveModule tree (s.withPlugins plugins).options.entryPoint =
      s.resolveModule tree s.options.entryPoint := rfl
  rw [resolves]
  rcases s.resolveModule tree s.options.entryPoint with failure | _ | entry
  · exact .refl _
  · exact .refl _
  · dsimp only
    rw [withPlugins_copyOf]
    cases s.copyOf entry with
    | error failure => exact .refl _
    | ok copy =>
      apply InStep.bind (s.inStep_stageQueue same _ _ _)
      intro _
      exact .refl _

end Stager

/-- Staging does not depend on the order of the plugins: it leaves the same files, and ends with the same answer
or with failures that say the same. -/
theorem stage_of_perm (project root : Path) (options : BuildOptions) {plugins : List Plugin}
    (same : options.plugins.Perm plugins) (tree : FileTree) :
    Agrees (stage project root options tree).1 (stage project root { options with plugins } tree).1 ∧
      (stage project root options tree).2 = (stage project root { options with plugins } tree).2 := by
  have step : InStep (stage project root options) (stage project root { options with plugins }) := by
    unfold stage
    apply InStep.bind (.refl _)
    intro location
    exact Stager.inStep_stage ⟨location, root, options⟩ same
  exact step tree

/-- A module that imports a payload and a text. -/
def claimedFiles : FileTree where
  entries := [(["p"], .directory), (["p", "main.js"], .file (encode "import './p.wasm';\nimport 'string:./a.txt';\n")),
    (["p", "p.wasm"], .file (encode "w")), (["p", "a.txt"], .file (encode "t"))]
  workingDirectory := ["p"]

/-- A build of that module with plugins for both. -/
def claimedOptions : BuildOptions where
  entryPoint := .ofString "/p/main.js"
  outputFile := .ofString "/p/out.js"
  plugins := [.binary ".wasm", .text "string:"]

theorem stage_of_perm_claimed :
    claimedOptions.plugins.Perm [.text "string:", .binary ".wasm"] ∧
      (stage (.ofString "/p") (.ofString "/p/stage") claimedOptions claimedFiles).1.toOption.map Staged.classes =
        some [("./p.wasm", .binaryPayload), ("string:./a.txt", .verbatimText)] ∧
      Agrees (stage (.ofString "/p") (.ofString "/p/stage") claimedOptions claimedFiles).1
        (stage (.ofString "/p") (.ofString "/p/stage")
          { claimedOptions with plugins := [.text "string:", .binary ".wasm"] } claimedFiles).1 := by
  have swapped : claimedOptions.plugins.Perm [.text "string:", .binary ".wasm"] := .swap _ _ _
  exact ⟨swapped, by decide +kernel, (stage_of_perm _ _ claimedOptions swapped claimedFiles).1⟩

end WasmPackaging.Bundling
