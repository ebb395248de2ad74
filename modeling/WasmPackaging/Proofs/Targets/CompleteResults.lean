import WasmPackaging.Proofs.Bundling.ModuleResolution
import WasmPackaging.Proofs.Bundling.Places
import WasmPackaging.Proofs.CommandLine.ExitStatus
import WasmPackaging.Proofs.Targets.EarlyFailure

/-!
The results of builds. Whatever stages a result is told to advance to, those it has passed are the first of its sequence
(`OnWay.attempts`), and a call is refused without effect unless it names the next one. The builds of the targets advance
only so, up to the last stage: a result that is returned is complete, its entry is a file of the output directory, and no
script there has the suffix left in its name (`build_ends_complete`).
-/

namespace WasmPackaging.Targets

open Bundling Config

namespace TargetResult

/-- The result after a call to advance, which changes nothing when it fails. -/
def attempt (result : TargetResult) (next : Stage) : TargetResult := (result.advance next).toOption.getD result

/-- The result after some calls to advance, failed ones among them. -/
def attempts (result : TargetResult) (calls : List Stage) : TargetResult := calls.foldl attempt result

/-- A result that has passed some stages since it was idle: the first ones of its sequence. -/
structure OnWay (sequence passed : List Stage) (result : TargetResult) : Prop where
  along : result.sequence = sequence
  stages : result.stages = .idle :: passed
  within : passed <+: sequence.tail

namespace OnWay

variable {sequence passed : List Stage} {result after : TargetResult} {next : Stage}

/-- The stage that comes next is the one that continues those passed. -/
theorem next_iff (way : OnWay sequence passed result) :
    result.sequence[result.stages.length]? = some next ↔ passed ++ [next] <+: sequence.tail := by
  obtain ⟨rest, whole⟩ := way.within
  have place : result.sequence[result.stages.length]? = rest.head? := by
    rw [way.along, way.stages, List.length_cons, ← List.getElem?_tail, ← whole,
      List.getElem?_append_right (Nat.le_refl _), Nat.sub_self, List.head?_eq_getElem?]
  rw [place, ← whole, List.prefix_append_right_inj]
  cases rest with
  | nil => simp
  | cons stage rest => simp [eq_comm]

/-- A result advances along its sequence, and everything else of it stays. -/
theorem advance (way : OnWay sequence passed result) (comes : passed ++ [next] <+: sequence.tail) :
    result.advance next = .ok { result with stages := .idle :: (passed ++ [next]) } := by
  refine TargetResult.advance_eq_ok_iff.2 ⟨way.next_iff.2 comes, ?_⟩
  rw [way.stages, List.cons_append]

theorem advance_fails (way : OnWay sequence passed result) (other : ¬ passed ++ [next] <+: sequence.tail) :
    result.advance next = .error (.stageOrder result.target result.stage.name next.name) := by
  rw [TargetResult.advance, if_neg fun comes => other (way.next_iff.1 comes)]

theorem of_advance (way : OnWay sequence passed result) (advanced : result.advance next = .ok after) :
    OnWay sequence (passed ++ [next]) after := by
  obtain ⟨comes, rfl⟩ := TargetResult.advance_eq_ok_iff.1 advanced
  exact ⟨way.along, by simp [way.stages], way.next_iff.1 comes⟩

/-- A call to advance leaves a result on its way, and changes no more than the stages that it has passed. -/
theorem attempt (way : OnWay sequence passed result) (next : Stage) :
    ∃ passed', OnWay sequence passed' (result.attempt next) ∧ result.attempt next = { result with stages := .idle :: passed' } := by
  by_cases comes : passed ++ [next] <+: sequence.tail
  · have advanced := way.advance comes
    have called : result.attempt next = { result with stages := .idle :: (passed ++ [next]) } := by
      rw [TargetResult.attempt, advanced]
      rfl
    exact ⟨passed ++ [next], called ▸ way.of_advance advanced, called⟩
  · have called : result.attempt next = result := by
      rw [TargetResult.attempt, way.advance_fails comes]
      rfl
    exact ⟨passed, called.symm ▸ way, by rw [called, ← way.stages]⟩

/-- So do any calls one after another. -/
theorem attempts (way : OnWay sequence passed result) (calls : List Stage) :
    ∃ passed', OnWay sequence passed' (result.attempts calls) ∧
      result.attempts calls = { result with stages := .idle :: passed' } := by
  induction calls generalizing result passed with
  | nil => exact ⟨passed, way, by rw [← way.stages]; rfl⟩
  | cons next calls ih =>
    obtain ⟨between, way, called⟩ := way.attempt next
    obtain ⟨passed', way', called'⟩ := ih way
    refine ⟨passed', way', ?_⟩
    change (result.attempt next).attempts calls = _
    rw [called', called]

end OnWay

/-- A result at its start. -/
theorem onWay_nil {result : TargetResult} (idle : result.stages = [.idle]) : OnWay result.sequence [] result :=
  ⟨rfl, idle, List.nil_prefix⟩

end TargetResult

/-! ## The stages of a build -/

variable {τ : Type}

open TargetResult (OnWay)

section

variable {sequence passed : List Stage} {result : TargetResult}

/-- A build that goes on is a stage further. -/
theorem answers_reach_onWay (way : OnWay sequence passed result) (next : Stage) :
    AnswersWith (fun after => OnWay sequence (passed ++ [next]) after ∧ after.entry = result.entry)
      (monadLift (reach result next) : Run τ TargetResult) := by
  have reached : Keeps (fun _ : FileTree => True) (fun after => OnWay sequence (passed ++ [next]) after ∧ after.entry = result.entry)
      (reach result next) := by
    unfold reach
    split
    · next advanced => exact .pure ⟨way.of_advance advanced, by rw [(TargetResult.advance_eq_ok_iff.1 advanced).2]⟩
    · exact .throw
  exact reached.onFiles

end

/-- The stages of a target. -/
def TargetKind.stages : TargetKind → List Stage
  | .edge => edgeStages
  | .server => serverStages

/-- The output directory of a target, as it is set. -/
def TargetKind.output (settings : Settings) : TargetKind → Path
  | .edge => settings.edge.outputDirectory
  | .server => settings.server.outputDirectory

/-- The suffix that no script of a target may have left in its name. -/
def TargetKind.suffix (settings : Settings) : TargetKind → Option String
  | .edge => some settings.edge.platformSuffix
  | .server => none

/-- No script below a directory has a suffix in its name: the pattern of such names finds nothing. -/
def NoneLeft (tree : FileTree) (output : Path) (suffix : String) : Prop :=
  ∃ pattern, PathPattern.ofString s!"**/*{suffix}.js" = .ok pattern ∧ tree.search output pattern = .ok []

theorem askFor_ends {α ε : Type} {failure : ε → Failure} {question : FileTree → Except ε α} {now after : FileTree} {answer : α}
    (ended : FileRun.askFor failure question now = (.ok answer, after)) : question now = .ok answer ∧ after = now := by
  rw [FileRun.askFor_apply] at ended
  obtain ⟨asked, same⟩ := Prod.mk.inj ended
  exact ⟨mapError_eq_ok_iff.1 asked, same.symm⟩

theorem verifyNames_ends {output entry found : Path} {suffix : Option String} {now after : FileTree}
    (ended : verifyNames output entry suffix now = (.ok found, after)) :
    found = entry ∧ after = now ∧ ∀ left ∈ suffix, left ≠ "" → NoneLeft now output left := by
  unfold verifyNames at ended
  rcases asked : suffix.filter (· != "") with _ | left <;> rw [asked] at ended <;> simp only at ended
  · obtain ⟨same, still⟩ := Prod.mk.inj ended
    refine ⟨(Except.ok.inj same).symm, still.symm, fun left mem filled => ?_⟩
    obtain rfl := mem
    simp [Option.filter, filled] at asked
  · rcases parsed : PathPattern.ofString s!"**/*{left}.js" with fault | pattern <;> rw [parsed] at ended <;> simp only at ended
    · cases (Prod.mk.inj ended).1
    · obtain ⟨names, between, searched, ended⟩ := bind_ends_iff.1 ended
      obtain ⟨searched, rfl⟩ := askFor_ends searched
      cases names with
      | cons _ _ => cases (Prod.mk.inj ended).1
      | nil =>
        obtain ⟨same, still⟩ := Prod.mk.inj ended
        refine ⟨(Except.ok.inj same).symm, still.symm, fun other mem _ => ?_⟩
        obtain rfl : other = left := Option.some.inj (mem.symm.trans (Option.filter_eq_some_iff.1 asked).1)
        exact ⟨pattern, parsed, searched⟩

/-- What was made sure of holds. -/
theorem verifyOutput_ends {output entry found : Path} {suffix : Option String} {now after : FileTree}
    (ended : verifyOutput output entry suffix now = (.ok found, after)) :
    found = entry ∧ after = now ∧ now.asksFile entry = .ok true ∧ ∀ left ∈ suffix, left ≠ "" → NoneLeft now output left := by
  obtain ⟨there, between, asked, ended⟩ := bind_ends_iff.1 ended
  obtain ⟨asked, rfl⟩ := askFor_ends asked
  cases there with
  | false =>
    obtain ⟨_, _, threw, -⟩ := bind_ends_iff.1 ended
    cases (Prod.mk.inj threw).1
  | true =>
    obtain ⟨same, still, clean⟩ := verifyNames_ends ended
    exact ⟨same, still, asked, clean⟩

/-- The end of a build: its entry is made sure of, and the last two stages are reached. -/
def finish (output entry : Path) (suffix : Option String) (result : TargetResult) : Run τ TargetResult := do
  let entry ← (verifyOutput output entry suffix : FileRun Path)
  let result ← (reach { result with entry := some entry } .published : FileRun TargetResult)
  (reach result .done : FileRun TargetResult)

theorem finish_ends {output entry : Path} {suffix : Option String} {sequence passed : List Stage} {result finished : TargetResult}
    {world after : World τ} (way : OnWay sequence passed result)
    (ended : finish output entry suffix result world = (.ok finished, after)) :
    OnWay sequence (passed ++ [.published] ++ [.done]) finished ∧ finished.entry = some entry ∧
      after.files.asksFile entry = .ok true ∧ ∀ left ∈ suffix, left ≠ "" → NoneLeft after.files output left := by
  obtain ⟨found, between, verified, rest⟩ := bind_ends_iff.1 ended
  obtain ⟨rfl, same, there, clean⟩ := verifyOutput_ends (Run.onFiles_ends verified).1
  obtain ⟨published, later, first, second⟩ := bind_ends_iff.1 rest
  have way : OnWay sequence passed { result with entry := some found } := ⟨way.along, way.stages, way.within⟩
  obtain ⟨⟨way, entry⟩, -⟩ := (answers_reach_onWay way .published).of_ok trivial first
  obtain ⟨⟨way, entry'⟩, -⟩ := (answers_reach_onWay way .done).of_ok trivial second
  obtain rfl := reach_ends first
  obtain rfl := reach_ends second
  rw [same]
  exact ⟨way, entry'.trans entry, there, clean⟩

/-! ## The entry's script -/

/-- The script of an entry is a name, since a path has no slash in its parts. -/
theorem isEntryName_entryScript {settings : Settings} {name : String} (plain : IsPlain settings.entry)
    (named : settings.entryScript = .ok name) : IsEntryName name := by
  obtain rfl : settings.entry.stem ++ ".js" = name := by
    unfold Settings.entryScript Path.withSuffix at named
    split at named
    · cases named
    · simpa [Except.map, Path.name] using named
  have last : (settings.entry.stem ++ ".js").toList.getLast? = some 's' := by simp
  have other {text : String} (ends : text.toList.getLast? ≠ some 's') : settings.entry.stem ++ ".js" ≠ text := by
    rintro rfl
    exact ends last
  refine ⟨?_, other (by decide), ?_⟩
  · simp [isPart, @other "" (by decide), @other "." (by decide)]
  · simp [plain.not_mem_stem]

/-- Settings that are read from a document have such an entry. -/
theorem isPlain_entry_of_read {document : Document.Value} {settings : Settings} (read : Settings.read document = .ok settings) :
    IsPlain settings.entry := by
  obtain ⟨-, rfl⟩ := Settings.read_eq_ok_iff.1 read
  have assigned (fields : List (Config.Field Settings)) (set : ∀ field ∈ fields, ∀ member (s : Settings), IsPlain s.entry → IsPlain (field.set member s).entry) :
      ∀ s : Settings, IsPlain s.entry → IsPlain (Config.Field.assign fields document s).entry := by
    induction fields with
    | nil => exact fun s plain => plain
    | cons field fields ih =>
      obtain ⟨first, rest⟩ := List.forall_mem_cons.1 set
      intro s plain
      refine ih rest _ ?_
      dsimp only
      split
      · exact first _ _ plain
      · exact plain
  refine assigned Settings.fields ?_ {} (isPlain_ofString _)
  simp only [Settings.fields, List.forall_mem_cons, List.not_mem_nil]
  refine ⟨?root, ?entry, ?command, ?target, ?edge, ?server, by simp⟩
  case root => exact fun member s plain => by cases member <;> exact plain
  case entry => exact fun member s plain => by cases member <;> first | exact isPlain_ofString _ | exact plain
  case command => exact fun member s plain => by cases member <;> exact plain
  case target =>
    intro member s plain
    change IsPlain ((member.asText?.map fun text => { s with target := text }).getD s).entry
    cases member.asText? <;> exact plain
  case edge => exact fun _ _ plain => plain
  case server => exact fun _ _ plain => plain

theorem answers_entryScript (settings : Settings) :
    AnswersWith (fun name => settings.entryScript = .ok name) (monadLift (entryScript settings) : Run τ String) := by
  have answered : Keeps (fun _ : FileTree => True) (fun name => settings.entryScript = .ok name) (entryScript settings) := by
    unfold entryScript
    split
    · next named => exact .pure named
    · exact .throw
  exact answered.onFiles

/-! ## The builds -/

namespace Context

/-- A build has come to its end: all stages of its target are passed, its entry is a file in the output directory, and no
script below that has the target's suffix left in its name. -/
structure Completes (context : Context τ) (kind : TargetKind) (before : FileTree) (result : TargetResult) (after : FileTree) : Prop where
  stages : result.stages = kind.stages
  sequence : result.sequence = kind.stages
  output : ∃ output name, context.path (kind.output context.settings) before = (.ok output, before) ∧
    result.entry = some (output.under [name]) ∧ IsEntryName name ∧
    (∃ location content, after.follow (output.under [name]) = .ok (.entry location (.file content))) ∧
    ∀ suffix ∈ kind.suffix context.settings, suffix ≠ "" → NoneLeft after output suffix

variable {context : Context τ} {sequence passed : List Stage} {result : TargetResult}

theorem path_ends {path found : Path} {world after : World τ}
    (ended : (monadLift (context.path path) : Run τ Path) world = (.ok found, after)) :
    context.path path world.files = (.ok found, world.files) ∧ after = world := by
  have still (now : FileTree) : Keeps (· = now) (fun _ => True) (context.path path) := by
    unfold Context.path
    split
    · exact .pure trivial
    · exact Keeps.bind (.of_after fun before same => by rw [root_files, same]) fun _ _ => .pure trivial
  obtain ⟨found, tools⟩ := Run.onFiles_ends ended
  obtain ⟨-, files⟩ := (still world.files).of_ok rfl found
  rw [files] at found
  exact ⟨found, by cases after; cases world; simp_all⟩

/-- The loader's preparation passes three stages. -/
theorem answers_prepareLoader_onWay (way : OnWay sequence passed result) (loader temporary : Path) :
    AnswersWith (OnWay sequence (passed ++ [.sourceRewritten] ++ [.bundled] ++ [.postRewritten]))
      (context.prepareLoader result loader temporary) := by
  refine Keeps.bind answers_any fun _ _ => Keeps.bind answers_any fun _ _ => Keeps.bind answers_any fun _ _ => ?_
  refine Keeps.bind (answers_reach_onWay way _) fun _ ⟨way, _⟩ => Keeps.bind answers_any fun _ _ => ?_
  refine Keeps.bind (answers_reach_onWay way _) fun _ ⟨way, _⟩ => Keeps.bind answers_any fun _ _ => Keeps.bind answers_any fun _ _ => ?_
  exact Keeps.bind answers_any fun _ _ => (answers_reach_onWay way _).mono fun _ both => both.1

/-- What is published passes no stage. -/
theorem answers_publishEdge_onWay (way : OnWay sequence passed result) (output temporary : Path) :
    AnswersWith (OnWay sequence passed) (context.publishEdge result output temporary) := by
  refine Keeps.bind answers_any fun values _ => Keeps.bind answers_any fun assets _ => Keeps.bind answers_any fun _ _ => ?_
  exact Keeps.bind answers_any fun _ _ => Keeps.bind answers_any fun renamed _ => .pure ⟨way.along, way.stages, way.within⟩

/-- The edge target's steps up to the bundling of the entry pass all stages up to it. -/
theorem answers_edgeSteps (output loader temporary : Path) :
    AnswersWith (fun built : TargetResult × Path =>
        OnWay edgeStages [.sourceRewritten, .bundled, .postRewritten, .repackagedBundled] built.1 ∧
        ∃ name, context.settings.entryScript = .ok name ∧ built.2 = output.child name)
      (context.edgeSteps output loader temporary) := by
  refine Keeps.bind (answers_prepareLoader_onWay (TargetResult.onWay_nil rfl) _ _) fun _ way => Keeps.bind answers_any fun _ _ => ?_
  refine Keeps.bind (answers_publishEdge_onWay way _ _) fun _ way => ?_
  refine Keeps.bind (answers_entryScript _) fun name named => Keeps.bind answers_any fun _ _ => ?_
  refine Keeps.bind (answers_reach_onWay way _) fun _ ⟨way, _⟩ => Keeps.bind answers_any fun _ _ => .pure ?_
  exact ⟨way, name, named, rfl⟩

/-- The end of a build completes it. -/
theorem completes_of_finish {kind : TargetKind} {output : Path} {name : String} {finished : TargetResult} {world between after : World τ}
    (plain : IsPlain context.settings.entry) (named : context.settings.entryScript = .ok name)
    (found : context.path (kind.output context.settings) world.files = (.ok output, world.files))
    (way : OnWay kind.stages passed result) (whole : passed ++ [.published] ++ [.done] = kind.stages.tail)
    (ended : finish output (output.child name) (kind.suffix context.settings) result between = (.ok finished, after)) :
    context.Completes kind world.files finished after.files := by
  have valid := isEntryName_entryScript plain named
  rw [Path.child_of_name _ valid] at ended
  obtain ⟨way, entry, there, clean⟩ := finish_ends way ended
  refine ⟨?_, way.along, output, name, found, entry, valid, FileTree.asksFile_eq_true_iff.1 there, clean⟩
  rw [way.stages, whole]
  cases kind <;> rfl

theorem buildEdge_completes {finished : TargetResult} {world after : World τ} (plain : IsPlain context.settings.entry)
    (ended : context.buildEdge world = (.ok finished, after)) : context.Completes .edge world.files finished after.files := by
  obtain ⟨output, _, placed, rest⟩ := bind_ends_iff.1 ended
  obtain ⟨found, rfl⟩ := path_ends placed
  obtain ⟨loader, _, _, rest⟩ := bind_ends_iff.1 rest
  obtain ⟨temporary, _, _, rest⟩ := bind_ends_iff.1 rest
  obtain ⟨built, between, steps, rest⟩ := bind_ends_iff.1 rest
  have answers := context.publisher.answers_withTemporary temporary fun _ => @answers_edgeSteps _ context output loader temporary
  obtain ⟨⟨way, name, named, entry⟩, -⟩ := answers.of_ok trivial steps
  have finishes : finish output built.2 (TargetKind.edge.suffix context.settings) built.1 between = (.ok finished, after) := rest
  rw [entry] at finishes
  exact completes_of_finish plain named found way rfl finishes

theorem buildServer_completes {finished : TargetResult} {world after : World τ} (plain : IsPlain context.settings.entry)
    (ended : context.buildServer world = (.ok finished, after)) : context.Completes .server world.files finished after.files := by
  obtain ⟨output, _, placed, rest⟩ := bind_ends_iff.1 ended
  obtain ⟨found, rfl⟩ := path_ends placed
  obtain ⟨bindings, _, _, rest⟩ := bind_ends_iff.1 rest
  obtain ⟨_, _, _, rest⟩ := bind_ends_iff.1 rest
  obtain ⟨_, _, _, rest⟩ := bind_ends_iff.1 rest
  obtain ⟨place, _, _, rest⟩ := bind_ends_iff.1 rest
  obtain ⟨files, _, _, rest⟩ := bind_ends_iff.1 rest
  obtain ⟨name, _, called, rest⟩ := bind_ends_iff.1 rest
  obtain ⟨named, -⟩ := (answers_entryScript context.settings).of_ok trivial called
  obtain ⟨tree, _, _, rest⟩ := bind_ends_iff.1 rest
  rcases made : Plugin.forCompanions tree output context.settings.server.companionSuffixes with failure | companions <;>
    rw [made] at rest <;> simp only at rest
  · cases (Prod.mk.inj rest).1
  · obtain ⟨_, _, _, rest⟩ := bind_ends_iff.1 rest
    obtain ⟨result, _, reached, rest⟩ := bind_ends_iff.1 rest
    obtain ⟨⟨way, -⟩, -⟩ := (answers_reach_onWay (TargetResult.onWay_nil rfl) .bundled).of_ok trivial reached
    exact completes_of_finish plain named found way rfl rest

/-- A target's result is returned only when it is complete, and stages are passed in order. Calls to advance leave an idle
result with the first stages of its sequence; a call passes the next stage when it names it, and otherwise fails and
changes nothing. A build of either target that returns a result has come to its end. -/
theorem build_ends_complete (plain : IsPlain context.settings.entry) :
    (∀ (start : TargetResult) (calls : List Stage), start.stages = [.idle] →
      ∃ passed, passed <+: start.sequence.tail ∧ start.attempts calls = { start with stages := .idle :: passed } ∧
        ∀ next, if passed ++ [next] <+: start.sequence.tail
          then (start.attempts calls).advance next = .ok { start with stages := .idle :: passed ++ [next] } ∧
            (start.attempts calls).attempt next = { start with stages := .idle :: passed ++ [next] }
          else (∃ fault, (start.attempts calls).advance next = .error fault) ∧
            (start.attempts calls).attempt next = start.attempts calls) ∧
    ∀ kind (world after : World τ) result, context.build kind world = (.ok result, after) →
      context.Completes kind world.files result after.files := by
  refine ⟨fun start calls idle => ?_, fun kind world after result ended => ?_⟩
  · obtain ⟨passed, way, called⟩ := (TargetResult.onWay_nil idle).attempts calls
    refine ⟨passed, way.within, called, fun next => ?_⟩
    split
    · next comes =>
      have advanced := way.advance comes
      rw [called] at advanced ⊢
      exact ⟨advanced, by rw [TargetResult.attempt, advanced]; rfl⟩
    · next other =>
      have failed := way.advance_fails other
      exact ⟨⟨_, failed⟩, by rw [TargetResult.attempt, failed]; rfl⟩
  · cases kind with
    | edge => exact buildEdge_completes plain ended
    | server => exact buildServer_completes plain ended

/-- The small project has its edge target built: all seven stages are passed, and the entry is a file. -/
theorem build_ends_complete_small : ∃ result after, smallContext.build .edge ⟨smallProject [], ()⟩ = (.ok result, after) ∧
    result.stages = Stage.all ∧ smallContext.Completes .edge (smallProject []) result after.files := by
  have plain : IsPlain smallContext.settings.entry := isPlain_ofString "src/index.ts"
  obtain ⟨result, returned⟩ := exists_of_isSome buildEdge_returns_small
  have completes := (build_ends_complete plain).2 .edge ⟨smallProject [], ()⟩ _ result returned
  exact ⟨result, _, returned, completes.stages, completes⟩

end Context

end WasmPackaging.Targets
