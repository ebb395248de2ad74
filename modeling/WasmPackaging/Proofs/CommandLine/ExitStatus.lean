import WasmPackaging.CommandLine.Program
import WasmPackaging.Proofs.Bundling.StageFailures
import WasmPackaging.Proofs.Targets.EdgeCleanup
import WasmPackaging.Shell.Launch

/-!
How the program ends. A command line that asks for a build ends with status 0 and an entry for each target, or with
status 1 and the message of the failure, or with a failure that escapes the report (`run_build_ends`): one of those that
`Failure.Escapes` lists, a text that is no UTF-8 among them (`run_build_escapes`), or that of a value in the settings file
(`WritesFault`). No target is unknown that a command line can name.
-/

namespace WasmPackaging

open Text

/-- Commands that are run in the shell are reported when they fail. -/
theorem Shell.runCommand_reports {τ : Type} : Runner.Reports (Shell.runCommand : Runner τ) := by
  intro command before error after ended
  unfold Shell.runCommand at ended
  split at ended
  · exact .inr (.inl (Except.error.inj (Prod.mk.inj ended).1).symm)
  · split at ended
    · exact .inr (.inr (Except.error.inj (Prod.mk.inj ended).1).symm)
    · split at ended
      · simp only at ended
        split at ended
        · cases (Prod.mk.inj ended).1
        · exact .inl ⟨_, (Except.error.inj (Prod.mk.inj ended).1).symm⟩
      · exact .inl ⟨_, (Except.error.inj (Prod.mk.inj ended).1).symm⟩

/-- What is answered with a temporary file is what the action with it answers. -/
theorem Publisher.answers_withTemporary {τ α : Type} {test : α → Prop} (publisher : Publisher) (path : Path) {act : Path → Run τ α}
    (answers : ∀ target, Keeps (fun _ => True) test (act target)) : Keeps (fun _ => True) test (publisher.withTemporary path act) := by
  refine Keeps.bind (Keeps.of_after fun _ _ => trivial) fun target _ world _ => ?_
  have ran := answers target world trivial
  unfold Leaves at ran ⊢
  rw [tryFinally_apply]
  rcases discarded : (liftM (discard target) : Run τ Unit) (act target world).2 with ⟨_ | _, after⟩
  · trivial
  · rcases ended : act target world with ⟨_ | answer, last⟩ <;> rw [ended] at ran
    · trivial
    · exact ran

namespace Targets

open Bundling Config

variable {τ : Type}

/-! ## Steps of the targets -/

theorem known_of_inlinePayload {options : LoaderOptions} {source : String} {e : LoaderError}
    (failed : Loader.inlinePayload options source = .error e) : e.failure.Known := by
  have template {groups : Groups} {text : String} : ErrsWith (fun e => e.failure.Known) (Loader.readTemplate groups text) := by
    refine .mapError fun cause read => .inr (.template (Classical.byContradiction fun plain => ?_) read)
    have same := @Template.expand_read_plain groups text (fun _ => []) plain
    rw [read] at same
    cases same
  have bound : ErrsWith (fun e => e.failure.Known) (Loader.inlinePayload options source) := by
    refine .bind (.mapError fun cause _ => .inl rfl) fun name => ?_
    refine .bind (.bind template fun _ => .ok _) fun bound => ?_
    exact .bind (.bind template fun _ => .ok _) fun _ => .ok _
  exact bound e failed

theorem fails_inlined (options : LoaderOptions) (source : String) : FailsWith Failure.Known (inlined options source) := by
  unfold inlined
  split
  · exact .pure _
  · next failed => exact .throw (known_of_inlinePayload failed)

theorem fails_asFactory (options : LoaderOptions) (source : String) : FailsWith Failure.Known (asFactory options source) := by
  unfold asFactory
  split
  · exact .pure _
  · exact .throw (.inl rfl)

theorem fails_reach (result : TargetResult) (next : Stage) : FailsWith Failure.Known (reach result next) := by
  unfold reach
  split
  · exact .pure _
  · exact .throw (.inl rfl)

theorem fails_readScript (path : Path) : FailsWith Failure.Known (readScript path) := FileRun.fails_during _ _ (FileRun.fails_readText path)

theorem fails_writeScript (path : Path) (content : String) : FailsWith Failure.Known (writeScript path content) :=
  FileRun.fails_during _ _ (FileRun.fails_task _)

theorem fails_entryScript (settings : Settings) : FailsWith Failure.Known (entryScript settings) := by
  unfold entryScript
  split
  · exact .pure _
  · next e failed =>
    refine .throw (.inr ?_)
    unfold Settings.entryScript at failed
    rcases named : settings.entry.withSuffix ".js" with cause | path <;> rw [named] at failed
    · obtain rfl := Except.error.inj failed
      exact .name (.inr named)
    · cases failed

theorem fails_verifyOutput (output entry : Path) (suffix : Option String) : FailsWith Failure.Known (verifyOutput output entry suffix) := by
  have rest : FailsWith Failure.Known (verifyNames output entry suffix) := by
    unfold verifyNames
    split
    · exact .pure _
    · split
      · next parsed => exact .throw (.inr (.pattern parsed))
      · refine .bind (FileRun.fails_asks fun tree => tree.errs_search _ _) fun left => ?_
        split
        · exact .pure _
        · exact .throw (.inl rfl)
  refine .bind (FileRun.fails_asks fun tree => tree.errs_asks _ _) fun there => ?_
  cases there with
  | false => exact FailsWith.bind (show FailsWith Failure.Known (throw _) from .throw (.inl rfl)) fun _ => rest
  | true => exact rest

namespace Context

variable (context : Context τ)

/-- The tools of a build fail in ways that are known, at the bundling that the targets ask for. -/
structure Reports : Prop where
  build : ∀ options, (∀ plugin ∈ options.plugins, plugin.IsBuiltIn) → FailsWith Failure.Known (context.bundler.build options)
  transform : ∀ code options, FailsWith Failure.Known (context.bundler.transform code options)
  run : context.runner.Reports

theorem fails_root : FailsWith Failure.Known context.root := FileRun.fails_resolve _

theorem fails_path (path : Path) : FailsWith Failure.Known (context.path path) := by
  unfold Context.path
  split
  · exact .pure _
  · exact .bind context.fails_root fun _ => .pure _

theorem fails_relativeText (path : Path) : FailsWith Failure.Known (context.relativeText path) :=
  .bind context.fails_root fun _ => .get fun _ => .pure _

theorem fails_placeholders (output : Path) : FailsWith Failure.Known (context.placeholders output) :=
  .bind (context.fails_relativeText output) fun _ => .bind context.fails_root fun _ => .pure _

theorem fails_stageBindings (bindings : Path) : FailsWith Failure.Known (context.stageBindings bindings) := by
  unfold stageBindings
  split
  · next named => exact .throw (.inr (.name (.inl named)))
  · exact .bind (context.publisher.fails_copy _ _) fun _ => .pure _

variable {context} (reports : context.Reports)

include reports

theorem fails_checkTypes (template : List String) (output : Path) : FailsWith Failure.Known (context.checkTypes template output) := by
  refine .bind (.onFiles (context.fails_placeholders output)) fun _ => .bind (.onFiles context.fails_root) fun _ => ?_
  exact .bind (reports.run.known fun _ => rfl) fun _ => .pure _

theorem fails_minify (path : Path) : FailsWith Failure.Known (context.minify path) :=
  .bind (.onFiles (fails_readScript path)) fun _ => .bind (reports.transform _ _) fun _ => .onFiles (fails_writeScript _ _)

theorem fails_prepareLoader (result : TargetResult) (loader temporary : Path) :
    FailsWith Failure.Known (context.prepareLoader result loader temporary) := by
  refine .bind (.onFiles (fails_readScript _)) fun _ => .bind (.onFiles (fails_inlined _ _)) fun _ => ?_
  refine .bind (.onFiles (fails_writeScript _ _)) fun _ => .bind (.onFiles (fails_reach _ _)) fun _ => ?_
  refine .bind (reports.build _ ?_) fun _ => .bind (.onFiles (fails_reach _ _)) fun _ => ?_
  · simp [loaderBuild, Plugin.IsBuiltIn]
  refine .bind (.onFiles (fails_readScript _)) fun _ => .bind (.onFiles (fails_asFactory _ _)) fun _ => ?_
  exact .bind (.onFiles (fails_writeScript _ _)) fun _ => .onFiles (fails_reach _ _)

theorem fails_publishEdge (result : TargetResult) (output temporary : Path) :
    FailsWith Failure.Known (context.publishEdge result output temporary) := by
  refine .bind (.onFiles (context.fails_placeholders output)) fun _ => .bind (.onFiles (context.publisher.fails_copy _ _)) fun _ => ?_
  refine .bind (.forM _ fun script _ => fails_minify reports _) fun _ => ?_
  refine .bind (.onFiles (context.publisher.fails_copy _ _)) fun _ => ?_
  exact .bind (.onFiles (context.publisher.fails_moveAndRename _ _ _)) fun _ => .pure _

/-- A build of the edge target fails in a way that is known. -/
theorem fails_buildEdge : FailsWith Failure.Known context.buildEdge := by
  refine .bind (.onFiles (context.fails_path _)) fun output => .bind (.onFiles (context.fails_path _)) fun loader => ?_
  refine .bind (.onFiles (context.fails_path _)) fun temporary => ?_
  refine .bind (context.publisher.fails_withTemporary _ fun _ => ?_) fun (result, entry) => ?_
  · refine .bind (fails_prepareLoader reports _ _ _) fun _ => .bind (fails_checkTypes reports _ _) fun _ => ?_
    refine .bind (fails_publishEdge reports _ _ _) fun _ => .bind (.onFiles (fails_entryScript _)) fun _ => ?_
    refine .bind (reports.build _ ?_) fun _ => .bind (.onFiles (fails_reach _ _)) fun _ => ?_
    · simp [edgeBuild, Plugin.IsBuiltIn]
    exact .bind (.onFiles (context.publisher.fails_deleteTemporary _)) fun _ => .pure _
  · refine .bind (.onFiles (fails_verifyOutput _ _ _)) fun _ => .bind (.onFiles (fails_reach _ _)) fun _ => ?_
    exact .onFiles (fails_reach _ _)

/-- A build of the server target fails in a way that is known. -/
theorem fails_buildServer : FailsWith Failure.Known context.buildServer := by
  refine .bind (.onFiles (context.fails_path _)) fun output => .bind (.onFiles (context.fails_path _)) fun bindings => ?_
  refine .bind (.onFiles (context.fails_stageBindings _)) fun _ => .bind (fails_checkTypes reports _ _) fun _ => ?_
  refine .bind (.onFiles (context.fails_relativeText _)) fun _ => .bind (.onFiles (context.publisher.fails_copySwapped _ _ _)) fun _ => ?_
  refine .bind (.onFiles (fails_entryScript _)) fun _ => .bind (fun _ _ _ ended => nomatch ended) fun tree => ?_
  split
  · next failed => exact .throw (Plugin.errs_forCompanions _ _ _ _ failed)
  · next companions made =>
    have builtIn : companions.IsBuiltIn := by
      unfold Plugin.forCompanions at made
      split at made
      · obtain rfl := Except.ok.inj made
        simp [Plugin.IsBuiltIn]
      · cases made
    refine .bind (reports.build _ ?_) fun _ => .bind (.onFiles (fails_reach _ _)) fun _ => ?_
    · simpa [serverBuild, Plugin.forPlatform, Plugin.IsBuiltIn] using builtIn
    refine .bind (.onFiles (fails_verifyOutput _ _ _)) fun _ => .bind (.onFiles (fails_reach _ _)) fun _ => ?_
    exact .onFiles (fails_reach _ _)

end Context

/-! ## The targets' results -/

/-- A run whose answers pass a test, whatever it does to the files. -/
abbrev AnswersWith {σ α : Type} (test : α → Prop) (act : ExceptT Failure (StateM σ) α) : Prop := Keeps (fun _ => True) test act

theorem answers_any {σ α : Type} {act : ExceptT Failure (StateM σ) α} : AnswersWith (fun _ => True) act := .of_after fun _ _ => trivial

theorem answers_reach {name : String} {result : TargetResult} (named : result.target = name) (next : Stage) :
    AnswersWith (fun after => after.target = name) (monadLift (reach result next) : Run τ TargetResult) := by
  have reached : Keeps (fun _ : FileTree => True) (fun after => after.target = name) (reach result next) := by
    unfold reach
    split
    · next advanced => exact .pure (by rw [(TargetResult.advance_eq_ok_iff.1 advanced).2, named])
    · exact .throw
  exact reached.onFiles

namespace Context

variable (context : Context τ)

theorem answers_publishEdge {name : String} {result : TargetResult} (named : result.target = name) (output temporary : Path) :
    AnswersWith (fun after => after.target = name) (context.publishEdge result output temporary) := by
  refine Keeps.bind answers_any fun values _ => Keeps.bind answers_any fun assets _ => Keeps.bind answers_any fun _ _ => ?_
  exact Keeps.bind answers_any fun _ _ => Keeps.bind answers_any fun renamed _ => .pure named

theorem answers_prepareLoader {name : String} {result : TargetResult} (named : result.target = name) (loader temporary : Path) :
    AnswersWith (fun after => after.target = name) (context.prepareLoader result loader temporary) := by
  refine Keeps.bind answers_any fun _ _ => Keeps.bind answers_any fun _ _ => Keeps.bind answers_any fun _ _ => ?_
  refine Keeps.bind (answers_reach named _) fun _ named => Keeps.bind answers_any fun _ _ => ?_
  refine Keeps.bind (answers_reach named _) fun _ named => Keeps.bind answers_any fun _ _ => Keeps.bind answers_any fun _ _ => ?_
  exact Keeps.bind answers_any fun _ _ => answers_reach named _

/-- A build of the edge target answers with a result of that name. -/
theorem answers_buildEdge : AnswersWith (fun result => result.target = "edge") context.buildEdge := by
  have steps (output loader temporary : Path) : AnswersWith (fun built : TargetResult × Path => built.1.target = "edge") (do
      let result : TargetResult := { target := "edge", sequence := edgeStages }
      let result ← context.prepareLoader result loader temporary
      context.checkTypes context.settings.edge.typecheckCommand output
      let result ← context.publishEdge result output temporary
      let entry := output.child (← (entryScript context.settings : FileRun String))
      context.bundler.build (edgeBuild context.settings entry)
      let result ← (reach result .repackagedBundled : FileRun TargetResult)
      (context.publisher.deleteTemporary temporary : FileRun Unit)
      return (result, entry) : Run τ (TargetResult × Path)) := by
    refine Keeps.bind (context.answers_prepareLoader rfl _ _) fun _ named => Keeps.bind answers_any fun _ _ => ?_
    refine Keeps.bind (context.answers_publishEdge named _ _) fun _ named => Keeps.bind answers_any fun _ _ => ?_
    refine Keeps.bind answers_any fun _ _ => Keeps.bind (answers_reach named _) fun _ named => ?_
    exact Keeps.bind answers_any fun _ _ => .pure named
  refine Keeps.bind answers_any fun output _ => Keeps.bind answers_any fun loader _ => Keeps.bind answers_any fun temporary _ => ?_
  refine Keeps.bind (context.publisher.answers_withTemporary temporary fun _ => steps output loader temporary) fun (result, entry) named => ?_
  exact Keeps.bind answers_any fun _ _ => Keeps.bind (answers_reach (by exact named) _) fun _ named => answers_reach named _

/-- A build of the server target answers with a result of that name. -/
theorem answers_buildServer : AnswersWith (fun result => result.target = "server") context.buildServer := by
  refine Keeps.bind answers_any fun output _ => Keeps.bind answers_any fun bindings _ => Keeps.bind answers_any fun _ _ => ?_
  refine Keeps.bind answers_any fun _ _ => Keeps.bind answers_any fun place _ => Keeps.bind answers_any fun files _ => ?_
  refine Keeps.bind answers_any fun name _ => Keeps.bind answers_any fun tree _ => ?_
  split
  · exact .throw
  · refine Keeps.bind answers_any fun _ _ => Keeps.bind (@answers_reach _ "server" _ rfl _) fun _ named => Keeps.bind answers_any fun _ _ => ?_
    exact Keeps.bind (answers_reach (by exact named) _) fun _ named => answers_reach named _

end Context

end Targets

namespace CommandLine

open Config Document Targets

variable {τ : Type}

/-! ## What a command line can name -/

/-- An option that was given has one of its choices for a value. -/
def Given.IsChosen (given : Given) : Prop :=
  ∀ value, given.value = some value → given.spec.choices = [] ∨ given.spec.choices.contains value = true

theorem isChosen_of_accept {g : Grammar} {spec : OptionSpec} {value : Option String} {given : Given}
    (accepted : g.accept spec value = .ok given) : given.IsChosen := by
  unfold Grammar.accept at accepted
  split at accepted
  · split at accepted
    · cases accepted
    · obtain rfl := Except.ok.inj accepted
      exact nofun
  · split at accepted
    · next choice =>
      obtain rfl := Except.ok.inj accepted
      intro value same
      exact Option.some.inj same ▸ choice
    · cases accepted

theorem isChosen_of_read {g : Grammar} {hasCommand : Bool} {words : List Word} {given : List Given} {extras : List String}
    {left : List Word} (read : g.read hasCommand words = .ok (given, extras, left)) : ∀ e ∈ given, e.IsChosen := by
  fun_induction Grammar.read g hasCommand words generalizing given extras left with
  | case1 | case2 | case4 =>
    obtain ⟨rfl, -⟩ := Prod.mk.inj (Except.ok.inj read)
    simp
  | case3 _ _ _ _ ih | case5 _ _ _ _ ih | case6 _ _ _ ih =>
    -- a plain argument gives no option
    obtain ⟨⟨given', extras', left'⟩, onward, same⟩ := bind_eq_ok_iff.1 read
    obtain ⟨rfl, -⟩ := Prod.mk.inj (Except.ok.inj same)
    exact ih onward
  | case7 word rest spec name value _ ih' ih =>
    obtain ⟨⟨specs, value⟩, -, read⟩ := bind_eq_ok_iff.1 read
    obtain ⟨flags, flagged, read⟩ := bind_eq_ok_iff.1 read
    have chosen : ∀ e ∈ flags, e.IsChosen := fun e mem => by
      obtain ⟨spec, -, accepted⟩ := exists_of_mapM_eq_ok flagged e mem
      exact isChosen_of_accept accepted
    -- an option that is accepted stands before those of the other arguments
    have onward {last : OptionSpec} {value : Option String} {own : Given} (accepted : g.accept last value = .ok own) {more : List Given}
        (later : ∀ e ∈ more, e.IsChosen) : ∀ e ∈ flags ++ own :: more, e.IsChosen :=
      List.forall_mem_append.2 ⟨chosen, List.forall_mem_cons.2 ⟨isChosen_of_accept accepted, later⟩⟩
    simp only at read
    split at read
    · split at read
      · obtain ⟨own, accepted, read⟩ := bind_eq_ok_iff.1 read
        obtain ⟨⟨more, extras', left'⟩, later, same⟩ := bind_eq_ok_iff.1 read
        obtain ⟨rfl, -⟩ := Prod.mk.inj (Except.ok.inj same)
        exact onward accepted (ih' later)
      · cases read
    · obtain ⟨own, accepted, read⟩ := bind_eq_ok_iff.1 read
      obtain ⟨⟨more, extras', left'⟩, later, same⟩ := bind_eq_ok_iff.1 read
      obtain ⟨rfl, -⟩ := Prod.mk.inj (Except.ok.inj same)
      exact onward accepted (ih later)

theorem targets_of_readCommand {name : String} {arguments extras : List String} {request : BuildRequest}
    (read : readCommand name arguments = .ok (.build request, extras)) : ∀ target ∈ request.targets, target ∈ ["edge", "server", "all"] := by
  unfold readCommand at read
  split at read
  · obtain ⟨words, -, read⟩ := bind_eq_ok_iff.1 read
    obtain ⟨⟨given, extras', left⟩, options, same⟩ := bind_eq_ok_iff.1 read
    obtain ⟨same, -⟩ := Prod.mk.inj (Except.ok.inj same)
    obtain rfl := Command.build.inj same
    intro target mem
    obtain ⟨e, listed, value⟩ := List.mem_filterMap.1 mem
    obtain ⟨inside, spec⟩ := List.mem_filter.1 listed
    have chosen := isChosen_of_read options e inside target value
    rw [of_decide_eq_true spec] at chosen
    simpa [targetOption] using chosen
  · obtain ⟨words, -, read⟩ := bind_eq_ok_iff.1 read
    obtain ⟨⟨given, extras', left⟩, -, same⟩ := bind_eq_ok_iff.1 read
    cases (Prod.mk.inj (Except.ok.inj same)).1

/-- A command line names no target but the standard ones. -/
theorem targets_of_invocation {arguments : List String} {verbose : Bool} {request : BuildRequest}
    (asked : invocation arguments = .ok ⟨verbose, .build request⟩) : ∀ target ∈ request.targets, target ∈ ["edge", "server", "all"] := by
  unfold invocation at asked
  obtain ⟨words, -, asked⟩ := bind_eq_ok_iff.1 asked
  obtain ⟨⟨given, extras, rest⟩, -, asked⟩ := bind_eq_ok_iff.1 asked
  simp only at asked
  split at asked
  · cases asked
  · cases asked
  · split at asked
    · cases asked
    · obtain ⟨⟨command, more⟩, read, asked⟩ := bind_eq_ok_iff.1 asked
      simp only at asked
      split at asked
      · have same := (Invocation.mk.inj (Except.ok.inj asked)).2
        exact targets_of_readCommand (same ▸ read)
      · cases asked

theorem find_of_wanted {asked : List String} (known : ∀ target ∈ asked, target ∈ ["edge", "server", "all"]) {name : String}
    (mem : name ∈ (Registry.standard : Registry τ).wanted asked) :
    ∃ target : Target τ, Registry.standard.find name = .ok target ∧ (target = edgeTarget ∨ target = serverTarget) ∧ target.name = name := by
  have standard (name : String) (mem : name ∈ ["edge", "server"]) :
      ∃ target : Target τ, Registry.standard.find name = .ok target ∧ (target = edgeTarget ∨ target = serverTarget) ∧ target.name = name := by
    simp only [List.mem_cons, List.not_mem_nil, or_false] at mem
    obtain rfl | rfl := mem
    · exact ⟨edgeTarget, rfl, .inl rfl, rfl⟩
    · exact ⟨serverTarget, rfl, .inr rfl, rfl⟩
  unfold Registry.wanted at mem
  split at mem
  · exact standard name mem
  · next other =>
    rw [List.mem_eraseDups] at mem
    have choice := known name mem
    refine standard name ?_
    simp only [List.mem_cons, List.not_mem_nil, or_false] at choice ⊢
    obtain rfl | rfl | rfl := choice
    · exact .inl rfl
    · exact .inr rfl
    · exact absurd (.inr (List.contains_iff_mem.2 mem)) other

/-! ## The program -/

/-- The standard targets fail in ways that are known, and answer with results of their names. -/
theorem build_ends {context : Context τ} (reports : context.Reports) {target : Target τ} (standard : target = edgeTarget ∨ target = serverTarget) :
    FailsWith Failure.Known (target.build context) ∧ AnswersWith (fun result => result.target = target.name) (target.build context) := by
  obtain rfl | rfl := standard
  · exact ⟨Context.fails_buildEdge reports, context.answers_buildEdge⟩
  · exact ⟨Context.fails_buildServer reports, context.answers_buildServer⟩

/-- The targets that a command line asks for are built in order: each has its result, and the first failure is one that is known. -/
theorem buildAll_ends {context : Context τ} (reports : context.Reports) {asked : List String}
    (known : ∀ target ∈ asked, target ∈ ["edge", "server", "all"]) :
    FailsWith Failure.Known (Registry.standard.buildAll ((Registry.standard : Registry τ).wanted asked) context) ∧
      AnswersWith (fun results => results.map TargetResult.target = (Registry.standard : Registry τ).wanted asked)
        (Registry.standard.buildAll ((Registry.standard : Registry τ).wanted asked) context) := by
  have found : ∀ name ∈ (Registry.standard : Registry τ).wanted asked, ∃ target : Target τ, Registry.standard.find name = .ok target ∧
      (target = edgeTarget ∨ target = serverTarget) ∧ target.name = name := fun name mem => find_of_wanted known mem
  generalize (Registry.standard : Registry τ).wanted asked = names at found
  obtain ⟨targets, all, standard, named⟩ : ∃ targets : List (Target τ), names.mapM Registry.standard.find = .ok targets ∧
      (∀ target ∈ targets, target = edgeTarget ∨ target = serverTarget) ∧ targets.map Target.name = names := by
    induction names with
    | nil => exact ⟨[], rfl, by simp, rfl⟩
    | cons name names ih =>
      obtain ⟨⟨target, first, standard, same⟩, rest⟩ := List.forall_mem_cons.1 found
      obtain ⟨targets, all, standard', named⟩ := ih rest
      refine ⟨target :: targets, ?_, List.forall_mem_cons.2 ⟨standard, standard'⟩, by rw [List.map_cons, same, named]⟩
      rw [List.mapM_cons, first, all]
      rfl
  have each (targets : List (Target τ)) (standard : ∀ target ∈ targets, target = edgeTarget ∨ target = serverTarget) :
      AnswersWith (fun results => results.map TargetResult.target = targets.map Target.name) (targets.mapM fun target => target.build context) := by
    induction targets with
    | nil =>
      rw [List.mapM_nil]
      exact .pure rfl
    | cons target targets ih =>
      obtain ⟨first, rest⟩ := List.forall_mem_cons.1 standard
      rw [List.mapM_cons]
      refine Keeps.bind (build_ends reports first).2 fun result own => Keeps.bind (ih rest) fun results others => .pure ?_
      rw [List.map_cons, own, others, List.map_cons]
  unfold Registry.buildAll
  rw [all]
  exact ⟨.mapM _ fun target mem => (build_ends reports (standard target mem)).1, named ▸ each targets standard⟩

/-- A settings file writes a value that cannot be made. -/
def WritesFault (tree : FileTree) (file : Path) (nesting : Nat) (cause : Yaml.ValueFault) : Prop :=
  ∃ bytes text, tree.read file = .ok bytes ∧ decode bytes = .ok text ∧ Yaml.read (plainNewlines text) nesting = .error (.value cause)

/-- A failure that is known, or is that of a value in a settings file. -/
def KnownFor (tree : FileTree) (file : Option Path) (nesting : Nat) (failure : Failure) : Prop :=
  failure.Known ∨ ∃ path cause, file = some path ∧ WritesFault tree path nesting cause ∧ failure = .value cause

/-- The document that the text of a settings file writes. -/
def parsed (file : Path) (nesting : Nat) (text : String) : FileRun Value :=
  match Yaml.read text.toList nesting with
  | .error (.text fault) => throw (.settings (.malformed file.toString fault))
  | .error (.value fault) => throw (.value fault)
  | .ok .null => return .mapping []
  | .ok (.mapping entries) => return .mapping entries
  | .ok _ => throw (.settings (.notMapping file.toString))

theorem knownFor_parsed {tree : FileTree} {file : Path} {nesting : Nat} {bytes : Bytes} {text : List Char} (read : tree.read file = .ok bytes)
    (decoded : decode bytes = .ok text) : FailsWith (KnownFor tree (some file) nesting) (parsed file nesting (String.ofList (plainNewlines text))) := by
  unfold parsed
  split
  · exact .throw (.inl (.inl rfl))
  · next fault written =>
    rw [String.toList_ofList] at written
    exact .throw (.inr ⟨file, fault, rfl, ⟨bytes, text, read, decoded, written⟩, rfl⟩)
  · exact .pure _
  · exact .pure _
  · exact .throw (.inl (.inl rfl))

theorem readDocument_apply (file : Path) (nesting : Nat) (tree : FileTree) :
    readDocument file nesting tree =
      match tree.read file with
      | .error e => (.error (if e.isSystem then .settings (.unreadable file.toString e) else .refused e), tree)
      | .ok bytes =>
        match decode bytes with
        | .error e => (.error (.undecodable e), tree)
        | .ok text => parsed file nesting (String.ofList (plainNewlines text)) tree := by
  refine (get_bind_apply _ tree).trans ?_
  cases read : tree.read file with
  | error e =>
    cases system : e.isSystem <;> simp only [system] <;> rfl
  | ok bytes =>
    refine (bind_apply _ _ tree).trans ?_
    unfold FileRun.readText FileRun.readBytes
    rw [bind_apply, FileRun.askFor_apply, read]
    cases decoded : decode bytes <;> simp only [mapError_ok, decoded] <;> rfl

/-- A settings file that cannot be read is reported, but for one whose path holds a zero character, whose text is no
UTF-8 or whose values cannot be made. -/
theorem knownFor_readDocument {tree after : FileTree} {file : Path} {nesting : Nat} {failure : Failure}
    (failed : readDocument file nesting tree = (.error failure, after)) : KnownFor tree (some file) nesting failure := by
  rw [readDocument_apply] at failed
  split at failed
  · next e _ =>
    obtain rfl := Except.error.inj (Prod.mk.inj failed).1
    cases system : e.isSystem with
    | true => exact .inl (.inl rfl)
    | false => exact .inl (.inr (.zeroCharacter system))
  · next bytes read =>
    split at failed
    · next decoded => exact .inl (.inr (Except.error.inj (Prod.mk.inj failed).1 ▸ .undecodable decoded))
    · next decoded => exact knownFor_parsed read decoded tree failure after failed

/-- The settings that a document gives, as they are loaded. -/
def readSettings (document : Value) : FileRun Settings :=
  match Settings.read document with
  | .ok settings => return settings
  | .error violations => throw (.settings (.invalid violations))

/-- The settings that a document gives once it names the root of the project. -/
def readRooted (file root : Option Path) (document : Value) : FileRun Settings := do
  let document ←
    match root, file with
    | some root, _ => pure (withText "project_root" root.toString document)
    | none, some file =>
      if (document.member? "project_root").isSome then pure document
      else
        let place ← FileRun.resolve file
        pure (withText "project_root" place.parent.toString document)
    | none, none => pure document
  readSettings document

theorem knownFor_load {tree after : FileTree} {file root : Option Path} {nesting : Nat} {failure : Failure}
    (failed : load file root nesting tree = (.error failure, after)) : KnownFor tree file nesting failure := by
  have read (document : Value) : FailsWith Failure.Known (readSettings document) := by
    unfold readSettings
    split
    · exact .pure _
    · exact .throw (.inl rfl)
  have rooted (document : Value) : FailsWith Failure.Known (readRooted file root document) := by
    unfold readRooted
    cases root with
    | some root => exact read _
    | none =>
      cases file with
      | none => exact read _
      | some file =>
        simp only
        split
        · exact read _
        · exact .bind (FileRun.fails_resolve _) fun place => read _
  cases file with
  | none => exact .inl (rooted _ tree failure after failed)
  | some file =>
    change (readDocument file nesting >>= readRooted (some file) root) tree = _ at failed
    rw [bind_apply] at failed
    rcases ran : readDocument file nesting tree with ⟨cause | document, between⟩ <;> rw [ran] at failed
    · obtain ⟨same, -⟩ := Prod.mk.inj failed
      exact Except.error.inj same ▸ knownFor_readDocument ran
    · exact .inl (rooted document between failure after failed)

theorem reports_create {runner : Runner τ} (reports : runner.Reports) (settings : Settings) (host : Host τ) :
    Keeps (fun _ : FileTree => True) (fun context : Context τ => context.Reports) (Context.create settings runner host) := by
  refine Keeps.bind answers_any fun root _ => Keeps.bind answers_any fun publisher _ => .pure ?_
  refine ⟨fun options builtIn world => ?_, Bundling.BundlingCommand.fails_transform _ reports, reports⟩
  exact Bundling.BundlingCommand.fails_build _ reports options builtIn (host.draw world) world

/-- What a command line asks for is built, or the build fails in a way that is known. -/
theorem buildTargets_ends {runner : Runner τ} (reports : runner.Reports) (host : Host τ) {request : BuildRequest}
    (known : ∀ target ∈ request.targets, target ∈ ["edge", "server", "all"]) (file root : Option Path) (nesting : Nat) (world : World τ) :
    (∀ failure after, buildTargets (Context.create · runner host) request file root nesting world = (.error failure, after) →
        KnownFor world.files file nesting failure) ∧
      AnswersWith (fun results => results.map TargetResult.target = (Registry.standard : Registry τ).wanted request.targets)
        (buildTargets (Context.create · runner host) request file root nesting) := by
  have created (settings : Settings) : FailsWith Failure.Known (Context.create settings runner host) :=
    .bind (FileRun.fails_resolve _) fun _ => .bind (.bind (FileRun.fails_resolve _) fun _ => .pure _) fun _ => .pure _
  constructor
  · intro failure after ended
    unfold buildTargets at ended
    rw [bind_apply] at ended
    rcases loaded : load file root nesting world.files with ⟨cause | settings, files⟩ <;>
      simp only [liftM, Run.onFiles_apply, loaded] at ended
    · obtain ⟨same, -⟩ := Prod.mk.inj ended
      exact Except.error.inj same ▸ knownFor_load loaded
    · exact .inl (FailsWith.bindOf (.onFiles (created settings)) (reports_create reports settings host).onFiles
        (fun context reports => (buildAll_ends reports known).1) _ _ _ ended)
  · refine Keeps.bind answers_any fun settings _ => Keeps.bind (reports_create reports settings host).onFiles fun context reports => ?_
    exact (buildAll_ends reports known).2

/-- What is found out before the build fails in ways that escape. -/
theorem fails_settingsFile (request : BuildRequest) :
    FailsWith Failure.Escapes (request.projectRoot.mapM fun root => FileRun.resolve (.ofString root)) ∧
      ∀ root, FailsWith Failure.Escapes (settingsFile request root) := by
  have resolve (path : Path) : FailsWith Failure.Escapes (FileRun.resolve path) :=
    .bind (FileRun.fails_askFor fun _ _ resolved => .unresolvable resolved) fun _ => .pure _
  have discovered (directory : Path) : FailsWith Failure.Escapes (discover directory) := by
    refine .bind (FileRun.fails_askFor fun _ _ asked => .question asked) fun there => ?_
    split <;> exact .pure _
  constructor
  · cases request.projectRoot with
    | none => exact .pure _
    | some root => exact .bind (resolve _) fun _ => .pure _
  · intro root
    unfold settingsFile
    split
    · exact .pure _
    · exact .get fun tree => discovered _

/-- What is found out before the build changes nothing. -/
theorem keeps_settingsFile (request : BuildRequest) (tree : FileTree) :
    Keeps (· = tree) (fun _ => True) (request.projectRoot.mapM fun root => FileRun.resolve (.ofString root)) ∧
      ∀ root, Keeps (· = tree) (fun _ => True) (settingsFile request root) := by
  have asked {α ε : Type} (failure : ε → Failure) (question : FileTree → Except ε α) :
      Keeps (· = tree) (fun _ => True) (FileRun.askFor failure question) := FileRun.keeps_askFor fun _ _ _ _ => trivial
  have resolve (path : Path) : Keeps (· = tree) (fun _ => True) (FileRun.resolve path) := Keeps.bind (asked _ _) fun _ _ => .pure trivial
  constructor
  · cases request.projectRoot with
    | none => exact .pure trivial
    | some root => exact Keeps.bind (resolve _) fun _ _ => .pure trivial
  · intro root
    unfold settingsFile
    split
    · exact .pure trivial
    · exact .get fun now same => Keeps.bind (asked _ _) (fun there _ => by split <;> exact .pure trivial) now same

/-- The root of the project and the settings file that a request leads to. -/
def LeadsTo (request : BuildRequest) (tree : FileTree) (root file : Option Path) : Prop :=
  (request.projectRoot.mapM fun root => FileRun.resolve (.ofString root) : FileRun (Option Path)) tree = (.ok root, tree) ∧
    settingsFile request root tree = (.ok file, tree)

/-- A build is begun with the root and the settings file that its request leads to, unless finding them fails. -/
theorem perform_build (contextOf : Settings → FileRun (Context τ)) (request : BuildRequest) (nesting : Nat) (world : World τ) :
    (∃ failure after, failure.Escapes ∧ perform contextOf nesting (.build request) world = (.error failure, after)) ∨
      ∃ root file, LeadsTo request world.files root file ∧ perform contextOf nesting (.build request) world =
        buildOutcome request.asJson (buildTargets contextOf request file root nesting) world := by
  obtain ⟨placed, found⟩ := fails_settingsFile request
  obtain ⟨still, still'⟩ := keeps_settingsFile request world.files
  rw [perform, bind_apply]
  rcases first : (monadLift (request.projectRoot.mapM fun root => FileRun.resolve (.ofString root)) : Run τ (Option Path)) world with
    ⟨failure | root, between⟩
  · exact .inl ⟨failure, between, placed.onFiles _ _ _ first, by simp only [liftM, first]⟩
  simp only [liftM, first]
  rw [bind_apply]
  rcases second : (monadLift (settingsFile request root) : Run τ (Option Path)) between with ⟨failure | file, before⟩
  · exact .inl ⟨failure, before, (found root).onFiles _ _ _ second, by simp only⟩
  obtain ⟨ran, tools⟩ := Run.onFiles_ends first
  obtain ⟨ran', tools'⟩ := Run.onFiles_ends second
  have same := (still.of_ok rfl ran).2
  have same' := ((still' root).of_ok same ran').2
  obtain rfl : before = world := by
    cases before
    cases world
    simp_all
  exact .inr ⟨root, file, ⟨same ▸ ran, by rwa [same] at ran'⟩, rfl⟩

/-- A project whose loader module has some content. -/
def loaderProject (content : Bytes) : FileTree where
  entries := [(["p"], .directory), (["p", "src"], .directory), (["p", "src", "bindings"], .directory),
    (["p", "src", "bindings", "compiled"], .directory), (["p", "src", "bindings", "compiled", "web_bindings"], .directory),
    (["p", "src", "bindings", "compiled", "web_bindings", "plonk_wasm.js"], .file content)]
  workingDirectory := ["p"]

/-- A runner whose commands all succeed and write nothing. -/
def silentRunner : Runner Unit := fun _ => pure ""

/-- Why a text could not be decoded, if that is how a run ended. -/
def undecodable? {α : Type} : Except Failure α → Option DecodeError
  | .error (.undecodable cause) => some cause
  | _ => none

theorem eq_of_undecodable? {α : Type} {result : Except Failure α} {cause : DecodeError} (ended : undecodable? result = some cause) :
    result = .error (.undecodable cause) := by
  unfold undecodable? at ended
  split at ended
  · rw [Option.some.inj ended]
  · cases ended

end CommandLine

end WasmPackaging
