import WasmPackaging.Bundling.Bundler
import WasmPackaging.Proofs.FileTree.WellFormed
import WasmPackaging.Proofs.Publishing

/-!
What failures a run can end with. Most failures of a build are reported in a line; those that are not come from a few
kinds of places (`Failure.Escapes`), and no run on files, no bundler and no publisher fails in any other way
(`Failure.Known`). An operation that the file system refuses is reported where it counts as the failure of an action;
elsewhere it is one of the operations that `Failure.Escapes` names. Tools count as processes: they fail with a report on a
command, or are not started at all (`Runner.Reports`).
-/

namespace WasmPackaging

open Text Bundling

/-- A failure that escapes the report on a build, with what it comes from. A refused operation is one of these: a question
that a name leaves open since it is too long, a path with a zero character, making the directory of a stage, writing a
file in it, and deleting a temporary file that was found to be there. -/
inductive Failure.Escapes : Failure → Prop where
  | template {groups : Groups} {text : String} {cause : TemplateError} (slash : '\\' ∈ text.toList)
    (read : Template.read groups text = .error cause) : Escapes (.template cause)
  | question {tree : FileTree} {path : Path} {test : Entry → Bool} {cause : FileError} (asked : tree.asks path test = .error cause) :
    Escapes (.refused cause)
  | zeroCharacter {cause : FileError} (foreign : cause.isSystem = false) : Escapes (.refused cause)
  | stage {tree : FileTree} {project : Location} {token : StageToken} {cause : FileError}
    (taken : tree.vacancy (.ofLocation (project ++ [BundlingCommand.stageName token])) = .error cause) : Escapes (.refused cause)
  | staging {tree : FileTree} {project : Location} {token : StageToken} {names : List String} {content : Bytes} {cause : FileError}
    (written : (FileTask.writeBytes ((Path.ofLocation (project ++ [BundlingCommand.stageName token])).under names) content tree).1 =
      .error cause) : Escapes (.refused cause)
  | cleanup {tree : FileTree} {path : Path} {cause : FileError} (there : tree.asksEntry path = .ok true)
    (deleted : tree.unlink path = .error cause) : Escapes (.refused cause)
  | unresolvable {tree : FileTree} {path : Path} {cause : Unresolvable} (resolved : tree.resolve path = .error cause) :
    Escapes (.unresolvable cause)
  | undecodable {bytes : Bytes} {cause : DecodeError} (decoded : decode bytes = .error cause) : Escapes (.undecodable cause)
  | name {path : Path} {text : String} {cause : NameError}
    (renamed : path.withName text = .error cause ∨ path.withSuffix text = .error cause) : Escapes (.name cause)
  | pattern {text : String} {cause : PatternError} (parsed : PathPattern.ofString text = .error cause) : Escapes (.pattern cause)
  | emptyCommand : Escapes (.unsupported .emptyCommand)
  | zeroInArgument : Escapes (.unsupported .zeroInArgument)

/-- A failure that is reported, or escapes for a cause that is known. -/
def Failure.Known (failure : Failure) : Prop := failure.isReported = true ∨ failure.Escapes

/-- A failure that is known as that of an action: a refused operation may have any cause. -/
def Failure.KnownDuring (failure : Failure) : Prop := (∃ cause, failure = .refused cause) ∨ failure.Known

/-- Every error of a computation passes a test. -/
def ErrsWith {ε α : Type} (test : ε → Prop) (x : Except ε α) : Prop := ∀ error, x = .error error → test error

namespace ErrsWith

variable {ε α β : Type} {test : ε → Prop} {x : Except ε α}

theorem ok (answer : α) : ErrsWith test (.ok answer : Except ε α) := fun _ ended => nomatch ended

theorem error {e : ε} (holds : test e) : ErrsWith test (.error e : Except ε α) := fun _ same => Except.error.inj same ▸ holds

theorem bindOk {next : α → Except ε β} (first : ErrsWith test x) (second : ∀ answer, x = .ok answer → ErrsWith test (next answer)) :
    ErrsWith test (x >>= next) := by
  intro e ended
  cases x with
  | error other => exact first e (congrArg _ (Except.error.inj ended))
  | ok answer => exact second answer rfl e ended

theorem bind {next : α → Except ε β} (first : ErrsWith test x) (second : ∀ answer, ErrsWith test (next answer)) :
    ErrsWith test (x >>= next) := bindOk first fun answer _ => second answer

theorem mapError {ε' : Type} {test : ε' → Prop} {f : ε → ε'} (known : ∀ e, x = .error e → test (f e)) : ErrsWith test (x.mapError f) := by
  intro e ended
  cases x with
  | error other => exact Except.error.inj ended ▸ known other rfl
  | ok answer => cases ended

theorem map {f : α → β} (errs : ErrsWith test x) : ErrsWith test (x.map f) := by
  intro e ended
  cases x with
  | error other => exact errs e (congrArg _ (Except.error.inj ended))
  | ok answer => cases ended

theorem mapM {f : α → Except ε β} (list : List α) (each : ∀ a ∈ list, ErrsWith test (f a)) : ErrsWith test (list.mapM f) := by
  induction list with
  | nil =>
    rw [List.mapM_nil]
    exact ok _
  | cons a list ih =>
    obtain ⟨first, rest⟩ := List.forall_mem_cons.1 each
    rw [List.mapM_cons]
    exact bind first fun _ => bind (ih rest) fun _ => ok _

end ErrsWith

/-! ## Questions about files -/

namespace FileTree

variable (tree : FileTree)

theorem errs_asks (path : Path) (test : Entry → Bool) : ErrsWith (fun cause => (Failure.refused cause).Escapes) (tree.asks path test) :=
  fun _ asked => .question asked

theorem errs_asked (path : Path) (test : Entry → Bool) : ErrsWith Failure.Known ((tree.asks path test).mapError .refused) :=
  .mapError fun _ asked => .inr (.question asked)

theorem errs_matchesFrom (onlyDirectories : Bool) (here : Path) (parts : List PatternPart) :
    ErrsWith (fun cause => (Failure.refused cause).Escapes) (tree.matchesFrom onlyDirectories here parts) := by
  induction parts generalizing here with
  | nil => exact .ok _
  | cons part rest ih =>
    cases part with
    | name name =>
      rw [matchesFrom]
      split <;>
      · refine .bind (tree.errs_asks _ _) fun there => ?_
        cases there with
        | false => exact .ok _
        | true => exact ih _
    | wildcard pattern =>
      refine .bind (.mapM _ fun name _ => .bind ?_ fun enters => ?_) fun _ => .ok _
      · split
        · exact .ok _
        · exact tree.errs_asks _ _
      · split
        · exact ih _
        · exact .ok _
    | anyDepth => exact .bind (.mapM _ fun names _ => ih _) fun _ => .ok _

/-- A search is refused only where a question about a path is left open. -/
theorem errs_search (directory : Path) (pattern : PathPattern) :
    ErrsWith (fun cause => (Failure.refused cause).Escapes) (tree.search directory pattern) := by
  refine .bind (tree.errs_asks _ _) fun isDirectory => ?_
  cases isDirectory with
  | false => exact .ok _
  | true => exact .bind (tree.errs_matchesFrom _ _ _) fun _ => .ok _

end FileTree

/-! ## Runs on files -/

namespace FileRun

variable {α ε : Type}

theorem fails_askFor {test : Failure → Prop} {failure : ε → Failure} {question : FileTree → Except ε α}
    (known : ∀ tree e, question tree = .error e → test (failure e)) : FailsWith test (askFor failure question) := by
  intro before error after ended
  rw [askFor_apply] at ended
  rcases asked : question before with e | answer <;> rw [asked] at ended
  · obtain ⟨same, -⟩ := Prod.mk.inj ended
    exact Except.error.inj same ▸ known before e asked
  · cases (Prod.mk.inj ended).1

/-- A question about files that is refused was left open. -/
theorem fails_asks {question : FileTree → Except FileError α}
    (errs : ∀ tree, ErrsWith (fun cause => (Failure.refused cause).Escapes) (question tree)) :
    FailsWith Failure.Known (askFor .refused question) := fails_askFor fun tree e refused => .inr (errs tree e refused)

/-- A task on files that fails has had an operation refused. -/
theorem exists_refused {task : FileTask α} {before after : FileTree} {failure : Failure}
    (ended : (monadLift task : FileRun α) before = (.error failure, after)) :
    ∃ cause, failure = .refused cause ∧ (task before).1 = .error cause := by
  change (ExceptT.adapt Failure.refused task) before = _ at ended
  rw [adapt_apply] at ended
  rcases ran : (task before).1 with cause | answer <;> rw [ran] at ended
  · exact ⟨cause, (Except.error.inj (Prod.mk.inj ended).1).symm, rfl⟩
  · cases (Prod.mk.inj ended).1

theorem fails_task (task : FileTask α) : FailsWith Failure.KnownDuring (monadLift task : FileRun α) := by
  intro before failure after ended
  obtain ⟨cause, refused, -⟩ := exists_refused ended
  exact .inl ⟨cause, refused⟩

theorem fails_resolve (path : Path) : FailsWith Failure.Known (resolve path) :=
  .bind (fails_askFor fun _ _ resolved => .inr (.unresolvable resolved)) fun _ => .pure _

theorem fails_readText (path : Path) : FailsWith Failure.KnownDuring (readText path) := by
  refine .bind (fails_askFor fun _ e _ => .inl ⟨e, rfl⟩) fun bytes => ?_
  split
  · exact .pure _
  · next decoded => exact .throw (.inr (.inr (.undecodable decoded)))

/-- As the failure of an action, a refused operation is reported unless its path holds a zero character. -/
theorem known_during (verb subject : String) {failure : Failure} (known : failure.KnownDuring) :
    (failure.during verb subject).Known := by
  obtain ⟨cause, rfl⟩ | known := known
  · simp only [Failure.during]
    split
    · exact .inl rfl
    · next foreign => exact .inr (.zeroCharacter (Bool.eq_false_iff.2 foreign))
  · unfold Failure.during
    split
    · split
      · exact .inl rfl
      · exact known
    · exact known

theorem fails_during (verb subject : String) {run : FileRun α} (fails : FailsWith Failure.KnownDuring run) :
    FailsWith Failure.Known (during verb subject run) := fails.adapt fun _ => known_during verb subject

end FileRun

/-! ## Tools -/

/-- A runner of processes: a command that fails is reported, unless it was not started since it is empty or an argument
holds the zero character. -/
def Runner.Reports {τ : Type} (runner : Runner τ) : Prop :=
  ∀ command, FailsWith (fun failure => (∃ report, failure = command.failure report) ∨ failure = .unsupported .emptyCommand ∨
    failure = .unsupported .zeroInArgument) (runner command)

/-- A command whose failures are to be reported leaves no failure but one that is known. -/
theorem Runner.Reports.known {τ : Type} {runner : Runner τ} (reports : runner.Reports) {command : Command}
    (reported : ∀ report, (command.failure report).isReported = true) : FailsWith Failure.Known (runner command) := by
  intro before error after ended
  obtain ⟨report, rfl⟩ | rfl | rfl := reports command before error after ended
  · exact .inl (reported report)
  · exact .inr .emptyCommand
  · exact .inr .zeroInArgument

/-! ## Publishers -/

namespace Publisher

variable (publisher : Publisher)

theorem fails_place (path : Path) : FailsWith Failure.Known (publisher.place path) := FileRun.fails_resolve _

theorem fails_attemptAll (runs : List (FileRun Unit)) (each : ∀ run ∈ runs, FailsWith Failure.Known run) :
    FailsWith Failure.Known (attemptAll runs) := by
  induction runs with
  | nil => exact .pure _
  | cons run runs ih =>
    obtain ⟨first, rest⟩ := List.forall_mem_cons.1 each
    intro before error after ended
    unfold attemptAll at ended
    rcases ran : run before with ⟨e | _, between⟩ <;> rw [ran] at ended
    · obtain ⟨same, -⟩ := Prod.mk.inj ended
      exact Except.error.inj same ▸ first _ _ _ ran
    · exact ih rest _ _ _ ended

theorem fails_copy (mapping : List (Path × Path)) (ignored : List String) :
    FailsWith Failure.Known (publisher.copy mapping ignored) := by
  refine .bind (.mapM _ fun pair _ => ?_) fun pairs => .bind (fails_attemptAll _ fun run mem => ?_) fun _ => .pure _
  · exact .bind (publisher.fails_place _) fun _ => .bind (publisher.fails_place _) fun _ => .pure _
  · obtain ⟨pair, -, rfl⟩ := List.mem_map.1 mem
    exact FileRun.fails_during _ _ (FileRun.fails_task _)

theorem fails_copySwapped (paths : List Path) (old new : String) :
    FailsWith Failure.Known (publisher.copySwapped paths old new) := by
  unfold copySwapped
  split
  · exact .throw (.inl rfl)
  · exact publisher.fails_copy _ _

theorem known_of_moves {tree : FileTree} {suffix : String} {paths : List Path} {failure : Failure}
    (moved : moves tree suffix paths = .error failure) : failure.Known := by
  have renames (path : Path) : ErrsWith Failure.Known ((renamed? suffix path).mapError .name) := by
    refine .mapError fun e named => .inr ?_
    unfold renamed? at named
    split at named
    · cases named
    · next name _ =>
      rcases given : path.withName (String.ofList name) with cause | target <;> rw [given] at named
      · obtain rfl := Except.error.inj named
        exact .name (.inl given)
      · cases named
  refine ErrsWith.bind (ErrsWith.mapM _ fun path _ => ?_) (fun _ => .ok _) failure moved
  refine .bind (tree.errs_asked _ _) fun isFile => ?_
  cases isFile with
  | false => exact .ok _
  | true => exact renames path

theorem fails_moveAndRename (pattern suffix : String) (base : Option Path) :
    FailsWith Failure.Known (publisher.moveAndRename pattern suffix base) := by
  have rename (start : Path) : FailsWith Failure.Known (renameFrom pattern suffix start) := by
    unfold renameFrom
    split
    · next parsed => exact .throw (.inr (.pattern parsed))
    · refine .bind (FileRun.fails_asks fun tree => tree.errs_search _ _) fun found => .bind (FileRun.fails_askFor fun _ _ moved => known_of_moves moved) fun pairs => ?_
      refine .bind (fails_attemptAll _ fun run mem => ?_) fun _ => .pure _
      obtain ⟨pair, -, rfl⟩ := List.mem_map.1 mem
      exact FileRun.fails_during _ _ (FileRun.fails_task _)
  cases base with
  | none => exact rename publisher.root
  | some base => exact FailsWith.bind (publisher.fails_place base) rename

theorem fails_deleteTemporary (path : Path) : FailsWith Failure.Known (publisher.deleteTemporary path) :=
  .bind (publisher.fails_place path) fun _ => FileRun.fails_during _ _ (FileRun.fails_task _)

/-- A temporary file that is there may not be deleted. -/
theorem fails_discard (path : Path) : FailsWith Failure.Known (discard path) := by
  intro before error after ended
  have asking := FileRun.askFor_apply Failure.refused (·.asksEntry path) before
  unfold discard at ended
  rw [bind_apply, asking] at ended
  rcases asked : before.asksEntry path with e | there <;> simp only [asked, Except.mapError] at ended
  · obtain ⟨same, -⟩ := Prod.mk.inj ended
    exact Except.error.inj same ▸ .inr (.question asked)
  · cases there with
    | false => cases (Prod.mk.inj ended).1
    | true =>
      obtain ⟨cause, rfl, refused⟩ := FileRun.exists_refused ended
      rw [FileTask.change_apply] at refused
      rcases deleted : before.unlink path with e | _ <;> rw [deleted] at refused
      · exact Except.error.inj refused ▸ .inr (.cleanup asked deleted)
      · cases refused

theorem fails_withTemporary {τ α : Type} (path : Path) {act : Path → Run τ α} (fails : ∀ target, FailsWith Failure.Known (act target)) :
    FailsWith Failure.Known (publisher.withTemporary path act) :=
  .bind (.onFiles (publisher.fails_place path)) fun target => .tryFinally (fails target) (.onFiles (fails_discard target))

end Publisher

end WasmPackaging
