import WasmPackaging.World

/-!
What actions leave behind. `Leaves` names what holds when an action ends with an answer and what holds
when it fails; what was done before a failure stays done, so the state matters in both cases. One rule
for each way to put actions together.
-/

namespace WasmPackaging

variable {σ ε α β : Type}

theorem bind_eq_ok_iff {x : Except ε α} {f : α → Except ε β} {b : β} :
    (x >>= f) = .ok b ↔ ∃ a, x = .ok a ∧ f a = .ok b := by
  cases x <;> simp [bind, Except.bind]

theorem mapError_ok {ε' : Type} (f : ε → ε') (a : α) : (Except.ok a).mapError f = .ok a := rfl

theorem mapError_eq_ok_iff {ε' : Type} {x : Except ε α} {f : ε → ε'} {a : α} :
    x.mapError f = .ok a ↔ x = .ok a := by
  cases x with
  | error e => constructor <;> intro same <;> cases same
  | ok b => exact ⟨fun same => congrArg _ (Except.ok.inj same), fun same => congrArg _ (Except.ok.inj same)⟩

theorem eq_ok_of_toOption {x : Except ε α} {a : α} (same : x.toOption = some a) : x = .ok a := by
  cases x with
  | error e => cases same
  | ok b => rw [Option.some.inj same]

/-- An action started in a state ends with an answer and a state that pass one test, or it fails in a
state that passes another. -/
def Leaves (act : ExceptT ε (StateM σ) α) (before : σ) (done : α → σ → Prop) (failed : σ → Prop) : Prop :=
  match act before with
  | (.ok answer, after) => done answer after
  | (.error _, after) => failed after

theorem bind_apply (act : ExceptT ε (StateM σ) α) (next : α → ExceptT ε (StateM σ) β) (before : σ) :
    (act >>= next) before =
      match act before with
      | (.ok answer, between) => next answer between
      | (.error error, between) => (.error error, between) := by
  simp only [bind, ExceptT.bind, ExceptT.mk, StateT.bind, ExceptT.bindCont]
  cases act before with
  | mk result between => cases result <;> rfl

theorem get_bind_apply (next : σ → ExceptT ε (StateM σ) β) (before : σ) :
    ((MonadState.get : ExceptT ε (StateM σ) σ) >>= next) before = next before before := rfl

/-- An action that ends with an answer went through all its parts. -/
theorem bind_ends_iff {act : ExceptT ε (StateM σ) α} {next : α → ExceptT ε (StateM σ) β} {before after : σ} {b : β} :
    (act >>= next) before = (.ok b, after) ↔ ∃ a between, act before = (.ok a, between) ∧ next a between = (.ok b, after) := by
  rw [bind_apply]
  constructor
  · intro ended
    rcases ran : act before with ⟨_ | a, between⟩ <;> rw [ran] at ended
    · cases ended
    · exact ⟨a, between, rfl, ended⟩
  · rintro ⟨a, between, first, ended⟩
    rwa [first]

theorem adapt_apply {ε' : Type} (f : ε → ε') (act : ExceptT ε (StateM σ) α) (before : σ) :
    (ExceptT.adapt f act) before = ((act before).1.mapError f, (act before).2) := by
  rfl

theorem adapt_ends_iff {ε' : Type} {f : ε → ε'} {act : ExceptT ε (StateM σ) α} {before after : σ} {a : α} :
    (ExceptT.adapt f act) before = (.ok a, after) ↔ act before = (.ok a, after) := by
  rw [adapt_apply]
  rcases act before with ⟨_ | b, between⟩
  · constructor <;> intro other <;> cases other
  · constructor <;> intro same <;> cases same <;> rfl

theorem tryCatch_apply (act : ExceptT ε (StateM σ) α) (handler : ε → ExceptT ε (StateM σ) α) (before : σ) :
    (tryCatch act handler) before =
      match act before with
      | (.ok answer, after) => (.ok answer, after)
      | (.error error, after) => handler error after := by
  simp only [tryCatch, tryCatchThe, MonadExceptOf.tryCatch, ExceptT.tryCatch, ExceptT.mk, bind, StateT.bind]
  cases act before with
  | mk result after => cases result <;> rfl

/-- A cleanup follows an action in either case; it hides the outcome of the action only by a failure of its own. -/
theorem tryFinally_apply (act : ExceptT ε (StateM σ) α) (cleanup : ExceptT ε (StateM σ) β) (before : σ) :
    (tryFinally act cleanup) before =
      match cleanup (act before).2 with
      | (.ok _, after) => ((act before).1, after)
      | (.error error, after) => (.error error, after) := by
  simp only [tryFinally, tryFinally', Functor.map, ExceptT.map, ExceptT.mk, bind, StateT.bind]
  rcases act before with ⟨_ | _, between⟩ <;> simp only [] <;> rcases cleanup between with ⟨_ | _, after⟩ <;> rfl

namespace Leaves

variable {act : ExceptT ε (StateM σ) α} {before : σ} {done done' : α → σ → Prop} {failed failed' : σ → Prop}

theorem of_ok (leaves : Leaves act before done failed) {answer : α} {after : σ}
    (ended : act before = (.ok answer, after)) : done answer after := by
  rwa [Leaves, ended] at leaves

theorem of_error (leaves : Leaves act before done failed) {error : ε} {after : σ}
    (ended : act before = (.error error, after)) : failed after := by
  rwa [Leaves, ended] at leaves

theorem congr {act' : ExceptT ε (StateM σ) α} (leaves : Leaves act' before done failed) (same : act before = act' before) :
    Leaves act before done failed := by rwa [Leaves, same]

theorem mono (leaves : Leaves act before done failed) (ok : ∀ answer after, done answer after → done' answer after)
    (error : ∀ after, failed after → failed' after) : Leaves act before done' failed' := by
  unfold Leaves at *
  split at leaves
  · exact ok _ _ leaves
  · exact error _ leaves

theorem of_ends (ends : ∀ answer after, act before = (.ok answer, after) → done answer after) : Leaves act before done (fun _ => True) := by
  unfold Leaves
  split
  · next answer after ended => exact ends answer after ended
  · trivial

theorem of_after {holds : σ → Prop} (ended : holds (act before).2) : Leaves act before (fun _ after => True ∧ holds after) holds := by
  unfold Leaves
  rcases ran : act before with ⟨_ | _, after⟩ <;> rw [ran] at ended
  · exact ended
  · exact ⟨trivial, ended⟩

theorem pure {answer : α} (holds : done answer before) :
    Leaves (Pure.pure answer : ExceptT ε (StateM σ) α) before done failed := holds

theorem throw {error : ε} (holds : failed before) :
    Leaves (MonadExcept.throw error : ExceptT ε (StateM σ) α) before done failed := holds

theorem bind {next : α → ExceptT ε (StateM σ) β} {done : β → σ → Prop}
    (first : Leaves act before (fun answer between => Leaves (next answer) between done failed) failed) :
    Leaves (act >>= next) before done failed := by
  unfold Leaves at first ⊢
  rw [bind_apply]
  split at first <;> simp_all

theorem read {done : σ → σ → Prop} (holds : done before before) :
    Leaves (MonadState.get : ExceptT ε (StateM σ) σ) before done failed := holds

/-- An action that goes on with the state as it stands. -/
theorem get {next : σ → ExceptT ε (StateM σ) β} {done : β → σ → Prop}
    (holds : Leaves (next before) before done failed) :
    Leaves (MonadState.get >>= next) before done failed := bind holds

theorem set {done : Unit → σ → Prop} {state : σ} (holds : done () state) :
    Leaves (MonadState.set state : ExceptT ε (StateM σ) Unit) before done failed := holds

theorem adapt {ε' : Type} {f : ε → ε'} (leaves : Leaves act before done failed) :
    Leaves (ExceptT.adapt f act) before done failed := by
  unfold Leaves at leaves ⊢
  rw [adapt_apply]
  rcases ran : act before with ⟨_ | _, after⟩ <;> rw [ran] at leaves <;> exact leaves

/-- An action whose failure is handled. -/
theorem tryCatch {handler : ε → ExceptT ε (StateM σ) α} {between : σ → Prop} (first : Leaves act before done between)
    (handled : ∀ error after, between after → Leaves (handler error) after done failed) :
    Leaves (MonadExcept.tryCatch act handler) before done failed := by
  unfold Leaves at first ⊢
  rw [tryCatch_apply]
  split at first
  · exact first
  · exact handled _ _ first

/-! ## Actions with a state of their own -/

section own

variable {τ : Type} {own : τ} {part : StateT τ (ExceptT ε (StateM σ)) α} {done : α × τ → σ → Prop}

theorem runPure {answer : α} (holds : done (answer, own) before) :
    Leaves ((Pure.pure answer : StateT τ (ExceptT ε (StateM σ)) α).run own) before done failed := holds

theorem runThrow {error : ε} (holds : failed before) :
    Leaves ((MonadExcept.throw error : StateT τ (ExceptT ε (StateM σ)) α).run own) before done failed := holds

theorem runBind {next : α → StateT τ (ExceptT ε (StateM σ)) β} {done : β × τ → σ → Prop}
    (first : Leaves (part.run own) before
      (fun result between => Leaves ((next result.1).run result.2) between done failed) failed) :
    Leaves ((part >>= next).run own) before done failed := by
  rw [StateT.run_bind]
  exact bind first

theorem runLift (leaves : Leaves act before (fun answer => done (answer, own)) failed) :
    Leaves ((monadLift act : StateT τ (ExceptT ε (StateM σ)) α).run own) before done failed := by
  rw [StateT.run_monadLift]
  exact bind (leaves.mono (fun _ _ holds => holds) fun _ holds => holds)

theorem runModify {done : PUnit × τ → σ → Prop} {f : τ → τ} (holds : done ((), f own) before) :
    Leaves ((modify f : StateT τ (ExceptT ε (StateM σ)) PUnit).run own) before done failed := holds

end own

end Leaves

/-! ## Invariants -/

/-- An action keeps an invariant, whether or not it fails, and its answers pass a test. -/
def Keeps (invariant : σ → Prop) (answers : α → Prop) (act : ExceptT ε (StateM σ) α) : Prop :=
  ∀ before, invariant before → Leaves act before (fun answer after => answers answer ∧ invariant after) invariant

namespace Keeps

variable {invariant : σ → Prop} {answers answers' : α → Prop} {later : β → Prop} {act : ExceptT ε (StateM σ) α}

/-- The invariant holds when the action has ended, in either way. -/
theorem after (keeps : Keeps invariant answers act) {before : σ} (kept : invariant before) : invariant (act before).2 := by
  have leaves := keeps before kept
  unfold Leaves at leaves
  rcases ran : act before with ⟨_ | _, after⟩ <;> rw [ran] at leaves
  · exact leaves
  · exact leaves.2

theorem of_ok (keeps : Keeps invariant answers act) {before after : σ} {answer : α} (kept : invariant before)
    (ended : act before = (.ok answer, after)) : answers answer ∧ invariant after := (keeps before kept).of_ok ended

theorem of_after (holds : ∀ before, invariant before → invariant (act before).2) : Keeps invariant (fun _ => True) act :=
  fun before kept => .of_after (holds before kept)

theorem pure {answer : α} (holds : answers answer) :
    Keeps invariant answers (Pure.pure answer : ExceptT ε (StateM σ) α) := fun _ kept => .pure ⟨holds, kept⟩

theorem throw {error : ε} : Keeps invariant answers (MonadExcept.throw error : ExceptT ε (StateM σ) α) := fun _ kept => .throw kept

theorem mono (keeps : Keeps invariant answers act) (weaker : ∀ answer, answers answer → answers' answer) :
    Keeps invariant answers' act :=
  fun before kept => (keeps before kept).mono (fun answer _ both => ⟨weaker answer both.1, both.2⟩) fun _ kept => kept

theorem bind {next : α → ExceptT ε (StateM σ) β} (first : Keeps invariant answers act)
    (second : ∀ answer, answers answer → Keeps invariant later (next answer)) : Keeps invariant later (act >>= next) :=
  fun before kept => .bind ((first before kept).mono (fun answer between both => second answer both.1 between both.2)
    fun _ kept => kept)

/-- What holds when an action has ended holds when actions follow that keep it. -/
theorem onward {next : α → ExceptT ε (StateM σ) β} {before : σ} (ended : invariant (act before).2)
    (rest : ∀ answer, Keeps invariant later (next answer)) : invariant ((act >>= next) before).2 := by
  rw [bind_apply]
  rcases ran : act before with ⟨_ | answer, between⟩ <;> rw [ran] at ended
  · exact ended
  · exact (rest answer).after ended

theorem adapt {ε' : Type} {f : ε → ε'} (keeps : Keeps invariant answers act) : Keeps invariant answers (ExceptT.adapt f act) :=
  fun before kept => .adapt (keeps before kept)

theorem tryCatch {handler : ε → ExceptT ε (StateM σ) α} (first : Keeps invariant answers act)
    (handled : ∀ error, Keeps invariant answers (handler error)) : Keeps invariant answers (MonadExcept.tryCatch act handler) :=
  fun before kept => .tryCatch (first before kept) fun error after kept => handled error after kept

/-- An action that goes on with the state as it stands. -/
theorem get {next : σ → ExceptT ε (StateM σ) β}
    (holds : ∀ now, invariant now → Leaves (next now) now (fun answer after => later answer ∧ invariant after) invariant) :
    Keeps invariant later (MonadState.get >>= next) := fun now kept => .get (holds now kept)

theorem mapM {f : α → ExceptT ε (StateM σ) β} (list : List α) (each : ∀ a ∈ list, Keeps invariant later (f a)) :
    Keeps invariant (fun answers => ∀ b ∈ answers, later b) (list.mapM f) := by
  induction list with
  | nil =>
    rw [List.mapM_nil]
    exact pure (by simp)
  | cons a list ih =>
    obtain ⟨first, rest⟩ := List.forall_mem_cons.1 each
    rw [List.mapM_cons]
    refine bind first fun b holds => ?_
    refine bind (ih rest) fun answers all => ?_
    exact pure (List.forall_mem_cons.2 ⟨holds, all⟩)

theorem forM {f : α → ExceptT ε (StateM σ) PUnit} (list : List α) (each : ∀ a ∈ list, Keeps invariant (fun _ => True) (f a)) :
    Keeps invariant (fun _ => True) (list.forM f) := by
  induction list with
  | nil => exact pure trivial
  | cons a list ih =>
    obtain ⟨first, rest⟩ := List.forall_mem_cons.1 each
    exact bind first fun _ _ => ih rest

end Keeps

/-! ## Failures -/

/-- Every failure of an action passes a test. -/
def FailsWith {ε σ α : Type} (test : ε → Prop) (act : ExceptT ε (StateM σ) α) : Prop :=
  ∀ before error after, act before = (.error error, after) → test error

namespace FailsWith

variable {ε σ α β : Type} {test : ε → Prop} {act : ExceptT ε (StateM σ) α}

theorem pure (answer : α) : FailsWith test (Pure.pure answer : ExceptT ε (StateM σ) α) := fun _ _ _ ended => nomatch ended

theorem throw {error : ε} (holds : test error) : FailsWith test (MonadExcept.throw error : ExceptT ε (StateM σ) α) := by
  intro _ _ _ ended
  obtain ⟨same, -⟩ := Prod.mk.inj ended
  exact Except.error.inj same ▸ holds

/-- An action that goes on with an answer that passes a test. -/
theorem bindOf {answers : α → Prop} {next : α → ExceptT ε (StateM σ) β} (first : FailsWith test act)
    (passes : Keeps (fun _ => True) answers act) (second : ∀ answer, answers answer → FailsWith test (next answer)) :
    FailsWith test (act >>= next) := by
  intro before error after ended
  rw [bind_apply] at ended
  rcases ran : act before with ⟨_ | answer, between⟩ <;> rw [ran] at ended
  · obtain ⟨same, -⟩ := Prod.mk.inj ended
    exact first _ _ _ (ran.trans (congrArg (·, between) (congrArg _ (Except.error.inj same))))
  · exact second answer (passes.of_ok trivial ran).1 _ _ _ ended

theorem bind {next : α → ExceptT ε (StateM σ) β} (first : FailsWith test act) (second : ∀ answer, FailsWith test (next answer)) :
    FailsWith test (act >>= next) := bindOf first (.of_after fun _ _ => trivial) fun answer _ => second answer

theorem read : FailsWith test (MonadState.get : ExceptT ε (StateM σ) σ) := fun _ _ _ ended => nomatch ended

theorem get {next : σ → ExceptT ε (StateM σ) β} (rest : ∀ now, FailsWith test (next now)) : FailsWith test (MonadState.get >>= next) :=
  fun before => rest before before

theorem adapt {ε' : Type} {test' : ε' → Prop} {f : ε → ε'} (fails : FailsWith test act) (maps : ∀ error, test error → test' (f error)) :
    FailsWith test' (ExceptT.adapt f act) := by
  intro before error after ended
  rw [adapt_apply] at ended
  rcases ran : act before with ⟨cause | answer, between⟩ <;> rw [ran] at ended
  · obtain ⟨same, -⟩ := Prod.mk.inj ended
    exact Except.error.inj same ▸ maps cause (fails _ _ _ ran)
  · cases (Prod.mk.inj ended).1

theorem tryFinally {cleanup : ExceptT ε (StateM σ) β} (first : FailsWith test act) (last : FailsWith test cleanup) :
    FailsWith test (tryFinally act cleanup) := by
  intro before error after ended
  rw [tryFinally_apply] at ended
  rcases closed : cleanup (act before).2 with ⟨_ | _, final⟩ <;> rw [closed] at ended <;> obtain ⟨same, rfl⟩ := Prod.mk.inj ended
  · exact last _ _ _ (closed.trans (congrArg (·, final) (congrArg _ (Except.error.inj same))))
  · exact first before error _ (Prod.ext same rfl)

theorem mapM {f : α → ExceptT ε (StateM σ) β} (list : List α) (each : ∀ a ∈ list, FailsWith test (f a)) : FailsWith test (list.mapM f) := by
  induction list with
  | nil =>
    rw [List.mapM_nil]
    exact pure _
  | cons a list ih =>
    obtain ⟨first, rest⟩ := List.forall_mem_cons.1 each
    rw [List.mapM_cons]
    exact bind first fun _ => bind (ih rest) fun _ => pure _

theorem forM {f : α → ExceptT ε (StateM σ) PUnit} (list : List α) (each : ∀ a ∈ list, FailsWith test (f a)) : FailsWith test (list.forM f) := by
  induction list with
  | nil => exact pure _
  | cons a list ih =>
    obtain ⟨first, rest⟩ := List.forall_mem_cons.1 each
    exact bind first fun _ => ih rest

end FailsWith

/-! ## Actions on files -/

theorem FileRun.askFor_apply {α ε : Type} (failure : ε → Failure) (question : FileTree → Except ε α)
    (tree : FileTree) : FileRun.askFor failure question tree = ((question tree).mapError failure, tree) := by
  refine (get_bind_apply _ tree).trans ?_
  cases question tree <;> rfl

theorem FileRun.resolve_apply (path : Path) (tree : FileTree) :
    FileRun.resolve path tree =
      (((tree.resolve path).mapError Failure.unresolvable).map Path.ofLocation, tree) := by
  unfold FileRun.resolve
  rw [bind_apply, FileRun.askFor_apply]
  cases tree.resolve path <;> rfl

theorem Run.onFiles_apply {τ α : Type} (act : FileRun α) (world : World τ) :
    (monadLift act : Run τ α) world = ((act world.files).1, { world with files := (act world.files).2 }) := rfl

theorem Run.onFiles_ends {τ : Type} {act : FileRun α} {world after : World τ} {a : α}
    (ended : (monadLift act : Run τ α) world = (.ok a, after)) : act world.files = (.ok a, after.files) ∧ after.tools = world.tools := by
  rw [Run.onFiles_apply] at ended
  obtain ⟨first, rfl⟩ := Prod.mk.inj ended
  exact ⟨Prod.ext first rfl, rfl⟩

theorem FileTask.change_apply (change : FileTree → Except FileError FileTree) (before : FileTree) :
    FileTask.change change before =
      match change before with
      | .ok after => (.ok (), after)
      | .error error => (.error error, before) := by
  refine (get_bind_apply _ before).trans ?_
  cases change before <;> rfl

theorem FileTask.keeps_change {invariant : FileTree → Prop} {change : FileTree → Except FileError FileTree}
    (kept : ∀ now after, invariant now → change now = .ok after → invariant after) :
    Keeps invariant (fun _ => True) (FileTask.change change) := by
  refine .get fun now holds => ?_
  split
  · next after changed => exact .set ⟨trivial, kept now after holds changed⟩
  · exact .throw holds

theorem FileRun.keeps_askFor {invariant : FileTree → Prop} {failure : ε → Failure} {question : FileTree → Except ε α}
    {answers : α → Prop} (known : ∀ now answer, invariant now → question now = .ok answer → answers answer) :
    Keeps invariant answers (FileRun.askFor failure question) := by
  refine .get fun now holds => ?_
  split
  · next answer asked => exact .pure ⟨known now answer holds asked, holds⟩
  · exact .throw holds

/-- What an action on the files leaves is left among the tools. -/
theorem Leaves.onFiles {τ : Type} {act : FileRun α} {world : World τ} {done : α → FileTree → Prop} {failed : FileTree → Prop}
    (leaves : Leaves act world.files done failed) :
    Leaves (monadLift act : Run τ α) world (fun answer after => done answer after.files) (fun after => failed after.files) := by
  unfold Leaves at leaves ⊢
  rw [Run.onFiles_apply]
  rcases ran : act world.files with ⟨_ | _, after⟩ <;> rw [ran] at leaves <;> exact leaves

theorem Keeps.onFiles {τ : Type} {invariant : FileTree → Prop} {answers : α → Prop} {act : FileRun α}
    (keeps : Keeps invariant answers act) :
    Keeps (fun world : World τ => invariant world.files) answers (monadLift act : Run τ α) := fun world kept => .onFiles (keeps world.files kept)

theorem FailsWith.onFiles {τ : Type} {test : Failure → Prop} {act : FileRun α} (fails : FailsWith test act) :
    FailsWith test (monadLift act : Run τ α) := by
  intro world error after ended
  rw [Run.onFiles_apply] at ended
  exact fails world.files error _ (Prod.ext (Prod.mk.inj ended).1 rfl)

end WasmPackaging
