import Mathlib.Data.List.Forall2
import WasmPackaging.Proofs.Outcome

/-!
Runs that go alike. One run simulates another when, from states that are paired, whatever the one succeeds in the other
does too, with the same answer, and the states are paired again in the end (`Simulates`). Two outcomes agree when both are answers
that belong together or both are failures, and the states are paired in either case (`Agree`): what was done before a failure stays
done. One rule for each way to put actions together.
-/

namespace WasmPackaging

variable {σ ε α β : Type}

/-- How the states of two runs are paired: what holds of the state of the one, where that leads, and how the state of the
other is related to it. Where a state leads is known when the run has ended, so this is carried from its end to its
start. -/
structure Pairing (σ : Type) where
  holds : σ → Prop
  leads : σ → Prop
  relates : σ → σ → Prop

/-- The pairing in which something more is known of the state of the one run. -/
def Pairing.given (p : Pairing σ) (fact : σ → Prop) : Pairing σ := { p with holds := fun state => p.holds state ∧ fact state }

/-- The pairing of worlds by their files. -/
def Pairing.ofFiles {τ : Type} (p : Pairing FileTree) : Pairing (World τ) where
  holds world := p.holds world.files
  leads world := p.leads world.files
  relates world other := p.relates world.files other.files

/-- Whenever an action succeeds, another one succeeds in each related state, with the same answer, and the states are paired
by a second pairing then. -/
def Simulates (p q : Pairing σ) (act other : ExceptT ε (StateM σ) α) : Prop :=
  ∀ ⦃before after : σ⦄ ⦃answer : α⦄, p.holds before → act before = (.ok answer, after) →
    q.holds after ∧ (q.leads after → p.leads before ∧
      ∀ before', p.relates before before' → ∃ after', other before' = (.ok answer, after') ∧ q.relates after after')

namespace Simulates

variable {p q r : Pairing σ} {act other : ExceptT ε (StateM σ) α}

theorem pure (p : Pairing σ) (answer : α) : Simulates p p (Pure.pure answer : ExceptT ε (StateM σ) α) (Pure.pure answer) := by
  intro before after answer' holds ended
  obtain ⟨same, rfl⟩ := Prod.mk.inj ended
  obtain rfl := Except.ok.inj same
  exact ⟨holds, fun leads => ⟨leads, fun before' related => ⟨before', rfl, related⟩⟩⟩

theorem throw {error : ε} : Simulates p q (MonadExcept.throw error : ExceptT ε (StateM σ) α) other := by
  intro before after answer holds ended
  cases (Prod.mk.inj ended).1

theorem given {fact : σ → Prop} (simulates : Simulates p q act other) : Simulates (p.given fact) q act other :=
  fun _ _ _ holds ended => simulates holds.1 ended

/-- What follows from what holds at the start can be used. -/
theorem assume {fact : Prop} (known : ∀ state, p.holds state → fact) (simulates : fact → Simulates p q act other) : Simulates p q act other :=
  fun before _ _ holds ended => simulates (known before holds) holds ended

/-- What is known of where an action ends can be used for what follows. -/
theorem bindWith {next next' : α → ExceptT ε (StateM σ) β} {fact : α → σ → Prop} (first : Simulates p q act other)
    (known : ∀ before after answer, p.holds before → act before = (.ok answer, after) → fact answer after)
    (second : ∀ answer, Simulates (q.given (fact answer)) r (next answer) (next' answer)) :
    Simulates p r (act >>= next) (other >>= next') := by
  intro before after answer holds ended
  obtain ⟨a, between, ran, ended⟩ := bind_ends_iff.1 ended
  obtain ⟨held, carried⟩ := first holds ran
  obtain ⟨held', carried'⟩ := second a ⟨held, known before between a holds ran⟩ ended
  refine ⟨held', fun leads => ?_⟩
  obtain ⟨leads', later⟩ := carried' leads
  obtain ⟨leads, now⟩ := carried leads'
  refine ⟨leads, fun before' related => ?_⟩
  obtain ⟨between', ran', related'⟩ := now before' related
  obtain ⟨after', ended', related''⟩ := later between' related'
  exact ⟨after', bind_ends_iff.2 ⟨a, between', ran', ended'⟩, related''⟩

/-- What is known of where an action ends holds there. -/
theorem known {fact : σ → Prop} (simulates : Simulates p q act other)
    (knows : ∀ before after answer, p.holds before → act before = (.ok answer, after) → fact after) : Simulates p (q.given fact) act other := by
  intro before after answer holds ended
  obtain ⟨held, carried⟩ := simulates holds ended
  exact ⟨⟨held, knows before after answer holds ended⟩, carried⟩

theorem bind {next next' : α → ExceptT ε (StateM σ) β} (first : Simulates p q act other)
    (second : ∀ answer, Simulates q r (next answer) (next' answer)) : Simulates p r (act >>= next) (other >>= next') := by
  have known (before after : σ) (answer : α) (_ : p.holds before) (_ : act before = (.ok answer, after)) : True := trivial
  exact first.bindWith known fun answer => (second answer).given

theorem adapt {ε' : Type} {f : ε → ε'} (simulates : Simulates p q act other) :
    Simulates p q (ExceptT.adapt f act) (ExceptT.adapt f other) := by
  intro before after answer holds ended
  obtain ⟨held, carried⟩ := simulates holds (adapt_ends_iff.1 ended)
  refine ⟨held, fun leads => ?_⟩
  obtain ⟨leads, now⟩ := carried leads
  refine ⟨leads, fun before' related => ?_⟩
  obtain ⟨after', ended', related'⟩ := now before' related
  exact ⟨after', adapt_ends_iff.2 ended', related'⟩

/-- A question that has the same answer in related states. -/
theorem ask {question : ExceptT ε (StateM σ) α} (still : ∀ before after answer, p.holds before → question before = (.ok answer, after) → after = before)
    (same : ∀ before before' answer, p.holds before → p.relates before before' → question before = (.ok answer, before) →
      other before' = (.ok answer, before')) : Simulates p p question other := by
  intro before after answer holds ended
  obtain rfl := still before after answer holds ended
  exact ⟨holds, fun leads => ⟨leads, fun before' related => ⟨before', same after before' answer holds related ended, related⟩⟩⟩

/-- A question to the state that has the same answer in related states decides how both runs go on. -/
theorem branch {question : σ → Bool} {yes no yes' no' : ExceptT ε (StateM σ) α}
    (same : ∀ before before', p.holds before → p.relates before before' → question before' = question before)
    (first : Simulates (p.given (question · = true)) q yes yes') (second : Simulates (p.given (question · = false)) q no no') :
    Simulates p q (do if question (← MonadState.get) then yes else no) (do if question (← MonadState.get) then yes' else no') := by
  intro before after answer holds ended
  rw [get_bind_apply] at ended
  cases answered : question before with
  | true =>
    rw [if_pos answered] at ended
    obtain ⟨held, carried⟩ := first ⟨holds, answered⟩ ended
    refine ⟨held, fun leads => ?_⟩
    obtain ⟨leads, now⟩ := carried leads
    refine ⟨leads, fun before' related => ?_⟩
    rw [get_bind_apply, if_pos ((same before before' holds related).trans answered)]
    exact now before' related
  | false =>
    rw [if_neg (by simp [answered])] at ended
    obtain ⟨held, carried⟩ := second ⟨holds, answered⟩ ended
    refine ⟨held, fun leads => ?_⟩
    obtain ⟨leads, now⟩ := carried leads
    refine ⟨leads, fun before' related => ?_⟩
    rw [get_bind_apply, if_neg (by simp [same before before' holds related, answered])]
    exact now before' related

theorem forM {f g : α → ExceptT ε (StateM σ) PUnit} (list : List α) (each : ∀ a ∈ list, Simulates p p (f a) (g a)) :
    Simulates p p (list.forM f) (list.forM g) := by
  induction list with
  | nil => exact pure p PUnit.unit
  | cons a list ih =>
    obtain ⟨first, rest⟩ := List.forall_mem_cons.1 each
    exact bind first fun _ => ih rest

end Simulates

theorem FileRun.askFor_ends_iff {failure : ε → Failure} {question : FileTree → Except ε α} {before after : FileTree} {answer : α} :
    FileRun.askFor failure question before = (.ok answer, after) ↔ question before = .ok answer ∧ after = before := by
  rw [FileRun.askFor_apply]
  constructor
  · intro ended
    obtain ⟨same, rfl⟩ := Prod.mk.inj ended
    exact ⟨mapError_eq_ok_iff.1 same, rfl⟩
  · rintro ⟨asked, rfl⟩
    rw [asked]
    rfl

/-- A question about files that has the same answer in related trees. -/
theorem Simulates.askFor {p : Pairing FileTree} {failure : ε → Failure} {question : FileTree → Except ε α}
    (same : ∀ before before' answer, p.holds before → p.relates before before' → question before = .ok answer → question before' = .ok answer) :
    Simulates p p (FileRun.askFor failure question) (FileRun.askFor failure question) := by
  refine ask (fun before after answer _ ended => (FileRun.askFor_ends_iff.1 ended).2) fun before before' answer holds related ended => ?_
  exact FileRun.askFor_ends_iff.2 ⟨same before before' answer holds related (FileRun.askFor_ends_iff.1 ended).1, rfl⟩

theorem Simulates.onFiles {τ : Type} {p q : Pairing FileTree} {act other : FileRun α} (simulates : Simulates p q act other) :
    Simulates p.ofFiles q.ofFiles (monadLift act : Run τ α) (monadLift other : Run τ α) := by
  intro before after answer holds ended
  obtain ⟨held, carried⟩ := simulates holds (Run.onFiles_ends ended).1
  refine ⟨held, fun leads => ?_⟩
  obtain ⟨leads, now⟩ := carried leads
  refine ⟨leads, fun before' related => ?_⟩
  obtain ⟨files, ended', related'⟩ := now before'.files related
  exact ⟨{ before' with files }, by rw [Run.onFiles_apply, ended'], related'⟩

/-! ## Runs that also fail alike -/

variable {ε' γ δ : Type}

/-- An action fails when it is started in a state. -/
def Fails (act : ExceptT ε (StateM σ) α) (before : σ) : Prop := ∃ error, (act before).1 = .error error

theorem fails_of_isNone {act : ExceptT ε (StateM σ) α} {before : σ} (refused : (act before).1.toOption.isNone = true) : Fails act before := by
  rcases ran : (act before).1 with error | answer
  · exact ⟨error, ran⟩
  · rw [ran] at refused
    cases refused

/-- Both outcomes are answers that belong together, or both are failures, and the states are paired. -/
inductive Agree (pair : σ → σ → Prop) (answers : α → β → Prop) : Except ε α × σ → Except ε' β × σ → Prop
  | answer {a : α} {b : β} {after after' : σ} : answers a b → pair after after' → Agree pair answers (.ok a, after) (.ok b, after')
  | failure {error : ε} {error' : ε'} {after after' : σ} : pair after after' → Agree pair answers (.error error, after) (.error error', after')

namespace Agree

variable {pair : σ → σ → Prop} {answers : α → β → Prop} {later : γ → δ → Prop} {before before' : σ}

theorem after {outcome : Except ε α × σ} {outcome' : Except ε' β × σ} (agree : Agree pair answers outcome outcome') : pair outcome.2 outcome'.2 := by
  cases agree with
  | answer _ paired => exact paired
  | failure paired => exact paired

theorem fails_iff {act : ExceptT ε (StateM σ) α} {other : ExceptT ε' (StateM σ) β} (agree : Agree pair answers (act before) (other before')) :
    Fails act before ↔ Fails other before' := by
  unfold Fails
  generalize act before = outcome, other before' = outcome' at agree
  cases agree with
  | answer => simp
  | failure => simp

/-- Outcomes agree when a success of either is one of the other, and failures leave paired states. -/
theorem of_success {act : ExceptT ε (StateM σ) α} {other : ExceptT ε' (StateM σ) β}
    (forth : ∀ a after, act before = (.ok a, after) → ∃ b after', other before' = (.ok b, after') ∧ answers a b ∧ pair after after')
    (back : ∀ b after', other before' = (.ok b, after') → ∃ a after, act before = (.ok a, after))
    (failed : ∀ e e' after after', act before = (.error e, after) → other before' = (.error e', after') → pair after after') :
    Agree pair answers (act before) (other before') := by
  rcases ran : act before with ⟨error | a, after⟩ <;> rcases ran' : other before' with ⟨error' | b, after'⟩
  · exact .failure (failed _ _ _ _ ran ran')
  · obtain ⟨_, _, other⟩ := back b after' ran'
    rw [ran] at other
    cases (Prod.mk.inj other).1
  · obtain ⟨_, _, other, -⟩ := forth a after ran
    rw [ran'] at other
    cases (Prod.mk.inj other).1
  · obtain ⟨b', between, same, together, paired⟩ := forth a after ran
    rw [ran'] at same
    cases same
    exact .answer together paired

/-- How the first actions ended is known in what follows. -/
theorem bind {act : ExceptT ε (StateM σ) α} {other : ExceptT ε' (StateM σ) β} {next : α → ExceptT ε (StateM σ) γ}
    {next' : β → ExceptT ε' (StateM σ) δ} (first : Agree pair answers (act before) (other before'))
    (rest : ∀ a b between between', act before = (.ok a, between) → other before' = (.ok b, between') → answers a b → pair between between' →
      Agree pair later (next a between) (next' b between')) :
    Agree pair later ((act >>= next) before) ((other >>= next') before') := by
  rw [bind_apply, bind_apply]
  rcases ran : act before with ⟨error | a, between⟩ <;> rcases ran' : other before' with ⟨error' | b, between'⟩ <;> rw [ran, ran'] at first
  · exact .failure first.after
  · cases first
  · cases first
  · cases first with
    | answer together paired => exact rest a b between between' ran ran' together paired

theorem adapt {act : ExceptT ε (StateM σ) α} {other : ExceptT ε (StateM σ) β} {f f' : ε → ε'}
    (agree : Agree pair answers (act before) (other before')) :
    Agree pair answers (ExceptT.adapt f act before) (ExceptT.adapt f' other before') := by
  rw [adapt_apply, adapt_apply]
  generalize act before = outcome, other before' = outcome' at agree
  cases agree with
  | answer together paired => exact .answer together paired
  | failure paired => exact .failure paired

/-- Both runs go through the same list. -/
theorem mapM {ι : Type} {f : ι → ExceptT ε (StateM σ) α} {g : ι → ExceptT ε' (StateM σ) β} {list : List ι}
    (each : ∀ i ∈ list, ∀ now now', pair now now' → Agree pair answers (f i now) (g i now')) (paired : pair before before') :
    Agree pair (List.Forall₂ answers) (list.mapM f before) (list.mapM g before') := by
  induction list generalizing before before' with
  | nil =>
    rw [List.mapM_nil, List.mapM_nil]
    exact .answer .nil paired
  | cons i list ih =>
    obtain ⟨first, rest⟩ := List.forall_mem_cons.1 each
    rw [List.mapM_cons, List.mapM_cons]
    refine (first before before' paired).bind fun a b between between' _ _ together paired => ?_
    exact (ih rest paired).bind fun _ _ _ _ _ _ together' paired' => .answer (.cons together together') paired'

end Agree

/-- Lists of which the one is empty just when the other is. -/
def BothEmpty {α β : Type} (a : List α) (b : List β) : Prop := a = [] ↔ b = []

theorem BothEmpty.flatten {a : List (List α)} {b : List (List β)} (each : List.Forall₂ BothEmpty a b) : BothEmpty a.flatten b.flatten := by
  induction each with
  | nil => simp [BothEmpty]
  | cons first _ ih =>
    unfold BothEmpty at first ih ⊢
    rw [List.flatten_cons, List.flatten_cons, List.append_eq_nil_iff, List.append_eq_nil_iff, first, ih]

end WasmPackaging
