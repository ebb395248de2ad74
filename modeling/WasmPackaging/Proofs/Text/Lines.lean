import WasmPackaging.Proofs.Text.Finds
import WasmPackaging.Proofs.Text.Spans

/-!
Lines of a text: a line starts at the front of the text and behind each line feed. Recognisers that
answer only where a line starts (`Lined`) find nothing exactly when they answer at no line
(`locateIn_eq_nil_iff_lines`), and their last find is the last line at which they answer
(`getLast?_locateIn_iff_lines`).
-/

namespace WasmPackaging.Text

/-- The line that a text starts with, without the line feed at its end. -/
def lineOf (s : List Char) : List Char := s.takeWhile (· != '\n')

/-- Every line of a text behind the character `first`: `P` is given the text that leads to the line
and the text from the line on. -/
def EveryLine (first : Option Char) (P : List Char → List Char → Prop) (s : List Char) : Prop :=
  ∀ u v, s = u ++ v → atLineStart (charBefore first u) = true → P u v

variable {α : Type} {P Q : List Char → List Char → Prop}

theorem EveryLine.imp {first : Option Char} {s : List Char} (every : EveryLine first P s)
    (step : ∀ u v, P u v → Q u v) : EveryLine first Q s :=
  fun u v whole line => step u v (every u v whole line)

theorem everyLine_iff {first : Option Char} {s : List Char}
    (same : ∀ u v, s = u ++ v → atLineStart (charBefore first u) = true → (P u v ↔ Q u v)) :
    EveryLine first P s ↔ EveryLine first Q s :=
  forall_congr' fun u => forall_congr' fun v => forall_congr' fun whole => forall_congr' fun line =>
    same u v whole line

theorem atLineStart_none : atLineStart none = true := rfl

theorem not_atLineStart {c : Char} (h : c ≠ '\n') : atLineStart (some c) = false := by
  simp [atLineStart, h]

theorem exists_eq_append_newline {first : Option Char} {u : List Char} (filled : u ≠ [])
    (line : atLineStart (charBefore first u) = true) : ∃ v, u = v ++ ['\n'] := by
  rw [charBefore_eq_getLast? filled, List.getLast?_eq_some_getLast filled] at line
  have last : u.getLast filled = '\n' := by simpa [atLineStart] using line
  exact ⟨u.dropLast, by rw [← last, List.dropLast_concat_getLast filled]⟩

/-- Within a line no other line starts. -/
theorem eq_nil_of_atLineStart {u : List Char} (line : atLineStart (charBefore none u) = true) (flat : '\n' ∉ u) :
    u = [] := by
  refine Decidable.byContradiction fun filled => ?_
  obtain ⟨v, rfl⟩ := exists_eq_append_newline filled line
  exact flat (by simp)

theorem everyLine_of_flat {s : List Char} (flat : '\n' ∉ s) : EveryLine none P s ↔ P [] s := by
  constructor
  · intro every
    exact every [] s rfl rfl
  · rintro here u v rfl line
    obtain rfl := eq_nil_of_atLineStart line fun h => flat (by simp [h])
    exact here

/-- The lines of a text do not depend on the character before it, but for whether one starts there. -/
theorem everyLine_congr {first other : Option Char} (same : atLineStart first = atLineStart other) {s : List Char} :
    EveryLine first P s ↔ EveryLine other P s := by
  refine forall_congr' fun u => forall_congr' fun v => imp_congr_right fun _ => ?_
  cases u with
  | nil => simp [same]
  | cons c u => simp

theorem everyLine_nil {first : Option Char} : EveryLine first P [] ↔ (atLineStart first = true → P [] []) := by
  constructor
  · intro every line
    exact every [] [] rfl (by simpa using line)
  · intro here u v whole line
    obtain ⟨rfl, rfl⟩ := List.append_eq_nil_iff.1 whole.symm
    exact here (by simpa using line)

/-- The lines of two texts written together are those that start in the first and those of the second. -/
theorem everyLine_append {first : Option Char} {a b : List Char} :
    EveryLine first P (a ++ b) ↔
      EveryLine first (fun u v => v ≠ [] → P u (v ++ b)) a ∧ EveryLine (charBefore first a) (fun u v => P (a ++ u) v) b := by
  constructor
  · intro every
    exact ⟨fun u v whole line _ => every u (v ++ b) (by simp [whole]) line,
      fun u v whole line => every (a ++ u) v (by simp [whole]) (by simpa using line)⟩
  · rintro ⟨left, right⟩ u v whole line
    rcases List.append_eq_append_iff.1 whole with ⟨w, rfl, rest⟩ | ⟨w, rfl, rfl⟩
    · exact right w v rest (by simpa using line)
    · by_cases filled : w = []
      · subst filled
        simpa using right [] b rfl (by simpa using line)
      · exact left u w rfl line filled

theorem everyLine_cons {first : Option Char} {c : Char} {s : List Char} :
    EveryLine first P (c :: s) ↔
      (atLineStart first = true → P [] (c :: s)) ∧ EveryLine (some c) (fun u v => P (c :: u) v) s := by
  rw [← List.singleton_append, everyLine_append]
  refine and_congr ⟨fun every line => every [] [c] rfl (by simpa using line) (by simp), ?_⟩ (by simp)
  intro here u v whole line filled
  cases u with
  | nil =>
    obtain rfl : [c] = v := whole
    exact here (by simpa using line)
  | cons d u => simp [filled] at whole

/-- Whether a property that can be computed holds of every line. -/
def EveryLine.decide {P : List Char → List Char → Prop} (holds : ∀ u v, Decidable (P u v)) (first : Option Char) :
    (s : List Char) → Decidable (EveryLine first P s)
  | [] =>
    have := holds [] []
    decidable_of_iff (atLineStart first = true → P [] []) everyLine_nil.symm
  | c :: s =>
    have := holds [] (c :: s)
    have := EveryLine.decide (fun u v => holds (c :: u) v) (some c) s
    decidable_of_iff _ everyLine_cons.symm

instance {first : Option Char} {s : List Char} [holds : ∀ u v, Decidable (P u v)] : Decidable (EveryLine first P s) :=
  EveryLine.decide holds first s

/-- The lines of two texts with a line feed between them are the lines of both. -/
theorem everyLine_append_newline {first : Option Char} {a b : List Char} :
    EveryLine first P (a ++ '\n' :: b) ↔
      EveryLine first (fun u v => P u (v ++ '\n' :: b)) a ∧ EveryLine none (fun u v => P (a ++ '\n' :: u) v) b := by
  rw [everyLine_append, everyLine_cons]
  constructor
  · rintro ⟨left, here, right⟩
    refine ⟨fun u v whole line => ?_, fun u v whole line => ?_⟩
    · by_cases filled : v = []
      · subst filled
        obtain rfl : a = u := by simpa using whole
        simpa using here line
      · exact left u v whole line filled
    · exact (everyLine_congr (by rfl)).1 right u v whole line
  · rintro ⟨left, right⟩
    exact ⟨fun u v whole line _ => left u v whole line, fun line => by simpa using left a [] (by simp) line,
      (everyLine_congr (by rfl)).1 right⟩

/-! ## The first line -/

theorem lineOf_append_of_mem {a : List Char} (ends : '\n' ∈ a) (b : List Char) : lineOf (a ++ b) = lineOf a := by
  obtain ⟨u, v, rfl, flat⟩ := List.eq_append_cons_of_mem ends
  have all : u.all (· != '\n') = true := by
    rw [List.all_eq_true]
    rintro c mem
    simp only [bne_iff_ne]
    rintro rfl
    exact flat mem
  simp only [lineOf, List.append_assoc, List.cons_append]
  rw [takeWhile_span all (by simp), takeWhile_span all (by simp)]

theorem lineOf_cons {c : Char} {s : List Char} : lineOf (c :: s) = if c = '\n' then [] else c :: lineOf s := by
  by_cases h : c = '\n' <;> simp [lineOf, h]

theorem lineOf_append_of_not_mem {a : List Char} (flat : '\n' ∉ a) (b : List Char) :
    lineOf (a ++ b) = a ++ lineOf b := by
  induction a with
  | nil => rfl
  | cons c a ih =>
    simp only [List.mem_cons, not_or] at flat
    rw [List.cons_append, lineOf_cons, if_neg (Ne.symm flat.1), ih flat.2, List.cons_append]

theorem exists_lineOf (s : List Char) : ∃ more, s = lineOf s ++ more :=
  ⟨s.dropWhile (· != '\n'), List.takeWhile_append_dropWhile.symm⟩

/-- What a line goes on with behind its blanks, the text goes on with. -/
theorem stops_trimStart_lineOf {test : Char → Bool} {s : List Char} (stop : Stops test (trimStart s)) :
    Stops test (trimStart (lineOf s)) := by
  induction s with
  | nil => exact stop
  | cons c s ih =>
    rw [lineOf_cons]
    by_cases newline : c = '\n'
    · simp [newline, trimStart]
    · rw [if_neg newline]
      by_cases blank : isBlank c = true
      · simp only [trimStart, List.dropWhile_cons_of_pos blank] at stop ⊢
        exact ih stop
      · simp only [trimStart, List.dropWhile_cons_of_neg blank] at stop ⊢
        simpa using stop

/-! ## Recognisers of lines -/

/-- A recogniser answers only where a line starts, and there without regard to what is before. -/
def Recognizer.Lined (find : Recognizer α) : Prop :=
  ∀ first s, find first s = if atLineStart first then find none s else none

section Search

variable {find : Recognizer α}

theorem Recognizer.Cuts.nil (cuts : find.Cuts) (first : Option Char) : find first [] = none := by
  cases found : find first [] with
  | none => rfl
  | some result =>
    obtain ⟨covered, filled, whole⟩ := cuts _ _ _ _ found
    simp [filled] at whole

/-- A recogniser answers nowhere in a text exactly when it answers at none of its lines. -/
theorem Recognizer.Lined.nowhere_iff (lined : find.Lined) (cuts : find.Cuts) (first : Option Char) (s : List Char) :
    (∀ u v, s = u ++ v → v ≠ [] → find (charBefore first u) v = none) ↔
      EveryLine first (fun _ v => find none v = none) s := by
  constructor
  · intro nowhere u v whole line
    by_cases filled : v = []
    · rw [filled, cuts.nil]
    · simpa [lined (charBefore first u), line] using nowhere u v whole filled
  · intro every u v whole _
    rw [lined]
    split
    · rename_i line
      exact every u v whole line
    · rfl

theorem locateIn_eq_nil_iff_lines (cuts : find.Cuts) (lined : find.Lined) (s : List Char) :
    locateIn find s = [] ↔ EveryLine none (fun _ v => find none v = none) s := by
  rw [locateIn_eq_nil_iff cuts, lined.nowhere_iff cuts]

theorem getLast?_locateIn_iff_lines (cuts : find.Cuts) (lined : find.Lined) (apart : find.Apart) (s : List Char)
    (start : Nat) (value : α) (text : List Char) :
    (locateIn find s).getLast? = some (start, value, text) ↔
      ∃ u v, s = u ++ text ++ v ∧ start = u.length ∧ text ≠ [] ∧ atLineStart (charBefore none u) = true ∧
        find none (text ++ v) = some (value, v) ∧
        EveryLine (charBefore none (u ++ text)) (fun _ x => find none x = none) v := by
  rw [getLast?_locateIn_iff cuts apart]
  refine exists_congr fun u => exists_congr fun v => and_congr_right fun _ => and_congr_right fun _ =>
    and_congr_right fun _ => ?_
  rw [lined (charBefore none u), ← lined.nowhere_iff cuts]
  cases atLineStart (charBefore none u) <;> simp

end Search

end WasmPackaging.Text
