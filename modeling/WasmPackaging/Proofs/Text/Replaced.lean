import WasmPackaging.Proofs.Text.Finds
import WasmPackaging.Proofs.Text.Spans

/-!
Texts with their finds replaced. Main facts: a word of such a text that shares no character with what was
put in stood in the text before, at a place where nothing was found (`exists_of_replaceFrom`), and two ways
to replace give two texts when the one has fewer characters of some class for each find
(`replaceFinds_ne`).
-/

namespace WasmPackaging.Text

variable {α : Type} {find : Recognizer α} {new word : List Char}

/-- What replaces the finds, whatever they are. -/
abbrev put (new : List Char) : α → List Char → List Char := fun _ _ => new

/-- A word at the front of the replaced text stood at the front of the text. -/
theorem exists_of_replaceFrom_front (cuts : find.Cuts) (filled : new ≠ []) (foreign : ∀ c ∈ new, c ∉ word)
    {first : Option Char} {s v : List Char} (whole : replaceFrom find (put new) first s = word ++ v) :
    ∃ v', s = word ++ v' ∧ v = replaceFrom find (put new) (charBefore first word) v' ∧
      (word ≠ [] → find first s = none) := by
  induction word generalizing first s with
  | nil => exact ⟨s, rfl, whole.symm, fun some_ => absurd rfl some_⟩
  | cons c word ih =>
    cases s with
    | nil => simp at whole
    | cons d s =>
      cases found : find first (d :: s) with
      | none =>
        rw [replaceFrom_plain found, List.cons_append] at whole
        obtain ⟨rfl, rest⟩ := List.cons.inj whole
        obtain ⟨v', rfl, behind, -⟩ := ih (fun e mem inside => foreign e mem (List.mem_cons_of_mem _ inside)) rest
        exact ⟨v', rfl, by simpa using behind, fun _ => rfl⟩
      | some result =>
        obtain ⟨value, behind⟩ := result
        obtain ⟨covered, nonempty, split⟩ := cuts _ _ _ _ found
        rw [split] at found whole
        rw [replaceFrom_hit nonempty found] at whole
        obtain ⟨e, new, rfl⟩ := List.exists_cons_of_ne_nil filled
        obtain ⟨rfl, -⟩ := List.cons.inj whole
        exact absurd List.mem_cons_self (foreign e List.mem_cons_self)

/-- A find ends where a text starts. -/
def EndsFind (find : Recognizer α) (first : Option Char) (u v : List Char) : Prop :=
  ∃ front covered value, u = front ++ covered ∧ covered ≠ [] ∧
    find (charBefore first front) (covered ++ v) = some (value, v)

theorem EndsFind.append {first : Option Char} {u v : List Char} (a : List Char)
    (ends : EndsFind find (charBefore first a) u v) : EndsFind find first (a ++ u) v := by
  obtain ⟨front, covered, value, rfl, filled, found⟩ := ends
  exact ⟨a ++ front, covered, value, by simp, filled, by simpa using found⟩

/-- A word of the replaced text stood in the text, nothing was found there, and what is before it is either
the character that was or the end of what was put in for a find. -/
theorem exists_of_replaceFrom (cuts : find.Cuts) (filled : new ≠ []) (foreign : ∀ c ∈ new, c ∉ word)
    (some_ : word ≠ []) {first : Option Char} {s u v : List Char}
    (whole : replaceFrom find (put new) first s = u ++ (word ++ v)) :
    ∃ u' v', s = u' ++ (word ++ v') ∧ v = replaceFrom find (put new) (charBefore first (u' ++ word)) v' ∧
      find (charBefore first u') (word ++ v') = none ∧
      (charBefore first u = charBefore first u' ∨ EndsFind find first u' (word ++ v')) := by
  induction first, s using search_induction cuts generalizing u with
  | nil first => simp [some_] at whole
  | plain first c s missing ih =>
    cases u with
    | nil =>
      obtain ⟨v', same, behind, nothing⟩ := exists_of_replaceFrom_front cuts filled foreign whole
      exact ⟨[], v', same, behind, by simpa [same] using nothing some_, .inl rfl⟩
    | cons d u =>
      rw [replaceFrom_plain missing, List.cons_append] at whole
      obtain ⟨rfl, rest⟩ := List.cons.inj whole
      obtain ⟨u', v', rfl, behind, nothing, before⟩ := ih rest
      refine ⟨c :: u', v', rfl, by simpa using behind, by simpa using nothing, ?_⟩
      rw [charBefore_cons, charBefore_cons]
      exact before.imp_right (EndsFind.append [c])
  | hit first covered behind value nonempty found ih =>
    rw [replaceFrom_hit nonempty found] at whole
    obtain ⟨c, word, rfl⟩ := List.exists_cons_of_ne_nil some_
    obtain ⟨w, rfl, rest⟩ := exists_eq_append_cons_of_not_mem whole fun inside =>
      foreign c inside List.mem_cons_self
    by_cases front : w = []
    · subst front
      obtain ⟨v', rfl, later, nothing⟩ := exists_of_replaceFrom_front cuts filled foreign rest
      exact ⟨covered, v', rfl, by simpa using later, nothing some_,
        .inr ⟨[], covered, value, rfl, nonempty, by simpa using found⟩⟩
    · obtain ⟨u', v', rfl, later, nothing, before⟩ := ih rest
      refine ⟨covered ++ u', v', by simp, by simpa using later, by simpa using nothing, ?_⟩
      refine before.imp (fun same => ?_) (EndsFind.append covered)
      rw [charBefore_append, charBefore_append, ← same, charBefore_eq_getLast? front, charBefore_eq_getLast? front]

/-! ## Counting characters of replaced texts -/

/-- Some pieces of a text are finds exactly when the finds are located. -/
theorem exists_hit_of_locate {offset : Nat} {list : List (Piece α)} (some_ : locate offset list ≠ []) :
    ∃ value covered, .hit value covered ∈ list := by
  induction list generalizing offset with
  | nil => exact absurd rfl some_
  | cons piece list ih =>
    cases piece with
    | hit value covered => exact ⟨value, covered, List.mem_cons_self⟩
    | plain c =>
      obtain ⟨value, covered, mem⟩ := ih some_
      exact ⟨value, covered, List.mem_cons_of_mem _ mem⟩

theorem countP_flatMap_le {list : List α} {f g : α → List Char} {p : Char → Bool}
    (le : ∀ a ∈ list, (f a).countP p ≤ (g a).countP p) : (list.flatMap f).countP p ≤ (list.flatMap g).countP p := by
  induction list with
  | nil => exact Nat.le_refl _
  | cons a list ih =>
    obtain ⟨here, later⟩ := List.forall_mem_cons.1 le
    simpa using Nat.add_le_add here (ih later)

theorem countP_flatMap_lt {list : List α} {f g : α → List Char} {p : Char → Bool}
    (le : ∀ a ∈ list, (f a).countP p ≤ (g a).countP p) {a : α} (mem : a ∈ list)
    (lt : (f a).countP p < (g a).countP p) : (list.flatMap f).countP p < (list.flatMap g).countP p := by
  obtain ⟨before, behind, rfl⟩ := List.append_of_mem mem
  have front := countP_flatMap_le (p := p) fun b inside => le b (List.mem_append_left _ inside)
  have back := countP_flatMap_le (p := p) fun b inside => le b (List.mem_append_right _ (List.mem_cons_of_mem _ inside))
  simp only [List.flatMap_append, List.flatMap_cons, List.countP_append]
  omega

/-- Two ways to replace the finds of a text give two texts, when the one has fewer characters of some class
for each find and something is found. -/
theorem replaceFinds_ne {new other : α → List Char → List Char} {p : Char → Bool} {s : List Char}
    (fewer : ∀ value covered, .hit value covered ∈ pieces find none s →
      (new value covered).countP p < (other value covered).countP p)
    (some_ : ∃ value covered, .hit value covered ∈ pieces find none s) :
    replaceFinds find new s ≠ replaceFinds find other s := by
  obtain ⟨value, covered, mem⟩ := some_
  intro same
  refine Nat.ne_of_lt (countP_flatMap_lt (p := p) ?_ mem (fewer value covered mem)) (congrArg (List.countP p) same)
  rintro (c | ⟨value, covered⟩) inside
  · exact Nat.le_refl _
  · exact Nat.le_of_lt (fewer value covered inside)

end WasmPackaging.Text
