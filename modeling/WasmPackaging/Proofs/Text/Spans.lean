import WasmPackaging.Text.Pieces
import WasmPackaging.Text.Word

/-!
Spans: the characters of one class at the front of a text, and the texts that the readers of blanks
and names take from it. Main facts: a span ends where the next character is of another class
(`takeWhile_span`, `dropWhile_span`), and no character of a name is blank
(`isBlank_of_isNameChar`).
-/

namespace WasmPackaging.Text

/-- A text does not go on with a character of a class. -/
def Stops (test : Char → Bool) (s : List Char) : Prop := ∀ c ∈ s.head?, test c = false

@[simp] theorem stops_nil (test : Char → Bool) : Stops test [] := by simp [Stops]

@[simp] theorem stops_cons {test : Char → Bool} {c : Char} {s : List Char} :
    Stops test (c :: s) ↔ test c = false := by simp [Stops]

instance {test : Char → Bool} : DecidablePred (Stops test)
  | [] => isTrue (stops_nil test)
  | c :: _ => decidable_of_iff (test c = false) stops_cons.symm

theorem takeWhile_span {test : Char → Bool} {a b : List Char} (all : a.all test = true) (stop : Stops test b) :
    (a ++ b).takeWhile test = a := by
  rw [List.takeWhile_append_of_pos (List.all_eq_true.1 all)]
  cases b with
  | nil => simp
  | cons c b => simp [stops_cons.1 stop]

theorem dropWhile_span {test : Char → Bool} {a b : List Char} (all : a.all test = true) (stop : Stops test b) :
    (a ++ b).dropWhile test = b := by
  rw [List.dropWhile_append_of_pos (List.all_eq_true.1 all)]
  cases b with
  | nil => rfl
  | cons c b => simp [stops_cons.1 stop]

/-- A text goes on behind a span in one way. -/
theorem span_inj {test : Char → Bool} {a b a' b' : List Char} (whole : a ++ b = a' ++ b') (all : a.all test = true)
    (all' : a'.all test = true) (stop : Stops test b) (stop' : Stops test b') : a = a' ∧ b = b' := by
  have taken := congrArg (List.takeWhile test) whole
  have left := congrArg (List.dropWhile test) whole
  rw [takeWhile_span all stop, takeWhile_span all' stop'] at taken
  rw [dropWhile_span all stop, dropWhile_span all' stop'] at left
  exact ⟨taken, left⟩

theorem stops_dropWhile (test : Char → Bool) (s : List Char) : Stops test (s.dropWhile test) := by
  intro c here
  have not := List.head?_dropWhile_not test s
  rw [Option.mem_def.1 here] at not
  simpa using not

/-- Every text is a span and what is behind it. -/
theorem exists_span (test : Char → Bool) (s : List Char) :
    ∃ a, a.all test = true ∧ s = a ++ s.dropWhile test :=
  ⟨s.takeWhile test, List.all_takeWhile, List.takeWhile_append_dropWhile.symm⟩

/-- Every text is what is left when it is trimmed at its end, and blanks. -/
theorem exists_trimEnd (s : List Char) : ∃ blanks, blanks.all isBlank = true ∧ s = trimEnd s ++ blanks := by
  obtain ⟨a, all, whole⟩ := exists_span isBlank s.reverse
  refine ⟨a.reverse, by simpa using all, ?_⟩
  rw [trimEnd, ← List.reverse_append, ← whole, List.reverse_reverse]

/-- A member of two lists put together stands in the first or in the second. -/
theorem append_eq_append_cons {α : Type} {a b u v : List α} {c : α} (whole : a ++ b = u ++ c :: v) :
    (∃ w, a = u ++ c :: w ∧ v = w ++ b) ∨ ∃ w, u = a ++ w ∧ b = w ++ c :: v := by
  rcases List.append_eq_append_iff.1 whole with ⟨w, split, rest⟩ | ⟨w, split, rest⟩
  · exact .inr ⟨w, split, rest⟩
  · cases w with
    | nil => exact .inr ⟨[], by simpa using split.symm, by simpa using rest.symm⟩
    | cons d w =>
      obtain ⟨rfl, rfl⟩ := List.cons.inj rest
      exact .inl ⟨w, split, rfl⟩

theorem exists_eq_append_cons_of_not_mem {a b u v : List Char} {c : Char} (whole : a ++ b = u ++ c :: v)
    (not : c ∉ a) : ∃ w, u = a ++ w ∧ b = w ++ c :: v := by
  rcases append_eq_append_cons whole with ⟨w, split, _⟩ | behind
  · exact absurd (by simp [split]) not
  · exact behind

/-! ## Blanks and names -/

theorem blankRanges_apart_wordRanges :
    ∀ blank ∈ blankRanges, ∀ word ∈ wordRanges, blank.2 < word.1 ∨ word.2 < blank.1 := by decide +kernel

theorem isBlank_of_isIndent {c : Char} (h : isIndent c = true) : isBlank c = true := by
  simp only [isIndent, Bool.or_eq_true, beq_iff_eq] at h
  rcases h with rfl | rfl <;> decide

theorem isAlphanum_bounds {c : Char} (h : c.isAlphanum = true) : 48 ≤ c.toNat ∧ c.toNat ≤ 122 := by
  rcases Bool.or_eq_true_iff.1 h with alpha | digit
  · rcases Bool.or_eq_true_iff.1 alpha with upper | lower
    · have bounds : 65 ≤ c.toNat ∧ c.toNat ≤ 90 := of_decide_eq_true upper
      omega
    · obtain ⟨low, high⟩ := Bool.and_eq_true_iff.1 lower
      have bounds : 97 ≤ c.toNat ∧ c.toNat ≤ 122 := ⟨of_decide_eq_true low, of_decide_eq_true high⟩
      omega
  · obtain ⟨low, high⟩ := Bool.and_eq_true_iff.1 digit
    have bounds : 48 ≤ c.toNat ∧ c.toNat ≤ 57 := ⟨of_decide_eq_true low, of_decide_eq_true high⟩
    omega

/-- No character of a name is blank. -/
theorem isBlank_of_isNameChar {c : Char} (h : isNameChar c = true) : isBlank c = false := by
  cases blank : isBlank c with
  | false => rfl
  | true =>
    obtain ⟨low, mem, inside⟩ := List.any_eq_true.1 blank
    simp only [Bool.and_eq_true, decide_eq_true_eq] at inside
    simp only [isNameChar, isWord, Bool.or_eq_true, Bool.and_eq_true, decide_eq_true_eq, beq_iff_eq] at h
    rcases h with ((letter | rfl) | ⟨_, word⟩) | rfl
    · have bounds := isAlphanum_bounds letter
      simp only [blankRanges, List.mem_cons, List.not_mem_nil, or_false] at mem
      rcases mem with rfl | rfl | rfl | rfl | rfl | rfl | rfl | rfl | rfl | rfl <;> simp at inside <;> omega
    · exact absurd blank (by decide)
    · obtain ⟨range, listed, within⟩ := List.any_eq_true.1 word
      simp only [Bool.and_eq_true, decide_eq_true_eq] at within
      have := blankRanges_apart_wordRanges low mem range listed
      omega
    · exact absurd blank (by decide)

theorem isNameChar_of_isBlank {c : Char} (h : isBlank c = true) : isNameChar c = false := by
  cases name : isNameChar c with
  | false => rfl
  | true => exact absurd h (by simp [isBlank_of_isNameChar name])

theorem isWord_of_isBlank {c : Char} (h : isBlank c = true) : isWord c = false := by
  have name := isNameChar_of_isBlank h
  rw [isNameChar, Bool.or_eq_false_iff] at name
  exact name.1

theorem startsName_eq_false_iff {s : List Char} : startsName s = false ↔ Stops isNameChar s := by
  cases s <;> simp [startsName]

theorem startsWord_eq_false_iff {s : List Char} : startsWord s = false ↔ Stops isWord s := by
  cases s <;> simp [startsWord]

theorem isName_iff {s : List Char} : isName s = true ↔ s ≠ [] ∧ s.all isNameChar = true := by
  cases s <;> simp [isName]

theorem all_of_all {test other : Char → Bool} {s : List Char} (all : s.all test = true)
    (step : ∀ c, test c = true → other c = true) : s.all other = true :=
  List.all_eq_true.2 fun c mem => step c (List.all_eq_true.1 all c mem)

theorem not_mem_of_all {test : Char → Bool} {s : List Char} {c : Char} (all : s.all test = true)
    (other : test c = false) : c ∉ s := fun mem => by
  simp [List.all_eq_true.1 all c mem] at other

/-- A text starts with a fixed word, and what is behind the word has a property. -/
def StartsWith (word : String) (P : List Char → Prop) (s : List Char) : Prop := ∃ rest, s = word.toList ++ rest ∧ P rest

theorem startsWith_iff {word : String} {P : List Char → Prop} {s : List Char} :
    StartsWith word P s ↔ ∃ rest, afterWord? word s = some rest ∧ P rest :=
  exists_congr fun _ => and_congr_left' after?_eq_some_iff.symm

instance {word : String} {P : List Char → Prop} [DecidablePred P] {s : List Char} : Decidable (StartsWith word P s) :=
  match found : afterWord? word s with
  | none => isFalse (by simp [startsWith_iff, found])
  | some rest => decidable_of_iff (P rest) (by simp [startsWith_iff, found])

/-- Readers of blanks pass all of them, and at least one. -/
theorem afterBlanks?_eq_some_iff {s rest : List Char} :
    afterBlanks? s = some rest ↔ ∃ gap, gap ≠ [] ∧ gap.all isBlank = true ∧ Stops isBlank rest ∧ s = gap ++ rest := by
  cases s with
  | nil =>
    simp only [afterBlanks?, reduceCtorEq, false_iff]
    rintro ⟨gap, filled, _, _, whole⟩
    simp [filled] at whole
  | cons c s =>
    simp only [afterBlanks?]
    constructor
    · intro h
      split at h
      · rename_i blank
        obtain rfl := Option.some.inj h
        obtain ⟨gap, all, whole⟩ := exists_span isBlank s
        refine ⟨c :: gap, by simp, by simpa [blank] using all, stops_dropWhile isBlank s, ?_⟩
        rw [List.cons_append]
        exact congrArg (c :: ·) whole
      · simp at h
    · rintro ⟨gap, filled, all, stop, whole⟩
      cases gap with
      | nil => exact absurd rfl filled
      | cons d gap =>
        obtain ⟨rfl, rfl⟩ := List.cons.inj whole
        simp only [List.all_cons, Bool.and_eq_true] at all
        simp [all.1, trimStart, dropWhile_span all.2 stop]

/-! ## Cutting and trimming -/

theorem splitWhere_append_cons {test : Char → Bool} {a : List Char} {c : Char} (plain : ∀ d ∈ a, test d = false)
    (mark : test c = true) (b : List Char) : splitWhere test (a ++ c :: b) = a :: splitWhere test b := by
  induction a with
  | nil => simp [splitWhere, mark]
  | cons d a ih =>
    obtain ⟨here, later⟩ := List.forall_mem_cons.1 plain
    simp [splitWhere, here, ih later]

theorem splitWhere_of_plain {test : Char → Bool} {a : List Char} (plain : ∀ d ∈ a, test d = false) :
    splitWhere test a = [a] := by
  induction a with
  | nil => rfl
  | cons d a ih =>
    obtain ⟨here, later⟩ := List.forall_mem_cons.1 plain
    simp [splitWhere, here, ih later]

theorem beq_eq_false_of_not_mem {mark : Char} {a : List Char} (plain : mark ∉ a) : ∀ c ∈ a, (c == mark) = false := by
  rintro c mem
  rw [beq_eq_false_iff_ne]
  rintro rfl
  exact plain mem

theorem splitAt_append_cons {mark : Char} {a : List Char} (plain : mark ∉ a) (b : List Char) :
    splitAt mark (a ++ mark :: b) = a :: splitAt mark b :=
  splitWhere_append_cons (beq_eq_false_of_not_mem plain) (beq_self_eq_true mark) b

theorem splitAt_of_not_mem {mark : Char} {a : List Char} (plain : mark ∉ a) : splitAt mark a = [a] :=
  splitWhere_of_plain (beq_eq_false_of_not_mem plain)

/-- Trimming takes away the blanks around a name. -/
theorem trim_name {a b name : List Char} (before : a.all isBlank = true) (valid : isName name = true)
    (behind : b.all isBlank = true) : trim (a ++ name ++ b) = name := by
  obtain ⟨filled, all⟩ := isName_iff.1 valid
  have front : Stops isBlank (name ++ b) := by
    cases name with
    | nil => exact absurd rfl filled
    | cons c name =>
      rw [List.all_cons, Bool.and_eq_true] at all
      exact stops_cons.2 (isBlank_of_isNameChar all.1)
  have back : Stops isBlank name.reverse := by
    intro c last
    rw [List.head?_reverse] at last
    exact isBlank_of_isNameChar (List.all_eq_true.1 all c (List.mem_of_getLast? last))
  rw [trim, trimStart, List.append_assoc, dropWhile_span before front, trimEnd, List.reverse_append,
    dropWhile_span (by simpa using behind) back, List.reverse_reverse]

end WasmPackaging.Text
