import WasmPackaging.Proofs.Loader.ForwardText
import WasmPackaging.Proofs.Loader.Statement

/-!
Which names a line declares. Behind its keyword a line offers places at which a name may start; a name is
declared when it stands at one of them with no name character behind it (`declaresHere_iff`). Main fact: a
line that declares a name starts a declaration, or runs the word `function` and the name into one
(`starts_or_glued_of_declaresHere`).
-/

namespace WasmPackaging.Loader

open Text

variable {name s : List Char}

/-- A text starts with a name, and the name ends there. -/
def Named (name s : List Char) : Prop := ∃ rest, s = name ++ rest ∧ Stops isNameChar rest

theorem named_iff : Named name s ↔ ∃ rest, after? name s = some rest ∧ startsName rest = false := by
  simp only [Named, after?_eq_some_iff, startsName_eq_false_iff]

instance : Decidable (Named name s) :=
  match found : after? name s with
  | none => isFalse (by simp [named_iff, found])
  | some rest => decidable_of_iff (startsName rest = false) (by simp [named_iff, found])

theorem Named.startsName (named : Named name s) (valid : isName name = true) : startsName s = true := by
  obtain ⟨rest, rfl, -⟩ := named
  exact startsName_append_of_isName valid

theorem stops_isBlank_of_startsName (starts : startsName s = true) : Stops isBlank s := by
  cases s with
  | nil => exact stops_nil _
  | cons c s => exact stops_cons.2 (isBlank_of_isNameChar (by simpa [startsName] using starts))

/-- Of two names that a text starts with, each ends where the other does. -/
theorem named_append_iff {other rest : List Char} (valid : isName name = true) (valid' : isName other = true)
    (stop : Stops isNameChar rest) : Named name (other ++ rest) ↔ name = other := by
  constructor
  · rintro ⟨rest', whole, stop'⟩
    have ends := congrArg (List.takeWhile isNameChar) whole
    rw [takeWhile_span (isName_iff.1 valid').2 stop, takeWhile_span (isName_iff.1 valid).2 stop'] at ends
    exact ends.symm
  · rintro rfl
    exact ⟨rest, rfl, stop⟩

/-- What is behind the blanks at the front of a text does not depend on how the text is cut. -/
theorem blanks_unique {a b x y : List Char} (same : a ++ x = b ++ y) (blank : a.all isBlank = true)
    (blank' : b.all isBlank = true) (stop : Stops isBlank x) (stop' : Stops isBlank y) : a = b ∧ x = y := by
  have front := congrArg (List.takeWhile isBlank) same
  rw [takeWhile_span blank stop, takeWhile_span blank' stop'] at front
  subst front
  exact ⟨rfl, List.append_cancel_left same⟩

/-! ## Places for a name -/

theorem mem_remainders_iff {test : Char → Bool} {b : List Char} :
    b ∈ remainders test s ↔ ∃ a, s = a ++ b ∧ a.all test = true := by
  constructor
  · intro mem
    induction s with
    | nil =>
      obtain rfl := List.mem_singleton.1 mem
      exact ⟨[], rfl, rfl⟩
    | cons c s ih =>
      rcases List.mem_cons.1 mem with rfl | mem
      · exact ⟨[], rfl, rfl⟩
      · split at mem
        · next passes =>
          obtain ⟨a, rfl, all⟩ := ih mem
          exact ⟨c :: a, rfl, by simp [passes, all]⟩
        · simp at mem
  · rintro ⟨a, rfl, all⟩
    exact mem_remainders all

theorem mem_blankRemainders_iff {b : List Char} :
    b ∈ blankRemainders s ↔ ∃ a, a ≠ [] ∧ s = a ++ b ∧ a.all isBlank = true := by
  cases s with
  | nil =>
    refine ⟨fun mem => absurd mem (List.not_mem_nil), ?_⟩
    rintro ⟨a, filled, whole, -⟩
    exact absurd (List.append_eq_nil_iff.1 whole.symm).1 filled
  | cons c s =>
    constructor
    · intro mem
      simp only [blankRemainders] at mem
      split at mem
      · next blank =>
        obtain ⟨a, rfl, all⟩ := mem_remainders_iff.1 mem
        exact ⟨c :: a, by simp, rfl, by simp [blank, all]⟩
      · simp at mem
    · rintro ⟨a, filled, whole, all⟩
      cases a with
      | nil => exact absurd rfl filled
      | cons d a =>
        obtain ⟨rfl, rfl⟩ := List.cons.inj whole
        rw [List.all_cons, Bool.and_eq_true] at all
        rw [blankRemainders, if_pos all.1]
        exact mem_remainders all.2

/-- Whether a text starts with a name that ends there. -/
def isNamed (name c : List Char) : Bool :=
  match after? name c with
  | none => false
  | some rest => !startsName rest

theorem isNamed_iff {c : List Char} : isNamed name c = true ↔ Named name c := by
  rw [named_iff, isNamed]
  cases after? name c <;> simp

theorem declaresHere_iff :
    declaresHere name s = true ↔
      (∃ c ∈ functionNames s, Named name c) ∨ (∃ c ∈ classNames s, Named name c) ∨ ∃ c ∈ variableNames s, Named name c := by
  have test : declaresHere name s = (functionNames s ++ classNames s ++ variableNames s).any (isNamed name) := rfl
  simp only [test, List.any_eq_true, List.mem_append, isNamed_iff]
  constructor
  · rintro ⟨c, (mem | mem) | mem, named⟩
    · exact .inl ⟨c, mem, named⟩
    · exact .inr (.inl ⟨c, mem, named⟩)
    · exact .inr (.inr ⟨c, mem, named⟩)
  · rintro (⟨c, mem, named⟩ | ⟨c, mem, named⟩ | ⟨c, mem, named⟩)
    · exact ⟨c, .inl (.inl mem), named⟩
    · exact ⟨c, .inl (.inr mem), named⟩
    · exact ⟨c, .inr mem, named⟩

theorem mem_classNames_iff {c : List Char} :
    c ∈ classNames s ↔ ∃ gap, gap ≠ [] ∧ gap.all isBlank = true ∧ s = "class".toList ++ (gap ++ c) := by
  unfold classNames
  constructor
  · intro mem
    cases word : afterWord? "class" s with
    | none => simp [word] at mem
    | some rest =>
      rw [word] at mem
      obtain ⟨gap, filled, rfl, blank⟩ := mem_blankRemainders_iff.1 mem
      exact ⟨gap, filled, blank, after?_eq_some_iff.1 word⟩
  · rintro ⟨gap, filled, blank, whole⟩
    rw [show afterWord? "class" s = some (gap ++ c) from after?_eq_some_iff.2 whole]
    exact mem_blankRemainders_iff.2 ⟨gap, filled, rfl, blank⟩

/-- The keywords of variables. -/
def variableKeywords : List (List Char) := ["var".toList, "let".toList, "const".toList]

/-- What may stand between the first declarator and a name: nothing, or a text that ends with a comma and
blanks, and up to the comma has neither semicolon nor line feed. -/
def Leads (lead : List Char) : Prop :=
  lead = [] ∨ ∃ x gap, lead = x ++ ',' :: gap ∧ x.all isDeclaratorChar = true ∧ gap.all isBlank = true

/-- Where a name may start behind a comma. -/
def behindComma : List Char → List (List Char)
  | ',' :: s => remainders isBlank s
  | _ => []

/-- Where a name may start behind the keyword of variables. -/
def declaratorNames (rest : List Char) : List (List Char) :=
  (blankRemainders rest).flatMap fun s => s :: (remainders isDeclaratorChar s).flatMap behindComma

theorem mem_declaratorNames_iff {c rest : List Char} :
    c ∈ declaratorNames rest ↔ ∃ gap lead, gap ≠ [] ∧ gap.all isBlank = true ∧ Leads lead ∧ rest = gap ++ (lead ++ c) := by
  simp only [declaratorNames, List.mem_flatMap, List.mem_cons]
  constructor
  · rintro ⟨t, mem, rfl | ⟨u, mem', later⟩⟩
    · obtain ⟨gap, filled, rfl, blank⟩ := mem_blankRemainders_iff.1 mem
      exact ⟨gap, [], filled, blank, .inl rfl, rfl⟩
    · obtain ⟨gap, filled, rfl, blank⟩ := mem_blankRemainders_iff.1 mem
      obtain ⟨x, rfl, all⟩ := mem_remainders_iff.1 mem'
      unfold behindComma at later
      split at later
      · obtain ⟨gap', rfl, blank'⟩ := mem_remainders_iff.1 later
        exact ⟨gap, x ++ ',' :: gap', filled, blank, .inr ⟨x, gap', rfl, all, blank'⟩, by simp⟩
      · simp at later
  · rintro ⟨gap, lead, filled, blank, leads, rfl⟩
    refine ⟨lead ++ c, mem_blankRemainders_iff.2 ⟨gap, filled, rfl, blank⟩, ?_⟩
    rcases leads with rfl | ⟨x, gap', rfl, all, blank'⟩
    · exact .inl rfl
    · refine .inr ⟨',' :: (gap' ++ c), mem_remainders_iff.2 ⟨x, by simp, all⟩, ?_⟩
      exact mem_remainders blank'

theorem mem_variableNames_iff {c : List Char} :
    c ∈ variableNames s ↔ ∃ keyword ∈ variableKeywords, ∃ gap lead, gap ≠ [] ∧ gap.all isBlank = true ∧ Leads lead ∧
      s = keyword ++ (gap ++ (lead ++ c)) := by
  unfold variableNames
  constructor
  · intro mem
    split at mem
    · simp at mem
    · next rest more found =>
      obtain ⟨gap, lead, filled, blank, leads, rfl⟩ := mem_declaratorNames_iff.1 mem
      have listed : some (gap ++ (lead ++ c)) ∈ [afterWord? "var" s, afterWord? "let" s, afterWord? "const" s] := by
        have mem : gap ++ (lead ++ c) ∈ [afterWord? "var" s, afterWord? "let" s, afterWord? "const" s].filterMap id := by
          rw [found]
          exact List.mem_cons_self
        simpa using mem
      simp only [List.mem_cons, List.not_mem_nil, or_false] at listed
      rcases listed with word | word | word
      · exact ⟨"var".toList, by simp [variableKeywords], gap, lead, filled, blank, leads, after?_eq_some_iff.1 word.symm⟩
      · exact ⟨"let".toList, by simp [variableKeywords], gap, lead, filled, blank, leads, after?_eq_some_iff.1 word.symm⟩
      · exact ⟨"const".toList, by simp [variableKeywords], gap, lead, filled, blank, leads, after?_eq_some_iff.1 word.symm⟩
  · rintro ⟨keyword, listed, gap, lead, filled, blank, leads, rfl⟩
    have mem : c ∈ declaratorNames (gap ++ (lead ++ c)) := mem_declaratorNames_iff.2 ⟨gap, lead, filled, blank, leads, rfl⟩
    simp only [variableKeywords, List.mem_cons, List.not_mem_nil, or_false] at listed
    rcases listed with rfl | rfl | rfl <;> exact mem

/-- The text behind `async` and its blanks, or the text itself. -/
def behindAsync (s : List Char) : List Char :=
  match afterWord? "async" s with
  | none => s
  | some rest => (afterBlanks? rest).getD s

/-- What may stand between `function` and a name: blanks, or the mark of a generator among blanks. -/
def Marks (mark : List Char) : Prop :=
  mark.all isBlank = true ∨ ∃ gap gap', gap.all isBlank = true ∧ gap'.all isBlank = true ∧ mark = gap ++ '*' :: gap'

/-- Where a name may start behind the mark of a generator. -/
def behindStar : List Char → List (List Char)
  | '*' :: s => remainders isBlank s
  | _ => []

/-- Where a name may start behind `function`, if that was there. -/
def namesBehind : Option (List Char) → List (List Char)
  | none => []
  | some rest => (remainders isBlank rest).flatMap fun s => s :: behindStar s

theorem functionNames_eq (s : List Char) : functionNames s = namesBehind (afterWord? "function" (behindAsync s)) := rfl

theorem mem_functionNames_iff {c : List Char} :
    c ∈ functionNames s ↔ ∃ mark, Marks mark ∧ behindAsync s = "function".toList ++ (mark ++ c) := by
  rw [functionNames_eq]
  constructor
  · intro mem
    cases word : afterWord? "function" (behindAsync s) with
    | none => simp [word, namesBehind] at mem
    | some rest =>
      rw [word] at mem
      obtain ⟨t, mem, here⟩ := List.mem_flatMap.1 mem
      obtain ⟨gap, rfl, blank⟩ := mem_remainders_iff.1 mem
      rcases List.mem_cons.1 here with rfl | here
      · exact ⟨gap, .inl blank, after?_eq_some_iff.1 word⟩
      · unfold behindStar at here
        split at here
        · obtain ⟨gap', rfl, blank'⟩ := mem_remainders_iff.1 here
          exact ⟨gap ++ '*' :: gap', .inr ⟨gap, gap', blank, blank', rfl⟩, by simpa using after?_eq_some_iff.1 word⟩
        · simp at here
  · rintro ⟨mark, marks, whole⟩
    rw [show afterWord? "function" (behindAsync s) = some (mark ++ c) from after?_eq_some_iff.2 whole]
    refine List.mem_flatMap.2 ?_
    rcases marks with blank | ⟨gap, gap', blank, blank', rfl⟩
    · exact ⟨c, mem_remainders blank, List.mem_cons_self⟩
    · exact ⟨'*' :: (gap' ++ c), mem_remainders_iff.2 ⟨gap, by simp, blank⟩, List.mem_cons_of_mem _ (mem_remainders blank')⟩

/-! ## Lines that start declarations -/

/-- A text starts with the keyword of a declaration. -/
def StartsDeclaration (s : List Char) : Prop :=
  Named "function".toList (behindAsync s) ∨ ∃ keyword ∈ "class".toList :: variableKeywords, Named keyword s

instance : DecidablePred StartsDeclaration := fun _ => inferInstanceAs (Decidable (_ ∨ _))

/-- A text starts with the word `function` and a name run into one. -/
def Glued (name s : List Char) : Prop := Named ("function".toList ++ name) (behindAsync s)

instance : Decidable (Glued name s) := inferInstanceAs (Decidable (Named _ _))

/-- Where a name starts behind a mark does not depend on how the text is cut. -/
theorem marks_unique {mark mark' x y : List Char} (same : mark ++ x = mark' ++ y) (marks : Marks mark)
    (marks' : Marks mark') (starts : startsName x = true) (starts' : startsName y = true) : x = y := by
  have star (t : List Char) : Stops isBlank ('*' :: t) := stops_cons.2 (by decide)
  have unmarked {t u : List Char} (starts : startsName t = true) : t ≠ '*' :: u := by
    rintro rfl
    exact absurd (show isNameChar '*' = true from starts) (by decide)
  have stop := stops_isBlank_of_startsName starts
  have stop' := stops_isBlank_of_startsName starts'
  rcases marks with blank | ⟨gap, gap₂, blank, blank₂, rfl⟩ <;> rcases marks' with blank' | ⟨gap', gap₂', blank', blank₂', rfl⟩
  · exact (blanks_unique same blank blank' stop stop').2
  · rw [List.append_assoc] at same
    exact absurd (blanks_unique same blank blank' stop (star _)).2 (unmarked starts)
  · rw [List.append_assoc] at same
    exact absurd (blanks_unique same blank blank' (star _) stop').2.symm (unmarked starts')
  · simp only [List.append_assoc, List.cons_append] at same
    have behind := List.tail_eq_of_cons_eq (blanks_unique same blank blank' (star _) (star _)).2
    exact (blanks_unique behind blank₂ blank₂' stop stop').2

theorem isNameChar_of_marks {mark c : List Char} (marks : Marks mark) (filled : mark ≠ []) : Stops isNameChar (mark ++ c) := by
  rcases marks with blank | ⟨gap, gap', blank, -, rfl⟩
  · obtain ⟨d, mark, rfl⟩ := List.exists_cons_of_ne_nil filled
    exact stops_cons.2 (isNameChar_of_isBlank (List.all_eq_true.1 blank d List.mem_cons_self))
  · cases gap with
    | nil => exact stops_cons.2 (by decide)
    | cons d gap => exact stops_cons.2 (isNameChar_of_isBlank (List.all_eq_true.1 blank d List.mem_cons_self))

/-- A line that declares a name starts a declaration, or runs the word `function` and the name into one. -/
theorem starts_or_glued_of_declaresHere (declares : declaresHere name s = true) : StartsDeclaration s ∨ Glued name s := by
  rcases declaresHere_iff.1 declares with ⟨c, mem, named⟩ | ⟨c, mem, -⟩ | ⟨c, mem, -⟩
  · obtain ⟨mark, marks, whole⟩ := mem_functionNames_iff.1 mem
    by_cases filled : mark = []
    · subst filled
      obtain ⟨rest, rfl, stop⟩ := named
      exact .inr ⟨rest, by simpa using whole, stop⟩
    · exact .inl (.inl ⟨mark ++ c, whole, isNameChar_of_marks marks filled⟩)
  · obtain ⟨gap, filled, blank, rfl⟩ := mem_classNames_iff.1 mem
    exact .inl (.inr ⟨_, List.mem_cons_self, _, rfl, isNameChar_of_marks (.inl blank) filled⟩)
  · obtain ⟨keyword, listed, gap, lead, filled, blank, -, rfl⟩ := mem_variableNames_iff.1 mem
    exact .inl (.inr ⟨keyword, List.mem_cons_of_mem _ listed, _, rfl, isNameChar_of_marks (.inl blank) filled⟩)

theorem declaresHere_of_glued (glued : Glued name s) : declaresHere name s = true := by
  obtain ⟨rest, whole, stop⟩ := glued
  refine declaresHere_iff.2 (.inl ⟨name ++ rest, mem_functionNames_iff.2 ⟨[], .inl rfl, ?_⟩, rest, rfl, stop⟩)
  simpa using whole

/-! ## Functions and classes -/

theorem declaresHere_function_iff {declared : List Char} (valid : isName name = true) (valid' : isName declared = true)
    (function : FunctionText declared s) : declaresHere name s = true ↔ name = declared := by
  refine ⟨fun declares => ?_, fun same => declaresHere_of_function (same ▸ function)⟩
  cases function with
  | @mk modifier mark rest before between stop =>
    have marks : Marks mark := between.imp_left And.right
    have async : behindAsync (modifier ++ "function".toList ++ mark ++ declared ++ rest) =
        "function".toList ++ (mark ++ (declared ++ rest)) := by
      rcases before with rfl | ⟨gap, filled, blank, rfl⟩
      · simp only [List.nil_append, List.append_assoc]
        rfl
      · have blanks : afterBlanks? (gap ++ ("function".toList ++ (mark ++ (declared ++ rest)))) =
            some ("function".toList ++ (mark ++ (declared ++ rest))) :=
          afterBlanks?_eq_some_iff.2 ⟨gap, filled, blank, stops_cons.2 (by decide), rfl⟩
        have word : afterWord? "async" ("async".toList ++ (gap ++ ("function".toList ++ (mark ++ (declared ++ rest))))) =
            some (gap ++ ("function".toList ++ (mark ++ (declared ++ rest)))) := after?_eq_some_iff.2 rfl
        simp only [List.append_assoc, behindAsync, word, blanks, Option.getD_some]
    have other : classNames (modifier ++ "function".toList ++ mark ++ declared ++ rest) = [] ∧
        variableNames (modifier ++ "function".toList ++ mark ++ declared ++ rest) = [] := by
      rcases before with rfl | ⟨gap, filled, blank, rfl⟩ <;> exact ⟨rfl, rfl⟩
    obtain ⟨c, mem, named⟩ : ∃ c ∈ functionNames (modifier ++ "function".toList ++ mark ++ declared ++ rest), Named name c := by
      rw [declaresHere_iff, other.1, other.2] at declares
      simpa only [List.not_mem_nil, false_and, exists_false, or_false] using declares
    obtain ⟨mark', marks', whole⟩ := mem_functionNames_iff.1 mem
    rw [async] at whole
    obtain rfl := marks_unique (List.append_cancel_left whole) marks marks' (startsName_append_of_isName valid')
      (named.startsName valid)
    exact (named_append_iff valid valid' stop).1 named

theorem declaresHere_class_iff {declared gap rest : List Char} (valid : isName name = true)
    (valid' : isName declared = true) (filled : gap ≠ []) (blank : gap.all isBlank = true) (stop : Stops isNameChar rest) :
    declaresHere name ("class".toList ++ (gap ++ (declared ++ rest))) = true ↔ name = declared := by
  rw [declaresHere_iff, ← named_append_iff valid valid' stop]
  have other : functionNames ("class".toList ++ (gap ++ (declared ++ rest))) = [] ∧
      variableNames ("class".toList ++ (gap ++ (declared ++ rest))) = [] := ⟨rfl, rfl⟩
  simp only [other.1, other.2, List.not_mem_nil, false_and, exists_false, or_false, false_or]
  constructor
  · rintro ⟨c, mem, named⟩
    obtain ⟨gap', -, blank', whole⟩ := mem_classNames_iff.1 mem
    obtain ⟨-, rfl⟩ := blanks_unique (List.append_cancel_left whole) blank blank'
      (stops_isBlank_of_startsName (startsName_append_of_isName valid'))
      (stops_isBlank_of_startsName (named.startsName valid))
    exact named
  · intro named
    exact ⟨_, mem_classNames_iff.2 ⟨gap, filled, blank, rfl⟩, named⟩

end WasmPackaging.Loader
