import WasmPackaging.Loader.Factory
import WasmPackaging.Proofs.Text.Lines

/-!
Module-level statements and top-level declarations. Main facts: a text has no stray line exactly when
none of its lines starts with module syntax (`strayLine?_eq_none_iff`), and an unindented declaration
of a function declares its name (`declaresTopLevel_of_function`).
-/

namespace WasmPackaging.Loader

open Text

/-- A text that starts, behind the blanks of its line, with the word `export`, or with `import` and
what only a static import has behind it. -/
inductive ModuleSyntax : List Char → Prop where
  | exporting {indent rest : List Char} : indent.all isIndent = true → Stops isWord rest →
      ModuleSyntax (indent ++ "export".toList ++ rest)
  | importing {indent gap rest : List Char} {c : Char} : indent.all isIndent = true → gap.all isBlank = true →
      isNameChar c = true ∨ c ∈ ['{', '*', '\'', '"'] → ModuleSyntax (indent ++ "import".toList ++ gap ++ c :: rest)

theorem startsImport_cons {c : Char} {s : List Char} :
    startsImport (c :: s) = true ↔ isNameChar c = true ∨ c ∈ ['{', '*', '\'', '"'] := by
  simp only [startsImport, startsWord, List.head?_cons, Option.any_some, isNameChar, Bool.or_eq_true, beq_iff_eq,
    List.mem_cons, List.not_mem_nil, or_false, or_assoc]

theorem isBlank_of_mark {c : Char} (mark : isNameChar c = true ∨ c ∈ ['{', '*', '\'', '"']) : isBlank c = false := by
  rcases mark with name | mark
  · exact isBlank_of_isNameChar name
  · simp only [List.mem_cons, List.not_mem_nil, or_false] at mark
    rcases mark with rfl | rfl | rfl | rfl <;> decide

/-- The places at which a module-level statement is recognised. -/
theorem moduleStatement_eq_some_iff {first : Option Char} {s rest : List Char} :
    moduleStatement first s = some ((), rest) ↔ atLineStart first = true ∧ ∃ indent, indent.all isIndent = true ∧
      (s = indent ++ "export".toList ++ rest ∧ Stops isWord rest ∨
        s = indent ++ "import".toList ++ rest ∧ startsImport (trimStart rest) = true) := by
  constructor
  · intro found
    simp only [moduleStatement] at found
    split at found
    · rename_i line
      obtain ⟨indent, all, whole⟩ := exists_span isIndent s
      refine ⟨line, indent, all, ?_⟩
      split at found
      · rename_i word
        split at found
        · simp at found
        · rename_i stop
          simp only [Option.some.injEq, Prod.mk.injEq, true_and] at found
          subst found
          rw [after?_eq_some_iff.1 word] at whole
          exact .inl ⟨by simpa using whole, startsWord_eq_false_iff.1 (by simpa using stop)⟩
      · rename_i word _
        split at found
        · rename_i starts
          simp only [Option.some.injEq, Prod.mk.injEq, true_and] at found
          subst found
          rw [after?_eq_some_iff.1 word] at whole
          exact .inr ⟨by simpa using whole, starts⟩
        · simp at found
      · simp at found
    · simp at found
  · rintro ⟨line, indent, all, ⟨rfl, stop⟩ | ⟨rfl, starts⟩⟩
    · have front : (indent ++ "export".toList ++ rest).dropWhile isIndent = "export".toList ++ rest := by
        rw [List.append_assoc]
        exact dropWhile_span all (by simp; decide)
      simp only [moduleStatement, line, if_true, front, afterWord?, after?_eq_some_iff.2 rfl,
        startsWord_eq_false_iff.2 stop, Bool.false_eq_true, if_false]
    · have front : (indent ++ "import".toList ++ rest).dropWhile isIndent = "import".toList ++ rest := by
        rw [List.append_assoc]
        exact dropWhile_span all (by simp; decide)
      have other : after? "export".toList ("import".toList ++ rest) = none := rfl
      simp only [moduleStatement, line, if_true, front, afterWord?, other, after?_eq_some_iff.2 rfl, starts]

theorem moduleSyntax_iff {s : List Char} : ModuleSyntax s ↔ ∃ rest, moduleStatement none s = some ((), rest) := by
  simp only [moduleStatement_eq_some_iff]
  constructor
  · rintro (⟨all, stop⟩ | ⟨all, blank, mark⟩)
    · exact ⟨_, rfl, _, all, .inl ⟨rfl, stop⟩⟩
    · rename_i indent gap rest c
      refine ⟨gap ++ c :: rest, rfl, indent, all, .inr ⟨by simp, ?_⟩⟩
      rw [trimStart, dropWhile_span blank (stops_cons.2 (isBlank_of_mark mark))]
      exact startsImport_cons.2 mark
  · rintro ⟨rest, _, indent, all, ⟨rfl, stop⟩ | ⟨rfl, starts⟩⟩
    · exact .exporting all stop
    · obtain ⟨gap, blank, whole⟩ := exists_span isBlank rest
      cases behind : rest.dropWhile isBlank with
      | nil => simp [trimStart, behind, startsImport, startsWord] at starts
      | cons c more =>
        rw [behind] at whole
        rw [trimStart, behind] at starts
        rw [whole, ← List.append_assoc]
        exact .importing all blank (startsImport_cons.1 starts)

theorem moduleStatement_cuts : Recognizer.Cuts moduleStatement := by
  rintro first s ⟨⟩ rest found
  obtain ⟨_, indent, _, ⟨rfl, _⟩ | ⟨rfl, _⟩⟩ := moduleStatement_eq_some_iff.1 found
  · exact ⟨indent ++ "export".toList, by simp, rfl⟩
  · exact ⟨indent ++ "import".toList, by simp, rfl⟩

theorem moduleStatement_lined : Recognizer.Lined moduleStatement := by
  intro first s
  simp only [moduleStatement]
  split <;> simp [atLineStart]

/-- A text has no stray line exactly when none of its lines starts with module syntax. -/
theorem strayLine?_eq_none_iff {body : List Char} :
    strayLine? body = none ↔ EveryLine none (fun _ v => ¬ ModuleSyntax v) body := by
  rw [strayLine?, Option.map_eq_none_iff, List.head?_eq_none_iff,
    locateIn_eq_nil_iff_lines moduleStatement_cuts moduleStatement_lined]
  refine everyLine_iff fun u v _ _ => ?_
  rw [moduleSyntax_iff]
  cases moduleStatement none v with
  | none => simp
  | some result =>
    obtain ⟨⟨⟩, rest⟩ := result
    simp

/-! ## Declared names -/

/-- The text of a function's declaration from its first word on, with or without `async` and a mark for
generators. -/
inductive FunctionText (name : List Char) : List Char → Prop where
  | mk {modifier mark rest : List Char} :
      modifier = [] ∨ (∃ gap, gap ≠ [] ∧ gap.all isBlank = true ∧ modifier = "async".toList ++ gap) →
      (mark ≠ [] ∧ mark.all isBlank = true ∨
        ∃ gap gap', gap.all isBlank = true ∧ gap'.all isBlank = true ∧ mark = gap ++ '*' :: gap') →
      Stops isNameChar rest → FunctionText name (modifier ++ "function".toList ++ mark ++ name ++ rest)

theorem mem_remainders {test : Char → Bool} {a b : List Char} (all : a.all test = true) :
    b ∈ remainders test (a ++ b) := by
  induction a with
  | nil => cases b <;> simp [remainders]
  | cons c a ih =>
    simp only [List.all_cons, Bool.and_eq_true] at all
    simp [remainders, all.1, ih all.2]

theorem mem_functionNames {modifier mark s : List Char}
    (before : modifier = [] ∨ ∃ gap, gap ≠ [] ∧ gap.all isBlank = true ∧ modifier = "async".toList ++ gap)
    (between : mark ≠ [] ∧ mark.all isBlank = true ∨
      ∃ gap gap', gap.all isBlank = true ∧ gap'.all isBlank = true ∧ mark = gap ++ '*' :: gap') :
    s ∈ functionNames (modifier ++ "function".toList ++ mark ++ s) := by
  have behind : ∃ a ∈ remainders isBlank (mark ++ s), a = s ∨ ∃ more, a = '*' :: more ∧ s ∈ remainders isBlank more := by
    rcases between with ⟨_, blank⟩ | ⟨gap, gap', blank, blank', rfl⟩
    · exact ⟨s, mem_remainders blank, .inl rfl⟩
    · refine ⟨'*' :: (gap' ++ s), ?_, .inr ⟨_, rfl, mem_remainders blank'⟩⟩
      rw [List.append_assoc]
      exact mem_remainders blank
  have word : afterWord? "function" ("function".toList ++ mark ++ s) = some (mark ++ s) :=
    after?_eq_some_iff.2 (by simp)
  have listed : s ∈ functionNames ("function".toList ++ mark ++ s) := by
    have async : afterWord? "async" ("function".toList ++ mark ++ s) = none := rfl
    simp only [functionNames, async, word, List.mem_flatMap]
    obtain ⟨a, mem, rfl | ⟨more, rfl, later⟩⟩ := behind
    · exact ⟨a, mem, by simp⟩
    · exact ⟨_, mem, by simp [later]⟩
  rcases before with rfl | ⟨gap, filled, blank, rfl⟩
  · exact listed
  · have async : afterWord? "async" ("async".toList ++ gap ++ "function".toList ++ mark ++ s) =
        some (gap ++ ("function".toList ++ mark ++ s)) := after?_eq_some_iff.2 (by simp)
    have blanks : afterBlanks? (gap ++ ("function".toList ++ mark ++ s)) = some ("function".toList ++ mark ++ s) :=
      afterBlanks?_eq_some_iff.2 ⟨gap, filled, blank, by simp; decide, rfl⟩
    have plain : afterWord? "async" ("function".toList ++ mark ++ s) = none := rfl
    simpa only [functionNames, async, blanks, plain, Option.getD_some] using listed

theorem declaresHere_of_function {name s : List Char} (function : FunctionText name s) : declaresHere name s = true := by
  cases function with
  | @mk modifier mark rest before between stop =>
    rw [declaresHere, List.any_eq_true]
    refine ⟨name ++ rest, ?_, ?_⟩
    · have mem := mem_functionNames (s := name ++ rest) before between
      rw [← List.append_assoc] at mem
      exact List.mem_append_left _ (List.mem_append_left _ mem)
    · rw [after?_eq_some_iff.2 rfl]
      simp [startsName_eq_false_iff.2 stop]

theorem declaresFrom_of_line {name u v : List Char} {first : Option Char}
    (line : atLineStart (charBefore first u) = true) (here : declaresHere name v = true) :
    declaresFrom name first (u ++ v) = true := by
  induction u generalizing first with
  | nil => cases v <;> simp_all [declaresFrom]
  | cons c u ih => simp [declaresFrom, ih (by simpa using line)]

/-- A text has an unindented declaration of a function. -/
def DeclaresFunction (name s : List Char) : Prop :=
  ∃ u v, s = u ++ v ∧ atLineStart (charBefore none u) = true ∧ FunctionText name v

/-- An unindented declaration of a function declares its name at the top level. -/
theorem declaresTopLevel_of_function {name s : List Char} (declared : DeclaresFunction name s) :
    declaresTopLevel name s = true := by
  obtain ⟨u, v, rfl, line, function⟩ := declared
  exact declaresFrom_of_line line (declaresHere_of_function function)

end WasmPackaging.Loader
