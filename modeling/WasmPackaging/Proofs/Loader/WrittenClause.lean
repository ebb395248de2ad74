import WasmPackaging.Proofs.Loader.Clause

/-!
Export clauses as they are written: `export`, then entries between braces with commas between
neighbours, any blanks around them, and at most a semicolon behind. Main fact: the last clause that a
module is written with is found with its entries in their order and with the offsets of its ends
(`findExportClause_written`).
-/

namespace WasmPackaging.Loader

open Text

/-! ## Words -/

theorem words_cons_of_isBlank {c : Char} (blank : isBlank c = true) (s : List Char) : words (c :: s) = words s := by
  simp [words, splitWhere, blank]

theorem words_blanks_append {gap : List Char} (blank : gap.all isBlank = true) (s : List Char) :
    words (gap ++ s) = words s := by
  induction gap with
  | nil => rfl
  | cons c gap ih =>
    rw [List.all_cons, Bool.and_eq_true] at blank
    rw [List.cons_append, words_cons_of_isBlank blank.1, ih blank.2]

/-- A name that a text starts with is its first word, when nothing or a blank follows it. -/
theorem words_name_append {name s : List Char} (valid : isName name = true) (stop : ∀ c ∈ s.head?, isBlank c = true) :
    words (name ++ s) = name :: words s := by
  obtain ⟨filled, all⟩ := isName_iff.1 valid
  have plain : ∀ c ∈ name, isBlank c = false := fun c mem => isBlank_of_isNameChar (List.all_eq_true.1 all c mem)
  cases s with
  | nil => simp [words, splitWhere_of_plain plain, splitWhere, filled]
  | cons c s =>
    have blank : isBlank c = true := stop c rfl
    rw [words_cons_of_isBlank blank]
    simp [words, splitWhere_append_cons plain blank, filled]

theorem words_blanks {gap : List Char} (blank : gap.all isBlank = true) : words gap = [] := by
  simpa [words, splitWhere] using words_blanks_append blank []

theorem head_blank_of_all {gap : List Char} (blank : gap.all isBlank = true) : ∀ c ∈ gap.head?, isBlank c = true :=
  fun c first => List.all_eq_true.1 blank c (List.mem_of_mem_head? first)

theorem head_blank_of_filled {gap : List Char} (blank : gap.all isBlank = true) (filled : gap ≠ []) (s : List Char) :
    ∀ c ∈ (gap ++ s).head?, isBlank c = true := by
  obtain ⟨first, rest, rfl⟩ := List.exists_cons_of_ne_nil filled
  rw [List.all_cons, Bool.and_eq_true] at blank
  simpa using blank.1

/-! ## Entries -/

/-- The text of an entry with the blanks around it: a name, or a name, `as`, and a second name. -/
inductive EntryText : ExportSpecifier → List Char → Prop where
  | name {name before behind : List Char} : isName name = true → before.all isBlank = true →
      behind.all isBlank = true → EntryText ⟨name, name⟩ (before ++ name ++ behind)
  | renamed {name exported before gap gap' behind : List Char} : isName name = true → isName exported = true →
      before.all isBlank = true → gap ≠ [] → gap.all isBlank = true → gap' ≠ [] → gap'.all isBlank = true →
      behind.all isBlank = true →
      EntryText ⟨name, exported⟩ (before ++ name ++ gap ++ "as".toList ++ gap' ++ exported ++ behind)

/-- The text between the braces of a clause: entries with a comma between neighbours, in order. What
is blank between two commas, or behind the last one, exports nothing. -/
inductive EntriesText : List ExportSpecifier → List Char → Prop where
  | blank {gap : List Char} : gap.all isBlank = true → EntriesText [] gap
  | passed {gap rest : List Char} {specifiers : List ExportSpecifier} : gap.all isBlank = true →
      EntriesText specifiers rest → EntriesText specifiers (gap ++ ',' :: rest)
  | last {specifier : ExportSpecifier} {text : List Char} : EntryText specifier text → EntriesText [specifier] text
  | more {specifier : ExportSpecifier} {specifiers : List ExportSpecifier} {text rest : List Char} :
      EntryText specifier text → EntriesText specifiers rest →
      EntriesText (specifier :: specifiers) (text ++ ',' :: rest)

/-- The words of a written entry are those that it is read from. -/
theorem EntryText.entry {specifier : ExportSpecifier} {text : List Char} (written : EntryText specifier text) :
    Entry (words text) specifier := by
  cases written with
  | @name name before behind valid blank blank' =>
    have read : words (before ++ name ++ behind) = [name] := by
      rw [List.append_assoc, words_blanks_append blank, words_name_append valid (head_blank_of_all blank'),
        words_blanks blank']
    rw [read]
    exact .name valid
  | @renamed name exported before gap gap' behind valid valid' blank filled blankGap filled' blankGap' blank' =>
    have read : words (before ++ name ++ gap ++ "as".toList ++ gap' ++ exported ++ behind) =
        [name, "as".toList, exported] := by
      have word : isName "as".toList = true := by decide
      simp only [List.append_assoc]
      rw [words_blanks_append blank, words_name_append valid (head_blank_of_filled blankGap filled _),
        words_blanks_append blankGap, words_name_append word (head_blank_of_filled blankGap' filled' _),
        words_blanks_append blankGap', words_name_append valid' (head_blank_of_all blank'), words_blanks blank']
    rw [read]
    exact .renamed valid valid'

theorem Entry.ne_nil {entry : List (List Char)} {specifier : ExportSpecifier} (reads : Entry entry specifier) :
    entry ≠ [] := by
  cases reads <;> exact List.cons_ne_nil _ _

/-- A character that names and blanks both lack stands in no entry. -/
theorem EntryText.not_mem {specifier : ExportSpecifier} {text : List Char} (written : EntryText specifier text)
    {c : Char} (notBlank : isBlank c = false) (notName : isNameChar c = false) : c ∉ text := by
  have blanks {gap : List Char} (blank : gap.all isBlank = true) : c ∉ gap := not_mem_of_all blank notBlank
  have names {name : List Char} (valid : isName name = true) : c ∉ name := not_mem_of_all (isName_iff.1 valid).2 notName
  cases written with
  | name valid blank blank' =>
    exact List.not_mem_append (List.not_mem_append (blanks blank) (names valid)) (blanks blank')
  | renamed valid valid' blank _ blankGap _ blankGap' blank' =>
    have word : c ∉ "as".toList := names (by decide)
    simp only [List.mem_append, not_or]
    exact ⟨⟨⟨⟨⟨⟨blanks blank, names valid⟩, blanks blankGap⟩, word⟩, blanks blankGap'⟩, names valid'⟩, blanks blank'⟩

/-- Entries are read from the text they are written as. -/
theorem EntriesText.entries {specifiers : List ExportSpecifier} {inner : List Char}
    (written : EntriesText specifiers inner) : Entries inner specifiers := by
  unfold Entries
  induction written with
  | blank blank =>
    rw [splitAt_of_not_mem (not_mem_of_all blank (by decide)), List.map_singleton, words_blanks blank]
    exact .nil
  | passed blank _ ih =>
    rw [splitAt_append_cons (not_mem_of_all blank (by decide)), List.map_cons, words_blanks blank]
    exact ih
  | last entry =>
    rw [splitAt_of_not_mem (entry.not_mem (by decide) (by decide)), List.map_singleton,
      List.filter_cons_of_pos (by simpa using entry.entry.ne_nil)]
    exact .cons entry.entry .nil
  | more entry _ ih =>
    rw [splitAt_append_cons (entry.not_mem (by decide) (by decide)), List.map_cons,
      List.filter_cons_of_pos (by simpa using entry.entry.ne_nil)]
    exact .cons entry.entry ih

theorem EntriesText.not_mem {specifiers : List ExportSpecifier} {inner : List Char}
    (written : EntriesText specifiers inner) {c : Char} (notBlank : isBlank c = false) (notName : isNameChar c = false)
    (notComma : c ≠ ',') : c ∉ inner := by
  induction written with
  | blank blank => exact not_mem_of_all blank notBlank
  | passed blank _ ih =>
    exact List.not_mem_append (not_mem_of_all blank notBlank) (List.not_mem_cons_of_ne_of_not_mem notComma ih)
  | last entry => exact entry.not_mem notBlank notName
  | more entry _ ih =>
    exact List.not_mem_append (entry.not_mem notBlank notName) (List.not_mem_cons_of_ne_of_not_mem notComma ih)

/-- No brace stands between the braces of a clause. -/
theorem EntriesText.all_isClauseChar {specifiers : List ExportSpecifier} {inner : List Char}
    (written : EntriesText specifiers inner) : inner.all isClauseChar = true := by
  have opens : '{' ∉ inner := written.not_mem (by decide) (by decide) (by decide)
  have closes : '}' ∉ inner := written.not_mem (by decide) (by decide) (by decide)
  rw [List.all_eq_true]
  intro c mem
  simp only [isClauseChar, Bool.and_eq_true, bne_iff_ne]
  constructor <;> rintro rfl <;> contradiction

/-! ## Clauses -/

/-- The text of a clause with its entries: `export`, the entries between braces, and at most a
semicolon behind. -/
inductive WrittenClause : List ExportSpecifier → List Char → Prop where
  | mk {gap inner mark : List Char} {specifiers : List ExportSpecifier} : gap.all isBlank = true →
      EntriesText specifiers inner → mark = [] ∨ mark = [';'] →
      WrittenClause specifiers ("export".toList ++ gap ++ '{' :: inner ++ ['}'] ++ mark)

/-- A text goes on behind a clause only with its own line end. -/
theorem behindClause_of_newline {behind : List Char} (ends : behind = [] ∨ ∃ more, behind = '\n' :: more) :
    behindClause behind = behind := by
  rcases ends with rfl | ⟨more, rfl⟩ <;> rfl

/-- The clause that a text is written with is its last one, when no line behind it starts another. -/
theorem WrittenClause.lastClause {specifiers : List ExportSpecifier} {before text behind : List Char}
    (written : WrittenClause specifiers text) (line : before = [] ∨ ∃ lines, before = lines ++ ['\n'])
    (ends : behind = [] ∨ ∃ more, behind = '\n' :: more) (last : locateIn exportClause behind = []) :
    ∃ inner, LastClause (before ++ text ++ behind) before text behind inner ∧ Entries inner specifiers := by
  cases written with
  | @mk gap inner mark _ blank entries end_ =>
    refine ⟨inner, ⟨rfl, ?_, ?_, ?_⟩, entries.entries⟩
    · rcases line with rfl | ⟨lines, rfl⟩
      · rfl
      · rw [charBefore_append]
        rfl
    · have clause : ClauseText inner ([] ++ "export".toList ++ gap ++ '{' :: inner ++ ['}']) :=
        .mk rfl blank entries.all_isClauseChar
      have rest : behind = behindClause (mark ++ behind) := by
        rcases end_ with rfl | rfl
        · exact (behindClause_of_newline ends).symm
        · rfl
      exact exportClause_iff.2 ⟨rfl, _, mark ++ behind, clause, by simp, rest⟩
    · have every := (locateIn_eq_nil_iff_lines exportClause_cuts exportClause_lined behind).1 last
      intro u v whole start
      cases u with
      | nil => exact every [] v whole rfl
      | cons c u => exact every (c :: u) v whole (by simpa using start)

/-- Reading a clause undoes writing it. Between whole lines before it and line ends behind it that start
no other clause, the clause is found with its entries in order, from its first character to the one
behind its semicolon, or behind its closing brace when it has none. -/
theorem findExportClause_written {specifiers : List ExportSpecifier} {before text behind : List Char}
    (written : WrittenClause specifiers text) (line : before = [] ∨ ∃ lines, before = lines ++ ['\n'])
    (ends : behind = [] ∨ ∃ more, behind = '\n' :: more) (last : locateIn exportClause behind = []) :
    findExportClause (before ++ text ++ behind) = .ok ⟨before.length, before.length + text.length, specifiers⟩ := by
  obtain ⟨inner, clause, entries⟩ := written.lastClause line ends last
  rw [clause.findExportClause_eq, specifiersOf_eq_ok_iff.2 entries, List.length_append]
  rfl

/-- What stands between the braces of a clause over several lines, with a comma behind its last entry. -/
def spreadEntries : List Char := "\n  init as\tdefault,\n  $helper ,\n".toList

theorem entriesText_spreadEntries :
    EntriesText [⟨"init".toList, "default".toList⟩, ⟨"$helper".toList, "$helper".toList⟩] spreadEntries := by
  have first : EntryText ⟨"init".toList, "default".toList⟩
      ("\n  ".toList ++ "init".toList ++ [' '] ++ "as".toList ++ ['\t'] ++ "default".toList ++ []) :=
    .renamed (by decide) (by decide) (by decide) (by decide) (by decide) (by decide) (by decide) rfl
  have second : EntryText ⟨"$helper".toList, "$helper".toList⟩ ("\n  ".toList ++ "$helper".toList ++ [' ']) :=
    .name (by decide) (by decide) (by decide)
  have behind : EntriesText [] ['\n'] := .blank (by decide)
  exact Eq.mp (congrArg (EntriesText _) (by decide)) (EntriesText.more first (.more second behind))

/-- The clause of these entries, between another clause and a statement. -/
theorem findExportClause_spreadEntries :
    WrittenClause [⟨"init".toList, "default".toList⟩, ⟨"$helper".toList, "$helper".toList⟩]
        ("export".toList ++ [' '] ++ '{' :: spreadEntries ++ ['}'] ++ [';']) ∧
      locateIn exportClause "\nmore();\n".toList = [] ∧
      findExportClause ("export \x7b early \x7d\n".toList ++
          ("export".toList ++ [' '] ++ '{' :: spreadEntries ++ ['}'] ++ [';']) ++ "\nmore();\n".toList) =
        .ok ⟨17, 17 + 42, [⟨"init".toList, "default".toList⟩, ⟨"$helper".toList, "$helper".toList⟩]⟩ := by
  have written : WrittenClause _ ("export".toList ++ [' '] ++ '{' :: spreadEntries ++ ['}'] ++ [';']) :=
    .mk (by decide) entriesText_spreadEntries (.inr rfl)
  have line : "export \x7b early \x7d\n".toList = [] ∨ ∃ lines, "export \x7b early \x7d\n".toList = lines ++ ['\n'] :=
    .inr ⟨"export \x7b early \x7d".toList, by decide⟩
  have ends : "\nmore();\n".toList = [] ∨ ∃ more, "\nmore();\n".toList = '\n' :: more := .inr ⟨"more();\n".toList, by decide⟩
  have last : locateIn exportClause "\nmore();\n".toList = [] := by decide +kernel
  exact ⟨written, last, findExportClause_written written line ends last⟩

end WasmPackaging.Loader
