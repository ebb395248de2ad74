import Mathlib.Data.List.Forall2
import WasmPackaging.Loader.ExportClause
import WasmPackaging.Proofs.Text.Lines
import WasmPackaging.Proofs.Text.Spans

/-!
The grammar of export clauses and the last clause of a module. Main facts: a clause is recognised at
a line exactly when its text starts there (`exportClause_iff`), and the clause that counts is the one
behind which no line starts another (`findExportClause_eq_ok_iff`).
-/

namespace WasmPackaging.Loader

open Text

/-- The text of an export clause up to its closing brace, with `inner` between the braces. -/
inductive ClauseText : List Char → List Char → Prop where
  | mk {indent gap inner : List Char} : indent.all isIndent = true → gap.all isBlank = true →
      inner.all isClauseChar = true →
      ClauseText inner (indent ++ "export".toList ++ gap ++ '{' :: inner ++ ['}'])

theorem ClauseText.exists_front {inner text : List Char} (clause : ClauseText inner text) (behind : List Char) :
    ∃ indent gap, indent.all isIndent = true ∧ gap.all isBlank = true ∧
      text ++ behind = indent ++ "export".toList ++ (gap ++ '{' :: (inner ++ '}' :: behind)) := by
  cases clause with
  | @mk indent gap inner allIndent allBlank _ => exact ⟨indent, gap, allIndent, allBlank, by simp⟩

theorem not_mem_front {indent : List Char} (all : indent.all isIndent = true) : '\n' ∉ indent ++ "export".toList :=
  List.not_mem_append (not_mem_of_all all (by decide)) (by decide)

/-- What is behind a clause when `s` is behind its closing brace: blanks of the line and a semicolon
still belong to it. -/
def behindClause (s : List Char) : List Char := (after? [';'] (s.dropWhile isIndent)).getD (s.dropWhile isIndent)

theorem exists_clauseEnd (s : List Char) :
    ∃ indent mark, indent.all isIndent = true ∧ (mark = [] ∨ mark = [';']) ∧ s = indent ++ mark ++ behindClause s := by
  obtain ⟨indent, all, whole⟩ := exists_span isIndent s
  unfold behindClause
  cases semicolon : after? [';'] (s.dropWhile isIndent) with
  | none => exact ⟨indent, [], all, .inl rfl, by simpa using whole⟩
  | some rest =>
    refine ⟨indent, [';'], all, .inr rfl, ?_⟩
    rw [after?_eq_some_iff.1 semicolon] at whole
    simpa using whole

theorem not_mem_clauseEnd {indent mark : List Char} (all : indent.all isIndent = true) (end_ : mark = [] ∨ mark = [';']) :
    '\n' ∉ indent ++ mark := by
  refine List.not_mem_append (not_mem_of_all all (by decide)) ?_
  rcases end_ with rfl | rfl <;> decide

theorem behindClause_semicolon {indent : List Char} (all : indent.all isIndent = true) (s : List Char) :
    behindClause (indent ++ ';' :: s) = s := by
  have mark : Stops isIndent (';' :: s) := by simp [isIndent]
  rw [behindClause, dropWhile_span all mark]
  rfl

/-- A clause is recognised at the start of a line exactly when the line starts with its text. -/
theorem exportClause_iff {first : Option Char} {s inner rest : List Char} :
    exportClause first s = some (inner, rest) ↔
      atLineStart first = true ∧ ∃ text behind, ClauseText inner text ∧ s = text ++ behind ∧ rest = behindClause behind := by
  constructor
  · intro found
    simp only [exportClause] at found
    split at found
    · rename_i line
      simp only [Option.bind_eq_bind, Option.bind_eq_some_iff, Option.some.injEq, Prod.mk.injEq] at found
      obtain ⟨a, word, b, brace, c, close, rfl, rfl⟩ := found
      obtain ⟨indent, allIndent, whole⟩ := exists_span isIndent s
      obtain ⟨gap, allBlank, gapWhole⟩ := exists_span isBlank a
      have innerWhole := List.takeWhile_append_dropWhile (p := isClauseChar) (l := b)
      rw [after?_eq_some_iff.1 close] at innerWhole
      rw [after?_eq_some_iff.1 word, gapWhole, ← trimStart, after?_eq_some_iff.1 brace] at whole
      refine ⟨line, _, c, .mk allIndent allBlank List.all_takeWhile, ?_, rfl⟩
      rw [whole]
      simpa using innerWhole.symm
    · simp at found
  · rintro ⟨line, text, behind, clause, rfl, rfl⟩
    cases clause with
    | @mk indent gap inner allIndent allBlank allInner =>
      have front : (indent ++ "export".toList ++ gap ++ '{' :: inner ++ ['}'] ++ behind).dropWhile isIndent =
          "export".toList ++ (gap ++ '{' :: (inner ++ '}' :: behind)) := by
        rw [show indent ++ "export".toList ++ gap ++ '{' :: inner ++ ['}'] ++ behind =
          indent ++ ("export".toList ++ (gap ++ '{' :: (inner ++ '}' :: behind))) by simp]
        exact dropWhile_span allIndent (by simp; decide)
      have braces : trimStart (gap ++ '{' :: (inner ++ '}' :: behind)) = '{' :: (inner ++ '}' :: behind) :=
        dropWhile_span allBlank (by simp; decide)
      have stop : Stops isClauseChar ('}' :: behind) := by simp [isClauseChar]
      simp only [exportClause, line, if_true, front, afterWord?, Option.bind_eq_bind]
      simp only [after?_eq_some_iff.2 rfl, Option.bind_some, braces]
      rw [show after? ['{'] ('{' :: (inner ++ '}' :: behind)) = some (inner ++ '}' :: behind) from rfl,
        Option.bind_some, takeWhile_span allInner stop, dropWhile_span allInner stop]
      rfl

theorem exportClause_lined : Recognizer.Lined exportClause := by
  intro first s
  simp only [exportClause]
  split <;> simp [atLineStart]

theorem exportClause_cuts : Recognizer.Cuts exportClause := by
  intro first s inner rest found
  obtain ⟨_, text, behind, clause, rfl, rfl⟩ := exportClause_iff.1 found
  obtain ⟨indent, mark, _, _, whole⟩ := exists_clauseEnd behind
  refine ⟨text ++ (indent ++ mark), ?_, ?_⟩
  · cases clause with
    | mk => simp
  · rw [List.append_assoc, ← whole]

theorem isClauseChar_of_isBlank {c : Char} (blank : isBlank c = true) : isClauseChar c = true := by
  simp only [isClauseChar, Bool.and_eq_true, bne_iff_ne]
  constructor <;> rintro rfl <;> exact absurd blank (by decide)

/-- A text that holds a closing brace before any opening one starts no clause. -/
theorem not_clauseText_of_close {inner text a b behind : List Char} (clause : ClauseText inner text)
    (all : a.all isClauseChar = true) : a ++ '}' :: b ≠ text ++ behind := by
  intro whole
  obtain ⟨indent, gap, allIndent, allBlank, split⟩ := clause.exists_front behind
  have front : (indent ++ "export".toList ++ gap).all isClauseChar = true := by
    simp only [List.all_append, Bool.and_eq_true]
    exact ⟨⟨all_of_all allIndent fun c h => isClauseChar_of_isBlank (isBlank_of_isIndent h), by decide⟩,
      all_of_all allBlank fun c h => isClauseChar_of_isBlank h⟩
  have close : (a ++ '}' :: b).dropWhile isClauseChar = '}' :: b := dropWhile_span all (by simp [isClauseChar])
  rw [whole, split, ← List.append_assoc, dropWhile_span front (by simp [isClauseChar])] at close
  simp at close

/-- A text whose first character that is not blank is an opening brace starts no clause. -/
theorem not_clauseText_of_open {inner text a b behind : List Char} (clause : ClauseText inner text)
    (all : a.all isBlank = true) : a ++ '{' :: b ≠ text ++ behind := by
  intro whole
  obtain ⟨indent, gap, allIndent, _, split⟩ := clause.exists_front behind
  have brace : (a ++ '{' :: b).dropWhile isBlank = '{' :: b := dropWhile_span all (by simp; decide)
  rw [whole, split, List.append_assoc, dropWhile_span (all_of_all allIndent fun c h => isBlank_of_isIndent h)
    (by simp; decide)] at brace
  simp at brace

/-- Behind a line feed within a clause stands its opening brace after blanks alone, or its closing
brace before any other. -/
theorem ClauseText.behind_newline {inner u v : List Char} (clause : ClauseText inner (u ++ '\n' :: v)) :
    (∃ gap rest, gap.all isBlank = true ∧ v = gap ++ '{' :: rest) ∨
      ∃ rest, rest.all isClauseChar = true ∧ v = rest ++ ['}'] := by
  generalize whole : u ++ '\n' :: v = text at clause
  cases clause with
  | @mk indent gap inner allIndent allBlank allInner =>
    have flat := not_mem_front allIndent
    have split : indent ++ "export".toList ++ (gap ++ ('{' :: inner ++ ['}'])) = u ++ '\n' :: v := by
      rw [whole]
      simp only [List.append_assoc]
    obtain ⟨w, _, rest⟩ := exists_eq_append_cons_of_not_mem split flat
    rcases append_eq_append_cons rest with ⟨x, gapWhole, rfl⟩ | ⟨x, _, braces⟩
    · rw [gapWhole] at allBlank
      simp only [List.all_append, List.all_cons, Bool.and_eq_true] at allBlank
      exact .inl ⟨x, inner ++ ['}'], allBlank.2.2, rfl⟩
    · have behind : ['{'] ++ (inner ++ ['}']) = x ++ '\n' :: v := braces
      obtain ⟨y, _, inside⟩ := exists_eq_append_cons_of_not_mem behind (by decide)
      rcases append_eq_append_cons inside with ⟨z, innerWhole, rfl⟩ | ⟨z, _, close⟩
      · rw [innerWhole] at allInner
        simp only [List.all_append, List.all_cons, Bool.and_eq_true] at allInner
        exact .inr ⟨z, allInner.2.2, rfl⟩
      · cases z <;> simp at close

theorem exportClause_apart : Recognizer.Apart exportClause := by
  intro first inner u w rest found filled more
  cases again : exportClause (charBefore first u) (w ++ rest) with
  | none => rfl
  | some result =>
    exfalso
    obtain ⟨line, text', behind', clause', whole', _⟩ := exportClause_iff.1 again
    obtain ⟨_, text, behind, clause, whole, restIs⟩ := exportClause_iff.1 found
    obtain ⟨indent, mark, allIndent, end_, behindWhole⟩ := exists_clauseEnd behind
    have flat := not_mem_clauseEnd allIndent end_
    rw [← restIs] at behindWhole
    obtain ⟨u, rfl⟩ := exists_eq_append_newline filled line
    have split : text ++ (indent ++ mark) = u ++ '\n' :: w := by
      rw [behindWhole, ← List.append_assoc] at whole
      simpa using (List.append_cancel_right whole).symm
    rcases List.append_eq_append_iff.1 split with ⟨x, _, tailWhole⟩ | ⟨x, rfl, tailWhole⟩
    · exact absurd (by simp [tailWhole]) flat
    · cases x with
      | nil =>
        rw [List.nil_append] at tailWhole
        exact absurd (by simp [← tailWhole]) flat
      | cons c x =>
        obtain ⟨rfl, rfl⟩ := List.cons.inj tailWhole
        rcases clause.behind_newline with ⟨gap, more, all, rfl⟩ | ⟨more, all, rfl⟩
        · exact not_clauseText_of_open clause' all (by simpa using whole')
        · exact not_clauseText_of_close clause' all (by simpa using whole')

/-! ## Entries -/

/-- Both sides of an entry are names. -/
structure ExportSpecifier.Named (specifier : ExportSpecifier) : Prop where
  localName : isName specifier.localName = true
  exported : isName specifier.exported = true

/-- The words of an entry and what they export. -/
inductive Entry : List (List Char) → ExportSpecifier → Prop where
  | name {name : List Char} : isName name = true → Entry [name] ⟨name, name⟩
  | renamed {name exported : List Char} : isName name = true → isName exported = true →
      Entry [name, "as".toList, exported] ⟨name, exported⟩

/-- The entries between the braces of a clause, one between two commas; a blank one exports nothing. -/
def Entries (inner : List Char) (specifiers : List ExportSpecifier) : Prop :=
  List.Forall₂ Entry (((splitAt ',' inner).map words).filter (· ≠ [])) specifiers

theorem Entry.named {entry : List (List Char)} {specifier : ExportSpecifier} (reads : Entry entry specifier) :
    specifier.Named := by
  cases reads with
  | name h => exact ⟨h, h⟩
  | renamed h g => exact ⟨h, g⟩

theorem readSpecifier_eq_some_iff {entry : List (List Char)} {specifier : ExportSpecifier} :
    readSpecifier entry = some specifier ↔ Entry entry specifier := by
  constructor
  · intro read
    unfold readSpecifier at read
    split at read
    · split at read
      · rename_i name
        obtain rfl := Option.some.inj read
        exact .name name
      · simp at read
    · split at read
      · rename_i names
        obtain rfl := Option.some.inj read
        rw [Bool.and_eq_true] at names
        exact .renamed names.1 names.2
      · simp at read
    · simp at read
  · rintro (h | ⟨h, g⟩)
    · simp [readSpecifier, h]
    · simp [readSpecifier, h, g]

theorem readSpecifiers_eq_ok_iff {entries : List (List (List Char))} {specifiers : List ExportSpecifier} :
    readSpecifiers entries = .ok specifiers ↔ List.Forall₂ Entry (entries.filter (· ≠ [])) specifiers := by
  induction entries generalizing specifiers with
  | nil =>
    simp only [readSpecifiers, List.filter_nil, List.forall₂_nil_left_iff, Except.ok.injEq]
    exact eq_comm
  | cons entry rest ih =>
    cases entry with
    | nil => simpa [readSpecifiers] using ih
    | cons word more =>
      rw [List.filter_cons_of_pos (by simp), List.forall₂_cons_left_iff]
      simp only [← readSpecifier_eq_some_iff, ← ih, readSpecifiers, List.isEmpty_cons, Bool.false_eq_true, if_false]
      cases read : readSpecifier (word :: more) with
      | none => simp
      | some specifier =>
        cases later : readSpecifiers rest with
        | error cause => simp [Except.map]
        | ok others =>
          simp only [Except.map, Except.ok.injEq, Option.some.injEq]
          constructor
          · rintro rfl
            exact ⟨_, _, rfl, rfl, rfl⟩
          · rintro ⟨_, _, rfl, rfl, rfl⟩
            rfl

theorem specifiersOf_eq_ok_iff {inner : List Char} {specifiers : List ExportSpecifier} :
    specifiersOf inner = .ok specifiers ↔ Entries inner specifiers := readSpecifiers_eq_ok_iff

theorem Entries.named {inner : List Char} {specifiers : List ExportSpecifier} (reads : Entries inner specifiers) :
    ∀ specifier ∈ specifiers, specifier.Named := by
  intro specifier listed
  obtain ⟨i, inside, rfl⟩ := List.getElem_of_mem listed
  exact (reads.get (by rw [reads.length_eq]; exact inside) inside).named

/-! ## The last clause -/

/-- The last export clause of a text: it stands as `text` between `before` and `behind`, `inner` is
between its braces, and no line behind it starts another. -/
structure LastClause (s before text behind inner : List Char) : Prop where
  whole : s = before ++ text ++ behind
  line : atLineStart (charBefore none before) = true
  found : exportClause none (text ++ behind) = some (inner, behind)
  last : EveryLine (charBefore none (before ++ text)) (fun _ v => exportClause none v = none) behind

/-- A clause ends within a line, and behind it nothing follows that the blanks of the line and a
semicolon could belong to. -/
theorem LastClause.exists_text {s before text behind inner : List Char} (last : LastClause s before text behind inner) :
    ∃ body indent mark, text = body ++ (indent ++ mark) ∧ ClauseText inner body ∧ indent.all isIndent = true ∧
      (mark = [] ∨ mark = [';']) := by
  obtain ⟨_, body, rest, clause, whole, behindIs⟩ := exportClause_iff.1 last.found
  obtain ⟨indent, mark, all, end_, split⟩ := exists_clauseEnd rest
  rw [← behindIs] at split
  refine ⟨body, indent, mark, ?_, clause, all, end_⟩
  rw [split, ← List.append_assoc] at whole
  exact List.append_cancel_right whole

theorem LastClause.closes {s before text behind inner : List Char} (last : LastClause s before text behind inner)
    (first : Option Char) : atLineStart (charBefore first (before ++ text)) = false := by
  obtain ⟨_, indent, mark, rfl, clause, all, end_⟩ := last.exists_text
  cases clause with
  | @mk indent' gap inner _ _ _ =>
    cases line : atLineStart _ with
    | false => rfl
    | true =>
      have split : before ++ (indent' ++ "export".toList ++ gap ++ '{' :: inner ++ ['}'] ++ (indent ++ mark)) =
          before ++ (indent' ++ "export".toList ++ gap ++ '{' :: inner) ++ '}' :: (indent ++ mark) := by simp
      rw [split, charBefore_append] at line
      obtain ⟨v, whole⟩ := exists_eq_append_newline (by simp) line
      have newline : '\n' ∈ '}' :: (indent ++ mark) := by simp [whole]
      exact absurd ((List.mem_cons.1 newline).resolve_left (by decide)) (not_mem_clauseEnd all end_)

/-- A clause without a semicolon is read as if one closed it. -/
theorem LastClause.close {s before text behind inner : List Char} (last : LastClause s before text behind inner)
    (unclosed : text.getLast? ≠ some ';') :
    LastClause (before ++ text ++ ';' :: behind) before (text ++ [';']) behind inner := by
  obtain ⟨body, indent, mark, rfl, clause, all, rfl | rfl⟩ := last.exists_text
  · refine ⟨by simp, last.line, ?_, ?_⟩
    · exact exportClause_iff.2 ⟨rfl, body, indent ++ ';' :: behind, clause, by simp, (behindClause_semicolon all behind).symm⟩
    · refine (everyLine_congr ?_).1 last.last
      rw [last.closes, ← List.append_assoc, charBefore_append]
      rfl
  · rw [← List.append_assoc, List.getLast?_concat] at unclosed
    exact absurd rfl unclosed

theorem getLast?_exportClause_iff {s inner text : List Char} {start : Nat} :
    (locateIn exportClause s).getLast? = some (start, inner, text) ↔
      ∃ before behind, LastClause s before text behind inner ∧ start = before.length := by
  rw [getLast?_locateIn_iff_lines exportClause_cuts exportClause_lined exportClause_apart]
  constructor
  · rintro ⟨u, v, whole, size, _, line, clause, last⟩
    exact ⟨u, v, ⟨whole, line, clause, last⟩, size⟩
  · rintro ⟨u, v, ⟨whole, line, clause, last⟩, size⟩
    refine ⟨u, v, whole, size, ?_, line, clause, last⟩
    rintro rfl
    obtain ⟨covered, filled, split⟩ := exportClause_cuts _ _ _ _ clause
    simp [filled] at split

theorem LastClause.findExportClause_eq {s before text behind inner : List Char}
    (last : LastClause s before text behind inner) :
    findExportClause s = (specifiersOf inner).map (⟨before.length, (before ++ text).length, ·⟩) := by
  unfold findExportClause
  rw [getLast?_exportClause_iff.2 ⟨before, behind, last, rfl⟩]
  simp

/-- The clause of a text: its last one, with the entries that are read from between the braces and the
offsets of its ends. -/
structure ExportClause.StandsIn (clause : ExportClause) (s before text behind inner : List Char) : Prop
    extends LastClause s before text behind inner where
  entries : Entries inner clause.specifiers
  start : clause.start = before.length
  stop : clause.stop = (before ++ text).length

section

variable {clause : ExportClause} {s before text behind inner : List Char}

theorem ExportClause.StandsIn.take_start (stands : clause.StandsIn s before text behind inner) :
    s.take clause.start = before := by
  rw [stands.start, stands.whole, List.append_assoc, List.take_left]

theorem ExportClause.StandsIn.take_stop (stands : clause.StandsIn s before text behind inner) :
    s.take clause.stop = before ++ text := by
  rw [stands.stop, stands.whole, List.take_left]

theorem ExportClause.StandsIn.drop_stop (stands : clause.StandsIn s before text behind inner) :
    s.drop clause.stop = behind := by
  rw [stands.stop, stands.whole, List.drop_left]

end

/-- The clause of a module is its last one, if that can be read. -/
theorem findExportClause_eq_ok_iff {s : List Char} {clause : ExportClause} :
    findExportClause s = .ok clause ↔ ∃ before text behind inner, clause.StandsIn s before text behind inner := by
  obtain ⟨start, stop, specifiers⟩ := clause
  constructor
  · intro found
    unfold findExportClause at found
    split at found
    · simp at found
    · rename_i start inner text last
      obtain ⟨before, behind, clause, rfl⟩ := getLast?_exportClause_iff.1 last
      cases read : specifiersOf inner with
      | error cause => simp [read, Except.map] at found
      | ok entries =>
        simp only [read, Except.map, Except.ok.injEq, ExportClause.mk.injEq] at found
        obtain ⟨rfl, rfl, rfl⟩ := found
        refine ⟨before, text, behind, inner, clause, specifiersOf_eq_ok_iff.1 read, rfl, ?_⟩
        rw [List.length_append]
  · rintro ⟨before, text, behind, inner, clause, entries, rfl, rfl⟩
    rw [clause.findExportClause_eq, specifiersOf_eq_ok_iff.2 entries]
    rfl

/-- A module has no export clause exactly when no line of it starts one. -/
theorem findExportClause_eq_noExportBlock {s : List Char} (none : EveryLine none (fun _ v => exportClause none v = none) s) :
    findExportClause s = .error .noExportBlock := by
  simp [findExportClause, (locateIn_eq_nil_iff_lines exportClause_cuts exportClause_lined s).2 none]

end WasmPackaging.Loader
