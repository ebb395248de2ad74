import Mathlib.Control.Monad.Basic
import WasmPackaging.Proofs.Loader.FactoryBody

/-!
Which bundled modules become factories. Main facts: a module without statements outside its clause is
accepted unless a line outside looks like one (`toFactory_ok_iff_no_lookalike`), and an accepted module
has a body without module syntax, but its clause may still go on behind the closing brace
(`body_clean_and_toFactory_of_open_clause`).
-/

namespace WasmPackaging.Loader

open Text

variable {options : LoaderOptions} {clause : ExportClause}

/-! ## Statements and what looks like them -/

/-- Whether a character goes on with a call of `import` or with one of its properties. -/
def opensCall (c : Char) : Bool := c == '(' || c == '.'

/-- A line that starts, behind its blanks, with the whole word `export`, or with the whole word
`import` when neither a call nor a property goes on with it. -/
def StatementLine (line : List Char) : Prop :=
  StartsWith "export" (Stops isNameChar) (line.dropWhile isIndent) ∨
    StartsWith "import" (fun rest => Stops isNameChar rest ∧ Stops opensCall (trimStart rest)) (line.dropWhile isIndent)

instance : DecidablePred StatementLine := fun _ => inferInstanceAs (Decidable (_ ∨ _))

/-- A line that starts, behind its blanks, with a longer name that is taken for a statement: `export`
with a dollar sign behind it, or `import` with any character of a name behind it. -/
def LookalikeLine (line : List Char) : Prop :=
  StartsWith "export" (fun rest => rest.head? = some '$') (line.dropWhile isIndent) ∨
    StartsWith "import" (fun rest => startsName rest = true) (line.dropWhile isIndent)

instance : DecidablePred LookalikeLine := fun _ => inferInstanceAs (Decidable (_ ∨ _))

theorem lineOf_dropWhile_word {indent rest : List Char} {word : String} (all : indent.all isIndent = true)
    (stop : Stops isIndent word.toList) (filled : word.toList ≠ []) (flat : '\n' ∉ word.toList) :
    (lineOf (indent ++ word.toList ++ rest)).dropWhile isIndent = word.toList ++ lineOf rest := by
  have front : '\n' ∉ indent ++ word.toList := List.not_mem_append (not_mem_of_all all (by decide)) flat
  rw [lineOf_append_of_not_mem front, List.append_assoc]
  refine dropWhile_span all ?_
  cases letters : word.toList with
  | nil => exact absurd letters filled
  | cons c letters' => simpa [letters] using stop

/-- A line with module syntax is a statement or looks like one. -/
theorem ModuleSyntax.line {v : List Char} (starts : ModuleSyntax v) : StatementLine (lineOf v) ∨ LookalikeLine (lineOf v) := by
  unfold StatementLine LookalikeLine
  cases starts with
  | @exporting indent rest all stop =>
    rw [lineOf_dropWhile_word all (by decide) (by decide) (by decide)]
    cases rest with
    | nil => exact .inl (.inl ⟨[], rfl, by simp⟩)
    | cons c rest =>
      rw [lineOf_cons]
      by_cases newline : c = '\n'
      · exact .inl (.inl ⟨[], by rw [if_pos newline], by simp⟩)
      rw [if_neg newline]
      by_cases dollar : c = '$'
      · exact .inr (.inl ⟨_, rfl, by simp [dollar]⟩)
      · refine .inl (.inl ⟨_, rfl, ?_⟩)
        simpa [isNameChar, dollar] using stop
  | @importing indent gap rest c all blank mark =>
    rw [List.append_assoc, lineOf_dropWhile_word all (by decide) (by decide) (by decide)]
    cases name : startsName (lineOf (gap ++ c :: rest)) with
    | true => exact .inr (.inr ⟨_, rfl, name⟩)
    | false =>
      refine .inl (.inr ⟨_, rfl, startsName_eq_false_iff.1 name, stops_trimStart_lineOf ?_⟩)
      have notBlank : Stops isBlank (c :: rest) := stops_cons.2 (isBlank_of_mark mark)
      rw [trimStart, dropWhile_span blank notBlank, stops_cons]
      rcases mark with name | mark
      · simp only [opensCall, Bool.or_eq_false_iff, beq_eq_false_iff_ne]
        constructor <;> rintro rfl <;> exact absurd name (by decide)
      · simp only [List.mem_cons, List.not_mem_nil, or_false] at mark
        rcases mark with rfl | rfl | rfl | rfl <;> rfl

theorem exists_indent_of_line {v rest : List Char} {word : String}
    (line : (lineOf v).dropWhile isIndent = word.toList ++ rest) :
    ∃ indent more, indent.all isIndent = true ∧ v = indent ++ word.toList ++ (rest ++ more) := by
  obtain ⟨indent, all, whole⟩ := exists_span isIndent (lineOf v)
  obtain ⟨more, split⟩ := exists_lineOf v
  refine ⟨indent, more, all, ?_⟩
  rw [whole, line] at split
  simpa using split

/-- A line that looks like a statement counts as module syntax. -/
theorem LookalikeLine.moduleSyntax {v : List Char} (looks : LookalikeLine (lineOf v)) : ModuleSyntax v := by
  obtain ⟨rest, line, dollar⟩ | ⟨rest, line, name⟩ := looks
  · obtain ⟨indent, more, all, rfl⟩ := exists_indent_of_line line
    refine .exporting all ?_
    cases rest with
    | nil => simp at dollar
    | cons c rest =>
      obtain rfl : c = '$' := by simpa using dollar
      exact stops_cons.2 (by decide)
  · obtain ⟨indent, more, all, rfl⟩ := exists_indent_of_line line
    cases rest with
    | nil => simp [startsName] at name
    | cons c rest =>
      have starts : ModuleSyntax (indent ++ "import".toList ++ [] ++ c :: (rest ++ more)) :=
        .importing all rfl (.inl (by simpa [startsName] using name))
      simpa using starts

/-- A line that goes on with neither a blank nor the first letter of a word does not start with the word. -/
theorem not_startsWith_of_stops {P : List Char → Prop} {line : List Char} {word : String} (stop : Stops startsStatement line)
    (letter : ∃ c ∈ word.toList.head?, startsStatement c = true) : ¬ StartsWith word P (line.dropWhile isIndent) := by
  rintro ⟨rest, whole, _⟩
  obtain ⟨c, here, starts⟩ := letter
  obtain ⟨more, letters⟩ := List.head?_eq_some_iff.1 here
  rw [letters] at whole
  cases line with
  | nil => simp at whole
  | cons d line =>
    have other : startsStatement d = false := by simpa using stop
    have notIndent : ¬ isIndent d = true := by
      intro indent
      simp [startsStatement, indent] at other
    rw [List.dropWhile_cons_of_neg notIndent] at whole
    obtain ⟨rfl, _⟩ := List.cons.inj whole
    simp [other] at starts

theorem not_statementLine_of_stops {line : List Char} (stop : Stops startsStatement line) : ¬ StatementLine line :=
  not_or.2 ⟨not_startsWith_of_stops stop ⟨'e', rfl, rfl⟩, not_startsWith_of_stops stop ⟨'i', rfl, rfl⟩⟩

theorem not_lookalikeLine_of_stops {line : List Char} (stop : Stops startsStatement line) : ¬ LookalikeLine line :=
  not_or.2 ⟨not_startsWith_of_stops stop ⟨'e', rfl, rfl⟩, not_startsWith_of_stops stop ⟨'i', rfl, rfl⟩⟩

/-! ## Completeness -/

/-- A module whose clause can be read, with one default entry and a function for it before the clause,
is accepted exactly when no line looks like a statement: outside the clause no line may be a statement,
and each declaration is alone on its line. A line within a declaration of hooks does not count. -/
theorem toFactory_ok_iff_no_lookalike {source : String} {specifier : ExportSpecifier} (named : options.Named)
    (found : findExportClause source.toList = .ok clause) (single : clause.defaults = [specifier])
    (declared : DeclaresFunction options.defaultBinding.toList (source.toList.take clause.start))
    (plain : clause.EveryLineOutside (fun _ _ v => ¬ StatementLine (lineOf v)) source.toList)
    (alone : clause.EveryLineOutside (fun _ _ v => DeclaresAlone v) source.toList) :
    (∃ module, toFactory options source = .ok module) ↔
      clause.EveryLineOutside
        (fun first u v => LookalikeLine (lineOf v) → InsideDeclaration options.hooks first u v) source.toList := by
  obtain ⟨before, text, behind, inner, stands⟩ := findExportClause_eq_ok_iff.1 found
  have statements : EveryLine none (fun _ v => ¬ StatementLine (lineOf v)) (factoryBody options clause source.toList) := by
    rw [everyLine_factoryBody_iff (fun _ => not_statementLine_of_stops) named stands alone]
    exact ⟨plain.1.imp fun _ _ => .inr, plain.2.imp fun _ _ => .inr⟩
  have accepted : (∃ module, toFactory options source = .ok module) ↔
      EveryLine none (fun _ v => ¬ ModuleSyntax v) (factoryBody options clause source.toList) := by
    simp only [toFactory_eq_ok_iff, found, Except.ok.injEq]
    constructor
    · rintro ⟨_, _, _, rfl, _, clean, _⟩
      exact clean
    · intro clean
      exact ⟨_, clause, specifier, rfl, single, clean, declaresTopLevel_of_function declared, rfl⟩
  -- The body has no statement either, so what the check finds in it can only look like one.
  have lookalikes : EveryLine none (fun _ v => ¬ ModuleSyntax v) (factoryBody options clause source.toList) ↔
      EveryLine none (fun _ v => ¬ LookalikeLine (lineOf v)) (factoryBody options clause source.toList) :=
    everyLine_iff fun u v whole line => not_congr ⟨fun starts => starts.line.resolve_left (statements u v whole line),
      LookalikeLine.moduleSyntax⟩
  rw [accepted, lookalikes,
    everyLine_factoryBody_iff (fun _ => not_lookalikeLine_of_stops) named stands alone]
  have either : ∀ first u v, (InsideDeclaration options.hooks first u v ∨ ¬ LookalikeLine (lineOf v)) ↔
      (LookalikeLine (lineOf v) → InsideDeclaration options.hooks first u v) := fun _ _ _ =>
    or_comm.trans Decidable.imp_iff_not_or.symm
  simp only [either]

/-- A loader that assigns to a property of `imports`. -/
def importsLoader : String :=
  "function __wbg_init() \x7b\x7d\n  imports.wbg = \x7b\x7d;\nexport \x7b __wbg_init as default \x7d;\n"

/-- The export clause of that loader. -/
def importsClause : ExportClause := ⟨45, 78, [⟨"__wbg_init".toList, defaultName⟩]⟩

/-- The loader is rejected, although none of its lines is a statement: `imports` looks like one. -/
theorem toFactory_importsLoader :
    importsClause.EveryLineOutside (fun _ _ v => ¬ StatementLine (lineOf v)) importsLoader.toList ∧
      ¬ ∃ module, toFactory {} importsLoader = .ok module := by
  have found : findExportClause importsLoader.toList = .ok importsClause := by decide +kernel
  have single : importsClause.defaults = [⟨"__wbg_init".toList, defaultName⟩] := by decide
  have plain : importsClause.EveryLineOutside (fun _ _ v => ¬ StatementLine (lineOf v)) importsLoader.toList := by
    decide
  have forwards : importsClause.EveryLineOutside (fun _ _ v => forward none v = none) importsLoader.toList := by
    decide
  have function : FunctionText "__wbg_init".toList
      ([] ++ "function".toList ++ [' '] ++ "__wbg_init".toList ++ "() \x7b\x7d\n  imports.wbg = \x7b\x7d;\n".toList) :=
    .mk (.inl rfl) (.inl ⟨by decide, by decide⟩) (by decide)
  have declared : DeclaresFunction "__wbg_init".toList (importsLoader.toList.take importsClause.start) :=
    ⟨[], _, by decide, rfl, function⟩
  refine ⟨plain, ?_⟩
  rw [toFactory_ok_iff_no_lookalike LoaderOptions.named_default found single declared plain
    ⟨forwards.1.imp fun _ _ => declaresAlone_of_none, forwards.2.imp fun _ _ => declaresAlone_of_none⟩]
  intro every
  have whole : importsLoader.toList.take importsClause.start =
      "function __wbg_init() \x7b\x7d\n".toList ++ "  imports.wbg = \x7b\x7d;\n".toList := by decide
  have inside := every.1 _ _ whole rfl (by decide)
  exact not_insideDeclaration_of_none (whole ▸ forwards.1) inside

/-! ## Soundness -/

theorem factoryBody_congr {other : ExportClause} {s t : List Char} (specifiers : clause.specifiers = other.specifiers)
    (before : s.take clause.start = t.take other.start) (behind : s.drop clause.stop = t.drop other.stop) :
    factoryBody options clause s = factoryBody options other t := by
  unfold factoryBody returnStatement returnedEntries
  rw [specifiers, before, behind]

/-- No line of an accepted module's body starts with module syntax. What follows the clause is not
looked at, though: a module whose clause no semicolon closes becomes the same factory, or is rejected
for the same reason, as when a semicolon closes it, even if the clause goes on with `from`. -/
theorem body_clean_and_toFactory_of_open_clause (options : LoaderOptions) (source : String) :
    (∀ module, toFactory options source = .ok module →
      ∃ clause, findExportClause source.toList = .ok clause ∧
        module = factoryModule options (factoryBody options clause source.toList) ∧
        EveryLine none (fun _ v => ¬ ModuleSyntax v) (factoryBody options clause source.toList)) ∧
    ∀ before text behind inner, LastClause source.toList before text behind inner → text.getLast? ≠ some ';' →
      toFactory options source = toFactory options (String.ofList (before ++ text ++ ';' :: behind)) := by
  constructor
  · intro module accepted
    obtain ⟨clause, _, found, _, clean, _, rfl⟩ := toFactory_eq_ok_iff.1 accepted
    exact ⟨clause, found, rfl, clean⟩
  · intro before text behind inner last unclosed
    have found := last.findExportClause_eq
    have closed := (last.close unclosed).findExportClause_eq
    have front : source.toList.take before.length = (before ++ text ++ ';' :: behind).take before.length := by
      rw [last.whole, List.append_assoc, List.append_assoc, List.take_left, List.take_left]
    have rest : source.toList.drop (before ++ text).length =
        (before ++ text ++ ';' :: behind).drop (before ++ (text ++ [';'])).length := by
      rw [last.whole, List.drop_left]
      simp
    simp only [toFactory, String.toList_ofList, found, closed]
    cases specifiersOf inner with
    | error cause => rfl
    | ok specifiers =>
      have body : factoryBody options ⟨before.length, (before ++ text).length, specifiers⟩ source.toList =
          factoryBody options ⟨before.length, (before ++ (text ++ [';'])).length, specifiers⟩
            (before ++ text ++ ';' :: behind) := factoryBody_congr rfl front rest
      simp only [Except.map, bind, Except.bind]
      rw [body, front]
      rfl

/-- A loader that exports again what another module exports. -/
def reexportingLoader : String :=
  "function __wbg_init() \x7b\x7d\nexport \x7b __wbg_init as default \x7d from './x.js';\n"

/-- The factory that this loader becomes. Its body goes on with `from` behind the return statement. -/
def reexportingFactory : String :=
  "import \x7b startWorkers, terminateWorkers \x7d from '../bindings/js/web/worker-helpers.js';\n" ++
    "export default plonkWasm;\nfunction plonkWasm() \x7b\nfunction __wbg_init() \x7b\x7d\n" ++
    "return \x7b default: __wbg_init \x7d;from './x.js';\n\x7d\n" ++
    "plonkWasm.deps = [startWorkers, terminateWorkers];\n"

/-- The loader becomes a factory, as it does when a semicolon closes its clause. -/
theorem toFactory_reexportingLoader :
    toFactory {} reexportingLoader = .ok reexportingFactory ∧
      ∃ clause, findExportClause reexportingLoader.toList = .ok clause ∧
        EveryLine none (fun _ v => ¬ ModuleSyntax v) (factoryBody {} clause reexportingLoader.toList) := by
  have rules := body_clean_and_toFactory_of_open_clause {} reexportingLoader
  have last : LastClause reexportingLoader.toList "function __wbg_init() \x7b\x7d\n".toList
      "export \x7b __wbg_init as default \x7d ".toList "from './x.js';\n".toList " __wbg_init as default ".toList :=
    ⟨by decide, by decide, by decide, by decide⟩
  have closed : toFactory {} (String.ofList ("function __wbg_init() \x7b\x7d\n".toList ++
      "export \x7b __wbg_init as default \x7d ".toList ++ ';' :: "from './x.js';\n".toList)) = .ok reexportingFactory := by
    decide +kernel
  have accepted := (rules.2 _ _ _ _ last (by decide)).trans closed
  obtain ⟨clause, found, _, clean⟩ := rules.1 _ accepted
  exact ⟨accepted, clause, found, clean⟩

end WasmPackaging.Loader
