import WasmPackaging.Proofs.Loader.Clause
import WasmPackaging.Proofs.Loader.Statement
import WasmPackaging.Proofs.Loader.Stripping

/-!
The body of a factory, taken apart at the statement that replaces the export clause. Main facts: no
declaration reaches into that statement, so the texts before and behind it are stripped on their own
(`factoryBody_eq`), and a module is accepted exactly when its one clause, its default entry and the
lines of its body are in order (`toFactory_eq_ok_iff`).
-/

namespace WasmPackaging

open Text

/-- The names among the options are names. -/
structure LoaderOptions.Named (options : LoaderOptions) : Prop where
  hooks : ∀ hook ∈ options.workerHooks, isName hook.toList = true
  binding : isName options.defaultBinding.toList = true
  factory : isName options.factoryName.toList = true

theorem LoaderOptions.named_default : LoaderOptions.Named {} :=
  ⟨by decide, by decide, by decide⟩

/-- The names that are no longer declared in a factory's body. -/
def LoaderOptions.hooks (options : LoaderOptions) : List (List Char) := options.workerHooks.map String.toList

end WasmPackaging

namespace WasmPackaging.Loader

open Text

variable {options : LoaderOptions} {clause : ExportClause}

/-! ## The statement that returns the exports -/

/-- Whether a character may stand in an entry of the returned object. -/
def isEntryChar (c : Char) : Bool := isNameChar c || c == ':' || c == ' '

theorem all_isEntryChar {name : List Char} (valid : isName name = true) : name.all isEntryChar = true :=
  all_of_all (isName_iff.1 valid).2 fun c h => by simp [isEntryChar, h]

theorem all_property {specifier : ExportSpecifier} (valid : specifier.Named) :
    specifier.property.all isEntryChar = true := by
  unfold ExportSpecifier.property
  split
  · exact all_isEntryChar valid.localName
  · simp only [List.all_append, Bool.and_eq_true]
    exact ⟨⟨all_isEntryChar valid.exported, by decide⟩, all_isEntryChar valid.localName⟩

/-- The entry of an exported binding in the returned object. -/
def ExportSpecifier.entry (options : LoaderOptions) (specifier : ExportSpecifier) : List Char :=
  if specifier.isDefault then s!"default: {options.defaultBinding}".toList else specifier.property

theorem returnedEntries_eq (options : LoaderOptions) (clause : ExportClause) :
    returnedEntries options clause = clause.specifiers.map (ExportSpecifier.entry options) := rfl

theorem toList_defaultEntry (binding : String) :
    (s!"default: {binding}").toList = defaultName ++ [':', ' '] ++ binding.toList := by
  rw [String.toList_append]
  rfl

theorem all_entry {specifier : ExportSpecifier} (named : options.Named) (valid : specifier.Named) :
    (specifier.entry options).all isEntryChar = true := by
  unfold ExportSpecifier.entry
  split
  · rw [toList_defaultEntry]
    simp only [List.all_append, Bool.and_eq_true]
    exact ⟨⟨by decide, by decide⟩, all_isEntryChar named.binding⟩
  · exact all_property valid

/-- The returned object between its braces. -/
def returnedText (options : LoaderOptions) (clause : ExportClause) : List Char :=
  ' ' :: joinWith [',', ' '] (returnedEntries options clause) ++ [' ']

theorem returnStatement_eq (options : LoaderOptions) (clause : ExportClause) :
    returnStatement options clause = "return ".toList ++ '{' :: returnedText options clause ++ ['}', ';'] := by
  have opening : "return \x7b ".toList = "return ".toList ++ ['{', ' '] := by decide
  have closing : " \x7d;".toList = [' ', '}', ';'] := by decide
  unfold returnStatement returnedText
  rw [opening, closing]
  simp only [List.append_assoc, List.cons_append, List.nil_append]

theorem not_mem_returnedText {c : Char} (other : isEntryChar c = false) (comma : c ≠ ',') (named : options.Named)
    (valid : ∀ specifier ∈ clause.specifiers, specifier.Named) :
    c ∉ returnedText options clause := by
  have space : c ≠ ' ' := by
    rintro rfl
    exact absurd other (by decide)
  have entries : c ∉ joinWith [',', ' '] (returnedEntries options clause) :=
    not_mem_joinWith (by simp [comma, space]) fun entry listed => by
      rw [returnedEntries_eq] at listed
      obtain ⟨specifier, member, rfl⟩ := List.mem_map.1 listed
      exact not_mem_of_all (all_entry named (valid specifier member)) other
  simp [returnedText, space, entries]

theorem not_mem_returnStatement (named : options.Named)
    (valid : ∀ specifier ∈ clause.specifiers, specifier.Named) :
    '\n' ∉ returnStatement options clause := by
  have inner := not_mem_returnedText (c := '\n') (by decide) (by decide) named valid
  rw [returnStatement_eq]
  simp [inner]

/-! ## The body -/

/-- No declaration starts at the return statement or on its line. -/
theorem forward_returnStatement {first : Option Char} {u v behind : List Char} (flat : '\n' ∉ returnStatement options clause)
    (whole : returnStatement options clause = u ++ v) : forward (charBefore first u) (v ++ behind) = none := by
  rw [forward_lined]
  split
  · rename_i line
    by_cases front : u = []
    · subst front
      rw [List.nil_append] at whole
      rw [← whole, returnStatement_eq]
      rfl
    · obtain ⟨x, rfl⟩ := exists_eq_append_newline front line
      exact absurd (by simp [whole]) flat
  · rfl

theorem charBefore_returnStatement (first : Option Char) : charBefore first (returnStatement options clause) = some ';' := by
  rw [returnStatement_eq, charBefore_append]
  rfl

theorem LastClause.ends {s before text behind inner u v : List Char} (last : LastClause s before text behind inner)
    (split : before = u ++ v) (filled : v ≠ []) : ∃ x, v = x ++ ['\n'] := by
  have line := last.line
  rw [split, charBefore_append] at line
  exact exists_eq_append_newline filled line

theorem factoryBody_eq {s before text behind inner : List Char} (named : options.Named)
    (stands : clause.StandsIn s before text behind inner) :
    factoryBody options clause s =
      stripFrom options.hooks none before ++ returnStatement options clause ++ stripFrom options.hooks (some ';') behind := by
  have flat := not_mem_returnStatement named stands.entries.named
  have border : stripFrom options.hooks none (before ++ (returnStatement options clause ++ behind)) =
      stripFrom options.hooks none before ++
        stripFrom options.hooks (charBefore none before) (returnStatement options clause ++ behind) :=
    replaceFrom_append forward_cuts fun u v split filled => by
      rw [returnStatement_eq, List.append_assoc, List.append_assoc]
      exact forward_append_of_lines (stands.ends split filled) rfl (by decide)
  have skip : stripFrom options.hooks (charBefore none before) (returnStatement options clause ++ behind) =
      returnStatement options clause ++ stripFrom options.hooks (some ';') behind := by
    have passed : stripFrom options.hooks (charBefore none before) (returnStatement options clause ++ behind) =
        returnStatement options clause ++
          stripFrom options.hooks (charBefore (charBefore none before) (returnStatement options clause)) behind :=
      replaceFrom_skip fun u v whole _ => forward_returnStatement flat whole
    rw [passed, charBefore_returnStatement]
  rw [factoryBody, stripForward_eq, stands.take_start, stands.drop_stop, List.append_assoc, List.append_assoc]
  exact border.trans (congrArg _ skip)

/-! ## Lines -/

/-- Every line of a module outside its export clause. The lines behind the clause are read as a text of
their own, whose first character follows the last of the clause. -/
def ExportClause.EveryLineOutside (clause : ExportClause) (P : Option Char → List Char → List Char → Prop)
    (s : List Char) : Prop :=
  EveryLine none (P none) (s.take clause.start) ∧
    EveryLine (s.take clause.stop).getLast? (P (s.take clause.stop).getLast?) (s.drop clause.stop)

instance {P : Option Char → List Char → List Char → Prop} {s : List Char} [∀ first u v, Decidable (P first u v)] :
    Decidable (clause.EveryLineOutside P s) := inferInstanceAs (Decidable (_ ∧ _))

theorem everyLineOutside_iff {P : Option Char → List Char → List Char → Prop} {s before text behind inner : List Char}
    (same : ∀ first other u v, atLineStart first = atLineStart other → (P first u v ↔ P other u v))
    (stands : clause.StandsIn s before text behind inner) :
    clause.EveryLineOutside P s ↔ EveryLine none (P none) before ∧ EveryLine (some ';') (P (some ';')) behind := by
  have closes : atLineStart (before ++ text).getLast? = atLineStart (some ';') := by
    have within := stands.closes none
    rw [charBefore, Option.or_none] at within
    exact within
  unfold ExportClause.EveryLineOutside
  rw [stands.take_start, stands.take_stop, stands.drop_stop, everyLine_congr closes]
  exact and_congr Iff.rfl (everyLine_iff fun u v _ _ => same _ _ u v closes)

/-- The return statement ends on the line it starts, and that line starts no statement of the module. -/
theorem everyLine_around_return {Q : List Char → Prop} (plain : ∀ line, Stops startsStatement line → Q line)
    (flat : '\n' ∉ returnStatement options clause) {a b : List Char} (lines : atLineStart (charBefore none a) = true) :
    EveryLine none (fun _ v => Q (lineOf v)) (a ++ returnStatement options clause ++ b) ↔
      EveryLine none (fun _ v => Q (lineOf v)) a ∧ EveryLine (some ';') (fun _ v => Q (lineOf v)) b := by
  have returned : EveryLine (charBefore none a) (fun _ v => v ≠ [] → Q (lineOf (v ++ b))) (returnStatement options clause) := by
    refine (everyLine_congr (lines.trans atLineStart_none.symm)).2 ((everyLine_of_flat flat).2 fun _ => ?_)
    refine plain _ ?_
    rw [returnStatement_eq]
    simp [lineOf, startsStatement, isIndent]
  rw [List.append_assoc, everyLine_append, everyLine_append, charBefore_returnStatement, and_iff_right returned]
  refine and_congr (everyLine_iff fun u v whole start => ?_) Iff.rfl
  by_cases filled : v = []
  · subst filled
    simpa [lineOf] using plain [] (by simp)
  · have ends : ∃ x, v = x ++ ['\n'] := by
      rw [whole, charBefore_append] at lines
      exact exists_eq_append_newline filled lines
    obtain ⟨x, rfl⟩ := ends
    rw [lineOf_append_of_mem (by simp)]
    exact imp_iff_right filled

/-- Where every declaration is alone on its line, the lines of a body are those of the module outside
the clause and outside the declarations of hooks, but for lines that start no statement. -/
theorem everyLine_factoryBody_iff {Q : List Char → Prop} {s before text behind inner : List Char}
    (plain : ∀ line, Stops startsStatement line → Q line) (named : options.Named)
    (stands : clause.StandsIn s before text behind inner)
    (alone : clause.EveryLineOutside (fun _ _ v => DeclaresAlone v) s) :
    EveryLine none (fun _ v => Q (lineOf v)) (factoryBody options clause s) ↔
      clause.EveryLineOutside (fun first u v => InsideDeclaration options.hooks first u v ∨ Q (lineOf v)) s := by
  rw [everyLineOutside_iff (fun _ _ _ _ _ => Iff.rfl) stands] at alone
  rw [everyLineOutside_iff (P := fun first u v => InsideDeclaration options.hooks first u v ∨ Q (lineOf v))
    (fun _ _ _ _ same => or_congr_left (insideDeclaration_congr same)) stands, factoryBody_eq named stands,
    everyLine_around_return plain (not_mem_returnStatement named stands.entries.named)
      (atLineStart_stripFrom none stands.line),
    everyLine_stripFrom_iff plain none alone.1, everyLine_stripFrom_iff plain (some ';') alone.2]

/-! ## Acceptance -/

theorem default?_eq_ok_iff {specifier : ExportSpecifier} :
    clause.default? = .ok specifier ↔ clause.defaults = [specifier] := by
  unfold ExportClause.default?
  rcases clause.defaults with _ | ⟨a, _ | ⟨b, rest⟩⟩ <;> simp

/-- A module is accepted exactly when its clause can be read and has one default entry, no line of the
body starts with module syntax and the text before the clause declares the binding. -/
theorem toFactory_eq_ok_iff {source module : String} :
    toFactory options source = .ok module ↔
      ∃ clause specifier, findExportClause source.toList = .ok clause ∧ clause.defaults = [specifier] ∧
        EveryLine none (fun _ v => ¬ ModuleSyntax v) (factoryBody options clause source.toList) ∧
        declaresTopLevel options.defaultBinding.toList (source.toList.take clause.start) = true ∧
        module = factoryModule options (factoryBody options clause source.toList) := by
  simp only [← default?_eq_ok_iff, ← strayLine?_eq_none_iff]
  constructor
  · intro accepted
    unfold toFactory at accepted
    cases found : findExportClause source.toList with
    | error cause => simp [found, bind, Except.bind] at accepted
    | ok clause =>
      cases single : clause.default? with
      | error cause => simp [found, single, bind, Except.bind] at accepted
      | ok specifier =>
        simp only [found, single, bind, Except.bind] at accepted
        split at accepted
        · simp at accepted
        · rename_i clean
          split at accepted
          · rename_i declared
            exact ⟨clause, specifier, rfl, single, clean, declared, (Except.ok.inj accepted).symm⟩
          · simp at accepted
  · rintro ⟨clause, specifier, found, single, clean, declared, rfl⟩
    simp [toFactory, found, single, clean, declared, bind, Except.bind, pure, Except.pure]

end WasmPackaging.Loader
