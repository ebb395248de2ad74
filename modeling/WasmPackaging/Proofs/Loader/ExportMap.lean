import Mathlib.Control.Monad.Basic
import WasmPackaging.Proofs.Loader.FactoryBody

/-!
What a factory returns, read back from its text. Main facts: the return statement lists the exported
names with their bindings (`readReturned_returnStatement`), and but for that statement and the
declarations of hooks a factory's body is the module's text (`toFactory_preserves_exports`).
-/

namespace WasmPackaging.Loader

open Text

variable {options : LoaderOptions} {clause : ExportClause}

/-! ## Reading an object back -/

/-- Reads an entry of an object: a name alone is its key and its value, else a colon stands between
the two. -/
def readProperty (entry : List Char) : Option (List Char × List Char) :=
  match splitAt ':' entry with
  | [name] => some (trim name, trim name)
  | [key, value] => some (trim key, trim value)
  | _ => none

/-- Reads the entries of an object from the text between its braces. -/
def readProperties (inner : List Char) : Option (List (List Char × List Char)) :=
  (splitAt ',' inner).mapM readProperty

/-- Reads the entries of a statement that returns an object and ends with a semicolon. -/
def readReturned (statement : List Char) : Option (List (List Char × List Char)) := do
  let s ← afterWord? "return" statement
  let s ← after? ['{'] (trimStart s)
  let rest ← after? ['}'] (s.dropWhile isClauseChar)
  if rest = [';'] then readProperties (s.takeWhile isClauseChar) else none

theorem readProperty_name {a b name : List Char} (before : a.all isBlank = true) (valid : isName name = true)
    (behind : b.all isBlank = true) : readProperty (a ++ name ++ b) = some (name, name) := by
  have plain : ':' ∉ a ++ name ++ b :=
    List.not_mem_append (List.not_mem_append (not_mem_of_all before (by decide))
      (not_mem_of_all (isName_iff.1 valid).2 (by decide))) (not_mem_of_all behind (by decide))
  rw [readProperty, splitAt_of_not_mem plain]
  simp only [trim_name before valid behind]

theorem readProperty_pair {a b key value : List Char} (before : a.all isBlank = true) (valid : isName key = true)
    (valid' : isName value = true) (behind : b.all isBlank = true) :
    readProperty (a ++ (key ++ [':', ' '] ++ value) ++ b) = some (key, value) := by
  have plain : ':' ∉ a ++ key :=
    List.not_mem_append (not_mem_of_all before (by decide)) (not_mem_of_all (isName_iff.1 valid).2 (by decide))
  have plain' : ':' ∉ ' ' :: (value ++ b) := by
    refine List.not_mem_cons_of_ne_of_not_mem (by decide) (List.not_mem_append ?_ (not_mem_of_all behind (by decide)))
    exact not_mem_of_all (isName_iff.1 valid').2 (by decide)
  have split : a ++ (key ++ [':', ' '] ++ value) ++ b = a ++ key ++ ':' :: ' ' :: (value ++ b) := by simp
  have front : trim (a ++ key) = key := by simpa using trim_name before valid (b := []) rfl
  have back : trim (' ' :: (value ++ b)) = value := trim_name (a := [' ']) (by decide) valid' behind
  rw [readProperty, split, splitAt_append_cons plain, splitAt_of_not_mem plain']
  simp only [front, back]

/-! ## The returned entries -/

/-- The name and the value under which a factory returns an exported binding. -/
def ExportSpecifier.returned (options : LoaderOptions) (specifier : ExportSpecifier) : List Char × List Char :=
  (specifier.exported, if specifier.isDefault then options.defaultBinding.toList else specifier.localName)

theorem readProperty_entry {a b : List Char} {specifier : ExportSpecifier} (before : a.all isBlank = true)
    (behind : b.all isBlank = true) (named : options.Named)
    (valid : specifier.Named) :
    readProperty (a ++ specifier.entry options ++ b) = some (specifier.returned options) := by
  unfold ExportSpecifier.entry ExportSpecifier.returned
  by_cases default : specifier.isDefault = true
  · have exported : specifier.exported = defaultName := by simpa [ExportSpecifier.isDefault] using default
    rw [if_pos default, if_pos default, toList_defaultEntry, exported]
    exact readProperty_pair before (by decide) named.binding behind
  · rw [if_neg default, if_neg default, ExportSpecifier.property]
    by_cases same : specifier.localName = specifier.exported
    · rw [if_pos same, ← same]
      exact readProperty_name before valid.localName behind
    · rw [if_neg same]
      exact readProperty_pair before valid.exported valid.localName behind

theorem readProperties_entries (named : options.Named) {specifiers : List ExportSpecifier} (filled : specifiers ≠ [])
    (valid : ∀ specifier ∈ specifiers, specifier.Named) :
    readProperties (' ' :: joinWith [',', ' '] (specifiers.map (ExportSpecifier.entry options)) ++ [' ']) =
      some (specifiers.map (ExportSpecifier.returned options)) := by
  induction specifiers with
  | nil => exact absurd rfl filled
  | cons specifier rest ih =>
    have here := valid specifier (by simp)
    have plain : ',' ∉ ' ' :: specifier.entry options :=
      List.not_mem_cons_of_ne_of_not_mem (by decide) (not_mem_of_all (all_entry named here) (by decide))
    cases rest with
    | nil =>
      have read : readProperty (' ' :: specifier.entry options ++ [' ']) = some (specifier.returned options) :=
        readProperty_entry (a := [' ']) (by decide) (by decide) named here
      have whole : splitAt ',' (' ' :: specifier.entry options ++ [' ']) = [' ' :: specifier.entry options ++ [' ']] :=
        splitAt_of_not_mem (List.not_mem_append plain (by decide))
      change (splitAt ',' (' ' :: specifier.entry options ++ [' '])).mapM readProperty = some [specifier.returned options]
      rw [whole, List.mapM_cons, read]
      rfl
    | cons next more =>
      have read : readProperty (' ' :: specifier.entry options) = some (specifier.returned options) := by
        simpa using readProperty_entry (a := [' ']) (b := []) (by decide) rfl named here
      have later := ih (by simp) fun other listed => valid other (by simp [listed])
      have whole : ' ' :: joinWith [',', ' '] ((specifier :: next :: more).map (ExportSpecifier.entry options)) ++ [' '] =
          ' ' :: specifier.entry options ++
            ',' :: (' ' :: joinWith [',', ' '] ((next :: more).map (ExportSpecifier.entry options)) ++ [' ']) := by
        simp [joinWith]
      unfold readProperties at later ⊢
      rw [whole, splitAt_append_cons plain, List.mapM_cons, read, later]
      rfl

/-- The return statement lists the exported names, in the order of the clause. -/
theorem readReturned_returnStatement (named : options.Named) (filled : clause.specifiers ≠ [])
    (valid : ∀ specifier ∈ clause.specifiers, specifier.Named) :
    readReturned (returnStatement options clause) = some (clause.specifiers.map (ExportSpecifier.returned options)) := by
  have inside : (returnedText options clause).all isClauseChar = true := by
    have opening := not_mem_returnedText (c := '{') (by decide) (by decide) named valid
    have closing := not_mem_returnedText (c := '}') (by decide) (by decide) named valid
    refine List.all_eq_true.2 fun c listed => ?_
    simp only [isClauseChar, Bool.and_eq_true, bne_iff_ne]
    constructor <;> rintro rfl
    · exact opening listed
    · exact closing listed
  have stop : Stops isClauseChar ['}', ';'] := by decide
  have word : afterWord? "return" (returnStatement options clause) =
      some (' ' :: '{' :: (returnedText options clause ++ ['}', ';'])) := by
    have space : "return ".toList = "return".toList ++ [' '] := by decide
    rw [returnStatement_eq, space]
    exact after?_eq_some_iff.2 (by simp)
  have brace : trimStart (' ' :: '{' :: (returnedText options clause ++ ['}', ';'])) =
      '{' :: (returnedText options clause ++ ['}', ';']) := dropWhile_span (a := [' ']) (by decide) (stops_cons.2 (by decide))
  have opened : after? ['{'] ('{' :: (returnedText options clause ++ ['}', ';'])) =
      some (returnedText options clause ++ ['}', ';']) := after?_eq_some_iff.2 rfl
  have closed : after? ['}'] ['}', ';'] = some [';'] := rfl
  unfold readReturned
  simp only [word, brace, opened, closed, Option.bind_eq_bind, Option.bind_some, takeWhile_span inside stop,
    dropWhile_span inside stop]
  exact readProperties_entries named filled valid

/-! ## The module around it -/

/-- A factory's body is the module with the return statement in the place of its clause, but for the
declarations of hooks. The statement returns each exported binding under its exported name, and the
configured binding as the default. -/
theorem toFactory_preserves_exports {source module : String} (named : options.Named)
    (accepted : toFactory options source = .ok module) :
    ∃ clause specifier before text behind inner before' returned behind',
      findExportClause source.toList = .ok clause ∧ clause.StandsIn source.toList before text behind inner ∧
      clause.defaults = [specifier] ∧
      module = factoryModule options (before' ++ returned ++ behind') ∧
      WithoutNames options.hooks none before before' ∧ WithoutNames options.hooks (some ';') behind behind' ∧
      readReturned returned = some (clause.specifiers.map fun specifier => (specifier.exported,
        if specifier.isDefault then options.defaultBinding.toList else specifier.localName)) := by
  obtain ⟨clause, specifier, found, single, _, _, rfl⟩ := toFactory_eq_ok_iff.1 accepted
  obtain ⟨before, text, behind, inner, stands⟩ := findExportClause_eq_ok_iff.1 found
  have filled : clause.specifiers ≠ [] := by
    intro empty
    simp [ExportClause.defaults, empty] at single
  have read := readReturned_returnStatement named filled stands.entries.named
  refine ⟨clause, specifier, before, text, behind, inner, _, _, _, found, stands, single, ?_,
    withoutNames_stripFrom none before, withoutNames_stripFrom (some ';') behind, read⟩
  rw [factoryBody_eq named stands]

/-- A loader that declares a hook beside another name and exports that name twice. -/
def hookLoader : String :=
  "let startWorkers, ready;\nfunction __wbg_init() \x7b\x7d\n" ++
    "export \x7b ready as isReady, __wbg_init as default, ready \x7d;\n"

theorem toFactory_hookLoader :
    ∃ module before' returned behind', toFactory {} hookLoader = .ok module ∧
      module = factoryModule {} (before' ++ returned ++ behind') ∧
      readReturned returned = some [("isReady".toList, "ready".toList), ("default".toList, "__wbg_init".toList),
        ("ready".toList, "ready".toList)] := by
  have accepted : (toFactory {} hookLoader).toOption.isSome = true := by decide +kernel
  cases result : toFactory {} hookLoader with
  | error cause => simp [result, Except.toOption] at accepted
  | ok module =>
    obtain ⟨clause, _, _, _, _, _, before', returned, behind', found, _, _, whole, _, _, read⟩ :=
      toFactory_preserves_exports LoaderOptions.named_default result
    refine ⟨module, before', returned, behind', rfl, whole, ?_⟩
    have entries : (findExportClause hookLoader.toList).map ExportClause.specifiers =
        .ok [⟨"ready".toList, "isReady".toList⟩, ⟨"__wbg_init".toList, "default".toList⟩,
          ⟨"ready".toList, "ready".toList⟩] := by decide +kernel
    rw [found] at entries
    rw [read, Except.ok.inj entries]
    decide

end WasmPackaging.Loader
