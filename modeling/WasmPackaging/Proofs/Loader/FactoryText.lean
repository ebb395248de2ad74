import Mathlib.Control.Monad.Basic
import WasmPackaging.Proofs.Loader.FactoryBody

/-!
The text of a factory module, line by line. Main fact: no line of it starts an export clause, so a
factory module is never accepted again (`toFactory_of_factoryModule`).
-/

namespace WasmPackaging.Loader

open Text

variable {options : LoaderOptions}

theorem toList_commaList (items : List String) :
    (commaList items).toList = joinWith [',', ' '] (items.map String.toList) := by
  unfold commaList
  induction items with
  | nil => simp [joinWith]
  | cons item items ih =>
    cases items with
    | nil => simp [joinWith]
    | cons next more =>
      rw [String.intercalate_cons_cons, String.toList_append, String.toList_append, ih]
      rfl

/-- The line that imports the hooks. -/
def importLine (options : LoaderOptions) : List Char :=
  "import \x7b ".toList ++ (commaList options.workerHooks).toList ++ " \x7d from '".toList ++
    options.helpersModule.toList ++ "';".toList

/-- The line that exports the factory. -/
def exportLine (options : LoaderOptions) : List Char :=
  "export default ".toList ++ options.factoryName.toList ++ [';']

/-- The line that opens the factory. -/
def functionLine (options : LoaderOptions) : List Char :=
  "function ".toList ++ options.factoryName.toList ++ "() \x7b".toList

/-- The line that lists the factory's dependencies. -/
def depsLine (options : LoaderOptions) : List Char :=
  options.factoryName.toList ++ ".deps = [".toList ++ (commaList options.workerHooks).toList ++ "];".toList

theorem toList_factoryModule (options : LoaderOptions) (body : List Char) :
    (factoryModule options body).toList =
      importLine options ++ '\n' :: (exportLine options ++ '\n' :: (functionLine options ++ '\n' ::
        (trimEnd body ++ '\n' :: (['}'] ++ '\n' :: (depsLine options ++ '\n' :: []))))) := by
  have quote : "';\n".toList = "';".toList ++ ['\n'] := by decide
  have close : ";\n".toList = [';', '\n'] := by decide
  have opening : "() \x7b\n".toList = "() \x7b".toList ++ ['\n'] := by decide
  have brace : "\n\x7d\n".toList = ['\n', '}', '\n'] := by decide
  have bracket : "];\n".toList = "];".toList ++ ['\n'] := by decide
  unfold factoryModule importLine exportLine functionLine depsLine
  simp only [String.toList_append, toString, String.toList_ofList]
  rw [quote, close, opening, brace, bracket]
  simp only [List.append_assoc, List.cons_append, List.nil_append]

/-! ## Lines that start no clause -/

/-- Whether a character may stand before the opening brace of a clause. -/
def isFrontChar (c : Char) : Bool := isNameChar c || isBlank c

/-- A line with another mark before any opening brace starts no clause. -/
theorem exportClause_eq_none_of_mark {line a z : List Char} {c : Char} (split : line = a ++ c :: z)
    (front : a.all isFrontChar = true) (other : isFrontChar c = false) (brace : c ≠ '{') (b : List Char) :
    exportClause none (line ++ b) = none := by
  cases found : exportClause none (line ++ b) with
  | none => rfl
  | some result =>
    obtain ⟨_, text, behind, clause, whole, _⟩ := exportClause_iff.1 found
    obtain ⟨indent, gap, allIndent, allBlank, clauseSplit⟩ := clause.exists_front behind
    have opening : (indent ++ "export".toList ++ gap).all isFrontChar = true := by
      simp only [List.all_append, Bool.and_eq_true]
      exact ⟨⟨all_of_all allIndent fun c h => by simp [isFrontChar, isBlank_of_isIndent h], by decide⟩,
        all_of_all allBlank fun c h => by simp [isFrontChar, h]⟩
    have first : (line ++ b).dropWhile isFrontChar = c :: (z ++ b) := by
      rw [split, List.append_assoc]
      exact dropWhile_span front (stops_cons.2 other)
    rw [whole, clauseSplit, ← List.append_assoc, dropWhile_span opening (stops_cons.2 (by decide))] at first
    exact absurd (List.cons.inj first).1.symm brace

/-- A line that starts with no module syntax starts no clause when its text ends earlier. -/
theorem exportClause_eq_none_of_clean {v more b : List Char} (clean : ¬ ModuleSyntax (v ++ more)) (stop : Stops isWord more) :
    exportClause none (v ++ '\n' :: b) = none := by
  cases found : exportClause none (v ++ '\n' :: b) with
  | none => rfl
  | some result =>
    exfalso
    obtain ⟨_, text, behind, clause, whole, _⟩ := exportClause_iff.1 found
    obtain ⟨indent, gap, allIndent, allBlank, split⟩ := clause.exists_front behind
    obtain ⟨w, rfl, rest⟩ := exists_eq_append_cons_of_not_mem (whole.trans split).symm (not_mem_front allIndent)
    -- The word `export` stands before the cut, and behind it a blank, the brace or the cut.
    refine clean ?_
    rw [List.append_assoc]
    refine .exporting allIndent ?_
    cases w with
    | nil => exact stop
    | cons c w =>
      cases gap with
      | nil =>
        obtain ⟨rfl, _⟩ := List.cons.inj rest
        exact stops_cons.2 (by decide)
      | cons d gap =>
        obtain ⟨rfl, _⟩ := List.cons.inj rest
        rw [List.all_cons, Bool.and_eq_true] at allBlank
        exact stops_cons.2 (isWord_of_isBlank allBlank.1)

theorem not_mem_commaList {items : List String} (names : ∀ item ∈ items, isName item.toList = true) :
    '\n' ∉ (commaList items).toList := by
  rw [toList_commaList]
  refine not_mem_joinWith (by decide) fun part listed => ?_
  obtain ⟨item, member, rfl⟩ := List.mem_map.1 listed
  exact not_mem_of_all (isName_iff.1 (names item member)).2 (by decide)

/-- No line of a factory module starts an export clause, when none of its body starts with module
syntax. -/
theorem everyLine_factoryModule (named : options.Named) (flat : '\n' ∉ options.helpersModule.toList) {body : List Char}
    (clean : EveryLine none (fun _ v => ¬ ModuleSyntax v) body) :
    EveryLine none (fun _ v => exportClause none v = none) (factoryModule options body).toList := by
  have hooks := not_mem_commaList named.hooks
  obtain ⟨_, name⟩ := isName_iff.1 named.factory
  have noNewline : '\n' ∉ options.factoryName.toList := not_mem_of_all name (by decide)
  have front : options.factoryName.toList.all isFrontChar = true := all_of_all name fun c h => by simp [isFrontChar, h]
  have exported : exportLine options = "export default ".toList ++ options.factoryName.toList ++ ';' :: [] := rfl
  have opened : functionLine options = "function ".toList ++ options.factoryName.toList ++ '(' :: ") \x7b".toList := by
    have mark : "() \x7b".toList = '(' :: ") \x7b".toList := by decide
    unfold functionLine
    rw [mark]
  have listed : ∃ rest, depsLine options = options.factoryName.toList ++ '.' :: rest := by
    have mark : ".deps = [".toList = '.' :: "deps = [".toList := by decide
    unfold depsLine
    rw [mark, List.append_assoc, List.append_assoc]
    exact ⟨_, rfl⟩
  obtain ⟨rest, listed⟩ := listed
  rw [toList_factoryModule]
  simp only [everyLine_append_newline]
  refine ⟨(everyLine_of_flat ?_).2 rfl, (everyLine_of_flat ?_).2 ?_, (everyLine_of_flat ?_).2 ?_, fun u v whole line => ?_,
    (everyLine_of_flat (by decide)).2 rfl, (everyLine_of_flat ?_).2 ?_, fun u v whole _ => ?_⟩
  · exact List.not_mem_append (List.not_mem_append (List.not_mem_append (List.not_mem_append (by decide) hooks) (by decide))
      flat) (by decide)
  · exact List.not_mem_append (List.not_mem_append (by decide) noNewline) (by decide)
  · refine exportClause_eq_none_of_mark exported ?_ (by decide) (by decide) _
    rw [List.all_append, front, Bool.and_true]
    decide
  · exact List.not_mem_append (List.not_mem_append (by decide) noNewline) (by decide)
  · refine exportClause_eq_none_of_mark opened ?_ (by decide) (by decide) _
    rw [List.all_append, front, Bool.and_true]
    decide
  · obtain ⟨blanks, all, split⟩ := exists_trimEnd body
    have here : ¬ ModuleSyntax (v ++ blanks) := clean u (v ++ blanks) (by rw [split, whole, List.append_assoc]) line
    refine exportClause_eq_none_of_clean here ?_
    cases blanks with
    | nil => simp
    | cons c blanks =>
      rw [List.all_cons, Bool.and_eq_true] at all
      exact stops_cons.2 (isWord_of_isBlank all.1)
  · exact List.not_mem_append (List.not_mem_append (List.not_mem_append noNewline (by decide)) hooks) (by decide)
  · exact exportClause_eq_none_of_mark listed front (by decide) (by decide) _
  · obtain ⟨rfl, rfl⟩ := List.append_eq_nil_iff.1 whole.symm
    rfl

/-- A factory module is never accepted again, whatever names are asked for. -/
theorem toFactory_of_factoryModule {source module : String} (named : options.Named)
    (flat : '\n' ∉ options.helpersModule.toList) (accepted : toFactory options source = .ok module)
    (other : LoaderOptions) : toFactory other module = .error .noExportBlock := by
  obtain ⟨clause, _, _, _, clean, _, rfl⟩ := toFactory_eq_ok_iff.1 accepted
  have missing := findExportClause_eq_noExportBlock (everyLine_factoryModule named flat clean)
  simp only [toFactory, missing]
  rfl

/-- A loader that exports its initialisation alone. -/
def plainLoader : String := "function __wbg_init() \x7b\x7d\nexport \x7b __wbg_init as default \x7d;\n"

/-- The factory that this loader becomes. -/
def plainFactory : String :=
  "import \x7b startWorkers, terminateWorkers \x7d from '../bindings/js/web/worker-helpers.js';\n" ++
    "export default plonkWasm;\nfunction plonkWasm() \x7b\nfunction __wbg_init() \x7b\x7d\n" ++
    "return \x7b default: __wbg_init \x7d;\n\x7d\n" ++
    "plonkWasm.deps = [startWorkers, terminateWorkers];\n"

theorem toFactory_plainFactory :
    toFactory {} plainLoader = .ok plainFactory ∧ toFactory {} plainFactory = .error .noExportBlock := by
  have accepted : toFactory {} plainLoader = .ok plainFactory := by decide +kernel
  have flat : '\n' ∉ (LoaderOptions.helpersModule {}).toList := by decide
  exact ⟨accepted, toFactory_of_factoryModule LoaderOptions.named_default flat accepted {}⟩

end WasmPackaging.Loader
