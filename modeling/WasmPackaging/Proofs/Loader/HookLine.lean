import Mathlib.Control.Monad.Basic
import WasmPackaging.Loader.Inlining
import WasmPackaging.Proofs.Loader.FactoryText
import WasmPackaging.Proofs.Outcome
import WasmPackaging.Proofs.Path

/-!
The line that declares the hooks ahead of a prepared loader. It is a declaration that lists hooks only,
so taking the hooks out of the declarations takes the whole line out. Main fact: that line is gone, and
nothing else in front of the rest has changed, exactly when there are hooks
(`stripForward_inlinePayload_iff`).
-/

namespace WasmPackaging.Loader

open Text

variable {options : LoaderOptions}

/-! ## The lines of the header -/

/-- The line that imports the payload. -/
def payloadLine (options : LoaderOptions) (specifier : String) : List Char :=
  "import ".toList ++ options.payloadBinding.toList ++ " from '".toList ++ specifier.toList ++ "';".toList

/-- The line that declares the hooks. -/
def hookLine (options : LoaderOptions) : List Char :=
  "let ".toList ++ joinWith [',', ' '] options.hooks ++ [';']

theorem toList_header (options : LoaderOptions) (specifier : String) :
    (header options specifier).toList =
      payloadLine options specifier ++ '\n' :: (hookLine options ++ ['\n']) := by
  have quote : "';\n".toList = "';".toList ++ ['\n'] := by decide
  have close : ";\n".toList = [';', '\n'] := by decide
  unfold header payloadLine hookLine LoaderOptions.hooks
  simp only [String.toList_append, toString, toList_commaList]
  rw [quote, close]
  simp only [List.append_assoc, List.cons_append, List.nil_append]

/-- The name of a payload stands between quotes in the module, and has the ending of one. -/
theorem payload?_sound {source : List Char} {name : String} (named : payload? source = .ok name) :
    name.toList.all isPayloadChar = true ∧ isPayloadName name.toList = true ∧ name.toList ⊆ source := by
  have word {fixed : String} {s rest : List Char} (found : afterWord? fixed s = some rest) : rest <:+ s :=
    ⟨fixed.toList, (after?_eq_some_iff.1 found).symm⟩
  have quoted {s rest : List Char} {quote : Char} (found : quote? s = some (quote, rest)) : rest <:+ s := by
    unfold quote? at found
    split at found
    · exact ⟨['\''], by simp_all⟩
    · exact ⟨['"'], by simp_all⟩
    · cases found
  have listed : name ∈ payloadNames source := by
    unfold payload? at named
    split at named <;> simp_all
  obtain ⟨url, found, rfl⟩ : ∃ url ∈ finds payloadUrl source, String.ofList url.name = name := by
    simpa [payloadNames] using listed
  obtain ⟨first, t, rest, inside, here⟩ := exists_suffix_of_mem_pieces found
  simp only [payloadUrl, Option.bind_eq_bind, Option.bind_eq_some_iff, Prod.exists] at here
  obtain ⟨behind₁, new_, behind₂, blanks, behind₃, constructor_, quote, s, opened, _, _, _, _, _, _, _, _, here⟩ := here
  split at here
  · next ending =>
    simp only [Option.some.injEq, Prod.mk.injEq] at here
    rw [← here.1, String.toList_ofList]
    have trimmed : behind₂ <:+ behind₁ := by
      obtain ⟨gap, -, -, -, whole⟩ := afterBlanks?_eq_some_iff.1 blanks
      exact ⟨gap, whole.symm⟩
    have start : s <:+ source :=
      (quoted opened).trans ((List.dropWhile_suffix _).trans ((word constructor_).trans (trimmed.trans ((word new_).trans inside))))
    exact ⟨List.all_takeWhile, ending, fun c mem => start.subset ((List.takeWhile_prefix _).subset mem)⟩
  · simp at here

/-- The name of a payload stands on one line. -/
theorem not_mem_payload {source : List Char} {name : String} (named : payload? source = .ok name) :
    '\n' ∉ name.toList :=
  not_mem_of_all (payload?_sound named).1 (by decide)

/-- The specifier of a payload is its name, taken from the module's own directory. -/
theorem payloadSpecifier_cases (name : String) :
    payloadSpecifier name = name ∨ (payloadSpecifier name = "./" ++ name ∧ name.toList.head? ≠ some '/') := by
  unfold payloadSpecifier
  split
  · exact .inl rfl
  · exact .inl rfl
  · next first other =>
    refine .inr ⟨by simp [toString], fun slash => ?_⟩
    obtain ⟨rest, same⟩ := List.head?_eq_some_iff.1 slash
    exact other rest same

theorem not_mem_payloadSpecifier {name : String} {c : Char} (flat : c ∉ name.toList) (other : c ≠ '.') (other' : c ≠ '/') :
    c ∉ (payloadSpecifier name).toList := by
  obtain same | ⟨same, -⟩ := payloadSpecifier_cases name
  · rwa [same]
  · rw [same, String.toList_append]
    exact List.not_mem_append (by simp [other, other']) flat

/-- The specifier of a payload reads as the path that its name does. -/
theorem ofString_payloadSpecifier (name : String) : Path.ofString (payloadSpecifier name) = Path.ofString name := by
  obtain same | ⟨same, start⟩ := payloadSpecifier_cases name
  · rw [same]
  · have relative : Anchor.ofText ("./" ++ name).toList = .relative := by
      rw [String.toList_append]
      rfl
    have relative' : Anchor.ofText name.toList = .relative := by
      unfold Anchor.ofText
      split <;> simp_all
    have front : slashed ("./" ++ name) = "." :: slashed name := Path.slashed_append (show '/' ∉ ".".toList by decide) name
    rw [same, Path.ofString, relative, front, List.filter_cons_of_neg (by decide), Path.ofString, relative']

/-- The specifier of a payload has the ending that its name has. -/
theorem endsWith_payloadSpecifier {name : String} {ending : List Char} (ends : ending.isSuffixOf name.toList = true) :
    ending.isSuffixOf (payloadSpecifier name).toList = true := by
  obtain same | ⟨same, -⟩ := payloadSpecifier_cases name
  · rwa [same]
  · rw [same, String.toList_append]
    simp only [List.isSuffixOf_iff_suffix] at ends ⊢
    exact ends.trans (List.suffix_append _ _)

theorem not_mem_payloadLine {specifier : String} (binding : isName options.payloadBinding.toList = true)
    (flat : '\n' ∉ specifier.toList) : '\n' ∉ payloadLine options specifier :=
  List.not_mem_append (List.not_mem_append (List.not_mem_append (List.not_mem_append (by decide)
    (not_mem_of_all (isName_iff.1 binding).2 (by decide))) (by decide)) flat) (by decide)

theorem not_mem_hookLine (names : ∀ hook ∈ options.hooks, isName hook = true) : '\n' ∉ hookLine options :=
  List.not_mem_append (List.not_mem_append (by decide) (not_mem_joinWith (by decide) fun hook listed =>
    not_mem_of_all (isName_iff.1 (names hook listed)).2 (by decide))) (by decide)

/-! ## Taking the hooks out -/

/-- With hooks, their line is the text of a declaration. -/
theorem forwardText_hookLine (filled : options.hooks ≠ []) (names : ∀ hook ∈ options.hooks, isName hook = true) :
    ForwardText ⟨"let".toList, options.hooks⟩ (hookLine options) := by
  have text : hookLine options =
      "let".toList ++ [' '] ++ joinWith [',', ' '] options.hooks ++ [] ++ [';'] := by
    have word : "let ".toList = "let".toList ++ [' '] := by decide
    unfold hookLine
    rw [word, List.append_nil]
  rw [text]
  exact .mk (.inr rfl) (by simp) (by decide) (nameList_joinWith filled names) rfl

/-- A line that starts with no declaration stays, whatever is behind it. -/
theorem stripFrom_line {unwanted : List (List Char)} {line rest : List Char} (flat : '\n' ∉ line)
    (plain : forward none (line ++ '\n' :: rest) = none) :
    stripFrom unwanted none (line ++ '\n' :: rest) = line ++ '\n' :: stripFrom unwanted (some '\n') rest := by
  have nowhere : ∀ u v, line ++ ['\n'] = u ++ v → v ≠ [] → forward (charBefore none u) (v ++ rest) = none := by
    intro u v whole filled
    cases u with
    | nil =>
      obtain rfl : line ++ ['\n'] = v := whole
      simpa using plain
    | cons c u =>
      rw [forward_lined]
      split
      · rename_i start
        obtain ⟨w, split⟩ := exists_eq_append_newline (by simp) start
        rw [split] at whole
        rcases append_eq_append_cons (c := '\n') (by simpa using whole) with ⟨x, rfl, _⟩ | ⟨x, _, last⟩
        · exact absurd (by simp) flat
        · cases x with
          | nil => exact absurd (by simpa using last.symm) filled
          | cons d x => simp at last
      · rfl
  have skipped : stripFrom unwanted none (line ++ ['\n'] ++ rest) =
      line ++ ['\n'] ++ stripFrom unwanted (charBefore none (line ++ ['\n'])) rest := replaceFrom_skip nowhere
  simpa using skipped

/-- Without names to take out, every declaration stays. -/
theorem stripForward_nil (s : List Char) : stripForward [] s = s := by
  have same : Forward.without [] = fun _ text => text := by
    funext declaration text
    exact Forward.without_of_not_lists fun ⟨_, _, listed⟩ => by simp at listed
  rw [stripForward, same, replaceFinds_self]

theorem stripFrom_congr {unwanted : List (List Char)} {first other : Option Char}
    (same : atLineStart first = atLineStart other) (s : List Char) :
    stripFrom unwanted first s = stripFrom unwanted other s := by
  cases s with
  | nil => simp
  | cons c s =>
    have answer : forward first (c :: s) = forward other (c :: s) := by
      rw [forward_lined first, forward_lined other, same]
    cases found : forward first (c :: s) with
    | none => rw [stripFrom_plain found, stripFrom_plain (answer ▸ found)]
    | some result =>
      obtain ⟨declaration, behind⟩ := result
      obtain ⟨covered, filled, whole⟩ := forward_cuts _ _ _ _ found
      rw [whole] at found answer ⊢
      rw [stripFrom_hit filled found, stripFrom_hit filled (answer ▸ found), charBefore_eq_getLast? filled,
        charBefore_eq_getLast? filled]

/-- A declaration of hooks alone goes with its line. -/
theorem stripFrom_hookLine (filled : options.hooks ≠ []) (names : ∀ hook ∈ options.hooks, isName hook = true)
    (rest : List Char) :
    stripFrom options.hooks (some '\n') (hookLine options ++ '\n' :: rest) = stripForward options.hooks rest := by
  have declared := forwardText_hookLine filled names
  have behind : rest = behindLine ('\n' :: rest) := rfl
  have found : forward (some '\n') (hookLine options ++ ['\n'] ++ rest) = some (⟨"let".toList, options.hooks⟩, rest) :=
    forward_iff.2 ⟨rfl, hookLine options, '\n' :: rest, declared, by simp, behind⟩
  have lists : Forward.Lists options.hooks ⟨"let".toList, options.hooks⟩ := by
    obtain ⟨hook, listed⟩ := List.exists_mem_of_ne_nil _ filled
    exact ⟨hook, listed, listed⟩
  have gone : Forward.remaining options.hooks ⟨"let".toList, options.hooks⟩ = [] := by
    have none_ : (options.hooks.filter fun name => !options.hooks.contains name) = [] := by simp
    simp only [Forward.remaining, none_, if_pos]
  calc stripFrom options.hooks (some '\n') (hookLine options ++ '\n' :: rest)
      = stripFrom options.hooks (some '\n') (hookLine options ++ ['\n'] ++ rest) := by simp
    _ = stripFrom options.hooks (charBefore (some '\n') (hookLine options ++ ['\n'])) rest := by
        rw [stripFrom_hit (by simp) found, Forward.without_of_lists lists, gone, List.nil_append]
    _ = stripForward options.hooks rest := by
        rw [stripForward_eq]
        exact stripFrom_congr (by rw [charBefore_append]; rfl) rest

/-! ## Prepared loaders -/

theorem inlinePayload_eq_ok {source prepared : String} (accepted : inlinePayload options source = .ok prepared) :
    ∃ name body, payload? source.toList = .ok name ∧
      prepared = header options (payloadSpecifier name) ++ String.ofList body := by
  unfold inlinePayload at accepted
  obtain ⟨name, named, accepted⟩ := bind_eq_ok_iff.1 accepted
  obtain ⟨text, -, accepted⟩ := bind_eq_ok_iff.1 accepted
  obtain ⟨body, -, accepted⟩ := bind_eq_ok_iff.1 accepted
  exact ⟨name, body, mapError_eq_ok_iff.1 named, (Except.ok.inj accepted).symm⟩

/-- A prepared loader is its import line, the line of its hooks, and the rest. Taking the hooks out
leaves the import line and the rest, with the hooks taken out of it, exactly when there are hooks;
without hooks the whole text stays, the line included. -/
theorem stripForward_inlinePayload_iff {source prepared : String}
    (binding : isName options.payloadBinding.toList = true) (names : ∀ hook ∈ options.hooks, isName hook = true)
    (accepted : inlinePayload options source = .ok prepared) :
    ∃ name rest, payload? source.toList = .ok name ∧
      prepared.toList = payloadLine options (payloadSpecifier name) ++ '\n' :: (hookLine options ++ '\n' :: rest) ∧
      '\n' ∉ payloadLine options (payloadSpecifier name) ∧ '\n' ∉ hookLine options ∧
      (stripForward options.hooks prepared.toList =
          payloadLine options (payloadSpecifier name) ++ '\n' :: stripForward options.hooks rest ↔
        options.hooks ≠ []) ∧
      (options.hooks = [] → stripForward options.hooks prepared.toList = prepared.toList) := by
  obtain ⟨name, rest, named, rfl⟩ := inlinePayload_eq_ok accepted
  have whole : (header options (payloadSpecifier name) ++ String.ofList rest).toList =
      payloadLine options (payloadSpecifier name) ++ '\n' :: (hookLine options ++ '\n' :: rest) := by
    rw [String.toList_append, toList_header, String.toList_ofList]
    simp
  have flat := not_mem_payloadLine binding (not_mem_payloadSpecifier (not_mem_payload named) (by decide) (by decide))
  refine ⟨name, rest, named, whole, flat, not_mem_hookLine names, ⟨fun gone => ?_, fun filled => ?_⟩, fun none_ => ?_⟩
  · intro none_
    rw [none_, stripForward_nil, stripForward_nil, whole] at gone
    have lengths := congrArg List.length gone
    simp [hookLine] at lengths
    omega
  · have plain : forward none (payloadLine options (payloadSpecifier name) ++
        '\n' :: (hookLine options ++ '\n' :: rest)) = none := rfl
    rw [whole, stripForward_eq, stripFrom_line flat plain, stripFrom_hookLine filled names]
  · rw [none_, stripForward_nil]

/-- A loader that constructs the URL of one payload. -/
def fetchingLoader : String := "const url = new URL('p.wasm', import.meta.url);\n"

/-- The loader prepared with the two usual hooks: their line can be taken out again. -/
theorem stripForward_fetchingLoader :
    (∀ hook ∈ LoaderOptions.hooks {}, isName hook = true) ∧
      ∃ prepared, (inlinePayload {} fetchingLoader).toOption = some prepared ∧
        stripForward (LoaderOptions.hooks {}) prepared.toList =
          "import wasmCode from './p.wasm';\nconst url = wasmCode;\n".toList := by
  have names : ∀ hook ∈ LoaderOptions.hooks {}, isName hook = true := by decide
  have prepares : (inlinePayload {} fetchingLoader).toOption =
      some "import wasmCode from './p.wasm';\nlet startWorkers, terminateWorkers;\nconst url = wasmCode;\n" := by
    decide +kernel
  refine ⟨names, _, prepares, ?_⟩
  cases accepted : inlinePayload {} fetchingLoader with
  | error cause => simp [accepted, Except.toOption] at prepares
  | ok prepared =>
    obtain rfl : prepared = _ := Option.some.inj (by simpa [accepted, Except.toOption] using prepares)
    obtain ⟨name, rest, named, whole, _, _, gone, _⟩ := stripForward_inlinePayload_iff (by decide) names accepted
    have payload : payload? fetchingLoader.toList = .ok "p.wasm" := by decide +kernel
    obtain rfl : "p.wasm" = name := Except.ok.inj (payload.symm.trans named)
    have front : "import wasmCode from './p.wasm';\nlet startWorkers, terminateWorkers;\nconst url = wasmCode;\n".toList =
        (payloadLine {} (payloadSpecifier "p.wasm") ++ '\n' :: (hookLine {} ++ ['\n'])) ++
          "const url = wasmCode;\n".toList := by decide
    obtain rfl : "const url = wasmCode;\n".toList = rest :=
      List.append_cancel_left (front.symm.trans (by simpa using whole))
    rw [gone.2 (by decide)]
    decide +kernel

/-- Prepared without hooks, the loader keeps a line that declares nothing. -/
theorem stripForward_hooklessLoader :
    ∃ prepared, (inlinePayload { workerHooks := [] } fetchingLoader).toOption = some prepared ∧
      stripForward [] prepared.toList = "import wasmCode from './p.wasm';\nlet ;\nconst url = wasmCode;\n".toList :=
  ⟨"import wasmCode from './p.wasm';\nlet ;\nconst url = wasmCode;\n", by decide +kernel, stripForward_nil _⟩

end WasmPackaging.Loader
