import Mathlib.Data.List.Forall2
import WasmPackaging.Proofs.Bundling.Mentions
import WasmPackaging.Proofs.Bundling.Steps

/-!
What staging makes of the text of a module. The mentions are answered one after the other, and the copy is the text
with the answers in the place of their specifiers (`copyPieces_eq`). When each answer can stand between quotes, the
copy is cut where the module is (`pieces_of_respelled`): nothing else of the text changes, and its specifiers are the
answers (`stageModule_respells`).
-/

namespace WasmPackaging.Bundling

open Text

/-- A piece of a text and the piece in its place when specifiers are replaced: a mention keeps its keyword and its
quotes. -/
inductive Respelled : Piece Mention → Piece Mention → Prop
  | plain (c : Char) : Respelled (.plain c) (.plain c)
  | mention (lead : List Char) (quote : Char) (old new : List Char) :
      Respelled (.hit ⟨quote, old⟩ (lead ++ (Mention.mk quote old).quoted))
        (.hit ⟨quote, new⟩ (lead ++ (Mention.mk quote new).quoted))

theorem Respelled.exists_lead {found : Mention} {covered : List Char} {piece : Piece Mention}
    (respelled : Respelled (.hit found covered) piece) : ∃ lead new, covered = lead ++ found.quoted ∧
      piece = .hit ⟨found.quote, new⟩ (lead ++ (Mention.mk found.quote new).quoted) := by
  cases respelled with
  | mention lead quote old new => exact ⟨lead, new, rfl, rfl⟩

/-- The specifier in each mention can stand between quotes. -/
def AreSpecifiers (list : List (Piece Mention)) : Prop :=
  ∀ found ∈ list.filterMap Piece.value?, IsSpecifier found.specifier

/-! ## Searching the new text -/

section search

variable {first : Option Char} {s : List Char} {list : List (Piece Mention)}

/-- A text and the one with other specifiers agree up to the quote that opens the first of them. -/
theorem border_of_respelled (respelled : List.Forall₂ Respelled (pieces mention first s) list) :
    list.flatMap Piece.text = s ∨ ∃ front lead quote rest rest', s = front ++ (lead ++ quote :: rest) ∧
      list.flatMap Piece.text = front ++ (lead ++ quote :: rest') ∧ IsLead lead ∧
      goesOn (charBefore first front) = false ∧ IsQuote quote := by
  induction first, s using search_induction cuts_mention generalizing list with
  | nil first =>
    rw [pieces_nil, List.forall₂_nil_left_iff] at respelled
    subst respelled
    exact .inl rfl
  | plain first c s missing ih =>
    rw [pieces_plain missing, List.forall₂_cons_left_iff] at respelled
    obtain ⟨_, later, ⟨⟩, respelled, rfl⟩ := respelled
    rcases ih respelled with same | ⟨front, lead, quote, rest, rest', rfl, whole, leads, start, opens⟩
    · left
      simp [Piece.text, same]
    · right
      refine ⟨c :: front, lead, quote, rest, rest', rfl, ?_, leads, by simpa using start, opens⟩
      simp [Piece.text, whole]
  | hit first covered behind found filled mentioned ih =>
    rw [pieces_hit filled mentioned, List.forall₂_cons_left_iff] at respelled
    obtain ⟨piece, later, here, -, rfl⟩ := respelled
    obtain ⟨lead, new, rfl, rfl⟩ := here.exists_lead
    obtain ⟨start, opens, -, leads⟩ := mention_lead_iff.1 mentioned
    right
    refine ⟨[], lead, found.quote, found.specifier ++ found.quote :: behind,
      new ++ found.quote :: later.flatMap Piece.text, ?_, ?_, leads, start, opens⟩
    · simp [Mention.quoted]
    · simp [Piece.text, Mention.quoted]

/-- A text with other specifiers is cut where the text was: no mention is lost, and none appears. -/
theorem pieces_of_respelled (respelled : List.Forall₂ Respelled (pieces mention first s) list)
    (valid : AreSpecifiers list) : pieces mention first (list.flatMap Piece.text) = list := by
  induction first, s using search_induction cuts_mention generalizing list with
  | nil first =>
    rw [pieces_nil, List.forall₂_nil_left_iff] at respelled
    subst respelled
    exact pieces_nil first
  | plain first c s missing ih =>
    rw [pieces_plain missing, List.forall₂_cons_left_iff] at respelled
    obtain ⟨_, later, ⟨⟩, respelled, rfl⟩ := respelled
    have missing' : mention first (c :: later.flatMap Piece.text) = none := by
      rcases border_of_respelled respelled with same | ⟨front, lead, quote, rest, rest', rfl, whole, leads, start, opens⟩
      · rw [same]
        exact missing
      · rw [whole]
        rw [← List.cons_append] at missing ⊢
        exact mention_eq_none_of_border (List.cons_ne_nil c front) leads (by simpa using start) opens missing
    rw [List.flatMap_cons, Piece.text, List.singleton_append, pieces_plain missing', ih respelled valid]
  | hit first covered behind found filled mentioned ih =>
    rw [pieces_hit filled mentioned, List.forall₂_cons_left_iff] at respelled
    obtain ⟨piece, later, here, respelled, rfl⟩ := respelled
    obtain ⟨lead, new, rfl, rfl⟩ := here.exists_lead
    obtain ⟨start, opens, -, leads⟩ := mention_lead_iff.1 mentioned
    obtain ⟨fine, valid⟩ :=
      List.forall_mem_cons.1 (show ∀ other ∈ ⟨found.quote, new⟩ :: later.filterMap Piece.value?, _ from valid)
    have mentioned' : mention first (lead ++ (Mention.mk found.quote new).quoted ++ later.flatMap Piece.text) =
        some (⟨found.quote, new⟩, later.flatMap Piece.text) := mention_lead_iff.2 ⟨start, opens, fine, leads⟩
    have before : charBefore first (lead ++ found.quoted) =
        charBefore first (lead ++ (Mention.mk found.quote new).quoted) := by simp [Mention.quoted]
    rw [before] at ih respelled
    rw [List.flatMap_cons, Piece.text, pieces_hit (by simp [Mention.quoted]) mentioned', ih respelled valid]

end search

/-! ## Writing the new text -/

namespace Stager

/-- Takes the specifier of a mention its way; the result stands in its place, if it changes. -/
def answer (s : Stager) (module : Location) (copy : Path) (found : Mention) : StageRun (Option String) := do
  let specifier := String.ofList found.specifier
  let tree ← (get : FileRun FileTree)
  match s.route tree module specifier with
  | .error e => throw e
  | .ok (importClass, way) =>
    noteClass specifier importClass
    s.follow copy way

/-- The pieces of a module with the answers to its mentions in the place of their specifiers. -/
def respell : List (Piece Mention) → List (Option String) → List (Piece Mention)
  | .hit found text :: rest, answer :: answers =>
    let specifier := answer.elim found.specifier String.toList
    .hit { found with specifier } (answer.elim text fun new => found.withSpecifier text new.toList) :: respell rest answers
  | .plain c :: rest, answers => .plain c :: respell rest answers
  | _, _ => []

variable {s : Stager} {module : Location} {copy : Path}

theorem copyPiece_hit (found : Mention) (text : List Char) : s.copyPiece module copy (.hit found text) = (do
    let answer ← s.answer module copy found
    return answer.elim text fun new => found.withSpecifier text new.toList) := by
  unfold copyPiece answer
  rw [bind_assoc]
  apply bind_congr
  intro tree
  cases s.route tree module (String.ofList found.specifier) with
  | error failure => rfl
  | ok routed =>
    simp only [bind_assoc]
    apply bind_congr
    intro _
    apply bind_congr
    intro answer
    cases answer <;> rfl

/-- Copying the pieces of a module answers its mentions from left to right, and writes the answers into them. -/
theorem copyPieces_eq (list : List (Piece Mention)) : list.mapM (s.copyPiece module copy) = (do
    let answers ← (list.filterMap Piece.value?).mapM (s.answer module copy)
    return (respell list answers).map Piece.text) := by
  induction list with
  | nil => rfl
  | cons piece rest ih =>
    rw [List.mapM_cons, ih]
    cases piece with
    | plain c =>
      simp only [copyPiece, pure_bind, bind_assoc, List.filterMap_cons, Piece.value?]
      rfl
    | hit found text =>
      simp only [copyPiece_hit, bind_assoc, pure_bind, List.filterMap_cons, Piece.value?, List.mapM_cons]
      rfl

/-- A walk over a list that ends answers each of its members. -/
theorem length_of_mapM_ends {α β : Type} {f : α → StageRun β} {list : List α} {answers : List β}
    {state state' : StageState} {now after : FileTree}
    (ended : ((list.mapM f).run state) now = (.ok (answers, state'), after)) : answers.length = list.length := by
  induction list generalizing state now answers state' after with
  | nil =>
    rw [List.mapM_nil] at ended
    cases ended
    rfl
  | cons a list ih =>
    rw [List.mapM_cons, StateT.run_bind] at ended
    obtain ⟨first, between, -, ended⟩ := bind_ends_iff.1 ended
    rw [StateT.run_bind] at ended
    obtain ⟨later, last, walked, ended⟩ := bind_ends_iff.1 ended
    cases ended
    rw [List.length_cons, List.length_cons, ih walked]

section respell

variable {first : Option Char} {source : List Char} {answers : List (Option String)}

/-- The pieces of a module and those with the answers in them differ in their specifiers. -/
theorem forall₂_respell (size : ((pieces mention first source).filterMap Piece.value?).length = answers.length) :
    List.Forall₂ Respelled (pieces mention first source) (respell (pieces mention first source) answers) := by
  induction first, source using search_induction cuts_mention generalizing answers with
  | nil first =>
    rw [pieces_nil]
    exact .nil
  | plain first c s missing ih =>
    rw [pieces_plain missing] at size ⊢
    exact .cons (.plain c) (ih size)
  | hit first covered behind found filled mentioned ih =>
    obtain ⟨lead, -, rfl⟩ := exists_lead_of_hit mentioned
    rw [pieces_hit filled mentioned] at size ⊢
    cases answers with
    | nil => cases size
    | cons answer answers =>
      refine .cons ?_ (ih (Nat.succ.inj size))
      cases answer with
      | none => exact .mention lead found.quote found.specifier found.specifier
      | some new =>
        show Respelled _ (.hit ⟨found.quote, new.toList⟩ (found.withSpecifier (lead ++ found.quoted) new.toList))
        rw [withSpecifier_quoted]
        exact .mention lead found.quote found.specifier new.toList

theorem areSpecifiers_pieces (first : Option Char) (source : List Char) : AreSpecifiers (pieces mention first source) := by
  intro found mem
  obtain ⟨before, t, rest, -, mentioned⟩ := exists_suffix_of_mem_pieces mem
  obtain ⟨-, -, valid, -⟩ := mention_eq_some_iff.1 mentioned
  exact valid

theorem areSpecifiers_respell {list : List (Piece Mention)} (valid : AreSpecifiers list)
    (valid' : ∀ new, some new ∈ answers → IsSpecifier new.toList) : AreSpecifiers (respell list answers) := by
  induction list generalizing answers with
  | nil => exact List.forall_mem_nil _
  | cons piece rest ih =>
    cases piece with
    | plain c => exact ih valid valid'
    | hit found text =>
      obtain ⟨here, later⟩ := List.forall_mem_cons.1 (show ∀ other ∈ found :: rest.filterMap Piece.value?, _ from valid)
      cases answers with
      | nil => exact List.forall_mem_nil _
      | cons answer answers =>
        refine List.forall_mem_cons.2 ⟨?_, ih later fun new mem => valid' new (.tail _ mem)⟩
        cases answer with
        | none => exact here
        | some new => exact valid' new (.head _)

theorem specifiers_respell (list : List (Piece Mention)) (answers : List (Option String)) :
    ((respell list answers).filterMap Piece.value?).map (fun found => String.ofList found.specifier) =
      List.zipWith (fun old answer => answer.getD old)
        ((list.filterMap Piece.value?).map fun found => String.ofList found.specifier) answers := by
  induction list generalizing answers with
  | nil => rfl
  | cons piece rest ih =>
    cases piece with
    | plain c => exact ih answers
    | hit found text =>
      cases answers with
      | nil => rfl
      | cons answer answers =>
        have later := ih answers
        cases answer with
        | none => exact congrArg _ later
        | some new =>
          show String.ofList new.toList :: _ = new :: _
          rw [String.ofList_toList]
          exact congrArg _ later

end respell

theorem askFor_ends_iff {α ε : Type} {failure : ε → Failure} {question : FileTree → Except ε α} {now after : FileTree}
    {a : α} : FileRun.askFor failure question now = (.ok a, after) ↔ question now = .ok a ∧ after = now := by
  rw [FileRun.askFor_apply, Prod.mk.injEq, mapError_eq_ok_iff, eq_comm (a := now)]

/-- The text of a file is read exactly if the file holds it. -/
theorem readText_ends_iff {now after : FileTree} {path : Path} {source : String} :
    FileRun.readText path now = (.ok source, after) ↔ HoldsText now path source ∧ after = now := by
  unfold FileRun.readText FileRun.readBytes
  rw [bind_ends_iff]
  constructor
  · rintro ⟨bytes, between, asked, ended⟩
    obtain ⟨read, rfl⟩ := askFor_ends_iff.1 asked
    cases decoded : decode bytes with
    | error failure =>
      rw [decoded] at ended
      cases ended
    | ok text =>
      rw [decoded] at ended
      cases ended
      exact ⟨⟨bytes, text, read, decoded, rfl⟩, rfl⟩
  · rintro ⟨⟨bytes, text, read, decoded, rfl⟩, rfl⟩
    refine ⟨bytes, after, askFor_ends_iff.2 ⟨read, rfl⟩, ?_⟩
    rw [decoded]
    rfl

/-- A module is staged exactly if its mentions are answered one after the other and the text with the answers in the
place of their specifiers is written. -/
theorem stageModule_ends_iff (scanned : isScanned module = true) {state state' : StageState} {now after : FileTree} :
    (s.stageModule module).run state now = (.ok ((), state'), after) ↔
      ∃ copy source answers between, s.copyOf module = .ok copy ∧ HoldsText now (.ofLocation module) source ∧
        ((finds mention source.toList).mapM (s.answer module copy)).run state now = (.ok (answers, state'), between) ∧
        FileTask.writeText copy (String.ofList ((respell (pieces mention none source.toList) answers).flatMap Piece.text))
          between = (.ok (), after) := by
  have found : scannedSuffixes.contains (Path.ofLocation module).suffix = true := scanned
  unfold stageModule
  cases copied : s.copyOf module with
  | error failure =>
    constructor
    · intro ended
      cases ended
    · rintro ⟨copy, source, answers, between, same, -⟩
      cases same
  | ok copy =>
    simp only [found, if_true]
    unfold stageText
    rw [StateT.run_bind, StateT.run_monadLift, bind_assoc, bind_ends_iff]
    simp only [copyPieces_eq, bind_assoc, pure_bind, StateT.run_bind, StateT.run_monadLift]
    constructor
    · rintro ⟨source, now', read, ended⟩
      obtain ⟨holds, rfl⟩ := readText_ends_iff.1 (adapt_ends_iff.1 read)
      obtain ⟨result, between, answered, ended⟩ := bind_ends_iff.1 ended
      obtain ⟨_, last, written, ended⟩ := bind_ends_iff.1 ended
      cases ended
      exact ⟨copy, source, result.1, between, rfl, holds, answered, adapt_ends_iff.1 written⟩
    · rintro ⟨_, source, answers, between, ⟨⟩, holds, answered, written⟩
      refine ⟨source, now, adapt_ends_iff.2 (readText_ends_iff.2 ⟨holds, rfl⟩), ?_⟩
      refine bind_ends_iff.2 ⟨(answers, state'), between, answered, ?_⟩
      exact bind_ends_iff.2 ⟨(), after, adapt_ends_iff.2 written, rfl⟩

/-- When a module is staged, its text is written with the answers to its mentions in the place of their specifiers.
If they can stand there, nothing else of the text differs from the text of the module, the mentions in it are those
of the module with the same keywords and quotes, and its specifiers are the answers. -/
theorem stageModule_respells (s : Stager) {module : Location} (scanned : isScanned module = true)
    {state state' : StageState} {now after : FileTree}
    (staged : (s.stageModule module).run state now = (.ok ((), state'), after)) :
    ∃ copy source answers between text, s.copyOf module = .ok copy ∧ HoldsText now (.ofLocation module) source ∧
      ((finds mention source.toList).mapM (s.answer module copy)).run state now = (.ok (answers, state'), between) ∧
      FileTask.writeText copy (String.ofList text) between = (.ok (), after) ∧
      ((∀ new, some new ∈ answers → IsSpecifier new.toList) →
        List.Forall₂ Respelled (pieces mention none source.toList) (pieces mention none text) ∧
        (specifiers text).length = (specifiers source.toList).length ∧
        specifiers text = List.zipWith (fun old answer => answer.getD old) (specifiers source.toList) answers) := by
  obtain ⟨copy, source, answers, between, copied, holds, answered, written⟩ := (stageModule_ends_iff scanned).1 staged
  refine ⟨copy, source, answers, between, _, copied, holds, answered, written, fun valid => ?_⟩
  have size := length_of_mapM_ends answered
  have respelled := forall₂_respell size.symm
  have cut := pieces_of_respelled respelled (areSpecifiers_respell (areSpecifiers_pieces none source.toList) valid)
  have answers_eq := specifiers_respell (pieces mention none source.toList) answers
  rw [← cut] at answers_eq
  refine ⟨by rwa [cut], ?_, answers_eq⟩
  exact (congrArg List.length answers_eq).trans (by simp [specifiers, finds] at size ⊢; omega)

/-- A module that imports a payload and a module. -/
def mixedFiles : FileTree where
  entries := [(["p"], .directory), (["p", "main.js"], .file (encode "import './p.wasm';\nimport x from './b.js';\n")),
    (["p", "p.wasm"], .file (encode "w")), (["p", "b.js"], .file (encode "export {};\n"))]
  workingDirectory := ["p"]

/-- The staging of that project. -/
def mixedStager : Stager where
  project := ["p"]
  root := .ofString "/p/stage"
  options := { entryPoint := .ofString "/p/main.js", outputFile := .ofString "/p/out.js", plugins := [.binary ".wasm"] }

/-- The state in which the staging of the module starts. -/
def mixedStart : StageState := ⟨{ root := .ofString "/p/stage", entryPoint := .ofString "/p/stage/main.js" }, []⟩

theorem stageModule_respells_mixed :
    isScanned ["p", "main.js"] = true ∧
      ((mixedStager.stageModule ["p", "main.js"]).run mixedStart mixedFiles).1.toOption.isSome = true ∧
      ∃ text, List.Forall₂ Respelled (pieces mention none "import './p.wasm';\nimport x from './b.js';\n".toList)
          (pieces mention none text) ∧
        specifiers text = ["./__payloads__/p.50e721e49c01.bin", "./b.js"] := by
  have scanned : isScanned ["p", "main.js"] = true := by decide
  have done : ((mixedStager.stageModule ["p", "main.js"]).run mixedStart mixedFiles).1.toOption.isSome = true := by
    decide +kernel
  refine ⟨scanned, done, ?_⟩
  rcases ran : (mixedStager.stageModule ["p", "main.js"]).run mixedStart mixedFiles with ⟨_ | ⟨⟨⟩, state'⟩, after⟩
  · rw [ran] at done
    cases done
  · obtain ⟨copy, source, answers, between, text, copied, holds, answered, -, respells⟩ :=
      stageModule_respells mixedStager scanned ran
    obtain rfl : .ofString "/p/stage/main.js" = copy := by
      have known : (mixedStager.copyOf ["p", "main.js"]).toOption = some (.ofString "/p/stage/main.js") := by decide
      exact Except.ok.inj ((eq_ok_of_toOption known).symm.trans copied)
    obtain rfl : "import './p.wasm';\nimport x from './b.js';\n" = source := by
      have known : (FileRun.readText (.ofLocation ["p", "main.js"]) mixedFiles).1.toOption =
          some "import './p.wasm';\nimport x from './b.js';\n" := by decide +kernel
      rw [readText_ends_iff.2 ⟨holds, rfl⟩] at known
      exact (Option.some.inj known).symm
    obtain rfl : [some "./__payloads__/p.50e721e49c01.bin", none] = answers := by
      have known : (((finds mention "import './p.wasm';\nimport x from './b.js';\n".toList).mapM
          (mixedStager.answer ["p", "main.js"] (.ofString "/p/stage/main.js"))).run mixedStart mixedFiles).1.toOption.map
            Prod.fst = some [some "./__payloads__/p.50e721e49c01.bin", none] := by decide +kernel
      rw [answered] at known
      exact (Option.some.inj known).symm
    have valid (new : String) (mem : some new ∈ [some "./__payloads__/p.50e721e49c01.bin", none]) : IsSpecifier new.toList := by
      obtain rfl : new = "./__payloads__/p.50e721e49c01.bin" := by simpa using mem
      exact ⟨by decide, by decide⟩
    obtain ⟨alike, -, same⟩ := respells valid
    refine ⟨text, alike, same.trans ?_⟩
    decide +kernel

end Stager

end WasmPackaging.Bundling
