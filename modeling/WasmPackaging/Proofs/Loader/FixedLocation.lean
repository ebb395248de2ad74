import WasmPackaging.Proofs.Loader.HookLine
import WasmPackaging.Proofs.Text.LiteralTemplate
import WasmPackaging.Proofs.Text.Replaced

/-!
The location of a prepared loader. A module is asked for its location where the expression stands as words
of their own (`NamesLocation`). Main facts: behind the two lines of its header a prepared loader does not
name its location, and so it cannot be prepared again (`inlinePayload_of_prepared`).
-/

namespace WasmPackaging.Loader

open Text

variable {options : LoaderOptions}

/-- A text names its location, as words of their own. -/
def NamesLocation (s : List Char) : Prop :=
  ∃ u v, s = u ++ (location.toList ++ v) ∧ u.getLast?.any isWord = false ∧ Stops isWord v

/-! ## The location expression -/

theorem locationUse_eq_some_iff {first : Option Char} {s rest : List Char} :
    locationUse first s = some ((), rest) ↔
      s = location.toList ++ rest ∧ first.any isWord = false ∧ Stops isWord rest := by
  rw [← startsWord_eq_false_iff, ← after?_eq_some_iff]
  change ((afterWord? location s).bind fun rest => _) = _ ↔ afterWord? location s = _ ∧ _
  cases afterWord? location s with
  | none => simp
  | some behind =>
    cases before : first.any isWord <;> cases ahead : startsWord behind <;> simp [ahead]
    all_goals
      rintro rfl
      simp [ahead]

theorem locationUse_cuts : Recognizer.Cuts locationUse := by
  intro first s value behind found
  exact ⟨location.toList, by decide, (locationUse_eq_some_iff.1 found).1⟩

/-- Where the expression is not found, it is part of a longer word. -/
theorem word_of_locationUse_eq_none {first : Option Char} {v : List Char}
    (missing : locationUse first (location.toList ++ v) = none) : first.any isWord = true ∨ ¬ Stops isWord v := by
  cases before : first.any isWord with
  | true => exact .inl rfl
  | false =>
    refine .inr fun stop => ?_
    simp [locationUse_eq_some_iff.2 ⟨rfl, before, stop⟩] at missing

/-- What a replaced text starts with as a word, the text started with, when the place is behind a word. -/
theorem stops_of_replaceFrom {new : List Char} {first : Option Char} {s : List Char} (behind : first.any isWord = true)
    (stop : Stops isWord (replaceFrom locationUse (put new) first s)) : Stops isWord s := by
  cases s with
  | nil => exact stops_nil _
  | cons c s =>
    have missing : locationUse first (c :: s) = none := by
      cases found : locationUse first (c :: s) with
      | none => rfl
      | some result =>
        have outside := (locationUse_eq_some_iff.1 (found.trans (by rfl))).2.1
        rw [behind] at outside
        cases outside
    rw [replaceFrom_plain missing] at stop
    simpa using stop

/-- With every location replaced by a text that has no character of it, no location is left. The expression
starts and ends with a letter, so no two of them are next to each other. -/
theorem not_namesLocation_replaceFinds {new : List Char} (filled : new ≠ []) (foreign : ∀ c ∈ new, c ∉ location.toList)
    (s : List Char) : ¬ NamesLocation (replaceFinds locationUse (put new) s) := by
  rintro ⟨u, v, whole, before, stop⟩
  have whole : replaceFrom locationUse (put new) none s = u ++ (location.toList ++ v) := whole
  obtain ⟨u', v', -, rfl, missing, from_⟩ := exists_of_replaceFrom locationUse_cuts filled foreign (by decide) whole
  rcases word_of_locationUse_eq_none missing with within | longer
  · rcases from_ with same | ⟨front, covered, value, -, -, found⟩
    · rw [← same, charBefore, Option.or_none, before] at within
      cases within
    · obtain ⟨-, -, apart⟩ := locationUse_eq_some_iff.1 found
      rw [show location.toList = 'i' :: "mport.meta.url".toList by decide, List.cons_append, stops_cons] at apart
      exact absurd apart (by decide)
  · refine longer (stops_of_replaceFrom ?_ stop)
    rw [charBefore_append, charBefore_eq_getLast? (by decide)]
    decide

/-! ## Payload URLs -/

/-- A quote of either kind. -/
def isQuote (c : Char) : Bool := c == '\'' || c == '"'

theorem quote?_eq_some {s rest : List Char} {quote : Char} (opened : quote? s = some (quote, rest)) :
    s = quote :: rest ∧ isQuote quote = true := by
  unfold quote? at opened
  split at opened
  · obtain ⟨rfl, rfl⟩ := Prod.mk.inj (Option.some.inj opened)
    exact ⟨rfl, by decide⟩
  · obtain ⟨rfl, rfl⟩ := Prod.mk.inj (Option.some.inj opened)
    exact ⟨rfl, by decide⟩
  · cases opened

theorem not_isWord_getLast? {blanks : List Char} (all : blanks.all isBlank = true) {c : Char} (mark : isWord c = false)
    (front : List Char) : (front ++ c :: blanks).getLast?.any isWord = false := by
  rw [List.getLast?_append_of_ne_nil _ (List.cons_ne_nil _ _)]
  cases last : (c :: blanks).getLast? with
  | none => rfl
  | some d =>
    obtain rfl | mem := List.mem_cons.1 (List.mem_of_getLast? last)
    · simpa using mark
    · simpa using isWord_of_isBlank (List.all_eq_true.1 all d mem)

/-- The text of a payload URL up to the location expression. -/
def urlFront (url : PayloadUrl) (gap inner outer blanks : List Char) : List Char :=
  "new".toList ++ gap ++ "URL(".toList ++ inner ++ url.quote :: (url.name ++ url.quote :: (outer ++ ',' :: blanks))

/-- What is found as a payload URL: its parts, with blanks between them. -/
theorem exists_of_payloadUrl {first : Option Char} {s rest : List Char} {url : PayloadUrl}
    (found : payloadUrl first s = some (url, rest)) :
    ∃ gap inner outer blanks last,
      s = urlFront url gap inner outer blanks ++ (location.toList ++ (last ++ ')' :: rest)) ∧
      (gap ++ inner ++ outer ++ blanks ++ last).all isBlank = true ∧ isQuote url.quote = true := by
  simp only [payloadUrl, Option.bind_eq_bind, Option.bind_eq_some_iff, Prod.exists] at found
  obtain ⟨s₁, new_, s₂, behind, s₃, constructor_, quote, s₄, opened, s₅, closed, s₆, comma, s₇, place, s₈, close, found⟩ := found
  obtain ⟨rfl, rfl⟩ : PayloadUrl.mk quote (s₄.takeWhile isPayloadChar) = url ∧ s₈ = rest := by
    split at found
    · exact Prod.mk.inj (Option.some.inj found)
    · cases found
  obtain ⟨gap, -, all₁, -, rfl⟩ := afterBlanks?_eq_some_iff.1 behind
  obtain ⟨inner, all₂, trimmed⟩ := exists_span isBlank s₃
  obtain ⟨whole, quotes⟩ := quote?_eq_some opened
  obtain ⟨outer, all₃, spaced⟩ := exists_span isBlank s₅
  obtain ⟨blanks, all₄, ahead⟩ := exists_span isBlank s₆
  obtain ⟨last, all₅, end_⟩ := exists_span isBlank s₇
  refine ⟨gap, inner, outer, blanks, last, ?_, by simp only [List.all_append, all₁, all₂, all₃, all₄, all₅, Bool.and_self], quotes⟩
  have named : s₄ = s₄.takeWhile isPayloadChar ++ quote :: s₅ := by
    have split : s₄.dropWhile isPayloadChar = quote :: s₅ := after?_eq_some_iff.1 closed
    rw [← split, List.takeWhile_append_dropWhile]
  have opening : s₃ = inner ++ quote :: s₄ := trimmed.trans (congrArg (inner ++ ·) whole)
  have separated : s₅ = outer ++ ',' :: s₆ := spaced.trans (congrArg (outer ++ ·) (after?_eq_some_iff.1 comma))
  have placed : s₆ = blanks ++ (location.toList ++ s₇) := ahead.trans (congrArg (blanks ++ ·) (after?_eq_some_iff.1 place))
  have closing : s₇ = last ++ ')' :: s₈ := end_.trans (congrArg (last ++ ·) (after?_eq_some_iff.1 close))
  calc s = "new".toList ++ (gap ++ ("URL(".toList ++ s₃)) := by
        rw [after?_eq_some_iff.1 new_, after?_eq_some_iff.1 constructor_]
    _ = urlFront ⟨quote, s₄.takeWhile isPayloadChar⟩ gap inner outer blanks ++ (location.toList ++ s₇) := by
        rw [opening]
        conv_lhs => rw [named, separated, placed]
        simp only [urlFront, List.append_assoc, List.cons_append]
    _ = _ := by rw [closing]

/-- The URL of a payload names the location behind two quotes. -/
theorem location_of_payloadUrl {first : Option Char} {s rest : List Char} {url : PayloadUrl}
    (found : payloadUrl first s = some (url, rest)) :
    ∃ front back, s = front ++ (location.toList ++ back) ∧ 2 ≤ front.countP isQuote ∧
      front.getLast?.any isWord = false ∧ Stops isWord back := by
  obtain ⟨gap, inner, outer, blanks, last, whole, all, quotes⟩ := exists_of_payloadUrl found
  simp only [List.all_append, Bool.and_eq_true] at all
  obtain ⟨⟨-, all₁⟩, all₂⟩ := all
  refine ⟨_, _, whole, ?_, ?_, ?_⟩
  · simp only [urlFront, List.countP_append, List.countP_cons, quotes, if_true]
    omega
  · simpa [urlFront] using not_isWord_getLast? all₁ (show isWord ',' = false by decide)
      ("new".toList ++ gap ++ "URL(".toList ++ inner ++ url.quote :: (url.name ++ url.quote :: outer))
  · cases last with
    | nil => exact stops_cons.2 (by decide)
    | cons c last => exact stops_cons.2 (isWord_of_isBlank (List.all_eq_true.1 all₂ c List.mem_cons_self))

/-- A text in which the recogniser of payload URLs finds nothing refers to no payload. -/
theorem payload?_eq_noPayload {s : List Char} (nowhere : ∀ first u v url rest, s = u ++ v → payloadUrl first v ≠ some (url, rest)) :
    payload? s = .error .noPayload := by
  have none_ : finds payloadUrl s = [] := by
    refine List.eq_nil_iff_forall_not_mem.2 fun url found => ?_
    obtain ⟨first, t, rest, ⟨u, whole⟩, here⟩ := exists_suffix_of_mem_pieces found
    exact nowhere first u t url rest whole.symm here
  rw [payload?, payloadNames, none_]
  rfl

/-! ## Prepared loaders -/

theorem not_isQuote_payloadSpecifier {source : List Char} {name : String} (named : payload? source = .ok name) {c : Char}
    (mem : c ∈ (payloadSpecifier name).toList) : isQuote c = false := by
  cases quote : isQuote c with
  | false => rfl
  | true =>
    obtain rfl | rfl : c = '\'' ∨ c = '"' := by simpa [isQuote] using quote
    all_goals
      refine absurd mem (not_mem_payloadSpecifier (not_mem_of_all (payload?_sound named).1 ?_) ?_ ?_)
      all_goals decide

/-- A word that stands around a mark it does not hold stands before it or behind it. -/
theorem word_beside_mark {a b u v word : List Char} {mark : Char} (plain : mark ∉ word)
    (whole : a ++ mark :: b = u ++ (word ++ v)) :
    (∃ w, a = u ++ (word ++ w)) ∨ ∃ w, u = a ++ mark :: w ∧ b = w ++ (word ++ v) := by
  rcases append_eq_append_cons whole.symm with behind | ⟨w, split, rest⟩
  · exact .inr behind
  · obtain ⟨w', rfl, -⟩ := exists_eq_append_cons_of_not_mem rest plain
    exact .inl ⟨w', split⟩

/-- Of the two quotes of the line that imports the payload, one is its last character but one. -/
theorem payloadLine_eq {source : List Char} {name : String} (named : payload? source = .ok name)
    (binding : isName options.payloadBinding.toList = true) :
    ∃ front, payloadLine options (payloadSpecifier name) = front ++ ['\'', ';'] ∧ front.countP isQuote = 1 := by
  refine ⟨_, rfl, ?_⟩
  have name_ : options.payloadBinding.toList.countP isQuote = 0 := List.countP_eq_zero.2 fun c mem quote => by
    have plain := List.all_eq_true.1 (isName_iff.1 binding).2 c mem
    obtain rfl | rfl : c = '\'' ∨ c = '"' := by simpa [isQuote] using quote
    all_goals exact absurd plain (by decide)
  have specifier : (payloadSpecifier name).toList.countP isQuote = 0 := List.countP_eq_zero.2 fun c mem => by
    simp [not_isQuote_payloadSpecifier named mem]
  rw [List.countP_append, List.countP_append, List.countP_append, name_, specifier]
  rfl

/-- In the line that imports the payload, no expression of the location is behind two quotes. -/
theorem not_location_payloadLine {source : List Char} {name : String} (named : payload? source = .ok name)
    (binding : isName options.payloadBinding.toList = true) {u w : List Char} (quotes : 2 ≤ u.countP isQuote) :
    payloadLine options (payloadSpecifier name) ≠ u ++ (location.toList ++ w) := by
  intro whole
  obtain ⟨front, line, one⟩ := payloadLine_eq named binding
  rw [line] at whole
  rcases word_beside_mark (by decide) whole with ⟨w', split⟩ | ⟨w', -, short⟩
  · rw [split, List.countP_append] at one
    omega
  · have lengths := congrArg List.length short
    have size : location.toList.length = 15 := by decide
    simp only [List.length_append, List.length_singleton, size] at lengths
    omega

/-- A header of names and a rest that does not name its location refer to no payload. -/
theorem payload?_header {source : List Char} {name : String} (named : payload? source = .ok name)
    (binding : isName options.payloadBinding.toList = true) (names : ∀ hook ∈ options.hooks, isName hook = true)
    {body : List Char} (fixed : ¬ NamesLocation body) :
    payload? (payloadLine options (payloadSpecifier name) ++ '\n' :: (hookLine options ++ '\n' :: body)) =
      .error .noPayload := by
  refine payload?_eq_noPayload fun first u v url rest whole found => ?_
  obtain ⟨front, back, rfl, quotes, before, stop⟩ := location_of_payloadUrl found
  have filled : front ≠ [] := by
    rintro rfl
    simp at quotes
  rw [← List.append_assoc] at whole
  have inside : 2 ≤ (u ++ front).countP isQuote := by
    rw [List.countP_append]
    omega
  rcases word_beside_mark (by decide) whole with ⟨w, split⟩ | ⟨w, split, rest⟩
  · exact not_location_payloadLine named binding inside split
  rcases word_beside_mark (by decide) rest with ⟨w', split'⟩ | ⟨w', rfl, rest'⟩
  · have dot : '.' ∈ hookLine options := by
      rw [split']
      exact List.mem_append_right _ (List.mem_append_left _ (by decide))
    have dotless : '.' ∉ hookLine options :=
      List.not_mem_append (List.not_mem_append (by decide) (not_mem_joinWith (by decide) fun hook listed =>
        not_mem_of_all (isName_iff.1 (names hook listed)).2 (by decide))) (by decide)
    exact dotless dot
  · refine fixed ⟨w', back, rest', ?_, stop⟩
    by_cases empty : w' = []
    · simp [empty]
    · have last := congrArg List.getLast? split
      rw [List.getLast?_append_of_ne_nil _ filled] at last
      rw [last] at before
      simpa [List.getLast?_append, List.getLast?_cons, List.getLast?_eq_some_getLast empty] using before

/-- The body of a prepared loader does not name its location, when the placeholder is a literal text
without characters of the expression. -/
theorem not_namesLocation_fixLocation {s body : List Char} (literal : Template.isLiteral options.locationPlaceholder.toList = true)
    (filled : options.locationPlaceholder.toList ≠ []) (foreign : ∀ c ∈ options.locationPlaceholder.toList, c ∉ location.toList)
    (fixed : fixLocation options s = .ok body) : ¬ NamesLocation body := by
  obtain ⟨parts, read, replaced⟩ := bind_eq_ok_iff.1 fixed
  obtain ⟨parts', read', same⟩ := Template.exists_of_isLiteral locationGroups literal
  obtain rfl : parts' = parts := Except.ok.inj (read'.symm.trans (mapError_eq_ok_iff.1 read))
  obtain rfl := Except.ok.inj replaced
  simp only [same]
  exact not_namesLocation_replaceFinds filled foreign s

/-- Behind the two lines of its header, a prepared loader does not name its location; nothing can prepare it
again. -/
theorem inlinePayload_of_prepared {source prepared : String} (accepted : inlinePayload {} source = .ok prepared) :
    (∃ name body, payload? source.toList = .ok name ∧
      prepared.toList = payloadLine {} (payloadSpecifier name) ++ '\n' :: (hookLine {} ++ '\n' :: body) ∧
      '\n' ∉ payloadLine {} (payloadSpecifier name) ∧ '\n' ∉ hookLine {} ∧ ¬ NamesLocation body) ∧
    ∀ options, inlinePayload options prepared = .error (.mismatch .noPayload) := by
  unfold inlinePayload at accepted
  obtain ⟨name, named, accepted⟩ := bind_eq_ok_iff.1 accepted
  obtain ⟨text, -, accepted⟩ := bind_eq_ok_iff.1 accepted
  obtain ⟨body, fixed, same⟩ := bind_eq_ok_iff.1 accepted
  obtain rfl := Except.ok.inj same
  replace named := mapError_eq_ok_iff.1 named
  have names : ∀ hook ∈ LoaderOptions.hooks {}, isName hook = true := by decide
  have foreign : ∀ c ∈ (LoaderOptions.locationPlaceholder {}).toList, c ∉ location.toList := by
    have apart : ((LoaderOptions.locationPlaceholder {}).toList.all fun c => !location.toList.contains c) = true := by decide
    simpa using apart
  have free := not_namesLocation_fixLocation (by decide) (by decide) foreign fixed
  have whole : (header {} (payloadSpecifier name) ++ String.ofList body).toList =
      payloadLine {} (payloadSpecifier name) ++ '\n' :: (hookLine {} ++ '\n' :: body) := by
    rw [String.toList_append, toList_header, String.toList_ofList]
    simp
  refine ⟨⟨name, body, named, whole, ?_, not_mem_hookLine names, free⟩, fun options => ?_⟩
  · exact not_mem_payloadLine (by decide) (not_mem_payloadSpecifier (not_mem_payload named) (by decide) (by decide))
  · rw [inlinePayload, whole, payload?_header named (by decide) names free]
    rfl

/-- A loader that constructs the URL of one payload and asks for its location twice more. -/
def askingLoader : String :=
  "const url = new URL('p.wasm', import.meta.url);\nconst here = import.meta.url, xs = [import.meta.url];\n"

/-- The asking loader is prepared, once. -/
theorem inlinePayload_askingLoader :
    ∃ prepared, (inlinePayload {} askingLoader).toOption = some prepared ∧
      prepared = "import wasmCode from './p.wasm';\nlet startWorkers, terminateWorkers;\n" ++
        "const url = wasmCode;\nconst here = \"/\", xs = [\"/\"];\n" ∧
      ∀ options, inlinePayload options prepared = .error (.mismatch .noPayload) := by
  have prepares : (inlinePayload {} askingLoader).toOption =
      some ("import wasmCode from './p.wasm';\nlet startWorkers, terminateWorkers;\n" ++
        "const url = wasmCode;\nconst here = \"/\", xs = [\"/\"];\n") := by
    decide +kernel
  exact ⟨_, prepares, rfl, (inlinePayload_of_prepared (eq_ok_of_toOption prepares)).2⟩

end WasmPackaging.Loader
