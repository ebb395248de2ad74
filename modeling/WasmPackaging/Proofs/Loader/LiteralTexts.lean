import WasmPackaging.Proofs.Loader.FixedLocation

/-!
When the texts of the options stand in a prepared loader as they are written. The header takes the binding
as it is; the rest of the module takes binding and placeholder as templates. Main fact: a module that
refers to one payload is prepared, with both texts in place as they are written, when the backslashes of
both stand for themselves, and one that does not is a mismatch (`inlinePayload_literal`); a text with any
other backslash is never put in as it is written.
-/

namespace WasmPackaging.Loader

open Text Template

variable {options : LoaderOptions} {source : List Char} {name : String}

/-! ## Literal texts -/

/-- The module with the binding, as it is written, in place of its payload's URLs. -/
def boundText (options : LoaderOptions) (source : List Char) : List Char :=
  replaceFinds payloadUrl (put options.payloadBinding.toList) source

/-- The module with the placeholder, as it is written, in place of its location. -/
def fixedText (options : LoaderOptions) (source : List Char) : List Char :=
  replaceFinds locationUse (put options.locationPlaceholder.toList) source

theorem bindPayload_of_isLiteral (literal : isLiteral options.payloadBinding.toList = true) :
    bindPayload options source = .ok (boundText options source) := by
  obtain ⟨parts, read, same⟩ := exists_of_isLiteral payloadGroups literal
  have text : (fun (url : PayloadUrl) whole => expand parts (url.group whole)) = put options.payloadBinding.toList := by
    funext url whole
    exact same _
  rw [bindPayload, readTemplate, read, boundText, ← text]
  rfl

theorem fixLocation_of_isLiteral (literal : isLiteral options.locationPlaceholder.toList = true) :
    fixLocation options source = .ok (fixedText options source) := by
  obtain ⟨parts, read, same⟩ := exists_of_isLiteral locationGroups literal
  have text : (fun (_ : Unit) whole => expand parts fun _ => whole) = put options.locationPlaceholder.toList := by
    funext _ whole
    exact same _
  rw [fixLocation, readTemplate, read, fixedText, ← text]
  rfl

/-! ## Other texts -/

theorem isMark_of_isBlank {c : Char} (blank : isBlank c = true) : Template.isMark c = false := by
  have other := isWord_of_isBlank blank
  cases mark : Template.isMark c with
  | false => rfl
  | true =>
    rcases Bool.or_eq_true_iff.1 mark with escape | digit
    · obtain rfl := beq_iff_eq.1 escape
      exact absurd blank (by decide)
    · rw [isWord_of_isAlphanum (by simp [Char.isAlphanum, digit])] at other
      cases other

theorem marks_blanks {blanks : List Char} (all : blanks.all isBlank = true) : marks blanks = 0 :=
  List.countP_eq_zero.2 fun c mem => by simp [isMark_of_isBlank (List.all_eq_true.1 all c mem)]

theorem payloadUrl_text {first : Option Char} {covered rest : List Char} {url : PayloadUrl}
    (found : payloadUrl first (covered ++ rest) = some (url, rest)) :
    ∃ gap inner outer blanks last, covered = urlFront url gap inner outer blanks ++ (location.toList ++ (last ++ [')'])) ∧
      (gap ++ inner ++ outer ++ blanks ++ last).all isBlank = true ∧ isQuote url.quote = true := by
  obtain ⟨gap, inner, outer, blanks, last, whole, rest_⟩ := exists_of_payloadUrl found
  exact ⟨gap, inner, outer, blanks, last, List.append_cancel_right (whole.trans (by simp)), rest_⟩

/-- The URL of a payload has the marks of the payload's name alone. -/
theorem marks_payloadUrl {first : Option Char} {covered rest : List Char} {url : PayloadUrl}
    (found : payloadUrl first (covered ++ rest) = some (url, rest)) (unmarked : marks url.name = 0) (number : Nat) :
    marks (url.group covered number) = 0 := by
  obtain ⟨gap, inner, outer, blanks, last, text, all, quotes⟩ := payloadUrl_text found
  have quote : marks [url.quote] = 0 := by
    have either : url.quote = '\'' ∨ url.quote = '"' := by simpa [isQuote] using quotes
    rcases either with same | same <;> rw [same] <;> decide
  rcases number with _ | _ | number
  · have blank := marks_blanks all
    simp only [marks_append] at blank
    have split : covered = "new".toList ++ gap ++ "URL(".toList ++ inner ++
        ([url.quote] ++ (url.name ++ ([url.quote] ++ (outer ++ ([','] ++ blanks))))) ++
          (location.toList ++ (last ++ [')'])) := text
    have words : marks "new".toList = 0 ∧ marks "URL(".toList = 0 ∧ marks location.toList = 0 ∧ marks [','] = 0 ∧
        marks [')'] = 0 := by decide
    rw [PayloadUrl.group, split]
    simp only [marks_append]
    omega
  · exact quote
  · exact unmarked

theorem payloadUrl_cuts : Recognizer.Cuts payloadUrl := by
  intro first s url rest found
  obtain ⟨gap, inner, outer, blanks, last, whole, -⟩ := exists_of_payloadUrl found
  exact ⟨urlFront url gap inner outer blanks ++ (location.toList ++ (last ++ [')'])), by simp, by simpa using whole⟩

theorem payloadNames_eq (named : payload? source = .ok name) : payloadNames source = [name] := by
  unfold payload? at named
  split at named <;> simp_all

/-- Every payload URL of a module names its one payload, and there is one. -/
theorem hits_of_payload (named : payload? source = .ok name) :
    (∀ url covered, .hit url covered ∈ pieces payloadUrl none source → url.name = name.toList) ∧
      ∃ url covered, .hit url covered ∈ pieces payloadUrl none source := by
  have one := payloadNames_eq named
  constructor
  · intro url covered mem
    have listed : String.ofList url.name ∈ payloadNames source := by
      rw [payloadNames, List.mem_eraseDups]
      exact List.mem_map_of_mem (List.mem_filterMap.2 ⟨_, mem, rfl⟩)
    rw [one, List.mem_singleton] at listed
    rw [← listed, String.toList_ofList]
  · have listed : name ∈ payloadNames source := by simp [one]
    rw [payloadNames, List.mem_eraseDups, List.mem_map] at listed
    obtain ⟨url, found, -⟩ := listed
    obtain ⟨piece, mem, value⟩ := List.mem_filterMap.1 found
    cases piece with
    | plain c => cases value
    | hit other covered => exact ⟨other, covered, mem⟩

/-- Where the payload's name has neither backslash nor digit, the binding is put in as it is written exactly
when its backslashes stand for themselves. -/
theorem bindPayload_eq_boundText_iff (named : payload? source = .ok name) (unmarked : marks name.toList = 0) :
    bindPayload options source = .ok (boundText options source) ↔ isLiteral options.payloadBinding.toList = true := by
  refine ⟨fun bound => ?_, bindPayload_of_isLiteral⟩
  obtain ⟨parts, read, same⟩ := bind_eq_ok_iff.1 bound
  obtain ⟨each, some_⟩ := hits_of_payload named
  cases literal : isLiteral options.payloadBinding.toList with
  | true => rfl
  | false =>
    refine absurd (Except.ok.inj same) (replaceFinds_ne (p := Template.isMark) (fun url covered mem => ?_) some_)
    obtain ⟨before, rest, found⟩ := exists_of_hit_mem_pieces payloadUrl_cuts mem
    have plain : marks url.name = 0 := by rw [each url covered mem, unmarked]
    exact marks_expand_lt (marks_payloadUrl found plain) (mapError_eq_ok_iff.1 read) literal

/-- A module that names its location has the placeholder put in as it is written exactly when the
placeholder's backslashes stand for themselves. -/
theorem fixLocation_eq_fixedText_iff (names : NamesLocation source) :
    fixLocation options source = .ok (fixedText options source) ↔
      isLiteral options.locationPlaceholder.toList = true := by
  refine ⟨fun fixed => ?_, fixLocation_of_isLiteral⟩
  obtain ⟨parts, read, same⟩ := bind_eq_ok_iff.1 fixed
  cases literal : isLiteral options.locationPlaceholder.toList with
  | true => rfl
  | false =>
    have some_ : ∃ value covered, .hit value covered ∈ pieces locationUse none source := by
      refine @exists_hit_of_locate _ 0 _ fun empty => ?_
      obtain ⟨u, v, whole, before, stop⟩ := names
      have missing := (locateIn_eq_nil_iff locationUse_cuts source).1 empty u _ whole (by simp [location])
      rw [locationUse_eq_some_iff.2 ⟨rfl, by simpa [charBefore] using before, stop⟩] at missing
      cases missing
    refine absurd (Except.ok.inj same) (replaceFinds_ne (p := Template.isMark) (fun value covered mem => ?_) some_)
    obtain ⟨before, rest, found⟩ := exists_of_hit_mem_pieces locationUse_cuts mem
    obtain rfl : covered = location.toList := List.append_cancel_right (locationUse_eq_some_iff.1 found).1
    exact marks_expand_lt (fun _ => by decide) (mapError_eq_ok_iff.1 read) literal

/-! ## Preparing -/

theorem inlinePayload_of_payload {source : String} (named : payload? source.toList = .ok name) :
    inlinePayload options source = (do
      let body ← fixLocation options (← bindPayload options source.toList)
      return header options (payloadSpecifier name) ++ String.ofList body) := by
  rw [inlinePayload, named]
  rfl

/-- A module with a payload is prepared exactly when binding and placeholder can be read as templates. -/
theorem inlinePayload_isOk_iff {source : String} (named : payload? source.toList = .ok name) :
    (∃ prepared, inlinePayload options source = .ok prepared) ↔
      (∃ parts, Template.read payloadGroups options.payloadBinding = .ok parts) ∧
        ∃ parts, Template.read locationGroups options.locationPlaceholder = .ok parts := by
  rw [inlinePayload_of_payload named]
  constructor
  · rintro ⟨prepared, accepted⟩
    obtain ⟨text, bound, accepted⟩ := bind_eq_ok_iff.1 accepted
    obtain ⟨body, fixed, -⟩ := bind_eq_ok_iff.1 accepted
    obtain ⟨parts, read, -⟩ := bind_eq_ok_iff.1 bound
    obtain ⟨parts', read', -⟩ := bind_eq_ok_iff.1 fixed
    exact ⟨⟨parts, mapError_eq_ok_iff.1 read⟩, parts', mapError_eq_ok_iff.1 read'⟩
  · rintro ⟨⟨parts, read⟩, parts', read'⟩
    simp only [bindPayload, fixLocation, readTemplate, read, read']
    exact ⟨_, rfl⟩

/-- A module without one payload is a mismatch, whatever the options are, and one with a payload is prepared
exactly when binding and placeholder can be read as templates. When the backslashes of both stand for
themselves, they can, and both are put in as they are written. A binding with another backslash is never put
in so for a payload whose name has neither backslash nor digit, and such a placeholder never for a
location. -/
theorem inlinePayload_literal (options : LoaderOptions) (source : String) :
    (∀ cause, payload? source.toList = .error cause → inlinePayload options source = .error (.mismatch cause)) ∧
    ∀ name, payload? source.toList = .ok name →
      ((∃ prepared, inlinePayload options source = .ok prepared) ↔
        (∃ parts, Template.read payloadGroups options.payloadBinding = .ok parts) ∧
          ∃ parts, Template.read locationGroups options.locationPlaceholder = .ok parts) ∧
      (isLiteral options.payloadBinding.toList = true → isLiteral options.locationPlaceholder.toList = true →
        inlinePayload options source = .ok (header options (payloadSpecifier name) ++
          String.ofList (fixedText options (boundText options source.toList)))) ∧
      (marks name.toList = 0 →
        (bindPayload options source.toList = .ok (boundText options source.toList) ↔
          isLiteral options.payloadBinding.toList = true)) ∧
      ∀ text, NamesLocation text →
        (fixLocation options text = .ok (fixedText options text) ↔
          isLiteral options.locationPlaceholder.toList = true) := by
  refine ⟨fun cause none_ => ?_, fun name named => ⟨inlinePayload_isOk_iff named, fun bound fixed => ?_,
    bindPayload_eq_boundText_iff named, fun _ names => fixLocation_eq_fixedText_iff names⟩⟩
  · rw [inlinePayload, none_]
    rfl
  · rw [inlinePayload_of_payload named, bindPayload_of_isLiteral bound]
    change (fixLocation options (boundText options source.toList) >>= fun body => _) = _
    rw [fixLocation_of_isLiteral fixed]
    rfl

/-- A backslash before a dot stays in the header and in the body. -/
theorem inlinePayload_literal_dotted :
    inlinePayload { payloadBinding := "a\\.b" } askingLoader =
      .ok ("import a\\.b from './p.wasm';\nlet startWorkers, terminateWorkers;\n" ++
        "const url = a\\.b;\nconst here = \"/\", xs = [\"/\"];\n") := by
  have named : payload? askingLoader.toList = .ok "p.wasm" := by decide +kernel
  obtain ⟨-, -, literal, -⟩ := And.imp_right (fun one => one "p.wasm" named)
    (inlinePayload_literal { payloadBinding := "a\\.b" } askingLoader)
  rw [literal (by decide) (by decide)]
  exact congrArg Except.ok (by decide +kernel)

/-- With a backslash before a letter the placeholder is a bad template, and of two backslashes in the binding
the body keeps one. -/
theorem inlinePayload_not_literal :
    (∃ cause, inlinePayload { locationPlaceholder := "\"C:\\dist\"" } askingLoader = .error (.template cause)) ∧
      (inlinePayload { payloadBinding := "a\\\\b" } fetchingLoader).toOption =
        some ("import a\\\\b from './p.wasm';\nlet startWorkers, terminateWorkers;\nconst url = a\\b;\n") := by
  constructor
  · have named : payload? askingLoader.toList = .ok "p.wasm" := by decide +kernel
    refine ⟨.malformed (.badEscape 'd') 3 "\"C:\\dist\"", ?_⟩
    rw [inlinePayload, named]
    rfl
  · decide +kernel

end WasmPackaging.Loader
