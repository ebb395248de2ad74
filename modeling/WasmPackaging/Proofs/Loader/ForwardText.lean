import WasmPackaging.Loader.Declaration
import WasmPackaging.Proofs.Text.Lines
import WasmPackaging.Proofs.Text.Spans

/-!
The grammar of uninitialised declarations. Main facts: a declaration is recognised at a line exactly
when its text starts there (`forward_iff`), and no declaration starts on a line within another
(`forward_apart`).
-/

namespace WasmPackaging.Loader

open Text

/-- Names with a comma between neighbours, and blanks around each comma. -/
inductive NameList : List (List Char) → List Char → Prop where
  | last {name : List Char} : isName name = true → NameList [name] name
  | more {name gap gap' text : List Char} {names : List (List Char)} : isName name = true →
      gap.all isBlank = true → gap'.all isBlank = true → NameList names text →
      NameList (name :: names) (name ++ gap ++ ',' :: gap' ++ text)

/-- The text of a declaration without values up to its semicolon. -/
inductive ForwardText : Forward → List Char → Prop where
  | mk {keyword gap listed gap' : List Char} {names : List (List Char)} :
      keyword = "var".toList ∨ keyword = "let".toList → gap ≠ [] → gap.all isBlank = true →
      NameList names listed → gap'.all isBlank = true →
      ForwardText ⟨keyword, names⟩ (keyword ++ gap ++ listed ++ gap' ++ [';'])

/-- What is behind a declaration when `s` is behind its semicolon: blanks of the line and the line's
end still belong to it. -/
def behindLine (s : List Char) : List Char := (afterNewline? (s.dropWhile isIndent)).getD (s.dropWhile isIndent)

theorem nameList_joinWith {names : List (List Char)} (filled : names ≠ [])
    (valid : ∀ name ∈ names, isName name = true) : NameList names (joinWith [',', ' '] names) := by
  fun_induction joinWith [',', ' '] names with
  | case1 => exact absurd rfl filled
  | case2 name => exact .last (valid name (by simp))
  | case3 name rest more ih =>
    have tail := ih more fun other listed => valid other (by simp [listed])
    have list := @NameList.more name [] [' '] _ _ (valid name (by simp)) rfl (by decide) tail
    simpa using list

/-! ## Reading names -/

theorem takeName?_eq_some_iff {s name rest : List Char} :
    takeName? s = some (name, rest) ↔ isName name = true ∧ Stops isNameChar rest ∧ s = name ++ rest := by
  unfold takeName?
  constructor
  · intro taken
    split at taken
    · rename_i starts
      simp only [Option.some.injEq, Prod.mk.injEq] at taken
      obtain ⟨rfl, rfl⟩ := taken
      refine ⟨isName_iff.2 ⟨?_, List.all_takeWhile⟩, stops_dropWhile _ _, List.takeWhile_append_dropWhile.symm⟩
      cases s with
      | nil => simp [startsName] at starts
      | cons c s =>
        have name : isNameChar c = true := by simpa [startsName] using starts
        simp [name]
    · simp at taken
  · rintro ⟨valid, stop, rfl⟩
    obtain ⟨filled, all⟩ := isName_iff.1 valid
    rw [takeWhile_span all stop, dropWhile_span all stop, if_pos]
    cases name with
    | nil => exact absurd rfl filled
    | cons c name =>
      simp only [List.all_cons, Bool.and_eq_true] at all
      simp [startsName, all.1]

theorem startsName_append_of_isName {name s : List Char} (h : isName name = true) : startsName (name ++ s) = true := by
  obtain ⟨filled, all⟩ := isName_iff.1 h
  cases name with
  | nil => exact absurd rfl filled
  | cons c name =>
    simp only [List.all_cons, Bool.and_eq_true] at all
    simp [startsName, all.1]

theorem NameList.startsName {names : List (List Char)} {text s : List Char} (list : NameList names text) :
    startsName (text ++ s) = true := by
  cases list with
  | last name => exact startsName_append_of_isName name
  | more name => simpa using startsName_append_of_isName name

theorem nextName?_eq_some_iff {s rest : List Char} :
    nextName? s = some rest ↔ ∃ gap gap', gap.all isBlank = true ∧ gap'.all isBlank = true ∧
      startsName rest = true ∧ s = gap ++ ',' :: gap' ++ rest := by
  unfold nextName?
  simp only [Option.bind_eq_bind, Option.bind_eq_some_iff, after?_eq_some_iff]
  constructor
  · rintro ⟨a, comma, found⟩
    split at found
    · rename_i starts
      obtain rfl := Option.some.inj found
      obtain ⟨gap, blank, whole⟩ := exists_span isBlank s
      obtain ⟨gap', blank', rest⟩ := exists_span isBlank a
      refine ⟨gap, gap', blank, blank', starts, ?_⟩
      calc
        s = gap ++ ([','] ++ a) := by rw [← comma]; exact whole
        _ = gap ++ ',' :: gap' ++ trimStart a := by
          simp only [List.nil_append, List.append_assoc, List.cons_append]
          rw [trimStart, ← rest]
    · simp at found
  · rintro ⟨gap, gap', blank, blank', starts, rfl⟩
    have stop : Stops isBlank rest := by
      cases rest with
      | nil => simp
      | cons c rest => simpa using isBlank_of_isNameChar (by simpa [startsName] using starts)
    refine ⟨gap' ++ rest, ?_, by simp [trimStart, dropWhile_span blank' stop, starts]⟩
    rw [List.append_assoc, trimStart, dropWhile_span blank (by simp; decide)]
    rfl

theorem takeNames?_sound {s rest : List Char} {names : List (List Char)} (taken : takeNames? s = some (names, rest)) :
    ∃ text, NameList names text ∧ s = text ++ rest := by
  fun_induction takeNames? s generalizing names rest with
  | case1 => simp at taken
  | case2 s name behind here more =>
    simp only [Option.some.injEq, Prod.mk.injEq] at taken
    obtain ⟨rfl, rfl⟩ := taken
    obtain ⟨name, _, rfl⟩ := takeName?_eq_some_iff.1 here
    exact ⟨_, .last name, rfl⟩
  | case3 s name behind here next more ih =>
    simp only [Option.map_eq_some_iff, Prod.mk.injEq] at taken
    obtain ⟨⟨names, rest⟩, later, rfl, rfl⟩ := taken
    obtain ⟨text, list, rfl⟩ := ih later
    obtain ⟨name, _, rfl⟩ := takeName?_eq_some_iff.1 here
    obtain ⟨gap, gap', blank, blank', _, rfl⟩ := nextName?_eq_some_iff.1 more
    exact ⟨_, .more name blank blank' list, by simp⟩

theorem takeNames?_of_last {s name behind : List Char} (here : takeName? s = some (name, behind))
    (last : nextName? behind = none) : takeNames? s = some ([name], behind) := by
  rw [takeNames?]
  split
  · rename_i missing
    simp [here] at missing
  · rename_i name' behind' taken
    simp only [here, Option.some.injEq, Prod.mk.injEq] at taken
    obtain ⟨rfl, rfl⟩ := taken
    split
    · rfl
    · rename_i more
      simp [last] at more

theorem takeNames?_of_more {s name behind next : List Char} (here : takeName? s = some (name, behind))
    (more : nextName? behind = some next) :
    takeNames? s = (takeNames? next).map fun (names, rest) => (name :: names, rest) := by
  rw [takeNames?]
  split
  · rename_i missing
    simp [here] at missing
  · rename_i name' behind' taken
    simp only [here, Option.some.injEq, Prod.mk.injEq] at taken
    obtain ⟨rfl, rfl⟩ := taken
    split
    · rename_i none
      simp [more] at none
    · rename_i next' some_
      obtain rfl : next = next' := Option.some.inj (more.symm.trans some_)
      rfl

theorem takeNames?_complete {names : List (List Char)} {text rest : List Char} (list : NameList names text)
    (stop : Stops isNameChar rest) (last : nextName? rest = none) :
    takeNames? (text ++ rest) = some (names, rest) := by
  induction list with
  | last valid => exact takeNames?_of_last (takeName?_eq_some_iff.2 ⟨valid, stop, rfl⟩) last
  | @more name gap gap' text names valid blank blank' list ih =>
    have commaStop : Stops isNameChar (gap ++ ',' :: gap' ++ (text ++ rest)) := by
      cases gap with
      | nil => simp; decide
      | cons c gap =>
        simp only [List.all_cons, Bool.and_eq_true] at blank
        simpa using isNameChar_of_isBlank blank.1
    have here : takeName? (name ++ gap ++ ',' :: gap' ++ text ++ rest) =
        some (name, gap ++ ',' :: gap' ++ (text ++ rest)) :=
      takeName?_eq_some_iff.2 ⟨valid, commaStop, by simp⟩
    have more : nextName? (gap ++ ',' :: gap' ++ (text ++ rest)) = some (text ++ rest) :=
      nextName?_eq_some_iff.2 ⟨gap, gap', blank, blank', list.startsName, rfl⟩
    rw [takeNames?_of_more here more, ih]
    rfl

/-! ## Declarations -/

theorem forwardKeyword?_eq_some_iff {s keyword rest : List Char} :
    forwardKeyword? s = some (keyword, rest) ↔
      (keyword = "var".toList ∨ keyword = "let".toList) ∧ s = keyword ++ rest := by
  unfold forwardKeyword? afterWord?
  constructor
  · intro found
    split at found
    · rename_i behind var
      simp only [Option.some.injEq, Prod.mk.injEq] at found
      obtain ⟨rfl, rfl⟩ := found
      exact ⟨.inl rfl, after?_eq_some_iff.1 var⟩
    · simp only [Option.map_eq_some_iff, Prod.mk.injEq] at found
      obtain ⟨behind, let_, rfl, rfl⟩ := found
      exact ⟨.inr rfl, after?_eq_some_iff.1 let_⟩
  · rintro ⟨rfl | rfl, rfl⟩
    · rw [after?_eq_some_iff.2 rfl]
    · rw [show after? "var".toList ("let".toList ++ rest) = none from rfl, after?_eq_some_iff.2 rfl]
      rfl

/-- A declaration is recognised at the start of a line exactly when the line starts with its text. -/
theorem forward_iff {first : Option Char} {s rest : List Char} {declaration : Forward} :
    forward first s = some (declaration, rest) ↔
      atLineStart first = true ∧ ∃ text behind, ForwardText declaration text ∧ s = text ++ behind ∧ rest = behindLine behind := by
  obtain ⟨keyword, names⟩ := declaration
  constructor
  · intro found
    simp only [forward] at found
    split at found
    · rename_i line
      simp only [Option.bind_eq_bind, Option.bind_eq_some_iff, Prod.exists, Option.some.injEq, Prod.mk.injEq,
        Forward.mk.injEq] at found
      obtain ⟨keyword', a, word, b, blanks, names', c, taken, d, semicolon, ⟨rfl, rfl⟩, rfl⟩ := found
      obtain ⟨isKeyword, rfl⟩ := forwardKeyword?_eq_some_iff.1 word
      obtain ⟨gap, filled, blank, _, rfl⟩ := afterBlanks?_eq_some_iff.1 blanks
      obtain ⟨listed, list, rfl⟩ := takeNames?_sound taken
      obtain ⟨gap', blank', rest⟩ := exists_span isBlank c
      rw [← trimStart, after?_eq_some_iff.1 semicolon] at rest
      exact ⟨line, _, d, .mk isKeyword filled blank list blank', by simp [rest], rfl⟩
    · simp at found
  · rintro ⟨line, text, behind, declared, rfl, rfl⟩
    cases declared with
    | @mk keyword gap listed gap' names isKeyword filled blank list blank' =>
      have word : forwardKeyword? (keyword ++ gap ++ listed ++ gap' ++ [';'] ++ behind) =
          some (keyword, gap ++ (listed ++ (gap' ++ ';' :: behind))) :=
        forwardKeyword?_eq_some_iff.2 ⟨isKeyword, by simp⟩
      have nameStop : Stops isBlank (listed ++ (gap' ++ ';' :: behind)) := by
        have starts := list.startsName (s := gap' ++ ';' :: behind)
        cases front : listed ++ (gap' ++ ';' :: behind) with
        | nil => simp
        | cons c s =>
          rw [front] at starts
          simpa using isBlank_of_isNameChar (by simpa [startsName] using starts)
      have blanks := afterBlanks?_eq_some_iff.2 ⟨gap, filled, blank, nameStop, rfl⟩
      have semicolon : trimStart (gap' ++ ';' :: behind) = ';' :: behind :=
        dropWhile_span blank' (by simp; decide)
      have listStop : Stops isNameChar (gap' ++ ';' :: behind) := by
        cases gap' with
        | nil => simp; decide
        | cons c gap' =>
          simp only [List.all_cons, Bool.and_eq_true] at blank'
          simpa using isNameChar_of_isBlank blank'.1
      have last : nextName? (gap' ++ ';' :: behind) = none := by simp [nextName?, semicolon, after?]
      have taken := takeNames?_complete list listStop last
      simp only [forward, line, if_true, word, Option.bind_eq_bind, Option.bind_some, blanks, taken, semicolon]
      rfl

theorem forward_lined : Recognizer.Lined forward := by
  intro first s
  simp only [forward]
  split <;> simp [atLineStart]

/-- What belongs to a declaration behind its semicolon: blanks of the line, then at most its end. -/
theorem exists_lineEnd (s : List Char) :
    ∃ tail, s = tail ++ behindLine s ∧ ((∃ u, tail = u ++ ['\n'] ∧ '\n' ∉ u) ∨
      tail.all isIndent = true ∧ Stops isIndent (behindLine s)) := by
  obtain ⟨indent, all, whole⟩ := exists_span isIndent s
  have flat : '\n' ∉ indent := not_mem_of_all all (by decide)
  have stop := stops_dropWhile isIndent s
  unfold behindLine
  generalize s.dropWhile isIndent = rest at *
  cases ends : afterNewline? rest with
  | none => exact ⟨indent, whole, .inr ⟨all, stop⟩⟩
  | some behind =>
    unfold afterNewline? at ends
    split at ends
    · obtain rfl := Option.some.inj ends
      exact ⟨indent ++ ['\n'], by simp [whole], .inl ⟨indent, rfl, flat⟩⟩
    · obtain rfl := Option.some.inj ends
      exact ⟨indent ++ ['\r', '\n'], by simp [whole], .inl ⟨indent ++ ['\r'], by simp, by simp [flat]⟩⟩
    · simp at ends

/-- What a find covers: the text of a declaration, and what belongs to it behind its semicolon. -/
theorem exists_text_of_forward {first : Option Char} {s rest : List Char} {declaration : Forward}
    (found : forward first s = some (declaration, rest)) :
    atLineStart first = true ∧ ∃ text tail, s = text ++ tail ++ rest ∧ ForwardText declaration text ∧
      rest = behindLine (tail ++ rest) ∧ ((∃ u, tail = u ++ ['\n'] ∧ '\n' ∉ u) ∨
        tail.all isIndent = true ∧ Stops isIndent rest) := by
  obtain ⟨line, text, behind, declared, whole, rfl⟩ := forward_iff.1 found
  obtain ⟨tail, split, shape⟩ := exists_lineEnd behind
  exact ⟨line, text, tail, by rw [whole, List.append_assoc, ← split], declared, by rw [← split], shape⟩

theorem ForwardText.exists_semicolon {declaration : Forward} {text : List Char}
    (declared : ForwardText declaration text) : ∃ u, text = u ++ [';'] := by
  cases declared with
  | mk => exact ⟨_, rfl⟩

theorem ForwardText.ne_nil {declaration : Forward} {text : List Char} (declared : ForwardText declaration text) :
    text ≠ [] := by
  obtain ⟨u, rfl⟩ := declared.exists_semicolon
  simp

theorem forward_cuts : Recognizer.Cuts forward := by
  intro first s declaration rest found
  obtain ⟨_, text, tail, whole, declared, _⟩ := exists_text_of_forward found
  exact ⟨text ++ tail, by simp [declared.ne_nil], whole⟩

/-! ## Lines within a declaration -/

/-- Behind the name that a text starts with, if any, no other name follows after blanks alone. -/
def Bare (s : List Char) : Prop :=
  startsName s = true → Stops isNameChar (trimStart (s.dropWhile isNameChar))

theorem ForwardText.not_bare {declaration : Forward} {text behind : List Char}
    (declared : ForwardText declaration text) : ¬ Bare (text ++ behind) := by
  cases declared with
  | @mk keyword gap listed gap' names isKeyword filled blank list blank' =>
    intro bare
    have all : keyword.all isNameChar = true := by rcases isKeyword with rfl | rfl <;> decide
    have starts : startsName (keyword ++ gap ++ listed ++ gap' ++ [';'] ++ behind) = true := by
      simp only [List.append_assoc]
      exact startsName_append_of_isName (by rcases isKeyword with rfl | rfl <;> decide)
    have stop : Stops isNameChar (gap ++ (listed ++ (gap' ++ ([';'] ++ behind)))) := by
      cases gap with
      | nil => exact absurd rfl filled
      | cons c gap =>
        simp only [List.all_cons, Bool.and_eq_true] at blank
        simpa using isNameChar_of_isBlank blank.1
    have name := list.startsName (s := gap' ++ ([';'] ++ behind))
    have nameStop : Stops isBlank (listed ++ (gap' ++ ([';'] ++ behind))) := by
      cases front : listed ++ (gap' ++ ([';'] ++ behind)) with
      | nil => simp
      | cons c s =>
        rw [front] at name
        simpa using isBlank_of_isNameChar (by simpa [Text.startsName] using name)
    have next := bare starts
    simp only [List.append_assoc] at next
    rw [dropWhile_span all stop, trimStart, dropWhile_span blank nameStop, ← startsName_eq_false_iff, name] at next
    simp at next

/-- A blank around a name, before the mark that follows it, is followed by no second name. -/
theorem bare_or_behind {gap name gap' rest u v : List Char} {mark c : Char} (valid : isName name = true)
    (blank : gap.all isBlank = true) (blank' : gap'.all isBlank = true) (notName : isNameChar mark = false)
    (notBlank : isBlank mark = false) (space : isBlank c = true) (whole : gap ++ name ++ gap' ++ mark :: rest = u ++ c :: v) :
    (∀ behind, Bare (v ++ behind)) ∨ ∃ w, rest = w ++ c :: v := by
  obtain ⟨_, all⟩ := isName_iff.1 valid
  simp only [List.append_assoc] at whole
  rcases append_eq_append_cons whole with ⟨w, rfl, rfl⟩ | ⟨w, _, whole⟩
  · simp only [List.all_append, List.all_cons, Bool.and_eq_true] at blank
    refine .inl fun behind starts => ?_
    cases w with
    | nil =>
      have stop : Stops isNameChar (gap' ++ (mark :: rest ++ behind)) := by
        cases gap' with
        | nil => simpa using notName
        | cons c gap' =>
          simp only [List.all_cons, Bool.and_eq_true] at blank'
          simpa using isNameChar_of_isBlank blank'.1
      simp only [List.nil_append, List.append_assoc]
      rw [dropWhile_span all stop, trimStart, dropWhile_span blank' (by simpa using notBlank)]
      simpa using notName
    | cons c w =>
      simp only [List.all_cons, Bool.and_eq_true] at blank
      simp [startsName, isNameChar_of_isBlank blank.2.2.1] at starts
  · obtain ⟨w, _, whole⟩ := exists_eq_append_cons_of_not_mem whole (not_mem_of_all all (isNameChar_of_isBlank space))
    rcases append_eq_append_cons whole with ⟨w, rfl, rfl⟩ | ⟨w, _, whole⟩
    · simp only [List.all_append, List.all_cons, Bool.and_eq_true] at blank'
      refine .inl fun behind starts => ?_
      cases w with
      | nil => simp [startsName, notName] at starts
      | cons c w =>
        simp only [List.all_cons, Bool.and_eq_true] at blank'
        simp [startsName, isNameChar_of_isBlank blank'.2.2.1] at starts
    · cases w with
      | nil =>
        obtain rfl := (List.cons.inj whole).1
        simp [space] at notBlank
      | cons c w => exact .inr ⟨w, (List.cons.inj whole).2⟩

theorem NameList.bare_behind_blank {names : List (List Char)} {listed gap gap' u v : List Char} {c : Char}
    (list : NameList names listed) (blank : gap.all isBlank = true) (blank' : gap'.all isBlank = true) (space : isBlank c = true)
    (whole : gap ++ listed ++ gap' ++ [';'] = u ++ c :: v) (behind : List Char) : Bare (v ++ behind) := by
  induction list generalizing gap u with
  | last valid =>
    rcases bare_or_behind valid blank blank' (by decide) (by decide) space whole with bare | ⟨w, rest⟩
    · exact bare behind
    · simp at rest
  | @more name before after text names valid blankBefore blankAfter list ih =>
    have whole' : gap ++ name ++ before ++ ',' :: (after ++ text ++ gap' ++ [';']) = u ++ c :: v := by
      rw [← whole]
      simp
    rcases bare_or_behind valid blank blankBefore (by decide) (by decide) space whole' with bare | ⟨w, rest⟩
    · exact bare behind
    · exact ih blankAfter rest

theorem ForwardText.bare_behind_blank {declaration : Forward} {u v : List Char} {c : Char}
    (declared : ForwardText declaration (u ++ c :: v)) (space : isBlank c = true) (behind : List Char) : Bare (v ++ behind) := by
  generalize whole : u ++ c :: v = text at declared
  cases declared with
  | @mk keyword gap listed gap' names isKeyword filled blank list blank' =>
    have all : keyword.all isNameChar = true := by rcases isKeyword with rfl | rfl <;> decide
    have split : keyword ++ (gap ++ listed ++ gap' ++ [';']) = u ++ c :: v := by
      rw [whole]
      simp
    obtain ⟨w, _, rest⟩ := exists_eq_append_cons_of_not_mem split (not_mem_of_all all (isNameChar_of_isBlank space))
    exact list.bare_behind_blank blank blank' space rest behind

/-- A line feed in what a find covers stands in the text of the declaration, unless it is last. -/
theorem newline_within {declaration : Forward} {text tail rest u w : List Char} (declared : ForwardText declaration text)
    (shape : (∃ u, tail = u ++ ['\n'] ∧ '\n' ∉ u) ∨ tail.all isIndent = true ∧ Stops isIndent rest)
    (split : text ++ tail = u ++ '\n' :: w) (more : w ≠ []) :
    ∃ x, x ≠ [] ∧ text = u ++ '\n' :: x ∧ w = x ++ tail := by
  rcases append_eq_append_cons split with ⟨x, rfl, rfl⟩ | ⟨x, _, tailWhole⟩
  · refine ⟨x, ?_, rfl, rfl⟩
    rintro rfl
    obtain ⟨y, ends⟩ := declared.exists_semicolon
    have := congrArg List.getLast? ends
    simp at this
  · exfalso
    rcases shape with ⟨y, rfl, flat⟩ | ⟨all, _⟩
    · obtain ⟨z, _, last⟩ := exists_eq_append_cons_of_not_mem tailWhole flat
      cases z with
      | nil => exact more (by simpa using last.symm)
      | cons c z => simp at last
    · exact not_mem_of_all all (by decide) (show '\n' ∈ tail by simp [tailWhole])

theorem forward_apart : Recognizer.Apart forward := by
  intro first declaration u w rest found filled more
  cases again : forward (charBefore first u) (w ++ rest) with
  | none => rfl
  | some result =>
    exfalso
    obtain ⟨line, text', behind', declared', whole', _⟩ := forward_iff.1 again
    obtain ⟨_, text, tail, whole, declared, _, shape⟩ := exists_text_of_forward found
    obtain ⟨u, rfl⟩ := exists_eq_append_newline filled line
    have split : text ++ tail = u ++ '\n' :: w := by simpa using (List.append_cancel_right whole).symm
    obtain ⟨x, _, rfl, rfl⟩ := newline_within declared shape split more
    have bare := declared.bare_behind_blank (by decide) (tail ++ rest)
    rw [← List.append_assoc, whole'] at bare
    exact declared'.not_bare bare

/-! ## What follows a line -/

theorem behindLine_append {s : List Char} (ends : ∃ u, s = u ++ ['\n']) (b : List Char) :
    behindLine (s ++ b) = behindLine s ++ b := by
  have rest : ∃ u, s.dropWhile isIndent = u ++ ['\n'] := by
    obtain ⟨u, rfl⟩ := ends
    rw [List.dropWhile_append]
    split
    · exact ⟨[], by rfl⟩
    · exact ⟨_, rfl⟩
  have split : (s ++ b).dropWhile isIndent = s.dropWhile isIndent ++ b := by
    obtain ⟨u, restIs⟩ := rest
    rw [List.dropWhile_append, restIs]
    simp
  unfold behindLine
  rw [split]
  obtain ⟨u, restIs⟩ := rest
  rw [restIs]
  match u with
  | [] => rfl
  | ['\r'] => rfl
  | [c] =>
    by_cases h : c = '\r'
    · subst h; rfl
    · by_cases g : c = '\n'
      · subst g; rfl
      · simp [afterNewline?, h, g]
  | c :: d :: u =>
    by_cases g : c = '\n'
    · subst g; rfl
    · by_cases h : c = '\r' ∧ d = '\n'
      · obtain ⟨rfl, rfl⟩ := h
        rfl
      · have plain : ∀ t, afterNewline? (c :: d :: t) = none := by
          intro t
          unfold afterNewline?
          split <;> simp_all
        simp [plain]

/-- A declaration holds names, blanks, commas and its semicolon. -/
theorem ForwardText.not_mem {declaration : Forward} {text : List Char} {c : Char} (declared : ForwardText declaration text)
    (name : isNameChar c = false) (space : isBlank c = false) (comma : c ≠ ',') (semicolon : c ≠ ';') : c ∉ text := by
  cases declared with
  | @mk keyword gap listed gap' names isKeyword filled blank list blank' =>
    have noList : c ∉ listed := by
      clear filled
      induction list with
      | last valid => exact not_mem_of_all (isName_iff.1 valid).2 name
      | more valid before after _ ih =>
        simp only [List.mem_append, List.mem_cons, not_or]
        exact ⟨⟨⟨not_mem_of_all (isName_iff.1 valid).2 name, not_mem_of_all before space⟩, comma,
          not_mem_of_all after space⟩, ih⟩
    have all : keyword.all isNameChar = true := by rcases isKeyword with rfl | rfl <;> decide
    simp only [List.mem_append, not_or]
    exact ⟨⟨⟨⟨not_mem_of_all all name, not_mem_of_all blank space⟩, noList⟩, not_mem_of_all blank' space⟩,
      by simpa using semicolon⟩

/-- Whole lines are read alike whether or not a text follows that opens a brace before its first
semicolon. -/
theorem forward_append_of_lines {first : Option Char} {s b w z : List Char} (ends : ∃ u, s = u ++ ['\n'])
    (opens : b = w ++ '{' :: z) (plain : ';' ∉ w) :
    forward first (s ++ b) = (forward first s).map fun r => (r.1, r.2 ++ b) := by
  cases found : forward first s with
  | some result =>
    obtain ⟨declaration, rest⟩ := result
    obtain ⟨line, text, behind, declared, rfl, rfl⟩ := forward_iff.1 found
    have ends' : ∃ u, behind = u ++ ['\n'] := by
      obtain ⟨u, whole⟩ := ends
      rcases append_eq_append_cons whole with ⟨x, textIs, last⟩ | ⟨x, _, behindIs⟩
      · obtain ⟨y, semicolon⟩ := declared.exists_semicolon
        obtain rfl : x = [] := (List.append_eq_nil_iff.1 last.symm).1
        rw [textIs] at semicolon
        have := congrArg List.getLast? semicolon
        simp at this
      · exact ⟨x, behindIs⟩
    exact forward_iff.2 ⟨line, text, behind ++ b, declared, by simp, (behindLine_append ends' b).symm⟩
  | none =>
    cases again : forward first (s ++ b) with
    | none => rfl
    | some result =>
      exfalso
      obtain ⟨line, text, behind, declared, whole, _⟩ := forward_iff.1 again
      rcases List.append_eq_append_iff.1 whole with ⟨x, textIs, rest⟩ | ⟨x, sIs, _⟩
      · obtain ⟨y, semicolon⟩ := declared.exists_semicolon
        rw [semicolon] at textIs
        rcases append_eq_append_cons textIs.symm with ⟨v, sIs, xIs⟩ | ⟨v, _, xIs⟩
        · obtain ⟨rfl, rfl⟩ : v = [] ∧ x = [] := List.append_eq_nil_iff.1 xIs.symm
          have here : forward first s = some (_, behindLine []) :=
            forward_iff.2 ⟨line, text, [], declared, by rw [semicolon, sIs, List.append_nil], rfl⟩
          simp [found] at here
        · have split : w ++ '{' :: z = v ++ ';' :: behind := by rw [← opens, rest, xIs]; simp
          obtain ⟨t, vIs, brace⟩ := exists_eq_append_cons_of_not_mem split plain
          cases t with
          | nil => simp at brace
          | cons c t =>
            obtain ⟨rfl, _⟩ := List.cons.inj brace
            refine declared.not_mem (by decide) (by decide) (by decide) (by decide) (show '{' ∈ text from ?_)
            rw [semicolon, textIs, xIs, vIs]
            simp
      · have here : forward first s = some (_, behindLine x) := forward_iff.2 ⟨line, text, x, declared, sIs, rfl⟩
        simp [found] at here

end WasmPackaging.Loader
