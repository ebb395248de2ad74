import WasmPackaging.Proofs.Loader.ForwardText

/-!
What taking names out of forward declarations does to a module. Main facts: only declarations that
list one of the names change (`withoutNames_stripFrom`), and the lines of the result are those of
the module outside such declarations, provided each declaration ends its line
(`everyLine_stripFrom_iff`).
-/

namespace WasmPackaging.Loader

open Text

/-- A declaration lists one of some names. -/
def Forward.Lists (unwanted : List (List Char)) (declaration : Forward) : Prop :=
  ∃ name ∈ declaration.names, name ∈ unwanted

/-- What is left of a declaration that lists some of the names: nothing, or the declaration of the
other names. -/
def Forward.remaining (unwanted : List (List Char)) (declaration : Forward) : List Char :=
  let kept := declaration.names.filter fun name => !unwanted.contains name
  if kept = [] then [] else { declaration with names := kept }.statement

theorem Forward.kept_eq_names_iff {unwanted : List (List Char)} {declaration : Forward} :
    (declaration.names.filter fun name => !unwanted.contains name) = declaration.names ↔
      ¬ declaration.Lists unwanted := by
  rw [List.filter_eq_self]
  simp [Forward.Lists]

theorem Forward.without_of_lists {unwanted : List (List Char)} {text : List Char}
    {declaration : Forward} (lists : declaration.Lists unwanted) : declaration.without unwanted text = declaration.remaining unwanted := by
  simp only [Forward.without, Forward.remaining]
  rw [if_neg fun same => Forward.kept_eq_names_iff.1 same lists]

theorem Forward.without_of_not_lists {unwanted : List (List Char)} {text : List Char}
    {declaration : Forward} (not : ¬ declaration.Lists unwanted) : declaration.without unwanted text = text := by
  simp only [Forward.without]
  rw [if_pos (Forward.kept_eq_names_iff.2 not)]

/-- The text behind the character `first` with some names taken out of its forward declarations. -/
def stripFrom (unwanted : List (List Char)) (first : Option Char) (s : List Char) : List Char :=
  replaceFrom forward (Forward.without unwanted) first s

theorem stripForward_eq (unwanted : List (List Char)) (s : List Char) :
    stripForward unwanted s = stripFrom unwanted none s := rfl

section

variable {unwanted : List (List Char)} {first : Option Char}

@[simp] theorem stripFrom_nil : stripFrom unwanted first [] = [] := replaceFrom_nil first

theorem stripFrom_plain {c : Char} {s : List Char} (missing : forward first (c :: s) = none) :
    stripFrom unwanted first (c :: s) = c :: stripFrom unwanted (some c) s := replaceFrom_plain missing

theorem stripFrom_hit {covered behind : List Char} {declaration : Forward} (filled : covered ≠ [])
    (hit : forward first (covered ++ behind) = some (declaration, behind)) :
    stripFrom unwanted first (covered ++ behind) =
      declaration.without unwanted covered ++ stripFrom unwanted (charBefore first covered) behind :=
  replaceFrom_hit filled hit

/-! ## Only declarations change -/

/-- A line starts at the front of a text with a declaration that lists one of the names. -/
def StartsListed (unwanted : List (List Char)) (first : Option Char) (s : List Char) : Prop :=
  atLineStart first = true ∧ ∃ declaration text behind,
    s = text ++ behind ∧ ForwardText declaration text ∧ declaration.Lists unwanted

theorem startsListed_iff {s : List Char} :
    StartsListed unwanted first s ↔
      ∃ declaration rest, forward first s = some (declaration, rest) ∧ declaration.Lists unwanted := by
  constructor
  · rintro ⟨line, declaration, text, behind, whole, declared, lists⟩
    exact ⟨declaration, _, forward_iff.2 ⟨line, text, behind, declared, whole, rfl⟩, lists⟩
  · rintro ⟨declaration, rest, found, lists⟩
    obtain ⟨line, text, behind, declared, whole, _⟩ := forward_iff.1 found
    exact ⟨line, declaration, text, behind, whole, declared, lists⟩

/-- `WithoutNames unwanted first s t`: the text `t` is `s` but for the declarations that list one of
the names. Such a declaration, with the blanks and the end of the line behind its semicolon, gives
way to what is left of it. -/
inductive WithoutNames (unwanted : List (List Char)) : Option Char → List Char → List Char → Prop where
  | nil (first : Option Char) : WithoutNames unwanted first [] []
  | keep {first : Option Char} {c : Char} {s t : List Char} : ¬ StartsListed unwanted first (c :: s) →
      WithoutNames unwanted (some c) s t → WithoutNames unwanted first (c :: s) (c :: t)
  | take {first : Option Char} {declaration : Forward} {text tail s t : List Char} :
      atLineStart first = true → ForwardText declaration text → declaration.Lists unwanted →
      s = behindLine (tail ++ s) → WithoutNames unwanted (charBefore first (text ++ tail)) s t →
      WithoutNames unwanted first (text ++ (tail ++ s)) (declaration.remaining unwanted ++ t)

/-- Within a declaration that is found, and at its front, no other one starts. -/
theorem not_startsListed_of_hit {u w behind : List Char} {declaration : Forward}
    (found : forward first (u ++ w ++ behind) = some (declaration, behind)) (filled : w ≠ [])
    (not : ¬ declaration.Lists unwanted) : ¬ StartsListed unwanted (charBefore first u) (w ++ behind) := by
  rw [startsListed_iff]
  rintro ⟨other, rest, here, lists⟩
  by_cases front : u = []
  · subst front
    simp only [List.nil_append] at found
    simp only [charBefore_nil, found, Option.some.injEq, Prod.mk.injEq] at here
    exact not (here.1 ▸ lists)
  · simp [forward_apart _ _ _ _ _ found front filled] at here

theorem WithoutNames.append {kept s t : List Char}
    (plain : ∀ u w, kept = u ++ w → w ≠ [] → ¬ StartsListed unwanted (charBefore first u) (w ++ s))
    (rest : WithoutNames unwanted (charBefore first kept) s t) : WithoutNames unwanted first (kept ++ s) (kept ++ t) := by
  induction kept generalizing first with
  | nil => simpa using rest
  | cons c kept ih =>
    refine .keep (plain [] (c :: kept) rfl (by simp)) (ih (fun u w whole filled => ?_) (by simpa using rest))
    simpa using plain (c :: u) w (by simp [whole]) filled

theorem withoutNames_stripFrom (first : Option Char) (s : List Char) :
    WithoutNames unwanted first s (stripFrom unwanted first s) := by
  induction first, s using search_induction forward_cuts with
  | nil first => simpa using .nil first
  | plain first c s missing ih =>
    rw [stripFrom_plain missing]
    refine .keep ?_ ih
    rw [startsListed_iff]
    rintro ⟨_, _, found, _⟩
    simp [missing] at found
  | hit first covered behind declaration filled found ih =>
    rw [stripFrom_hit filled found]
    by_cases lists : declaration.Lists unwanted
    · obtain ⟨line, text, tail, whole, declared, restIs, _⟩ := exists_text_of_forward found
      obtain rfl : covered = text ++ tail := List.append_cancel_right whole
      rw [Forward.without_of_lists lists, List.append_assoc]
      exact .take line declared lists restIs ih
    · rw [Forward.without_of_not_lists lists]
      refine WithoutNames.append (fun u w whole more => ?_) ih
      rw [whole] at found
      exact not_startsListed_of_hit found more lists

/-! ## Lines -/

/-- The first line of a text that no line starts at the front of stays as it is. -/
theorem lineOf_stripFrom {s : List Char} (within : atLineStart first = false) :
    lineOf (stripFrom unwanted first s) = lineOf s := by
  induction s generalizing first with
  | nil => simp
  | cons c s ih =>
    have missing : forward first (c :: s) = none := by rw [forward_lined, within]; rfl
    rw [stripFrom_plain missing, lineOf_cons, lineOf_cons]
    by_cases newline : c = '\n'
    · rw [if_pos newline, if_pos newline]
    · rw [if_neg newline, if_neg newline, ih (not_atLineStart newline)]

theorem lineOf_append_stripFrom {v s : List Char} (filled : v ≠ []) :
    lineOf (v ++ stripFrom unwanted (charBefore first v) s) = lineOf (v ++ s) := by
  by_cases ends : '\n' ∈ v
  · rw [lineOf_append_of_mem ends, lineOf_append_of_mem ends]
  · have within : atLineStart (charBefore first v) = false := by
      cases line : atLineStart (charBefore first v) with
      | false => rfl
      | true =>
        obtain ⟨u, rfl⟩ := exists_eq_append_newline filled line
        exact absurd (by simp) ends
    rw [lineOf_append_of_not_mem ends, lineOf_append_of_not_mem ends, lineOf_stripFrom within]

/-- The line between `u` and `v` starts inside a declaration that lists one of the names: the text of
the declaration starts on an earlier line and ends in `v`. -/
def InsideDeclaration (unwanted : List (List Char)) (first : Option Char) (u v : List Char) : Prop :=
  ∃ start inside ahead behind declaration, u = start ++ inside ∧ v = ahead ++ behind ∧ inside ≠ [] ∧ ahead ≠ [] ∧
    atLineStart (charBefore first start) = true ∧ ForwardText declaration (inside ++ ahead) ∧
    declaration.Lists unwanted

/-- Which lines stand inside a declaration does not depend on the character before the text, but for
whether a line starts there. -/
theorem insideDeclaration_congr {first other : Option Char} (same : atLineStart first = atLineStart other)
    {u v : List Char} : InsideDeclaration unwanted first u v ↔ InsideDeclaration unwanted other u v := by
  have start : ∀ x : List Char, atLineStart (charBefore first x) = atLineStart (charBefore other x) := by
    intro x
    cases x with
    | nil => simpa using same
    | cons c x => simp
  simp only [InsideDeclaration, start]

/-- A declaration that a text starts with has only blanks behind it on the line of its semicolon. -/
def DeclaresAlone (s : List Char) : Prop :=
  ∀ declaration text behind, s = text ++ behind → ForwardText declaration text → (lineOf behind).all isBlank = true

/-- Where no line starts a declaration, no line stands inside one. -/
theorem not_insideDeclaration_of_none {u v : List Char}
    (missing : EveryLine first (fun _ v => forward none v = none) (u ++ v)) : ¬ InsideDeclaration unwanted first u v := by
  rintro ⟨start, inside, ahead, behind, declaration, rfl, rfl, _, _, line, declared, _⟩
  have here : forward none (inside ++ (ahead ++ behind)) = none := missing start _ (by simp) line
  rw [forward_iff.2 ⟨rfl, inside ++ ahead, behind, declared, by simp, rfl⟩] at here
  simp at here

theorem declaresAlone_of_none {v : List Char} (missing : forward none v = none) : DeclaresAlone v := by
  intro declaration text behind whole declared
  rw [forward_iff.2 ⟨rfl, text, behind, declared, whole, rfl⟩] at missing
  simp at missing

theorem not_insideDeclaration_nil {v : List Char} : ¬ InsideDeclaration unwanted first [] v := by
  rintro ⟨start, inside, _, _, _, front, _, filled, _⟩
  exact filled (List.append_eq_nil_iff.1 front.symm).2

theorem insideDeclaration_cons {c : Char} {u v : List Char} (missing : forward first (c :: (u ++ v)) = none) :
    InsideDeclaration unwanted first (c :: u) v ↔ InsideDeclaration unwanted (some c) u v := by
  constructor
  · rintro ⟨start, inside, ahead, behind, declaration, whole, rfl, filled, more, line, declared, lists⟩
    cases start with
    | nil =>
      obtain rfl : c :: u = inside := whole
      have found := forward_iff.2 ⟨line, _, behind, declared, rfl, rfl⟩
      simp only [charBefore_nil, List.cons_append, List.append_assoc] at found missing
      simp [missing] at found
    | cons d start =>
      obtain ⟨rfl, rfl⟩ := List.cons.inj whole
      exact ⟨start, inside, ahead, behind, declaration, rfl, rfl, filled, more, by simpa using line, declared, lists⟩
  · rintro ⟨start, inside, ahead, behind, declaration, rfl, rfl, filled, more, line, declared, lists⟩
    exact ⟨c :: start, inside, ahead, behind, declaration, by simp, rfl, filled, more, by simpa using line, declared,
      lists⟩

theorem insideDeclaration_append {covered u v : List Char} {declaration : Forward}
    (found : forward first (covered ++ (u ++ v)) = some (declaration, u ++ v)) :
    InsideDeclaration unwanted first (covered ++ u) v ↔ InsideDeclaration unwanted (charBefore first covered) u v := by
  constructor
  · rintro ⟨start, inside, ahead, behind, other, whole, rfl, filled, more, line, declared, lists⟩
    rcases List.append_eq_append_iff.1 whole with ⟨w, rfl, rfl⟩ | ⟨w, rfl, rfl⟩
    · exact ⟨w, inside, ahead, behind, other, rfl, rfl, filled, more, by simpa using line, declared, lists⟩
    · have again := forward_iff.2 ⟨line, _, behind, declared, rfl, rfl⟩
      by_cases none : w = []
      · subst none
        exact ⟨[], u, ahead, behind, other, rfl, rfl, by simpa using filled, more, by simpa using line,
          by simpa using declared, lists⟩
      by_cases front : start = []
      · -- The declaration found at the front ends before the line, so it is not the one around it.
        subst front
        simp only [List.nil_append, charBefore_nil, List.append_assoc] at found again
        rw [found] at again
        have same : u ++ (ahead ++ behind) = behindLine behind := (Prod.mk.inj (Option.some.inj again)).2
        obtain ⟨tail, split, _⟩ := exists_lineEnd behind
        have longer := congrArg List.length same
        have shorter := congrArg List.length split
        have := List.length_pos_iff.2 more
        simp only [List.length_append] at longer shorter
        omega
      · have none_ := forward_apart _ _ _ _ _ found front none
        simp only [List.append_assoc] at again none_
        simp [none_] at again
  · rintro ⟨start, inside, ahead, behind, other, rfl, rfl, filled, more, line, declared, lists⟩
    exact ⟨covered ++ start, inside, ahead, behind, other, by simp, rfl, filled, more, by simpa using line, declared,
      lists⟩

theorem not_insideDeclaration_of_hit {u w behind : List Char} {declaration : Forward}
    (found : forward first (u ++ w ++ behind) = some (declaration, behind)) (filled : w ≠ [])
    (not : ¬ declaration.Lists unwanted) : ¬ InsideDeclaration unwanted first u (w ++ behind) := by
  rintro ⟨start, inside, ahead, after, other, rfl, split, _, _, line, declared, lists⟩
  have found' : forward first (start ++ (inside ++ w) ++ behind) = some (declaration, behind) := by
    simpa using found
  refine not_startsListed_of_hit found' (by simp [filled]) not ⟨line, other, _, after, ?_, declared, lists⟩
  rw [List.append_assoc, split, List.append_assoc]

theorem insideDeclaration_of_hit {u w behind : List Char} {declaration : Forward}
    (found : forward first (u ++ w ++ behind) = some (declaration, behind)) (front : u ≠ []) (filled : w ≠ [])
    (line : atLineStart (charBefore first u) = true) (lists : declaration.Lists unwanted) :
    InsideDeclaration unwanted first u (w ++ behind) := by
  obtain ⟨start, text, tail, whole, declared, _, shape⟩ := exists_text_of_forward found
  obtain ⟨u, rfl⟩ := exists_eq_append_newline front line
  have split : text ++ tail = u ++ '\n' :: w := by simpa using (List.append_cancel_right whole).symm
  obtain ⟨x, more, rfl, rfl⟩ := newline_within declared shape split filled
  exact ⟨[], u ++ ['\n'], x, tail ++ behind, declaration, by simp, by simp, by simp, more, by simpa using start,
    by simpa using declared, lists⟩

/-! ## The lines that are left -/

/-- Whether a line may go on with a statement of the module: blanks, or the first character of its word. -/
def startsStatement (c : Char) : Bool := isIndent c || c == 'e' || c == 'i'

theorem stops_of_declaration {declaration : Forward} {text s : List Char} (declared : ForwardText declaration text) :
    Stops startsStatement (lineOf (text ++ s)) := by
  cases declared with
  | mk isKeyword =>
    rcases isKeyword with rfl | rfl <;> simp [lineOf, startsStatement, isIndent]

theorem ForwardText.isName {declaration : Forward} {text : List Char} (declared : ForwardText declaration text) :
    ∀ name ∈ declaration.names, Text.isName name = true := by
  cases declared with
  | @mk keyword gap listed gap' names isKeyword filled blank list blank' =>
    induction list with
    | last valid => simpa using valid
    | more valid _ _ _ ih => simpa [valid] using ih

theorem not_mem_joinWith {separator : List Char} {parts : List (List Char)} {c : Char} (plain : c ∉ separator)
    (none : ∀ part ∈ parts, c ∉ part) : c ∉ joinWith separator parts := by
  fun_induction joinWith separator parts with
  | case1 => simp
  | case2 part => exact none part (by simp)
  | case3 part rest more ih =>
    simp only [List.mem_append, not_or]
    exact ⟨⟨none part (by simp), plain⟩, ih fun other listed => none other (by simp [listed])⟩

/-- What is left of a declaration is nothing or a line that starts no statement of the module. -/
theorem remaining_line (unwanted : List (List Char)) {declaration : Forward} {text : List Char}
    (declared : ForwardText declaration text) :
    declaration.remaining unwanted = [] ∨ ∃ line, declaration.remaining unwanted = line ++ ['\n'] ∧ '\n' ∉ line ∧
      Stops startsStatement line := by
  simp only [Forward.remaining, Forward.statement]
  split
  · exact .inl rfl
  · refine .inr ⟨declaration.keyword ++ [' '] ++ joinWith [',', ' '] (declaration.names.filter fun name =>
      !unwanted.contains name) ++ [';'], by simp, ?_, ?_⟩
    · have flat : '\n' ∉ joinWith [',', ' '] (declaration.names.filter fun name => !unwanted.contains name) :=
        not_mem_joinWith (by decide) fun name listed =>
          not_mem_of_all (isName_iff.1 (declared.isName name (List.mem_filter.1 listed).1)).2 (by decide)
      cases declared with
      | mk isKeyword => rcases isKeyword with rfl | rfl <;> simpa using flat
    · cases declared with
      | mk isKeyword => rcases isKeyword with rfl | rfl <;> simp [startsStatement, isIndent]

/-- Behind a declaration that is alone on its line, and its line's end, stands no statement on what is
left of the line. -/
theorem stops_behind_declaration {covered behind : List Char} {declaration : Forward}
    (found : forward first (covered ++ behind) = some (declaration, behind)) (alone : DeclaresAlone (covered ++ behind))
    (within : atLineStart (charBefore first covered) = false) : Stops startsStatement (lineOf behind) := by
  obtain ⟨_, text, tail, whole, declared, _, shape⟩ := exists_text_of_forward found
  obtain rfl : covered = text ++ tail := List.append_cancel_right whole
  rcases shape with ⟨u, rfl, _⟩ | ⟨indent, stop⟩
  · simp [atLineStart] at within
  · have blank := alone declaration text (tail ++ behind) (by simp) declared
    rw [lineOf_append_of_not_mem (not_mem_of_all indent (by decide)), List.all_append, Bool.and_eq_true] at blank
    cases behind with
    | nil => simp [lineOf]
    | cons c behind =>
      rw [lineOf_cons] at blank ⊢
      split
      · simp
      · rename_i newline
        simp only [newline, if_false, List.all_cons, Bool.and_eq_true, stops_cons] at blank stop
        have isBlank_ := blank.2.1
        simp only [stops_cons, startsStatement, stop, Bool.false_or, Bool.or_eq_false_iff, beq_eq_false_iff_ne]
        constructor <;> rintro rfl <;> exact absurd isBlank_ (by decide)

/-- What is left of whole lines are whole lines. -/
theorem atLineStart_stripFrom (first : Option Char) {s : List Char} (ends : atLineStart (charBefore first s) = true) :
    atLineStart (charBefore first (stripFrom unwanted first s)) = true := by
  induction first, s using search_induction forward_cuts with
  | nil first => simpa using ends
  | plain first c s missing ih =>
    rw [stripFrom_plain missing, charBefore_cons]
    exact ih (by simpa using ends)
  | hit first covered behind declaration filled found ih =>
    have later := ih (by simpa using ends)
    rw [stripFrom_hit filled found, charBefore_append]
    by_cases rest : stripFrom unwanted (charBefore first covered) behind = []
    · rw [rest, charBefore_nil] at later ⊢
      by_cases lists : declaration.Lists unwanted
      · obtain ⟨line, text, _, _, declared, _⟩ := exists_text_of_forward found
        rw [Forward.without_of_lists lists]
        rcases remaining_line unwanted declared with empty | ⟨kept, keptIs, _⟩
        · simpa [empty] using line
        · rw [keptIs, charBefore_append]
          rfl
      · rw [Forward.without_of_not_lists lists]
        exact later
    · rw [charBefore_eq_getLast? rest] at later ⊢
      exact later

theorem everyLine_stripFrom_hit {Q : List Char → Prop} (plain : ∀ line, Stops startsStatement line → Q line)
    {covered behind : List Char} {declaration : Forward}
    (found : forward first (covered ++ behind) = some (declaration, behind)) (alone : DeclaresAlone (covered ++ behind)) :
    EveryLine none (fun _ v => Q (lineOf v)) (stripFrom unwanted (charBefore first covered) behind) ↔
      EveryLine (charBefore first covered) (fun _ v => Q (lineOf v))
        (stripFrom unwanted (charBefore first covered) behind) := by
  cases line : atLineStart (charBefore first covered) with
  | true => exact everyLine_congr (by rw [line]; rfl)
  | false =>
    constructor
    · intro every u v whole start
      cases u with
      | nil => simp [line] at start
      | cons c u => exact every (c :: u) v whole (by simpa using start)
    · intro every u v whole start
      cases u with
      | nil =>
        obtain rfl : _ = v := whole
        rw [lineOf_stripFrom line]
        exact plain _ (stops_behind_declaration found alone line)
      | cons c u => exact every (c :: u) v whole (by simpa using start)

/-- What is left of a declaration adds no line that matters to those that are left of the text behind it. -/
theorem everyLine_remaining_iff {Q : List Char → Prop} (plain : ∀ line, Stops startsStatement line → Q line)
    {covered behind : List Char} {declaration : Forward}
    (found : forward first (covered ++ behind) = some (declaration, behind)) (alone : DeclaresAlone (covered ++ behind)) :
    EveryLine first (fun _ v => Q (lineOf v))
        (declaration.remaining unwanted ++ stripFrom unwanted (charBefore first covered) behind) ↔
      EveryLine (charBefore first covered) (fun _ v => Q (lineOf v))
        (stripFrom unwanted (charBefore first covered) behind) := by
  obtain ⟨line, text, _, _, declared, _⟩ := exists_text_of_forward found
  rw [← everyLine_stripFrom_hit plain found alone]
  rcases remaining_line unwanted declared with empty | ⟨kept, keptIs, flat, stop⟩
  · rw [empty, List.nil_append]
    exact everyLine_congr (line.trans atLineStart_none.symm)
  · rw [keptIs, List.append_assoc, List.singleton_append, everyLine_append_newline]
    refine and_iff_right ((everyLine_congr (line.trans atLineStart_none.symm)).2 ((everyLine_of_flat flat).2 ?_))
    refine plain _ ?_
    rw [lineOf_append_of_not_mem flat, lineOf_cons, if_pos rfl, List.append_nil]
    exact stop

/-- The lines of a declaration that lists one of the names stand inside it, but for the first, which
starts no statement. -/
theorem everyLine_covered {Q : List Char → Prop} (plain : ∀ line, Stops startsStatement line → Q line)
    {covered behind : List Char} {declaration : Forward}
    (found : forward first (covered ++ behind) = some (declaration, behind)) (lists : declaration.Lists unwanted) :
    EveryLine first (fun u v => v ≠ [] → InsideDeclaration unwanted first u (v ++ behind) ∨ Q (lineOf (v ++ behind)))
      covered := by
  intro u v whole start more
  by_cases front : u = []
  · subst front
    obtain rfl : covered = v := whole
    obtain ⟨_, text, tail, split, declared, _⟩ := exists_text_of_forward found
    rw [split, List.append_assoc]
    exact .inr (plain _ (stops_of_declaration declared))
  · rw [whole] at found
    exact .inl (insideDeclaration_of_hit found front more start lists)

/-- A declaration of other names stays with all its lines, and none of them stands inside a declaration
that lists one of the names. -/
theorem everyLine_kept_iff {Q : List Char → Prop} {covered behind : List Char} {declaration : Forward}
    (found : forward first (covered ++ behind) = some (declaration, behind)) (not : ¬ declaration.Lists unwanted) :
    EveryLine first
        (fun _ v => v ≠ [] → Q (lineOf (v ++ stripFrom unwanted (charBefore first covered) behind))) covered ↔
      EveryLine first (fun u v => v ≠ [] → InsideDeclaration unwanted first u (v ++ behind) ∨ Q (lineOf (v ++ behind)))
        covered := by
  refine everyLine_iff fun u v whole start => forall_congr' fun more => ?_
  rw [whole] at found
  have same : lineOf (v ++ stripFrom unwanted (charBefore (charBefore first u) v) behind) = lineOf (v ++ behind) :=
    lineOf_append_stripFrom more
  rw [← charBefore_append, ← whole] at same
  rw [same]
  exact (or_iff_right (not_insideDeclaration_of_hit found more not)).symm

/-- Where each declaration is alone on its line, the lines that are left when some names are taken out
of the declarations are those that stand outside the declarations of these names. -/
theorem everyLine_stripFrom_iff {Q : List Char → Prop} (plain : ∀ line, Stops startsStatement line → Q line)
    (first : Option Char) {s : List Char} (alone : EveryLine first (fun _ v => DeclaresAlone v) s) :
    EveryLine first (fun _ v => Q (lineOf v)) (stripFrom unwanted first s) ↔
      EveryLine first (fun u v => InsideDeclaration unwanted first u v ∨ Q (lineOf v)) s := by
  induction first, s using search_induction forward_cuts with
  | nil first =>
    rw [stripFrom_nil, everyLine_nil, everyLine_nil]
    exact ⟨fun _ _ => .inr (plain _ (by simp [lineOf])), fun _ _ => plain _ (by simp [lineOf])⟩
  | plain first c s missing ih =>
    rw [everyLine_cons] at alone
    rw [stripFrom_plain missing, everyLine_cons, everyLine_cons, ih alone.2]
    refine and_congr (imp_congr_right fun _ => ?_) (everyLine_iff fun u v whole _ => ?_)
    · have same : lineOf ([c] ++ stripFrom unwanted (charBefore first [c]) s) = lineOf ([c] ++ s) :=
        lineOf_append_stripFrom (by simp)
      simp only [List.singleton_append, charBefore_cons, charBefore_nil] at same
      rw [same]
      exact (or_iff_right not_insideDeclaration_nil).symm
    · rw [insideDeclaration_cons (by rw [← whole]; exact missing)]
  | hit first covered behind declaration filled found ih =>
    have line := (forward_iff.1 found).1
    have alone' := alone [] (covered ++ behind) rfl (by simpa using line)
    rw [everyLine_append] at alone
    have later := ih alone.2
    rw [stripFrom_hit filled found, everyLine_append (a := covered)]
    rw [everyLine_iff (P := fun u v => InsideDeclaration unwanted first (covered ++ u) v ∨ Q (lineOf v))
      (Q := fun u v => InsideDeclaration unwanted (charBefore first covered) u v ∨ Q (lineOf v))
      fun u v whole _ => by subst whole; rw [insideDeclaration_append found], ← later]
    by_cases lists : declaration.Lists unwanted
    · rw [Forward.without_of_lists lists, everyLine_remaining_iff plain found alone',
        and_iff_right (everyLine_covered plain found lists)]
    · rw [Forward.without_of_not_lists lists, everyLine_append, everyLine_kept_iff found lists]

end

end WasmPackaging.Loader
