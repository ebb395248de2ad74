import WasmPackaging.Proofs.Loader.Cutting

/-!
Whether one stripping of a module is enough. A module stays as it is exactly when none of its lines starts a declaration that
lists one of the names (`stripForward_eq_self_iff`), since otherwise names are lost. One stripping need not come to such a module:
a declaration that follows another one on its line starts the line once that is gone (`stripForward_exposes`), and an unfinished
declaration runs on over one that goes. Where none is unfinished, one stripping is enough exactly when no two declarations of the
names share a line (`stripForward_complete_iff`).
-/

namespace WasmPackaging.Loader

open Text

variable {unwanted : List (List Char)} {first : Option Char}

/-- No line of a text starts a declaration that lists one of the names. -/
def FreeOf (unwanted : List (List Char)) (s : List Char) : Prop := EveryLine none (fun _ v => ¬ StartsListed unwanted none v) s

theorem not_startsListed_nil : ¬ StartsListed unwanted first [] := by
  rintro ⟨-, _, text, behind, whole, declared, -⟩
  exact declared.ne_nil (List.append_eq_nil_iff.1 whole.symm).1

/-! ## Names are lost -/

/-- Whether a character separates or ends the names of a declaration. -/
def isMark (c : Char) : Bool := c == ',' || c == ';'

theorem countP_isMark_eq_zero {s : List Char} {test : Char → Bool} (all : s.all test = true) (comma : test ',' = false)
    (semicolon : test ';' = false) : s.countP isMark = 0 := by
  rw [List.countP_eq_zero]
  rintro c mem mark
  simp only [isMark, Bool.or_eq_true, beq_iff_eq] at mark
  obtain rfl | rfl := mark
  · exact not_mem_of_all all comma mem
  · exact not_mem_of_all all semicolon mem

theorem countP_isMark_name {name : List Char} (valid : isName name = true) : name.countP isMark = 0 :=
  countP_isMark_eq_zero (isName_iff.1 valid).2 (by decide) (by decide)

theorem countP_isMark_gap {gap : List Char} (blank : gap.all isBlank = true) : gap.countP isMark = 0 :=
  countP_isMark_eq_zero blank (by decide) (by decide)

/-- A list of names has a comma between neighbours. -/
theorem NameList.countP_isMark {names : List (List Char)} {listed : List Char} (list : NameList names listed) :
    listed.countP isMark + 1 = names.length := by
  induction list with
  | last valid => simp [countP_isMark_name valid]
  | more valid before after _ ih =>
    simp [countP_isMark_name valid, countP_isMark_gap before, countP_isMark_gap after, ← ih, show isMark ',' = true from rfl]

/-- A declaration has as many marks as names. -/
theorem ForwardText.countP_isMark {declaration : Forward} {text : List Char} (declared : ForwardText declaration text) :
    text.countP isMark = declaration.names.length := by
  cases declared with
  | @mk keyword gap listed gap' names isKeyword filled blank list blank' =>
    have none_ : keyword.countP isMark = 0 := by rcases isKeyword with rfl | rfl <;> decide
    simp [none_, countP_isMark_gap blank, countP_isMark_gap blank', show isMark ';' = true from rfl, list.countP_isMark]

/-- What is left of a declaration has fewer marks than it. -/
theorem Cut.Fits.countP_left_lt {cut : Cut} (fits : cut.Fits unwanted) : cut.left.countP isMark < cut.text.countP isMark := by
  obtain ⟨name, mem, listed⟩ := fits.lists
  rw [fits.declared.countP_isMark]
  by_cases others : ∃ name ∈ cut.declaration.names, name ∉ unwanted
  · obtain ⟨text, declared, leftIs⟩ := fits.kept others
    have fewer : (cut.declaration.names.filter (· ∉ unwanted)).length < cut.declaration.names.length :=
      List.length_filter_lt_length_iff_exists.2 ⟨name, mem, by simpa using listed⟩
    simpa [leftIs, declared.countP_isMark, show isMark '\n' = false from rfl] using fewer
  · rw [fits.gone (by simpa using others)]
    exact List.length_pos_of_mem mem

theorem Cutting.Fits.countP_result_le {cutting : Cutting} (fits : cutting.Fits unwanted first) :
    cutting.result.countP isMark ≤ cutting.source.countP isMark := by
  induction cutting generalizing first with
  | rest => exact Nat.le_refl _
  | cut stretch here later ih =>
    obtain ⟨-, -, cut, -, fits⟩ := fits
    have fewer := cut.countP_left_lt
    have rest := ih fits
    simp only [Cutting.result, Cutting.source, List.countP_append]
    omega

/-- A module stays as it is just if no line of it starts a declaration that lists one of the names. -/
theorem stripForward_eq_self_iff {s : List Char} : stripForward unwanted s = s ↔ FreeOf unwanted s := by
  obtain ⟨cutting, rfl, result, fits⟩ := (@withoutNames_stripFrom unwanted none s).exists_cutting
  rw [stripForward_eq, ← result]
  cases cutting with
  | rest stretch =>
    refine iff_of_true rfl fun u v whole line => ?_
    by_cases none_ : v = []
    · subst none_
      exact not_startsListed_nil
    · simpa using fits u v whole line none_
  | cut stretch here later =>
    obtain ⟨-, line, cut, -, fits⟩ := fits
    refine iff_of_false (fun same => ?_) fun free => ?_
    · have counts := congrArg (List.countP isMark) same
      have fewer := cut.countP_left_lt
      have rest := fits.countP_result_le
      simp only [Cutting.result, Cutting.source, List.countP_append] at counts
      omega
    · exact free stretch _ rfl line ⟨rfl, _, _, _, rfl, cut.declared, cut.lists⟩

/-! ## What one stripping leaves -/

/-- A text ends with a declaration at the start of a line that lists one of the names, and with blanks of its line. -/
def EndsListed (unwanted : List (List Char)) (u : List Char) : Prop :=
  ∃ before declaration text indent, u = before ++ (text ++ indent) ∧ atLineStart (charBefore none before) = true ∧
    ForwardText declaration text ∧ declaration.Lists unwanted ∧ indent.all isIndent = true

/-- Behind a declaration that lists one of the names another one follows on the same line. -/
def SharesLine (unwanted : List (List Char)) (s : List Char) : Prop :=
  ∃ u v, s = u ++ v ∧ EndsListed unwanted u ∧ StartsListed unwanted none v

/-- The beginning of a declaration. -/
def Unfinished (part : List Char) : Prop := ∃ declaration more, ForwardText declaration (part ++ more)

/-- No unfinished declaration stands in front of a declaration that lists none but the names, neither from the start of a line on
nor from behind another declaration that lists one of them. -/
def NoneUnfinished (unwanted : List (List Char)) (s : List Char) : Prop :=
  ∀ u part declaration text behind, s = u ++ (part ++ (text ++ behind)) →
    atLineStart (charBefore none u) = true ∨ EndsListed unwanted u → part ≠ [] → atLineStart (charBefore none (u ++ part)) = true →
    ForwardText declaration text → (∀ name ∈ declaration.names, name ∈ unwanted) → ¬ Unfinished part

theorem not_startsListed_of_blank {s : List Char} (blank : ∀ c ∈ s.head?, isBlank c = true) : ¬ StartsListed unwanted first s := by
  rintro ⟨-, _, text, behind, rfl, declared, -⟩
  have stop := declared.stops_blank behind
  rcases front : text ++ behind with _ | ⟨c, s⟩
  · exact declared.ne_nil (List.append_eq_nil_iff.1 front).1
  · rw [front] at stop blank
    simp [blank c rfl] at stop

/-- No declaration starts on a later line of another one. -/
theorem ForwardText.not_startsListed_inside {declaration : Forward} {u x : List Char} (declared : ForwardText declaration (u ++ '\n' :: x))
    (b : List Char) : ¬ StartsListed unwanted first (x ++ b) := by
  rintro ⟨-, _, text, behind, split, declared', -⟩
  have bare := declared.bare_behind_blank (by decide) b
  rw [split] at bare
  exact declared'.not_bare bare

/-- A declaration that starts in front of a cut, on lines of the stretch there, ends in front of it, or all of the cut goes. -/
theorem Cut.Fits.ends_or_unfinished {here : Cut} (cut : here.Fits unwanted) {v rest text behind : List Char} {declaration : Forward}
    (ends : ∃ u, v = u ++ ['\n']) (declared : ForwardText declaration text) (split : v ++ (here.left ++ rest) = text ++ behind) :
    (∃ z, v = text ++ z) ∨ (∀ name ∈ here.declaration.names, name ∈ unwanted) ∧ Unfinished v := by
  rcases List.append_eq_append_iff.1 split with ⟨more, rfl, behindIs⟩ | ⟨z, rfl, -⟩
  · by_cases others : ∃ name ∈ here.declaration.names, name ∉ unwanted
    · exfalso
      obtain ⟨u, rfl⟩ := ends
      obtain ⟨text, declared', leftIs⟩ := cut.kept others
      have bare := ForwardText.bare_behind_blank (by simpa using declared) (show isBlank '\n' = true by decide) behind
      rw [← behindIs, leftIs, List.append_assoc] at bare
      exact declared'.not_bare bare
    · exact .inr ⟨by simpa using others, declaration, more, declared⟩
  · exact .inl ⟨z, rfl⟩

/-- What is left in place of a declaration starts no declaration of the names. -/
theorem Cut.Fits.freeOf_left_iff {here : Cut} (cut : here.Fits unwanted) {rest : List Char} :
    FreeOf unwanted (here.left ++ rest) ↔ FreeOf unwanted rest := by
  by_cases others : ∃ name ∈ here.declaration.names, name ∉ unwanted
  · obtain ⟨text, declared, leftIs⟩ := cut.kept others
    have not : ¬ Forward.Lists unwanted ⟨here.declaration.keyword, here.declaration.names.filter (· ∉ unwanted)⟩ := by
      rintro ⟨name, mem, listed⟩
      exact absurd listed (by simpa using (List.mem_filter.1 mem).2)
    have spared : Spared unwanted text ('\n' :: rest) := .declared (show [].all isIndent = true from rfl) declared (.inr not)
    have blank : ¬ StartsListed unwanted none ('\n' :: rest) := not_startsListed_of_blank fun c mem => by
      obtain rfl : '\n' = c := Option.some.inj mem
      decide
    unfold FreeOf
    rw [leftIs, List.append_assoc, List.singleton_append, everyLine_append, everyLine_cons]
    refine (and_iff_right spared.untouched).trans ((and_iff_right fun _ => blank).trans
      (everyLine_congr (show atLineStart (some '\n') = atLineStart none from rfl)))
  · rw [cut.gone (by simpa using others), List.nil_append]

theorem Cutting.freeOf_stretch {stretch rest : List Char} (line : atLineStart (charBefore none stretch) = true) :
    FreeOf unwanted (stretch ++ rest) ↔
      EveryLine none (fun _ v => v ≠ [] → ¬ StartsListed unwanted none (v ++ rest)) stretch ∧ FreeOf unwanted rest :=
  everyLine_append.trans (and_congr_right fun _ => everyLine_congr (line.trans atLineStart_none.symm))

theorem Cut.Fits.endsListed {here : Cut} (cut : here.Fits unwanted) {u : List Char} (line : atLineStart (charBefore none u) = true) :
    atLineStart (charBefore none (u ++ (here.text ++ here.tail))) = true ∨ EndsListed unwanted (u ++ (here.text ++ here.tail)) := by
  obtain ⟨indent, blank, lineEnd, mem, ends⟩ := cut.ends
  simp only [List.mem_cons, List.not_mem_nil, or_false] at mem
  obtain rfl | rfl | rfl := mem
  · exact .inr ⟨u, _, _, here.tail, rfl, line, cut.declared, cut.lists, by rwa [ends, List.append_nil]⟩
  · exact .inl (by simp [ends]; rfl)
  · exact .inl (by simp [ends]; rfl)

/-- A text up to the start of a line is itself one up to the start of a line. -/
theorem atLineStart_of_charBefore {u : List Char} (line : atLineStart (charBefore first u) = true) :
    atLineStart (charBefore none u) = true := by
  by_cases front : u = []
  · subst front
    rfl
  · rw [charBefore_eq_getLast? front] at line ⊢
    exact line

/-- In a stretch between two cuts no line starts a declaration of the names. The stretch starts at a line, or behind a declaration of
the names that shares its line with no other one. -/
theorem Cutting.Untouched.not_startsListed {s pre stretch behind u v : List Char} (whole : s = pre ++ (stretch ++ behind))
    (untouched : Untouched unwanted (charBefore none pre) stretch behind)
    (anew : atLineStart (charBefore none pre) = true ∨ EndsListed unwanted pre) (apart : ¬ SharesLine unwanted s)
    (split : stretch = u ++ v) (line : atLineStart (charBefore none u) = true) (filled : v ≠ []) :
    ¬ StartsListed unwanted none (v ++ behind) := by
  by_cases front : u = []
  · subst front
    rcases anew with start | ends
    · exact untouched [] v split start filled
    · exact fun starts => apart ⟨pre, v ++ behind, by rw [whole, split, List.nil_append], ends, starts⟩
  · exact untouched u v split (by rwa [charBefore_eq_getLast? front] at line ⊢) filled

/-- Where declarations neither share a line nor run on over one that goes, no line starts a declaration of the names in the end. -/
theorem Cutting.Fits.freeOf_result {cutting : Cutting} {s pre : List Char} (whole : s = pre ++ cutting.source)
    (fits : cutting.Fits unwanted (charBefore none pre)) (anew : atLineStart (charBefore none pre) = true ∨ EndsListed unwanted pre)
    (apart : ¬ SharesLine unwanted s) (finished : NoneUnfinished unwanted s) : FreeOf unwanted cutting.result := by
  induction cutting generalizing pre with
  | rest stretch =>
    intro u v split line
    by_cases filled : v = []
    · subst filled
      exact not_startsListed_nil
    · simpa using Untouched.not_startsListed (by simpa [source] using whole) fits anew apart split line filled
  | cut stretch here later ih =>
    obtain ⟨untouched, start, cut, -, fits⟩ := fits
    rw [← charBefore_append] at start
    have line : atLineStart (charBefore none stretch) = true := by
      rw [charBefore_append] at start
      exact atLineStart_of_charBefore start
    refine (freeOf_stretch line).2 ⟨fun u v split line' filled => ?_, cut.freeOf_left_iff.2 ?_⟩
    · rintro ⟨-, other, text, behind, runs, declared, lists⟩
      have ends : ∃ u, v = u ++ ['\n'] := @exists_eq_append_newline (charBefore none u) v filled (by rwa [← charBefore_append, ← split])
      rcases cut.ends_or_unfinished ends declared runs with ⟨z, rfl⟩ | ⟨all, unfinished⟩
      · exact untouched.not_startsListed whole anew apart split line' filled 
          ⟨rfl, other, text, z ++ (here.text ++ (here.tail ++ later.source)), by simp, declared, lists⟩
      · refine finished (pre ++ u) v here.declaration here.text (here.tail ++ later.source) ?_ ?_ filled ?_ cut.declared all unfinished
        · rw [whole, source, split]
          simp
        · by_cases front : u = []
          · subst front
            rwa [List.append_nil]
          · rw [charBefore_eq_getLast? front] at line'
            exact .inl (by rwa [charBefore_append, charBefore_eq_getLast? front])
        · rwa [List.append_assoc, ← split]
    · refine @ih (pre ++ (stretch ++ (here.text ++ here.tail))) ?_ ?_ ?_
      · rw [whole, source]
        simp
      · rwa [charBefore_append]
      · rw [← List.append_assoc pre]
        exact cut.endsListed start

/-- A text that starts within a line keeps a declaration in front. -/
theorem Cutting.Fits.exists_front {cutting : Cutting} (fits : cutting.Fits unwanted first) (within : atLineStart first = false)
    {declaration : Forward} {text behind : List Char} (declared : ForwardText declaration text) (whole : cutting.source = text ++ behind) :
    ∃ behind', cutting.result = text ++ behind' := by
  cases cutting with
  | rest stretch => exact ⟨behind, whole⟩
  | cut stretch here later =>
    obtain ⟨-, start, cut, -, -⟩ := fits
    rcases List.append_eq_append_iff.1 whole with ⟨a, rfl, split⟩ | ⟨c, rfl, -⟩
    · by_cases front : stretch = []
      · subst front
        simp [within] at start
      · obtain ⟨u, rfl⟩ := exists_eq_append_newline front start
        rw [List.append_assoc] at declared
        exact absurd ⟨rfl, _, _, _, split.symm, cut.declared, cut.lists⟩
          (ForwardText.not_startsListed_inside declared behind : ¬ StartsListed unwanted none (a ++ behind))
    · exact ⟨c ++ (here.left ++ later.result), by simp [result]⟩

/-- What is behind a declaration on its line, when no blank comes first. -/
theorem behindLine_of_stops {indent more : List Char} (blank : indent.all isIndent = true) (stop : Stops isBlank more) :
    behindLine (indent ++ more) = more := by
  have stopIndent : Stops isIndent more := by
    cases more with
    | nil => simp
    | cons c more =>
      rw [stops_cons] at stop ⊢
      cases indent_ : isIndent c with
      | false => rfl
      | true => simp [isBlank_of_isIndent indent_] at stop
  have plain : afterNewline? more = none := by
    unfold afterNewline?
    split
    · exact absurd stop (by simp; decide)
    · exact absurd stop (by simp; decide)
    · rfl
  rw [behindLine, dropWhile_span blank stopIndent, plain]
  rfl

/-- Behind a declaration, with blanks of its line, no line starts. -/
theorem ForwardText.not_atLineStart_behind {declaration : Forward} {text indent : List Char} (declared : ForwardText declaration text)
    (blank : indent.all isIndent = true) {u : List Char} : atLineStart (charBefore first (u ++ (text ++ indent))) = false := by
  obtain ⟨y, rfl⟩ := declared.exists_semicolon
  rcases List.eq_nil_or_concat indent with rfl | ⟨indent, k, rfl⟩
  · simp
    rfl
  · have last : isIndent k = true := by simpa using (List.all_eq_true.1 blank) k (by simp)
    have other : k ≠ '\n' := by
      rintro rfl
      exact absurd last (by decide)
    simpa using not_atLineStart other

/-- Where no line starts a declaration of the names in the end, none of them shared a line with another one. -/
theorem Cutting.Fits.not_startsListed_behind {cutting : Cutting} (fits : cutting.Fits unwanted first)
    (free : FreeOf unwanted cutting.result) {u text indent more : List Char} {declaration : Forward}
    (whole : cutting.source = u ++ (text ++ (indent ++ more))) (line : atLineStart (charBefore first u) = true)
    (declared : ForwardText declaration text) (lists : declaration.Lists unwanted) (blank : indent.all isIndent = true) :
    ¬ StartsListed unwanted none more := by
  induction cutting generalizing first u with
  | rest stretch =>
    have starts : StartsListed unwanted none (text ++ (indent ++ more)) := ⟨rfl, _, _, _, rfl, declared, lists⟩
    exact absurd starts (by simpa using fits u _ whole line (by simp [declared.ne_nil]))
  | cut stretch here later ih =>
    obtain ⟨untouched, start, cut, tail, fits'⟩ := id fits
    have starts : StartsListed unwanted none (text ++ (indent ++ more)) := ⟨rfl, _, _, _, rfl, declared, lists⟩
    have free' : FreeOf unwanted later.result := by
      have line : atLineStart (charBefore none stretch) = true := atLineStart_of_charBefore start
      exact cut.freeOf_left_iff.1 ((freeOf_stretch line).1 free).2
    rcases fits.line_cases whole line with ⟨c, front, rfl, behind⟩ | ⟨rfl, behind⟩ | ⟨a, x, -, inside, behind⟩ | ⟨a, rfl, split⟩
    · exact absurd (behind ▸ starts) (untouched u c rfl line front)
    · rintro ⟨-, other, text', behind', rfl, declared', lists'⟩
      -- The cut ends behind the blanks, so that what follows on the line starts the rest, and starts a line in the end.
      have found := forward_iff.2 ⟨line, _, _, cut.declared, behind, tail⟩
      have found' := forward_iff.2 ⟨line, text, _, declared, rfl, (behindLine_of_stops blank (declared'.stops_blank behind')).symm⟩
      rw [found] at found'
      have same : later.source = text' ++ behind' := (Prod.mk.inj (Option.some.inj found')).2
      have covered : here.text ++ here.tail = text ++ indent := by
        rw [same] at behind
        exact List.append_cancel_right (by simpa using behind.symm)
      rw [covered] at fits'
      obtain ⟨more, front⟩ := fits'.exists_front (declared.not_atLineStart_behind blank) declared' same
      exact free' [] _ rfl rfl ⟨rfl, other, text', more, front, declared', lists'⟩
    · refine absurd (behind ▸ starts) ?_
      exact ForwardText.not_startsListed_inside (inside ▸ cut.declared) (here.tail ++ later.source)
    · exact ih fits' free' split (by simpa using line)

/-- One stripping of a module is enough just if no two declarations of the names share a line, where no unfinished declaration
stands in front of one that goes: then no line is left that starts such a declaration, and stripping again changes nothing. -/
theorem stripForward_complete_iff {s : List Char} (finished : NoneUnfinished unwanted s) :
    (FreeOf unwanted (stripForward unwanted s) ↔ ¬ SharesLine unwanted s) ∧
      (stripForward unwanted (stripForward unwanted s) = stripForward unwanted s ↔ ¬ SharesLine unwanted s) := by
  have complete : FreeOf unwanted (stripForward unwanted s) ↔ ¬ SharesLine unwanted s := by
    obtain ⟨cutting, source, result, fits⟩ := (@withoutNames_stripFrom unwanted none s).exists_cutting
    rw [stripForward_eq, ← result]
    constructor
    · rintro free ⟨u, v, rfl, ⟨before, declaration, text, indent, rfl, line, declared, lists, blank⟩, starts⟩
      exact fits.not_startsListed_behind free (by simpa using source) line declared lists blank starts
    · exact fun apart => @Cutting.Fits.freeOf_result _ cutting s [] source.symm fits (.inl rfl) apart finished
  exact ⟨complete, stripForward_eq_self_iff.trans complete⟩

/-- Declarations on lines of their own, one of which lists another name besides. -/
theorem stripForward_complete_iff_lines :
    let hooks := ["startWorkers".toList, "terminateWorkers".toList]
    let s := "var startWorkers;\nlet x, terminateWorkers;\n".toList
    NoneUnfinished hooks s ∧ ¬ SharesLine hooks s ∧ stripForward hooks s = "let x;\n".toList ∧
      stripForward hooks (stripForward hooks s) = stripForward hooks s := by
  intro hooks s
  have lines : EveryLine none (fun u v => u = [] ∨ ∀ found ∈ forward none v, ∃ name ∈ found.1.names, name ∉ hooks) s := by decide +kernel
  have finished : NoneUnfinished hooks s := by
    intro u part declaration text behind whole _ filled line declared all
    rcases lines (u ++ part) (text ++ behind) (by rw [whole, List.append_assoc]) line with front | other
    · exact absurd (List.append_eq_nil_iff.1 front).2 filled
    · obtain ⟨name, mem, not⟩ := other _ (forward_iff.2 ⟨rfl, text, behind, declared, rfl, rfl⟩)
      exact absurd (all name mem) not
  have left : stripForward hooks s = "let x;\n".toList := by decide +kernel
  have again : stripForward hooks (stripForward hooks s) = stripForward hooks s := by decide +kernel
  exact ⟨finished, (stripForward_complete_iff finished).2.1 again, left, again⟩

/-- Of two declarations on one line the second one stays: it starts the line once the first is gone, and goes when the module is
stripped again. -/
theorem stripForward_exposes :
    let hooks := ["startWorkers".toList, "terminateWorkers".toList]
    let s := "var startWorkers; let terminateWorkers;\n".toList
    stripForward hooks s = "let terminateWorkers;\n".toList ∧ ¬ FreeOf hooks (stripForward hooks s) ∧
      stripForward hooks (stripForward hooks s) = [] := by
  intro hooks s
  have left : stripForward hooks s = "let terminateWorkers;\n".toList := by decide +kernel
  have again : stripForward hooks "let terminateWorkers;\n".toList = [] := by decide +kernel
  refine ⟨left, fun free => ?_, left ▸ again⟩
  rw [← stripForward_eq_self_iff, left, again] at free
  cases free

end WasmPackaging.Loader
