import WasmPackaging.Proofs.Loader.Stripping

/-!
What is left of a module when names are taken out of its forward declarations. The module is cut at the declarations that
list one of the names: each gives way to a declaration of its other names, or to nothing if it has none, and the stretches
between them stay (`stripForward_cuts`). A declaration that is indented, that has a value, or that lists none of the names lies
within such a stretch.
-/

namespace WasmPackaging.Loader

open Text

variable {unwanted : List (List Char)} {first : Option Char}

/-! ## Texts cut at declarations -/

/-- A declaration that is taken out of a text: what it declares, its text up to the semicolon, what belongs to it behind that,
and what is left in its place. -/
structure Cut where
  declaration : Forward
  text : List Char
  tail : List Char
  left : List Char

/-- A declaration of some names, with the blanks and the end of its line, that gives way to a declaration of its other names on
a line of its own, or to nothing if it has no others. -/
structure Cut.Fits (unwanted : List (List Char)) (cut : Cut) : Prop where
  declared : ForwardText cut.declaration cut.text
  lists : cut.declaration.Lists unwanted
  ends : ∃ indent, indent.all isIndent = true ∧ ∃ lineEnd ∈ [[], ['\n'], ['\r', '\n']], cut.tail = indent ++ lineEnd
  gone : (∀ name ∈ cut.declaration.names, name ∈ unwanted) → cut.left = []
  kept : (∃ name ∈ cut.declaration.names, name ∉ unwanted) →
    ∃ text, ForwardText ⟨cut.declaration.keyword, cut.declaration.names.filter (· ∉ unwanted)⟩ text ∧ cut.left = text ++ ['\n']

/-- A text cut at some declarations: the stretch in front of the first one, that declaration, and the rest cut alike. -/
inductive Cutting where
  | rest (stretch : List Char)
  | cut (stretch : List Char) (here : Cut) (later : Cutting)

namespace Cutting

/-- The text that is cut. -/
def source : Cutting → List Char
  | rest stretch => stretch
  | cut stretch here later => stretch ++ (here.text ++ (here.tail ++ later.source))

/-- The text with what is left of the declarations. -/
def result : Cutting → List Char
  | rest stretch => stretch
  | cut stretch here later => stretch ++ (here.left ++ later.result)

/-- A stretch of text in which no line starts a declaration that lists one of the names. -/
def Untouched (unwanted : List (List Char)) (first : Option Char) (stretch behind : List Char) : Prop :=
  EveryLine first (fun _ v => v ≠ [] → ¬ StartsListed unwanted none (v ++ behind)) stretch

/-- The declarations cut out are those that list one of the names: each starts a line, takes what belongs to it behind its
semicolon, and none starts a line of the stretches between them. -/
def Fits (unwanted : List (List Char)) : Option Char → Cutting → Prop
  | first, rest stretch => Untouched unwanted first stretch []
  | first, cut stretch here later =>
    Untouched unwanted first stretch (here.text ++ (here.tail ++ later.source)) ∧ atLineStart (charBefore first stretch) = true ∧
      here.Fits unwanted ∧ later.source = behindLine (here.tail ++ later.source) ∧
      later.Fits unwanted (charBefore first (stretch ++ (here.text ++ here.tail)))

/-- The text `w` between `u` and `v` lies within a stretch that stays. -/
inductive Keeps : Cutting → List Char → List Char → List Char → Prop where
  | rest {u w v : List Char} : Keeps (rest (u ++ (w ++ v))) u w v
  | here {u w x : List Char} {here : Cut} {later : Cutting} :
      Keeps (cut (u ++ (w ++ x)) here later) u w (x ++ (here.text ++ (here.tail ++ later.source)))
  | later {stretch u w v : List Char} {here : Cut} {later : Cutting} :
      Keeps later u w v → Keeps (cut stretch here later) (stretch ++ (here.text ++ (here.tail ++ u))) w v

/-- The cutting of a text with one character more in front. -/
def cons (c : Char) : Cutting → Cutting
  | rest stretch => rest (c :: stretch)
  | cut stretch here later => cut (c :: stretch) here later

@[simp] theorem source_cons (c : Char) (cutting : Cutting) : (cons c cutting).source = c :: cutting.source := by
  cases cutting <;> rfl

@[simp] theorem result_cons (c : Char) (cutting : Cutting) : (cons c cutting).result = c :: cutting.result := by
  cases cutting <;> rfl

theorem untouched_cons {c : Char} {stretch behind : List Char} (not : ¬ StartsListed unwanted first (c :: (stretch ++ behind)))
    (rest : Untouched unwanted (some c) stretch behind) : Untouched unwanted first (c :: stretch) behind := by
  refine everyLine_cons.2 ⟨fun line _ starts => not ⟨line, starts.2⟩, rest⟩

theorem Fits.cons {c : Char} {cutting : Cutting} (not : ¬ StartsListed unwanted first (c :: cutting.source))
    (fits : cutting.Fits unwanted (some c)) : (Cutting.cons c cutting).Fits unwanted first := by
  cases cutting with
  | rest stretch => exact untouched_cons (by simpa [source] using not) fits
  | cut stretch here later =>
    obtain ⟨untouched, line, cut, tail, fits⟩ := fits
    exact ⟨untouched_cons not untouched, by simpa using line, cut, tail, by simpa using fits⟩

end Cutting

/-! ## The cutting of a module -/

/-- What belongs to a declaration behind its semicolon are blanks of the line, and at most its end. -/
theorem lineEnd_of_behindLine {tail s : List Char} (rest : s = behindLine (tail ++ s)) :
    ∃ indent, indent.all isIndent = true ∧ ∃ lineEnd ∈ [[], ['\n'], ['\r', '\n']], tail = indent ++ lineEnd := by
  obtain ⟨indent, blank, whole⟩ := exists_span isIndent (tail ++ s)
  suffices ends : ∃ lineEnd ∈ [[], ['\n'], ['\r', '\n']], (tail ++ s).dropWhile isIndent = lineEnd ++ s by
    obtain ⟨lineEnd, mem, front⟩ := ends
    rw [front, ← List.append_assoc] at whole
    exact ⟨indent, blank, lineEnd, mem, List.append_cancel_right whole⟩
  unfold behindLine at rest
  generalize (tail ++ s).dropWhile isIndent = front at rest
  cases ends : afterNewline? front with
  | none =>
    rw [ends] at rest
    exact ⟨[], by simp, rest.symm⟩
  | some behind =>
    rw [ends] at rest
    obtain rfl : s = behind := rest
    unfold afterNewline? at ends
    split at ends
    · exact ⟨['\n'], by simp, by rw [Option.some.inj ends]; rfl⟩
    · exact ⟨['\r', '\n'], by simp, by rw [Option.some.inj ends]; rfl⟩
    · cases ends

/-- What the stripping leaves of a declaration fits it. -/
theorem Cut.fits_remaining {declaration : Forward} {text tail : List Char} (declared : ForwardText declaration text)
    (lists : declaration.Lists unwanted)
    (ends : ∃ indent, indent.all isIndent = true ∧ ∃ lineEnd ∈ [[], ['\n'], ['\r', '\n']], tail = indent ++ lineEnd) :
    Cut.Fits unwanted ⟨declaration, text, tail, declaration.remaining unwanted⟩ := by
  have same : (declaration.names.filter fun name => !unwanted.contains name) = declaration.names.filter (· ∉ unwanted) :=
    List.filter_congr fun name _ => by simp
  refine ⟨declared, lists, ends, fun all => ?_, fun ⟨name, mem, other⟩ => ?_⟩
  · have none_ : declaration.names.filter (· ∉ unwanted) = [] := by simpa using all
    simp only [Forward.remaining, same, none_, if_true]
  · have filled : declaration.names.filter (· ∉ unwanted) ≠ [] := List.ne_nil_of_mem (List.mem_filter.2 ⟨mem, by simpa using other⟩)
    have valid : ∀ name ∈ declaration.names.filter (· ∉ unwanted), isName name = true :=
      fun name mem => declared.isName name (List.mem_filter.1 mem).1
    simp only [Forward.remaining, same, if_neg filled, Forward.statement]
    cases declared with
    | mk isKeyword =>
      refine ⟨_, .mk isKeyword (by simp) (show [' '].all isBlank = true by decide) (nameList_joinWith filled valid)
        (show [].all isBlank = true from rfl), ?_⟩
      simp

/-- The stripping of a module cuts it. -/
theorem WithoutNames.exists_cutting {s t : List Char} (without : WithoutNames unwanted first s t) :
    ∃ cutting : Cutting, cutting.source = s ∧ cutting.result = t ∧ cutting.Fits unwanted first := by
  induction without with
  | nil first => exact ⟨.rest [], rfl, rfl, everyLine_nil.2 fun _ filled => absurd rfl filled⟩
  | @keep first c s t not _ ih =>
    obtain ⟨cutting, rfl, rfl, fits⟩ := ih
    exact ⟨.cons c cutting, by simp, by simp, fits.cons not⟩
  | @take first declaration text tail s t line declared lists rest _ ih =>
    obtain ⟨cutting, rfl, rfl, fits⟩ := ih
    refine ⟨.cut [] ⟨declaration, text, tail, declaration.remaining unwanted⟩ cutting, rfl, rfl, ?_, line,
      Cut.fits_remaining declared lists (lineEnd_of_behindLine rest), rest, fits⟩
    exact everyLine_nil.2 fun _ filled => absurd rfl filled

/-! ## What stays -/

/-- A stretch of text, with `v` behind it, that nothing is taken out of: an indented declaration, a declaration that lists none
of the names, or a declaration with a value in which no line starts another declaration that lists one of them. -/
inductive Spared (unwanted : List (List Char)) : List Char → List Char → Prop where
  | declared {indent text v : List Char} {declaration : Forward} : indent.all isIndent = true → ForwardText declaration text →
      indent ≠ [] ∨ ¬ declaration.Lists unwanted → Spared unwanted (indent ++ text) v
  | initialised {indent keyword gap binding value v : List Char} : indent.all isIndent = true →
      keyword ∈ ["var".toList, "let".toList, "const".toList] → gap ≠ [] → gap.all isBlank = true → ';' ∉ binding →
      Cutting.Untouched unwanted (some '=') value v → Spared unwanted (indent ++ keyword ++ gap ++ binding ++ '=' :: value) v

theorem ForwardText.stops_blank {declaration : Forward} {text : List Char} (declared : ForwardText declaration text)
    (behind : List Char) : Stops isBlank (text ++ behind) := by
  cases declared with
  | mk isKeyword => rcases isKeyword with rfl | rfl <;> simp <;> decide

/-- A declaration without values does not reach over a sign that comes before a semicolon. -/
theorem not_head_of_semicolon {x head b r : List Char} (ends : ∃ y, x = y ++ [';']) (plain : '=' ∉ x) (open_ : ';' ∉ head) :
    x ++ b ≠ head ++ '=' :: r := by
  intro whole
  rcases append_eq_append_cons whole with ⟨w, rfl, -⟩ | ⟨w, rfl, -⟩
  · simp at plain
  · obtain ⟨y, rfl⟩ := ends
    simp at open_

/-- In front of the value of a declaration stands no semicolon. -/
theorem semicolon_not_mem_front {indent keyword gap binding : List Char} (blank : indent.all isIndent = true)
    (isKeyword : keyword ∈ ["var".toList, "let".toList, "const".toList]) (gapBlank : gap.all isBlank = true) (plain : ';' ∉ binding) :
    ';' ∉ indent ++ keyword ++ gap ++ binding := by
  simp only [List.mem_append, not_or]
  refine ⟨⟨⟨not_mem_of_all blank (by decide), ?_⟩, not_mem_of_all gapBlank (by decide)⟩, plain⟩
  simp only [List.mem_cons, List.not_mem_nil, or_false] at isKeyword
  rcases isKeyword with rfl | rfl | rfl <;> decide

namespace Spared

variable {w v : List Char}

theorem ne_nil (spared : Spared unwanted w v) : w ≠ [] := by
  cases spared with
  | declared _ declared => simp [declared.ne_nil]
  | initialised => simp

/-- No line of a spared stretch starts a declaration that lists one of the names. -/
theorem untouched (spared : Spared unwanted w v) : Cutting.Untouched unwanted none w v := by
  rintro c e whole line filled ⟨-, other, text', behind, split, declared', lists'⟩
  cases spared with
  | @declared indent text _ declaration blank declared apart =>
    by_cases front : c = []
    · subst front
      cases indent with
      | nil =>
        obtain rfl : text = e := whole
        have found := (@forward_iff none _ _ _).2 ⟨rfl, text, v, declared, rfl, rfl⟩
        have found' := (@forward_iff none _ _ _).2 ⟨rfl, text', behind, declared', split, rfl⟩
        obtain rfl : declaration = other := by
          rw [found] at found'
          exact (Prod.mk.inj (Option.some.inj found')).1
        exact apart.elim (fun filled => filled rfl) fun not => not lists'
      | cons i indent =>
        have stop := declared'.stops_blank behind
        rw [← split, ← List.nil_append e, ← whole] at stop
        simp only [List.all_cons, Bool.and_eq_true] at blank
        simp [isBlank_of_isIndent blank.1] at stop
    · obtain ⟨c, rfl⟩ := exists_eq_append_newline front line
      have flat : '\n' ∉ indent := not_mem_of_all blank (by decide)
      obtain ⟨z, -, rfl⟩ := exists_eq_append_cons_of_not_mem (whole.trans (by simp) : indent ++ text = c ++ '\n' :: e) flat
      have bare := declared.bare_behind_blank (by decide) v
      rw [split] at bare
      exact declared'.not_bare bare
  | @initialised indent keyword gap binding value _ blank isKeyword _ gapBlank plain untouched =>
    rcases append_eq_append_cons whole.symm with ⟨p, rfl, rfl⟩ | ⟨h, front, rfl⟩
    · exact untouched p e rfl (by simpa using line) filled ⟨rfl, other, text', behind, split, declared', lists'⟩
    · have open_ : ';' ∉ h := fun mem =>
        semicolon_not_mem_front blank isKeyword gapBlank plain (front ▸ List.mem_append_right _ mem)
      refine not_head_of_semicolon declared'.exists_semicolon
        (declared'.not_mem (by decide) (by decide) (by decide) (by decide)) open_ (b := behind) (r := value ++ v) ?_
      rw [← split]
      simp

/-- A spared stretch does not start on a later line of a declaration. -/
theorem not_inside (spared : Spared unwanted w v) {declaration : Forward} {u x b : List Char}
    (declared : ForwardText declaration (u ++ '\n' :: x)) (filled : x ≠ []) : x ++ b ≠ w ++ v := by
  intro whole
  have ends : ∃ y, x = y ++ [';'] := by
    obtain ⟨y, last⟩ := declared.exists_semicolon
    rcases append_eq_append_cons last with ⟨_, -, last⟩ | ⟨z, -, last⟩
    · simp at last
    · cases z with
      | nil => simp at last
      | cons d z => exact ⟨z, (List.cons.inj last).2⟩
  cases spared with
  | @declared indent text _ _ blank declared' _ =>
    rw [List.append_assoc] at whole
    rcases List.append_eq_append_iff.1 whole with ⟨z, rfl, -⟩ | ⟨z, rfl, rest⟩
    · obtain ⟨y, rfl⟩ := ends
      simp [isIndent] at blank
    · -- The blank in front of `z`, the last of the indentation or else the line feed, stands within the declaration.
      have bare : Bare (z ++ b) := by
        rcases List.eq_nil_or_concat indent with rfl | ⟨indent, k, rfl⟩
        · exact declared.bare_behind_blank (by decide) b
        · have last : isIndent k = true := by simpa using (List.all_eq_true.1 blank) k (by simp)
          have within : ForwardText declaration ((u ++ '\n' :: indent) ++ k :: z) := by simpa using declared
          exact within.bare_behind_blank (isBlank_of_isIndent last) b
      rw [← rest] at bare
      exact declared'.not_bare bare
  | @initialised indent keyword gap binding value _ blank isKeyword _ gapBlank plain untouched =>
    have flat : '=' ∉ x := fun mem =>
      declared.not_mem (by decide) (by decide) (by decide) (by decide) (List.mem_append_right u (List.mem_cons_of_mem '\n' mem))
    refine not_head_of_semicolon ends flat (semicolon_not_mem_front blank isKeyword gapBlank plain) (b := b) (r := value ++ v) ?_
    rw [whole]
    simp

end Spared

/-- A line of a text that is cut starts in front of the first cut, at it, on a later line of its declaration, or behind it. -/
theorem Cutting.Fits.line_cases {stretch : List Char} {here : Cut} {later : Cutting} (fits : (cut stretch here later).Fits unwanted first)
    {u v : List Char} (whole : (cut stretch here later).source = u ++ v) (line : atLineStart (charBefore first u) = true) :
    (∃ c, c ≠ [] ∧ stretch = u ++ c ∧ v = c ++ (here.text ++ (here.tail ++ later.source))) ∨
      (u = stretch ∧ v = here.text ++ (here.tail ++ later.source)) ∨
      (∃ a x, x ≠ [] ∧ here.text = a ++ '\n' :: x ∧ v = x ++ (here.tail ++ later.source)) ∨
      ∃ a, u = stretch ++ (here.text ++ (here.tail ++ a)) ∧ later.source = a ++ v := by
  obtain ⟨-, -, cut, tail, -⟩ := fits
  rcases List.append_eq_append_iff.1 whole with ⟨a, rfl, behind⟩ | ⟨c, rfl, behind⟩
  · by_cases front : a = []
    · subst front
      exact .inr (.inl ⟨List.append_nil _, behind.symm⟩)
    · rw [← List.append_assoc] at behind
      rcases List.append_eq_append_iff.1 behind with ⟨a, rfl, split⟩ | ⟨f, covered, split⟩
      · exact .inr (.inr (.inr ⟨a, by simp, split⟩))
      · by_cases none_ : f = []
        · subst none_
          rw [List.append_nil] at covered
          exact .inr (.inr (.inr ⟨[], by simp [← covered], split.symm⟩))
        · obtain ⟨a, rfl⟩ := @exists_eq_append_newline (charBefore first stretch) _ front (by simpa using line)
          have shape : (∃ u, here.tail = u ++ ['\n'] ∧ '\n' ∉ u) ∨ here.tail.all isIndent = true ∧ Stops isIndent later.source := by
            obtain ⟨tail', same, shape⟩ := exists_lineEnd (here.tail ++ later.source)
            rw [← tail] at same shape
            rwa [List.append_cancel_right same]
          obtain ⟨x, more, inside, rfl⟩ := newline_within cut.declared shape (by simpa using covered) none_
          exact .inr (.inr (.inl ⟨a, x, more, inside, by rw [split, List.append_assoc]⟩))
  · by_cases none_ : c = []
    · subst none_
      exact .inr (.inl ⟨(List.append_nil u).symm, behind⟩)
    · exact .inl ⟨c, none_, rfl, behind⟩

/-- A stretch at the start of a line that nothing is taken out of lies between two cuts. -/
theorem Cutting.Fits.keeps {cutting : Cutting} (fits : cutting.Fits unwanted first) {u w v : List Char}
    (whole : cutting.source = u ++ (w ++ v)) (line : atLineStart (charBefore first u) = true) (spared : Spared unwanted w v) :
    cutting.Keeps u w v := by
  induction cutting generalizing first u with
  | rest stretch =>
    obtain rfl : stretch = _ := whole
    exact .rest
  | cut stretch here later ih =>
    obtain ⟨-, start, cut, -, fits'⟩ := id fits
    -- A cut that starts within the stretch would start a line of it.
    have outside {c e : List Char} (split : w = c ++ e) (more : e ≠ []) (line : atLineStart (charBefore none c) = true) :
        e ++ v ≠ here.text ++ (here.tail ++ later.source) := fun same =>
      spared.untouched c e split line more ⟨rfl, _, _, _, same, cut.declared, cut.lists⟩
    rcases fits.line_cases whole line with ⟨c, front, rfl, behind⟩ | ⟨rfl, behind⟩ | ⟨a, x, more, inside, behind⟩ | ⟨a, rfl, split⟩
    · rcases List.append_eq_append_iff.1 behind with ⟨x, rfl, rfl⟩ | ⟨e, rfl, split⟩
      · exact .here
      · by_cases none_ : e = []
        · subst none_
          rw [List.nil_append] at split
          subst split
          simpa using (Keeps.here : (Cutting.cut (u ++ (c ++ [])) here later).Keeps u c _)
        · refine absurd split.symm (outside rfl none_ ?_)
          rw [charBefore_append, charBefore_eq_getLast? front] at start
          rwa [charBefore_eq_getLast? front]
    · exact absurd behind (@outside [] w rfl spared.ne_nil rfl)
    · exact absurd behind.symm (spared.not_inside (inside ▸ cut.declared) more)
    · exact .later (ih fits' split (by simpa using line))

/-- Taking names out of the forward declarations of a module loses nothing else. The module is cut at the declarations that list
one of the names; each gives way to the declaration of its other names, or to nothing if it has no others; and a declaration at
the start of a line that is indented, that has a value, or that lists none of the names stays within a stretch between two cuts. -/
theorem stripForward_cuts (unwanted : List (List Char)) (s : List Char) :
    ∃ cutting : Cutting, cutting.source = s ∧ cutting.result = stripForward unwanted s ∧ cutting.Fits unwanted none ∧
      ∀ u w v, s = u ++ (w ++ v) → atLineStart (charBefore none u) = true → Spared unwanted w v → cutting.Keeps u w v := by
  obtain ⟨cutting, source, result, fits⟩ := (@withoutNames_stripFrom unwanted none s).exists_cutting
  refine ⟨cutting, source, result, fits, fun u w v whole line spared => ?_⟩
  exact fits.keeps (source.trans whole) line spared

/-- A hook goes, the other name of its declaration stays, and so does an indented declaration of the hook. -/
theorem stripForward_cuts_indented : ∃ cutting : Cutting,
    cutting.source = "var startWorkers, x;\n  let startWorkers;\n".toList ∧
      cutting.result = "var x;\n  let startWorkers;\n".toList ∧
      cutting.Keeps "var startWorkers, x;\n".toList "  let startWorkers;".toList "\n".toList := by
  have declared : ForwardText ⟨"let".toList, ["startWorkers".toList]⟩ ("let".toList ++ [' '] ++ "startWorkers".toList ++ [] ++ [';']) :=
    .mk (.inr rfl) (by simp) (by decide) (.last (by decide)) rfl
  have spared : Spared ["startWorkers".toList] "  let startWorkers;".toList "\n".toList :=
    .declared (show "  ".toList.all isIndent = true by decide) declared (.inl (by decide))
  obtain ⟨cutting, source, result, -, keeps⟩ := stripForward_cuts ["startWorkers".toList] "var startWorkers, x;\n  let startWorkers;\n".toList
  exact ⟨cutting, source, result.trans (by decide +kernel), keeps _ _ _ (by decide) (by decide) spared⟩

end WasmPackaging.Loader
