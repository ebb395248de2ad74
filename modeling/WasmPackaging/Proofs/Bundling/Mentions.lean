import WasmPackaging.Bundling.ModuleText
import WasmPackaging.Proofs.Text.Finds
import WasmPackaging.Proofs.Text.Spans

/-!
What a mention in a module is: a keyword that does not go on a name or a property, what may stand between it and a
quote (`IsLead`), and a specifier between two equal quotes. The search for mentions answers at a place exactly if one
stands there (`mention_eq_some_iff`), and whether one stands in front of another depends on nothing behind the quote
that opens the other (`mention_eq_none_of_border`).
-/

namespace WasmPackaging.Bundling

open Text

/-- The keywords that a specifier follows as it is. -/
def bareKeywords : List String := ["from", "import"]

/-- The keywords that a specifier follows in a bracket. -/
def callKeywords : List String := ["import", "require"]

/-- A keyword that a specifier follows, and what stands between them: blanks, among them a bracket for a call. -/
inductive IsLead : List Char → Prop
  | bare {keyword : String} {gap : List Char} : keyword ∈ bareKeywords → gap.all isBlank = true →
      IsLead (keyword.toList ++ gap)
  | call {keyword : String} {gap inner : List Char} : keyword ∈ callKeywords → gap.all isBlank = true →
      inner.all isBlank = true → IsLead (keyword.toList ++ (gap ++ '(' :: inner))

/-- A character is a quote. -/
def IsQuote (c : Char) : Prop := c = '\'' ∨ c = '"'

instance : DecidablePred IsQuote := fun _ => inferInstanceAs (Decidable (_ ∨ _))

/-- A text can stand between quotes as a specifier. -/
def IsSpecifier (text : List Char) : Prop := text ≠ [] ∧ text.all isSpecifierChar = true

/-- A keyword behind a character would go on a name, or name a property. -/
def goesOn (before : Option Char) : Bool := before.any fun c => isNameChar c || c == '.'

/-- A specifier between two quotes. -/
def Mention.quoted (found : Mention) : List Char := found.quote :: (found.specifier ++ [found.quote])

/-! ## Characters -/

theorem isSpecifierChar_of_isQuote {c : Char} (quote : IsQuote c) : isSpecifierChar c = false := by
  rcases quote with rfl | rfl <;> decide

theorem isBlank_of_isQuote {c : Char} (quote : IsQuote c) : isBlank c = false := by
  rcases quote with rfl | rfl <;> decide

theorem isNameChar_of_isQuote {c : Char} (quote : IsQuote c) : isNameChar c = false := by
  rcases quote with rfl | rfl <;> decide

theorem IsSpecifier.not_mem {text : List Char} (valid : IsSpecifier text) {c : Char} (quote : IsQuote c) : c ∉ text :=
  not_mem_of_all valid.2 (isSpecifierChar_of_isQuote quote)

theorem isNameChar_of_keyword {keyword : String} (known : keyword ∈ bareKeywords ∨ keyword ∈ callKeywords) :
    keyword.toList.all isNameChar = true := by
  revert keyword
  have all : ∀ keyword ∈ bareKeywords ++ callKeywords, keyword.toList.all isNameChar = true := by decide
  exact fun keyword known => all keyword (List.mem_append.2 known)

theorem keyword_ne_nil {keyword : String} (known : keyword ∈ bareKeywords ∨ keyword ∈ callKeywords) :
    keyword.toList ≠ [] := by
  revert keyword
  have all : ∀ keyword ∈ bareKeywords ++ callKeywords, keyword.toList ≠ [] := by decide
  exact fun keyword known => all keyword (List.mem_append.2 known)

/-- A lead is a keyword, and no character of a name behind it. -/
theorem IsLead.exists_keyword {lead : List Char} (leads : IsLead lead) :
    ∃ keyword gap, lead = keyword ++ gap ∧ keyword ≠ [] ∧ keyword.all isNameChar = true ∧
      (∀ c ∈ gap, isBlank c = true ∨ c = '(') := by
  cases leads with
  | @bare keyword gap known blank =>
    refine ⟨keyword.toList, gap, rfl, keyword_ne_nil (.inl known), isNameChar_of_keyword (.inl known), ?_⟩
    intro c mem
    exact .inl (List.all_eq_true.1 blank c mem)
  | @call keyword gap inner known blank blank' =>
    refine ⟨keyword.toList, gap ++ '(' :: inner, rfl, keyword_ne_nil (.inr known), isNameChar_of_keyword (.inr known), ?_⟩
    intro c mem
    rcases List.mem_append.1 mem with here | later
    · exact .inl (List.all_eq_true.1 blank c here)
    · rcases List.mem_cons.1 later with rfl | here
      · exact .inr rfl
      · exact .inl (List.all_eq_true.1 blank' c here)

/-- No quote stands in a lead. -/
theorem IsLead.not_mem {lead : List Char} (leads : IsLead lead) {c : Char} (quote : IsQuote c) : c ∉ lead := by
  obtain ⟨keyword, gap, rfl, -, name, between⟩ := leads.exists_keyword
  intro mem
  rcases List.mem_append.1 mem with here | here
  · exact not_mem_of_all name (isNameChar_of_isQuote quote) here
  · rcases between c here with blank | rfl
    · rw [isBlank_of_isQuote quote] at blank
      cases blank
    · exact absurd quote (by decide)

/-- A lead that ends with another has the character of a name in front of it. -/
theorem IsLead.goesOn_of_append {front lead : List Char} (outer : IsLead (front ++ lead)) (inner : IsLead lead)
    (filled : front ≠ []) (first : Option Char) : goesOn (charBefore first front) = true := by
  obtain ⟨keyword, gap, whole, -, name, between⟩ := outer.exists_keyword
  obtain ⟨keyword', gap', rfl, filled', name', -⟩ := inner.exists_keyword
  obtain ⟨c, keyword', rfl⟩ := List.exists_cons_of_ne_nil filled'
  rw [List.all_cons, Bool.and_eq_true] at name'
  have split : keyword ++ gap = front ++ c :: (keyword' ++ gap') := by simpa using whole.symm
  rcases append_eq_append_cons split with ⟨w, rfl, -⟩ | ⟨w, -, behind⟩
  · -- the inner keyword starts within the outer one
    rw [List.all_append, Bool.and_eq_true] at name
    rw [charBefore_eq_getLast? filled, List.getLast?_eq_some_getLast filled]
    have last := List.all_eq_true.1 name.1 _ (List.getLast_mem filled)
    simp [goesOn, last]
  · rcases between c (by simp [behind]) with blank | rfl
    · rw [isBlank_of_isNameChar name'.1] at blank
      cases blank
    · exact absurd name'.1 (by decide)

/-! ## The search -/

theorem trimStart_span {gap rest : List Char} {c : Char} (blank : gap.all isBlank = true) (stop : isBlank c = false) :
    trimStart (gap ++ c :: rest) = c :: rest := dropWhile_span blank (stops_cons.2 stop)

theorem trimStart_of_not_blank {rest : List Char} {c : Char} (stop : isBlank c = false) :
    trimStart (c :: rest) = c :: rest := dropWhile_span List.all_nil (stops_cons.2 stop)

theorem exists_trimStart (s : List Char) : ∃ gap, gap.all isBlank = true ∧ s = gap ++ trimStart s := exists_span isBlank s

theorem afterWord?_eq_some_iff {word : String} {s rest : List Char} :
    afterWord? word s = some rest ↔ s = word.toList ++ rest := after?_eq_some_iff

/-- A bracket among blanks, read up to the character behind them. -/
theorem bracket_eq_some_iff {s rest : List Char} {c : Char} (solid : isBlank c = false) :
    (after? ['('] (trimStart s)).map trimStart = some (c :: rest) ↔
      ∃ gap inner, gap.all isBlank = true ∧ inner.all isBlank = true ∧ s = gap ++ '(' :: (inner ++ c :: rest) := by
  constructor
  · intro found
    obtain ⟨inside, bracketed, found⟩ := Option.map_eq_some_iff.1 found
    obtain ⟨gap, blank, whole⟩ := exists_trimStart s
    obtain ⟨inner, blank', whole'⟩ := exists_trimStart inside
    refine ⟨gap, inner, blank, blank', ?_⟩
    rw [whole, after?_eq_some_iff.1 bracketed, whole', found]
    rfl
  · rintro ⟨gap, inner, blank, blank', rfl⟩
    have opened : after? ['('] ('(' :: (inner ++ c :: rest)) = some (inner ++ c :: rest) := after?_eq_some_iff.2 rfl
    rw [trimStart_span blank (by decide), opened, Option.map_some, trimStart_span blank' solid]

/-- A bracket that may be missing, among blanks, read up to a quote behind them. -/
theorem optionalBracket_eq_iff {s rest : List Char} {quote : Char} (opens : IsQuote quote) :
    trimStart (afterOptional '(' (trimStart s)) = quote :: rest ↔
      (∃ gap, gap.all isBlank = true ∧ s = gap ++ quote :: rest) ∨
        ∃ gap inner, gap.all isBlank = true ∧ inner.all isBlank = true ∧ s = gap ++ '(' :: (inner ++ quote :: rest) := by
  have solid := isBlank_of_isQuote opens
  constructor
  · intro found
    rw [afterOptional] at found
    cases bracketed : after? ['('] (trimStart s) with
    | none =>
      rw [bracketed, Option.getD_none] at found
      obtain ⟨gap, blank, whole⟩ := exists_trimStart s
      obtain ⟨gap', blank', whole'⟩ := exists_trimStart (trimStart s)
      refine .inl ⟨gap ++ gap', by simp [blank, blank'], ?_⟩
      rw [List.append_assoc, ← found, ← whole', ← whole]
    | some inside =>
      rw [bracketed, Option.getD_some] at found
      exact .inr ((bracket_eq_some_iff solid).1 (by rw [bracketed, Option.map_some, found]))
  · rintro (⟨gap, blank, rfl⟩ | bracketed)
    · have bracket : quote ≠ '(' := by
        rintro rfl
        exact absurd opens (by decide)
      have unbracketed : afterOptional '(' (quote :: rest) = quote :: rest := by
        simp [afterOptional, after?, bracket.symm]
      rw [trimStart_span blank solid, unbracketed, trimStart_of_not_blank solid]
    · obtain ⟨inside, opened, found⟩ := Option.map_eq_some_iff.1 ((bracket_eq_some_iff solid).2 bracketed)
      rw [afterOptional, opened, Option.getD_some, found]

theorem afterKeyword?_from (behind : List Char) : afterKeyword? ("from".toList ++ behind) = some (trimStart behind) := by
  have first : afterWord? "from" ("from".toList ++ behind) = some behind := afterWord?_eq_some_iff.2 rfl
  simp only [afterKeyword?, first]

theorem afterKeyword?_import (behind : List Char) :
    afterKeyword? ("import".toList ++ behind) = some (trimStart (afterOptional '(' (trimStart behind))) := by
  have first : afterWord? "from" ("import".toList ++ behind) = none := rfl
  have second : afterWord? "import" ("import".toList ++ behind) = some behind := afterWord?_eq_some_iff.2 rfl
  simp only [afterKeyword?, first, second]

theorem afterKeyword?_require (behind : List Char) :
    afterKeyword? ("require".toList ++ behind) = (after? ['('] (trimStart behind)).map trimStart := by
  have first : afterWord? "from" ("require".toList ++ behind) = none := rfl
  have second : afterWord? "import" ("require".toList ++ behind) = none := rfl
  have third : afterWord? "require" ("require".toList ++ behind) = some behind := afterWord?_eq_some_iff.2 rfl
  simp only [afterKeyword?, first, second, third]

/-- Nothing is read where no keyword stands. -/
theorem exists_keyword_of_afterKeyword? {s rest : List Char} (found : afterKeyword? s = some rest) :
    ∃ behind, s = "from".toList ++ behind ∨ s = "import".toList ++ behind ∨ s = "require".toList ++ behind := by
  unfold afterKeyword? at found
  split at found
  · next behind first => exact ⟨behind, .inl (afterWord?_eq_some_iff.1 first)⟩
  · next behind second _ => exact ⟨behind, .inr (.inl (afterWord?_eq_some_iff.1 second))⟩
  · next behind third _ _ => exact ⟨behind, .inr (.inr (afterWord?_eq_some_iff.1 third))⟩
  · cases found

/-- What is behind a keyword is read up to a quote exactly if that is a lead. -/
theorem afterKeyword?_eq_some_iff {s rest : List Char} {quote : Char} (opens : IsQuote quote) :
    afterKeyword? s = some (quote :: rest) ↔ ∃ lead, IsLead lead ∧ s = lead ++ quote :: rest := by
  have solid := isBlank_of_isQuote opens
  constructor
  · intro found
    obtain ⟨behind, rfl | rfl | rfl⟩ := exists_keyword_of_afterKeyword? found
    · rw [afterKeyword?_from, Option.some.injEq] at found
      obtain ⟨gap, blank, whole⟩ := exists_trimStart behind
      exact ⟨"from".toList ++ gap, .bare (by simp [bareKeywords]) blank, by rw [List.append_assoc, ← found, ← whole]⟩
    · rw [afterKeyword?_import, Option.some.injEq, optionalBracket_eq_iff opens] at found
      obtain ⟨gap, blank, rfl⟩ | ⟨gap, inner, blank, blank', rfl⟩ := found
      · exact ⟨"import".toList ++ gap, .bare (by simp [bareKeywords]) blank, by simp⟩
      · exact ⟨"import".toList ++ (gap ++ '(' :: inner), .call (by simp [callKeywords]) blank blank', by simp⟩
    · rw [afterKeyword?_require, bracket_eq_some_iff solid] at found
      obtain ⟨gap, inner, blank, blank', rfl⟩ := found
      exact ⟨"require".toList ++ (gap ++ '(' :: inner), .call (by simp [callKeywords]) blank blank', by simp⟩
  · rintro ⟨lead, leads, rfl⟩
    cases leads with
    | @bare keyword gap known blank =>
      simp only [bareKeywords, List.mem_cons, List.not_mem_nil, or_false] at known
      rw [List.append_assoc]
      rcases known with rfl | rfl
      · rw [afterKeyword?_from, trimStart_span blank solid]
      · rw [afterKeyword?_import, (optionalBracket_eq_iff opens).2 (.inl ⟨gap, blank, rfl⟩)]
    | @call keyword gap inner known blank blank' =>
      simp only [callKeywords, List.mem_cons, List.not_mem_nil, or_false] at known
      simp only [List.append_assoc, List.cons_append]
      rcases known with rfl | rfl
      · rw [afterKeyword?_import, (optionalBracket_eq_iff opens).2 (.inr ⟨gap, inner, blank, blank', rfl⟩)]
      · rw [afterKeyword?_require, (bracket_eq_some_iff solid).2 ⟨gap, inner, blank, blank', rfl⟩]

/-- The search answers at a place exactly if a mention stands there: a keyword that does not go on a name, and a
specifier between two equal quotes. -/
theorem mention_eq_some_iff {before : Option Char} {s behind : List Char} {found : Mention} :
    mention before s = some (found, behind) ↔ goesOn before = false ∧ IsQuote found.quote ∧ IsSpecifier found.specifier ∧
      ∃ lead, IsLead lead ∧ s = lead ++ (found.quoted ++ behind) := by
  constructor
  · intro mentioned
    unfold mention at mentioned
    obtain ⟨start, mentioned⟩ := Option.ite_none_left_eq_some.1 mentioned
    simp only [Option.bind_eq_bind, Option.bind_eq_some_iff] at mentioned
    obtain ⟨rest, keyword, quote, head, ends⟩ := mentioned
    obtain ⟨tail, rfl⟩ : ∃ tail, rest = quote :: tail := List.head?_eq_some_iff.1 head
    obtain ⟨valid, ends⟩ := Option.ite_none_right_eq_some.1 ends
    obtain ⟨last, closed, same⟩ := Option.bind_eq_some_iff.1 ends
    obtain ⟨rfl, rfl⟩ := Prod.mk.inj (Option.some.inj same)
    simp only [List.tail_cons, Bool.and_eq_true, Bool.or_eq_true, beq_iff_eq, bne_iff_ne] at valid closed
    obtain ⟨lead, leads, rfl⟩ := (afterKeyword?_eq_some_iff valid.1).1 keyword
    refine ⟨by simpa [goesOn] using start, valid.1, ⟨valid.2, List.all_takeWhile⟩, lead, leads, ?_⟩
    rw [after?_eq_some_iff] at closed
    have whole := tail.takeWhile_append_dropWhile (p := isSpecifierChar)
    rw [closed] at whole
    simpa [Mention.quoted] using whole.symm
  · rintro ⟨start, opens, ⟨filled, valid⟩, lead, leads, rfl⟩
    obtain ⟨quote, specifier⟩ := found
    have keyword : afterKeyword? (lead ++ (Mention.quoted ⟨quote, specifier⟩ ++ behind)) =
        some (quote :: (specifier ++ quote :: behind)) :=
      (afterKeyword?_eq_some_iff opens).2 ⟨lead, leads, by simp [Mention.quoted]⟩
    have stop : Stops isSpecifierChar (quote :: behind) := stops_cons.2 (isSpecifierChar_of_isQuote opens)
    have closed : after? [quote] (quote :: behind) = some behind := after?_eq_some_iff.2 rfl
    have known : (quote == '\'' || quote == '"') = true := by
      simpa [IsQuote] using opens
    rw [goesOn] at start
    unfold mention
    simp only [start, keyword, Bool.false_eq_true, if_false, Option.bind_eq_bind, Option.bind_some, List.head?_cons,
      List.tail_cons, takeWhile_span valid stop, dropWhile_span valid stop, closed, known, Bool.true_and]
    simp [filled]

/-- A quoted specifier is found together with what stands in front of it exactly if that is a lead. -/
theorem mention_lead_iff {before : Option Char} {lead behind : List Char} {found : Mention} :
    mention before (lead ++ found.quoted ++ behind) = some (found, behind) ↔
      goesOn before = false ∧ IsQuote found.quote ∧ IsSpecifier found.specifier ∧ IsLead lead := by
  rw [mention_eq_some_iff, List.append_assoc]
  constructor
  · rintro ⟨start, opens, valid, lead', leads, whole⟩
    obtain rfl : lead = lead' := List.append_cancel_right whole
    exact ⟨start, opens, valid, leads⟩
  · rintro ⟨start, opens, valid, leads⟩
    exact ⟨start, opens, valid, lead, leads, rfl⟩

/-- No mention stands at a place exactly if nothing there can be read as one. -/
theorem mention_eq_none_iff {before : Option Char} {s : List Char} :
    mention before s = none ↔ ∀ found behind, mention before s ≠ some (found, behind) := by
  cases mention before s with
  | none => simp
  | some answer =>
    constructor
    · intro none
      cases none
    · intro nothing
      exact absurd rfl (nothing answer.1 answer.2)

/-- Whether a mention stands in front of another depends on nothing behind the quote that opens the other. -/
theorem mention_eq_none_of_border {first : Option Char} {front lead rest rest' : List Char} {quote : Char}
    (filled : front ≠ []) (leads : IsLead lead) (start : goesOn (charBefore first front) = false) (opens : IsQuote quote)
    (missing : mention first (front ++ (lead ++ quote :: rest)) = none) :
    mention first (front ++ (lead ++ quote :: rest')) = none := by
  rw [mention_eq_none_iff] at missing ⊢
  rintro ⟨quote', specifier⟩ behind mentioned
  obtain ⟨start', opens', valid, lead', leads', whole⟩ := mention_eq_some_iff.1 mentioned
  -- the quotes around the specifier stand before the border, or one of them is the border
  have split : (front ++ lead) ++ quote :: rest' = lead' ++ quote' :: (specifier ++ quote' :: behind) := by
    simpa [Mention.quoted] using whole
  rcases append_eq_append_cons split with ⟨w, within, later⟩ | ⟨w, beyond, beyond'⟩
  · rcases append_eq_append_cons later.symm with ⟨w', rfl, -⟩ | ⟨w', rfl, later'⟩
    · apply missing ⟨quote', specifier⟩ (w' ++ quote :: rest)
      refine mention_eq_some_iff.2 ⟨start', opens', valid, lead', leads', ?_⟩
      rw [← List.append_assoc, within]
      simp [Mention.quoted]
    · cases w' with
      | nil =>
        obtain ⟨rfl, -⟩ := List.cons.inj later'
        apply missing ⟨quote, w ++ []⟩ rest
        refine mention_eq_some_iff.2 ⟨start', opens', valid, lead', leads', ?_⟩
        rw [← List.append_assoc, within]
        simp [Mention.quoted]
      | cons c w' =>
        obtain ⟨rfl, -⟩ := List.cons.inj later'
        exact absurd (by simp) (valid.not_mem opens)
  · cases w with
    | nil =>
      rw [beyond, List.append_nil] at leads'
      rw [leads'.goesOn_of_append leads filled first] at start
      cases start
    | cons c w =>
      obtain ⟨rfl, -⟩ := List.cons.inj beyond'
      exact absurd (by simp [beyond]) (leads'.not_mem opens)

/-- A mention ends with its specifier and the quote behind it. -/
theorem exists_of_mention {before : Option Char} {s behind : List Char} {found : Mention}
    (mentioned : mention before s = some (found, behind)) :
    ∃ front, s = front ++ (found.specifier ++ [found.quote]) ++ behind := by
  obtain ⟨-, -, -, lead, -, rfl⟩ := mention_eq_some_iff.1 mentioned
  exact ⟨lead ++ [found.quote], by simp [Mention.quoted]⟩

theorem cuts_mention : Recognizer.Cuts mention := by
  intro before s found behind mentioned
  obtain ⟨front, rfl⟩ := exists_of_mention mentioned
  exact ⟨front ++ (found.specifier ++ [found.quote]), by simp, rfl⟩

/-- A mention in a text is a lead and a quoted specifier. -/
theorem exists_lead_of_hit {before : Option Char} {covered behind : List Char} {found : Mention}
    (mentioned : mention before (covered ++ behind) = some (found, behind)) :
    ∃ lead, IsLead lead ∧ covered = lead ++ found.quoted := by
  obtain ⟨-, -, -, lead, leads, whole⟩ := mention_eq_some_iff.1 mentioned
  rw [← List.append_assoc] at whole
  exact ⟨lead, leads, List.append_cancel_right whole⟩

/-- The specifier of a mention stands behind its lead and a quote. -/
theorem withSpecifier_quoted (found : Mention) (lead specifier : List Char) :
    found.withSpecifier (lead ++ found.quoted) specifier = lead ++ (Mention.mk found.quote specifier).quoted := by
  have size : (lead ++ found.quoted).length - (found.specifier.length + 1) = (lead ++ [found.quote]).length := by
    simp only [Mention.quoted, List.length_append, List.length_cons, List.length_nil]
    omega
  have split : lead ++ found.quoted = (lead ++ [found.quote]) ++ (found.specifier ++ [found.quote]) := by
    simp [Mention.quoted]
  rw [Mention.withSpecifier, size, split, List.take_left]
  simp [Mention.quoted]

/-- A mention with its own specifier in it is as it was. -/
theorem withSpecifier_self {first : Option Char} {s text : List Char} {found : Mention}
    (mem : .hit found text ∈ pieces mention first s) : found.withSpecifier text found.specifier = text := by
  obtain ⟨before, behind, mentioned⟩ := exists_of_hit_mem_pieces cuts_mention mem
  obtain ⟨lead, -, rfl⟩ := exists_lead_of_hit mentioned
  exact withSpecifier_quoted found lead found.specifier

end WasmPackaging.Bundling
