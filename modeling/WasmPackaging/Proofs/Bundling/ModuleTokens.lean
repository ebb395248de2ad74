import Mathlib.Data.List.Chain
import WasmPackaging.Proofs.Bundling.Mentions

/-!
The tokens that a module is written in: names, blanks, comments up to the end of a line, quoted texts without
escapes, and single characters. A keyword token introduces a literal token exactly if the search for mentions answers
at the keyword (`mention_tokens_iff`). Each place in a text lies in one token (`exists_token`), and a token that lies
within a stretch of others is one of them (`exists_within`).
-/

namespace WasmPackaging.Bundling

open Text

/-- A part of the text of a module: a name, blanks, a single character, a comment, or a text between quotes. -/
inductive Token where
  | word (name : List Char)
  | blanks (gap : List Char)
  | mark (c : Char)
  | comment (body : List Char)
  | literal (quote : Char) (body : List Char)
  deriving DecidableEq

/-- The characters of a token. -/
def Token.text : Token → List Char
  | .word name => name
  | .blanks gap => gap
  | .mark c => [c]
  | .comment body => '/' :: '/' :: body
  | .literal quote body => (Mention.mk quote body).quoted

/-- The characters of some tokens. -/
def textOf (tokens : List Token) : List Char := tokens.flatMap Token.text

/-- A token is made of the characters of its kind; a literal holds no quote, no line feed and no escape. -/
def Token.Valid : Token → Prop
  | .word name => name ≠ [] ∧ name.all isNameChar = true
  | .blanks gap => gap ≠ [] ∧ gap.all isBlank = true
  | .mark c => isNameChar c = false ∧ isBlank c = false ∧ ¬ IsQuote c
  | .comment body => '\n' ∉ body
  | .literal quote body => IsQuote quote ∧ body.all isSpecifierChar = true ∧ '\\' ∉ body

instance : DecidablePred Token.Valid
  | .word _ => inferInstanceAs (Decidable (_ ∧ _))
  | .blanks _ => inferInstanceAs (Decidable (_ ∧ _))
  | .mark _ => inferInstanceAs (Decidable (_ ∧ _ ∧ _))
  | .comment _ => inferInstanceAs (Decidable (_ ∉ _))
  | .literal _ _ => inferInstanceAs (Decidable (_ ∧ _ ∧ _))

/-- A token may stand in front of another: a name is whole, a slash starts no comment, and a comment goes on to the
end of its line. -/
def Token.Meets (next : Token) : Token → Prop
  | .word _ => Stops isNameChar next.text
  | .mark c => c = '/' → next.text.head? ≠ some '/'
  | .comment _ => next.text.head? = some '\n'
  | _ => True

instance (next : Token) : DecidablePred next.Meets
  | .word _ => inferInstanceAs (Decidable (Stops _ _))
  | .mark _ => inferInstanceAs (Decidable (_ → _))
  | .comment _ => inferInstanceAs (Decidable (_ = _))
  | .blanks _ => .isTrue trivial
  | .literal _ _ => .isTrue trivial

/-- Some tokens make up the text of a module. -/
def IsLexed (tokens : List Token) : Prop :=
  (∀ t ∈ tokens, t.Valid) ∧ tokens.IsChain fun t next => next.Meets t

instance (tokens : List Token) : Decidable (IsLexed tokens) := inferInstanceAs (Decidable (_ ∧ _))

/-- Tokens that are nothing but blanks. -/
def AreBlanks (tokens : List Token) : Prop := ∀ t ∈ tokens, ∃ gap, t = .blanks gap

/-- A keyword, and what stands between it and the literal that it introduces: blanks, among them a bracket for a
call. -/
inductive Introduces : List Token → Prop
  | bare {keyword : String} {gap : List Token} : keyword ∈ bareKeywords → AreBlanks gap →
      Introduces (.word keyword.toList :: gap)
  | call {keyword : String} {gap inner : List Token} : keyword ∈ callKeywords → AreBlanks gap → AreBlanks inner →
      Introduces (.word keyword.toList :: (gap ++ .mark '(' :: inner))

@[simp] theorem textOf_nil : textOf [] = [] := rfl

@[simp] theorem textOf_cons (t : Token) (tokens : List Token) : textOf (t :: tokens) = t.text ++ textOf tokens := by
  simp [textOf]

@[simp] theorem textOf_append (front rest : List Token) : textOf (front ++ rest) = textOf front ++ textOf rest := by
  simp [textOf]

/-! ## Single tokens -/

/-- A token may start with a character. -/
inductive Token.Starts (c : Char) : Token → Prop
  | word {name : List Char} : isNameChar c = true → Starts c (.word name)
  | blanks {gap : List Char} : isBlank c = true → Starts c (.blanks gap)
  | mark : isNameChar c = false → isBlank c = false → ¬ IsQuote c → Starts c (.mark c)
  | comment {body : List Char} : c = '/' → Starts c (.comment body)
  | literal {body : List Char} : IsQuote c → Starts c (.literal c body)

namespace Token.Valid

variable {t : Token} {c : Char} {s : List Char}

theorem text_ne_nil (valid : t.Valid) : t.text ≠ [] := by
  cases t with
  | word name => exact valid.1
  | blanks gap => exact valid.1
  | mark c => exact List.cons_ne_nil _ _
  | comment body => exact List.cons_ne_nil _ _
  | literal quote body => exact List.cons_ne_nil _ _

/-- Which kind of token it is shows at its first character. -/
theorem starts (valid : t.Valid) (head : t.text = c :: s) : t.Starts c := by
  cases t with
  | word name =>
    obtain rfl : name = c :: s := head
    exact .word (List.all_eq_true.1 valid.2 c (.head _))
  | blanks gap =>
    obtain rfl : gap = c :: s := head
    exact .blanks (List.all_eq_true.1 valid.2 c (.head _))
  | mark d =>
    obtain ⟨rfl, -⟩ := List.cons.inj head
    exact .mark valid.1 valid.2.1 valid.2.2
  | comment body =>
    obtain ⟨rfl, -⟩ := List.cons.inj head
    exact .comment rfl
  | literal quote body =>
    obtain ⟨rfl, -⟩ := List.cons.inj head
    exact .literal valid.1

theorem exists_word (valid : t.Valid) (head : t.text = c :: s) (name : isNameChar c = true) : ∃ word, t = .word word := by
  cases valid.starts head with
  | word => exact ⟨_, rfl⟩
  | blanks blank =>
    rw [isBlank_of_isNameChar name] at blank
    cases blank
  | mark other =>
    rw [name] at other
    cases other
  | comment slash =>
    subst slash
    exact absurd name (by decide)
  | literal quote =>
    rw [isNameChar_of_isQuote quote] at name
    cases name

theorem exists_blanks (valid : t.Valid) (head : t.text = c :: s) (blank : isBlank c = true) : ∃ gap, t = .blanks gap := by
  cases valid.starts head with
  | word name =>
    rw [isNameChar_of_isBlank blank] at name
    cases name
  | blanks => exact ⟨_, rfl⟩
  | mark _ other =>
    rw [blank] at other
    cases other
  | comment slash =>
    subst slash
    exact absurd blank (by decide)
  | literal quote =>
    rw [isBlank_of_isQuote quote] at blank
    cases blank

theorem exists_literal (valid : t.Valid) (head : t.text = c :: s) (quote : IsQuote c) : ∃ body, t = .literal c body := by
  cases valid.starts head with
  | word name =>
    rw [isNameChar_of_isQuote quote] at name
    cases name
  | blanks blank =>
    rw [isBlank_of_isQuote quote] at blank
    cases blank
  | mark _ _ other => exact absurd quote other
  | comment slash =>
    subst slash
    exact absurd quote (by decide)
  | literal => exact ⟨_, rfl⟩

theorem eq_bracket (valid : t.Valid) (head : t.text = '(' :: s) : t = .mark '(' := by
  cases valid.starts head with
  | word name => exact absurd name (by decide)
  | blanks blank => exact absurd blank (by decide)
  | mark => rfl
  | comment slash => exact absurd slash (by decide)
  | literal quote => exact absurd quote (by decide)

/-- A keyword behind a token that may stand in front of it would go on a name, or name a property, exactly if the
token is a dot. -/
theorem goesOn_iff (valid : t.Valid) {name : List Char} (word : (Token.word name).Valid) (meets : (Token.word name).Meets t)
    (before : Option Char) : goesOn (charBefore before t.text) = true ↔ t = .mark '.' := by
  obtain ⟨c, name, rfl⟩ := List.exists_cons_of_ne_nil word.1
  have starts : isNameChar c = true := List.all_eq_true.1 word.2 c (.head _)
  cases t with
  | word name' =>
    have stops : isNameChar c = false := stops_cons.1 meets
    rw [starts] at stops
    cases stops
  | blanks gap =>
    have last := List.all_eq_true.1 valid.2 _ (List.getLast_mem valid.1)
    rw [show (Token.blanks gap).text = gap from rfl, charBefore_eq_getLast? valid.1, List.getLast?_eq_some_getLast valid.1]
    have other : gap.getLast valid.1 ≠ '.' := by
      intro same
      rw [same] at last
      exact absurd last (by decide)
    simp [goesOn, isNameChar_of_isBlank last, other]
  | mark d => simp [Token.text, goesOn, valid.1]
  | comment body =>
    obtain rfl : c = '\n' := Option.some.inj meets
    exact absurd starts (by decide)
  | literal quote body =>
    have other : quote ≠ '.' := by
      rintro rfl
      exact absurd valid.1 (by decide)
    simp [Token.text, Mention.quoted, goesOn, isNameChar_of_isQuote valid.1, other]

end Token.Valid

/-! ## Lists of tokens -/

theorem IsLexed.tail {t : Token} {rest : List Token} (lexed : IsLexed (t :: rest)) : IsLexed rest :=
  ⟨fun other mem => lexed.1 other (.tail _ mem), lexed.2.tail⟩

theorem IsLexed.of_append {front rest : List Token} (lexed : IsLexed (front ++ rest)) : IsLexed rest :=
  ⟨fun t mem => lexed.1 t (List.mem_append_right _ mem), lexed.2.right_of_append⟩

theorem IsLexed.valid {front rest : List Token} {t : Token} (lexed : IsLexed (front ++ t :: rest)) : t.Valid :=
  lexed.1 t (by simp)

/-- A keyword in a module would go on a name, or name a property, exactly if the token in front of it is a dot. -/
theorem IsLexed.goesOn_iff {front rest : List Token} {name : List Char} (lexed : IsLexed (front ++ .word name :: rest)) :
    goesOn (charBefore none (textOf front)) = true ↔ front.getLast? = some (.mark '.') := by
  rcases List.eq_nil_or_concat front with rfl | ⟨init, t, rfl⟩
  · simp [goesOn]
  · rw [List.concat_eq_append, List.append_assoc, List.singleton_append] at lexed
    have meets : (Token.word name).Meets t := (List.isChain_cons_cons.1 lexed.of_append.2).1
    have word : (Token.word name).Valid := lexed.1 _ (by simp)
    rw [List.concat_eq_append, textOf_append, charBefore_append, List.getLast?_concat, Option.some_inj]
    simpa using lexed.valid.goesOn_iff word meets (charBefore none (textOf init))

theorem areBlanks_text {tokens : List Token} (blanks : AreBlanks tokens) (valid : ∀ t ∈ tokens, t.Valid) :
    (textOf tokens).all isBlank = true := by
  induction tokens with
  | nil => rfl
  | cons t tokens ih =>
    obtain ⟨⟨gap, rfl⟩, later⟩ := List.forall_mem_cons.1 blanks
    obtain ⟨here, valid⟩ := List.forall_mem_cons.1 valid
    rw [textOf_cons, List.all_append, Bool.and_eq_true]
    exact ⟨here.2, ih later valid⟩

/-- Behind its keyword, what introduces a literal is blanks and brackets. -/
theorem Introduces.exists_word {lead : List Token} (introduces : Introduces lead) :
    ∃ name rest, lead = .word name :: rest ∧ ∀ t ∈ rest, (∃ gap, t = .blanks gap) ∨ t = .mark '(' := by
  cases introduces with
  | bare known blanks => exact ⟨_, _, rfl, fun t mem => .inl (blanks t mem)⟩
  | call known blanks blanks' =>
    refine ⟨_, _, rfl, fun t mem => ?_⟩
    rcases List.mem_append.1 mem with here | later
    · exact .inl (blanks t here)
    · rcases List.mem_cons.1 later with rfl | here
      · exact .inr rfl
      · exact .inl (blanks' t here)

theorem Introduces.isLead {lead : List Token} (introduces : Introduces lead) (valid : ∀ t ∈ lead, t.Valid) :
    IsLead (textOf lead) := by
  cases introduces with
  | bare known blanks =>
    rw [textOf_cons]
    exact .bare known (areBlanks_text blanks (List.forall_mem_cons.1 valid).2)
  | call known blanks blanks' =>
    obtain ⟨valid, valid'⟩ := List.forall_mem_append.1 (List.forall_mem_cons.1 valid).2
    rw [textOf_cons, textOf_append, textOf_cons]
    exact .call known (areBlanks_text blanks valid) (areBlanks_text blanks' (List.forall_mem_cons.1 valid').2)

/-! ## Reading a text token by token -/

section reading

variable {tokens : List Token} {c : Char} {s : List Char}

/-- The first token of a text has its first character. -/
theorem IsLexed.exists_head (lexed : IsLexed tokens) (whole : textOf tokens = c :: s) :
    ∃ t after s', tokens = t :: after ∧ t.Valid ∧ t.text = c :: s' ∧ s = s' ++ textOf after := by
  cases tokens with
  | nil => cases whole
  | cons t after =>
    have valid : t.Valid := lexed.1 t (.head _)
    obtain ⟨d, s', head⟩ := List.exists_cons_of_ne_nil valid.text_ne_nil
    rw [textOf_cons, head] at whole
    obtain ⟨rfl, rfl⟩ := List.cons.inj whole
    exact ⟨t, after, s', rfl, valid, head, rfl⟩

/-- Blanks at the front of a text are tokens of their own. -/
theorem IsLexed.exists_blanks (lexed : IsLexed tokens) {gap : List Char} (whole : textOf tokens = gap ++ c :: s)
    (blank : gap.all isBlank = true) (solid : isBlank c = false) :
    ∃ front after, tokens = front ++ after ∧ AreBlanks front ∧ textOf front = gap ∧ textOf after = c :: s := by
  induction tokens generalizing gap with
  | nil => simp at whole
  | cons t tokens ih =>
    cases gap with
    | nil => exact ⟨[], t :: tokens, rfl, List.forall_mem_nil _, rfl, whole⟩
    | cons d gap =>
      obtain ⟨_, _, s', ⟨⟩, valid, head, -⟩ := lexed.exists_head whole
      obtain ⟨inner, rfl⟩ := valid.exists_blanks head (List.all_eq_true.1 blank d (.head _))
      have outside : c ∉ inner := not_mem_of_all valid.2 solid
      obtain ⟨w, split, later⟩ := exists_eq_append_cons_of_not_mem (textOf_cons _ _ ▸ whole) outside
      rw [split, List.all_append, Bool.and_eq_true] at blank
      obtain ⟨front, after, rfl, blanks, rfl, rest⟩ := ih lexed.tail later blank.2
      refine ⟨.blanks inner :: front, after, rfl, List.forall_mem_cons.2 ⟨⟨inner, rfl⟩, blanks⟩, ?_, rest⟩
      rw [textOf_cons, split]
      rfl

/-- A quoted specifier at the front of a text is a literal token. -/
theorem IsLexed.exists_literal (lexed : IsLexed tokens) {found : Mention} (opens : IsQuote found.quote)
    (specifier : IsSpecifier found.specifier) (whole : textOf tokens = found.quoted ++ s) :
    ∃ after, tokens = .literal found.quote found.specifier :: after ∧ s = textOf after := by
  obtain ⟨t, after, s', rfl, valid, head, rest⟩ := lexed.exists_head whole
  obtain ⟨body, rfl⟩ := valid.exists_literal head opens
  obtain ⟨-, rfl⟩ := List.cons.inj head
  have outside : found.quote ∉ body := not_mem_of_all valid.2.1 (isSpecifierChar_of_isQuote opens)
  have split : found.specifier ++ found.quote :: s = body ++ found.quote :: textOf after := by simpa using rest
  obtain ⟨w, rfl, later⟩ := exists_eq_append_cons_of_not_mem split (specifier.not_mem opens)
  cases w with
  | nil =>
    obtain ⟨-, rfl⟩ := List.cons.inj later
    exact ⟨after, by rw [List.append_nil], rfl⟩
  | cons d w =>
    obtain ⟨rfl, -⟩ := List.cons.inj later
    exact absurd (by simp) outside

theorem IsLexed.exists_blanks_literal (lexed : IsLexed tokens) {gap : List Char} (blank : gap.all isBlank = true)
    {found : Mention} (opens : IsQuote found.quote) (specifier : IsSpecifier found.specifier)
    (whole : textOf tokens = gap ++ (found.quoted ++ s)) :
    ∃ front after, tokens = front ++ .literal found.quote found.specifier :: after ∧ AreBlanks front ∧
      s = textOf after := by
  obtain ⟨front, after, rfl, blanks, -, rest⟩ := lexed.exists_blanks whole blank (isBlank_of_isQuote opens)
  obtain ⟨after, rfl, rfl⟩ := lexed.of_append.exists_literal opens specifier rest
  exact ⟨front, after, rfl, blanks, rfl⟩

/-- A name ends where its token does. -/
theorem IsLexed.stops {name : List Char} {rest : List Token} (lexed : IsLexed (.word name :: rest)) :
    Stops isNameChar (textOf rest) := by
  cases rest with
  | nil => exact stops_nil _
  | cons t rest =>
    have valid : t.Valid := lexed.1 t (.tail _ (.head _))
    have meets : Stops isNameChar t.text := (List.isChain_cons_cons.1 lexed.2).1
    obtain ⟨c, s, head⟩ := List.exists_cons_of_ne_nil valid.text_ne_nil
    rw [head] at meets
    rw [textOf_cons, head]
    exact meets

/-- A keyword at the front of a text and at most blanks and a bracket behind it, up to a quoted specifier, are tokens
that introduce a literal token. -/
theorem IsLexed.exists_introduces {name : List Char} {rest : List Token} (lexed : IsLexed (.word name :: rest))
    {lead : List Char} (leads : IsLead lead) {found : Mention} (opens : IsQuote found.quote)
    (specifier : IsSpecifier found.specifier) (whole : textOf (.word name :: rest) = lead ++ (found.quoted ++ s)) :
    ∃ tokens after, .word name :: rest = tokens ++ .literal found.quote found.specifier :: after ∧ Introduces tokens ∧
      s = textOf after := by
  have valid : (Token.word name).Valid := lexed.1 _ (.head _)
  have later : IsLexed rest := lexed.tail
  -- what is behind the keyword does not go on its name
  have stop {gap rest : List Char} {c : Char} (blank : gap.all isBlank = true) (other : isNameChar c = false) :
      Stops isNameChar (gap ++ c :: rest) := by
    cases gap with
    | nil => exact stops_cons.2 other
    | cons d gap => exact stops_cons.2 (isNameChar_of_isBlank (List.all_eq_true.1 blank d (.head _)))
  rw [textOf_cons] at whole
  cases leads with
  | @bare keyword gap known blank =>
    rw [List.append_assoc] at whole
    obtain ⟨rfl, between⟩ := span_inj whole valid.2 (isNameChar_of_keyword (.inl known)) lexed.stops
      (stop blank (isNameChar_of_isQuote opens))
    obtain ⟨front, after, rfl, blanks, rfl⟩ := later.exists_blanks_literal blank opens specifier between
    exact ⟨.word keyword.toList :: front, after, rfl, .bare known blanks, rfl⟩
  | @call keyword gap inner known blank blank' =>
    rw [List.append_assoc, List.append_assoc, List.cons_append] at whole
    obtain ⟨rfl, between⟩ := span_inj whole valid.2 (isNameChar_of_keyword (.inr known)) lexed.stops
      (stop blank (by decide))
    obtain ⟨front, after, rfl, blanks, -, rest⟩ := later.exists_blanks between blank (by decide)
    obtain ⟨t, after, s', rfl, valid', head, rest⟩ := later.of_append.exists_head rest
    obtain rfl := valid'.eq_bracket head
    obtain ⟨-, rfl⟩ := List.cons.inj head
    obtain ⟨front', after, rfl, blanks', rfl⟩ :=
      later.of_append.tail.exists_blanks_literal blank' opens specifier rest.symm
    exact ⟨.word keyword.toList :: (front ++ .mark '(' :: front'), after, by simp, .call known blanks blanks', rfl⟩

end reading

/-- The search for mentions answers at a word exactly if the word introduces a literal and no dot stands in front. -/
theorem mention_tokens_iff {front rest : List Token} {name : List Char} (lexed : IsLexed (front ++ .word name :: rest))
    {found : Mention} {behind : List Char} :
    mention (charBefore none (textOf front)) (textOf (.word name :: rest)) = some (found, behind) ↔
      front.getLast? ≠ some (.mark '.') ∧ ∃ lead after,
        .word name :: rest = lead ++ .literal found.quote found.specifier :: after ∧ Introduces lead ∧
        found.specifier ≠ [] ∧ behind = textOf after := by
  rw [mention_eq_some_iff, ne_eq, ← lexed.goesOn_iff, Bool.not_eq_true]
  constructor
  · rintro ⟨start, opens, specifier, lead, leads, whole⟩
    obtain ⟨tokens, after, split, introduces, rfl⟩ := lexed.of_append.exists_introduces leads opens specifier whole
    exact ⟨start, tokens, after, split, introduces, specifier.1, rfl⟩
  · rintro ⟨start, lead, after, split, introduces, filled, rfl⟩
    rw [split] at lexed ⊢
    have literal : (Token.literal found.quote found.specifier).Valid := lexed.of_append.valid
    have leads := introduces.isLead fun t mem => lexed.1 t (by simp [mem])
    exact ⟨start, literal.1, ⟨filled, literal.2.1⟩, textOf lead, leads, by simp [Token.text]⟩

/-- The search answers at no token but a word. -/
theorem mention_eq_none_of_token {t : Token} (valid : t.Valid) (other : ∀ name, t ≠ .word name) (before : Option Char)
    (behind : List Char) : mention before (t.text ++ behind) = none := by
  rw [mention_eq_none_iff]
  intro found rest mentioned
  obtain ⟨-, -, -, lead, leads, whole⟩ := mention_eq_some_iff.1 mentioned
  obtain ⟨keyword, gap, rfl, filled, name, -⟩ := leads.exists_keyword
  obtain ⟨c, s, head⟩ := List.exists_cons_of_ne_nil valid.text_ne_nil
  obtain ⟨d, keyword, rfl⟩ := List.exists_cons_of_ne_nil filled
  rw [head] at whole
  obtain ⟨rfl, -⟩ := List.cons.inj whole
  obtain ⟨name, rfl⟩ := valid.exists_word head (List.all_eq_true.1 name c (.head _))
  exact other name rfl

/-! ## Places -/

/-- Each place in a text lies in one of its tokens. -/
theorem exists_token {tokens : List Token} {u v : List Char} (whole : textOf tokens = u ++ v) (filled : v ≠ []) :
    ∃ before t after u' v', tokens = before ++ t :: after ∧ u = textOf before ++ u' ∧ t.text = u' ++ v' ∧ v' ≠ [] ∧
      v = v' ++ textOf after := by
  induction tokens generalizing u with
  | nil =>
    rw [textOf_nil, List.nil_eq, List.append_eq_nil_iff] at whole
    exact absurd whole.2 filled
  | cons t tokens ih =>
    rw [textOf_cons] at whole
    obtain ⟨c, v, rfl⟩ := List.exists_cons_of_ne_nil filled
    rcases append_eq_append_cons whole with ⟨w, here, rfl⟩ | ⟨w, rfl, later⟩
    · exact ⟨[], t, tokens, u, c :: w, rfl, rfl, here, List.cons_ne_nil _ _, rfl⟩
    · obtain ⟨before, t', after, u', v', rfl, rfl, split, more, rest⟩ := ih later
      exact ⟨t :: before, t', after, u', v', rfl, by simp, split, more, rest⟩

/-- A token at a place within a stretch of tokens is one of them. -/
theorem exists_within {front stretch rest before after : List Token} {t : Token} {place : Nat}
    (same : front ++ (stretch ++ rest) = before ++ t :: after) (low : (textOf before).length ≤ place)
    (high : place < (textOf before).length + t.text.length) (low' : (textOf front).length ≤ place)
    (high' : place < (textOf front).length + (textOf stretch).length) :
    ∃ a b, stretch = a ++ t :: b ∧ before = front ++ a ∧ after = b ++ rest := by
  rcases append_eq_append_cons same with ⟨w, rfl, -⟩ | ⟨w, rfl, later⟩
  · simp only [textOf_append, textOf_cons, List.length_append] at low'
    omega
  · rcases append_eq_append_cons later with ⟨b, rfl, rfl⟩ | ⟨a, rfl, -⟩
    · exact ⟨w, b, rfl, rfl, rfl⟩
    · simp only [textOf_append, List.length_append] at low
      omega

end WasmPackaging.Bundling
