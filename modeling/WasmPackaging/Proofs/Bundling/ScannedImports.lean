import WasmPackaging.Proofs.Bundling.ModuleTokens

/-!
Which imports the search for mentions finds in a module. It knows no comment and no quoted text, so a keyword within
one of them may be taken for an import, and the import that follows is then lost (`specifiers_hide_require`). It finds
exactly the imports of a module if no keyword within a comment or a text that is not imported introduces a specifier,
and not otherwise (`finds_imports_iff`).
-/

namespace WasmPackaging.Bundling

open Text

/-- The tokens at the end of others introduce a literal, and no dot stands in front of them. -/
def IsIntroduced (before : List Token) : Prop :=
  ∃ front lead, before = front ++ lead ∧ Introduces lead ∧ front.getLast? ≠ some (.mark '.')

/-- Among some tokens, a keyword at a place introduces a literal that is not empty. -/
def Imports (tokens : List Token) (start : Nat) (found : Mention) (covered : List Char) : Prop :=
  ∃ front lead after, tokens = front ++ (lead ++ .literal found.quote found.specifier :: after) ∧ Introduces lead ∧
    front.getLast? ≠ some (.mark '.') ∧ found.specifier ≠ [] ∧ start = (textOf front).length ∧
    covered = textOf lead ++ found.quoted

/-- Within a token starts a keyword that introduces a specifier, in the token or behind it. -/
def Token.Misleads (t : Token) (behind : List Char) : Prop :=
  ∃ u v, u ≠ [] ∧ v ≠ [] ∧ t.text = u ++ v ∧ goesOn u.getLast? = false ∧ ∃ lead found rest, IsLead lead ∧
    IsQuote found.quote ∧ IsSpecifier found.specifier ∧ v ++ behind = lead ++ (Mention.quoted found ++ rest)

/-- No keyword within a token introduces a specifier, but for a text that is imported itself. -/
def Quiet (tokens : List Token) : Prop :=
  ∀ before t after, tokens = before ++ t :: after → t.Misleads (textOf after) →
    ∃ quote body, t = .literal quote body ∧ body ≠ [] ∧ IsIntroduced before

/-! ## Within a token -/

theorem misleads_of_mention {t : Token} {u v behind rest : List Char} {before : Option Char} {found : Mention}
    (split : t.text = u ++ v) (inside : u ≠ []) (filled : v ≠ [])
    (mentioned : mention (charBefore before u) (v ++ behind) = some (found, rest)) : t.Misleads behind := by
  obtain ⟨start, opens, specifier, lead, leads, whole⟩ := mention_eq_some_iff.1 mentioned
  rw [charBefore_eq_getLast? inside] at start
  exact ⟨u, v, inside, filled, split, start, lead, found, rest, leads, opens, specifier, whole⟩

/-- Only a comment and a quoted text mislead. -/
theorem Token.Misleads.kind {t : Token} {behind : List Char} (misleads : t.Misleads behind) (valid : t.Valid) :
    (∃ body, t = .comment body) ∨ ∃ quote body, t = .literal quote body := by
  obtain ⟨u, v, inside, filled, split, start, lead, found, rest, leads, -, -, whole⟩ := misleads
  obtain ⟨keyword, gap, rfl, more, name, -⟩ := leads.exists_keyword
  obtain ⟨c, v, rfl⟩ := List.exists_cons_of_ne_nil filled
  obtain ⟨d, keyword, rfl⟩ := List.exists_cons_of_ne_nil more
  obtain ⟨rfl, -⟩ := List.cons.inj whole
  have starts : isNameChar c = true := List.all_eq_true.1 name c (.head _)
  cases t with
  | word name =>
    obtain rfl : name = u ++ c :: v := split
    have last : isNameChar (u.getLast inside) = true :=
      List.all_eq_true.1 valid.2 _ (List.mem_append_left _ (List.getLast_mem inside))
    rw [List.getLast?_eq_some_getLast inside] at start
    simp [goesOn, last] at start
  | blanks gap =>
    obtain rfl : gap = u ++ c :: v := split
    have blank := List.all_eq_true.1 valid.2 c (by simp)
    rw [isBlank_of_isNameChar starts] at blank
    cases blank
  | mark d =>
    obtain ⟨e, u, rfl⟩ := List.exists_cons_of_ne_nil inside
    obtain ⟨-, short⟩ := List.cons.inj split
    simp at short
  | comment body => exact .inl ⟨body, rfl⟩
  | literal quote body => exact .inr ⟨quote, body, rfl⟩

/-- No token misleads that stands between a keyword and its literal. -/
theorem Token.Misleads.not_mem_lead {t : Token} {behind : List Char} (misleads : t.Misleads behind) (valid : t.Valid)
    {lead : List Token} (introduces : Introduces lead) : t ∉ lead := by
  intro mem
  obtain ⟨name, rest, rfl, between⟩ := introduces.exists_word
  rcases misleads.kind valid with ⟨body, rfl⟩ | ⟨quote, body, rfl⟩
  all_goals
    rcases List.mem_cons.1 mem with word | later
    · cases word
    · rcases between _ later with ⟨gap, blank⟩ | bracket
      · cases blank
      · cases bracket

/-! ## Imports and finds -/

section places

variable {tokens : List Token} {start start' : Nat} {found found' : Mention} {covered covered' : List Char}

/-- The search answers where an import starts. -/
theorem Imports.exists_mention (lexed : IsLexed tokens) (imports : Imports tokens start found covered) :
    ∃ u v, textOf tokens = u ++ (covered ++ v) ∧ start = u.length ∧ covered ≠ [] ∧
      mention (charBefore none u) (covered ++ v) = some (found, v) := by
  obtain ⟨front, lead, after, rfl, introduces, start, filled, rfl, rfl⟩ := imports
  obtain ⟨name, rest, rfl, -⟩ := introduces.exists_word
  refine ⟨textOf front, textOf after, by simp [Token.text], rfl, by simp [Mention.quoted], ?_⟩
  have answer := (mention_tokens_iff lexed).2 ⟨start, _, after, rfl, introduces, filled, rfl⟩
  simpa [Token.text] using answer

/-- Where the search answers, an import starts, or a token misleads. -/
theorem imports_or_misleads (lexed : IsLexed tokens) {u v : List Char} (whole : textOf tokens = u ++ (covered ++ v))
    (filled : covered ≠ []) (mentioned : mention (charBefore none u) (covered ++ v) = some (found, v)) :
    Imports tokens u.length found covered ∨ ∃ before t after, tokens = before ++ t :: after ∧
      (textOf before).length < u.length ∧ u.length < (textOf before).length + t.text.length ∧ t.Misleads (textOf after) := by
  obtain ⟨before, t, after, u', v', rfl, rfl, split, more, rest⟩ := exists_token whole (by simp [filled])
  rw [rest] at mentioned
  by_cases inside : u' = []
  · subst inside
    rw [List.append_nil] at mentioned ⊢
    rw [List.nil_append] at split
    rw [← split] at mentioned rest
    by_cases word : ∃ name, t = .word name
    · obtain ⟨name, rfl⟩ := word
      rw [← textOf_cons] at mentioned rest
      obtain ⟨start, lead, later, same, introduces, nonempty, rfl⟩ := (mention_tokens_iff lexed).1 mentioned
      left
      refine ⟨before, lead, later, by rw [same], introduces, start, nonempty, rfl, ?_⟩
      rw [same, textOf_append, textOf_cons, ← List.append_assoc] at rest
      exact List.append_cancel_right rest
    · rw [mention_eq_none_of_token lexed.valid (fun name same => word ⟨name, same⟩)] at mentioned
      cases mentioned
  · right
    rw [charBefore_append] at mentioned
    refine ⟨before, t, after, rfl, ?_, ?_, misleads_of_mention split inside more mentioned⟩
    · rw [List.length_append]
      exact Nat.lt_add_of_pos_right (List.length_pos_iff.2 inside)
    · rw [split, List.length_append, List.length_append, ← Nat.add_assoc]
      exact Nat.lt_add_of_pos_right (List.length_pos_iff.2 more)

/-- No two imports start at one place. -/
theorem Imports.eq_of_start (lexed : IsLexed tokens) (imports : Imports tokens start found covered)
    (others : Imports tokens start found' covered') : found' = found ∧ covered' = covered := by
  obtain ⟨u, v, whole, begins, -, mentioned⟩ := imports.exists_mention lexed
  obtain ⟨u', v', whole', begins', -, mentioned'⟩ := others.exists_mention lexed
  obtain ⟨rfl, rest⟩ := List.append_inj (whole.symm.trans whole') (begins.symm.trans begins')
  rw [rest, mentioned'] at mentioned
  obtain ⟨same, rfl⟩ := Prod.mk.inj (Option.some.inj mentioned)
  exact ⟨same, (List.append_cancel_right rest).symm⟩

/-- A token at a place that an import covers is one of its tokens. -/
theorem Imports.exists_token (imports : Imports tokens start found covered) {before after : List Token} {t : Token}
    {place : Nat} (whole : tokens = before ++ t :: after) (low : (textOf before).length ≤ place)
    (high : place < (textOf before).length + t.text.length) (low' : start ≤ place) (high' : place < start + covered.length) :
    (∃ front lead a b, lead = a ++ t :: b ∧ before = front ++ a ∧ Introduces lead ∧ start = (textOf front).length) ∨
      t = .literal found.quote found.specifier ∧ found.specifier ≠ [] ∧ IsIntroduced before := by
  obtain ⟨front, lead, later, rfl, introduces, begins, filled, rfl, rfl⟩ := imports
  have covers : textOf (lead ++ [.literal found.quote found.specifier]) = textOf lead ++ found.quoted := by
    simp [Token.text]
  rw [← covers] at high'
  rw [← List.singleton_append, ← List.append_assoc lead] at whole
  obtain ⟨a, b, split, rfl, rfl⟩ := exists_within whole low high low' high'
  rcases append_eq_append_cons split with ⟨b', rfl, -⟩ | ⟨w, rfl, last⟩
  · exact .inl ⟨front, _, a, b', rfl, rfl, introduces, rfl⟩
  · right
    cases w with
    | nil =>
      obtain ⟨rfl, -⟩ := List.cons.inj last
      exact ⟨rfl, filled, front, lead, by rw [List.append_nil], introduces, begins⟩
    | cons c w => simp at last

/-- No import starts within another. -/
theorem Imports.start_eq_of_within (lexed : IsLexed tokens) (imports : Imports tokens start found covered)
    (others : Imports tokens start' found' covered') (low : start' ≤ start) (high : start < start' + covered'.length) :
    start' = start := by
  obtain ⟨front, lead, after, whole, introduces, -, -, rfl, -⟩ := imports
  obtain ⟨name, rest, rfl, -⟩ := introduces.exists_word
  have word : (Token.word name).Valid := lexed.1 _ (by simp [whole])
  have positive : 0 < (Token.word name).text.length := List.length_pos_iff.2 word.1
  rcases others.exists_token whole le_rfl (by omega) low high with
    ⟨front', lead', a, b, split, rfl, introduces', rfl⟩ | ⟨literal, -⟩
  · -- the only word of the other import is its first token
    obtain ⟨name', rest', rfl, between⟩ := introduces'.exists_word
    cases a with
    | nil => rw [List.append_nil]
    | cons t a =>
      obtain ⟨-, rfl⟩ := List.cons.inj split
      rcases between (.word name) (by simp) with ⟨gap, blank⟩ | bracket
      · cases blank
      · cases bracket
  · cases literal

/-- Where an import starts, a find starts, or an earlier one covers the place. -/
theorem Imports.exists_located (lexed : IsLexed tokens) (imports : Imports tokens start found covered) :
    ∃ start' found' covered', (start', found', covered') ∈ locateIn mention (textOf tokens) ∧ start' ≤ start ∧
      start < start' + covered'.length := by
  obtain ⟨u, v, whole, rfl, filled, mentioned⟩ := imports.exists_mention lexed
  have located := Text.exists_located cuts_mention (by simp [filled]) mentioned 0
  rwa [← whole, Nat.zero_add] at located

/-- In a quiet text, everything that the search finds is an import. -/
theorem Quiet.imports (lexed : IsLexed tokens) (quiet : Quiet tokens)
    (mem : (start, found, covered) ∈ locateIn mention (textOf tokens)) : Imports tokens start found covered := by
  induction start using Nat.strongRecOn generalizing found covered with
  | _ start ih =>
    obtain ⟨u, v, whole, begins, filled, mentioned⟩ := exists_of_mem_locate cuts_mention mem
    rw [Nat.zero_add] at begins
    subst begins
    rcases imports_or_misleads lexed whole filled mentioned with imports | ⟨before, t, after, split, low, high, misleads⟩
    · exact imports
    · -- the token is imported itself, so the search found it from the keyword in front of it
      exfalso
      obtain ⟨quote, body, rfl, nonempty, front, lead, rfl, introduces, begins⟩ := quiet before t after split misleads
      have imports : Imports tokens (textOf front).length ⟨quote, body⟩ (textOf lead ++ (Mention.mk quote body).quoted) :=
        ⟨front, lead, after, by rw [split, List.append_assoc], introduces, begins, nonempty, rfl, rfl⟩
      obtain ⟨start', found', covered', mem', low', high'⟩ := imports.exists_located lexed
      rw [textOf_append, List.length_append] at low high
      have earlier : start' + covered'.length ≤ u.length :=
        ends_before_of_mem_locate cuts_mention mem' mem (by omega)
      have others := ih start' (by omega) mem'
      obtain rfl := imports.start_eq_of_within lexed others low' high'
      obtain ⟨-, rfl⟩ := imports.eq_of_start lexed others
      rw [List.length_append] at earlier
      rw [show (Token.literal quote body).text = (Mention.mk quote body).quoted from rfl] at high
      omega

/-- In a quiet text, the search finds every import. -/
theorem Quiet.located (lexed : IsLexed tokens) (quiet : Quiet tokens) (imports : Imports tokens start found covered) :
    (start, found, covered) ∈ locateIn mention (textOf tokens) := by
  obtain ⟨start', found', covered', mem, low, high⟩ := imports.exists_located lexed
  have others := quiet.imports lexed mem
  obtain rfl := imports.start_eq_of_within lexed others low high
  obtain ⟨rfl, rfl⟩ := imports.eq_of_start lexed others
  exact mem

/-- A text in which the search finds nothing but imports is quiet. -/
theorem quiet_of_imports (lexed : IsLexed tokens) (all : ∀ start found covered,
    (start, found, covered) ∈ locateIn mention (textOf tokens) → Imports tokens start found covered) : Quiet tokens := by
  intro before t after split misleads
  have valid : t.Valid := lexed.1 t (by simp [split])
  obtain ⟨u, v, inside, filled, parts, start, lead, found, rest, leads, opens, specifier, whole⟩ := id misleads
  rw [← charBefore_eq_getLast? inside (charBefore none (textOf before)), ← charBefore_append] at start
  have mentioned : mention (charBefore none (textOf before ++ u)) (v ++ textOf after) = some (found, rest) :=
    mention_eq_some_iff.2 ⟨start, opens, specifier, lead, leads, whole⟩
  obtain ⟨start', found', covered', mem, low, high⟩ := Text.exists_located cuts_mention (by simp [filled]) mentioned 0
  have same : textOf before ++ u ++ (v ++ textOf after) = textOf tokens := by simp [split, parts]
  rw [same] at mem
  rw [Nat.zero_add, List.length_append] at low high
  have more := List.length_pos_iff.2 filled
  have size := congrArg List.length parts
  rw [List.length_append] at size
  rcases (all _ _ _ mem).exists_token split (by omega) (by omega) low high with
    ⟨front, lead, a, b, rfl, -, introduces, -⟩ | imported
  · exact absurd (List.mem_append_right a (.head b)) (misleads.not_mem_lead valid introduces)
  · exact ⟨_, _, imported.1, imported.2⟩

end places

/-- The specifiers of a module are those of the finds, which stand one behind the other, and the finds are its imports
exactly if the module is quiet. -/
theorem finds_imports_iff {tokens : List Token} (lexed : IsLexed tokens) :
    specifiers (textOf tokens) =
        (locateIn mention (textOf tokens)).map (fun found => String.ofList found.2.1.specifier) ∧
      (locateIn mention (textOf tokens)).Pairwise (fun found next => found.1 + found.2.2.length ≤ next.1) ∧
      ((∀ start found covered, (start, found, covered) ∈ locateIn mention (textOf tokens) ↔
        Imports tokens start found covered) ↔ Quiet tokens) := by
  refine ⟨?_, pairwise_locate cuts_mention none _ 0, ?_, ?_⟩
  · rw [specifiers, finds, ← map_locate 0, List.map_map]
    rfl
  · intro all
    exact quiet_of_imports lexed fun start found covered => (all start found covered).1
  · intro quiet start found covered
    exact ⟨quiet.imports lexed, quiet.located lexed⟩

theorem introduces_require : Introduces [.word "require".toList, .mark '('] := by
  have none : AreBlanks [] := List.forall_mem_nil _
  exact .call (by simp [callKeywords]) none none

/-- A module in which a quoted text ends with a keyword. -/
def hidingTokens : List Token :=
  [.word "log".toList, .mark '(', .literal '"' "from ".toList, .blanks [' '], .mark '+', .blanks [' '], .word "require".toList,
    .mark '(', .literal '"' "./b".toList, .mark ')', .mark ')', .mark ';', .blanks ['\n']]

/-- A module with a comment that quotes a path. -/
def commentedTokens : List Token :=
  [.comment " from './a'".toList, .blanks ['\n'], .word "x".toList, .mark ';', .blanks ['\n']]

theorem specifiers_hide_require :
    (IsLexed hidingTokens ∧ textOf hidingTokens = "log(\"from \" + require(\"./b\"));\n".toList ∧
      Imports hidingTokens 14 ⟨'"', "./b".toList⟩ "require(\"./b\"".toList ∧
      specifiers (textOf hidingTokens) = [" + require("]) ∧
    IsLexed commentedTokens ∧ textOf commentedTokens = "// from './a'\nx;\n".toList ∧
      (∀ start found covered, ¬ Imports commentedTokens start found covered) ∧
      specifiers (textOf commentedTokens) = ["./a"] := by
  refine ⟨⟨by decide, rfl, ?_, by decide +kernel⟩, by decide, rfl, ?_, by decide +kernel⟩
  · refine ⟨hidingTokens.take 6, [.word "require".toList, .mark '('], hidingTokens.drop 9, rfl, ?_, by simp [hidingTokens],
      by simp, rfl, rfl⟩
    exact introduces_require
  · rintro start found covered ⟨front, lead, after, whole, -⟩
    have mem : Token.literal found.quote found.specifier ∈ commentedTokens := by simp [whole]
    simp [commentedTokens] at mem

/-- A module that requires another. -/
def requiringTokens : List Token :=
  [.word "require".toList, .mark '(', .literal '"' "./b".toList, .mark ')', .mark ';', .blanks ['\n']]

theorem finds_imports_requiring :
    IsLexed requiringTokens ∧ Quiet requiringTokens ∧
      (0, ⟨'"', "./b".toList⟩, "require(\"./b\"".toList) ∈ locateIn mention (textOf requiringTokens) := by
  have lexed : IsLexed requiringTokens := by decide
  have quiet : Quiet requiringTokens := by
    intro before t after split misleads
    have valid : t.Valid := lexed.1 t (by simp [split])
    have mem : t ∈ requiringTokens := by simp [split]
    rcases misleads.kind valid with ⟨body, rfl⟩ | ⟨quote, body, rfl⟩
    · simp [requiringTokens] at mem
    · obtain ⟨rfl, rfl⟩ : quote = '"' ∧ body = "./b".toList := by simpa [requiringTokens] using mem
      refine ⟨_, _, rfl, by simp, [], before, rfl, ?_, by simp⟩
      -- the literal is the third token
      simp only [requiringTokens] at split
      rcases before with _ | ⟨first, _ | ⟨second, _ | ⟨third, rest⟩⟩⟩
      · simp at split
      · simp at split
      · simp only [List.cons_append, List.nil_append, List.cons.injEq] at split
        obtain ⟨rfl, rfl, -⟩ := split
        exact introduces_require
      · simp only [List.cons_append, List.cons.injEq] at split
        have later : Token.literal '"' "./b".toList ∈ [Token.mark ')', .mark ';', .blanks ['\n']] := by simp [split.2.2.2]
        simp at later
  refine ⟨lexed, quiet, (((finds_imports_iff lexed).2.2.2 quiet) _ _ _).2 ?_⟩
  exact ⟨[], _, _, rfl, introduces_require, by simp, by simp, rfl, rfl⟩

end WasmPackaging.Bundling
