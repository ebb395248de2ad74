import WasmPackaging.Proofs.Outcome
import WasmPackaging.Text.Template

/-!
Which templates stand for themselves. A backslash before an ASCII letter, a digit or another backslash
means something else, and one at the end means nothing; before any other character it stays. Main fact: a
template without such backslashes is read, and what is read stands for the template (`exists_of_isLiteral`);
what is read of any other stands for another text (`expand_eq_self_iff`), as long as the groups hold neither
backslash nor digit.
-/

namespace WasmPackaging.Text.Template

/-- Whether a backslash leaves the character behind it, and itself, as they are. -/
def isInert (c : Char) : Bool := !(isAsciiLetter c || c.isDigit || c == '\\')

/-- Whether every backslash of a text leaves the character behind it as it is. -/
def isLiteral : List Char → Bool
  | [] => true
  | c :: rest => (c != '\\' || rest.head?.any isInert) && isLiteral rest

/-- A text without backslashes is literal. -/
theorem isLiteral_of_not_mem {s : List Char} (plain : '\\' ∉ s) : isLiteral s = true := by
  induction s with
  | nil => rfl
  | cons c s ih =>
    simp only [List.mem_cons, not_or] at plain
    simp [isLiteral, ih plain.2, Ne.symm plain.1]

/-- Whether a token stands for its own text. -/
def Token.isLiteral : Token → Bool
  | .plain _ => true
  | .escaped c => isInert c

/-- The text of some tokens. -/
def textOf (tokens : List (Nat × Token)) : List Char := tokens.flatMap fun token => token.2.text

@[simp] theorem textOf_nil : textOf [] = [] := rfl

@[simp] theorem textOf_cons (token : Nat × Token) (rest : List (Nat × Token)) :
    textOf (token :: rest) = token.2.text ++ textOf rest := rfl

/-- The tokens of a text cover it, but for a lone backslash at its end. -/
theorem textOf_tokens (offset : Nat) (s : List Char) :
    textOf (tokens offset s).1 ++ (if (tokens offset s).2 then ['\\'] else []) = s := by
  fun_induction tokens offset s with
  | case1 => rfl
  | case2 => rfl
  | case3 offset c rest more dangling same ih => simpa [same, Token.text] using ih
  | case4 offset c rest _ _ more dangling same ih => simpa [same, Token.text] using ih

theorem isLiteral_iff_tokens (offset : Nat) (s : List Char) :
    isLiteral s = true ↔ (tokens offset s).2 = false ∧ ∀ token ∈ (tokens offset s).1, token.2.isLiteral = true := by
  fun_induction tokens offset s with
  | case1 => simp [isLiteral]
  | case2 => simp [isLiteral]
  | case3 offset c rest more dangling same ih =>
    rw [same] at ih
    have other : isInert c = true → c ≠ '\\' := by
      rintro inert rfl
      exact absurd inert (by decide)
    by_cases inert : isInert c = true
    · simp [isLiteral, Token.isLiteral, inert, other inert, ih]
    · simp [isLiteral, Token.isLiteral, inert]
  | case4 offset c rest lone escape more dangling same ih =>
    rw [same] at ih
    have plain : c ≠ '\\' := by
      rintro rfl
      cases rest with
      | nil => exact lone rfl rfl
      | cons d rest => exact escape d rest rfl rfl
    simp [isLiteral, Token.isLiteral, plain, ih]

/-! ## Templates that stand for themselves -/

section Source

variable {source : Source} {token : Token} {rest : List (Nat × Token)}

theorem ahead_of_whole (whole : source.dangling = false) : source.ahead rest = .ok () := by
  simp [Source.ahead, whole]

theorem controlOf?_eq_none {c : Char} (inert : isInert c = true) : controlOf? c = none := by
  unfold controlOf?
  split <;> first | rfl | exact absurd inert (by decide)

theorem part_plain (c : Char) : source.part (.plain c) rest = (source.ahead rest).map fun _ => (.literal [c], rest) := by
  unfold Source.part
  cases source.ahead rest <;> rfl

/-- Behind any character but the one that refers to a group, a backslash needs no more than digits. -/
theorem part_escaped {c : Char} (other : c ≠ 'g') :
    source.part (.escaped c) rest = (do
      source.ahead rest
      if c.isDigit then source.digits c rest
      else match controlOf? c with
        | some control => return (.literal [control], rest)
        | none => if isAsciiLetter c then source.fail (.badEscape c) rest 2 else return (.literal ['\\', c], rest)) := by
  unfold Source.part
  congr
  funext _
  split
  · next same => cases same
  · next same => exact absurd (Token.escaped.inj same) other
  · next same =>
    obtain rfl := Token.escaped.inj same
    rfl

/-- A token that stands for its text is read as that. -/
theorem part_of_isLiteral (literal : token.isLiteral = true) :
    source.part token rest = (source.ahead rest).map fun _ => (.literal token.text, rest) := by
  cases token with
  | plain c => exact part_plain c
  | escaped c =>
    have inert : isInert c = true := literal
    have other : c ≠ 'g' := by
      rintro rfl
      exact absurd inert (by decide)
    obtain ⟨⟨letter, digit⟩, -⟩ : (isAsciiLetter c = false ∧ c.isDigit = false) ∧ c ≠ '\\' := by
      simpa [isInert] using inert
    rw [part_escaped other, digit, letter, controlOf?_eq_none inert]
    cases source.ahead rest <;> rfl

theorem parts_of_isLiteral (whole : source.dangling = false) {fuel : Nat} {list : List (Nat × Token)}
    (literal : ∀ token ∈ list, token.2.isLiteral = true) (enough : list.length ≤ fuel) :
    source.parts fuel list = .ok (list.map fun token => .literal token.2.text) := by
  induction list generalizing fuel with
  | nil => cases fuel <;> rfl
  | cons token rest ih =>
    obtain ⟨here, later⟩ := List.forall_mem_cons.1 literal
    cases fuel with
    | zero => simp at enough
    | succ fuel =>
      have more := ih later (Nat.le_of_succ_le_succ enough)
      simp [Source.parts, part_of_isLiteral here, ahead_of_whole whole, more, bind, Except.bind, Except.map, pure, Except.pure]

end Source

/-- A template whose backslashes leave what is behind them stands for itself, whatever the groups are. -/
theorem exists_of_isLiteral (groups : Groups) {template : String} (literal : isLiteral template.toList = true) :
    ∃ parts, read groups template = .ok parts ∧ ∀ group, expand parts group = template.toList := by
  unfold read
  by_cases escapes : template.toList.contains '\\' = true
  · obtain ⟨whole, all⟩ := (isLiteral_iff_tokens 0 template.toList).1 literal
    have text := textOf_tokens 0 template.toList
    generalize cut : tokens 0 template.toList = result at whole all text
    obtain ⟨list, dangling⟩ := result
    obtain rfl : dangling = false := whole
    refine ⟨list.map fun token => .literal token.2.text, ?_, fun group => ?_⟩
    · rw [if_pos escapes]
      simp only [cut]
      rw [ahead_of_whole rfl]
      exact parts_of_isLiteral rfl all (Nat.le_refl _)
    · rw [expand, List.flatMap_map]
      simpa [textOf] using text
  · rw [if_neg escapes]
    exact ⟨_, rfl, fun group => by simp [expand]⟩

/-! ## Other templates -/

/-- A backslash or a digit. What stands for something else is shorter in these. -/
def isMark (c : Char) : Bool := c == '\\' || c.isDigit

/-- How many marks a text holds. -/
def marks (s : List Char) : Nat := s.countP isMark

@[simp] theorem marks_nil : marks [] = 0 := rfl

@[simp] theorem marks_append (s t : List Char) : marks (s ++ t) = marks s + marks t := List.countP_append

theorem marks_singleton_le (c : Char) : marks [c] ≤ 1 := List.countP_le_length

/-- The text of a part, given the text of each group. -/
def Part.text (group : Nat → List Char) : Part → List Char
  | .literal text => text
  | .group number => group number

theorem expand_cons (part : Part) (parts : List Part) (group : Nat → List Char) :
    expand (part :: parts) group = part.text group ++ expand parts group := by
  cases part <;> rfl

section Reading

variable {source : Source} {token : Token} {rest rest' : List (Nat × Token)} {part : Part} {group : Nat → List Char}

theorem suffix_of_nextDigit? {test : Char → Bool} {c : Char} (next : nextDigit? test rest = some (c, rest')) :
    rest' <:+ rest := by
  unfold nextDigit? at next
  split at next
  · split at next
    · obtain ⟨-, rfl⟩ := Prod.mk.inj (Option.some.inj next)
      exact List.suffix_cons _ _
    · cases next
  · cases next

theorem suffix_of_name {sofar name : List Char} (named : source.name sofar rest = .ok (name, rest')) : rest' <:+ rest := by
  induction rest generalizing sofar with
  | nil =>
    unfold Source.name Source.fail at named
    split at named <;> cases named
  | cons head rest ih =>
    unfold Source.name at named
    split at named
    · next empty => cases empty
    · next same =>
      obtain ⟨-, rfl⟩ := List.cons.inj same
      obtain ⟨-, -, named⟩ := bind_eq_ok_iff.1 named
      split at named
      · cases named
      · obtain ⟨-, rfl⟩ := Prod.mk.inj (Except.ok.inj named)
        exact List.suffix_cons _ _
    · next same =>
      obtain ⟨-, rfl⟩ := List.cons.inj same
      obtain ⟨-, -, named⟩ := bind_eq_ok_iff.1 named
      exact (ih named).trans (List.suffix_cons _ _)

/-- What digits behind a backslash stand for has at most one mark. -/
theorem marks_of_digits (unmarked : ∀ number, marks (group number) = 0) {c : Char}
    (read : source.digits c rest = .ok (part, rest')) : rest' <:+ rest ∧ marks (part.text group) ≤ 1 := by
  have octal {digits : List Char} {more : List (Nat × Token)} (inside : more <:+ rest)
      (same : (Part.literal [Char.ofNat (octalValue digits % 256)], more) = (part, rest')) :
      rest' <:+ rest ∧ marks (part.text group) ≤ 1 := by
    obtain ⟨rfl, rfl⟩ := Prod.mk.inj same
    exact ⟨inside, marks_singleton_le _⟩
  have referred {digits : List Char} {more : List (Nat × Token)} (inside : more <:+ rest)
      (same : (if decimalValue digits ≤ source.groups.last then .ok (Part.group (decimalValue digits), more)
        else source.fail (.noReference (decimalValue digits)) more digits.length) = Except.ok (part, rest')) :
      rest' <:+ rest ∧ marks (part.text group) ≤ 1 := by
    split at same
    · obtain ⟨rfl, rfl⟩ := Prod.mk.inj (Except.ok.inj same)
      exact ⟨inside, by simp [Part.text, unmarked]⟩
    · cases same
  unfold Source.digits at read
  simp only at read
  split at read
  · split at read
    · exact octal (List.suffix_refl _) (Except.ok.inj read)
    · next next₂ =>
      have inside := suffix_of_nextDigit? next₂
      obtain ⟨-, -, read⟩ := bind_eq_ok_iff.1 read
      split at read
      · exact octal inside (Except.ok.inj read)
      · next next₃ =>
        obtain ⟨-, -, read⟩ := bind_eq_ok_iff.1 read
        exact octal ((suffix_of_nextDigit? next₃).trans inside) (Except.ok.inj read)
  · split at read
    · exact referred (List.suffix_refl _) read
    · next next₂ =>
      have inside := suffix_of_nextDigit? next₂
      obtain ⟨-, -, read⟩ := bind_eq_ok_iff.1 read
      split at read
      · split at read
        · exact referred inside read
        · next next₃ =>
          obtain ⟨-, -, read⟩ := bind_eq_ok_iff.1 read
          split at read
          · cases read
          · exact octal ((suffix_of_nextDigit? next₃).trans inside) (Except.ok.inj read)
      · exact referred inside read

theorem marks_control_le {c control : Char} (known : controlOf? c = some control) : marks [control] ≤ marks [c] := by
  unfold controlOf? at known
  split at known
  all_goals
    cases known
    try decide

/-- What a token that does not stand for its text is read as has fewer marks than the token. -/
theorem marks_of_part (unmarked : ∀ number, marks (group number) = 0) (active : token.isLiteral = false)
    (read : source.part token rest = .ok (part, rest')) :
    rest' <:+ rest ∧ marks (part.text group) < marks token.text := by
  cases token with
  | plain c => cases active
  | escaped c =>
    by_cases refers : c = 'g'
    · subst refers
      unfold Source.part at read
      obtain ⟨-, -, read⟩ := bind_eq_ok_iff.1 read
      simp only at read
      split at read
      · obtain ⟨-, -, read⟩ := bind_eq_ok_iff.1 read
        obtain ⟨⟨name, more⟩, named, read⟩ := bind_eq_ok_iff.1 read
        obtain ⟨number, -, read⟩ := bind_eq_ok_iff.1 read
        obtain ⟨rfl, rfl⟩ := Prod.mk.inj (Except.ok.inj read)
        exact ⟨(suffix_of_name named).trans (List.suffix_cons _ _), by
          rw [Part.text, unmarked]
          decide⟩
      · cases read
    · rw [part_escaped refers] at read
      obtain ⟨-, -, read⟩ := bind_eq_ok_iff.1 read
      have first : marks (Token.text (.escaped c)) = marks [c] + 1 := by
        rw [Token.text, marks, marks, List.countP_cons_of_pos (by decide)]
      split at read
      · next digit =>
        obtain ⟨inside, few⟩ := marks_of_digits unmarked read
        have mark : marks [c] = 1 := by simp [marks, isMark, digit]
        exact ⟨inside, by omega⟩
      · next digit =>
        split at read
        · next control known =>
          obtain ⟨rfl, rfl⟩ := Prod.mk.inj (Except.ok.inj read)
          have few := marks_control_le known
          exact ⟨List.suffix_refl _, by rw [first]; exact Nat.lt_succ_of_le few⟩
        · next unknown =>
          split at read
          · cases read
          · next letter =>
            -- the one character left, another backslash, stands for itself alone
            have escape : c = '\\' := by
              simpa [Token.isLiteral, isInert, digit, letter] using active
            subst escape
            cases unknown

theorem marks_textOf_le (inside : rest' <:+ rest) : marks (textOf rest') ≤ marks (textOf rest) := by
  obtain ⟨front, rfl⟩ := inside
  simp [textOf]

/-- What some tokens are read as has no more marks than they have, and fewer if one of them does not stand
for its text. -/
theorem marks_of_parts (unmarked : ∀ number, marks (group number) = 0) {fuel : Nat} {parts : List Part}
    (read : source.parts fuel rest = .ok parts) :
    marks (expand parts group) ≤ marks (textOf rest) ∧
      ((∃ token ∈ rest, token.2.isLiteral = false) → marks (expand parts group) < marks (textOf rest)) := by
  have marked {token : Token} (active : token.isLiteral = false) : 0 < marks token.text := by
    cases token with
    | plain c => cases active
    | escaped c => simp [Token.text, marks, isMark]
  induction fuel generalizing rest parts with
  | zero =>
    obtain rfl : parts = [] := by
      cases rest <;> exact (Except.ok.inj read).symm
    refine ⟨Nat.zero_le _, ?_⟩
    rintro ⟨token, mem, active⟩
    obtain ⟨before, later, rfl⟩ := List.append_of_mem mem
    have mark := marked active
    simp only [textOf, List.flatMap_append, List.flatMap_cons, marks_append]
    have none_ : marks (expand [] group) = 0 := rfl
    omega
  | succ fuel ih =>
    cases rest with
    | nil =>
      obtain rfl : parts = [] := (Except.ok.inj read).symm
      simp [expand]
    | cons token rest =>
      obtain ⟨⟨part, rest'⟩, first, read⟩ := bind_eq_ok_iff.1 read
      obtain ⟨more, later, same⟩ := bind_eq_ok_iff.1 read
      obtain rfl := Except.ok.inj same
      obtain ⟨few, fewer⟩ := ih later
      rw [expand_cons, textOf_cons, marks_append, marks_append]
      cases literal : token.2.isLiteral with
      | false =>
        obtain ⟨inside, less⟩ := marks_of_part unmarked literal first
        have behind := marks_textOf_le inside
        exact ⟨by omega, fun _ => by omega⟩
      | true =>
        rw [part_of_isLiteral literal] at first
        obtain ⟨rfl, rfl⟩ : .literal token.2.text = part ∧ rest = rest' := by
          cases ahead : source.ahead rest with
          | error e => simp [ahead, Except.map] at first
          | ok _ => simpa [ahead, Except.map] using first
        refine ⟨Nat.add_le_add_left few _, fun active => Nat.add_lt_add_left (fewer ?_) _⟩
        obtain ⟨other, mem, active⟩ := active
        obtain rfl | mem := List.mem_cons.1 mem
        · exact absurd (literal.symm.trans active) (by decide)
        · exact ⟨other, mem, active⟩

end Reading

/-- What is read of a template that does not stand for itself stands for a text with fewer marks. -/
theorem marks_expand_lt {groups : Groups} {template : String} {parts : List Part} {group : Nat → List Char}
    (unmarked : ∀ number, marks (group number) = 0) (read : read groups template = .ok parts)
    (active : isLiteral template.toList = false) : marks (expand parts group) < marks template.toList := by
  have text := textOf_tokens 0 template.toList
  have literal := isLiteral_iff_tokens 0 template.toList
  unfold Template.read at read
  by_cases escapes : template.toList.contains '\\' = true
  · rw [if_pos escapes] at read
    generalize tokens 0 template.toList = result at read text literal
    obtain ⟨list, dangling⟩ := result
    obtain ⟨-, -, read⟩ := bind_eq_ok_iff.1 read
    obtain ⟨few, fewer⟩ := marks_of_parts unmarked read
    rw [← text, marks_append]
    cases dangling with
    | true =>
      have lone : marks ['\\'] = 1 := by decide
      simp only [if_true, lone]
      omega
    | false =>
      obtain ⟨token, mem, other⟩ : ∃ token ∈ list, token.2.isLiteral = false := by simpa [active] using literal
      simpa using fewer ⟨token, mem, other⟩
  · rw [isLiteral_of_not_mem (by simpa using escapes)] at active
    cases active

/-- Where the groups hold no marks, a template stands for itself exactly when its backslashes leave what is
behind them. -/
theorem expand_eq_self_iff {groups : Groups} {template : String} {parts : List Part} {group : Nat → List Char}
    (unmarked : ∀ number, marks (group number) = 0) (read : read groups template = .ok parts) :
    expand parts group = template.toList ↔ isLiteral template.toList = true := by
  constructor
  · intro same
    cases literal : isLiteral template.toList with
    | true => rfl
    | false =>
      have fewer := marks_expand_lt unmarked read literal
      exact absurd fewer (by rw [same]; exact Nat.lt_irrefl _)
  · intro literal
    obtain ⟨parts', read', same⟩ := exists_of_isLiteral groups literal
    obtain rfl := Except.ok.inj (read'.symm.trans read)
    exact same group

end WasmPackaging.Text.Template
