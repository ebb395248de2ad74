import WasmPackaging.Text.Blank

/-!
Wildcard patterns for names: a star stands for any text, a question mark for any character, and
brackets hold characters and ranges of characters, those that do not match after an exclamation mark.
The matcher `Wildcard.accepts` decides the relation `Wildcard.Matches` (`accepts_iff`).
-/

namespace WasmPackaging.Text.Wildcard

/-- A part of a pattern that one character matches, or a star. -/
inductive Token where
  | star
  | any
  | literal (c : Char)
  | oneOf (negated : Bool) (ranges : List (Char × Char))

/-- The text between brackets, given what follows the opening one, and what follows the closing one. A
closing bracket at the start is part of the text. -/
def bracket? (s : List Char) : Option (List Char × List Char) :=
  let (mark, s) := match s with
    | '!' :: rest => (['!'], rest)
    | _ => ([], s)
  let (first, s) := match s with
    | ']' :: rest => ([']'], rest)
    | _ => ([], s)
  match s.dropWhile (· != ']') with
  | [] => none
  | _ :: rest => some (mark ++ first ++ s.takeWhile (· != ']'), rest)

/-- The stretches of a bracket's text between the hyphens that make ranges; a hyphen among the first
characters of a stretch, as many as given, makes none, and neither does one at the end. -/
def stretches (fixed : Nat) (s : List Char) : List (List Char) :=
  match _h : (s.drop fixed).dropWhile (· != '-') with
  | [] => [s]
  | _ :: rest =>
    let stretch := s.take fixed ++ (s.drop fixed).takeWhile (· != '-')
    if rest = [] then [stretch ++ ['-']] else stretch :: stretches 2 rest
termination_by s.length
decreasing_by
  have h1 := (List.dropWhile_sublist (p := (· != '-')) (l := s.drop fixed)).length_le
  rw [_h] at h1
  simp at h1
  omega

/-- The stretches with every range that runs backwards taken out. -/
def dropBackward : List (List Char) → List (List Char)
  | [] => []
  | stretch :: rest =>
    match dropBackward rest with
    | next :: others =>
      if stretch.getLast?.any fun a => next.head?.any fun b => b < a then
        (stretch.dropLast ++ next.tail) :: others
      else stretch :: next :: others
    | [] => [stretch]

/-- The characters of some stretches and the ranges between them. -/
def rangesOf : List (List Char) → List (Char × Char)
  | [] => []
  | [stretch] => stretch.map fun c => (c, c)
  | stretch :: next :: rest =>
    let joint := (stretch.getLast?.getD '-', if stretch = [] then '-' else next.head?.getD '-')
    stretch.map (fun c => (c, c)) ++ joint :: rangesOf (next :: rest)

/-- The token that a bracket's text stands for. -/
def bracketToken (s : List Char) : Token :=
  let fixed := if s.head? = some '!' then 2 else 1
  match dropBackward (stretches fixed s) with
  | ('!' :: stretch) :: rest => .oneOf true (rangesOf (stretch :: rest))
  | parts => .oneOf false (rangesOf parts)

theorem length_bracket?_lt {s text rest : List Char} (h : bracket? s = some (text, rest)) :
    rest.length < s.length := by
  have key (u : List Char) (c : Char) (v : List Char) (hu : u.dropWhile (· != ']') = c :: v) :
      v.length < u.length := by
    have := (List.dropWhile_sublist (p := (· != ']')) (l := u)).length_le
    rw [hu] at this
    simp at this
    omega
  unfold bracket? at h
  split at h
  rename_i mark s1 h1
  have hs1 : s1.length ≤ s.length := by
    split at h1 <;> simp only [Prod.mk.injEq] at h1 <;> obtain ⟨-, rfl⟩ := h1 <;> simp
  split at h
  rename_i first s2 h2
  have hs2 : s2.length ≤ s1.length := by
    split at h2 <;> simp only [Prod.mk.injEq] at h2 <;> obtain ⟨-, rfl⟩ := h2 <;> simp
  split at h
  · simp at h
  · rename_i c v hv
    simp only [Option.some.injEq, Prod.mk.injEq] at h
    obtain ⟨-, rfl⟩ := h
    have := key s2 c v hv
    omega

/-- The tokens of a pattern. -/
def tokens (s : List Char) : List Token :=
  match s with
  | [] => []
  | '*' :: rest => .star :: tokens rest
  | '?' :: rest => .any :: tokens rest
  | '[' :: rest =>
    match _h : bracket? rest with
    | some (text, rest) => bracketToken text :: tokens rest
    | none => .literal '[' :: tokens rest
  | c :: rest => .literal c :: tokens rest
termination_by s.length
decreasing_by
  · simp
  · simp
  · have := length_bracket?_lt _h; simp; omega
  · simp
  · simp

/-- Whether a character matches a token. -/
def Token.admits : Token → Char → Bool
  | .star, _ => false
  | .any, _ => true
  | .literal a, c => a == c
  | .oneOf negated ranges, c => (ranges.any fun range => range.1 ≤ c && c ≤ range.2) != negated

/-- The texts that some tokens match. -/
inductive Matches : List Token → List Char → Prop where
  | nil : Matches [] []
  | star {tokens : List Token} (skipped : List Char) {s : List Char} :
      Matches tokens s → Matches (.star :: tokens) (skipped ++ s)
  | one {token : Token} {tokens : List Token} {c : Char} {s : List Char} :
      token.admits c = true → Matches tokens s → Matches (token :: tokens) (c :: s)

/-- Whether a test holds of a text or of what remains of it when some characters are dropped. -/
def anyRest (test : List Char → Bool) : List Char → Bool
  | [] => test []
  | c :: s => test (c :: s) || anyRest test s

/-- Whether some tokens match a text. -/
def accepts : List Token → List Char → Bool
  | [], s => s.isEmpty
  | .star :: tokens, s => anyRest (accepts tokens) s
  | _ :: _, [] => false
  | token :: tokens, c :: s => token.admits c && accepts tokens s

/-- Whether a pattern matches a name. -/
def matchesName (pattern name : String) : Bool := accepts (tokens pattern.toList) name.toList

theorem anyRest_iff {test : List Char → Bool} {s : List Char} :
    anyRest test s = true ↔ ∃ skipped rest, s = skipped ++ rest ∧ test rest = true := by
  induction s with
  | nil =>
    constructor
    · intro h; exact ⟨[], [], rfl, h⟩
    · rintro ⟨skipped, rest, h, ht⟩
      obtain ⟨rfl, rfl⟩ := List.append_eq_nil_iff.1 h.symm
      exact ht
  | cons c s ih =>
    simp only [anyRest, Bool.or_eq_true, ih]
    constructor
    · rintro (h | ⟨skipped, rest, rfl, ht⟩)
      · exact ⟨[], c :: s, rfl, h⟩
      · exact ⟨c :: skipped, rest, rfl, ht⟩
    · rintro ⟨skipped, rest, h, ht⟩
      cases skipped with
      | nil => simp only [List.nil_append] at h; subst h; exact .inl ht
      | cons d skipped =>
        simp only [List.cons_append, List.cons.injEq] at h
        exact .inr ⟨skipped, rest, h.2, ht⟩

/-- The matcher decides the relation. -/
theorem accepts_iff {tokens : List Token} {s : List Char} :
    accepts tokens s = true ↔ Matches tokens s := by
  induction tokens generalizing s with
  | nil =>
    constructor
    · intro h
      have h : s = [] := by simpa [accepts] using h
      exact h ▸ .nil
    · intro h; cases h; rfl
  | cons token tokens ih =>
    cases token with
    | star =>
      simp only [accepts, anyRest_iff, ih]
      constructor
      · rintro ⟨skipped, rest, rfl, h⟩; exact .star skipped h
      · intro h
        cases h with
        | star skipped h => exact ⟨skipped, _, rfl, h⟩
        | one h => simp [Token.admits] at h
    | any | literal _ | oneOf _ _ =>
      cases s with
      | nil => simp only [accepts, Bool.false_eq_true, false_iff]; intro h; cases h
      | cons c s =>
        simp only [accepts, Bool.and_eq_true, ih]
        constructor
        · rintro ⟨h1, h2⟩; exact .one h1 h2
        · intro h; cases h with
          | one h1 h2 => exact ⟨h1, h2⟩

end WasmPackaging.Text.Wildcard
