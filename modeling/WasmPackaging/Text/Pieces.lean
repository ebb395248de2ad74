import WasmPackaging.Text.Blank

/-!
Cutting a text into the stretches that a recogniser finds and the characters between them. The
search runs from left to right and goes on behind each stretch it found. Main fact: the pieces
written one after another are the text (`flatten_pieces`).
-/

namespace WasmPackaging.Text

/-- A recogniser is given the character before a place and the text from the place on; it answers
with what it found there and the text behind it. -/
abbrev Recognizer (α : Type) := Option Char → List Char → Option (α × List Char)

/-- A character between the finds, or a find with the text it covers. -/
inductive Piece (α : Type) where
  | plain (c : Char)
  | hit (value : α) (text : List Char)

variable {α : Type}

/-- The characters that a piece covers. -/
def Piece.text : Piece α → List Char
  | .plain c => [c]
  | .hit _ text => text

/-- What a piece found. -/
def Piece.value? : Piece α → Option α
  | .plain _ => none
  | .hit value _ => some value

/-- The pieces of a text; a find that covers no character counts as none. -/
def pieces (find : Recognizer α) (before : Option Char) : List Char → List (Piece α)
  | [] => []
  | c :: rest =>
    match find before (c :: rest) with
    | some (value, behind) =>
      if behind.length ≤ rest.length then
        let size := rest.length - behind.length
        let covered := c :: rest.take size
        .hit value covered :: pieces find covered.getLast? (rest.drop size)
      else .plain c :: pieces find (some c) rest
    | none => .plain c :: pieces find (some c) rest
termination_by s => s.length
decreasing_by all_goals simp only [List.length_drop, List.length_cons]; omega

/-- Everything that a recogniser finds in a text, from left to right. -/
def finds (find : Recognizer α) (s : List Char) : List α := (pieces find none s).filterMap Piece.value?

/-- The finds among some pieces with the offset of their first character and the text they cover. -/
def locate (offset : Nat) : List (Piece α) → List (Nat × α × List Char)
  | [] => []
  | .plain _ :: rest => locate (offset + 1) rest
  | .hit value text :: rest => (offset, value, text) :: locate (offset + text.length) rest

/-- The finds in a text with their offsets. -/
def locateIn (find : Recognizer α) (s : List Char) : List (Nat × α × List Char) :=
  locate 0 (pieces find none s)

/-- The text with every find replaced. -/
def replaceFinds (find : Recognizer α) (new : α → List Char → List Char) (s : List Char) : List Char :=
  (pieces find none s).flatMap fun
    | .plain c => [c]
    | .hit value text => new value text

/-- Whether a place is the first of its line. -/
def atLineStart (before : Option Char) : Bool := before.all (· == '\n')

/-- The pieces cover the text, each character once and in order. -/
theorem flatten_pieces (find : Recognizer α) (before : Option Char) (s : List Char) :
    (pieces find before s).flatMap Piece.text = s := by
  fun_induction pieces find before s with
  | case1 => rfl
  | case2 before c rest value behind _ h size covered ih =>
    simp [Piece.text, ih, covered]
  | case3 before c rest value behind _ h ih => simp [Piece.text, ih]
  | case4 before c rest _ ih => simp [Piece.text, ih]

/-- Replacing every find by itself changes nothing. -/
theorem replaceFinds_self (find : Recognizer α) (s : List Char) :
    replaceFinds find (fun _ text => text) s = s := by
  have h := flatten_pieces find none s
  unfold replaceFinds
  refine Eq.trans (congrArg (List.flatMap · _) ?_) h
  funext piece
  cases piece <;> rfl

/-! ## Fixed texts -/

/-- What follows a fixed text at the start of a text. -/
def after? : List Char → List Char → Option (List Char)
  | [], s => some s
  | _ :: _, [] => none
  | a :: fixed, c :: s => if a == c then after? fixed s else none

/-- What follows a fixed text, given as a string. -/
def afterWord? (fixed : String) (s : List Char) : Option (List Char) := after? fixed.toList s

/-- What follows at least one blank and all the blanks behind it. -/
def afterBlanks? : List Char → Option (List Char)
  | [] => none
  | c :: s => if isBlank c then some (trimStart s) else none

/-- Whether a text occurs within another. -/
def occurs (part : List Char) : List Char → Bool
  | [] => part.isEmpty
  | c :: s => part.isPrefixOf (c :: s) || occurs part s

/-- The last offset at which a text occurs within another. -/
def lastOffset? (part : List Char) : List Char → Option Nat
  | [] => if part.isEmpty then some 0 else none
  | c :: s =>
    match lastOffset? part s with
    | some offset => some (offset + 1)
    | none => if part.isPrefixOf (c :: s) then some 0 else none

/-- The text with its first occurrence of a fixed text replaced. -/
def replaceFirst (old new : List Char) : List Char → List Char
  | [] => if old.isEmpty then new else []
  | c :: s =>
    match after? old (c :: s) with
    | some rest => new ++ rest
    | none => c :: replaceFirst old new s

/-- The text with a text set before each of its characters and at its end. -/
def interleave (new : List Char) : List Char → List Char
  | [] => new
  | c :: s => new ++ c :: interleave new s

/-- The text with every occurrence of a fixed text replaced; the empty text occurs before each
character and at the end. -/
def replaceAll (old new s : List Char) : List Char :=
  if old.isEmpty then interleave new s
  else replaceFinds (fun _ s => (after? old s).map ((), ·)) (fun _ _ => new) s

theorem after?_eq_some_iff {fixed s rest : List Char} :
    after? fixed s = some rest ↔ s = fixed ++ rest := by
  induction fixed generalizing s with
  | nil => simp [after?]
  | cons a fixed ih =>
    cases s with
    | nil => simp [after?]
    | cons c s =>
      by_cases h : a = c
      · simp [after?, h, ih]
      · simp [after?, h, Ne.symm h]

end WasmPackaging.Text
