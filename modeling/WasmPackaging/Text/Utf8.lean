import WasmPackaging.Text.Quoted

/-!
Texts as UTF-8 bytes. Reading either fails at the first bytes that no character has
(`decode`) or puts a replacement character in their place (`decodeLossy`); either way the bytes are
cut into the same steps. Main fact: a step always consumes a byte, so reading ends.
-/

namespace WasmPackaging.Text

/-- The content of a file. -/
abbrev Bytes := List UInt8

/-- Bytes as they are shown: those of printable ASCII as characters, the others as escapes. -/
def shownBytes (bytes : Bytes) : String :=
  let chars := bytes.map fun byte => Char.ofNat byte.toNat
  let quote := quoteFor chars
  let shown (c : Char) : List Char := if c.toNat < 0x7F then quotedChar quote c else escapeCode c
  String.ofList ('b' :: quote :: chars.flatMap shown ++ [quote])

/-- The bytes of a text. -/
def encode (s : String) : Bytes := s.toUTF8.toList

namespace Utf8

/-- What is wrong with bytes that no character has. -/
inductive Fault where
  | badStart
  | badContinuation
  | endOfData
  deriving DecidableEq

/-- The wording of a fault. -/
def Fault.message : Fault → String
  | .badStart => "invalid start byte"
  | .badContinuation => "invalid continuation byte"
  | .endOfData => "unexpected end of data"

/-- What stands at the start of some bytes: a character, or a fault, with the number of bytes
behind the first that belong to it. -/
inductive Step where
  | char (c : Char) (more : Nat)
  | bad (fault : Fault) (more : Nat)

/-- The number of bytes behind the first that a step covers. -/
def Step.more : Step → Nat
  | .char _ more => more
  | .bad _ more => more

/-- Whether a byte continues a character. -/
def isTail (b : UInt8) : Bool := 0x80 ≤ b && b ≤ 0xBF

/-- The low six bits of a byte that continues a character. -/
def tailBits (b : UInt8) : Nat := b.toNat % 64

/-- The range of the second byte of a character with the given first byte: it excludes what a
shorter form writes, the halves of surrogate pairs and what lies above the last code point. -/
def secondOk (a b : UInt8) : Bool :=
  isTail b && (a != 0xE0 || 0xA0 ≤ b) && (a != 0xED || b < 0xA0) &&
    (a != 0xF0 || 0x90 ≤ b) && (a != 0xF4 || b < 0x90)

/-- Reads the tails of a character of three or four bytes; `taken` counts those read. -/
def tails (value : Nat) (taken : Nat) : Nat → Bytes → Step
  | 0, _ => .char (Char.ofNat value) taken
  | _ + 1, [] => .bad .endOfData taken
  | missing + 1, b :: rest =>
    if isTail b then tails (value * 64 + tailBits b) (taken + 1) missing rest
    else .bad .badContinuation taken

/-- Reads a character that starts with the given bits and has the given number of further bytes. -/
def longer (a : UInt8) (bits missing : Nat) : Bytes → Step
  | [] => .bad .endOfData 0
  | b :: rest =>
    if secondOk a b then tails (bits * 64 + tailBits b) 1 (missing - 1) rest
    else .bad .badContinuation 0

/-- What stands at the start of some bytes, given the first and the rest. -/
def step (a : UInt8) (rest : Bytes) : Step :=
  if a < 0x80 then .char (Char.ofNat a.toNat) 0
  else if a < 0xC2 then .bad .badStart 0
  else if a < 0xE0 then longer a (a.toNat % 32) 1 rest
  else if a < 0xF0 then longer a (a.toNat % 16) 2 rest
  else if a < 0xF5 then longer a (a.toNat % 8) 3 rest
  else .bad .badStart 0

/-- The steps of some bytes, each with the offset of its first byte and that byte. -/
def steps (offset : Nat) : Bytes → List (Nat × UInt8 × Step)
  | [] => []
  | a :: rest =>
    let s := step a rest
    (offset, a, s) :: steps (offset + s.more + 1) (rest.drop s.more)
termination_by bytes => bytes.length
decreasing_by simp only [List.length_drop, List.length_cons]; omega

end Utf8

/-- Why some bytes are no text: the fault, the offset of the first byte it covers, that byte, and the
number of further bytes it covers. -/
structure DecodeError where
  fault : Utf8.Fault
  offset : Nat
  byte : UInt8
  more : Nat
  deriving DecidableEq

/-- The wording of the error. -/
def DecodeError.message (e : DecodeError) : String :=
  let place :=
    if e.more = 0 then
      s!"byte 0x" ++ String.ofList (hexDigits 2 e.byte.toNat) ++ s!" in position {e.offset}"
    else
      let last := e.offset + e.more
      s!"bytes in position {e.offset}-{last}"
  s!"'utf-8' codec can't decode {place}: {e.fault.message}"

/-- The characters of some steps, up to the first fault. -/
def charsOf : List (Nat × UInt8 × Utf8.Step) → Except DecodeError (List Char)
  | [] => .ok []
  | (offset, byte, step) :: rest =>
    match step with
    | .char c _ => (charsOf rest).map (c :: ·)
    | .bad fault more => .error ⟨fault, offset, byte, more⟩

/-- The text that some bytes write. -/
def decode (bytes : Bytes) : Except DecodeError (List Char) := charsOf (Utf8.steps 0 bytes)

/-- The text that some bytes write, with a replacement character for each fault. -/
def decodeLossy (bytes : Bytes) : List Char :=
  (Utf8.steps 0 bytes).map fun
    | (_, _, .char c _) => c
    | (_, _, .bad _ _) => Char.ofNat 0xFFFD

/-- The text with each carriage return, alone or with the line feed behind it, as one line feed. -/
def plainNewlines : List Char → List Char
  | [] => []
  | '\r' :: '\n' :: rest => '\n' :: plainNewlines rest
  | '\r' :: rest => '\n' :: plainNewlines rest
  | c :: rest => c :: plainNewlines rest

/-- A text whose line ends were made plain holds no carriage return. -/
theorem not_mem_plainNewlines (s : List Char) : '\r' ∉ plainNewlines s := by
  fun_induction plainNewlines s with
  | case1 => simp
  | case2 rest ih => simp [ih]
  | case3 rest _ ih => simp [ih]
  | case4 c rest _ h ih =>
    intro hmem
    rcases List.mem_cons.1 hmem with rfl | hmem
    · exact h rfl
    · exact ih hmem

/-- A text without carriage returns has plain line ends. -/
theorem plainNewlines_eq_self {s : List Char} (h : '\r' ∉ s) : plainNewlines s = s := by
  fun_induction plainNewlines s with
  | case1 => rfl
  | case2 rest ih => simp at h
  | case3 rest _ ih => simp at h
  | case4 c rest _ _ ih =>
    simp only [List.mem_cons, not_or] at h
    rw [ih h.2]

end WasmPackaging.Text
