import WasmPackaging.Text.Blank

/-!
Whole numbers written in digits of any script, with an optional sign, single underscores between digits
and blanks around them. A number in a base that is no power of two may have only so many digits.
-/

namespace WasmPackaging.Text

/-- The code points of the zeros; the other nine digits follow each. -/
def zeroDigits : List Nat :=
  [0x30, 0x660, 0x6F0, 0x7C0, 0x966, 0x9E6, 0xA66, 0xAE6, 0xB66, 0xBE6, 0xC66, 0xCE6, 0xD66,
   0xDE6, 0xE50, 0xED0, 0xF20, 0x1040, 0x1090, 0x17E0, 0x1810, 0x1946, 0x19D0, 0x1A80, 0x1A90,
   0x1B50, 0x1BB0, 0x1C40, 0x1C50, 0xA620, 0xA8D0, 0xA900, 0xA9D0, 0xA9F0, 0xAA50, 0xABF0, 0xFF10,
   0x104A0, 0x10D30, 0x11066, 0x110F0, 0x11136, 0x111D0, 0x112F0, 0x11450, 0x114D0, 0x11650,
   0x116C0, 0x11730, 0x118E0, 0x11950, 0x11C50, 0x11D50, 0x11DA0, 0x16A60, 0x16AC0, 0x16B50,
   0x1D7CE, 0x1D7D8, 0x1D7E2, 0x1D7EC, 0x1D7F6, 0x1E140, 0x1E2F0, 0x1E950, 0x1FBF0]

/-- The value of a decimal digit. -/
def digitValue? (c : Char) : Option Nat :=
  (zeroDigits.find? fun first => first ≤ c.toNat && c.toNat < first + 10).map (c.toNat - ·)

/-- The value of a digit of a base; the digits above nine are letters. -/
def digitOfBase? (base : Nat) (c : Char) : Option Nat :=
  let value? :=
    if 'a' ≤ c && c ≤ 'z' then some (c.toNat - 'a'.toNat + 10)
    else if 'A' ≤ c && c ≤ 'Z' then some (c.toNat - 'A'.toNat + 10)
    else digitValue? c
  value?.filter (· < base)

/-- Whether a character may stand around a number: a blank, but no information separator. -/
def isNumberBlank (c : Char) : Bool := isBlank c && !inRanges [(0x1C, 0x1F)] c

/-- The text behind a sign, if it starts with one. -/
def unsigned : List Char → List Char
  | '-' :: rest => rest
  | '+' :: rest => rest
  | s => s

/-- Whether a text starts with a minus. -/
def isNegative (s : List Char) : Bool := s.head? == some '-'

/-- Why a text writes no whole number. -/
inductive NumberFault where
  | malformed
  | tooLong (digits : Nat)
  deriving DecidableEq

/-- The most digits of a number in a base that is no power of two. -/
def mostDigits : Nat := 4300

/-- The wording of a text that has too many digits. -/
def tooManyDigits (digits : Nat) : String :=
  s!"Exceeds the limit ({mostDigits} digits) for integer string conversion: value has {digits} " ++
    "digits; use sys.set_int_max_str_digits() to increase the limit"

/-- The text behind the mark of its base, and an underscore behind that. -/
def withoutBaseMark (base : Nat) : List Char → List Char
  | '0' :: mark :: rest =>
    let marks := [(16, 'x'), (16, 'X'), (8, 'o'), (8, 'O'), (2, 'b'), (2, 'B')]
    if marks.contains (base, mark) then
      match rest with
      | '_' :: rest => rest
      | rest => rest
    else '0' :: mark :: rest
  | s => s

/-- The digits of a text in which each underscore stands between two digits. -/
def joinedDigits? : List Char → Option (List Char)
  | [] => none
  | ['_'] => none
  | [c] => some [c]
  | '_' :: _ => none
  | c :: '_' :: rest => (joinedDigits? rest).map (c :: ·)
  | c :: rest => (joinedDigits? rest).map (c :: ·)

/-- The number that a text writes in a base, without its sign. -/
def wholeSize (base : Nat) (s : List Char) : Except NumberFault Nat :=
  let s := withoutBaseMark base s
  let run := s.takeWhile fun c => c == '_' || (digitOfBase? base c).isSome
  match joinedDigits? run with
  | none => .error .malformed
  | some digits =>
    if mostDigits < digits.length && !([2, 4, 8, 16, 32].contains base) then .error (.tooLong digits.length)
    else if (s.drop run.length).all isNumberBlank then
      .ok (digits.foldl (fun n c => n * base + (digitOfBase? base c).getD 0) 0)
    else .error .malformed

/-- The whole number that a text writes in a base, which it may name by a mark. -/
def wholeNumber (base : Nat) (s : List Char) : Except NumberFault Int :=
  let s := s.dropWhile isNumberBlank
  (wholeSize base (unsigned s)).map fun n => if isNegative s then -(n : Int) else n

/-- The whole number that a text writes in decimal digits. -/
def integer? (s : List Char) : Option Int := (wholeNumber 10 s).toOption

end WasmPackaging.Text
