import WasmPackaging.Shell.Arithmetic
import WasmPackaging.Text.Real

/-!
Numbers and texts written by a format: with a width, a precision and flags, in several bases, and reals
with a number of places or with an exponent.
-/

namespace WasmPackaging.Shell

open Text

/-- How a value is to be written. -/
structure Directive where
  flags : List Char := []
  width : Nat := 0
  precision : Option Nat := none
  letter : Char

namespace Directive

/-- Whether a flag is given. -/
def has (d : Directive) (flag : Char) : Bool := d.flags.contains flag

/-- A text brought to the width; zeros go between a sign or mark at the start and the digits. -/
def pad (d : Directive) (zeros : Bool) (start body : List Char) : String :=
  let missing := d.width - (start.length + body.length)
  let blanks := List.replicate missing ' '
  String.ofList <|
    if d.has '-' then start ++ body ++ blanks
    else if zeros then start ++ List.replicate missing '0' ++ body
    else blanks ++ start ++ body

/-- A text. -/
def text (d : Directive) (s : String) : String :=
  d.pad false [] ((d.precision.map fun n => s.toList.take n).getD s.toList)

/-- The sign that stands before a number. -/
def sign (d : Directive) (isNegative : Bool) : List Char :=
  if isNegative then ['-'] else if d.has '+' then ['+'] else if d.has ' ' then [' '] else []

/-- A whole number with its sign. -/
def signed (d : Directive) (n : Int) : String :=
  let digits := if n = 0 ∧ d.precision = some 0 then [] else Nat.toDigits 10 n.natAbs
  let digits := List.replicate (d.precision.getD 0 - digits.length) '0' ++ digits
  d.pad (d.has '0' && d.precision.isNone) (d.sign (n < 0)) digits

/-- A whole number as a word without a sign, in base eight, ten or sixteen. -/
def unsigned (d : Directive) (n : Int) : String :=
  let size := (n % (Nat.pow 2 64 : Int)).toNat
  let base := if d.letter = 'o' then 8 else if d.letter = 'u' then 10 else 16
  let digits := if size = 0 ∧ d.precision = some 0 then [] else Nat.toDigits base size
  let digits := if d.letter = 'X' then digits.map Char.toUpper else digits
  let digits := List.replicate (d.precision.getD 0 - digits.length) '0' ++ digits
  let digits := if d.has '#' && d.letter == 'o' && digits.head? != some '0' then '0' :: digits else digits
  let mark := if d.has '#' && size != 0 && (d.letter == 'x' || d.letter == 'X') then ['0', d.letter] else []
  d.pad (d.has '0' && d.precision.isNone) mark digits

end Directive

/-- The whole number nearest to a quotient; of two, the even one. -/
def nearestQuotient (a b : Nat) : Nat :=
  let q := a / b
  let r := a % b
  if b < 2 * r ∨ (2 * r = b ∧ q % 2 = 1) then q + 1 else q

/-- The size of a real times a power of ten, as the nearest whole number. -/
def scaledSize (x : Float) (exponent : Int) : Nat :=
  if x == 0.0 then 0
  else
    let (number, power) := binaryParts x.abs
    let top := number * Nat.pow 2 power.toNat * Nat.pow 10 exponent.toNat
    nearestQuotient top (Nat.pow 2 (-power).toNat * Nat.pow 10 (-exponent).toNat)

/-- The digits of a number, at least as many as asked for. -/
def digitsOf (least n : Nat) : List Char :=
  let digits := Nat.toDigits 10 n
  List.replicate (least - digits.length) '0' ++ digits

/-- A real with a number of places. -/
def withPlaces (keepsPoint : Bool) (places : Nat) (x : Float) : List Char :=
  let digits := digitsOf (places + 1) (scaledSize x places)
  let whole := digits.take (digits.length - places)
  if places = 0 then whole ++ (if keepsPoint then ['.'] else [])
  else whole ++ '.' :: digits.drop whole.length

/-- The digits of a real, as many as asked for, and its exponent. -/
def exponentDigits (count : Nat) (x : Float) : List Char × Int :=
  if x == 0.0 then (List.replicate count '0', 0)
  else
    let top := magnitude x.abs
    let n := scaledSize x ((count : Int) - 1 - top)
    let (n, top) := if n = Nat.pow 10 count then (Nat.pow 10 (count - 1), top + 1) else (n, top)
    (digitsOf count n, top)

/-- An exponent with its sign, in two digits at least. -/
def shownExponent (letter : Char) (n : Int) : List Char :=
  letter :: (if n < 0 then '-' else '+') :: digitsOf 2 n.natAbs

/-- A real with an exponent. -/
def withExponent (letter : Char) (keepsPoint : Bool) (places : Nat) (x : Float) : List Char :=
  let (digits, exponent) := exponentDigits (places + 1) x
  let fraction := digits.drop 1
  digits.take 1 ++ (if fraction = [] ∧ !keepsPoint then [] else '.' :: fraction) ++
    shownExponent letter exponent

/-- A text without the zeros behind its point. -/
def withoutLastZeros (s : List Char) : List Char :=
  if s.contains '.' then
    let kept := (s.reverse.dropWhile (· == '0')).reverse
    if kept.getLast? = some '.' then kept.dropLast else kept
  else s

/-- A real in the shorter of the two forms, with a number of digits. -/
def withDigits (letter : Char) (keepsZeros : Bool) (count : Nat) (x : Float) : List Char :=
  let count := max count 1
  let (_, exponent) := exponentDigits count x
  if exponent < -4 ∨ (count : Int) ≤ exponent then
    let (digits, exponent) := exponentDigits count x
    let mantissa := digits.take 1 ++ '.' :: digits.drop 1
    (if keepsZeros then mantissa else withoutLastZeros mantissa) ++ shownExponent letter exponent
  else
    let s := withPlaces keepsZeros ((count : Int) - 1 - exponent).toNat x
    if keepsZeros then s else withoutLastZeros s

namespace Directive

/-- A real. -/
def real (d : Directive) (x : Float) : String :=
  let isNegative := x.toBits.toNat / Nat.pow 2 63 = 1
  let upper := d.letter.isUpper
  let places := d.precision.getD 6
  if x.isNaN ∨ x.isInf then
    let word := if x.isNaN then "nan" else "inf"
    d.pad false (d.sign isNegative) (if upper then word.toUpper else word).toList
  else
    let body := match d.letter.toLower with
      | 'f' => withPlaces (d.has '#') places x
      | 'e' => withExponent (if upper then 'E' else 'e') (d.has '#') places x
      | _ => withDigits (if upper then 'E' else 'e') (d.has '#') places x
    d.pad (d.has '0') (d.sign isNegative) body

end Directive

/-- A text that starts with a directive behind its sign, split into the directive without width and
precision where stars stand for them, whether these do, and what is behind. -/
structure WrittenDirective where
  directive : Directive
  widthGiven : Bool := false
  precisionGiven : Bool := false
  length : Nat
  rest : List Char

/-- The number that some digits write. -/
def decimal (digits : List Char) : Nat := digits.foldl (fun n c => n * 10 + (c.toNat - '0'.toNat)) 0

/-- Reads a directive behind its sign; nothing if its letter is missing. -/
def WrittenDirective.read (s : List Char) : Option WrittenDirective :=
  let flags := s.takeWhile fun c => "-+ #0".toList.contains c
  let behind := s.drop flags.length
  let (widthGiven, width, behind) := match behind with
    | '*' :: rest => (true, 0, rest)
    | s =>
      let digits := s.takeWhile Char.isDigit
      (false, decimal digits, s.drop digits.length)
  let (precisionGiven, precision, behind) := match behind with
    | '.' :: '*' :: rest => (true, none, rest)
    | '.' :: rest =>
      let digits := rest.takeWhile Char.isDigit
      (false, some (decimal digits), rest.drop digits.length)
    | s => (false, none, s)
  match behind with
  | [] => none
  | letter :: rest =>
    some ⟨⟨flags, width, precision, letter⟩, widthGiven, precisionGiven, s.length - rest.length, rest⟩

end WasmPackaging.Shell
