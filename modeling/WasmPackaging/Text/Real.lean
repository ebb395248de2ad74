import WasmPackaging.Text.Number

/-!
Reals in decimal digits: the real that a text writes, which is the one nearest to its decimal number,
and the shortest decimal number that a real is nearest to.
-/

namespace WasmPackaging.Text

/-- The real nearest to a whole number times a power of ten. -/
def nearestReal (digits : Nat) (exponent : Int) : Float :=
  if digits = 0 then 0.0
  else
    let places : Int := (toString digits).length
    if 400 < exponent then 1.0 / 0.0
    else if exponent + places < -400 then 0.0
    else if exponent < 0 then Float.ofScientific digits true exponent.natAbs
    else Float.ofScientific digits false exponent.natAbs

/-- The number that digits of any script write. -/
def digitsNumber (digits : List Char) : Nat :=
  digits.foldl (fun n c => n * 10 + (digitValue? c).getD 0) 0

/-- The real that a text of digits, a point and an exponent writes. -/
def realSize? (s : List Char) : Option Float :=
  let isDigit (c : Char) : Bool := (digitValue? c).isSome
  let whole := s.takeWhile isDigit
  let (fraction, s) := match s.drop whole.length with
    | '.' :: rest => (rest.takeWhile isDigit, rest.dropWhile isDigit)
    | s => ([], s)
  let digits := whole ++ fraction
  if digits = [] then none
  else match s with
    | [] => some (nearestReal (digitsNumber digits) (-fraction.length))
    | e :: rest =>
      let power := unsigned rest
      if e.toLower = 'e' ∧ power ≠ [] ∧ power.all isDigit then
        let size : Int := digitsNumber power
        some (nearestReal (digitsNumber digits) ((if isNegative rest then -size else size) - fraction.length))
      else none

/-- The real that a text writes, with blanks around it. -/
def real? (s : List Char) : Option Float :=
  let s := s.dropWhile isNumberBlank
  let s := (s.reverse.dropWhile isNumberBlank).reverse
  let size := unsigned s
  let word := String.ofList (size.map Char.toLower)
  let value :=
    if word = "inf" ∨ word = "infinity" then some (1.0 / 0.0)
    else if word = "nan" then some (0.0 / 0.0) else realSize? size
  value.map fun x => if isNegative s then -x else x

/-- A positive real as a whole number times a power of two. -/
def binaryParts (x : Float) : Nat × Int :=
  let bits := x.toBits.toNat
  let exponent : Nat := bits / Nat.pow 2 52 % 2048
  let fraction : Nat := bits % Nat.pow 2 52
  if exponent = 0 then (fraction, -1074) else (fraction + Nat.pow 2 52, (exponent : Int) - 1075)

/-- The whole part of a positive real divided by a power of ten. -/
def wholeUnits (x : Float) (exponent : Int) : Nat :=
  let (number, power) := binaryParts x
  number * Nat.pow 2 power.toNat * Nat.pow 10 (-exponent).toNat /
    (Nat.pow 2 (-power).toNat * Nat.pow 10 exponent.toNat)

/-- The power of ten that a positive real lies on or above. -/
def magnitude (x : Float) : Int :=
  let places := (List.range 640).map fun n : Nat => (308 : Int) - n
  (places.find? fun n => 1 ≤ wholeUnits x n).getD (-324)

/-- The digits and the exponent of the shortest decimal number that a positive real is nearest to; of
two such numbers the nearer one counts. -/
def shortestDigits (x : Float) : Nat × Int :=
  let top := magnitude x
  let candidate (count : Nat) : Option (Nat × Int) :=
    let exponent := top - count
    let below := wholeUnits x exponent
    let upperHalf := 5 ≤ wholeUnits x (exponent - 1) % 10
    let ordered := if upperHalf then [below + 1, below] else [below, below + 1]
    (ordered.find? fun digits => nearestReal digits exponent == x).map (·, exponent)
  ((List.range 17).findSome? candidate).getD (wholeUnits x (top - 16), top - 16)

/-- The digits without zeros at their end, and the exponent that makes up for them. -/
def withoutZeros (digits : List Char) (exponent : Int) : List Char × Int :=
  let kept := (digits.reverse.dropWhile (· == '0')).reverse
  (kept, exponent + (digits.length - kept.length : Nat))

/-- A positive real in digits: with a point if it lies between a ten-thousandth and 10^16, else with an
exponent of two digits or more. -/
def shownPositive (x : Float) : String :=
  let (number, exponent) := shortestDigits x
  let (digits, exponent) := withoutZeros (toString number).toList exponent
  let point : Int := digits.length + exponent
  let zeros (n : Int) : List Char := List.replicate n.toNat '0'
  if -4 < point ∧ point ≤ 16 then
    let whole := if point ≤ 0 then ['0'] else digits.take point.toNat ++ zeros (point - digits.length)
    let fraction := if point ≤ 0 then zeros (-point) ++ digits else digits.drop point.toNat
    String.ofList (whole ++ '.' :: if fraction = [] then ['0'] else fraction)
  else
    let power := point - 1
    let fraction := digits.drop 1
    let mantissa := digits.take 1 ++ if fraction = [] then [] else '.' :: fraction
    let shownPower := (toString power.natAbs).toList
    let padded := if shownPower.length < 2 then '0' :: shownPower else shownPower
    String.ofList (mantissa ++ ['e', if power < 0 then '-' else '+'] ++ padded)

/-- A real in digits. -/
def shownReal (x : Float) : String :=
  if x.isNaN then "nan"
  else
    let negative := x.toBits.toNat / Nat.pow 2 63 = 1
    let size := x.abs
    let digits := if size.isInf then "inf" else if size == 0.0 then "0.0" else shownPositive size
    if negative then "-" ++ digits else digits

end WasmPackaging.Text
