import WasmPackaging.Text.Case
import WasmPackaging.Text.Real
import WasmPackaging.Yaml.ScalarText
import WasmPackaging.Yaml.Timestamp

/-!
Numbers as scalars write them: which plain texts are numbers, and the values of texts that are said to
be numbers. Parts between colons count sixties.
-/

namespace WasmPackaging.Yaml

open Text

/-- Whether a text is a run of characters that pass a test. -/
def isRun (test : Char → Bool) (s : List Char) : Bool := !s.isEmpty && s.all test

/-- Whether a character is an underscore or passes a test. -/
def orUnderscore (test : Char → Bool) (c : Char) : Bool := c == '_' || test c

/-- Whether a text starts with a digit and goes on with digits and underscores. -/
def isDigitRun (s : List Char) : Bool := s.head?.any Char.isDigit && s.all (orUnderscore Char.isDigit)

/-- Whether a text writes a number below sixty. -/
def isSixtieth : List Char → Bool
  | [a] => a.isDigit
  | [a, b] => '0' ≤ a && a ≤ '5' && b.isDigit
  | _ => false

/-- Whether a character is a digit below a base of at most ten. -/
def isDigitBelow (base : Nat) (c : Char) : Bool := c.isDigit && c.toNat - '0'.toNat < base

/-- The parts of a text between colons. -/
def colonParts (s : List Char) : List (List Char) := s.splitOn ':'

/-! ## Whole numbers -/

/-- Whether a plain text is a whole number. -/
def isInteger (s : List Char) : Bool :=
  match unsigned s with
  | '0' :: 'b' :: digits => isRun (orUnderscore (isDigitBelow 2)) digits
  | '0' :: 'x' :: digits => isRun (orUnderscore fun c => (hexValue? c).isSome) digits
  | '0' :: digits => digits.all (orUnderscore (isDigitBelow 8))
  | digits =>
    match colonParts digits with
    | first :: rest => isDigitRun first && rest.all isSixtieth
    | [] => false

/-- The whole number that a text writes in a base. -/
def valueInBase (base : Nat) (digits : List Char) : Except ValueFault Int :=
  (wholeNumber base digits).mapError fun
    | .malformed => .digits base (String.ofList digits)
    | .tooLong count => .tooLong count

/-- The whole number that a scalar writes. -/
def integerValue (s : List Char) : Except ValueFault Int := do
  let s := s.filter (· != '_')
  let digits := unsigned s
  let size ← match digits with
    | [] => .error .noText
    | ['0'] => .ok 0
    | '0' :: 'b' :: rest => valueInBase 2 rest
    | '0' :: 'x' :: rest => valueInBase 16 rest
    | '0' :: _ => valueInBase 8 digits
    | _ =>
      if digits.contains ':' then do
        let parts ← (colonParts digits).mapM (valueInBase 10)
        .ok (parts.foldl (fun n part => n * 60 + part) 0)
      else valueInBase 10 digits
  return if isNegative s then -size else size

/-! ## Reals -/

/-- Whether a text is an exponent with its sign, or nothing. -/
def isExponent : List Char → Bool
  | [] => true
  | e :: s :: digits => (e == 'e' || e == 'E') && (s == '-' || s == '+') && isRun Char.isDigit digits
  | _ => false

/-- Whether a plain text is a real. -/
def isReal (s : List Char) : Bool :=
  let size := unsigned s
  let whole := size.takeWhile (· != '.')
  let digit := orUnderscore Char.isDigit
  match size.drop whole.length with
  | [] => false
  | _ :: fraction =>
    let exponent := fraction.dropWhile digit
    if whole = [] then
      ["inf", "Inf", "INF"].contains (String.ofList fraction) ||
        (size == s && (["nan", "NaN", "NAN"].contains (String.ofList fraction) ||
          (fraction.head?.any Char.isDigit && isExponent exponent)))
    else match colonParts whole with
      | [_] => isDigitRun whole && isExponent exponent
      | first :: rest => isDigitRun first && rest.all isSixtieth && exponent.isEmpty
      | [] => false

/-- The real that a text writes. -/
def valueOfReal (s : List Char) : Except ValueFault Float :=
  match real? s with
  | some x => .ok x
  | none => .error (.number (String.ofList s))

/-- The sum of some parts, each of them times a power of sixty; the last part comes first. -/
def sumOfSixties (factor : Nat) (sum : Float) : List Float → Except ValueFault Float
  | [] => .ok sum
  | part :: rest =>
    let unit := nearestReal factor 0
    if unit.isInf then .error .hugeFactor else sumOfSixties (factor * 60) (sum + part * unit) rest

/-- The real that a scalar writes. -/
def realValue (s : List Char) : Except ValueFault Float := do
  let s := smallLetters (s.filter (· != '_'))
  if s = [] then .error .noText
  else
    let digits := unsigned s
    let size ←
      if digits = ".inf".toList then .ok (1.0 / 0.0)
      else if digits = ".nan".toList then .ok (0.0 / 0.0)
      else if digits.contains ':' then do
        let parts ← (colonParts digits).mapM valueOfReal
        sumOfSixties 1 0.0 parts.reverse
      else valueOfReal digits
    return if isNegative s then -size else size

end WasmPackaging.Yaml
