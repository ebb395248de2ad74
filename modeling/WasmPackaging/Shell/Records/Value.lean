import Std.Data.HashMap
import WasmPackaging.Shell.Records.Reading
import WasmPackaging.Shell.Tools.Format

/-!
The values of programs on records: numbers, texts, and texts that were read, which count as numbers if they
write one. Arrays have texts for keys and list them in the order of a table that grows with them.
-/

namespace WasmPackaging.Shell.Records

/-- A value. -/
inductive Value where
  | unset
  | number (x : Float)
  | text (s : String)
  | given (s : String)

/-- The number at the start of a text, behind blanks, and what is behind it. -/
def leading (s : List Char) : Float × List Char × Bool :=
  let s := s.dropWhile isNumberSpace
  let (isNegative, body) := match s with
    | '-' :: rest => (true, rest)
    | '+' :: rest => (false, rest)
    | rest => (false, rest)
  let digits := numberPart body
  let isHexadecimal := match body with
    | '0' :: x :: rest => (x == 'x' || x == 'X') && (leadingNumber body).2.length < rest.length
    | _ => false
  if isHexadecimal then
    let (n, rest) := leadingNumber body
    (Float.ofInt (if isNegative then -n else n), rest, true)
  else if digits.isEmpty then (0.0, s, false)
  else
    let x := numberOf digits
    (if isNegative then -x else x, body.drop digits.length, true)

/-- Whether a text writes a number and nothing else but blanks. -/
def isNumeric (s : List Char) : Bool :=
  let (_, rest, isNumber) := leading s
  isNumber && rest.all isNumberSpace

/-- The whole number that a real is cut to, within the range of a word. -/
def wholeOf (x : Float) : Int :=
  if x.isNaN then -(Nat.pow 2 63 : Int)
  else
    let size : Float := x.abs
    if size ≥ 9223372036854775808.0 then
      if x < 0.0 then -(Nat.pow 2 63 : Int) else (Nat.pow 2 63 : Int) - 1
    else
      let n : Int := (size.toUInt64.toNat : Nat)
      if x < 0.0 then -n else n

/-- A number written by a format that has one directive. -/
def shownBy (format : String) (x : Float) : String :=
  let start := format.toList.takeWhile (· != '%')
  match WrittenDirective.read (format.toList.drop (start.length + 1)) with
  | none => format
  | some written =>
    let d := written.directive
    let body := if d.letter == 'd' || d.letter == 'i' then d.signed (wholeOf x) else d.real x
    String.ofList start ++ body ++ String.ofList written.rest

/-- The text of a number: a whole number in all its digits, any other by a format. -/
def numberText (format : String) (x : Float) : String :=
  if !x.isFinite then (if x.isNaN then "-nan" else if x < 0.0 then "-inf" else "inf")
  else if x == x.floor && x.abs < 9223372036854775808.0 then toString (wholeOf x)
  else if x == 9223372036854775808.0 then "9223372036854775807"
  else if x == -9223372036854775808.0 then "-9223372036854775808"
  else shownBy format x

namespace Value

/-- The value as a number. -/
def toNumber : Value → Float
  | .unset => 0.0
  | .number x => x
  | .text s | .given s => (leading s.toList).1

/-- The value as a text, numbers written by a format. -/
def toText (format : String) : Value → String
  | .unset => ""
  | .number x => numberText format x
  | .text s | .given s => s

/-- Whether a value holds as a condition. -/
def holds : Value → Bool
  | .unset => false
  | .number x => x != 0.0
  | .text s => s != ""
  | .given s => if isNumeric s.toList then (leading s.toList).1 != 0.0 else s != ""

/-- The number that a value is in a comparison, if it is one. -/
def asNumber? : Value → Option Float
  | .unset => some 0.0
  | .number x => some x
  | .text _ => none
  | .given s => if isNumeric s.toList then some (leading s.toList).1 else none

/-- A truth value. -/
def ofBool (b : Bool) : Value := .number (if b then 1.0 else 0.0)

/-- A whole number. -/
def ofNat (n : Nat) : Value := .number (Float.ofNat n)

end Value

/-- Whether a comparison holds of what two values are to each other. -/
def Comparison.holds (c : Comparison) (less equal more : Bool) : Bool :=
  match c with
  | .less => less
  | .atMost => less || equal
  | .equal => equal
  | .different => !equal
  | .more => more
  | .atLeast => more || equal

/-- Compares two values: as numbers if both are, else as texts. -/
def compareValues (format : String) (c : Comparison) (a b : Value) : Bool :=
  match a.asNumber?, b.asNumber? with
  | some x, some y => c.holds (x < y) (x == y) (x > y)
  | _, _ =>
    let (s, t) := (a.toText format, b.toText format)
    c.holds (decide (s < t)) (s == t) (decide (t < s))

/-- Joins two values. -/
def Operator.apply (format : String) : Operator → Value → Value → Value
  | .join, a, b => .text (a.toText format ++ b.toText format)
  | .add, a, b => .number (a.toNumber + b.toNumber)
  | .subtract, a, b => .number (a.toNumber - b.toNumber)
  | .multiply, a, b => .number (a.toNumber * b.toNumber)
  | .divide, a, b => .number (a.toNumber / b.toNumber)
  | .power, a, b => .number (Float.pow a.toNumber b.toNumber)
  | .remainder, a, b =>
    let (x, y) := (a.toNumber, b.toNumber)
    let isExact (x : Float) : Bool := x == x.floor && x.abs < 9007199254740992.0
    let whole := (x / y).abs.floor
    let quotient := if x / y < 0.0 then -whole else whole
    .number (if y == 0.0 then 0.0 / 0.0
      else if isExact x && isExact y then Float.ofInt ((wholeOf x).tmod (wholeOf y))
      else x - quotient * y)

/-! ## Arrays -/

/-- An array: its values, each with the turn in which its key came into use. -/
structure Table where
  entries : Std.HashMap String (Nat × Value) := {}
  turn : Nat := 0

namespace Table

/-- The value of a key. -/
def get? (t : Table) (key : String) : Option Value := (t.entries.get? key).map Prod.snd

/-- Sets the value of a key. -/
def insert (t : Table) (key : String) (value : Value) : Table :=
  let turn := match t.entries.get? key with
    | some (turn, _) => turn
    | none => t.turn
  ⟨t.entries.insert key (turn, value), t.turn + 1⟩

/-- Takes a key away. -/
def erase (t : Table) (key : String) : Table := { t with entries := t.entries.erase key }

/-- A number that a text is known by. -/
def mark (s : String) : Nat :=
  s.toList.foldl (fun n c => n.xor c.toNat * 16777619 % 4294967296) 2166136261

/-- How many lists a table has that holds so many keys. -/
def lists : Nat → Nat → Nat → Nat
  | 0, lists, _ => lists
  | fuel + 1, count, size => if size > count * 12 then lists fuel (2 * count) size else count

/-- The keys, list by list; in a list, the last one comes first. -/
def keys (t : Table) : List String :=
  let count := lists 32 64 t.entries.size
  let marked := t.entries.toList.map fun (key, turn, _) => (mark key % count, turn, key)
  let sorted := marked.mergeSort fun a b => decide (a.1 < b.1) || (a.1 == b.1 && decide (b.2.1 ≤ a.2.1))
  sorted.map fun (_, _, key) => key

end Table

end WasmPackaging.Shell.Records
