import WasmPackaging.Text.Utf8

/-!
Bytes written in the letters of base 64, four letters to three bytes. Characters outside of the
alphabet are passed over; the text ends with the padding that completes a group of four.
-/

namespace WasmPackaging.Text.Base64

/-- The value of a letter of the alphabet. -/
def value? (c : Char) : Option Nat :=
  let n := c.toNat
  if c.isUpper then some (n - 'A'.toNat)
  else if c.isLower then some (n - 'a'.toNat + 26)
  else if c.isDigit then some (n - '0'.toNat + 52)
  else if c = '+' then some 62
  else if c = '/' then some 63
  else none

/-- Reads bytes from a place within a group: the values of the letters of the group so far, the last one
first, and how many signs of padding follow them. -/
def readFrom (group : List Nat) (padding : Nat) : List Char → Option Bytes
  | [] => if group = [] then some [] else none
  | '=' :: rest =>
    if group.length < 2 then readFrom group padding rest
    else if group.length + padding + 1 < 4 then readFrom group (padding + 1) rest
    else some []
  | c :: rest =>
    match value? c, group with
    | none, _ => readFrom group padding rest
    | some a, [] => readFrom [a] 0 rest
    | some b, [a] => (readFrom [b, a] 0 rest).map ((a * 4 + b / 16).toUInt8 :: ·)
    | some c, [b, a] => (readFrom [c, b, a] 0 rest).map ((b % 16 * 16 + c / 4).toUInt8 :: ·)
    | some d, c :: _ => (readFrom [] 0 rest).map ((c % 4 * 64 + d).toUInt8 :: ·)

/-- The bytes that a text writes; none if its last group is not complete. -/
def read? (s : List Char) : Option Bytes := readFrom [] 0 s

/-- The bytes of a group of letters or less, and whether it is whole: four letters, of which the last one or
two may be signs of padding. -/
def readGroup : List Char → Bytes × Bool
  | a :: b :: rest =>
    match value? a, value? b with
    | some a, some b =>
      let first := (a * 4 + b / 16).toUInt8
      match rest with
      | ['=', '='] => ([first], true)
      | c :: rest =>
        match value? c with
        | none => ([first], false)
        | some c =>
          let second := (b % 16 * 16 + c / 4).toUInt8
          match rest with
          | ['='] => ([first, second], true)
          | [d] =>
            match value? d with
            | some d => ([first, second, (c % 4 * 64 + d).toUInt8], true)
            | none => ([first, second], false)
          | _ => ([first, second], false)
      | [] => ([first], false)
    | _, _ => ([], false)
  | _ => ([], false)

/-- The bytes of the groups of a text up to the first one that is not whole, and whether there is none. -/
def readGroups : Nat → List Char → Bytes × Bool
  | 0, _ => ([], true)
  | _, [] => ([], true)
  | fuel + 1, s =>
    match readGroup (s.take 4) with
    | (bytes, false) => (bytes, false)
    | (bytes, true) =>
      let (more, isWhole) := readGroups fuel (s.drop 4)
      (bytes ++ more, isWhole)

/-- The letters of the alphabet. -/
def alphabet : List Char := "ABCDEFGHIJKLMNOPQRSTUVWXYZabcdefghijklmnopqrstuvwxyz0123456789+/".toList

/-- The letter of a value. -/
def letter (n : Nat) : Char := alphabet.getD (n % 64) '='

/-- Writes bytes. -/
def write : Bytes → List Char
  | [] => []
  | [a] => [letter (a.toNat / 4), letter (a.toNat * 16), '=', '=']
  | [a, b] => [letter (a.toNat / 4), letter (a.toNat * 16 + b.toNat / 16), letter (b.toNat * 4), '=']
  | a :: b :: c :: rest =>
    letter (a.toNat / 4) :: letter (a.toNat * 16 + b.toNat / 16) :: letter (b.toNat * 4 + c.toNat / 64) ::
      letter c.toNat :: write rest

end WasmPackaging.Text.Base64
