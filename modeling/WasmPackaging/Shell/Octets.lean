import WasmPackaging.Text.Utf8

/-!
Texts as commands see them: a character below 256 for each byte, so that any bytes are a text and lengths
are counted in bytes. Tools that look at characters widen such a text and narrow what they make of it.
-/

namespace WasmPackaging.Shell

open Text

/-- The octets of some bytes. -/
def ofBytes (bytes : Bytes) : String := String.ofList (bytes.map fun byte => Char.ofNat byte.toNat)

/-- The bytes of some octets. -/
def toBytes (octets : List Char) : Bytes := octets.map fun c => c.toNat.toUInt8

/-- The octets of a text. -/
def ofText (text : String) : String := ofBytes (encode text)

/-- The text that octets write; what is no text is replaced. -/
def toText (octets : String) : String := String.ofList (decodeLossy (toBytes octets.toList))

/-- What stands in a widened text for a byte that belongs to no character: the last private characters,
less the byte. -/
def strayBase : Nat := 0x10FF00

/-- Whether a character of a widened text stands for a stray byte. -/
def isStray (c : Char) : Bool := strayBase ≤ c.toNat

/-- The characters that octets write. -/
def widen (octets : List Char) : List Char :=
  if octets.all (·.toNat < 0x80) then octets
  else
    let bytes := toBytes octets
    (Utf8.steps 0 bytes).flatMap fun
      | (_, _, .char c _) => [c]
      | (offset, _, .bad _ more) =>
        ((bytes.drop offset).take (more + 1)).map fun byte => Char.ofNat (strayBase + byte.toNat)

/-- The octets of characters. -/
def narrow (chars : List Char) : List Char :=
  chars.flatMap fun c =>
    if c.toNat < 0x80 then [c]
    else if isStray c then [Char.ofNat (c.toNat - strayBase)]
    else (ofText (String.singleton c)).toList

/-- The lines of a text, each with its end if it has one. -/
def linesOf (text : List Char) : List (List Char) :=
  text.foldr (fun c lines => match lines with
    | [] => [[c]]
    | line :: rest => if c == '\n' then [c] :: line :: rest else (c :: line) :: rest) []

/-- The lines of a text without their ends. -/
def bareLines (text : List Char) : List (List Char) :=
  (linesOf text).map fun line => if line.getLast? == some '\n' then line.dropLast else line

/-- Lines with an end behind each. -/
def ofLines (lines : List (List Char)) : String :=
  String.ofList (lines.flatMap (· ++ ['\n']))

end WasmPackaging.Shell
