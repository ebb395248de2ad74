import WasmPackaging.Document.Value
import WasmPackaging.Text.Quoted
import WasmPackaging.Text.Real

/-!
Values written as JSON in lines, each level indented by two blanks more than the one around it, with
every character outside of ASCII escaped.
-/

namespace WasmPackaging.Document.Json

open Text

/-- A unit of sixteen bits as an escape. -/
def escapedUnit (n : Nat) : List Char := '\\' :: 'u' :: hexDigits 4 n

/-- A character as it stands in a quoted text. -/
def escaped (c : Char) : List Char :=
  let n := c.toNat
  if c = '"' then ['\\', '"']
  else if c = '\\' then ['\\', '\\']
  else if c = '\n' then ['\\', 'n']
  else if c = '\r' then ['\\', 'r']
  else if c = '\t' then ['\\', 't']
  else if n = 0x08 then ['\\', 'b']
  else if n = 0x0C then ['\\', 'f']
  else if 0x20 ≤ n ∧ n < 0x7F then [c]
  else if n < 0x10000 then escapedUnit n
  else escapedUnit (0xD800 + (n - 0x10000) / 0x400) ++ escapedUnit (0xDC00 + (n - 0x10000) % 0x400)

/-- A text in quotes. -/
def text (s : String) : String := String.ofList ('"' :: s.toList.flatMap escaped ++ ['"'])

/-- A line end, and the blanks before what stands at a depth. -/
def lineAt (depth : Nat) : String := String.ofList ('\n' :: List.replicate (2 * depth) ' ')

/-- Parts between brackets at a depth, each on lines of its own. -/
def bracketed (opening closing : String) (depth : Nat) (parts : List String) : String :=
  if parts = [] then opening ++ closing
  else
    let lines := ("," ++ lineAt (depth + 1)).intercalate parts
    opening ++ lineAt (depth + 1) ++ lines ++ lineAt depth ++ closing

/-- The text of a value that can be a key. -/
def keyText : Value → String
  | .text key => key
  | .foreign key _ => key
  | .bytes key => shownBytes key
  | .bool value => if value then "true" else "false"
  | .integer value => toString value
  | .real value => shownReal value
  | _ => "null"

mutual

/-- A value at a depth. -/
def write (depth : Nat) : Value → String
  | .null => "null"
  | .bool value => if value then "true" else "false"
  | .integer value => toString value
  | .real value => shownReal value
  | .text value => text value
  | .foreign shown _ => text shown
  | .bytes value => text (shownBytes value)
  | .list items => bracketed "[" "]" depth (writeItems (depth + 1) items)
  | .mapping entries => bracketed "\x7b" "\x7d" depth (writeEntries (depth + 1) entries)

/-- Some values at a depth. -/
def writeItems (depth : Nat) : List Value → List String
  | [] => []
  | item :: rest => write depth item :: writeItems depth rest

/-- Some entries at a depth. -/
def writeEntries (depth : Nat) : List (Value × Value) → List String
  | [] => []
  | (key, value) :: rest => (text (keyText key) ++ ": " ++ write depth value) :: writeEntries depth rest

end

end WasmPackaging.Document.Json
