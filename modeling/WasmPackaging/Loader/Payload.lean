import WasmPackaging.Text.Pieces
import WasmPackaging.Text.Template

/-!
The places of a loader module that depend on where it is loaded from: the construction of its
binary payload's URL, and every other mention of its own location.
-/

namespace WasmPackaging.Loader

open Text

/-- The construction of a payload's URL: the quote around the file name, and the name. -/
structure PayloadUrl where
  quote : Char
  name : List Char
  deriving DecidableEq

/-- The expression by which a module names its own location. -/
def location : String := "import.meta.url"

/-- The ending of a payload's file name. -/
def payloadEnding : List Char := ['.', 'w', 'a', 's', 'm']

/-- Whether a character may stand in a quoted payload name. -/
def isPayloadChar (c : Char) : Bool := c != '\'' && c != '"' && c != '\n'

/-- The character that starts a text, if it is a quote. -/
def quote? : List Char → Option (Char × List Char)
  | '\'' :: rest => some ('\'', rest)
  | '"' :: rest => some ('"', rest)
  | _ => none

/-- Whether a text is a payload's file name: something, then the ending. -/
def isPayloadName (name : List Char) : Bool :=
  payloadEnding.length < name.length && payloadEnding.isSuffixOf name

/-- Recognises `new URL('name.wasm', import.meta.url)` with either quote, and blanks between its
tokens. -/
def payloadUrl : Recognizer PayloadUrl := fun _ s => do
  let s ← afterWord? "new" s
  let s ← afterBlanks? s
  let s ← afterWord? "URL(" s
  let (quote, s) ← quote? (trimStart s)
  let name := s.takeWhile isPayloadChar
  let s ← after? [quote] (s.dropWhile isPayloadChar)
  let s ← after? [','] (trimStart s)
  let s ← afterWord? location (trimStart s)
  let s ← after? [')'] (trimStart s)
  if isPayloadName name then some (⟨quote, name⟩, s) else none

/-- Recognises the location expression where it is not part of a longer word. -/
def locationUse : Recognizer Unit := fun before s => do
  let rest ← afterWord? location s
  if before.any isWord || startsWord rest then none else some ((), rest)

/-- The groups of a payload's URL: the whole, the quote, and the name, which is also named. -/
def payloadGroups : Groups := ⟨2, [("name", 2)]⟩

/-- The groups of a location: the whole. -/
def locationGroups : Groups := ⟨0, []⟩

/-- The text of a group of a payload's URL. -/
def PayloadUrl.group (url : PayloadUrl) (whole : List Char) : Nat → List Char
  | 0 => whole
  | 1 => [url.quote]
  | _ => url.name

end WasmPackaging.Loader
