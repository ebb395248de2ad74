import WasmPackaging.Text.Pieces
import WasmPackaging.Text.Word

/-!
The specifiers in the text of a module: the quoted texts behind `from`, `import` and `require`.
-/

namespace WasmPackaging.Bundling

open Text

/-- A specifier in a module, between two equal quotes. -/
structure Mention where
  quote : Char
  specifier : List Char
  deriving DecidableEq

/-- The text behind a character that may be missing. -/
def afterOptional (c : Char) (s : List Char) : List Char := (after? [c] s).getD s

/-- The text behind a keyword that a specifier follows, with the blanks and the bracket between. -/
def afterKeyword? (s : List Char) : Option (List Char) :=
  match afterWord? "from" s, afterWord? "import" s, afterWord? "require" s with
  | some s, _, _ => some (trimStart s)
  | _, some s, _ => some (trimStart (afterOptional '(' (trimStart s)))
  | _, _, some s => (after? ['('] (trimStart s)).map trimStart
  | none, none, none => none

/-- Whether a character may stand in a specifier. -/
def isSpecifierChar (c : Char) : Bool := c != '\'' && c != '"' && c != '\n'

/-- Recognises a keyword that is no part of a longer name, and the specifier behind it. -/
def mention : Recognizer Mention := fun before s =>
  if before.any fun c => isNameChar c || c == '.' then none
  else do
    let s ← afterKeyword? s
    let quote ← s.head?
    let rest := s.tail
    let specifier := rest.takeWhile isSpecifierChar
    if (quote == '\'' || quote == '"') && specifier != [] then
      let s ← after? [quote] (rest.dropWhile isSpecifierChar)
      some (⟨quote, specifier⟩, s)
    else none

/-- The text of a mention with another specifier in it. -/
def Mention.withSpecifier (found : Mention) (text specifier : List Char) : List Char :=
  text.take (text.length - (found.specifier.length + 1)) ++ specifier ++ [found.quote]

/-- The specifiers that a module mentions, in order. -/
def specifiers (source : List Char) : List String :=
  (finds mention source).map fun found => String.ofList found.specifier

end WasmPackaging.Bundling
