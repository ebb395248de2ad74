import WasmPackaging.Yaml.Fault

/-!
A place in the text of a document, with its line and column.
-/

namespace WasmPackaging.Yaml

/-- Whether a character ends a line. -/
def isBreak (c : Char) : Bool :=
  c == '\n' || c == '\r' || c == '\x85' || c.toNat == 0x2028 || c.toNat == 0x2029

/-- Whether a character is a space, a tab or the end of a line. -/
def isGap (c : Char) : Bool := c == ' ' || c == '\t' || isBreak c

/-- Whether a text ends here or goes on with a character that passes a test. -/
def endOr (test : Char → Bool) (s : List Char) : Bool := s.head?.all test

/-- Whether a document may hold a character. -/
def isAllowed (c : Char) : Bool :=
  let n := c.toNat
  n == 0x09 || n == 0x0A || n == 0x0D || (0x20 ≤ n && n ≤ 0x7E) || n == 0x85 ||
    (0xA0 ≤ n && n ≤ 0xD7FF) || (0xE000 ≤ n && n ≤ 0xFFFD) || 0x10000 ≤ n

/-- The mark of no character that stands before a text to say how its bytes are ordered. -/
def byteOrderMark : Char := Char.ofNat 0xFEFF

/-- A place in a text. -/
structure Cursor where
  rest : List Char
  index : Nat := 0
  line : Nat := 0
  column : Nat := 0

namespace Cursor

/-- The place behind the next character. -/
def step (c : Cursor) : Cursor :=
  match c.rest with
  | [] => c
  | a :: rest =>
    if isBreak a && !(a == '\r' && rest.head? == some '\n') then
      ⟨rest, c.index + 1, c.line + 1, 0⟩
    else if a == byteOrderMark then ⟨rest, c.index + 1, c.line, c.column⟩
    else ⟨rest, c.index + 1, c.line, c.column + 1⟩

/-- The place a number of characters further on. -/
def advance (c : Cursor) : Nat → Cursor
  | 0 => c
  | n + 1 => c.step.advance n

/-- The place behind the characters that pass a test. -/
def skip (c : Cursor) (test : Char → Bool) : Cursor := c.advance (c.rest.takeWhile test).length

/-- The characters up to the first that fails a test, and the place behind them. -/
def take (c : Cursor) (test : Char → Bool) : List Char × Cursor :=
  (c.rest.takeWhile test, c.skip test)

/-- The line end at a place, as a document's content has it, and the place behind it. -/
def lineBreak (c : Cursor) : List Char × Cursor :=
  match c.rest with
  | '\r' :: '\n' :: _ => (['\n'], c.advance 2)
  | a :: _ =>
    if !isBreak a then ([], c)
    else if a.toNat == 0x2028 || a.toNat == 0x2029 then ([a], c.step) else (['\n'], c.step)
  | [] => ([], c)

/-- Whether a place ends the text or stands before a character that passes a test. -/
def before (c : Cursor) (test : Char → Bool) : Bool := endOr test c.rest

/-- Whether the next character passes a test. -/
def sees (c : Cursor) (test : Char → Bool) : Bool := c.rest.head?.any test

/-- Whether a place stands before the mark that starts or ends a document. -/
def atDocumentMark (c : Cursor) : Bool :=
  (c.rest.take 3 == ['-', '-', '-'] || c.rest.take 3 == ['.', '.', '.']) && endOr isGap (c.rest.drop 3)

end Cursor

end WasmPackaging.Yaml
