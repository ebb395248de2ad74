import WasmPackaging.Text.Utf8
import WasmPackaging.Yaml.ScalarText

/-!
The tokens of a document, and the reading of those that stand for names: directives, anchors, aliases
and tags.
-/

namespace WasmPackaging.Yaml

open Text

/-- A line that says how the document behind it is to be read. -/
inductive Directive where
  | version (major : Nat)
  | handle (handle tagStart : String)
  | other
  deriving DecidableEq

/-- A tag as it is written: what stands behind a handle, or the whole tag. -/
structure WrittenTag where
  handle : Option String
  rest : String
  deriving DecidableEq

/-- A part of a document. Where a block ends is shown by the indentation only; `failed` stands where the
text cannot be read on. -/
inductive Token where
  | directive (directive : Directive)
  | documentStart
  | documentEnd
  | blockSequence
  | blockMapping
  | blockEnd
  | flowSequence
  | flowSequenceEnd
  | flowMapping
  | flowMappingEnd
  | dash
  | comma
  | key
  | value
  | anchor (name : String)
  | alias (name : String)
  | tag (tag : WrittenTag)
  | scalar (text : String) (plain : Bool)
  | textEnd
  | failed (error : Error)
  deriving DecidableEq

/-- Whether a character belongs to the name of an anchor, a directive or a handle. -/
def isNameChar (c : Char) : Bool := c.isAlphanum || c == '-' || c == '_'

/-- Whether a character may stand in a tag as it is; a percent sign starts a coded one. -/
def isTagChar (c : Char) : Bool :=
  c.isAlphanum || "-;/?:@&=+$,_.!~*'()[]%".toList.contains c

/-- Whether a character is a space or ends a line. -/
def isSpaceOrBreak (c : Char) : Bool := c == ' ' || isBreak c

/-- The name at a place, which ends before a character that passes a test. -/
def nameAt (ends : Char → Bool) (fault : Fault) (c : Cursor) : Reading (String × Cursor) :=
  let (name, c) := c.take isNameChar
  if name ≠ [] && c.before ends then .ok (String.ofList name, c) else bad fault

/-- Whether a character ends the name of an anchor. -/
def endsAnchor (c : Char) : Bool := isGap c || "?:,]\x7d%@\x60".toList.contains c

/-- Reads the name behind the sign of an anchor or alias. -/
def anchorName (c : Cursor) : Reading (String × Cursor) :=
  nameAt endsAnchor (.misplaced "a character in the name of an anchor") c.step

/-! ## Tags -/

/-- Reads the bytes that percent signs code, up to a number of them. -/
def codedBytes : Nat → Cursor → Reading (Bytes × Cursor)
  | 0, c => .ok ([], c)
  | fuel + 1, c =>
    match c.rest with
    | '%' :: high :: low :: _ =>
      match hexNumber? [high, low] with
      | none => bad .badTag
      | some n => do
        let (more, c) ← codedBytes fuel (c.advance 3)
        return (n.toUInt8 :: more, c)
    | '%' :: _ => bad .badTag
    | _ => .ok ([], c)

/-- Reads the characters of a tag, plain ones and coded ones. -/
def tagText : Nat → Cursor → Reading (String × Cursor)
  | 0, c => .ok ("", c)
  | fuel + 1, c =>
    if c.sees (· == '%') then do
      let (bytes, c) ← codedBytes fuel c
      match decode bytes with
      | .error _ => bad .badTag
      | .ok text => do
        let (more, c) ← tagText fuel c
        return (String.ofList text ++ more, c)
    else
      let (run, c) := c.take fun a => isTagChar a && a != '%'
      if run = [] then .ok ("", c)
      else do
        let (more, c) ← tagText fuel c
        return (String.ofList run ++ more, c)

/-- Reads the characters of a tag; there is at least one. -/
def tagRest (c : Cursor) : Reading (String × Cursor) :=
  if c.sees isTagChar then tagText (c.rest.length + 1) c else bad .badTag

/-- Reads a handle: a mark, or a name between two marks. -/
def tagHandle (c : Cursor) : Reading (String × Cursor) :=
  if !c.sees (· == '!') then bad .badTag
  else
    let (name, c) := c.step.take isNameChar
    if c.sees (· == '!') then .ok ("!" ++ String.ofList name ++ "!", c.step)
    else if name = [] && c.sees (· == ' ') then .ok ("!", c)
    else bad .badTag

/-- Reads a tag. -/
def writtenTag (c : Cursor) : Reading (WrittenTag × Cursor) := do
  let inner := c.step
  let (tag, c) ←
    if inner.sees (· == '<') then do
      let (rest, c) ← tagRest inner.step
      if c.sees (· == '>') then .ok (WrittenTag.mk none rest, c.step) else bad .badTag
    else if inner.before isGap then .ok (WrittenTag.mk none "!", inner)
    else if (inner.rest.takeWhile (!isSpaceOrBreak ·)).contains '!' then do
      let (handle, c) ← tagHandle c
      let (rest, c) ← tagRest c
      .ok (WrittenTag.mk (some handle) rest, c)
    else do
      let (rest, c) ← tagRest inner
      .ok (WrittenTag.mk (some "!") rest, c)
  if c.before isSpaceOrBreak then .ok (tag, c) else bad .badTag

/-! ## Directives -/

/-- Reads a number in decimal digits. -/
def directiveNumber (c : Cursor) : Reading (Nat × Cursor) :=
  let (digits, c) := c.take Char.isDigit
  if digits = [] then bad .badDirective
  else if mostDigits < digits.length then .error (.value (.tooLong digits.length))
  else .ok (digits.foldl (fun n d => n * 10 + (d.toNat - '0'.toNat)) 0, c)

/-- Reads the version that a directive names. -/
def versionDirective (c : Cursor) : Reading (Directive × Cursor) := do
  let (major, c) ← directiveNumber (c.skip (· == ' '))
  if !c.sees (· == '.') then bad .badDirective
  else do
    let (_, c) ← directiveNumber c.step
    if c.before isSpaceOrBreak then .ok (.version major, c) else bad .badDirective

/-- Reads the handle that a directive declares, and what it stands for. -/
def handleDirective (c : Cursor) : Reading (Directive × Cursor) := do
  let (handle, c) ← tagHandle (c.skip (· == ' '))
  if !c.sees (· == ' ') then bad .badDirective
  else do
    let (start, c) ← tagRest (c.skip (· == ' '))
    if c.before isSpaceOrBreak then .ok (.handle handle start, c) else bad .badDirective

/-- Reads a directive and the rest of its line. -/
def directive (c : Cursor) : Reading (Directive × Cursor) := do
  let (name, c) ← nameAt isSpaceOrBreak .badDirective c.step
  let (directive, c) ←
    if name = "YAML" then versionDirective c
    else if name = "TAG" then handleDirective c
    else .ok (.other, c.skip (!isBreak ·))
  return (directive, ← lineRemainder c)

end WasmPackaging.Yaml
