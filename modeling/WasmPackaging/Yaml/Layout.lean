import WasmPackaging.Yaml.Token

/-!
The tokens of a text. Indentation opens and closes blocks; a mapping's key is known as one only by the
colon behind it, so the places at which a key may have started are kept until the colon or the end of
the line.
-/

namespace WasmPackaging.Yaml

/-- A place at which a key may have started. A required one stands where nothing but a key can. -/
structure KeyStart where
  depth : Nat
  token : Nat
  required : Bool
  index : Nat
  line : Nat
  column : Nat

/-- A text that is read up to a place: the tokens so far, the last one first, how many brackets are
open, the column of the block and those of the blocks around it, whether a key may start here, and where
keys may have started. -/
structure Layout where
  cursor : Cursor
  tokens : List Token := []
  depth : Nat := 0
  indent : Int := -1
  outer : List Int := []
  keyAllowed : Bool := true
  keyStarts : List KeyStart := []

namespace Layout

/-- Adds a token. -/
def push (token : Token) (s : Layout) : Layout := { s with tokens := token :: s.tokens }

/-- Adds a token before the one with a number. -/
def insertAt (number : Nat) (token : Token) (s : Layout) : Layout :=
  let behind := s.tokens.length - number
  { s with tokens := s.tokens.take behind ++ token :: s.tokens.drop behind }

/-- Closes the blocks that are indented further than a column. -/
def closeBlocks (column : Int) (s : Layout) : Layout :=
  if s.depth ≠ 0 then s
  else
    let rec close : List Int → Int → List Token → Int × List Int × List Token
      | [], indent, tokens => (indent, [], tokens)
      | outer :: more, indent, tokens =>
        if column < indent then close more outer (.blockEnd :: tokens) else (indent, outer :: more, tokens)
    let (indent, outer, tokens) := close s.outer s.indent s.tokens
    { s with indent, outer, tokens }

/-- Opens a block at a column, unless one is open there; tells whether it did. -/
def openBlock (column : Int) (s : Layout) : Bool × Layout :=
  if s.indent < column then (true, { s with indent := column, outer := s.indent :: s.outer }) else (false, s)

/-- Forgets the places of keys that a line end or a long way separates from here. -/
def dropStale (s : Layout) : Reading Layout :=
  let stale (k : KeyStart) : Bool := k.line != s.cursor.line || s.cursor.index - k.index > 1024
  if s.keyStarts.any fun k => stale k && k.required then bad (.unterminated "a key")
  else .ok { s with keyStarts := s.keyStarts.filter (!stale ·) }

/-- Forgets the place of a key within the brackets that are open. -/
def dropKey (s : Layout) : Reading Layout :=
  if s.keyStarts.any fun k => k.depth == s.depth && k.required then bad (.unterminated "a key")
  else .ok { s with keyStarts := s.keyStarts.filter (·.depth != s.depth) }

/-- Notes that a key may start here. -/
def noteKey (s : Layout) : Reading Layout :=
  if !s.keyAllowed then .ok s
  else do
    let s ← s.dropKey
    let required := s.depth == 0 && s.indent == s.cursor.column
    let start :=
      KeyStart.mk s.depth s.tokens.length required s.cursor.index s.cursor.line s.cursor.column
    return { s with keyStarts := start :: s.keyStarts }

/-- Passes over blanks, comments and line ends. -/
def skipBlank : Nat → Layout → Layout
  | 0, s => s
  | fuel + 1, s =>
    let c := s.cursor.skip (· == ' ')
    let c := if c.sees (· == '#') then c.skip (!isBreak ·) else c
    if c.sees isBreak then
      skipBlank fuel { s with cursor := c.lineBreak.2, keyAllowed := s.keyAllowed || s.depth == 0 }
    else { s with cursor := c }

/-- Adds a token that stands alone on its line and ends all blocks. -/
def lineToken (token : Token) (cursor : Cursor) (s : Layout) : Reading Layout := do
  let s ← (s.closeBlocks (-1)).dropKey
  return { s with cursor, keyAllowed := false }.push token

/-- Adds a token that a key may start with. -/
def nodeToken (read : Layout → Reading (Token × Cursor)) (s : Layout) : Reading Layout := do
  let s ← s.noteKey
  let (token, cursor) ← read s
  return { s with cursor, keyAllowed := false }.push token

/-- Opens a bracket. -/
def openFlow (token : Token) (s : Layout) : Reading Layout := do
  let s ← s.noteKey
  return { s with cursor := s.cursor.step, depth := s.depth + 1, keyAllowed := true }.push token

/-- Closes a bracket. -/
def closeFlow (token : Token) (s : Layout) : Reading Layout := do
  if s.depth = 0 then bad (.misplaced "a closing bracket")
  else do
    let s ← s.dropKey
    return { s with cursor := s.cursor.step, depth := s.depth - 1, keyAllowed := false }.push token

/-- Adds the sign of an entry or of a key outside brackets, which may open a block. -/
def blockSign (opening sign : Token) (what : String) (s : Layout) : Reading Layout := do
  let s ←
    if s.depth ≠ 0 then .ok s
    else if !s.keyAllowed then bad (.misplaced what)
    else
      let (opened, s) := s.openBlock s.cursor.column
      .ok (if opened then s.push opening else s)
  let s ← { s with keyAllowed := s.depth == 0 }.dropKey
  return { s with cursor := s.cursor.step }.push sign

/-- Adds the colon behind a key: one that may have started before is one now. -/
def valueSign (s : Layout) : Reading Layout :=
  match s.keyStarts.find? (·.depth == s.depth) with
  | some key => do
    let s := { s with keyStarts := s.keyStarts.filter (·.depth != s.depth), keyAllowed := false }
    let s := s.insertAt key.token .key
    let (opened, s) := if s.depth = 0 then s.openBlock key.column else (false, s)
    let s := if opened then s.insertAt key.token .blockMapping else s
    return { s with cursor := s.cursor.step }.push .value
  | none => s.blockSign .blockMapping .value "a value"

/-- Reads a plain scalar; a key may follow it on a later line. -/
def plainToken (s : Layout) : Reading Layout := do
  let s ← s.noteKey
  let (text, cursor, ended) :=
    plainScalar (s.depth != 0) (s.indent + 1) (s.cursor.rest.length + 1) s.cursor
  return { s with cursor, keyAllowed := ended }.push (.scalar (String.ofList text) true)

/-- Reads a block of lines. -/
def blockToken (fold : Bool) (s : Layout) : Reading Layout := do
  let s ← { s with keyAllowed := true }.dropKey
  let (text, cursor) ← blockScalar fold s.indent s.cursor.step
  return { s with cursor }.push (.scalar (String.ofList text) false)

/-- Reads a quoted scalar. -/
def quotedToken (double : Bool) : Layout → Reading Layout :=
  nodeToken fun s => do
    let (text, cursor) ← quotedScalar double (s.cursor.rest.length + 1) s.cursor.step
    return (.scalar (String.ofList text) false, cursor)

/-- Whether a plain scalar starts with a character, given the text behind it. -/
def startsPlain (flow : Bool) (a : Char) (rest : List Char) : Bool :=
  let sign := "-?:,[]\x7b\x7d#&*!|>'\"%@\x60".toList.contains a
  (!isGap a && !sign) || (!endOr isGap rest && (a == '-' || (!flow && (a == '?' || a == ':'))))

/-- Adds the token that starts at a character. -/
def read (a : Char) (s : Layout) : Reading Layout :=
  let c := s.cursor
  let flow := s.depth != 0
  let rest := c.rest.drop 1
  let alone := endOr isGap rest
  if a == '%' && c.column == 0 then do
    let s ← (s.closeBlocks (-1)).dropKey
    let (directive, cursor) ← directive c
    return { s with cursor, keyAllowed := false }.push (.directive directive)
  else if c.column == 0 && c.atDocumentMark then
    s.lineToken (if a == '-' then .documentStart else .documentEnd) (c.advance 3)
  else if a == '[' then s.openFlow .flowSequence
  else if a == '{' then s.openFlow .flowMapping
  else if a == ']' then s.closeFlow .flowSequenceEnd
  else if a == '}' then s.closeFlow .flowMappingEnd
  else if a == ',' then do
    let s ← { s with keyAllowed := true }.dropKey
    return { s with cursor := c.step }.push .comma
  else if a == '-' && alone then do
    let s ← s.blockSign .blockSequence .dash "an entry"
    return { s with keyAllowed := true }
  else if a == '?' && (flow || alone) then s.blockSign .blockMapping .key "a key"
  else if a == ':' && (flow || alone) then s.valueSign
  else if a == '*' then s.nodeToken fun s => (anchorName s.cursor).map fun (name, c) => (.alias name, c)
  else if a == '&' then s.nodeToken fun s => (anchorName s.cursor).map fun (name, c) => (.anchor name, c)
  else if a == '!' then s.nodeToken fun s => (writtenTag s.cursor).map fun (tag, c) => (.tag tag, c)
  else if a == '|' && !flow then s.blockToken false
  else if a == '>' && !flow then s.blockToken true
  else if a == '\'' then s.quotedToken false
  else if a == '"' then s.quotedToken true
  else if startsPlain flow a rest then s.plainToken
  else bad (.misplaced "a character that starts no token")

/-- Adds the token at the next place, and tells whether the text ended. -/
def next (s : Layout) : Reading (Bool × Layout) := do
  let s := s.skipBlank (s.cursor.rest.length + 1)
  let s ← s.dropStale
  let s := s.closeBlocks s.cursor.column
  match s.cursor.rest with
  | [] => do
    let s ← (s.closeBlocks (-1)).dropKey
    return (true, s.push .textEnd)
  | a :: _ => return (false, ← s.read a)

/-- The tokens that are known for sure when the text cannot be read on: whether those from the start of
a key on stand behind the mark of a key is open. -/
def settled (s : Layout) : List Token :=
  let number := (s.keyStarts.map KeyStart.token).foldl min s.tokens.length
  s.tokens.reverse.take number

/-- Reads tokens to the end of the text or to a fault. -/
def run : Nat → Layout → List Token
  | 0, s => s.tokens.reverse
  | fuel + 1, s =>
    match s.next with
    | .error error => s.settled ++ [.failed error]
    | .ok (true, s) => s.tokens.reverse
    | .ok (false, s) => run fuel s

end Layout

/-- The tokens of a text. -/
def tokens (text : List Char) : List Token :=
  let start := Cursor.mk text 0 0 0
  let start := if start.sees (· == byteOrderMark) then start.step else start
  Layout.run (text.length + 1) { cursor := start }

end WasmPackaging.Yaml
