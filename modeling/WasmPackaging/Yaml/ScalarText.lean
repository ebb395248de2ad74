import WasmPackaging.Yaml.Cursor

/-!
The texts of scalars: quoted ones, plain ones and blocks of lines, with their line ends folded. Each
reader answers with the text and the place behind it.
-/

namespace WasmPackaging.Yaml

/-- A reading that may fail. -/
abbrev Reading (α : Type) := Except Error α

/-- Fails with a fault of the text. -/
def bad {α : Type} (fault : Fault) : Reading α := .error (.text fault)

/-- A line end and the empty lines behind it as content: folded to a space, or to the empty lines. -/
def folded (lineEnd breaks : List Char) : List Char :=
  if lineEnd ≠ ['\n'] then lineEnd ++ breaks else if breaks = [] then [' '] else breaks

/-! ## Quoted scalars -/

/-- Reads the empty lines within a quoted scalar and the blanks that indent the line behind them. -/
def quotedBreaks : Nat → Cursor → Reading (List Char × Cursor)
  | 0, c => .ok ([], c)
  | fuel + 1, c =>
    if c.atDocumentMark then bad (.misplaced "a document mark")
    else
      let c := c.skip fun a => a == ' ' || a == '\t'
      if c.sees isBreak then do
        let (lineEnd, c) := c.lineBreak
        let (more, c) ← quotedBreaks fuel c
        return (lineEnd ++ more, c)
      else .ok ([], c)

/-- What a letter behind a backslash stands for. -/
def escapeOf? : Char → Option Char
  | '0' => some '\x00'
  | 'a' => some '\x07'
  | 'b' => some '\x08'
  | 't' => some '\t'
  | '\t' => some '\t'
  | 'n' => some '\n'
  | 'v' => some '\x0b'
  | 'f' => some '\x0c'
  | 'r' => some '\r'
  | 'e' => some '\x1b'
  | ' ' => some ' '
  | '"' => some '"'
  | '\\' => some '\\'
  | '/' => some '/'
  | 'N' => some '\x85'
  | '_' => some '\xa0'
  | 'L' => some (Char.ofNat 0x2028)
  | 'P' => some (Char.ofNat 0x2029)
  | _ => none

/-- How many digits of a code point follow a letter behind a backslash. -/
def codeLength? : Char → Option Nat
  | 'x' => some 2
  | 'u' => some 4
  | 'U' => some 8
  | _ => none

/-- The value of a hexadecimal digit. -/
def hexValue? (c : Char) : Option Nat :=
  if c.isDigit then some (c.toNat - '0'.toNat)
  else if 'a' ≤ c && c ≤ 'f' then some (c.toNat - 'a'.toNat + 10)
  else if 'A' ≤ c && c ≤ 'F' then some (c.toNat - 'A'.toNat + 10)
  else none

/-- The number that some hexadecimal digits write. -/
def hexNumber? (digits : List Char) : Option Nat :=
  digits.foldlM (fun value c => (hexValue? c).map (value * 16 + ·)) 0

/-- The number that a number of digits at a place write. -/
def codeAt? (length : Nat) (c : Cursor) : Option Nat :=
  let digits := c.rest.take length
  if digits.length < length then none else hexNumber? digits

/-- The character that a number of digits at a place name. Half of a pair of code units is no character,
and two halves in a row are not taken for one. A reader that keeps a half goes on with a text that is no
Unicode and fails where that is encoded as UTF-8; here no text can hold it, and the document is not read. -/
def codePoint (length : Nat) (c : Cursor) : Reading (Char × Cursor) :=
  match codeAt? length c with
  | none => bad .badEscape
  | some code =>
    if 0x80000000 ≤ code then .error (.value .hugeCode)
    else if 0x110000 ≤ code then .error (.value .codePoint)
    else if 0xD800 ≤ code && code < 0xE000 then .error (.value .half)
    else .ok (Char.ofNat code, c.advance length)

/-- Reads a quoted scalar behind its opening quote. -/
def quotedScalar (double : Bool) : Nat → Cursor → Reading (List Char × Cursor)
  | 0, _ => bad (.unterminated "a quoted scalar")
  | fuel + 1, c =>
    let more (text : List Char) (c : Cursor) : Reading (List Char × Cursor) :=
      (quotedScalar double fuel c).map fun (rest, c) => (text ++ rest, c)
    match c.rest with
    | [] => bad (.unterminated "a quoted scalar")
    | a :: rest =>
      if a == ' ' || a == '\t' then
        let (blanks, c) := c.take fun a => a == ' ' || a == '\t'
        if c.sees isBreak then more [] c else more blanks c
      else if isBreak a then do
        let (lineEnd, c) := c.lineBreak
        let (breaks, c) ← quotedBreaks fuel c
        more (folded lineEnd breaks) c
      else if double then
        if a == '"' then .ok ([], c.step)
        else if a == '\\' then
          let c := c.step
          match c.rest with
          | [] => bad .badEscape
          | e :: _ =>
            match escapeOf? e, codeLength? e with
            | some character, _ => more [character] c.step
            | none, some length => do
              let (character, c) ← codePoint length c.step
              more [character] c
            | none, none =>
              if isBreak e then do
                let (breaks, c) ← quotedBreaks fuel c.lineBreak.2
                more breaks c
              else bad .badEscape
        else more [a] c.step
      else if a == '\'' then
        if rest.head? == some '\'' then more ['\''] (c.advance 2) else .ok ([], c.step)
      else more [a] c.step

/-! ## Plain scalars -/

/-- Whether a character ends a plain scalar within brackets. -/
def isFlowMark (c : Char) : Bool := c == ',' || c == '[' || c == ']' || c == '{' || c == '}'

/-- The run of characters at the start of a text that a plain scalar holds. -/
def plainRun (flow : Bool) : List Char → List Char
  | [] => []
  | a :: rest =>
    if isGap a || (a == ':' && endOr (fun b => isGap b || (flow && isFlowMark b)) rest) ||
      (flow && (isFlowMark a || a == '?')) then []
    else a :: plainRun flow rest

/-- Reads the empty lines and the indentation within a plain scalar; nothing if a document ends. -/
def plainBreaks : Nat → Cursor → Option (List Char) × Cursor
  | 0, c => (some [], c)
  | fuel + 1, c =>
    let c := c.skip (· == ' ')
    if c.sees isBreak then
      let (lineEnd, c) := c.lineBreak
      if c.atDocumentMark then (none, c)
      else
        let (more, c) := plainBreaks fuel c
        (more.map (lineEnd ++ ·), c)
    else (some [], c)

/-- What stands between two runs of a plain scalar: its content, nothing if the scalar ends there, the
place behind it, and whether a line ended. -/
def plainGap (c : Cursor) : Option (List Char) × Cursor × Bool :=
  let (blanks, c) := c.take (· == ' ')
  if c.sees isBreak then
    let (lineEnd, c) := c.lineBreak
    if c.atDocumentMark then (none, c, true)
    else
      let (breaks, c) := plainBreaks c.rest.length c
      (breaks.map (folded lineEnd), c, true)
  else (if blanks = [] then none else some blanks, c, false)

/-- Reads a plain scalar whose later lines are indented by a number of columns: its text, the place
behind it, and whether a line ended behind its last run. -/
def plainScalar (flow : Bool) (indent : Int) : Nat → Cursor → List Char × Cursor × Bool
  | 0, c => ([], c, false)
  | fuel + 1, c =>
    if c.sees (· == '#') then ([], c, false)
    else
      let run := plainRun flow c.rest
      if run = [] then ([], c, false)
      else
        match plainGap (c.advance run.length) with
        | (none, c, ended) => (run, c, ended)
        | (some gap, c, ended) =>
          if c.sees (· == '#') || (!flow && (c.column : Int) < indent) then (run, c, ended)
          else match plainScalar flow indent fuel c with
            | ([], c, _) => (run, c, ended)
            | (more, c, ended) => (run ++ gap ++ more, c, ended)

/-! ## Blocks of lines -/

/-- How the end of a block is kept: all line ends, none, or one. -/
inductive Chomping where
  | keep
  | strip
  | clip
  deriving DecidableEq

/-- The chomping that a sign asks for. -/
def chomping? : Char → Option Chomping
  | '+' => some .keep
  | '-' => some .strip
  | _ => none

/-- Reads the signs behind the mark of a block: its chomping, and its indentation if given. -/
def blockSigns (c : Cursor) : Reading (Chomping × Option Nat × Cursor) := do
  let sign (c : Cursor) : Option Chomping × Cursor :=
    match c.rest.head?.bind chomping? with
    | some chomping => (some chomping, c.step)
    | none => (none, c)
  let digit (c : Cursor) : Reading (Option Nat × Cursor) :=
    match c.rest.head? with
    | some a =>
      if a == '0' then bad .badIndent
      else if a.isDigit then .ok (some (a.toNat - '0'.toNat), c.step) else .ok (none, c)
    | none => .ok (none, c)
  let (first, c) := sign c
  let (indent, c) ← digit c
  let (second, c) := if first.isNone && indent.isSome then sign c else (none, c)
  if c.before fun a => a == ' ' || isBreak a then
    return ((first <|> second).getD .clip, indent, c)
  else bad (.misplaced "a character behind the mark of a block")

/-- Passes over the blanks and the comment at the end of a line. -/
def lineRemainder (c : Cursor) : Reading Cursor :=
  let c := c.skip (· == ' ')
  let c := if c.sees (· == '#') then c.skip (!isBreak ·) else c
  if c.before isBreak then .ok c.lineBreak.2 else bad (.misplaced "a character at the end of a line")

/-- Reads the empty lines at the start of a block, and the largest indentation among them. -/
def blockStart : Nat → Nat → Cursor → List Char × Nat × Cursor
  | 0, widest, c => ([], widest, c)
  | fuel + 1, widest, c =>
    let c := c.skip (· == ' ')
    let widest := max widest c.column
    if c.sees isBreak then
      let (lineEnd, c) := c.lineBreak
      let (breaks, widest, c) := blockStart fuel widest c
      (lineEnd ++ breaks, widest, c)
    else ([], widest, c)

/-- Passes over spaces up to a column. -/
def indentTo (indent : Nat) (c : Cursor) : Cursor :=
  c.advance ((c.rest.takeWhile (· == ' ')).take (indent - c.column)).length

/-- Reads the empty lines between the lines of a block. -/
def blockBreaks (indent : Nat) : Nat → Cursor → List Char × Cursor
  | 0, c => ([], c)
  | fuel + 1, c =>
    let c := indentTo indent c
    if c.sees isBreak then
      let (lineEnd, c) := c.lineBreak
      let (breaks, c) := blockBreaks indent fuel c
      (lineEnd ++ breaks, c)
    else ([], c)

/-- Reads the lines of a block from the first on: their text, the last line end, the empty lines behind
it, and the place. -/
def blockLines (fold : Bool) (indent : Nat) :
    Nat → Cursor → List Char × List Char × List Char × Cursor
  | 0, c => ([], [], [], c)
  | fuel + 1, c =>
    let blank := c.sees fun a => a == ' ' || a == '\t'
    let (text, c) := c.take (!isBreak ·)
    let (lineEnd, c) := c.lineBreak
    let (breaks, c) := blockBreaks indent fuel c
    if c.column = indent ∧ c.rest ≠ [] then
      let foldable := fold && lineEnd == ['\n'] && !blank && !c.sees fun a => a == ' ' || a == '\t'
      let joint := if foldable then (if breaks = [] then [' '] else []) else lineEnd
      let (more, last, tail, c) := blockLines fold indent fuel c
      (text ++ joint ++ breaks ++ more, last, tail, c)
    else (text, lineEnd, breaks, c)

/-- Reads a block behind its mark, within a collection of the given indentation. -/
def blockScalar (fold : Bool) (outer : Int) (c : Cursor) : Reading (List Char × Cursor) := do
  let (chomping, given, c) ← blockSigns c
  let c ← lineRemainder c
  let fuel := c.rest.length + 1
  let least := max 1 (outer + 1).toNat
  let (breaks, indent, c) := match given with
    | some n =>
      let indent := least + n - 1
      let (breaks, c) := blockBreaks indent fuel c
      (breaks, indent, c)
    | none =>
      let (breaks, widest, c) := blockStart fuel 0 c
      (breaks, max least widest, c)
  let (text, last, tail, c) :=
    if c.column = indent ∧ c.rest ≠ [] then
      let (text, last, tail, c) := blockLines fold indent fuel c
      (breaks ++ text, last, tail, c)
    else ([], [], breaks, c)
  return match chomping with
    | .strip => (text, c)
    | .clip => (text ++ last, c)
    | .keep => (text ++ last ++ tail, c)

end WasmPackaging.Yaml
