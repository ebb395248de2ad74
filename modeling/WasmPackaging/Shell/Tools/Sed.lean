import WasmPackaging.Shell.Regex
import WasmPackaging.Shell.Tools.Lines

/-!
The tool that edits lines by a script of its own. The script is read into a row of instructions in which
blocks and labels are places; a line goes through them, and what is left of it is written.
-/

namespace WasmPackaging.Shell

open Text

/-! ## Scripts -/

/-- A line that an instruction is for: by its number, the last one, by an expression (the last one that was
used, if none is given), or every so many lines. -/
inductive LineAddress where
  | number (n : Nat)
  | last
  | regex (r : Option CompiledRegex)
  | step (first step : Nat)

/-- The end of a range of lines. -/
inductive RangeStop where
  | address (a : LineAddress)
  | behind (n : Nat)
  | multiple (n : Nat)

/-- A part of a replacement: a text, a group of the match, or how letters are written from here on. -/
inductive ReplacementPart where
  | text (s : List Char)
  | group (number : Nat)
  | letters (case : Char)

/-- An exchange of what an expression describes. -/
structure Exchange where
  regex : Option CompiledRegex
  replacement : List ReplacementPart
  isGlobal : Bool := false
  number : Nat := 1
  prints : Bool := false
  file : Option String := none

/-- What an instruction does. Blocks hold the place of their end. -/
inductive EditVerb where
  | block (stop : Nat)
  | blockEnd
  | label (name : String)
  | lineNumber
  | append (text : List Char)
  | insert (text : List Char)
  | change (text : List Char)
  | branch (label : String)
  | branchIf (label : String)
  | branchUnless (label : String)
  | delete
  | deleteLine
  | get
  | getAppend
  | hold
  | holdAppend
  | exchangeHold
  | list
  | next
  | nextAppend
  | print
  | printLine
  | quit (status : Nat)
  | quitSilently (status : Nat)
  | readFile (name : String)
  | writeFile (name : String)
  | writeLine (name : String)
  | substitute (exchange : Exchange)
  | transliterate (pairs : List (Char × Char))
  | clear
  | fileName

/-- An instruction. -/
structure Edit where
  first : Option LineAddress
  second : Option RangeStop
  isNegated : Bool
  verb : EditVerb

/-- Whether a range is to be left where it starts if its end is there too. -/
def LineAddress.isZero : LineAddress → Bool
  | .number 0 => true
  | _ => false

/-! ## Reading scripts -/

/-- What is left of a script, and how much of it has been read. -/
structure EditSource where
  rest : List Char
  position : Nat := 0

/-- Why a text is no script: where that was noticed, and the cause. -/
structure EditFault where
  position : Nat
  cause : String

/-- A step of reading a script. -/
abbrev EditReader := StateT EditSource (Except EditFault)

namespace EditReader

/-- Fails. -/
def fail {α : Type} (cause : String) : EditReader α := do throw ⟨(← get).position, cause⟩

/-- Takes some characters. -/
def take (n : Nat) : EditReader Unit := modify fun s => ⟨s.rest.drop n, s.position + n⟩

/-- The next character. -/
def next? : EditReader (Option Char) := return (← get).rest.head?

/-- Takes characters that pass a test. -/
def takeWhile (test : Char → Bool) : EditReader (List Char) := do
  let run := (← get).rest.takeWhile test
  take run.length
  return run

/-- Takes a number. -/
def number : EditReader Nat := return decimal (← takeWhile Char.isDigit)

/-- Passes over blanks. -/
def blanks : EditReader Unit := do
  let _ ← takeWhile fun c => c == ' ' || c == '\t'

/-- A text up to a mark, where a backslash takes the mark's meaning away; nothing if the mark is missing. In an
expression, sets are passed over. -/
def delimited? (mark : Char) (isRegex : Bool) : Nat → List Char → Option (List Char × Nat)
  | 0, _ => none
  | fuel + 1, s =>
    let more (part : List Char) (n : Nat) (rest : List Char) : Option (List Char × Nat) :=
      (delimited? mark isRegex fuel rest).map fun (text, m) => (part ++ text, m + n)
    match s with
    | [] => none
    | '\\' :: c :: rest =>
      if c == mark && !(c == '&' && !isRegex) then
        more (if isRegex && c.isAlphanum then ['\\', c] else [c]) 2 rest
      else if c == 'n' && isRegex then more ['\n'] 2 rest
      else more ['\\', c] 2 rest
    | c :: rest =>
      if c == mark then some ([], 1)
      else if c == '\n' && isRegex then none
      else if c == '[' && isRegex then
        let start := match rest with
          | '^' :: ']' :: _ => ['^', ']']
          | '^' :: _ => ['^']
          | ']' :: _ => [']']
          | _ => []
        let body := (rest.drop start.length).takeWhile fun c => c != ']' && c != '\n'
        match (rest.drop start.length).drop body.length with
        | ']' :: behind =>
          let inner := (String.ofList body).replace "\\n" "\n" |>.toList
          more ('[' :: start ++ inner ++ [']']) (start.length + body.length + 2) behind
        | _ => more ['['] 1 rest
      else more [c] 1 rest

/-- Takes a text up to a mark. -/
def delimited (mark : Char) (isRegex : Bool) (cause : String) : EditReader (List Char) := do
  let s ← get
  match delimited? mark isRegex (s.rest.length + 1) s.rest with
  | some (text, n) =>
    take n
    return text
  | none =>
    take s.rest.length
    fail cause

/-- An expression with the escapes of controls read. -/
def withControls : List Char → List Char
  | '\\' :: 'a' :: rest => '\x07' :: withControls rest
  | '\\' :: 'f' :: rest => '\x0c' :: withControls rest
  | '\\' :: 't' :: rest => '\t' :: withControls rest
  | '\\' :: 'v' :: rest => '\x0b' :: withControls rest
  | '\\' :: 'r' :: rest => '\r' :: withControls rest
  | '\\' :: c :: rest => '\\' :: c :: withControls rest
  | c :: rest => c :: withControls rest
  | [] => []

/-- Makes an expression of a text; an empty one is the last one that was used. -/
def compiled (extended folds inLines : Bool) (text : List Char) : EditReader (Option CompiledRegex) := do
  if text.isEmpty then return none
  else match CompiledRegex.read extended folds inLines (withControls text) with
    | .ok r => return some r
    | .error fault => fail fault.message

/-- Reads an address, if one comes next. -/
def address? (extended : Bool) : EditReader (Option LineAddress) := do
  let regex (mark : Char) : EditReader (Option LineAddress) := do
    let text ← delimited mark true "unterminated address regex"
    let flags ← takeWhile fun c => c == 'I' || c == 'M'
    return some (.regex (← compiled extended (flags.contains 'I') (flags.contains 'M') text))
  match (← get).rest with
  | '/' :: _ =>
    take 1
    regex '/'
  | '\\' :: mark :: _ =>
    take 2
    regex mark
  | '$' :: _ =>
    take 1
    return some .last
  | c :: _ =>
    if c.isDigit then
      let n ← number
      if (← next?) == some '~' then
        take 1
        return some (.step n (← number))
      else return some (.number n)
    else return none
  | [] => return none

/-- Reads the end of a range. -/
def rangeStop (extended : Bool) : EditReader RangeStop := do
  match (← get).rest with
  | '+' :: _ =>
    take 1
    return .behind (← number)
  | '~' :: _ =>
    take 1
    return .multiple (← number)
  | _ =>
    match ← address? extended with
    | some (.step n _) => return .address (.number n)
    | some a => return .address a
    | none => fail "unexpected \x60,'"

/-- Reads the text that a command adds: up to a line end that no backslash takes the meaning from. -/
def addedText : Nat → EditReader (List Char)
  | 0 => return []
  | fuel + 1 => do
    match (← get).rest with
    | [] => return ['\n']
    | '\n' :: _ =>
      take 1
      return ['\n']
    | '\\' :: c :: _ =>
      take 2
      return c :: (← addedText fuel)
    | '\\' :: _ =>
      take 1
      return ['\n']
    | c :: _ =>
      take 1
      return c :: (← addedText fuel)

/-- Reads what stands behind a command that adds text. -/
def textBehind : EditReader (List Char) := do
  blanks
  let size := (← get).rest.length + 1
  match (← get).rest with
  | [] => fail "expected \\ after \x60a', \x60c' or \x60i'"
  | ['\\'] => return []
  | '\\' :: rest =>
    take 1
    let gap := rest.takeWhile fun c => c == ' ' || c == '\t'
    match rest.drop gap.length with
    | '\n' :: _ =>
      take (gap.length + 1)
      addedText size
    | [] => return []
    | _ => addedText size
  | _ => addedText size

/-- Reads the end of a command. -/
def commandEnd : EditReader Unit := do
  blanks
  match (← get).rest with
  | [] | '\x7d' :: _ | '#' :: _ => return
  | '\n' :: _ | ';' :: _ => take 1
  | _ =>
    take 1
    fail "extra characters after command"

/-- Reads a label. -/
def labelName : EditReader String := do
  blanks
  return String.ofList (← takeWhile fun c => c != ';' && c != '\n' && c != ' ' && c != '\t')

/-- Reads the rest of a line as the name of a file. -/
def namedFile : EditReader String := do
  blanks
  let name ← takeWhile (· != '\n')
  if name.isEmpty then fail "missing filename in r/R/w/W commands"
  return String.ofList (narrow name)

/-- The parts of a replacement. -/
def replacementParts : Nat → List Char → List ReplacementPart
  | 0, _ => []
  | _, [] => []
  | fuel + 1, s =>
    match s with
    | '\\' :: c :: rest =>
      if c.isDigit then .group (c.toNat - '0'.toNat) :: replacementParts fuel rest
      else if "LUElu".toList.contains c then .letters c :: replacementParts fuel rest
      else
        let c := match c with
          | 'n' => '\n'
          | 't' => '\t'
          | 'a' => '\x07'
          | 'f' => '\x0c'
          | 'v' => '\x0b'
          | 'r' => '\r'
          | c => c
        .text [c] :: replacementParts fuel rest
    | '&' :: rest => .group 0 :: replacementParts fuel rest
    | s =>
      let run := s.takeWhile fun c => c != '\\' && c != '&'
      if run.isEmpty then [.text s] else .text run :: replacementParts fuel (s.drop run.length)

/-- The flags of an exchange. -/
structure ExchangeFlags where
  isGlobal : Bool := false
  number : Option Nat := none
  prints : Bool := false
  folds : Bool := false
  inLines : Bool := false
  file : Option String := none

/-- Reads the flags of an exchange. -/
def exchangeFlags : Nat → ExchangeFlags → EditReader ExchangeFlags
  | 0, f => return f
  | fuel + 1, f => do
    match ← next? with
    | none => return f
    | some c =>
      if c.isDigit then
        let n ← number
        if n = 0 then fail "number option to \x60s' command may not be zero"
        else if f.number.isSome then fail "multiple number options to \x60s' command"
        else exchangeFlags fuel { f with number := some n }
      else match c with
        | '\x7d' | '#' => return f
        | '\n' | ';' =>
          take 1
          return f
        | ' ' | '\t' =>
          take 1
          exchangeFlags fuel f
        | 'g' =>
          take 1
          if f.isGlobal then fail "multiple \x60g' options to \x60s' command"
          exchangeFlags fuel { f with isGlobal := true }
        | 'p' =>
          take 1
          if f.prints then fail "multiple \x60p' options to \x60s' command"
          exchangeFlags fuel { f with prints := true }
        | 'i' | 'I' =>
          take 1
          exchangeFlags fuel { f with folds := true }
        | 'm' | 'M' =>
          take 1
          exchangeFlags fuel { f with inLines := true }
        | 'w' =>
          take 1
          return { f with file := some (← namedFile) }
        | _ =>
          take 1
          fail "unknown option to \x60s'"

/-- The characters of a text for an exchange of characters. -/
def exchangedChars : List Char → List Char
  | '\\' :: 'n' :: rest => '\n' :: exchangedChars rest
  | '\\' :: 't' :: rest => '\t' :: exchangedChars rest
  | '\\' :: '\\' :: rest => '\\' :: exchangedChars rest
  | c :: rest => c :: exchangedChars rest
  | [] => []

/-- Reads what a command does. -/
def verb (extended hasAddress hasRange : Bool) : EditReader EditVerb := do
  match ← next? with
  | none => fail "missing command"
  | some c =>
    take 1
    let plain (verb : EditVerb) : EditReader EditVerb := do
      commandEnd
      return verb
    let onOne (act : EditReader EditVerb) : EditReader EditVerb :=
      if hasRange then fail "command only uses one address" else act
    match c with
    | '\x7b' => return .block 0
    | '\x7d' =>
      if hasAddress then fail "\x7d doesn't want any addresses"
      commandEnd
      return .blockEnd
    | ':' =>
      if hasAddress then fail ": doesn't want any addresses"
      let name ← labelName
      if name == "" then fail "\":\" lacks a label"
      return .label name
    | '=' => plain .lineNumber
    | 'a' => return .append (← textBehind)
    | 'i' => return .insert (← textBehind)
    | 'c' => return .change (← textBehind)
    | 'b' => return .branch (← labelName)
    | 't' => return .branchIf (← labelName)
    | 'T' => return .branchUnless (← labelName)
    | 'd' => plain .delete
    | 'D' => plain .deleteLine
    | 'g' => plain .get
    | 'G' => plain .getAppend
    | 'h' => plain .hold
    | 'H' => plain .holdAppend
    | 'x' => plain .exchangeHold
    | 'l' =>
      blanks
      let _ ← number
      plain .list
    | 'n' => plain .next
    | 'N' => plain .nextAppend
    | 'p' => plain .print
    | 'P' => plain .printLine
    | 'q' => onOne do
      blanks
      let status ← number
      plain (.quit status)
    | 'Q' => onOne do
      blanks
      let status ← number
      plain (.quitSilently status)
    | 'r' => return .readFile (← namedFile)
    | 'w' => return .writeFile (← namedFile)
    | 'W' => return .writeLine (← namedFile)
    | 'z' => plain .clear
    | 'F' => plain .fileName
    | 's' =>
      let cause := "unterminated \x60s' command"
      match ← next? with
      | none => fail cause
      | some mark =>
        take 1
        if mark == '\n' || mark == '\\' then fail cause
        let pattern ← delimited mark true cause
        let replacement ← delimited mark false cause
        let flags ← exchangeFlags ((← get).rest.length + 1) {}
        let regex ← compiled extended flags.folds flags.inLines pattern
        let parts := replacementParts (replacement.length + 1) replacement
        let highest := parts.foldl (fun n part => match part with
          | .group m => max n m
          | _ => n) 0
        if regex.any fun r => r.groups < highest then
          fail s!"invalid reference \\{highest} on \x60s' command's RHS"
        return .substitute
          { regex, replacement := parts, isGlobal := flags.isGlobal, number := flags.number.getD 1,
            prints := flags.prints, file := flags.file }
    | 'y' =>
      let cause := "unterminated \x60y' command"
      match ← next? with
      | none => fail cause
      | some mark =>
        take 1
        let old := exchangedChars (← delimited mark false cause)
        let new := exchangedChars (← delimited mark false cause)
        if old.length != new.length then fail "strings for \x60y' command are different lengths"
        plain (.transliterate (old.zip new))
    | c => fail s!"unknown command: \x60{c}'"

/-- Reads a script. -/
def edits (extended : Bool) : Nat → EditReader (List Edit)
  | 0 => return []
  | fuel + 1 => do
    let _ ← takeWhile fun c => c == ' ' || c == '\t' || c == '\n' || c == ';'
    match (← get).rest with
    | [] => return []
    | '#' :: _ =>
      let _ ← takeWhile (· != '\n')
      edits extended fuel
    | _ =>
      let first ← address? extended
      let second ← do
        if first.isSome then
          blanks
          if (← next?) == some ',' then
            take 1
            blanks
            pure (some (← rangeStop extended))
          else pure none
        else pure none
      blanks
      match first, second with
      | some (.number 0), some (.address (.regex _)) => pure ()
      | some (.number 0), _ =>
        take 1
        fail "invalid usage of line address 0"
      | _, _ => pure ()
      let marks ← takeWhile fun c => c == '!' || c == ' '
      let verb ← verb extended first.isSome second.isSome
      let edit : Edit := ⟨first, second, marks.contains '!', verb⟩
      return edit :: (← edits extended fuel)

end EditReader

/-- A script with the places of the ends of its blocks put in; the number of blocks that are open is
counted. -/
def withBlockEnds (edits : Array Edit) : Except String (Array Edit) := do
  let (edits, open_) ← (List.range edits.size).foldlM (fun ((edits, open_) : Array Edit × List Nat) i =>
    match (edits[i]?).map Edit.verb with
    | some (.block _) => .ok (edits, i :: open_)
    | some .blockEnd =>
      match open_ with
      | [] => .error "unexpected \x60\x7d'"
      | start :: rest => .ok (edits.modify start fun edit => { edit with verb := .block i }, rest)
    | _ => .ok (edits, open_)) (edits, [])
  if open_.isEmpty then return edits else throw "unmatched \x60\x7b'"

/-! ## Editing -/

/-- A line of the input: its text, whether it is ended, and whether it is the last one. -/
structure EditLine where
  text : List Char
  isEnded : Bool
  isLast : Bool
  file : String

/-- What is written behind a line: a text, or the content of a file. -/
inductive Queued where
  | text (s : List Char)
  | file (name : String)

/-- The state of an editor. -/
structure Editor where
  space : List Char := []
  held : List Char := []
  line : EditLine := ⟨[], true, false, "-"⟩
  number : Nat := 0
  rest : List EditLine
  queue : List Queued := []
  wasReplaced : Bool := false
  active : List (Nat × Nat) := []
  lastRegex : Option CompiledRegex := none
  output : List String := []
  lacksEnd : Bool := false
  written : List (String × List String) := []

/-- How a line's way through a script ends: at its end, deleted, deleted with the way started anew, or with
the end of all editing. -/
inductive EditEnd where
  | finished
  | deleted
  | again
  | quit (status : Nat) (prints : Bool)

/-- How an editor is run: whether lines are written at their ends, what files hold, and what ends a line. -/
structure EditSettings where
  edits : Array Edit
  isQuiet : Bool
  ending : Char
  read : String → List Char

namespace Editor

/-- Writes a text that is ended or not. -/
def put (settings : EditSettings) (text : List Char) (isEnded : Bool) (e : Editor) : Editor :=
  let start := if e.lacksEnd then [String.singleton settings.ending] else []
  let ending := if isEnded then [settings.ending] else []
  { e with output := String.ofList (narrow text ++ ending) :: start ++ e.output, lacksEnd := !isEnded }

/-- Writes a text as it stands. -/
def putRaw (settings : EditSettings) (octets : List Char) (e : Editor) : Editor :=
  if octets.isEmpty then e
  else
    let start := if e.lacksEnd then [String.singleton settings.ending] else []
    { e with output := String.ofList octets :: start ++ e.output, lacksEnd := false }

/-- Writes a text to a file. -/
def putTo (settings : EditSettings) (name : String) (text : List Char) (e : Editor) : Editor :=
  if name == "/dev/stdout" then e.put settings text true
  else
    let part := String.ofList (narrow text ++ [settings.ending])
    { e with written := e.written.map fun (other, parts) =>
      if other == name then (other, part :: parts) else (other, parts) }

/-- Writes the line. -/
def putSpace (settings : EditSettings) (e : Editor) : Editor := e.put settings e.space e.line.isEnded

/-- Writes what is queued. -/
def flush (settings : EditSettings) (e : Editor) : Editor :=
  e.queue.foldl (fun e queued => match queued with
    | .text s => e.putRaw settings (narrow s)
    | .file name => e.putRaw settings (settings.read name)) { e with queue := [] }

/-- Goes to the next line. -/
def advance (e : Editor) : Option Editor :=
  match e.rest with
  | [] => none
  | line :: rest => some { e with line, rest, number := e.number + 1 }

/-- The expression that is meant. -/
def regexOr (e : Editor) (r : Option CompiledRegex) : Option CompiledRegex := r.or e.lastRegex

/-- Whether an address is for the line; the expression it uses becomes the last one. -/
def isAt (e : Editor) : LineAddress → Bool × Editor
  | .number n => (e.number == n, e)
  | .last => (e.line.isLast, e)
  | .step first step =>
    (if step = 0 then e.number == first else first ≤ e.number && (e.number - first) % step == 0, e)
  | .regex r =>
    match e.regexOr r with
    | none => (false, e)
    | some r => ((r.find? (.ofList r e.space) 0).isSome, { e with lastRegex := some r })

/-- Whether a range that starts with the line ends with it too: one whose end is known by its number. -/
def rangeEnd (e : Editor) (stop : RangeStop) : Option Nat :=
  match stop with
  | .address (.number n) => some n
  | .behind n => some (e.number + n)
  | .multiple n => some (if n = 0 then e.number else (e.number + n - 1) / n * n)
  | .address _ => none

/-- Whether an instruction is for the line. Ranges are remembered by the place of the instruction with the
number of the line on which they end, which is zero where an expression tells. -/
def selects (place : Nat) (edit : Edit) (e : Editor) : Bool × Editor :=
  match edit.first, edit.second with
  | none, _ => (true, e)
  | some first, none => e.isAt first
  | some first, some stop =>
    let without := e.active.filter fun entry => entry.1 != place
    let starts (e : Editor) : Bool × Editor :=
      let (isStart, e) := e.isAt first
      if !isStart then (false, e)
      else match e.rangeEnd stop with
        | some n => (true, if n ≤ e.number then e else { e with active := (place, n) :: without })
        | none => (true, if e.line.isLast then e else { e with active := (place, 0) :: without })
    let stops (e : Editor) : Bool × Editor :=
      match stop with
      | .address a =>
        let (isStop, e) := e.isAt a
        (true, if isStop then { e with active := without } else e)
      | _ => (true, e)
    match e.active.lookup place with
    | some 0 => stops e
    | some n =>
      if e.number < n then (true, e)
      else if e.number == n then (true, { e with active := without })
      else starts { e with active := without }
    | none =>
      if first.isZero && e.number == 1 then
        stops { e with active := (place, 0) :: without }
      else starts e

/-- Whether the range of an instruction goes on behind the line. -/
def isWithin (place : Nat) (e : Editor) : Bool := e.active.any fun entry => entry.1 == place

/-- A text with its letters written as asked for: all of them, and the first one. -/
def recased (all first : Option Char) (s : List Char) : List Char :=
  let s := match all with
    | some 'U' => s.map Char.toUpper
    | some 'L' => s.map Char.toLower
    | _ => s
  match first, s with
  | some 'u', c :: rest => c.toUpper :: rest
  | some 'l', c :: rest => c.toLower :: rest
  | _, s => s

/-- What is put in for a match. -/
def replacement (chars : Array Char) (m : RegexMatch) : List ReplacementPart → Option Char → Option Char → List Char
  | [], _, _ => []
  | .letters 'E' :: rest, _, first => replacement chars m rest none first
  | .letters c :: rest, all, first =>
    if c.isUpper then replacement chars m rest (some c) first else replacement chars m rest all (some c)
  | .text s :: rest, all, first =>
    recased all first s ++ replacement chars m rest all (if s.isEmpty then first else none)
  | .group n :: rest, all, first =>
    let s := m.group chars n
    recased all first s ++ replacement chars m rest all (if s.isEmpty then first else none)

/-- Makes an exchange; answers whether there was anything to exchange. -/
def exchange (x : Exchange) (e : Editor) : Bool × Editor :=
  match e.regexOr x.regex with
  | none => (false, e)
  | some r =>
    let e := { e with lastRegex := some r }
    let t : MatchedText := .ofList r e.space
    let chars := e.space.toArray
    let found := if x.isGlobal || x.number > 1 then r.findAll t else (r.find? t 0).toList
    let found := (found.drop (x.number - 1)).take (if x.isGlobal then found.length else 1)
    if found.isEmpty then (false, e)
    else
      let (parts, behind) := found.foldl (fun ((parts, place) : List (List Char) × Nat) m =>
        (replacement chars m x.replacement none none :: (chars.extract place m.start).toList :: parts, m.stop))
        ([], 0)
      (true, { e with space := parts.reverse.flatten ++ (chars.extract behind chars.size).toList })

/-- The line made visible, in lines of a width. -/
def visibleLines (width : Nat) (s : List Char) : List Char :=
  let shown (c : Char) : List Char :=
    match c with
    | '\\' => ['\\', '\\']
    | '\x07' => ['\\', 'a']
    | '\x08' => ['\\', 'b']
    | '\x0c' => ['\\', 'f']
    | '\n' => ['\\', 'n']
    | '\r' => ['\\', 'r']
    | '\t' => ['\\', 't']
    | '\x0b' => ['\\', 'v']
    | c => if c < ' ' || c.toNat ≥ 127 then '\\' :: (Nat.toDigits 8 (c.toNat + 512)).drop 1 else [c]
  let (text, _) := (narrow s).foldl (fun ((text, column) : List Char × Nat) c =>
    let part := shown c
    if column + part.length > width - 1 then (part.reverse ++ '\n' :: '\\' :: text, part.length)
    else (part.reverse ++ text, column + part.length)) ([], 0)
  text.reverse ++ ['$']

/-- The place of a label; the end of the script for none. -/
def labelPlace (settings : EditSettings) (name : String) : Nat :=
  if name == "" then settings.edits.size
  else (settings.edits.findIdx? fun edit => match edit.verb with
    | .label other => other == name
    | _ => false).getD settings.edits.size

/-- The line up to its first line end within, and what is behind that. -/
def firstLine (s : List Char) : List Char × Option (List Char) :=
  let line := s.takeWhile (· != '\n')
  (line, match s.drop line.length with
    | _ :: rest => some rest
    | [] => none)

/-- Sends the line through the script from a place on. -/
def follow (settings : EditSettings) : Nat → Nat → Editor → EditEnd × Editor
  | 0, _, e => (.finished, e)
  | fuel + 1, place, e =>
    match settings.edits[place]? with
    | none => (.finished, e)
    | some edit =>
      let (isSelected, e) := e.selects place edit
      let go (e : Editor) : EditEnd × Editor := follow settings fuel (place + 1) e
      let jump (name : String) (e : Editor) : EditEnd × Editor :=
        follow settings fuel (labelPlace settings name) e
      if isSelected == edit.isNegated then
        match edit.verb with
        | .block stop => follow settings fuel (stop + 1) e
        | _ => go e
      else
        let line : List Char := ['\n']
        match edit.verb with
        | .block _ | .blockEnd | .label _ => go e
        | .lineNumber => go (e.put settings (toString e.number).toList true)
        | .append text => go { e with queue := e.queue ++ [.text text] }
        | .insert text => go (e.putRaw settings (narrow text))
        | .change text =>
          let isInner := edit.second.isSome && !edit.isNegated && e.isWithin place
          (.deleted, if isInner then e else e.putRaw settings (narrow text))
        | .branch name => jump name e
        | .branchIf name => if e.wasReplaced then jump name { e with wasReplaced := false } else go e
        | .branchUnless name => if e.wasReplaced then go { e with wasReplaced := false } else jump name e
        | .delete => (.deleted, e)
        | .deleteLine => match firstLine e.space with
          | (_, some rest) => (.again, { e with space := rest })
          | (_, none) => (.deleted, e)
        | .get => go { e with space := e.held }
        | .getAppend => go { e with space := e.space ++ line ++ e.held }
        | .hold => go { e with held := e.space }
        | .holdAppend => go { e with held := e.held ++ line ++ e.space }
        | .exchangeHold => go { e with space := e.held, held := e.space }
        | .list => go (e.put settings (visibleLines 70 e.space) true)
        | .next =>
          if e.rest.isEmpty then (.quit 0 true, e)
          else
            let e := (if settings.isQuiet then e else e.putSpace settings).flush settings
            match e.advance with
            | some e => go { e with space := e.line.text }
            | none => (.quit 0 false, e)
        | .nextAppend =>
          if e.rest.isEmpty then (.quit 0 true, e)
          else match (e.flush settings).advance with
            | some e => go { e with space := e.space ++ line ++ e.line.text }
            | none => (.quit 0 true, e)
        | .print => go (e.putSpace settings)
        | .printLine => go (e.put settings (firstLine e.space).1 true)
        | .quit status => (.quit status true, e)
        | .quitSilently status => (.quit status false, e)
        | .readFile name => go { e with queue := e.queue ++ [.file name] }
        | .writeFile name => go (e.putTo settings name e.space)
        | .writeLine name => go (e.putTo settings name (firstLine e.space).1)
        | .clear => go { e with space := [] }
        | .fileName => go (e.put settings (widen e.line.file.toList) true)
        | .transliterate pairs =>
          go { e with space := e.space.map fun c => (pairs.lookup c).getD c }
        | .substitute x =>
          let (isDone, e) := e.exchange x
          if !isDone then go e
          else
            let e := { e with wasReplaced := true }
            let e := if x.prints then e.putSpace settings else e
            go (match x.file with
              | some name => e.putTo settings name e.space
              | none => e)

/-- The fuel with which a line is sent through a script. -/
def wayFuel : Nat := 200000

/-- Edits line after line; answers with the status of the end. -/
def run (settings : EditSettings) : Nat → Bool → Editor → Nat × Bool × Editor
  | 0, _, e => (0, false, e)
  | fuel + 1, isAgain, e =>
    let started? := if isAgain then some e
      else e.advance.map fun e => { e with space := e.line.text, wasReplaced := false }
    match started? with
    | none => (0, false, e)
    | some e =>
      let (ending, e) := follow settings wayFuel 0 e
      let finish (prints : Bool) (e : Editor) : Editor :=
        (if prints && !settings.isQuiet then e.putSpace settings else e).flush settings
      match ending with
      | .finished => run settings fuel false (finish true e)
      | .deleted => run settings fuel false (finish false e)
      | .again => run settings fuel true (finish false e)
      | .quit status prints => (status, true, if prints then finish true e else e)

end Editor

/-- The lines of an input. -/
def editLines (ending : Char) (file : String) (content : List Char) : List EditLine :=
  let lines := Extent.units ⟨true, ⟨none, 0⟩⟩ ending content
  lines.map fun line =>
    let isEnded := line.getLast? == some ending
    ⟨widen (if isEnded then line.dropLast else line), isEnded, false, file⟩

/-- Lines of which the last one is known to be that. -/
def withLastMarked (lines : List EditLine) : List EditLine :=
  match lines.reverse with
  | [] => []
  | last :: rest => ({ last with isLast := true } :: rest).reverse

/-- The files that a script writes to. -/
def writtenFiles (edits : Array Edit) : List String :=
  edits.toList.filterMap fun edit => match edit.verb with
    | .writeFile name | .writeLine name => some name
    | .substitute x => x.file
    | _ => none

/-- The files that a script reads. -/
def filesRead (edits : Array Edit) : List String :=
  edits.toList.filterMap fun edit => match edit.verb with
    | .readFile name => some name
    | _ => none

/-- The first label that a script jumps to and does not have. -/
def missingLabel? (edits : Array Edit) : Option String :=
  let labels := edits.toList.filterMap fun edit => match edit.verb with
    | .label name => some name
    | _ => none
  edits.toList.findSome? fun edit => match edit.verb with
    | .branch name | .branchIf name | .branchUnless name =>
      if name == "" || labels.contains name then none else some name
    | _ => none

/-- A script from its parts, each a line or several; or the status and the cause of its refusal. -/
def readEdits (extended : Bool) (parts : List String) : Except (Int × String) (Array Edit) :=
  let texts := parts.map fun part => widen part.toList
  let text := joinWith ['\n'] texts
  let place (position : Nat) : Nat × Nat :=
    (texts.foldl (fun ((number, before, isFound) : Nat × Nat × Bool) part =>
      if isFound || position ≤ before + part.length then (number, before, true)
      else (number + 1, before + part.length + 1, false)) (1, 0, false)) |> fun (number, before, _) =>
        (min number (max texts.length 1), position - before)
  let shown (number position : Nat) (cause : String) : String :=
    s!"sed: -e expression #{number}, char {position}: {cause}"
  match (EditReader.edits extended (text.length + 1)).run { rest := text } with
  | .error fault =>
    let (number, position) := place fault.position
    .error (1, shown number position fault.cause)
  | .ok (edits, _) =>
    match withBlockEnds edits.toArray with
    | .error cause =>
      let isClosing := cause.startsWith "unexpected"
      .error (1, shown 1 (if isClosing then text.length else 0) cause)
    | .ok edits =>
      match missingLabel? edits with
      | some name => .error (4, s!"sed: can't find label for jump to \x60{name}'")
      | none => .ok edits

/-- Edits its inputs by a script. -/
def sed : Tool := fun arguments => do
  let table : FlagTable :=
    { tool := "sed", letters := "nErsuz", valued := "efl", optional := "i",
      long := [("quiet", 'n'), ("silent", 'n'), ("expression", 'e'), ("file", 'f'), ("regexp-extended", 'E'),
        ("in-place", 'i'), ("separate", 's'), ("unbuffered", 'u'), ("null-data", 'z'), ("line-length", 'l')] }
  match table.read arguments with
  | .error complaint =>
    Act.failing 1 (String.ofList (complaint.toList.takeWhile (· != '\n')))
  | .ok given => do
    let (scripts, isWell) ← given.flags.foldlM (fun ((scripts, isWell) : List String × Bool) flag => do
      match flag with
      | ('e', text) => return (scripts ++ [text], isWell)
      | ('f', name) =>
        match ← contentOf name with
        | .ok content => return (scripts ++ [String.ofList (withoutLineEnd content)], isWell)
        | .error fault =>
          Act.complain s!"sed: couldn't open file {name}: {fault.text}"
          return (scripts, false)
      | _ => return (scripts, isWell)) ([], true)
    let hasScript := given.has 'e' || given.has 'f'
    let operands := if hasScript then given.operands else given.operands.drop 1
    let scripts := if hasScript then scripts else given.operands.take 1
    if !isWell then Act.ended 1
    else if scripts.isEmpty then
      Act.failing 1 "Usage: sed [OPTION]... \x7bscript-only-if-no-other-script\x7d [input-file]..."
    else
      let isSilent := (scripts.headD "").startsWith "#n\n" || scripts.headD "" == "#n"
      match readEdits (given.has 'E' || given.has 'r') scripts with
      | .error (status, cause) => Act.failing status cause
      | .ok edits =>
        let ending := if given.has 'z' then '\x00' else '\n'
        let refusal (name : String) : Fault → String
          | .isDirectory =>
            if given.has 'i' then s!"sed: couldn't edit {name}: not a regular file"
            else s!"sed: read error on {name}: Is a directory"
          | fault => s!"sed: can't read {name}: {fault.text}"
        let contents ← (inputNames operands).mapM fun name => do
          match ← contentOf name with
          | .ok content => return some (name, content)
          | .error fault =>
            Act.complain (refusal name fault)
            return none
        let readable := contents.filterMap id
        let added ← (filesRead edits).mapM fun name => do
          match ← Act.readFile name with
          | .ok content => return (name, content)
          | .error _ => return (name, [])
        let settings : EditSettings :=
          { edits, isQuiet := given.has 'n' || isSilent, ending, read := fun name => (added.lookup name).getD [] }
        let isSeparate := given.has 's' || given.has 'i'
        let groups := readable.map fun (name, content) => editLines ending name content
        let groups := if isSeparate then groups else [groups.flatten]
        let names := readable.map Prod.fst
        let start : Editor := { rest := [], written := (writtenFiles edits).eraseDups.map (·, []) }
        let rec go : List (List EditLine) → List String → Editor → Act (Nat × Editor)
          | [], _, e => return (0, e)
          | lines :: more, names, e => do
            let e := { e with rest := withLastMarked lines, number := if isSeparate then 0 else e.number }
            let (status, isOver, e) := e.run settings (2 * lines.length + 2 * settings.edits.size + 100000) false
            if given.has 'i' then
              let name := names.headD ""
              let left := if isOver then e.rest else []
              let e := left.foldl (fun e line => e.put settings line.text line.isEnded) e
              let text := String.join e.output.reverse
              let path ← Act.path name
              let suffix := (given.value? 'i').getD ""
              if suffix != "" then
                let backup := if suffix.toList.contains '*' then suffix.replace "*" (baseName name) else name ++ suffix
                let backupPath ← Act.path backup
                let content := (readable.lookup name).getD []
                let _ ← Act.changeFiles (·.write backupPath (toBytes content))
              let _ ← Act.changeFiles (·.write path (toBytes text.toList))
              let e := { e with output := [], lacksEnd := false }
              if isOver then return (status, e) else go more (names.drop 1) e
            else if isOver then return (status, e)
            else go more (names.drop 1) e
        let (status, e) ← go groups names start
        Act.say (String.join e.output.reverse)
        e.written.forM fun (name, parts) => do
          let text := String.join parts.reverse
          if name == "/dev/stderr" then
            let _ ← Act.writeTo 2 text
          else
            let path ← Act.path name
            let _ ← Act.changeFiles (·.write path (toBytes text.toList))
        Act.ended (if contents.any Option.isNone && status == 0 then 2 else status)

end WasmPackaging.Shell
