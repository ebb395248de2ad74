import WasmPackaging.Shell.Tools.Arguments
import WasmPackaging.Shell.Tools.Format

/-!
Tools that write what their arguments say: lines, texts by a format, ranges of numbers, and parts of
paths.
-/

namespace WasmPackaging.Shell

open Text

/-- A tool that writes its output at its end, behind its complaints. -/
def buffered (tool : Tool) : Tool := fun arguments => do
  let before := (← get).descriptors
  let sink ← Act.open_ (.sink Act.endless [])
  Act.connect 1 (some sink)
  tool arguments
  let text ← Act.written sink
  modify fun p => { p with descriptors := before }
  Act.release sink
  Act.say text

/-! ## Escapes -/

/-- The value of an octal digit. -/
def octalDigit? (c : Char) : Option Nat :=
  if '0' ≤ c && c ≤ '7' then some (c.toNat - '0'.toNat) else none

/-- The character that up to a number of octal digits write, and what is behind them. -/
def octal (most : Nat) (s : List Char) : Char × List Char :=
  let digits := (s.takeWhile fun c => (octalDigit? c).isSome).take most
  let n := digits.foldl (fun n c => n * 8 + (octalDigit? c).getD 0) 0
  (Char.ofNat (n % 256), s.drop digits.length)

/-- What a letter behind a backslash stands for. -/
def controlOf? : Char → Option Char
  | 'a' => some '\x07'
  | 'b' => some '\x08'
  | 'e' => some '\x1b'
  | 'f' => some '\x0c'
  | 'n' => some '\n'
  | 'r' => some '\r'
  | 't' => some '\t'
  | 'v' => some '\x0b'
  | '\\' => some '\\'
  | _ => none

/-- How escapes are read: whether octal numbers may do without a zero before them, whether hexadecimal ones
count, and which marks a backslash is taken off from. -/
structure EscapeRules where
  bareOctal : Bool := false
  hexadecimal : Bool := false
  marks : List Char := []

/-- A text with its escapes read; tells whether it went to the end, or was cut off by a backslash and a
c. -/
def unescaped (rules : EscapeRules) : Nat → List Char → List Char × Bool
  | 0, s => (s, true)
  | fuel + 1, s =>
    let more (here : List Char) (rest : List Char) : List Char × Bool :=
      let (after, whole) := unescaped rules fuel rest
      (here ++ after, whole)
    match s with
    | [] => ([], true)
    | '\\' :: 'c' :: _ => ([], false)
    | '\\' :: '0' :: rest =>
      let (c, rest) := octal 3 rest
      more [c] rest
    | '\\' :: 'x' :: rest =>
      let digits := (rest.takeWhile leadingNumber.inHex).take 2
      if rules.hexadecimal && !digits.isEmpty then
        more [Char.ofNat (digits.foldl (fun n c => n * 16 + (digitOfBase? 16 c).getD 0) 0)]
          (rest.drop digits.length)
      else more ['\\', 'x'] rest
    | '\\' :: c :: rest =>
      if rules.bareOctal && (octalDigit? c).isSome then
        let (c, rest) := octal 3 (c :: rest)
        more [c] rest
      else if rules.marks.contains c then more [c] rest
      else match controlOf? c with
        | some control => more [control] rest
        | none => more ['\\', c] rest
    | c :: rest => more [c] rest

/-- A text with its escapes read. -/
def withEscapes (rules : EscapeRules) (s : String) : String × Bool :=
  let (text, whole) := unescaped rules (s.length + 1) s.toList
  (String.ofList text, whole)

/-! ## Lines -/

/-- Writes its arguments in a line, with escapes. -/
def echo : Tool := fun arguments => do
  let (bare, arguments) := match arguments with
    | "-n" :: rest => (true, rest)
    | rest => (false, rest)
  let (text, whole) := withEscapes {} (" ".intercalate arguments)
  Act.say (if bare || !whole then text else text ++ "\n")
  Act.ended 0

/-- Writes its arguments in a line, as they stand unless its flags ask for something else. -/
def echoProgram (bare escapes : Bool) : Tool
  | first :: rest =>
    match first.toList with
    | '-' :: flag :: flags =>
      if (flag :: flags).all "neE".toList.contains then
        let last := (flag :: flags).reverse.find? (· != 'n')
        echoProgram (bare || (flag :: flags).contains 'n') ((last.map (· == 'e')).getD escapes) rest
      else line bare escapes (first :: rest)
    | _ => line bare escapes (first :: rest)
  | [] => line bare escapes []
where
  /-- Writes the line. -/
  line (bare escapes : Bool) : Tool := fun arguments => do
    let text := " ".intercalate arguments
    let (text, whole) :=
      if escapes then withEscapes { hexadecimal := true } text else (text, true)
    Act.say (if bare || !whole then text else text ++ "\n")
    Act.ended 0

/-! ## Formats -/

/-- A number that an argument writes, and what is wrong with it: nothing, that no number starts it, that
something follows the number, or that the number is too large. -/
inductive NumberComplaint where
  | none
  | noNumber
  | rest
  | tooLarge

/-- The whole number that an argument of a format writes. -/
def argumentNumber (s : String) : Int × NumberComplaint :=
  match s.toList with
  | [] => (0, .none)
  | c :: rest =>
    if c == '"' || c == '\'' then ((rest.head?.map fun c => (c.toNat : Int)).getD 0, .none)
    else
      let t := (c :: rest).dropWhile isNumberSpace
      let digits := Text.unsigned t
      let (n, behind) := leadingNumber digits
      if !digits.head?.any Char.isDigit then (0, .noNumber)
      else
        let n := if isNegative t then -n else n
        let large := (digits.takeWhile Char.isDigit).length > 18 &&
          decimal (digits.takeWhile Char.isDigit) ≥ Nat.pow 2 63 && digits.head? != some '0'
        (n, if behind ≠ [] then .rest else if large then .tooLarge else .none)

/-- The longest start of a text that writes a real, and what is behind. -/
def leadingReal (s : List Char) : Option (Float × List Char) :=
  let lengths := (List.range (s.length + 1)).reverse
  lengths.findSome? fun n =>
    let start := s.take n
    if n = 0 || start.getLast?.any isNumberSpace then none
    else (real? start).map (·, s.drop n)

/-- The real that an argument of a format writes. -/
def argumentReal (s : String) : Float × NumberComplaint :=
  match s.toList with
  | [] => (0.0, .none)
  | c :: rest =>
    if c == '"' || c == '\'' then (Float.ofNat ((rest.head?.map Char.toNat).getD 0), .none)
    else match leadingReal (c :: rest) with
      | none => (0.0, .noNumber)
      | some (x, behind) => (x, if behind = [] then .none else .rest)

/-- What differs between the shell's own writing by a format and that of the tool: how arguments that are
no numbers and wrong formats are complained about. -/
structure FormatDialect where
  escapes : EscapeRules
  noNumber : String → String
  rest : String → String
  tooLarge : String → String
  badDirective : String → String
  missingLetter : String → String
  failure : Int

/-- A text in the quotes that tools put around what they complain about. -/
def curlyQuoted (s : String) : String := ofText "‘" ++ s ++ ofText "’"

/-- The shell's own dialect. -/
def shellDialect : FormatDialect where
  escapes := { bareOctal := true, marks := ['"', '\''] }
  noNumber s := s!"{s}: expected numeric value"
  rest s := s!"{s}: not completely converted"
  tooLarge s := s!"{s}: Numerical result out of range"
  badDirective s := s!"{s}: invalid directive"
  missingLetter _ := "missing format character"
  failure := 2

/-- The dialect of the tool. -/
def toolDialect : FormatDialect where
  escapes := { bareOctal := true, hexadecimal := true, marks := ['"'] }
  noNumber s := s!"{curlyQuoted s}: expected a numeric value"
  rest s := s!"{curlyQuoted s}: value not completely converted"
  tooLarge s := s!"{curlyQuoted s}: Numerical result out of range"
  badDirective s := s!"{s}: invalid conversion specification"
  missingLetter s := s!"{s}: invalid conversion specification"
  failure := 1

/-- A text that is written by a format: what is written so far, the last part first, the arguments that are
left, whether one was used, the status, and the complaints so far. -/
structure Formatting where
  parts : List String := []
  arguments : List String
  used : Bool := false
  isOver : Bool := false
  status : Int := 0
  complaints : List String := []

namespace Formatting

/-- Puts a text behind. -/
def say (f : Formatting) (text : String) : Formatting := { f with parts := text :: f.parts }

/-- Takes the next argument. -/
def take (f : Formatting) : Option String × Formatting :=
  match f.arguments with
  | [] => (none, f)
  | first :: rest => (some first, { f with arguments := rest, used := true })

/-- Notes a complaint. -/
def complain (f : Formatting) (status : Int) (text : String) : Formatting :=
  { f with status, complaints := text :: f.complaints }

/-- Notes what is wrong with the number that an argument writes. -/
def note (dialect : FormatDialect) (f : Formatting) (s : String) : NumberComplaint → Formatting
  | .none => f
  | .noNumber => f.complain 1 (dialect.noNumber s)
  | .rest => f.complain 1 (dialect.rest s)
  | .tooLarge => f.complain 1 (dialect.tooLarge s)

/-- Takes a whole number. -/
def takeNumber (dialect : FormatDialect) (f : Formatting) : Int × Formatting :=
  match f.take with
  | (none, f) => (0, f)
  | (some s, f) =>
    let (n, complaint) := argumentNumber s
    (n, f.note dialect s complaint)

/-- Writes the next argument as a directive says; nothing if its letter is unknown. -/
def convert (dialect : FormatDialect) (f : Formatting) (w : WrittenDirective) : Option Formatting :=
  let (width, f) := if w.widthGiven then f.takeNumber dialect else ((w.directive.width : Int), f)
  let (precision, f) :=
    if w.precisionGiven then
      let (n, f) := f.takeNumber dialect
      (if n < 0 then none else some n.toNat, f)
    else (w.directive.precision, f)
  let flags := if width < 0 then '-' :: w.directive.flags else w.directive.flags
  let d : Directive := { w.directive with flags, width := width.natAbs, precision }
  match d.letter with
  | 's' =>
    let (s, f) := f.take
    some (f.say (d.text (s.getD "")))
  | 'b' =>
    let (s, f) := f.take
    let (text, whole) := withEscapes { dialect.escapes with marks := [] } (s.getD "")
    some { f.say (d.text text) with isOver := !whole }
  | 'c' =>
    let (s, f) := f.take
    let c := String.ofList [((s.getD "").toList.headD '\x00')]
    some (f.say ({ d with precision := none }.text c))
  | 'd' | 'i' =>
    let (n, f) := f.takeNumber dialect
    some (f.say (d.signed n))
  | 'u' | 'o' | 'x' | 'X' =>
    let (n, f) := f.takeNumber dialect
    some (f.say (d.unsigned n))
  | 'e' | 'E' | 'f' | 'F' | 'g' | 'G' =>
    match f.take with
    | (none, f) => some (f.say (d.real 0.0))
    | (some s, f) =>
      let (x, complaint) := argumentReal s
      some ((f.note dialect s complaint).say (d.real x))
  | _ => none

/-- Writes by a format once. -/
def once (dialect : FormatDialect) : Nat → List Char → Formatting → Formatting
  | 0, _, f => f
  | fuel + 1, s, f =>
    if f.isOver then f
    else match s with
      | [] => f
      | '%' :: '%' :: rest => once dialect fuel rest (f.say "%")
      | '%' :: rest =>
        match WrittenDirective.read rest with
        | none => { f.complain dialect.failure (dialect.missingLetter "%") with isOver := true }
        | some w =>
          match f.convert dialect w with
          | some f => once dialect fuel w.rest f
          | none =>
            let shown := String.ofList ('%' :: rest.take w.length)
            { f.complain dialect.failure (dialect.badDirective shown) with isOver := true }
      | '\\' :: c :: rest =>
        if c == 'c' && !dialect.escapes.hexadecimal then once dialect fuel rest (f.say "\\c")
        else
          let escape := if (octalDigit? c).isSome then
              (c :: rest).takeWhile (fun c => (octalDigit? c).isSome) |>.take 3
            else if c == 'x' then c :: (rest.takeWhile leadingNumber.inHex).take 2 else [c]
          let escaped := if (octalDigit? c).isSome then ([(octal 3 escape).1], true)
            else unescaped dialect.escapes 8 ('\\' :: escape)
          let f := f.say (String.ofList escaped.1)
          once dialect fuel ((c :: rest).drop escape.length) { f with isOver := !escaped.2 }
      | c :: rest =>
        let run := c :: rest.takeWhile fun c => c != '%' && c != '\\'
        once dialect fuel (s.drop run.length) (f.say (String.ofList run))

/-- Writes by a format, again as long as there are arguments that it uses up. -/
def all (dialect : FormatDialect) (format : List Char) : Nat → Formatting → Formatting
  | 0, f => f
  | fuel + 1, f =>
    let f := once dialect (format.length + 1) format { f with used := false }
    if f.isOver || f.arguments.isEmpty || !f.used then f else all dialect format fuel f

/-- The text of all that was written. -/
def text (f : Formatting) : String := String.join f.parts.reverse

end Formatting

/-- A text written by a format with some arguments. -/
def formatted (dialect : FormatDialect) (format : String) (arguments : List String) : Formatting :=
  Formatting.all dialect format.toList (arguments.length + 1) { arguments }

/-- Writes its arguments by a format, as the shell itself does. -/
def printf : Tool := fun arguments => do
  let arguments := match arguments with
    | "--" :: rest => rest
    | rest => rest
  match arguments with
  | [] =>
    Act.report "usage: printf format [arg ...]"
    Act.ended 2
  | format :: rest => do
    let f := formatted shellDialect format rest
    f.complaints.reverse.forM Act.report
    Act.say f.text
    Act.ended f.status

/-- Writes its arguments by a format. -/
def printfProgram : Tool := fun arguments => do
  let arguments := match arguments with
    | "--" :: rest => rest
    | rest => rest
  match arguments with
  | [] => Act.failing 1 "printf: missing operand\nTry 'printf --help' for more information."
  | format :: rest => do
    let f := formatted toolDialect format rest
    f.complaints.reverse.forM fun complaint => Act.complain s!"printf: {complaint}"
    if f.arguments ≠ [] ∧ !f.isOver then
      let first := curlyQuoted (f.arguments.headD "")
      Act.complain s!"printf: warning: ignoring excess arguments, starting with {first}"
    Act.say f.text
    Act.ended f.status

/-! ## Ranges -/

/-- A decimal number: its digits without the point, and the number of places behind it. -/
def decimalNumber? (s : String) : Option (Int × Nat) :=
  let size := unsigned s.toList
  let whole := size.takeWhile Char.isDigit
  let (fraction, rest) := match size.drop whole.length with
    | '.' :: rest => (rest.takeWhile Char.isDigit, rest.dropWhile Char.isDigit)
    | rest => ([], rest)
  if whole ++ fraction = [] ∨ rest ≠ [] then none
  else
    let n : Int := decimal (whole ++ fraction)
    some (if isNegative s.toList then -n else n, fraction.length)

/-- A decimal number with some places. -/
def shownDecimal (places : Nat) (n : Int) : String :=
  let digits := digitsOf (places + 1) n.natAbs
  let whole := digits.take (digits.length - places)
  let sign := if n < 0 then ['-'] else []
  String.ofList (sign ++ whole ++ if places = 0 then [] else '.' :: digits.drop whole.length)

/-- Numbers from a first to a last one. -/
def rangeOf (first step last : Int) : List Int :=
  if step = 0 then []
  else (List.range ((last - first).fdiv step + 1).toNat).map fun i : Nat => first + step * i

/-- Writes the numbers of a range. -/
def seq : Tool := fun arguments => do
  let hint := "\nTry 'seq --help' for more information."
  let rec flags (separator : String) (equal : Bool) (format : Option String) :
      List String → String × Bool × Option String × List String
    | "-w" :: rest => flags separator true format rest
    | "-s" :: s :: rest => flags s equal format rest
    | "-f" :: f :: rest => flags separator equal (some f) rest
    | first :: rest =>
      match first.toList with
      | '-' :: 's' :: s => flags (String.ofList s) equal format rest
      | '-' :: 'f' :: f => flags separator equal (some (String.ofList f)) rest
      | _ => (separator, equal, format, first :: rest)
    | [] => (separator, equal, format, [])
  let (separator, equal, format, operands) := flags "\n" false none arguments
  match operands with
  | [] => Act.failing 1 ("seq: missing operand" ++ hint)
  | _ :: _ :: _ :: extra :: _ => Act.failing 1 (s!"seq: extra operand {curlyQuoted extra}" ++ hint)
  | operands =>
    match operands.find? fun s => (decimalNumber? s).isNone with
    | some wrong => Act.failing 1 (s!"seq: invalid floating point argument: {curlyQuoted wrong}" ++ hint)
    | none =>
      let numbers := operands.filterMap decimalNumber?
      let (first, step, last) := match numbers with
        | [last] => ((1, 0), (1, 0), last)
        | [first, last] => (first, (1, 0), last)
        | first :: step :: last :: _ => (first, step, last)
        | [] => ((1, 0), (1, 0), (0, 0))
      if step.1 = 0 then
        let wrong := curlyQuoted (operands.getD 1 "0")
        Act.failing 1 (s!"seq: invalid Zero increment value: {wrong}" ++ hint)
      else
        let places := max first.2 step.2
        let finest := max places last.2
        let scaled (n : Int × Nat) : Int := n.1 * (Nat.pow 10 (finest - n.2) : Int)
        let values := rangeOf (scaled first) (scaled step) (scaled last)
        let shown (n : Int) : String := shownDecimal places (n / (Nat.pow 10 (finest - places) : Int))
        let texts := match format with
          | some format => values.map fun n => (formatted toolDialect format [shown n]).text
          | none => values.map shown
        let width := (texts.map String.length).foldl max 0
        let texts := if equal then texts.map fun t =>
            let d : Directive := { flags := ['0'], width, letter := 'd' }
            if t.startsWith "-" then d.pad true ['-'] (t.toList.drop 1) else d.pad true [] t.toList
          else texts
        Act.say (separator.intercalate texts ++ if texts.isEmpty then "" else "\n")
        Act.ended 0

/-- How many lines are written at once where there is no end to them. -/
def linesAtOnce : Nat := 1024

/-- Does something again and again. -/
def again (act : Act Unit) : Nat → Act Unit
  | 0 => return
  | n + 1 => do
    act
    again act n

/-- Writes a line again and again. -/
def yes : Tool := fun arguments => do
  let line := (if arguments.isEmpty then "y" else " ".intercalate arguments) ++ "\n"
  let lines := String.join (List.replicate linesAtOnce line)
  again (Act.say lines) linesAtOnce
  Act.ended 0

/-! ## Parts of paths -/

/-- A path without the slashes at its end. -/
def withoutSlashes (s : List Char) : List Char :=
  let kept := (s.reverse.dropWhile (· == '/')).reverse
  if kept.isEmpty && !s.isEmpty then ['/'] else kept

/-- The last part of a path, without a suffix. -/
def lastName (suffix path : String) : String :=
  let kept := withoutSlashes path.toList
  let name := if kept = ['/'] then kept else (kept.reverse.takeWhile (· != '/')).reverse
  let ending := suffix.toList
  if name.length > ending.length && ending.reverse.isPrefixOf name.reverse then
    String.ofList (name.take (name.length - ending.length))
  else String.ofList name

/-- Writes the last parts of paths. -/
def basename : Tool := fun arguments =>
  let table : FlagTable :=
    { tool := "basename", letters := "az", valued := "s", inOrder := true,
      long := [("multiple", 'a'), ("suffix", 's'), ("zero", 'z')] }
  table.run arguments fun given => do
    let hint := "\nTry 'basename --help' for more information."
    let ending := if given.has 'z' then "\x00" else "\n"
    let many := given.has 'a' || given.has 's'
    match given.operands with
    | [] => Act.failing 1 ("basename: missing operand" ++ hint)
    | [path] => do
      Act.say (lastName ((given.value? 's').getD "") path ++ ending)
      Act.ended 0
    | path :: suffix :: more =>
      if many then do
        Act.say (String.join (given.operands.map fun path =>
          lastName ((given.value? 's').getD "") path ++ ending))
        Act.ended 0
      else if let extra :: _ := more then
        Act.failing 1 (s!"basename: extra operand {curlyQuoted extra}" ++ hint)
      else do
        Act.say (lastName suffix path ++ ending)
        Act.ended 0

/-- A path without its last part. -/
def directoryName (path : String) : String :=
  let kept := withoutSlashes path.toList
  if kept = ['/'] then "/"
  else match kept.reverse.dropWhile (· != '/') with
    | [] => "."
    | rest => String.ofList (withoutSlashes rest.reverse)

/-- Writes paths without their last parts. -/
def dirname : Tool := fun arguments =>
  let table : FlagTable := { tool := "dirname", letters := "z", long := [("zero", 'z')] }
  table.run arguments fun given => do
    if given.operands.isEmpty then
      Act.failing 1 "dirname: missing operand\nTry 'dirname --help' for more information."
    else
      let ending := if given.has 'z' then "\x00" else "\n"
      Act.say (String.join (given.operands.map (directoryName · ++ ending)))
      Act.ended 0

end WasmPackaging.Shell
