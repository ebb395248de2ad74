import WasmPackaging.Shell.Regex
import WasmPackaging.Shell.Tools.Launching

/-!
Finding files: an expression of tests and actions is evaluated for each file below some starting points,
a directory before what is in it, unless its content goes first.
-/

namespace WasmPackaging.Shell

open Text

/-- A count that a test compares with: above it, below it, or the same. -/
structure CountTest where
  order : Ordering
  count : Nat

/-- An expression of tests and actions on a file. -/
inductive Finding where
  | constant (value : Bool)
  | name (folds : Bool) (pattern : Pattern)
  | path (folds : Bool) (pattern : Pattern)
  | regex (r : CompiledRegex)
  | kind (letters : List Char)
  | empty
  | size (test : CountTest) (unit : Nat)
  | executable
  | print (ending : String)
  | printed (format : List Char)
  | exec (command : List String)
  | execAll (number : Nat) (command : List String)
  | delete
  | prune
  | quit
  | not (body : Finding)
  | both (first second : Finding)
  | either (first second : Finding)
  | last (first second : Finding)

namespace Finding

/-- Whether an expression does something with the files that it accepts. -/
def acts : Finding → Bool
  | .print _ | .printed _ | .exec _ | .execAll _ _ | .delete => true
  | .not body => body.acts
  | .both first second | .either first second | .last first second => first.acts || second.acts
  | _ => false

end Finding

/-- An expression with the options that hold for the whole search. -/
structure FindingReading where
  rest : List String
  last : String := ""
  least : Nat := 0
  most : Option Nat := none
  contentFirst : Bool := false
  extended : Bool := false
  commands : List (Nat × List String) := []

/-- A reader of an expression. -/
abbrev FindingReader := StateT FindingReading (Except String)

namespace FindingReader

/-- The value that belongs to a test. -/
def value (test : String) : FindingReader String := do
  match (← get).rest with
  | value :: rest =>
    modify fun r => { r with rest, last := value }
    return value
  | [] => throw s!"missing argument to \x60{test}'"

/-- A decimal number that an option takes. -/
def depth (option : String) : FindingReader Nat := do
  let text ← value option
  match text.toNat? with
  | some n => return n
  | none => throw (s!"Expected a positive decimal integer argument to {option}, but got " ++ curlyQuoted text)

/-- A count with a sign before it, and the text behind it. -/
def count? (text : List Char) : Option (CountTest × List Char) :=
  let (order, digits) : Ordering × List Char := match text with
    | '+' :: rest => (.gt, rest)
    | '-' :: rest => (.lt, rest)
    | rest => (.eq, rest)
  let number := digits.takeWhile Char.isDigit
  if number.isEmpty then none else some (⟨order, decimal number⟩, digits.drop number.length)

/-- A count with a sign before it. -/
def count (test text : String) : FindingReader (CountTest × List Char) := do
  match count? text.toList with
  | some count => return count
  | none => throw s!"invalid argument \x60{text}' to \x60{test}'"

/-- How many bytes a unit of sizes has. -/
def unitSize? : Char → Option Nat
  | 'b' => some 512
  | 'c' => some 1
  | 'w' => some 2
  | 'k' => some 1024
  | 'M' => some (1024 * 1024)
  | 'G' => some (1024 * 1024 * 1024)
  | _ => none

/-- The pattern that a test takes. -/
def pattern (test : String) (folds : Bool) : FindingReader Pattern := do
  let text ← value test
  return Pattern.ofMarked (marked false (if folds then String.ofList (text.toList.map Char.toLower) else text))

/-- The command of an action, up to its end. -/
def command (action : String) : FindingReader Finding := do
  let rest := (← get).rest
  let ended := rest.takeWhile (· != ";")
  let isBatch := (rest.zip (rest.drop 1)).findIdx? fun pair => pair.1 == "\x7b\x7d" && pair.2 == "+"
  match isBatch with
  | some i =>
    if i + 1 < ended.length || ended.length == rest.length then
      let command := rest.take i
      if command.contains "\x7b\x7d" then throw s!"Only one instance of \x7b\x7d is supported with {action} ... +"
      if command.isEmpty then throw s!"invalid argument \x60\x7b\x7d' to \x60{action}'"
      let number := (← get).commands.length
      modify fun r => { r with rest := rest.drop (i + 2), last := "+", commands := r.commands ++ [(number, command)] }
      return .execAll number command
    else single ended
  | none => if ended.length == rest.length then throw s!"missing argument to \x60{action}'" else single ended
where
  /-- A command that is run for each file. -/
  single (ended : List String) : FindingReader Finding := do
    modify fun r => { r with rest := r.rest.drop (ended.length + 1), last := ";" }
    if ended.isEmpty then throw s!"invalid argument \x60;' to \x60{action}'"
    return .exec ended

/-- Reads a test, an action or an option. -/
def single (test : String) : FindingReader Finding := do
  match test with
  | "-name" => return .name false (← pattern test false)
  | "-iname" => return .name true (← pattern test true)
  | "-path" | "-wholename" => return .path false (← pattern test false)
  | "-ipath" | "-iwholename" => return .path true (← pattern test true)
  | "-regex" | "-iregex" =>
    let text ← value test
    match CompiledRegex.read (← get).extended (test == "-iregex") false (widen text.toList) with
    | .ok r => return .regex r
    | .error fault => throw s!"failed to compile regular expression '{text}': {fault.message}"
  | "-regextype" =>
    let kind ← value test
    modify fun r => { r with extended := ["posix-extended", "egrep", "awk", "gnu-awk"].contains kind }
    return .constant true
  | "-type" | "-xtype" =>
    let text ← value test
    let letters := text.toList.filter (· != ',')
    match letters.find? fun c => !"bcdpflsD".toList.contains c with
    | some wrong => throw s!"Unknown argument to {test}: {wrong}"
    | none =>
      if letters.isEmpty then throw s!"Arguments to {test} should contain at least one letter"
      else return .kind letters
  | "-empty" => return .empty
  | "-size" =>
    let text ← value test
    match text.toList.getLast? with
    | none => throw "invalid null argument to -size"
    | some last =>
      let size? := if last.isDigit then some 512 else unitSize? last
      match size?, count? (if last.isDigit then text.toList else text.toList.dropLast) with
      | none, _ => throw s!"invalid -size type \x60{last}'"
      | some size, some (count, []) => return .size count size
      | some _, _ => throw s!"Invalid argument \x60{text}' to -size"
  | "-mtime" | "-atime" | "-ctime" | "-mmin" | "-amin" | "-cmin" =>
    let text ← value test
    let (count, _) ← count test text
    return .constant (compare 0 count.count == count.order)
  | "-user" | "-group" =>
    let text ← value test
    return .constant (text == "root" || text == "0")
  | "-executable" => return .executable
  | "-readable" | "-writable" | "-true" => return .constant true
  | "-false" | "-nouser" | "-nogroup" => return .constant false
  | "-maxdepth" =>
    let most ← depth test
    modify fun r => { r with most := some most }
    return .constant true
  | "-mindepth" =>
    let least ← depth test
    modify fun r => { r with least }
    return .constant true
  | "-depth" | "-d" =>
    modify fun r => { r with contentFirst := true }
    return .constant true
  | "-mount" | "-xdev" | "-noleaf" | "-follow" | "-daystart" | "-warn" | "-nowarn" => return .constant true
  | "-print" => return .print "\n"
  | "-print0" => return .print "\x00"
  | "-printf" => return .printed (← value test).toList
  | "-exec" | "-ok" => command test
  | "-delete" =>
    modify fun r => { r with contentFirst := true }
    return .delete
  | "-prune" => return .prune
  | "-quit" => return .quit
  | test =>
    if test.startsWith "-" then throw s!"unknown predicate \x60{test}'"
    else throw s!"paths must precede expression: \x60{test}'"

mutual

/-- Reads expressions of which the last one counts. -/
def listed : Nat → FindingReader Finding
  | 0 => return .constant true
  | fuel + 1 => do
    let first ← alternatives fuel
    match (← get).rest with
    | "," :: rest =>
      modify fun r => { r with rest, last := "," }
      return .last first (← listed fuel)
    | _ => return first
termination_by structural fuel => fuel

/-- Reads expressions of which one has to hold. -/
def alternatives : Nat → FindingReader Finding
  | 0 => return .constant true
  | fuel + 1 => do
    let first ← joined fuel
    match (← get).rest with
    | operator :: rest =>
      if operator == "-o" || operator == "-or" then
        modify fun r => { r with rest, last := operator }
        return .either first (← alternatives fuel)
      else return first
    | [] => return first
termination_by structural fuel => fuel

/-- Reads expressions of which all have to hold. -/
def joined : Nat → FindingReader Finding
  | 0 => return .constant true
  | fuel + 1 => do
    let first ← negated fuel
    match (← get).rest with
    | [] => return first
    | operator :: rest =>
      if operator == "-a" || operator == "-and" then
        modify fun r => { r with rest, last := operator }
        return .both first (← joined fuel)
      else if ["-o", "-or", ",", ")"].contains operator then return first
      else return .both first (← joined fuel)
termination_by structural fuel => fuel

/-- Reads an expression that may be negated, or stand between parentheses. -/
def negated : Nat → FindingReader Finding
  | 0 => return .constant true
  | fuel + 1 => do
    let r ← get
    match r.rest with
    | [] => throw s!"expected an expression after '{r.last}'"
    | test :: rest =>
      set { r with rest, last := test }
      if test == "!" || test == "-not" then return .not (← negated fuel)
      else if test == "(" then
        if rest.head? == some ")" then throw "invalid expression; empty parentheses are not allowed."
        let body ← listed fuel
        match (← get).rest with
        | ")" :: rest =>
          modify fun r => { r with rest, last := ")" }
          return body
        | _ => throw "invalid expression; I was expecting to find a ')' somewhere but did not see one."
      else if test == ")" then throw "invalid expression; you have too many ')'"
      else if ["-o", "-or", "-a", "-and", ","].contains test then
        throw s!"invalid expression; you have used a binary operator '{test}' with nothing before it."
      else single test
termination_by structural fuel => fuel

end

/-- Reads a whole expression. -/
def whole : FindingReader Finding := do
  let r ← get
  if r.rest.isEmpty then return .constant true
  let body ← listed (4 * r.rest.length + 8)
  match (← get).rest with
  | ")" :: _ => throw "you have too many ')'"
  | test :: _ => throw s!"paths must precede expression: \x60{test}'"
  | [] => return body

end FindingReader

/-- A file that was found: what it is called, where it starts to be below a starting point, where it is, and
how deep. -/
structure FoundFile where
  name : String
  start : String
  location : Location
  entry : Entry
  depth : Nat

/-- What a search has done so far: whether all went well, whether it is over or the current directory is left
out, and the names that commands wait for. -/
structure FindingState where
  isWell : Bool := true
  isOver : Bool := false
  isPruned : Bool := false
  waiting : List (Nat × String) := []

namespace FoundFile

/-- The letter of the kind of a file. -/
def letter (found : FoundFile) : Char :=
  match found.entry with
  | .file _ => 'f'
  | .link _ => 'l'
  | .directory => 'd'

/-- How many bytes a file has. -/
def size (found : FoundFile) : Nat :=
  match found.entry with
  | .file content => content.length
  | .link target => (ofText target).length
  | .directory => 4096

/-- The last part of the name of a file. -/
def last (found : FoundFile) : String :=
  if found.name.toList.all (· == '/') then found.name else baseName found.name

/-- The text of a format for a file. -/
def shown (found : FoundFile) : Nat → List Char → String
  | 0, _ => ""
  | _, [] => ""
  | fuel + 1, '%' :: c :: rest =>
    let text := match c with
      | 'p' => found.name
      | 'f' => found.last
      | 'h' => if found.name.toList.contains '/' then
          String.ofList (found.name.toList.take (found.name.length - found.last.length - 1)) else "."
      | 'P' =>
        let behind := found.name.toList.drop found.start.length
        String.ofList (if behind.head? == some '/' then behind.drop 1 else behind)
      | 'H' => found.start
      | 'd' => toString found.depth
      | 's' => toString found.size
      | 'y' => String.singleton found.letter
      | 'l' => match found.entry with
        | .link target => ofText target
        | _ => ""
      | 'u' | 'g' => "root"
      | 'U' | 'G' => "0"
      | '%' => "%"
      | c => String.ofList ['%', c]
    text ++ found.shown fuel rest
  | fuel + 1, '\\' :: c :: rest =>
    if (octalDigit? c).isSome then
      let (c, rest) := octal 3 (c :: rest)
      String.singleton c ++ found.shown fuel rest
    else
      (match controlOf? c with
        | some c => String.singleton c
        | none => if c == '\\' then "\\" else String.ofList ['\\', c]) ++ found.shown fuel rest
  | fuel + 1, c :: rest => String.singleton c ++ found.shown fuel rest

end FoundFile

/-- Evaluates an expression for a file; answers whether it holds. -/
def Finding.holds (launch : List String → Act Unit) (found : FoundFile) :
    Finding → StateT FindingState Act Bool
  | .constant value => return value
  | .name folds pattern =>
    let name := found.last.toList
    return pattern.accepts (if folds then name.map Char.toLower else name)
  | .path folds pattern =>
    let name := found.name.toList
    return pattern.accepts (if folds then name.map Char.toLower else name)
  | .regex r =>
    let text := MatchedText.ofList r (widen found.name.toList)
    return (text.ends r.regex 0).contains text.chars.size
  | .kind letters => return letters.contains found.letter
  | .empty => do
    match found.entry with
    | .file content => return content.isEmpty
    | .directory => return ((← Act.files).children found.location).isEmpty
    | .link _ => return false
  | .size test unit => return compare ((found.size + unit - 1) / unit) test.count == test.order
  | .executable => do
    return found.entry == .directory || (← getThe Process).executables.contains found.location
  | .print ending => do
    Act.say (found.name ++ ending)
    return true
  | .printed format => do
    Act.say (found.shown (format.length + 1) format)
    return true
  | .exec command => do
    let command := command.map fun word => word.replace "\x7b\x7d" found.name
    match ← commandEnd (launch command) with
    | .ended status => return status == 0
    | .killed _ => return false
    | .unstarted status =>
      Act.complain ("find: " ++ curlyQuoted (command.headD "") ++ s!": {startCause status}")
      return false
  | .execAll number _ => do
    modify fun s => { s with waiting := s.waiting ++ [(number, found.name)] }
    return true
  | .delete => do
    if found.name == "." then return true
    match found.entry with
    | .directory =>
      match ← removeDirectory found.name with
      | none => return true
      | some cause =>
        Act.complain ("find: cannot delete " ++ curlyQuoted found.name ++ s!": {cause}")
        modify fun s => { s with isWell := false }
        return false
    | _ =>
      let _ ← Act.changeFiles fun files => .ok (files.erase found.location)
      return true
  | .prune => do
    modify fun s => { s with isPruned := true }
    return true
  | .quit => do
    modify fun s => { s with isOver := true }
    return true
  | .not body => do return !(← body.holds launch found)
  | .both first second => do
    if ← first.holds launch found then
      if (← get).isOver then return false else second.holds launch found
    else return false
  | .either first second => do
    if ← first.holds launch found then return true
    else if (← get).isOver then return false
    else second.holds launch found
  | .last first second => do
    let _ ← first.holds launch found
    second.holds launch found

/-- Searches a file and what is below it. -/
def searchBelow (launch : List String → Act Unit) (reading : FindingReading) (follows : Bool) (body : Finding) :
    Nat → FoundFile → StateT FindingState Act Unit
  | 0, _ => return
  | fuel + 1, found => do
    if (← get).isOver then return
    modify fun s => { s with isPruned := false }
    let visit : StateT FindingState Act Unit := do
      if reading.least ≤ found.depth then
        let _ ← body.holds launch found
    if !reading.contentFirst then visit
    let isPruned := (← get).isPruned
    if found.entry == .directory && !isPruned && reading.most.all (decide <| found.depth < ·) then
      let files ← Act.files
      (sortedNames files found.location).forM fun inner => do
        let location := found.location ++ [toText inner]
        let files ← Act.files
        let name := if found.name.endsWith "/" then found.name ++ inner else found.name ++ "/" ++ inner
        match files.lookup location with
        | none => pure ()
        | some entry =>
          let (location, entry) := match follows, files.follow (.ofLocation location) with
            | true, .ok (.entry location entry) => (location, entry)
            | _, _ => (location, entry)
          searchBelow launch reading follows body fuel ⟨name, found.start, location, entry, found.depth + 1⟩
    if reading.contentFirst then visit

/-- Finds files. -/
def find : Launcher := fun launch arguments => do
  let flags := arguments.takeWhile fun argument => ["-H", "-L", "-P"].contains argument
  let rest := arguments.drop flags.length
  let rest := if rest.head? == some "--" then rest.drop 1 else rest
  let isTest (argument : String) : Bool :=
    (argument.startsWith "-" && argument != "-") || argument == "!" || argument == "("
  let starts := rest.takeWhile fun argument => !isTest argument
  match FindingReader.whole.run { rest := rest.drop starts.length } with
  | .error cause => Act.failing 1 s!"find: {cause}"
  | .ok (body, reading) =>
    let body := if body.acts then body else .both body (.print "\n")
    let follows := flags.getLast? == some "-L"
    let starts := if starts.isEmpty then ["."] else starts
    let go (start : String) : StateT FindingState Act Unit := do
      let refusal (fault : Fault) : StateT FindingState Act Unit := do
        Act.complain ("find: " ++ curlyQuoted start ++ s!": {fault.text}")
        modify fun s => { s with isWell := false }
      match ← (if follows || flags.getLast? == some "-H" then Act.follow start else Act.locate start) with
      | .ok (.entry location entry) =>
        let size := (← Act.files).entries.length + 2
        searchBelow launch reading follows body size ⟨start, start, location, entry, 0⟩
      | .ok (.vacant _) => refusal .notFound
      | .error fault => refusal fault
    let ((), state) ← (starts.forM go).run {}
    let rec batches (isWell : Bool) : List (Nat × List String) → Act Bool
      | [] => return isWell
      | (number, command) :: rest => do
        let names := (state.waiting.filter (·.1 == number)).map Prod.snd
        if names.isEmpty then batches isWell rest
        else
          match ← commandEnd (launch (command ++ names)) with
          | .ended status => batches (isWell && status == 0) rest
          | .killed _ => batches false rest
          | .unstarted status =>
            Act.complain ("find: " ++ curlyQuoted (command.headD "") ++ s!": {startCause status}")
            batches false rest
    endedWell (← batches state.isWell reading.commands)

end WasmPackaging.Shell
