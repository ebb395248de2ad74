import WasmPackaging.Shell.Builtins

/-!
Running scripts. A script is run with fuel, which every step into it uses up by one; a turn of a loop
starts with the fuel of the turn before it.
-/

namespace WasmPackaging.Shell

open Text

/-- How often a loop is run through at most. -/
def mostTurns : Nat := 10000000

/-- How deep functions may call each other. -/
def deepestCall : Nat := 1000

/-! ## Values -/

/-- How a word is read: whether it is cut into fields, and whether it is given for a value that is
missing, so that its own text is cut too. -/
structure WordStyle where
  cuts : Bool := false
  isGiven : Bool := false

/-- A value that is put in. -/
def valuePiece (quoted : Bool) (value : String) : Piece := .text quoted (!quoted) value

/-- The text that stands between the arguments where they are put in as one value. -/
def argumentSeparator : Act String := do
  match (← get).bindings.lookup "IFS" with
  | some ⟨some value, _, _⟩ => return String.ofList (value.toList.take 1)
  | _ => return " "

/-- All arguments, put in. -/
def argumentPieces (style : WordStyle) (quoted isEach : Bool) : Act (List Piece) := do
  let arguments := (← get).arguments
  if style.cuts && (isEach || !quoted) then
    let parts := arguments.map fun argument =>
      if quoted then [.mark, valuePiece true argument] else [valuePiece false argument]
    return [Piece.boundary].intercalate parts
  else return [valuePiece quoted ((← argumentSeparator).intercalate arguments)]

/-- The value of a parameter. -/
def parameter? (name : String) : Act (Option String) := do
  let p ← get
  match name with
  | "?" => return some (toString p.status)
  | "#" => return some (toString p.arguments.length)
  | "$" => return some (toString p.number)
  | "!" => return p.children.head?.map fun child => toString child.number
  | "-" => return some (optionLetters p)
  | "0" => return some p.name
  | name =>
    if name.toList.all Char.isDigit then
      let n := decimal name.toList
      return if n = 0 then some p.name else p.arguments[n - 1]?
    else Act.valueOf? name

/-- What a parameter stands for, put in. -/
def parameterPieces? (style : WordStyle) (quoted : Bool) (name : String) : Act (Option (List Piece)) := do
  if name == "@" || name == "*" then return some (← argumentPieces style quoted (name == "@"))
  else return (← parameter? name).map fun value => [valuePiece quoted value]

/-- The directory of a user. -/
def homeOf? (user : String) : Act (Option String) := do
  if user == "" then Act.valueOf? "HOME" else return if user == "root" then some "/root" else none

/-- A text without the line ends at its end. -/
def withoutLineEnds (s : String) : String :=
  String.ofList (s.toList.reverse.dropWhile (· == '\n')).reverse

/-! ## Redirections -/

/-- The refusal of a file that a redirection names. -/
def openingRefusal (verb missing : String) (name : String) : Fault → String
  | .notFound | .notDirectory => s!"cannot {verb} {name}: {missing}"
  | fault => s!"cannot {verb} {name}: {fault.text}"

/-- Opens a file to be read. -/
def openInput (name : String) : Act (Except String Nat) := do
  match ← Act.readFile name with
  | .ok content => return .ok (← Act.open_ (.source true content))
  | .error .isDirectory => return .ok (← Act.open_ .directory)
  | .error fault => return .error (openingRefusal "open" "No such file" name fault)

/-- Opens a file to be written. -/
def openOutput (name : String) (keeps isForced : Bool) : Act (Except String Nat) := do
  let refusal (fault : Fault) : Except String Nat :=
    .error (openingRefusal "create" "Directory nonexistent" name fault)
  if name == Act.nullFile then return .ok (← Act.open_ .nothing)
  else if name == Act.fullFile then return .ok (← Act.open_ .full)
  else
    let path ← Act.path name
    let isKept ← Act.option 'C'
    match ← Act.follow name with
    | .ok (.entry _ (.file _)) =>
      if isKept && !keeps && !isForced then return refusal .exists
      else
        if !keeps then
          let _ ← Act.changeFiles (·.write path [])
        return .ok (← Act.open_ (.file path []))
    | .ok (.entry _ _) => return refusal .isDirectory
    | .ok (.vacant _) =>
      if name.endsWith "/" then return refusal .isDirectory
      match ← Act.changeFiles (·.write path []) with
      | none => return .ok (← Act.open_ (.file path []))
      | some e => return refusal (causeOf e)
    | .error fault => return refusal fault

/-- Lets a descriptor lead where a redirection says, given the text of its target. -/
def redirectTo (descriptor : Nat) (mode : RedirectionMode) (target : String) : Act (Except String Unit) := do
  let lead (opened : Except String Nat) : Act (Except String Unit) := do
    match opened with
    | .ok number =>
      Act.connect descriptor (some number)
      return .ok ()
    | .error cause => return .error cause
  let duplicate (other : Nat) : Act (Except String Unit) := do
    match ← Act.streamOf? other with
    | some number =>
      Act.connect descriptor (some number)
      return .ok ()
    | none => return .error s!"{other}: Bad file descriptor"
  match mode, Act.standardPaths.lookup target with
  | .duplicate, _ =>
    match target.toList with
    | ['-'] =>
      Act.connect descriptor none
      return .ok ()
    | [c] => if c.isDigit then duplicate (decimal [c]) else Act.abort "Syntax error: Bad fd number"
    | _ => Act.abort "Syntax error: Bad fd number"
  | .document _, _ => lead (.ok (← Act.open_ (.source true target.toList)))
  | _, some other => duplicate other
  | .read, none => lead (← openInput target)
  | .write, none => lead (← openOutput target false false)
  | .force, none => lead (← openOutput target false true)
  | .append, none | .both, none => lead (← openOutput target true false)

/-! ## Loops and calls -/

/-- How a turn of a loop ends: the loop is over, is left, or goes on. -/
inductive TurnEnd where
  | over
  | left
  | next
  deriving DecidableEq

/-- Does a turn of a loop, which tells whether the loop is over. -/
def turn (act : Act Bool) : Act TurnEnd := do
  modify fun p => { p with loops := p.loops + 1 }
  let result ← Act.attempt act
  modify fun p => { p with loops := p.loops - 1 }
  match result with
  | .ok true => return .over
  | .ok false | .error (.again 1) | .error (.again 0) => return .next
  | .error (.stop 1) | .error (.stop 0) => return .left
  | .error (.again (n + 1)) => throw (.again n)
  | .error (.stop (n + 1)) => throw (.stop n)
  | .error flow => throw flow

/-- Does turns of a loop until it is over, and sets the status of the last one. -/
def turns (act : Act Bool) : Nat → Int → Act Unit
  | 0, _ => return
  | n + 1, status => do
    match ← turn act with
    | .over => Act.ended status
    | .left => return
    | .next => turns act n (← get).status

/-- Does something for each value of a variable. -/
def forEach (name : String) (act : Act Unit) : List String → Act Unit
  | [] => return
  | value :: rest => do
    Act.assign name value
    match ← turn (do act; return false) with
    | .left => return
    | _ => forEach name act rest

/-- Does something with other arguments and with variables of its own, as a function does. -/
def withinFunction (line : Nat) (arguments : List String) (act : Act Unit) : Act Unit := do
  let before ← get
  if before.depth ≥ deepestCall then
    Act.abort s!"Maximum function recursion depth ({deepestCall}) reached"
  set { before with
    arguments, locals := [] :: before.locals, loops := 0, depth := before.depth + 1,
    functionLine := some line, optionOffset := none }
  let result ← Act.attempt act
  restoreVariables ((← get).locals.headD [])
  modify fun p => { p with
    arguments := before.arguments, locals := before.locals, loops := before.loops, depth := before.depth,
    functionLine := before.functionLine, optionOffset := before.optionOffset }
  match result with
  | .error .back => return
  | result => Act.resume result

/-- Runs a command of the shell under its name. Where its failure does not end the shell, only that is taken
back. -/
def underName (name : String) (isFatal : Bool) (act : Act Unit) : Act Unit := do
  let before := (← get).command
  modify fun p => { p with command := some name }
  let result ← Act.attempt act
  modify fun p => { p with command := before }
  match result, isFatal with
  | .error .fault, false => return
  | result, _ => Act.resume result

/-- Says that a command of the shell could not write. -/
def unwritten (name : String) (_ : WriteFault) : Act Unit := do
  Act.report s!"{name}: I/O error"
  Act.ended 1

/-- Says that a signal ended another command; of one that was interrupted or whose output nobody reads,
nothing is said. -/
def sayKilled (signal : Nat) : Act Unit := do
  if let some text := signalTexts.lookup signal then Act.complain text
  Act.ended (128 + signal)

/-- Does something, and says if a signal ended it. -/
def sayingKilled (act : Act Unit) : Act Unit := do
  match ← Act.attempt act with
  | .error (.killed signal) => sayKilled signal
  | result => Act.resume result

/-- How much room there is in a pipe: who writes without end is ended when it is full. -/
def pipeRoom : Nat := 5000000

/-- Runs a tool that calls itself in some way. -/
def calledAs (called : Option (String × String)) (act : Act Unit) : Act Unit := do
  let before := (← get).called
  modify fun p => { p with called }
  let result ← Act.attempt act
  modify fun p => { p with called := before }
  Act.resume result

/-! ## Evaluation -/

/-- The variables that a program starts with. -/
def inherited (p : Process) : List (String × Variable) :=
  let passed := p.bindings.filter fun entry => entry.2.isExported && entry.2.value.isSome
  let missing := [("PATH", searchPath), ("PWD", ofText p.directory.toString), ("IFS", " \t\n"), ("OPTIND", "1"),
    ("PS1", "$ "), ("PS2", "> "), ("PS4", "+ ")]
  let own := missing.filter fun entry => (passed.lookup entry.1).isNone || entry.1 == "IFS"
  (own.map fun (name, value) => (name, ⟨some value, false, false⟩)) ++
    (passed.filter fun entry => entry.1 != "IFS").map fun (name, v) => (name, { v with isFixed := false })

/-- The interpreter that the first line of a script names, with its argument. -/
def interpreter? (content : List Char) : Option (List String) :=
  match content with
  | '#' :: '!' :: rest =>
    let line := trim (rest.takeWhile (· != '\n'))
    let path := line.takeWhile fun c => c != ' ' && c != '\t'
    let argument := trim (line.drop path.length)
    if path.isEmpty then none
    else some (String.ofList path :: if argument.isEmpty then [] else [String.ofList argument])
  | _ => none

mutual

/-- What a word stands for, with all values put in. -/
def piecesOf (style : WordStyle) : Nat → ScriptWord → Act (List Piece)
  | 0, _ => return []
  | fuel + 1, word => do
    let parts ← word.mapM fun segment => do
      match segment with
      | .text quoted text =>
        return if quoted then [.mark, .text true false text] else [.text false style.isGiven text]
      | .home user =>
        match ← homeOf? user with
        | some path => return if path == "" then [] else [.mark, .text true false path]
        | none => return [.text false false ("~" ++ user)]
      | .parameter quoted name use => parameterUse style quoted name fuel use
      | .arithmetic quoted expression =>
        let text := piecesText (← piecesOf {} fuel expression)
        return [valuePiece quoted (toString (← evaluate text))]
      | .output quoted body => return [valuePiece quoted (← outputOf fuel body)]
    return parts.flatten
termination_by structural fuel => fuel

/-- What is put in for a parameter. -/
def parameterUse (style : WordStyle) (quoted : Bool) (name : String) : Nat → Use → Act (List Piece)
  | 0, _ => return []
  | fuel + 1, use => do
    let found? ← parameterPieces? style quoted name
    let demanded : Act (List Piece) := do
      match found? with
      | some pieces => return pieces
      | none => if ← Act.option 'u' then Act.abort s!"{name}: parameter not set" else return []
    let counts (empty : Bool) : Bool :=
      found?.any fun pieces => !(empty && piecesText pieces == "")
    let given (word : ScriptWord) : Act (List Piece) :=
      piecesOf { style with isGiven := !quoted } fuel word
    let cut (longest : Bool) (word : ScriptWord)
        (cutter : Bool → Pattern → List Char → List Char) : Act (List Piece) := do
      let value := piecesText (← demanded)
      let pattern := Pattern.ofMarked (piecesMarked (← piecesOf {} fuel word))
      return [valuePiece quoted (String.ofList (cutter longest pattern value.toList))]
    match use with
    | .value => demanded
    | .length => return [valuePiece quoted (toString (piecesText (← demanded)).length)]
    | .default empty word => if counts empty then demanded else given word
    | .instead empty word => if counts empty then given word else return []
    | .assign empty word =>
      if counts empty then demanded
      else
        let value := piecesText (← piecesOf {} fuel word)
        if !isName name then Act.abort s!"{name}: bad variable name"
        Act.assign name value
        return [valuePiece quoted value]
    | .demand empty word =>
      if counts empty then demanded
      else if word.isEmpty then
        Act.abort (s!"{name}: parameter not set" ++ if empty then " or null" else "")
      else Act.abort s!"{name}: {piecesText (← piecesOf {} fuel word)}"
    | .withoutStart longest pattern => cut longest pattern fun l p s => p.withoutStart l s
    | .withoutEnd longest pattern => cut longest pattern fun l p s => p.withoutEnd l s
    | .wrong => Act.abort "Bad substitution"
termination_by structural fuel => fuel

/-- What a script writes, without the line ends at its end. -/
def outputOf : Nat → Script → Act String
  | 0, _ => return ""
  | fuel + 1, body => do
    let before ← get
    let sink ← Act.open_ (.sink Act.endless [])
    Act.connect 1 (some sink)
    let result ← Act.attempt (isolated false false fuel body)
    let text ← Act.written sink
    modify fun p => { p with
      descriptors := before.descriptors, substituted := p.status, status := before.status }
    Act.release sink
    Act.resume result
    return withoutLineEnds (String.ofList (text.toList.filter (· != '\x00')))
termination_by structural fuel => fuel

/-- Runs a script in a shell of its own, of which only what it does to files and what it writes remains.
Unless `isQuiet` holds, it is said if a signal ended it. -/
def isolated (expected isQuiet : Bool) : Nat → Script → Act Unit
  | 0, _ => return
  | fuel + 1, script => do
    if !isQuiet then settleDue
    let before ← get
    let size := before.streams.size
    set { before with
      traps := before.traps.filter (·.2 == "")
      isInner := true
      pending := []
      givesWay := script matches .simple .. | .redirected _ (.simple ..) _ }
    let result ← Act.attempt (do
      let result ← Act.attempt (eval expected fuel script)
      atEnd fuel result)
    Act.sync
    modify fun p => { before with
      files := p.files, streams := p.streams, executables := p.executables, nextNumber := p.nextNumber,
      clock := p.clock, status := p.status % 256, sent := p.sent, late := p.late }
    Act.release size
    if let .error .expired := result then throw .expired
    if let .error (.killed signal) := result then
      if isQuiet then Act.ended (128 + signal) else sayKilled signal
    if !before.isInner && !isQuiet then
      let { sent, .. } ← get
      modify fun p => { p with sent := [] }
      sent.forM fun (_, signal) => receive signal
      settleDue
termination_by structural fuel => fuel

/-- Runs what is to be run at the end of a shell. -/
def atEnd : Nat → Except Flow Unit → Act Unit
  | 0, _ => return
  | fuel + 1, result => do
    if let .error (.killed signal) := result then throw (.killed signal)
    if let .error .expired := result then throw .expired
    let p ← get
    match p.traps.lookup "EXIT" with
    | none => return
    | some text =>
      set { p with traps := p.traps.filter (·.1 != "EXIT"), command := none, loops := 0 }
      match ← Act.attempt (runText false fuel { rest := text.toList }) with
      | .error .leave => return
      | .error (.killed signal) => throw (.killed signal)
      | .error .expired => throw .expired
      | _ => Act.ended p.status
termination_by structural fuel => fuel

/-- The text of a word, uncut. -/
def textOf : Nat → ScriptWord → Act String
  | 0, _ => return ""
  | fuel + 1, word => return piecesText (← piecesOf {} fuel word)
termination_by structural fuel => fuel

/-- The fields of some words. What is assigned in the arguments of some commands is not cut. -/
def fieldsOf (assigns : Bool) : Nat → List ScriptWord → Act (List String)
  | 0, _ => return []
  | fuel + 1, words => do
    let fields ← words.mapM fun word => do
      match assigns, Reader.assignment? word with
      | true, some (name, value) => return [name ++ "=" ++ (← textOf fuel value)]
      | _, _ =>
        let cut := Fields.ofPieces (← fieldSeparators) (← piecesOf { cuts := true } fuel word)
        if (← Act.option 'f') || !cut.any Pattern.isWritten then return cut.map unmarked
        else
          let files ← Act.files
          return cut.flatMap (textsOf files (← get).directory false)
    return fields.flatten
termination_by structural fuel => fuel

/-- The name of a command and its arguments. -/
def commandOf : Nat → List ScriptWord → Act (List String)
  | 0, _ => return []
  | _, [] => return []
  | fuel + 1, word :: rest => do
    let first ← fieldsOf false fuel [word]
    if first == ["command"] then return first ++ (← commandOf fuel rest)
    else if first.isEmpty then commandOf fuel rest
    else return first ++ (← fieldsOf (first.head?.any takesAssignments) fuel rest)
termination_by structural fuel => fuel

/-- Follows redirections in order; tells whether none of them was refused. -/
def redirectAll : Nat → List Redirection → Act Bool
  | 0, _ => return true
  | _, [] => return true
  | fuel + 1, .mk descriptor mode target :: rest => do
    let documents := (← get).documents
    let word := match mode with
      | .document number => (documents[number]?).getD []
      | _ => target
    match ← redirectTo descriptor mode (← textOf fuel word) with
    | .ok _ => redirectAll fuel rest
    | .error cause =>
      Act.report cause
      Act.ended 2
      return false
termination_by structural fuel => fuel

/-- Does something under redirections, and ends them. A refused one ends the shell where `isFatal` holds. -/
def under (isFatal : Bool) (redirections : List Redirection) : Nat → Act Unit → Act Unit
  | 0, _ => return
  | fuel + 1, act => do
    if redirections.isEmpty then act
    else
      let before ← get
      let result ← Act.attempt (redirectAll fuel redirections)
      let result ← match result with
        | .ok true => Act.attempt act
        | .ok false => pure (if isFatal then .error .fault else .ok ())
        | .error flow => pure (.error flow)
      redirections.forM fun | .mk descriptor _ _ => Act.connect descriptor (before.descriptors.lookup descriptor)
      Act.release before.streams.size
      Act.resume result
termination_by structural fuel => fuel

/-- Makes assignments; answers with how they are shown. -/
def assignAll (exports : Bool) : Nat → List (String × ScriptWord) → Act (List String)
  | 0, _ => return []
  | fuel + 1, assignments => assignments.mapM fun (name, word) => do
    let value ← textOf fuel word
    Act.assign name value
    if exports then Act.changeVariable name fun v => { v with isExported := true }
    return name ++ "=" ++ value
termination_by structural fuel => fuel

/-- Shows a command before it is run, if that is asked for. -/
def traceCommand (stream : Option Nat) : Nat → List String → Act Unit
  | 0, _ => return
  | fuel + 1, texts => do
    if ← Act.option 'x' then
      let start := ((← Act.valueOf? "PS4").getD "")
      let start ← match (Reader.word .document (Reader.fuelFor { rest := start.toList })).run
          { rest := start.toList } with
        | .ok (word, _) => textOf fuel word
        | .error _ => pure start
      if let some number := stream then
        let descriptors := (← get).descriptors
        Act.connect 2 (some number)
        Act.complain (start ++ " ".intercalate texts)
        modify fun p => { p with descriptors }
termination_by structural fuel => fuel

/-- Runs the command that some fields name. `expected` says that a failure of it does not end the shell. -/
def execute (expected isFatal : Bool) : Nat → List String → Act Unit
  | 0, _ => return
  | _, [] => return
  | fuel + 1, name :: arguments => do
    let { givesWay, .. } ← get
    modify fun p => { p with givesWay := false }
    match specialBuiltins.lookup name with
    | some act => underName name isFatal (Act.noticing (unwritten name) (act arguments))
    | none =>
      match name with
      | "eval" => underName name isFatal do
        let text := " ".intercalate arguments
        if (trim text.toList).isEmpty then Act.ended 0
        runText expected fuel { rest := text.toList }
      | "exec" => underName name isFatal (exec fuel arguments)
      | "." => underName name isFatal (source fuel arguments)
      | _ =>
        match (← get).functions.lookup name with
        | some function =>
          withinFunction function.line arguments (eval expected fuel function.body)
        | none =>
          match regularBuiltins.lookup name with
          | some act => underName name false (Act.noticing (unwritten name) (act arguments))
          | none =>
            match name with
            | "command" => commandBuiltin expected fuel arguments
            | "type" => underName name false (Act.noticing (unwritten name) (type arguments))
            | "hash" => underName name false (hash arguments)
            | _ => start givesWay fuel name arguments
termination_by structural fuel => fuel

/-- Runs a command that is no function, or tells what names stand for. -/
def commandBuiltin (expected : Bool) : Nat → List String → Act Unit
  | 0, _ => return
  | fuel + 1, arguments => do
    modify fun p => { p with command := some "command" }
    let result ← Act.attempt (flagsOf "pvV" "" (arguments.length + 1) arguments)
    modify fun p => { p with command := none }
    match result with
    | .error .fault => return
    | .error flow => throw flow
    | .ok (flags, operands) =>
      match flags.getLast?, operands with
      | some ('v', _), name :: _ => Act.ended (if ← tellName false name then 0 else 127)
      | some ('V', _), name :: _ => Act.ended (if ← tellName true name then 0 else 127)
      | _, [] => Act.ended 0
      | _, name :: rest =>
        if isBuiltin name then execute expected false fuel (name :: rest) else start false fuel name rest
termination_by structural fuel => fuel

/-- Runs a command in place of the shell. -/
def exec : Nat → List String → Act Unit
  | 0, _ => return
  | _, [] => Act.ended 0
  | fuel + 1, name :: arguments => do
    match ← findExecutable "" name with
    | .error refusal =>
      Act.report s!"{name}: {refusal.cause}"
      Act.ended refusal.status
    | .ok found =>
      modify fun p => { p with traps := [] }
      launch fuel found name arguments
    throw .leave
termination_by structural fuel => fuel

/-- Runs the script in a file within the shell. -/
def source : Nat → List String → Act Unit
  | 0, _ => return
  | _, [] => Act.ended 0
  | fuel + 1, name :: _ => do
    let path? ← do
      if name.toList.contains '/' then pure (some name)
      else
        let directories := splitAt ':' ((← Act.valueOf? "PATH").getD "").toList
        let files ← Act.files
        let p ← get
        pure ((directories.map fun directory =>
          if directory.isEmpty then name else String.ofList directory ++ "/" ++ name).find? fun path =>
            files.isFile (p.directory.join (.ofString (toText path))))
    match path? with
    | none => Act.abort s!"{name}: not found"
    | some path =>
      match ← Act.readFile path with
      | .error .isDirectory => Act.ended 0
      | .error fault => Act.abort (openingRefusal "open" "No such file" path fault)
      | .ok text =>
        underName path true do
          Act.ended 0
          match ← Act.attempt (runText false fuel { rest := text }) with
          | .error .back => return
          | result => Act.resume result
termination_by structural fuel => fuel

/-- Starts the program that a name stands for, and waits for its end unless the shell gives way to it. -/
def start (givesWay : Bool) : Nat → String → List String → Act Unit
  | 0, _, _ => return
  | fuel + 1, name, arguments => do
    match ← findExecutable "" name with
    | .error refusal =>
      Act.report s!"{name}: {refusal.cause}"
      Act.ended refusal.status
    | .ok found =>
      settleDue
      let act := launch fuel found name arguments
      if givesWay then act else sayingKilled act
      settleDue
termination_by structural fuel => fuel

/-- Starts a program, or the interpreter of a script. -/
def launch : Nat → Executable → String → List String → Act Unit
  | 0, _, _, _ => return
  | fuel + 1, found, name, arguments => do
    match found with
    | .program _ program => run fuel program name arguments
    | .script path content =>
      match interpreter? content with
      | none => run fuel .shell name (path :: arguments)
      | some [] => return
      | some (interpreter :: flags) =>
        match ← executableAt interpreter with
        | .ok found => launch fuel found interpreter (flags ++ path :: arguments)
        | .error fault =>
          let refusal := Unstarted.ofFault fault
          Act.report s!"{name}: {refusal.cause}"
          Act.ended refusal.status
termination_by structural fuel => fuel

/-- Runs a program under a name. -/
def run : Nat → Program → String → List String → Act Unit
  | 0, _, _, _ => return
  | fuel + 1, program, name, arguments => do
    let called := if name.toList.contains '/' then some (baseName name, name) else none
    match program with
    | .tool act => calledAs called (Act.noticing (toolUnwritten (baseName name)) (act arguments))
    | .finder => which arguments
    | .launcher act =>
      calledAs called <| Act.noticing (toolUnwritten (baseName name)) do
        act (fun command => do
          match command with
          | [] => return
          | name :: arguments =>
            match ← findExecutable bareSearchPath name with
            | .error refusal => throw (.unstarted name refusal.status)
            | .ok found => calledAs none (launch fuel found name arguments)) arguments
    | .shell =>
      let before ← get
      let size := before.streams.size
      set { before with
        name, arguments := [], line := 0, command := none, functions := [], aliases := [], functionLine := none, depth := 0,
        documents := [], locals := [], traps := before.traps.filter (·.2 == ""), pending := [], options := [],
        number := before.nextNumber, nextNumber := before.nextNumber + 1, optionOffset := none, loops := 0,
        isInner := false, givesWay := false, sent := [],
        children := [], status := 0, substituted := 0, bindings := inherited before }
      let result ← Act.attempt (do
        let result ← Act.attempt (shell fuel arguments)
        atEnd fuel result)
      Act.sync
      modify fun p => { before with
        files := p.files, streams := p.streams, executables := p.executables, nextNumber := p.nextNumber,
        clock := p.clock, status := p.status % 256, late := p.late }
      Act.release size
      match result with
      | .error (.killed signal) => throw (.killed signal)
      | .error .expired => throw .expired
      | _ => return
termination_by structural fuel => fuel

/-- Runs a shell with arguments: a script given as such, one in a file, or one in its input. -/
def shell : Nat → List String → Act Unit
  | 0, _ => return
  | fuel + 1, arguments => do
    match OptionReading.read true { inForce := [] } (arguments.length + 1) arguments with
    | .error cause => Act.abort cause
    | .ok r =>
      let begin_ (text : List Char) (rest : List String) : Act Unit := do
        modify fun p => { p with arguments := rest, line := 1 }
        match ← Act.attempt (runText false fuel { rest := text }) with
        | .error .back => return
        | result => Act.resume result
      let named (name : String) : Act Unit := modify fun p => { p with name }
      let options := if r.rest.isEmpty && !r.command then 's' :: r.inForce else r.inForce
      modify fun p => { p with options }
      if r.command then
        match r.rest with
        | [] => Act.abort "-c requires an argument"
        | [text] => begin_ text.toList []
        | text :: name :: rest =>
          named name
          begin_ text.toList rest
      else if options.contains 's' then
        let text ← Act.takeInput
        begin_ text r.rest
      else
        let name := r.rest.headD ""
        match ← Act.readFile name with
        | .error .isDirectory => return
        | .error fault => Act.abort (openingRefusal "open" "No such file" name fault)
        | .ok text =>
          named name
          begin_ text (r.rest.drop 1)
termination_by structural fuel => fuel

/-- Runs the text of a script, a line at a time. -/
def runText (expected : Bool) : Nat → Source → Act Unit
  | 0, _ => return
  | fuel + 1, source => do
    let { documents, aliases, .. } ← get
    match Reader.line?.run { source with documents, aliases } with
    | .error e =>
      modify fun p => { p with line := e.line }
      Act.abort s!"Syntax error: {e.fault.message}"
    | .ok (none, _) => return
    | .ok (some script, source) =>
      modify fun p => { p with documents := source.documents }
      eval expected fuel script
      runText expected fuel source
termination_by structural fuel => fuel

/-- Runs a pipe: each part reads what the one before it wrote. -/
def pipeline (expected : Bool) : Nat → List Script → Act Unit
  | 0, _ => return
  | _, [] => return
  | fuel + 1, part :: rest => do
    if rest.isEmpty then isolated expected false fuel part
    else
      let before ← get
      let sink ← Act.open_ (.sink pipeRoom [])
      Act.connect 1 (some sink)
      let result ← Act.attempt (isolated expected false fuel part)
      let text ← Act.written sink
      modify fun p => { p with descriptors := before.descriptors }
      Act.release sink
      Act.resume result
      let input ← Act.open_ (.source false text.toList)
      Act.connect 0 (some input)
      let result ← Act.attempt (pipeline expected fuel rest)
      modify fun p => { p with descriptors := before.descriptors }
      Act.release before.streams.size
      Act.resume result
termination_by structural fuel => fuel

/-- Runs a command with its assignments and redirections. -/
def simple (expected : Bool) (assignments : List (String × ScriptWord)) (words : List ScriptWord)
    (redirections : List Redirection) : Nat → Act Unit
  | 0 => return
  | fuel + 1 => do
    modify fun p => { p with substituted := 0 }
    let fields ← commandOf fuel words
    let errors ← Act.streamOf? 2
    match fields with
    | [] =>
      under false redirections fuel do
        let shown ← assignAll false fuel assignments
        traceCommand errors fuel shown
        Act.ended (← get).substituted
    | name :: arguments =>
      let isFatal := isSpecial name
      if name == "exec" && arguments.isEmpty then
        let _ ← assignAll false fuel assignments
        if ← redirectAll fuel redirections then Act.ended 0 else throw .fault
      else
        under isFatal redirections fuel do
          let before := (← get).bindings
          let shown ← assignAll (!isFatal) fuel assignments
          traceCommand errors fuel (shown ++ fields)
          let result ← Act.attempt (execute expected true fuel fields)
          if !isFatal then
            restoreVariables (assignments.map fun entry => (entry.1, before.lookup entry.1))
          Act.resume result
termination_by structural fuel => fuel

/-- Runs a script. `expected` says that a failure does not end the shell. -/
def eval (expected : Bool) : Nat → Script → Act Unit
  | 0, _ => return
  | fuel + 1, script => do
    if ← Act.option 'n' then return
    let at_ (line : Nat) : Act Unit := modify fun p =>
      { p with line := match p.functionLine with
        | some first => line - (first - 1)
        | none => line }
    let checked (act : Act Unit) : Act Unit := do
      act
      let p ← get
      if p.status != 0 && !expected && p.options.contains 'e' then throw .leave
    match script with
    | .empty => return
    | .simple line assignments words redirections =>
      at_ line
      checked (simple expected assignments words redirections fuel)
    | .sequence first second =>
      eval expected fuel first
      eval expected fuel second
    | .ifSucceeds first second =>
      eval true fuel first
      if (← get).status == 0 then eval expected fuel second
    | .ifFails first second =>
      eval true fuel first
      if (← get).status != 0 then eval expected fuel second
    | .negated body =>
      eval true fuel body
      modify fun p => { p with status := if p.status == 0 then 1 else 0 }
    | .choice condition yes no =>
      eval true fuel condition
      if (← get).status == 0 then eval expected fuel yes
      else match no with
        | .empty => Act.ended 0
        | no => eval expected fuel no
    | .loop whileSuccess condition body =>
      turns (do
        eval true fuel condition
        if ((← get).status == 0) == whileSuccess then
          eval expected fuel body
          return false
        else return true) mostTurns 0
    | .each line name items body =>
      at_ line
      let values ← fieldsOf false fuel items
      Act.ended 0
      forEach name (eval expected fuel body) values
    | .cases line word branches =>
      at_ line
      modify fun p => { p with substituted := 0 }
      let text := (piecesText (← piecesOf {} fuel word)).toList
      branch expected text fuel branches
    | .redirected line (.subshell start body) redirections =>
      eval expected fuel (.subshell start (.redirected line body redirections))
    | .redirected line body redirections =>
      at_ line
      under false redirections fuel (eval expected fuel body)
    | .subshell line body =>
      at_ line
      checked (isolated expected false fuel body)
    | .pipe parts => checked (pipeline expected fuel parts)
    | .background body =>
      let before ← get
      modify fun p => { p with late := [], sent := [], firstStream := p.streams.size }
      (before.descriptors.filter fun entry => entry.1 != 0).forM fun (descriptor, number) => do
        match before.streams[number]? with
        | some (.later _) => pure ()
        | _ =>
          let number ← Act.open_ (.later number)
          Act.connect descriptor (some number)
      let empty ← Act.open_ .nothing
      Act.connect 0 (some empty)
      isolated expected true fuel body
      modify fun p =>
        let signals : List LateDeed := p.sent.reverse.map fun (time, signal) => ⟨time, 0, .send signal⟩
        let own := (p.late ++ signals).map fun deed => { deed with child := p.nextNumber }
        { p with
          descriptors := before.descriptors, children := ⟨p.nextNumber, p.status, p.clock⟩ :: p.children,
          nextNumber := p.nextNumber + 1, status := 0, clock := before.clock, sent := before.sent,
          firstStream := before.firstStream,
          late := own ++ before.late }
    | .define line name body =>
      modify fun p => { p with
        functions := (name, ⟨line, body⟩) :: p.functions.filter (·.1 != name), status := 0 }
    match (← get).pending with
    | [] => return
    | texts =>
      modify fun p => { p with pending := [] }
      texts.forM fun text => do
        let status := (← get).status
        runText expected fuel { rest := text.toList }
        Act.ended status
termination_by structural fuel => fuel

/-- Runs the first branch with a pattern that describes a text. -/
def branch (expected : Bool) (text : List Char) : Nat → List (List ScriptWord × Script) → Act Unit
  | 0, _ => return
  | _, [] => Act.ended 0
  | fuel + 1, (patterns, body) :: rest => do
    if ← isDescribed text fuel patterns then
      Act.ended (← get).substituted
      eval expected fuel body
    else branch expected text fuel rest
termination_by structural fuel => fuel

/-- Whether one of some patterns describes a text. -/
def isDescribed (text : List Char) : Nat → List ScriptWord → Act Bool
  | 0, _ => return false
  | _, [] => return false
  | fuel + 1, pattern :: rest => do
    if (Pattern.ofMarked (piecesMarked (← piecesOf {} fuel pattern))).accepts text then return true
    else isDescribed text fuel rest
termination_by structural fuel => fuel

end

/-- The fuel that a command is run with. -/
def plenty : Nat := 1000000

end WasmPackaging.Shell
