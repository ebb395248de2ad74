import WasmPackaging.Shell.Tools.Files

/-!
Tools that start other commands: with other variables, with arguments from an input, or for a time.
-/

namespace WasmPackaging.Shell

open Text

/-- A tool that starts commands, given how one is run. -/
abbrev Launcher := (List String → Act Unit) → Tool

/-- How a command ended: with a status, by a signal, or without a start. -/
inductive CommandEnd where
  | ended (status : Int)
  | killed (signal : Nat)
  | unstarted (status : Int)
  deriving DecidableEq

/-- Runs a command; answers with how it ended. -/
def commandEnd (act : Act Unit) : Act CommandEnd := do
  match ← Act.attempt act with
  | .ok _ => return .ended (← get).status
  | .error (.killed signal) => return .killed signal
  | .error (.unstarted _ status) => return .unstarted status
  | .error .expired => throw .expired
  | .error _ => return .ended (← get).status

/-- Why a command could not be started, by the status that this counts as. -/
def startCause (status : Int) : String :=
  if status == 126 then Fault.noPermission.text else Fault.notFound.text

/-- Runs a command in place of a tool, which complains if it cannot be started. -/
def takePlace (complaint : String → String) (launch : List String → Act Unit) (command : List String) :
    Act Unit := do
  match ← commandEnd (launch command) with
  | .unstarted status =>
    let complaint := complaint (command.headD "")
    Act.failing status s!"{complaint}: {startCause status}"
  | .killed signal => throw (.killed signal)
  | .ended status => Act.ended status

/-! ## Other variables -/

/-- The variables that are passed on. -/
def passedVariables : Act (List (String × String)) := do
  return (← get).bindings.filterMap fun (name, v) => if v.isExported then v.value.map (name, ·) else none

/-- Whether an argument assigns a variable. -/
def isAssignment (argument : String) : Bool := argument.toList.contains '='

/-- The words of a text, cut at blanks outside of quotes. -/
def quotedWords : List Char → Option (List Char) → Option Char → List String
  | [], current, _ => current.toList.map (String.ofList ·.reverse)
  | c :: rest, current, quote =>
    match quote with
    | some q =>
      if c == q then quotedWords rest current none else quotedWords rest (some (c :: current.getD [])) quote
    | none =>
      if c == '"' || c == '\'' then quotedWords rest (some (current.getD [])) (some c)
      else if c == ' ' || c == '\t' || c == '\n' then
        current.toList.map (String.ofList ·.reverse) ++ quotedWords rest none none
      else quotedWords rest (some (c :: current.getD [])) none

/-- Arguments in which a text behind a flag is cut into arguments. -/
def withSplitFlag : List String → List String
  | "-S" :: text :: rest => quotedWords text.toList none none ++ rest
  | argument :: rest =>
    match argument.toList with
    | '-' :: 'S' :: text => quotedWords text none none ++ rest
    | _ => argument :: rest
  | [] => []

/-- Runs a command with other variables or in another directory, or lists the variables. -/
def env : Launcher := fun launch arguments =>
  let table : FlagTable :=
    { tool := "env", letters := "i0v", valued := "uC", inOrder := true, failure := 125,
      long := [("ignore-environment", 'i'), ("null", '0'), ("unset", 'u'), ("chdir", 'C')] }
  table.run (withSplitFlag arguments) fun given => do
    let before ← get
    let (isBare, operands) := match given.operands with
      | "-" :: rest => (true, rest)
      | operands => (given.has 'i', operands)
    let assignments := operands.takeWhile isAssignment
    let command := operands.drop assignments.length
    match (given.values 'u').find? fun name => name == "" || isAssignment name with
    | some name => Act.failing 125 s!"env: cannot unset {curlyQuoted name}: Invalid argument"
    | none =>
      if isBare then modify fun p => { p with bindings := [] }
      modify fun p => { p with bindings := p.bindings.filter fun entry => !(given.values 'u').contains entry.1 }
      assignments.forM fun assignment => do
        let name := assignment.toList.takeWhile (· != '=')
        let value := String.ofList (assignment.toList.drop (name.length + 1))
        Act.changeVariable (String.ofList name) fun _ => ⟨some value, true, false⟩
      let directory := given.value? 'C'
      let fault? ← match directory with
        | none => pure none
        | some name => do
          match ← Act.follow name with
          | .ok (.entry location .directory) =>
            modify fun p => { p with directory := .ofLocation location }
            pure none
          | .ok (.entry _ _) => pure (some Fault.notDirectory)
          | .ok (.vacant _) => pure (some Fault.notFound)
          | .error fault => pure (some fault)
      let result ← Act.attempt (do
        match fault?, command with
        | some fault, _ =>
          let name := nameQuoted (directory.getD "")
          Act.failing 125 s!"env: cannot change directory to {name}: {fault.text}"
        | none, [] =>
          (← passedVariables).forM fun (name, value) =>
            Act.say (s!"{name}={value}" ++ if given.has '0' then "\x00" else "\n")
          Act.ended 0
        | none, command => takePlace (fun name => s!"env: {curlyQuoted name}") launch command)
      modify fun p => { p with bindings := before.bindings, directory := before.directory }
      Act.resume result

/-- Writes the values of variables. -/
def printenv : Tool := fun arguments =>
  let table : FlagTable := { tool := "printenv", letters := "0", long := [("null", '0')], inOrder := true, failure := 2 }
  table.run arguments fun given => do
    let ending := if given.has '0' then "\x00" else "\n"
    let passed ← passedVariables
    if given.operands.isEmpty then
      passed.forM fun (name, value) => Act.say s!"{name}={value}{ending}"
      Act.ended 0
    else
      let values := given.operands.map fun name => passed.lookup name
      (values.filterMap id).forM fun value => Act.say (value ++ ending)
      Act.ended (if values.all Option.isSome then 0 else 1)

/-- Writes the directory. -/
def pwd : Tool := fun arguments =>
  let table : FlagTable := { tool := "pwd", letters := "LP", long := [("logical", 'L'), ("physical", 'P')] }
  table.run arguments fun _ => do
    let p ← get
    let path := match (← Act.files).follow p.directory with
      | .ok (.entry location _) => Path.ofLocation location
      | _ => p.directory
    Act.say (ofText path.toString ++ "\n")
    Act.ended 0

/-! ## Arguments from an input -/

/-- An argument from an input, and whether its line ends behind it. -/
structure InputArgument where
  text : String
  endsLine : Bool := false

/-- Arguments from an input in order, and why no more could be read. -/
structure InputArguments where
  arguments : List InputArgument := []
  fault : Option String := none

/-- An argument in front of others. -/
def InputArguments.add (current : Option (List Char)) (endsLine : Bool) (others : InputArguments) :
    InputArguments :=
  match current with
  | none => others
  | some text => { others with arguments := ⟨String.ofList text.reverse, endsLine⟩ :: others.arguments }

/-- Reads arguments between blanks, or lines, with quotes and backslashes. -/
def InputArguments.read (byLine : Bool) : List Char → Option (List Char) → Option Char → InputArguments
  | [], current, none => InputArguments.add current true {}
  | [], _, some quote =>
    let kind := if quote == '"' then "double" else "single"
    { fault := some (s!"unmatched {kind} quote; by default quotes are special to xargs " ++
        "unless you use the -0 option") }
  | c :: rest, current, some quote =>
    if c == '\n' then InputArguments.read byLine [] current (some quote)
    else if c == quote then InputArguments.read byLine rest current none
    else InputArguments.read byLine rest (some (c :: current.getD [])) (some quote)
  | '\n' :: rest, current, none => (InputArguments.read byLine rest none none).add current true
  | '\\' :: c :: rest, current, none => InputArguments.read byLine rest (some (c :: current.getD [])) none
  | '\\' :: [], current, none => InputArguments.read byLine [] current none
  | c :: rest, current, none =>
    if c == '"' || c == '\'' then InputArguments.read byLine rest (some (current.getD [])) (some c)
    else if c == ' ' || c == '\t' then
      if byLine then InputArguments.read byLine rest (current.map (c :: ·)) none
      else (InputArguments.read byLine rest none none).add current false
    else InputArguments.read byLine rest (some (c :: current.getD [])) none

/-- Arguments that a mark ends. -/
def InputArguments.between (mark : Char) (text : List Char) : InputArguments :=
  let parts := splitAt mark text
  let parts := if parts.getLast? == some [] then parts.dropLast else parts
  { arguments := parts.map fun part => ⟨String.ofList part, true⟩ }

/-- How many characters a command may have, with one behind each argument. -/
def longestCommand : Nat := 131072

/-- Arguments in groups, each full but the last one: by number, by lines, or by room. -/
def groupArguments (most lines : Option Nat) (room : Nat) :
    List InputArgument → List String → Nat → Nat → List (List String) × Option (List String)
  | [], [], _, _ => ([], none)
  | [], current, _, _ => ([], some current.reverse)
  | argument :: rest, current, used, ended =>
    let size := argument.text.utf8ByteSize + 1
    let isFull := !current.isEmpty &&
      (used + size > room || most == some current.length || lines == some ended)
    let (current, used, ended, done) := if isFull then ([], 0, 0, [current.reverse]) else (current, used, ended, [])
    let (groups, last) := groupArguments most lines room rest (argument.text :: current) (used + size)
      (if argument.endsLine then ended + 1 else ended)
    (done ++ groups, last)

/-- What the ends of the commands that were run come to: a status so far, or a complaint that ends it all. -/
def countEnd (command : String) (so : Int) : CommandEnd → Except (Int × String) Int
  | .unstarted status => .error (status, s!"xargs: {command}: {startCause status}")
  | .killed signal => .error (125, s!"xargs: {command}: terminated by signal {signal}")
  | .ended 255 => .error (124, s!"xargs: {command}: exited with status 255; aborting")
  | .ended 0 => .ok so
  | .ended _ => .ok 123

/-- Runs commands one after the other; answers with the status of all. -/
def runCommands (launch : List String → Act Unit) (shows : Bool) : Int → List (List String) → Act (Option Int)
  | status, [] => return some status
  | status, command :: rest => do
    if shows then Act.complain (" ".intercalate (command.map (shellQuoted false)))
    match countEnd (command.headD "") status (← commandEnd (launch command)) with
    | .ok status => runCommands launch shows status rest
    | .error (status, complaint) =>
      Act.failing status complaint
      return none

/-- Arguments in which a flag that takes its value from the same argument has a value. -/
def xargsTable : FlagTable :=
  { tool := "xargs", letters := "0rtxpo", valued := "nILsdEaP", optional := "iel",
    long := [("null", '0'), ("no-run-if-empty", 'r'), ("verbose", 't'), ("exit", 'x'), ("max-args", 'n'),
      ("max-lines", 'l'), ("replace", 'i'), ("max-chars", 's'), ("delimiter", 'd'), ("eof", 'e'),
      ("arg-file", 'a'), ("max-procs", 'P')],
    inOrder := true }

/-- Runs a command with arguments from an input. -/
def xargs : Launcher := fun launch arguments =>
  xargsTable.run arguments fun given => do
    let wrong (cause : String) : Act Unit :=
      Act.failing 1 s!"xargs: {cause}\nTry 'xargs --help' for more information."
    let number (letter : Char) : Except String (Option Nat) :=
      match given.value? letter with
      | none | some "" => .ok none
      | some text =>
        match text.toNat? with
        | none => .error s!"invalid number \"{text}\" for -{letter} option"
        | some 0 => if letter == 'P' then .ok (some 0) else .error s!"value 0 for -{letter} option should be >= 1"
        | some n => .ok (some n)
    let read : Except String (Option Nat × Option Nat × Option Nat) := do
      let most ← number 'n'
      let lines ← number 'L'
      let older ← number 'l'
      let room ← number 's'
      let _ ← number 'P'
      let lines := lines.or (if given.has 'l' then some (older.getD 1) else none)
      return (most, lines, room)
    match read with
    | .error cause => wrong cause
    | .ok (most, lines, room) =>
      let content ← match given.value? 'a' with
        | some name => Act.readFile name
        | none => do pure (.ok (← Act.takeInput))
      match content with
      | .error fault =>
        let name := curlyQuoted (given.value? 'a' |>.getD "")
        Act.failing 1 s!"xargs: Cannot open input file {name}: {fault.text}"
      | .ok text =>
        let mark? := given.flags.reverse.findSome? fun (letter, value) =>
          if letter == '0' then some '\x00'
          else if letter == 'd' then
            match value.toList with
            | '\\' :: c :: _ => some ((controlOf? c).getD (if c == '0' then '\x00' else c))
            | c :: _ => some c
            | [] => some '\x00'
          else none
        let replaced? := (given.value? 'I').or
          ((given.value? 'i').map fun text => if text == "" then "\x7b\x7d" else text)
        let input := match mark? with
          | some mark => InputArguments.between mark text
          | none => InputArguments.read replaced?.isSome text none none
        let stop? := (given.value? 'E').or (given.value? 'e')
        let items := match stop? with
          | some stop => if stop == "" then input.arguments else input.arguments.takeWhile (·.text != stop)
          | none => input.arguments
        let command := if given.operands.isEmpty then ["echo"] else given.operands
        let before := (← get).descriptors
        if (given.value? 'a').isNone then
          let empty ← Act.open_ .nothing
          Act.connect 0 (some empty)
        let commands : Except String (List (List String)) :=
          match replaced? with
          | some mark =>
            .ok (items.map fun item => command.map fun word => if mark == "" then word else word.replace mark item.text)
          | none =>
            let used := command.foldl (fun n word => n + word.utf8ByteSize + 1) 0
            let room := room.getD longestCommand
            if items.any fun item => used + item.text.utf8ByteSize + 1 > room then .error "argument line too long"
            else
              let (groups, last?) := groupArguments most lines (room - used) items [] 0 0
              let isWhole (group : List String) : Bool := input.fault.isNone || most == some group.length
              let groups := groups ++ last?.toList.filter isWhole
              let groups := if items.isEmpty && input.fault.isNone && !given.has 'r' then [[]] else groups
              .ok (groups.map (command ++ ·))
        let result ← Act.attempt (do
          match commands with
          | .error cause => Act.failing 1 s!"xargs: {cause}"
          | .ok commands =>
            let early := if input.fault.isSome then commands.dropLast else commands
            if let some status ← runCommands launch (given.has 't') 0 early then
              match input.fault with
              | none => Act.ended status
              | some fault =>
                Act.complain s!"xargs: {fault}"
                let _ ← runCommands launch (given.has 't') 0 (commands.drop early.length)
                Act.ended 1)
        modify fun p => { p with descriptors := before }
        Act.resume result

/-! ## Time -/

/-- The milliseconds that a text names: a decimal number with the letter of a unit. -/
def milliseconds? (text : String) : Option Nat :=
  let chars := text.toList
  let whole := chars.takeWhile Char.isDigit
  let (fraction, rest) := match chars.drop whole.length with
    | '.' :: rest => (rest.takeWhile Char.isDigit, rest.dropWhile Char.isDigit)
    | rest => ([], rest)
  let unit? : Option Nat := match rest with
    | [] | ['s'] => some 1
    | ['m'] => some 60
    | ['h'] => some 3600
    | ['d'] => some 86400
    | _ => none
  if whole.isEmpty && fraction.isEmpty then none
  else unit?.map fun unit => decimal (whole ++ (fraction ++ ['0', '0', '0']).take 3) * unit

/-- Waits for a time. -/
def sleep : Tool := fun arguments =>
  let table : FlagTable := { tool := "sleep" }
  table.run arguments fun given => do
    match given.operands.filter fun text => (milliseconds? text).isNone with
    | [] =>
      if given.operands.isEmpty then Act.failing 1 ("sleep: missing operand" ++ helpHint "sleep")
      else
        Act.passTime (given.operands.foldl (fun n text => n + (milliseconds? text).getD 0) 0)
        Act.ended 0
    | wrong =>
      wrong.forM fun text => Act.complain s!"sleep: invalid time interval {curlyQuoted text}"
      Act.failing 1 "Try 'sleep --help' for more information."

/-- Runs a command for a time at most. -/
def timeout : Launcher := fun launch arguments =>
  let table : FlagTable :=
    { tool := "timeout", letters := "v", valued := "ks",
      long := [("foreground", 'f'), ("preserve-status", 'p'), ("verbose", 'v'), ("kill-after", 'k'), ("signal", 's')],
      inOrder := true, failure := 125 }
  table.run arguments fun given => do
    match given.operands with
    | text :: command@(_ :: _) =>
      match milliseconds? text with
      | none =>
        Act.failing 125 (s!"timeout: invalid time interval {curlyQuoted text}" ++ helpHint "timeout")
      | some limit =>
        let before ← get
        let deadline := before.clock + limit
        let isNearer := limit > 0 && before.deadline.all (decide <| deadline < ·)
        if isNearer then modify fun p => { p with deadline := some deadline }
        let result ← Act.attempt (commandEnd (launch command))
        modify fun p => { p with deadline := before.deadline }
        match result with
        | .error .expired =>
          if !isNearer then throw .expired
          else if ["9", "KILL", "SIGKILL"].contains ((given.value? 's').getD "") then throw (.killed 9)
          else Act.ended (if given.has 'p' then 128 + 15 else 124)
        | .error flow => throw flow
        | .ok (.unstarted status) =>
          let name := curlyQuoted (command.headD "")
          Act.failing status s!"timeout: failed to run command {name}: {startCause status}"
        | .ok (.killed signal) => throw (.killed signal)
        | .ok (.ended status) => Act.ended status
    | _ => Act.failing 125 "Try 'timeout --help' for more information."

/-- Runs a command that hanging up does not end. -/
def nohup : Launcher := fun launch arguments =>
  let table : FlagTable := { tool := "nohup", inOrder := true, failure := 125 }
  table.run arguments fun given => do
    if given.operands.isEmpty then Act.failing 125 ("nohup: missing operand" ++ helpHint "nohup")
    else takePlace (fun name => s!"nohup: failed to run command {nameQuoted name}") launch given.operands

/-- Runs a command with another priority, or tells the priority. -/
def nice : Launcher := fun launch arguments =>
  let table : FlagTable :=
    { tool := "nice", valued := "n", long := [("adjustment", 'n')], inOrder := true, failure := 125 }
  let arguments := match arguments with
    | first :: rest =>
      match first.toList with
      | '-' :: c :: more => (if (c :: more).all Char.isDigit then "-n" ++ String.ofList (c :: more) else first) :: rest
      | _ => first :: rest
    | [] => []
  table.run arguments fun given => do
    match given.operands with
    | [] =>
      Act.say "0\n"
      Act.ended 0
    | command => takePlace (fun name => s!"nice: {curlyQuoted name}") launch command

end WasmPackaging.Shell
