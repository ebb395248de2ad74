import WasmPackaging.Shell.Fields
import WasmPackaging.Shell.Programs
import WasmPackaging.Shell.Reader

/-!
The commands that a shell runs itself and that run no other command: those that change its variables,
options, directory and arguments, and those that tell about it.
-/

namespace WasmPackaging.Shell

open Text

/-! ## Arguments -/

/-- Flags and operands: flags stand before the operands, and two dashes end them. An unknown flag ends
the command. -/
def flagsOf (letters valued : String) : Nat → List String → Act (List (Char × String) × List String)
  | 0, operands => return ([], operands)
  | fuel + 1, operands =>
    match operands with
    | [] => return ([], [])
    | argument :: rest =>
      match argument.toList with
      | ['-', '-'] => return ([], rest)
      | '-' :: c :: more => do
        if valued.toList.contains c then
          match more, rest with
          | [], [] => Act.abort s!"No arg for -{c} option"
          | [], value :: rest =>
            let (flags, operands) ← flagsOf letters valued fuel rest
            return ((c, value) :: flags, operands)
          | value, rest =>
            let (flags, operands) ← flagsOf letters valued fuel rest
            return ((c, String.ofList value) :: flags, operands)
        else if letters.toList.contains c then
          let rest := if more.isEmpty then rest else String.ofList ('-' :: more) :: rest
          let (flags, operands) ← flagsOf letters valued fuel rest
          return ((c, "") :: flags, operands)
        else Act.abort s!"Illegal option -{c}"
      | _ => return ([], operands)

/-- The flags and operands of a command. -/
def withFlags (letters valued : String) (arguments : List String)
    (act : List (Char × String) → List String → Act Unit) : Act Unit := do
  let size := arguments.foldl (fun n argument => n + argument.length + 1) 1
  let (flags, operands) ← flagsOf letters valued size arguments
  act flags operands

/-- The number that an argument writes; anything else ends the command. -/
def numberArgument (s : String) : Act Nat := do
  let n := decimal s.toList
  if s.toList.all Char.isDigit && s != "" && n < Nat.pow 2 31 then return n
  else Act.abort s!"Illegal number: {s}"

/-! ## Variables -/

/-- A value as a shell would read it. -/
def quotedValue (value : String) : String :=
  let parts := splitAt '\'' value.toList
  "'" ++ "'\"'\"'".intercalate (parts.map String.ofList) ++ "'"

/-- The variables by name. -/
def sortedVariables (p : Process) : List (String × Variable) :=
  p.bindings.mergeSort fun a b => decide (a.1 ≤ b.1)

/-- A name and a value that an argument writes. -/
def nameAndValue (argument : String) : String × Option String :=
  let name := argument.toList.takeWhile (· != '=')
  match argument.toList.drop name.length with
  | _ :: value => (String.ofList name, some (String.ofList value))
  | [] => (String.ofList name, none)

/-- Passes variables on to other programs, or fixes their values; without arguments it lists those for which
that was done. -/
def declare (command : String) (fixes : Bool) : Tool := fun arguments =>
  withFlags "p" "" arguments fun flags names => do
    if !flags.isEmpty || names.isEmpty then
      let listed := (sortedVariables (← get)).filter fun entry =>
        if fixes then entry.2.isFixed else entry.2.isExported
      listed.forM fun (name, v) =>
        Act.say (s!"{command} {name}" ++ ((v.value.map ("=" ++ quotedValue ·)).getD "") ++ "\n")
    else
      names.forM fun argument => do
        let (name, value?) := nameAndValue argument
        if !isName name then Act.abort s!"{name}: bad variable name"
        if let some value := value? then Act.assign name value
        Act.changeVariable name fun v =>
          { v with isFixed := v.isFixed || fixes, isExported := v.isExported || !fixes }
    Act.ended 0

/-- Makes variables belong to the function that runs. -/
def localNames : Tool := fun arguments => do
  match (← get).locals with
  | [] => Act.abort "not in a function"
  | _ =>
    arguments.forM fun argument => do
      let (name, value?) := nameAndValue argument
      if !isName name then
        modify fun p => { p with command := none }
        Act.abort s!"{name}: bad variable name"
      modify fun p => { p with locals := match p.locals with
        | [] => []
        | saved :: outer =>
          if saved.any (·.1 == name) then saved :: outer
          else ((name, p.bindings.lookup name) :: saved) :: outer }
      if let some value := value? then Act.assign name value
    Act.ended 0

/-- Puts variables back. -/
def restoreVariables (saved : List (String × Option Variable)) : Act Unit :=
  saved.forM fun (name, old?) =>
    match old? with
    | some old => Act.changeVariable name fun _ => old
    | none => modify fun p => { p with bindings := p.bindings.filter (·.1 != name) }

/-- Forgets variables or functions. -/
def unset : Tool := fun arguments =>
  withFlags "vf" "" arguments fun flags names => do
    if flags.getLast?.any (·.1 == 'f') then
      modify fun p => { p with functions := p.functions.filter fun entry => !names.contains entry.1 }
    else
      names.forM fun name => do
        if !isName name then Act.abort s!"{name}: bad variable name"
        if ((← get).bindings.lookup name).any (·.isFixed) then Act.abort s!"{name}: is read only"
        modify fun p => { p with bindings := p.bindings.filter (·.1 != name) }
    Act.ended 0

/-- Drops arguments from the front. -/
def shiftArguments : Tool := fun arguments => do
  let n ← match arguments with
    | [] => pure 1
    | n :: _ => numberArgument n
  if (← get).arguments.length < n then Act.abort "can't shift that many"
  modify fun p => { p with arguments := p.arguments.drop n, optionOffset := none }
  Act.ended 0

/-! ## Options -/

/-- What the options at the start of some arguments say: the options in force, whether a command follows, the
lists of options that are asked for, and the arguments behind, which replace those of the shell if there
are any or two dashes ask for that. -/
structure OptionReading where
  inForce : List Char
  command : Bool := false
  lists : List Bool := []
  rest : List String := []
  replaces : Bool := false

namespace OptionReading

/-- Puts an option in force, or out of it. -/
def put (r : OptionReading) (on : Bool) (letter : Char) : Except String OptionReading :=
  if shellOptions.any (·.2 == letter) then
    let others := r.inForce.filter (· != letter)
    .ok { r with inForce := if on then letter :: others else others }
  else .error s!"Illegal option -{letter}"

/-- Reads the letters of an argument; tells whether a name for an option follows. -/
def letters (starts on : Bool) (r : OptionReading) : List Char → Except String (OptionReading × Nat)
  | [] => .ok (r, 0)
  | c :: more => do
    if c == 'c' && starts then letters starts on { r with command := true } more
    else if c == 'l' && starts then letters starts on r more
    else if c == 'o' then
      let (r, n) ← letters starts on r more
      return (r, n + 1)
    else letters starts on (← r.put on c) more

/-- Takes the names of options that follow. -/
def named (on : Bool) (r : OptionReading) : Nat → List String → Except String (OptionReading × List String)
  | 0, s => .ok (r, s)
  | n + 1, [] => named on { r with lists := r.lists ++ [on] } n []
  | n + 1, name :: s =>
    match shellOptions.lookup name with
    | some letter => do named on (← r.put on letter) n s
    | none => .error s!"Illegal option -o {name}"

/-- Reads arguments. `starts` holds for those that a shell is started with. -/
def read (starts : Bool) (r : OptionReading) : Nat → List String → Except String OptionReading
  | 0, s => .ok { r with rest := s }
  | _, [] => .ok r
  | fuel + 1, argument :: s =>
    match argument.toList with
    | ['-'] =>
      let inForce := if starts then r.inForce else r.inForce.filter fun c => c != 'x' && c != 'v'
      .ok { r with inForce, rest := s, replaces := !s.isEmpty }
    | ['-', '-'] => .ok { r with rest := s, replaces := true }
    | sign :: more =>
      if sign == '-' || sign == '+' then do
        let (r, n) ← letters starts (sign == '-') r more
        let (r, s) ← named (sign == '-') r n s
        read starts r fuel s
      else .ok { r with rest := argument :: s, replaces := true }
    | [] => .ok { r with rest := argument :: s, replaces := true }

end OptionReading

/-- The list of the options, as a table or as commands. -/
def optionList (table : Bool) (p : Process) : String :=
  let width (name : String) : String := name ++ String.ofList (List.replicate (16 - name.length) ' ')
  let shown (name : String) (isOn : Bool) : String :=
    if table then width name ++ (if isOn then "on" else "off") ++ "\n"
    else "set " ++ (if isOn then "-" else "+") ++ s!"o {name}\n"
  (if table then "Current option settings\n" else "") ++
    String.join (shellOptions.map fun (name, letter) => shown name (p.options.contains letter)) ++
    shown "nolog" false ++ shown "debug" false

/-- Changes options and arguments, or lists the variables. -/
def setOptions : Tool := fun arguments => do
  let p ← get
  if arguments.isEmpty then
    (sortedVariables p).forM fun (name, v) =>
      match v.value with
      | some value => Act.say s!"{name}={quotedValue value}\n"
      | none => pure ()
  else
    match OptionReading.read false { inForce := p.options } (arguments.length + 1) arguments with
    | .error cause => Act.abort cause
    | .ok r =>
      modify fun p => { p with options := r.inForce }
      if r.replaces then modify fun p => { p with arguments := r.rest, optionOffset := none }
      let p ← get
      r.lists.forM fun table => Act.say (optionList table p)
  Act.ended 0

/-- The letters of the options in force. -/
def optionLetters (p : Process) : String :=
  String.ofList ((shellOptions.map Prod.snd).filter p.options.contains).reverse

/-! ## Directories -/

/-- Goes to a directory. -/
def enter (path : Path) : Act Unit := do
  let p ← get
  let old := ofText p.directory.toString
  set { p with directory := path }
  let exported (name value : String) : Act Unit :=
    Act.changeVariable name fun v => { v with value := some value, isExported := true }
  exported "OLDPWD" old
  exported "PWD" (ofText path.toString)

/-- Changes the directory. -/
def changeDirectory : Tool := fun arguments =>
  withFlags "LP" "" arguments fun flags operands => do
    let p ← get
    let isPhysical := flags.getLast?.any (·.1 == 'P')
    let target ← match operands with
      | [] => pure ((← Act.valueOf? "HOME").getD "")
      | "-" :: _ => pure ((← Act.valueOf? "OLDPWD").getD "")
      | target :: _ => pure target
    let files ← Act.files
    let start := p.directory
    let isAnchored := ["/", "./", "../"].any (fun start => target.startsWith start) ||
      target == "." || target == ".."
    let searched := splitAt ':' ((← Act.valueOf? "CDPATH").getD "").toList
    let searched := if isAnchored then [] else searched
    let beside (directory : List Char) : String :=
      if directory.isEmpty then target else String.ofList directory ++ "/" ++ target
    let found? := searched.find? fun directory =>
      files.isDirectory (start.join (.ofString (toText (beside directory))))
    let path := start.join (.ofString (toText ((found?.map beside).getD target)))
    let path := if isPhysical then path else Path.ofLocation (path.normalize files.workingDirectory)
    if target.toList.contains '\x00' || !files.isDirectory path then Act.abort s!"can't cd to {target}"
    let path := match isPhysical, files.follow path with
      | true, .ok (.entry location _) => Path.ofLocation location
      | _, _ => path
    enter path
    if operands.head? == some "-" || found?.any (!·.isEmpty) then Act.say (ofText path.toString ++ "\n")
    Act.ended 0

/-- Writes the directory. -/
def writeDirectory : Tool := fun arguments =>
  withFlags "LP" "" arguments fun flags _ => do
    let p ← get
    let path := match flags.getLast?.any (·.1 == 'P'), (← Act.files).follow p.directory with
      | true, .ok (.entry location _) => Path.ofLocation location
      | _, _ => p.directory
    Act.say (ofText path.toString ++ "\n")
    Act.ended 0

/-! ## Reading lines -/

/-- Whether a character separates fields. -/
def separates (separators : List Char) (c : Marked) : Bool := !c.quoted && separators.contains c.char

/-- Whether a character is a blank that separates fields. -/
def isBlankBetween (separators : List Char) (c : Marked) : Bool :=
  separates separators c && [' ', '\t', '\n'].contains c.char

/-- A line without the blanks at its end. -/
def withoutLastBlanks (separators : List Char) (s : List Marked) : List Marked :=
  (s.reverse.dropWhile (isBlankBetween separators)).reverse

/-- The values that a line gives to some variables; the last one takes all that is left, less a separator
behind its only field. -/
def lineValues (separators : List Char) : Nat → List Marked → List String
  | 0, _ => []
  | 1, s =>
    let s := withoutLastBlanks separators (s.dropWhile (isBlankBetween separators))
    let field := withoutLastBlanks separators s.dropLast
    if s.getLast?.any (separates separators) && !field.any (separates separators) then [unmarked field]
    else [unmarked s]
  | n + 1, s =>
    let s := s.dropWhile (isBlankBetween separators)
    let field := s.takeWhile fun c => !separates separators c
    let rest := (s.drop field.length).dropWhile (isBlankBetween separators)
    let rest := match rest with
      | c :: more =>
        if separates separators c then more.dropWhile (isBlankBetween separators) else c :: more
      | [] => []
    unmarked field :: lineValues separators n rest

/-- A line of a text, with what is behind it and whether it is ended; a backslash quotes a character, and
joins the next line, unless it is taken as it stands. -/
def inputLine (raw : Bool) : List Char → List Marked × List Char × Bool
  | [] => ([], [], false)
  | '\n' :: rest => ([], rest, true)
  | '\\' :: c :: rest =>
    if raw then
      let (line, behind) := inputLine raw (c :: rest)
      (⟨'\\', false⟩ :: line, behind)
    else
      let (line, behind) := inputLine raw rest
      (if c == '\n' then line else ⟨c, true⟩ :: line, behind)
  | c :: rest =>
    let (line, behind) := inputLine raw rest
    (if c == '\x00' || (c == '\\' && !raw) then line else ⟨c, false⟩ :: line, behind)

/-- The characters that separate fields. -/
def fieldSeparators : Act (List Char) := do
  match (← get).bindings.lookup "IFS" with
  | some ⟨some value, _, _⟩ => return value.toList
  | _ => return [' ', '\t', '\n']

/-- Reads a line into variables. -/
def readLine : Tool := fun arguments =>
  withFlags "r" "p" arguments fun flags names => do
    if names.isEmpty then Act.abort "arg count"
    let (text, _) ← Act.unread 0
    let (line, rest, isEnded) := inputLine (flags.any (·.1 == 'r')) text
    Act.leaveUnread 0 rest
    let values := lineValues (← fieldSeparators) names.length line
    (names.zip values).forM fun (name, value) => do
      if !isName name then Act.abort s!"{name}: bad variable name"
      Act.assign name value
    Act.ended (if isEnded then 0 else 1)

/-! ## Flags of scripts -/

/-- Whether a flag is one of those that a script takes, and whether it takes a value. -/
def knownFlag? (c : Char) : List Char → Option Bool
  | [] => none
  | d :: ':' :: rest => if d == c then some true else knownFlag? c rest
  | d :: rest => if d == c then some false else knownFlag? c rest

/-- Takes the next flag of a script's arguments. -/
def nextFlag : Tool := fun arguments => do
  match arguments with
  | flags :: name :: given => do
    let p ← get
    let items := if given.isEmpty then p.arguments else given
    let index := ((← Act.valueOf? "OPTIND").bind String.toNat?).getD 1
    let finish (index : Nat) (offset : Option Nat) (letter : String) (status : Int) : Act Unit := do
      Act.changeVariable "OPTIND" fun v => { v with value := some (toString index) }
      if !isName name then Act.abort s!"{name}: bad variable name"
      Act.assign name letter
      modify fun p => { p with optionOffset := offset }
      Act.ended status
    let behind := match p.optionOffset with
      | some offset => if index < 2 then [] else ((items.getD (index - 2) "").toList).drop offset
      | none => []
    let isQuiet := flags.startsWith ":"
    let take (s : List Char) (index : Nat) : Act Unit := do
      match s with
      | [] => finish index none "?" 1
      | c :: rest =>
        let word := items.getD (index - 2) ""
        let offset (rest : List Char) : Option Nat := some (word.length - rest.length)
        match knownFlag? c flags.toList with
        | none =>
          if isQuiet then Act.assign "OPTARG" (String.singleton c)
          else
            Act.complain s!"Illegal option -{c}"
            unset ["OPTARG"]
          finish index (offset rest) "?" 0
        | some false =>
          Act.assign "OPTARG" ""
          finish index (offset rest) (String.singleton c) 0
        | some true =>
          if !rest.isEmpty then
            Act.assign "OPTARG" (String.ofList rest)
            finish index none (String.singleton c) 0
          else
            match items[index - 1]? with
            | some value =>
              Act.assign "OPTARG" value
              finish (index + 1) none (String.singleton c) 0
            | none =>
              if isQuiet then
                Act.assign "OPTARG" (String.singleton c)
                finish index (offset rest) ":" 0
              else
                Act.complain s!"No arg for -{c} option"
                unset ["OPTARG"]
                finish index (offset rest) "?" 0
    match behind with
    | _ :: _ => take behind index
    | [] =>
      match (items.getD (index - 1) "").toList with
      | ['-', '-'] => finish (index + 1) none "?" 1
      | '-' :: c :: more => take (c :: more) (index + 1)
      | _ => finish index none "?" 1
  | _ => Act.abort "Usage: getopts optstring var [arg...]"

/-! ## Signals -/

/-- The names of the signals, from zero on. -/
def signalNames : List String :=
  ["EXIT", "HUP", "INT", "QUIT", "ILL", "TRAP", "ABRT", "BUS", "FPE", "KILL", "USR1", "SEGV", "USR2", "PIPE",
    "ALRM", "TERM", "16", "CHLD", "CONT", "STOP", "TSTP", "TTIN", "TTOU", "URG", "XCPU", "XFSZ", "VTALRM",
    "PROF", "WINCH", "IO", "PWR", "SYS", "32", "33", "RTMIN"] ++
    ((List.range 15).map fun n => s!"RTMIN+{n + 1}") ++ ((List.range 14).map fun n => s!"RTMAX-{14 - n}") ++
    ["RTMAX"]

/-- What is said when a signal ends a command. -/
def signalTexts : List (Nat × String) :=
  [(1, "Hangup"), (3, "Quit"), (4, "Illegal instruction"), (5, "Trace/breakpoint trap"), (6, "Aborted"),
    (7, "Bus error"), (8, "Floating point exception"), (9, "Killed"), (10, "User defined signal 1"),
    (11, "Segmentation fault"), (12, "User defined signal 2"), (14, "Alarm clock"), (15, "Terminated"),
    (16, "Stack fault"), (24, "CPU time limit exceeded"), (25, "File size limit exceeded"),
    (26, "Virtual timer expired"), (27, "Profiling timer expired"), (29, "I/O possible"),
    (30, "Power failure"), (31, "Bad system call")]

/-- The signals that a command passes over unless it says otherwise. -/
def passedSignals : List Nat := [17, 18, 23, 28]

/-- The number of a signal. -/
def signalNumber? (least : Nat) (s : String) : Option Nat :=
  if s != "" && s.toList.all Char.isDigit then
    let n := decimal s.toList
    if n < 65 then some n else none
  else
    let upper := s.toList.map Char.toUpper
    ((signalNames.map String.toList).drop least).findIdx? (· == upper) |>.map (· + least)

/-- Sends this shell a signal. -/
def receive (signal : Nat) : Act Unit := do
  let name := signalNames.getD signal ""
  match (← get).traps.lookup name with
  | some text =>
    if signal == 9 then throw (.killed signal)
    else if text != "" then modify fun p => { p with pending := p.pending ++ [text] }
  | none => if !(signal == 0 || passedSignals.contains signal) then throw (.killed signal)

/-- How signals are sent. -/
def killUsage : String :=
  "Usage: kill [-s sigspec | -signum | -sigspec] [pid | job]... or\nkill -l [exitstatus]"

/-- Does the late deeds whose time has come. -/
def settleDue : Act Unit := do
  let { clock, .. } ← get
  (← Act.settle (·.time ≤ clock)).forM receive

/-- Sends a signal to commands. -/
def sendSignal (signal : Nat) (targets : List String) : Act Unit := do
  let reached ← targets.mapM fun target => do
    let bare := if target.startsWith "-" then String.ofList (target.toList.drop 1) else target
    let n ← numberArgument bare
    let p ← get
    if n == p.number || n == 0 then return some true
    else if p.children.any (·.number == n) then
      if signal != 0 then
        modify fun p => { p with
          children := p.children.map fun child =>
            if child.number == n then ⟨n, 128 + signal, min child.ends p.clock⟩ else child,
          late := p.late.filter fun deed => deed.child != n || deed.time < p.clock }
      return some false
    else
      Act.report "No such process\n"
      return none
  Act.ended (if reached.contains none then 1 else 0)
  if reached.contains (some true) then
    if (← get).isInner then modify fun p => { p with sent := p.sent ++ [(p.clock, signal)] } else receive signal

/-- Sends signals, or tells their names. -/
def kill : Tool := fun arguments => do
  let send (signal : Nat) (targets : List String) : Act Unit :=
    if targets.isEmpty then Act.abort killUsage else sendSignal signal targets
  match arguments with
  | [] => Act.abort killUsage
  | first :: rest =>
    match first.toList with
    | '-' :: name =>
      match signalNumber? 1 (String.ofList name) with
      | some signal => send signal rest
      | none =>
        withFlags "l" "s" arguments fun flags operands => do
          if flags.any (·.1 == 'l') then
            match operands with
            | [] =>
              Act.say ("0\n" ++ String.join ((signalNames.drop 1).map (· ++ "\n")))
              Act.ended 0
            | n :: _ =>
              let n ← numberArgument n
              let n := if n > 128 then n - 128 else n
              if 0 < n && n < signalNames.length then
                Act.say (signalNames.getD n "" ++ "\n")
                Act.ended 0
              else Act.abort ("invalid signal number or exit status: " ++ operands.headD "")
          else match flags.getLast? with
            | some (_, name) =>
              match signalNumber? 1 name with
              | some signal => send signal operands
              | none => Act.abort s!"invalid signal number or name: {name}"
            | none => send 15 operands
    | _ => send 15 arguments

/-- The traps in the order of their signals. -/
def sortedTraps (p : Process) : List (String × String) :=
  signalNames.filterMap fun name => (p.traps.lookup name).map (name, ·)

/-- Says what is run at signals and at the end. -/
def trap : Tool := fun arguments =>
  withFlags "" "" arguments fun _ operands => do
    match operands with
    | [] =>
      (sortedTraps (← get)).forM fun (name, text) => Act.say s!"trap -- {quotedValue text} {name}\n"
      Act.ended 0
    | first :: rest =>
      let isReset := rest.isEmpty || (signalNumber? 0 first).isSome && first.toList.all Char.isDigit
      let (text?, names) := if isReset then (none, operands) else (some first, rest)
      let text? := if text? == some "-" then none else text?
      Act.ended 0
      let known := names.takeWhile fun name => (signalNumber? 0 name).isSome
      known.forM fun name => do
        let name := signalNames.getD ((signalNumber? 0 name).getD 0) ""
        modify fun p => { p with
          traps := (text?.map (name, ·)).toList ++ p.traps.filter (·.1 != name) }
      match names.drop known.length with
      | wrong :: _ => Act.failing 1 s!"trap: {wrong}: bad trap"
      | [] => pure ()

/-- Waits for commands in the background. -/
def wait : Tool := fun arguments => do
  let pass (children : List Child) : Act Unit := do
    let { clock, .. } ← get
    Act.passTime (children.foldl (fun time child => max time child.ends) clock - clock)
    settleDue
  if arguments.isEmpty then
    pass (← get).children
    Act.ended 0
  else
    arguments.forM fun argument => do
      let n ← numberArgument argument
      match (← get).children.find? (·.number == n) with
      | none => Act.ended 127
      | some child =>
        pass [child]
        if child.status > 128 then
          if let some text := signalTexts.lookup (child.status - 128).toNat then Act.complain text
        Act.ended child.status

/-! ## Loops and the end -/

/-- Leaves loops, or goes on with a turn further out. -/
def leaveLoop (again : Bool) : Tool := fun arguments => do
  let n ← match arguments with
    | [] => pure 1
    | n :: _ => numberArgument n
  if n == 0 then Act.abort ("Illegal number: " ++ arguments.headD "")
  Act.ended 0
  let levels := min n (← get).loops
  if levels > 0 then throw (if again then .again levels else .stop levels)

/-- Ends the shell, or a function. -/
def finishWith (flow : Flow) : Tool := fun arguments => do
  if let n :: _ := arguments then
    let n ← numberArgument n
    Act.ended n
  throw flow

/-! ## The rest -/

/-- The permissions that letters of a clause give, among those of one class; some letters copy a class. -/
def permissionBits (permissions : Nat) : List Char → Option Nat
  | [] => some 0
  | c :: rest => do
    let bits ← match c with
      | 'r' => some 4
      | 'w' => some 2
      | 'x' => some 1
      | 'X' => some (if permissions &&& 0o111 = 0 then 0 else 1)
      | 's' | 't' => some 0
      | 'u' => some (permissions / 64 % 8)
      | 'g' => some (permissions / 8 % 8)
      | 'o' => some (permissions % 8)
      | _ => none
    return bits ||| (← permissionBits permissions rest)

/-- Follows the changes of a clause for some classes, each a sign and letters. -/
def changePermissions (classes : Nat) : Nat → Nat → List Char → Option Nat
  | 0, permissions, _ => some permissions
  | _, permissions, [] => some permissions
  | fuel + 1, permissions, sign :: rest => do
    let letters := rest.takeWhile fun c => !"+-=".toList.contains c
    let bits := (← permissionBits permissions letters) * classes
    let permissions ← match sign with
      | '+' => some (permissions ||| bits)
      | '-' => some (permissions &&& (0o777 ^^^ bits))
      | '=' => some (permissions &&& (0o777 ^^^ (classes * 7)) ||| bits)
      | _ => none
    changePermissions classes fuel permissions (rest.drop letters.length)

/-- The permissions behind the clauses of a mode, which start with the classes that they are about. -/
def permissionsBehind? (permissions : Nat) (mode : String) : Option Nat :=
  (splitAt ',' mode.toList).foldlM (fun permissions clause =>
    let who := clause.takeWhile "ugoa".toList.contains
    let class_ (c : Char) : Nat := if c == 'u' then 64 else if c == 'g' then 8 else if c == 'o' then 1 else 0o111
    let classes := if who.isEmpty then 0o111 else who.foldl (fun bits c => bits ||| class_ c) 0
    let changes := clause.drop who.length
    if changes.isEmpty then none else changePermissions classes (clause.length + 1) permissions changes)
    permissions

/-- Sets or writes the permissions that new files do not get. -/
def permissionMask : Tool := fun arguments =>
  withFlags "S" "" arguments fun flags operands => do
    match operands.filter (· != "") with
    | [] =>
      let mask := (← get).mask
      if flags.isEmpty then Act.say (String.ofList (digitsOf 4 (decimal (Nat.toDigits 8 mask))) ++ "\n")
      else
        let part (name : String) (bits : Nat) : String :=
          let given := 7 - bits % 8
          name ++ "=" ++ (if given / 4 % 2 = 1 then "r" else "") ++ (if given / 2 % 2 = 1 then "w" else "") ++
            (if given % 2 = 1 then "x" else "")
        Act.say (",".intercalate [part "u" (mask / 64), part "g" (mask / 8), part "o" mask] ++ "\n")
    | text :: _ =>
      if text.toList.all fun c => (octalDigit? c).isSome then
        modify fun p => { p with
          mask := text.toList.foldl (fun n c => n * 8 + (octalDigit? c).getD 0) 0 % 512 }
      else if (text.toList.headD ' ').isDigit then Act.abort s!"Illegal number: {text}"
      else match permissionsBehind? (0o777 ^^^ (← get).mask) text with
        | some permissions => modify fun p => { p with mask := 0o777 ^^^ permissions }
        | none => Act.abort s!"Illegal mode: {text}"
    Act.ended 0

/-- Lets names stand for texts where commands are read, or tells what they stand for. -/
def setAliases : Tool := fun arguments => do
  let shown (name text : String) : Act Unit := Act.say s!"{name}={quotedValue text}\n"
  if arguments.isEmpty then
    ((← get).aliases).forM fun (name, text) => shown name text
    Act.ended 0
  else
    let known ← arguments.mapM fun argument => do
      match nameAndValue argument with
      | (name, some text) =>
        modify fun p => { p with aliases := p.aliases.filter (·.1 != name) ++ [(name, text)] }
        return true
      | (name, none) =>
        match (← get).aliases.lookup name with
        | some text =>
          shown name text
          return true
        | none =>
          Act.complain s!"alias: {name} not found"
          return false
    Act.ended (if known.all id then 0 else 1)

/-- Lets names no longer stand for texts. -/
def unsetAliases : Tool := fun arguments =>
  withFlags "a" "" arguments fun flags names => do
    if !flags.isEmpty then
      modify fun p => { p with aliases := [] }
      Act.ended 0
    else
      let known ← names.mapM fun name => do
        let isKnown := ((← get).aliases.lookup name).isSome
        if !isKnown then Act.complain s!"unalias: {name} not found"
        modify fun p => { p with aliases := p.aliases.filter (·.1 != name) }
        return isKnown
      Act.ended (if known.all id then 0 else 1)

/-- The commands that are part of the shell itself and whose failure ends it. -/
def specialBuiltins : List (String × Tool) :=
  [(":", fun _ => Act.ended 0), ("break", leaveLoop false), ("continue", leaveLoop true),
    ("exit", finishWith .leave), ("return", finishWith .back), ("export", declare "export" false),
    ("readonly", declare "readonly" true), ("local", localNames), ("unset", unset),
    ("shift", shiftArguments), ("set", setOptions), ("trap", trap),
    ("times", fun _ => do
      Act.say "0m0.000000s 0m0.000000s\n0m0.000000s 0m0.000000s\n"
      Act.ended 0)]

/-- The other commands that are part of the shell. -/
def regularBuiltins : List (String × Tool) :=
  [("cd", changeDirectory), ("chdir", changeDirectory), ("pwd", writeDirectory), ("read", readLine),
    ("getopts", nextFlag), ("kill", kill), ("wait", wait), ("umask", permissionMask), ("echo", echo),
    ("printf", printf), ("test", test Act.report), ("[", bracketTest "]" Act.report),
    ("true", fun _ => Act.ended 0), ("false", fun _ => Act.ended 1), ("jobs", fun _ => Act.ended 0),
    ("fg", fun _ => Act.abort "No current job"), ("bg", fun _ => Act.abort "No current job"),
    ("alias", setAliases), ("unalias", unsetAliases),
    ("ulimit", fun _ => do
      Act.say "unlimited\n"
      Act.ended 0)]

/-- The commands of the shell that run others, which the evaluation defines, and whether their failure ends
the shell. -/
def runningBuiltins : List (String × Bool) :=
  [(".", true), ("eval", true), ("exec", true), ("command", false), ("type", false), ("hash", false)]

/-- Whether a name is that of a command whose failure ends the shell. -/
def isSpecial (name : String) : Bool :=
  (specialBuiltins.lookup name).isSome || runningBuiltins.lookup name == some true

/-- Whether a name is that of a command of the shell. -/
def isBuiltin (name : String) : Bool :=
  isSpecial name || (regularBuiltins.lookup name).isSome || (runningBuiltins.lookup name).isSome

/-- Whether the arguments of a command may be assignments. -/
def takesAssignments (name : String) : Bool := ["export", "readonly", "local"].contains name

/-- Tells what a name stands for, in words or by its path. -/
def tellName (inWords : Bool) (name : String) : Act Bool := do
  let say (words bare : String) : Act Bool := do
    Act.say ((if inWords then s!"{name} is {words}" else bare) ++ "\n")
    return true
  if keywords.contains name then say "a shell keyword" name
  else if let some text := (← get).aliases.lookup name then
    say s!"an alias for {text}" s!"alias {name}={quotedValue text}"
  else if isSpecial name then say "a special shell builtin" name
  else if ((← get).functions.lookup name).isSome then say "a shell function" name
  else if isBuiltin name then say "a shell builtin" name
  else
    match ← findExecutable "" name with
    | .ok found => say found.path found.path
    | .error _ =>
      if inWords then Act.say s!"{name}: not found\n"
      return false

/-- Tells what names stand for. -/
def type : Tool := fun arguments =>
  withFlags "" "" arguments fun _ names => do
    let found ← names.mapM (tellName true)
    Act.ended (if found.all id then 0 else 127)

/-- Looks up where programs are. -/
def hash : Tool := fun arguments =>
  withFlags "rv" "" arguments fun _ names => do
    Act.ended 0
    names.forM fun name => do
      if !isBuiltin name && ((← get).functions.lookup name).isNone then
        match ← findExecutable "" name with
        | .ok _ => pure ()
        | .error _ =>
          Act.report s!"{name}: not found"
          Act.ended 1

end WasmPackaging.Shell
