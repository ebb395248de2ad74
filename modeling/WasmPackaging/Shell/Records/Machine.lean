import WasmPackaging.Shell.Records.Value
import WasmPackaging.Shell.Tools.Inputs
import WasmPackaging.Shell.Tools.Launching

/-!
What a program on records works with: its variables, the record and its fields, the inputs that records are
read from, and the files and commands that it writes to. The output is held back until there is much of it,
or another command is started.
-/

namespace WasmPackaging.Shell.Records

open Text

/-- A variable of a function: its value, or an array under a name of its own as long as it has none. -/
inductive Local where
  | value (value : Value)
  | unset (array : String)

/-- How a statement may end otherwise than by going on: with the next record or file, behind a loop or with
its next turn, behind a function, at the end of the program, or with a failure. -/
inductive Jump where
  | next
  | nextFile
  | leave
  | again
  | back (value : Value)
  | quit
  | fail (cause : String)

/-- The state of a program. The place of the next argument to be read from is `argument`; fields are counted
from zero. What a command is to read is kept with the last part first. -/
structure Machine where
  functions : List (String × Function) := []
  globals : Std.HashMap String Value := {}
  tables : Std.HashMap String Table := {}
  frame : List (String × Local) := []
  fresh : Nat := 0
  record : String := ""
  fields : Array Value := #[]
  input : Option (List Char) := none
  argument : Nat := 1
  hasRead : Bool := false
  sources : List (String × List Char) := []
  streams : List (String × Nat) := []
  commands : List (String × List String) := []
  heldBack : List String := []
  heldSize : Nat := 0
  ranges : List Nat := []
  status : Int := 0
  seed : Nat := 1
  launch : List String → Act Unit

/-- What a program does. -/
abbrev Run := ExceptT Jump (StateT Machine Act)

namespace Run

/-- An action of the shell. -/
def ofAct {α : Type} (act : Act α) : Run α := fun machine => do return (.ok (← act), machine)

/-- A failure. -/
def fail {α : Type} (cause : String) : Run α := throw (.fail cause)

/-! ## Variables -/

/-- The variables that are set from the start. -/
def presets : List (String × Value) :=
  [("FS", .text " "), ("OFS", .text " "), ("ORS", .text "\n"), ("RS", .text "\n"), ("NR", .number 0.0),
    ("FNR", .number 0.0), ("SUBSEP", .text "\x1c"), ("CONVFMT", .text "%.6g"), ("OFMT", .text "%.6g"),
    ("RSTART", .number 0.0), ("RLENGTH", .number (-1.0)), ("FILENAME", .unset)]

/-- The value of a variable of the whole program. -/
def global (name : String) : Run Value := do
  let machine ← get
  if name == "NF" then return .ofNat machine.fields.size
  else return (machine.globals.get? name).getD .unset

/-- Sets a variable of the whole program. -/
def setPlain (name : String) (value : Value) : Run Unit := modify fun machine =>
  let { globals, .. } := machine
  { machine with globals := globals.insert name value }

/-- The format of numbers in texts. -/
def numberFormat : Run String := return (← global "CONVFMT").toText "%.6g"

/-- A value as a text. -/
def textOf (value : Value) : Run String := do
  match value with
  | .number x => return numberText (← numberFormat) x
  | value => return value.toText ""

/-- The name under which an array is kept. -/
def tableName (name : String) : Run String := do
  match (← get).frame.lookup name with
  | some (.unset array) => return array
  | _ => return name

/-- An array. -/
def table (name : String) : Run Table := do
  let name ← tableName name
  return ((← get).tables.get? name).getD {}

/-- Changes an array. -/
def changeTable (name : String) (f : Table → Table) : Run Unit := do
  let name ← tableName name
  modify fun machine =>
    let { tables, .. } := machine
    let table := (tables.get? name).getD {}
    { machine with tables := (tables.erase name).insert name (f table) }

/-! ## Fields -/

/-- The words between blanks. -/
def blankParts (s : List Char) : List (List Char) :=
  splitWhere (fun c => c == ' ' || c == '\t' || c == '\n') s |>.filter (!·.isEmpty)

/-- The parts of a text between the matches of an expression that are not empty. -/
def partsBetween (r : CompiledRegex) (s : List Char) : List (List Char) :=
  if s.isEmpty then []
  else
    let t : MatchedText := .ofList r s
    let found := (r.findAll t).filter fun m => m.start != m.stop
    let chars := s.toArray
    let (parts, place) := found.foldl (fun ((parts, place) : List (List Char) × Nat) m =>
      ((chars.extract place m.start).toList :: parts, m.stop)) ([], 0)
    ((chars.extract place chars.size).toList :: parts).reverse

/-- The parts of a text between separators: blanks for a single one, nothing for none, any other character
for itself, and an expression for all that is longer. -/
def partsBy (separator : String) (s : List Char) : Run (List (List Char)) := do
  match separator.toList with
  | [' '] => return blankParts s
  | [] => return s.map ([·])
  | [c] => return if s.isEmpty then [] else splitAt c s
  | pattern =>
    match Reader.regexOf pattern with
    | .ok r => return partsBetween r s
    | .error cause => fail s!"regular expression compile failed ({cause})\n{separator}"

/-- Makes a text the record. -/
def setRecord (record : String) : Run Unit := do
  let separator ← textOf (← global "FS")
  let parts ← partsBy separator record.toList
  let fields := (parts.map fun part => Value.given (String.ofList part)).toArray
  modify fun machine => { machine with record, fields }

/-- Makes the record from its fields. -/
def joinFields : Run Unit := do
  let separator ← textOf (← global "OFS")
  let texts ← (← get).fields.toList.mapM textOf
  modify fun machine => { machine with record := separator.intercalate texts }

/-- Sets the number of fields. -/
def setCount (count : Nat) : Run Unit := do
  modify fun machine =>
    let { fields, .. } := machine
    { machine with
      fields := if count ≤ fields.size then fields.extract 0 count
        else fields ++ (Array.replicate (count - fields.size) Value.unset) }
  joinFields

/-- The value of a field; the record is the one before the first. -/
def field (number : Int) : Run Value := do
  if number < 0 then fail s!"attempt to access field {number}"
  else if number == 0 then return .given (← get).record
  else return (← get).fields.getD (number.toNat - 1) .unset

/-- Sets a field. -/
def setField (number : Int) (value : Value) : Run Unit := do
  if number < 0 then fail s!"attempt to access field {number}"
  else if number == 0 then setRecord (← textOf value)
  else
    let place := number.toNat - 1
    if (← get).fields.size ≤ place then setCount (place + 1)
    modify fun machine =>
      let { fields, .. } := machine
      { machine with fields := fields.setIfInBounds place value }
    joinFields

/-- Sets a variable: one of the function that runs, or one of the whole program. -/
def setName (name : String) (value : Value) : Run Unit := do
  if ((← get).frame.lookup name).isSome then
    modify fun machine =>
      { machine with
        frame := machine.frame.map fun entry => if entry.1 == name then (name, .value value) else entry }
  else if name == "NF" then setCount (wholeOf value.toNumber).toNat
  else setPlain name value

/-- The value of a variable. -/
def valueOf (name : String) : Run Value := do
  match (← get).frame.lookup name with
  | some (.value value) => return value
  | some (.unset _) => return .unset
  | none => global name

/-! ## Output -/

/-- Writes what is held back. -/
def flush : Run Unit := do
  let machine ← get
  if !machine.heldBack.isEmpty then
    set { machine with heldBack := [], heldSize := 0 }
    ofAct (Act.say (String.join machine.heldBack.reverse))

/-- How much of the output is held back. -/
def mostHeldBack : Nat := 4096

/-- Writes to the output. -/
def say (text : String) : Run Unit := do
  modify fun machine =>
    { machine with heldBack := text :: machine.heldBack, heldSize := machine.heldSize + text.utf8ByteSize }
  if (← get).heldSize > mostHeldBack then flush

/-- Runs a command of a shell; answers with its status. -/
def runCommand (command : String) : Run Int := do
  flush
  let { launch, .. } ← get
  match ← ofAct (commandEnd (launch ["sh", "-c", command])) with
  | .ended status | .unstarted status => return status
  | .killed signal => return 256 + signal

/-- Lets a command run with something else in place of some descriptor, and brings that back. -/
def redirected {α : Type} (descriptor : Nat) (stream : Stream) (act : Nat → Run α) : Run α := do
  let before ← ofAct get
  let number ← ofAct (Act.open_ stream)
  ofAct (Act.connect descriptor (some number))
  let answer ← act number
  ofAct (modify fun p => { p with descriptors := before.descriptors })
  return answer

/-- What a command writes. -/
def outputOf (command : String) : Run (List Char) := do
  flush
  redirected 1 (.sink Act.endless []) fun number => do
    let _ ← runCommand command
    return (← ofAct (Act.written number)).toList

/-- Lets a command read what was written to it; answers with its status. -/
def finish (command : String) (parts : List String) : Run Int :=
  redirected 0 (.source false (String.join parts.reverse).toList) fun _ => runCommand command

/-- Opens a file that is written to. -/
def openStream (isBehind : Bool) (name : String) : Run Nat := do
  let path ← ofAct (Act.path name)
  let files ← ofAct Act.files
  let isThere := match files.read path with
    | .ok _ => true
    | .error _ => false
  let fault ← if name == Act.nullFile || (isBehind && isThere) then pure none
    else ofAct (Act.changeFiles (·.write path []))
  match fault with
  | some e =>
    let cause := (causeOf e).text
    fail s!"cannot open \"{name}\" for output ({cause})"
  | none =>
    let number ← ofAct (Act.open_ (if name == Act.nullFile then .nothing else .file path []))
    modify fun machine => { machine with streams := (name, number) :: machine.streams }
    return number

/-- Writes to a file or a command. -/
def sayTo (destination : Destination) (name text : String) : Run Unit := do
  match destination with
  | .command =>
    let commands := (← get).commands
    match commands.lookup name with
    | some parts =>
      let others := commands.map fun entry => if entry.1 == name then (name, text :: parts) else entry
      modify fun machine => { machine with commands := others }
    | none =>
      flush
      modify fun machine => { machine with commands := commands ++ [(name, [text])] }
  | destination =>
    if name == "/dev/stdout" || name == "-" then say text
    else if name == "/dev/stderr" then
      let _ ← ofAct (Act.writeTo 2 text)
    else
      let number ← match (← get).streams.lookup name with
        | some number => pure number
        | none => openStream (destination == .behindFile) name
      ofAct (Act.writeInto number text)

/-- Closes a file or a command; answers with its status. -/
def close (name : String) : Run Int := do
  let machine ← get
  let others {α : Type} (entries : List (String × α)) : List (String × α) := entries.filter (·.1 != name)
  set { machine with
    sources := others machine.sources, streams := others machine.streams, commands := others machine.commands }
  match machine.commands.lookup name with
  | some parts => finish name parts
  | none =>
    let isKnown := (machine.sources.lookup name).isSome || (machine.streams.lookup name).isSome
    return if isKnown then 0 else -1

/-! ## Input -/

/-- The first record of a text, and what is behind it. -/
def firstRecord (s : List Char) : Run (Option (String × List Char)) := do
  if s.isEmpty then return none
  else
    match (← textOf (← global "RS")).toList with
    | [c] =>
      let record := s.takeWhile (· != c)
      return some (String.ofList record, s.drop (record.length + 1))
    | [] =>
      let s := s.dropWhile (· == '\n')
      let rec paragraph (before : List Char) : List Char → List Char × List Char
        | '\n' :: '\n' :: rest => (before.reverse, rest.dropWhile (· == '\n'))
        | ['\n'] | [] => (before.reverse, [])
        | c :: rest => paragraph (c :: before) rest
      if s.isEmpty then return none
      else
        let (record, rest) := paragraph [] s
        return some (String.ofList record, rest)
    | pattern =>
      match Reader.regexOf pattern with
      | .error cause =>
        let shown := String.ofList pattern
        fail s!"regular expression compile failed ({cause})\n{shown}"
      | .ok r =>
        let t : MatchedText := .ofList r s
        match (r.findAll t).find? fun m => m.start != m.stop with
        | some m => return some (String.ofList (s.take m.start), s.drop m.stop)
        | none =>
          let last := if s.getLast? == some '\n' then s.dropLast else s
          return some (String.ofList last, [])

/-- The name and the value that an argument assigns. -/
def assignment? (argument : String) : Option (String × String) :=
  let s := argument.toList
  let name := s.takeWhile fun c => c.isAlphanum || c == '_'
  match s.drop name.length with
  | '=' :: value =>
    if name.isEmpty || name.head?.any Char.isDigit then none
    else some (String.ofList name, String.ofList (withEscapesRead value))
  | _ => none

/-- Sets a variable from outside. -/
def assignGiven (name value : String) : Run Unit := do
  if name == "NF" then setCount (wholeOf (leading value.toList).1).toNat else setPlain name (.given value)

/-- Goes on to the next input; answers whether there is one. -/
def nextInput : Nat → Run Bool
  | 0 => return false
  | fuel + 1 => do
    let machine ← get
    let count := (wholeOf (← global "ARGC").toNumber).toNat
    if count ≤ machine.argument then
      if machine.hasRead then return false
      else openInput "-"
    else
      set { machine with argument := machine.argument + 1 }
      let argument ← match (← table "ARGV").get? (toString machine.argument) with
        | some value => textOf value
        | none => pure ""
      match argument, assignment? argument with
      | "", _ => nextInput fuel
      | _, some (name, value) =>
        assignGiven name value
        nextInput fuel
      | name, none => openInput name
where
  /-- Opens an input. -/
  openInput (name : String) : Run Bool := do
    match ← ofAct (contentOf name) with
    | .ok content =>
      modify fun machine => { machine with input := some content, hasRead := true }
      if name != "-" then setPlain "FILENAME" (.text name)
      setPlain "FNR" (.number 0.0)
      return true
    | .error .isDirectory => fail "read error (Is a directory)"
    | .error fault => fail s!"cannot open \"{name}\" ({fault.text})"

/-- Counts a variable up. -/
def countUp (name : String) : Run Unit := do
  setPlain name (.number ((← global name).toNumber + 1.0))

/-- The next record of the inputs, which is counted. -/
def nextRecord : Nat → Run (Option String)
  | 0 => return none
  | fuel + 1 => do
    let found ← match (← get).input with
      | none => pure none
      | some rest => firstRecord rest
    match found with
    | some (record, rest) =>
      modify fun machine => { machine with input := some rest }
      countUp "NR"
      countUp "FNR"
      return some record
    | none =>
      modify fun machine => { machine with input := none }
      if ← nextInput ((wholeOf (← global "ARGC").toNumber).toNat + 2) then nextRecord fuel
      else return none

/-- The next record of the inputs. -/
def mainRecord : Run (Option String) := do
  nextRecord ((wholeOf (← global "ARGC").toNumber).toNat + 3)

/-- The next record of a file or a command, whose content is found out when it is first read from; nothing
where that fails. -/
def sourceRecord (name : String) (content : Run (Option (List Char))) : Run (Option (Option String)) := do
  let text? ← match (← get).sources.lookup name with
    | some rest => pure (some rest)
    | none => content
  match text? with
  | none => return none
  | some text =>
    let found ← firstRecord text
    let rest := (found.map Prod.snd).getD []
    modify fun machine =>
      { machine with sources := (name, rest) :: machine.sources.filter (·.1 != name) }
    return some (found.map Prod.fst)

end Run

end WasmPackaging.Shell.Records
