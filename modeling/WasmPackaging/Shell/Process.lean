import WasmPackaging.FileTree.Change
import WasmPackaging.Shell.Octets
import WasmPackaging.Shell.Script
import WasmPackaging.Text.Blank

/-!
A running shell: what it can see and change, where its descriptors lead, and how what runs in it may end.
-/

namespace WasmPackaging.Shell

open Text

/-- What an open descriptor leads to: a text to be read, of which a file can also be read again from a
place passed over; what is written, the last part first, as long as there is room; another stream, which
what is written reaches later; a file, with what is to be put behind its content; or a device that takes
everything, or nothing. -/
inductive Stream where
  | source (isFile : Bool) (rest : List Char)
  | sink (room : Nat) (parts : List String)
  | later (target : Nat)
  | file (path : Path) (parts : List String)
  | directory
  | nothing
  | full

/-- Why the output of a command could not be written. -/
inductive WriteFault where
  | closed
  | full
  deriving DecidableEq

/-- The wording of the fault. -/
def WriteFault.text : WriteFault → String
  | .closed => "Bad file descriptor"
  | .full => "No space left on device"

/-- A variable. -/
structure Variable where
  value : Option String
  isExported : Bool := false
  isFixed : Bool := false

/-- The options of a shell, by name and letter. -/
def shellOptions : List (String × Char) :=
  [("errexit", 'e'), ("noglob", 'f'), ("ignoreeof", 'I'), ("interactive", 'i'), ("monitor", 'm'),
    ("noexec", 'n'), ("stdin", 's'), ("xtrace", 'x'), ("verbose", 'v'), ("vi", 'V'), ("emacs", 'E'),
    ("noclobber", 'C'), ("allexport", 'a'), ("notify", 'b'), ("nounset", 'u'), ("privileged", 'p')]

/-- A command in the background: its number and status, and when it ends. -/
structure Child where
  number : Nat
  status : Int
  ends : Nat

/-- What a command in the background does when a time has come: it writes to a stream, or sends a signal to
the shell. -/
inductive Deed where
  | write (stream : Nat) (text : String)
  | send (signal : Nat)

/-- What a command in the background does, and when. -/
structure LateDeed where
  time : Nat
  child : Nat
  deed : Deed

/-- A function: the line on which it starts, and what it does. -/
structure Function where
  line : Nat
  body : Script

/-- A running shell. Options are known by their letters. Locals are the variables that functions put aside,
the innermost function first. What is pending is run when the current command has ended; the status of the
last command whose output was put into words counts where no command runs. Deeds of commands in the
background that are still to come are `late`, the last one first; within such a command, the streams from
`firstStream` on are its own. Signals that a shell of its own sends to the shell around it are `sent`,
each at a time. The clock counts milliseconds; a deadline on it may end a command. A shell whose only
command is a program `givesWay` to it. A tool that was started by a path calls itself by that, in place of
its name. -/
structure Process where
  files : FileTree
  directory : Path
  name : String := "sh"
  line : Nat := 1
  command : Option String := none
  called : Option (String × String) := none
  arguments : List String := []
  bindings : List (String × Variable) := []
  functions : List (String × Function) := []
  aliases : List (String × String) := []
  functionLine : Option Nat := none
  depth : Nat := 0
  documents : List ScriptWord := []
  locals : List (List (String × Option Variable)) := []
  traps : List (String × String) := []
  pending : List String := []
  isInner : Bool := false
  givesWay : Bool := false
  sent : List (Nat × Nat) := []
  late : List LateDeed := []
  firstStream : Nat := 0
  options : List Char := []
  executables : List Location := []
  number : Nat := 4242
  nextNumber : Nat := 4243
  mask : Nat := 0o22
  unwritten : Option WriteFault := none
  clock : Nat := 0
  deadline : Option Nat := none
  optionOffset : Option Nat := none
  loops : Nat := 0
  children : List Child := []
  substituted : Int := 0
  status : Int := 0
  streams : Array Stream := #[]
  descriptors : List (Nat × Nat) := []

/-- How a script goes on where a command does not simply end: not at all, by its own will or behind a
complaint of the shell, behind a loop or with its next turn, some loops further out, behind a function, or
not at all since a signal ended it or its time was up. -/
inductive Flow where
  | leave
  | fault
  | stop (levels : Nat)
  | again (levels : Nat)
  | back
  | killed (signal : Nat)
  | expired
  | unstarted (command : String) (status : Int)
  deriving DecidableEq

/-- What a shell does. -/
abbrev Act := ExceptT Flow (StateM Process)

namespace Act

/-- What happens when something is done. -/
def attempt {α : Type} (act : Act α) : Act (Except Flow α) := fun p =>
  match act p with
  | (result, p) => (.ok result, p)

/-- Goes on as something did that was attempted. -/
def resume {α : Type} (result : Except Flow α) : Act α := fun p => (result, p)

/-- Whether an option is in force. -/
def option (letter : Char) : Act Bool := return (← get).options.contains letter

/-- Sets the status. -/
def ended (status : Int) : Act Unit := modify fun p => { p with status }

/-! ## Streams -/

/-- Changes a stream. -/
def changeStream (number : Nat) (f : Stream → Stream) : Act Unit := modify fun p =>
  let { streams, .. } := p
  { p with streams := streams.modify number f }

/-- Adds a stream and answers with its number. -/
def open_ (stream : Stream) : Act Nat := do
  let p ← get
  set { p with streams := p.streams.push stream }
  return p.streams.size

/-- The number of the stream that a descriptor leads to. -/
def streamOf? (descriptor : Nat) : Act (Option Nat) := return (← get).descriptors.lookup descriptor

/-- Lets a descriptor lead to a stream, or to none. -/
def connect (descriptor : Nat) (stream : Option Nat) : Act Unit := modify fun p =>
  { p with descriptors :=
      (stream.map (descriptor, ·)).toList ++ p.descriptors.filter fun entry => entry.1 != descriptor }

/-- How much room a part of a text takes besides its characters. -/
def partSize : Nat := 40

/-- Room that is not used up. -/
def endless : Nat := Nat.pow 2 62

/-- The signal for a reader that is gone. -/
def brokenPipe : Nat := 13

/-- Writes to a stream. Where there is no room left, a signal ends that. -/
def writeInto (number : Nat) (text : String) : Act Unit := do
  match (← get).streams[number]? with
  | some (.sink 0 _) => throw (.killed brokenPipe)
  | some (.later target) =>
    modify fun p => { p with late := ⟨p.clock, 0, .write target text⟩ :: p.late }
  | _ =>
    changeStream number fun
      | .sink room parts => .sink (room - (text.utf8ByteSize + partSize)) (text :: parts)
      | .file path parts => .file path (text :: parts)
      | stream => stream

/-- Writes to a descriptor; answers whether it is open. Of the output, a failure is kept. -/
def writeTo (descriptor : Nat) (text : String) : Act Bool := do
  let refuse (fault : WriteFault) : Act Unit := do
    if descriptor == 1 && text != "" then modify fun p => { p with unwritten := some fault }
  match ← streamOf? descriptor with
  | none =>
    refuse .closed
    return false
  | some number =>
    match (← get).streams[number]? with
    | some .full => refuse .full
    | _ => writeInto number text
    return true

/-- Does something, and then something else if what was written found no way. -/
def noticing (complain : WriteFault → Act Unit) (act : Act Unit) : Act Unit := do
  modify fun p => { p with unwritten := none }
  let result ← attempt act
  let { unwritten, .. } ← get
  modify fun p => { p with unwritten := none }
  match result, unwritten with
  | .ok _, some fault => complain fault
  | result, _ => resume result

/-- Writes to the output. -/
def say (text : String) : Act Unit := do
  let _ ← writeTo 1 text

/-- A complaint of a tool that calls itself by a path in place of its name. -/
def underPath (name path text : String) : String :=
  let line (s : List Char) : String :=
    let text := String.ofList s
    let replace (start behind : String) : Option String :=
      if text.startsWith (start ++ name ++ behind) then
        some (start ++ path ++ String.ofList (s.drop (start.length + name.length)))
      else none
    (((replace "" ":").or (replace "Try '" " ")).or (replace "Usage: " " ")).getD text
  "\n".intercalate ((splitAt '\n' text.toList).map line)

/-- Writes a line of complaint. -/
def complain (text : String) : Act Unit := do
  let text := match (← get).called with
    | some (name, path) => underPath name path text
    | none => text
  let _ ← writeTo 2 (text ++ "\n")

/-- A failure with a complaint. -/
def failing (status : Int) (text : String) : Act Unit := do
  complain text
  ended status

/-- The start of a complaint of the shell itself. -/
def complaintStart : Act String := do
  let p ← get
  let command := (p.command.map (· ++ ": ")).getD ""
  return s!"{p.name}: {p.line}: {command}"

/-- A complaint of the shell itself. -/
def report (text : String) : Act Unit := do complain ((← complaintStart) ++ text)

/-- A complaint of the shell itself that ends it. -/
def abort {α : Type} (text : String) : Act α := do
  report text
  ended 2
  throw .fault

/-- Does those of the late deeds that are due, by their times; answers with the signals that are sent. A
command in the background leaves to the shell around it what does not concern its own streams. -/
def settle (isDue : LateDeed → Bool) : Act (List Nat) := do
  let { late, firstStream, .. } ← get
  let isDue (deed : LateDeed) : Bool :=
    isDue deed && match deed.deed with
      | .write stream _ => firstStream ≤ stream
      | .send _ => firstStream == 0
  if late.isEmpty then return []
  else
    modify fun p => { p with late := late.filter fun deed => !isDue deed }
    let due := (late.reverse.filter isDue).mergeSort fun a b => a.time ≤ b.time
    due.forM fun
      | ⟨_, _, .write stream text⟩ => writeInto stream text
      | _ => pure ()
    return due.filterMap fun
      | ⟨_, _, .send signal⟩ => some signal
      | _ => none

/-- What was written to a stream, with what is still to be written to it. -/
def written (number : Nat) : Act String := do
  let _ ← settle fun
    | ⟨_, _, .write stream _⟩ => stream == number
    | _ => false
  match (← get).streams[number]? with
  | some (.sink _ parts) => return String.join parts.reverse
  | _ => return ""

/-- Puts what was written to files into them. -/
def sync : Act Unit := modify fun p =>
  let step (files : FileTree) (stream : Stream) : FileTree × Stream :=
    match stream with
    | .file _ [] => (files, stream)
    | .file path parts =>
      let before := match files.read path with
        | .ok content => content
        | .error _ => []
      let text := String.join parts.reverse
      match files.write path (before ++ toBytes text.toList) with
      | .ok files => (files, .file path [])
      | .error _ => (files, .file path [])
    | stream => (files, stream)
  if p.streams.any fun | .file _ (_ :: _) => true | _ => false then
    let (files, streams) := p.streams.foldl (fun (files, streams) stream =>
      let (files, stream) := step files stream
      (files, streams.push stream)) (p.files, (#[] : Array Stream))
    { p with files, streams }
  else p

/-- Forgets the streams behind the first ones that no descriptor leads to any more. -/
def release (kept : Nat) : Act Unit := do
  let p ← get
  let size := p.descriptors.foldl (fun size entry => max size (entry.2 + 1)) kept
  if size < p.streams.size then
    let _ ← settle fun
      | ⟨_, _, .write stream _⟩ => size ≤ stream
      | _ => false
    sync
    modify fun p =>
      let { streams, .. } := p
      { p with streams := streams.shrink size }

/-- The rest of what a descriptor leads to, and whether it is a file. -/
def unread (descriptor : Nat) : Act (List Char × Bool) := do
  match ← streamOf? descriptor with
  | none => return ([], false)
  | some number =>
    match (← get).streams[number]? with
    | some (.source isFile rest) => return (rest, isFile)
    | _ => return ([], false)

/-- Leaves only a part of what a descriptor leads to. -/
def leaveUnread (descriptor : Nat) (rest : List Char) : Act Unit := do
  if let some number ← streamOf? descriptor then
    changeStream number fun
      | .source isFile _ => .source isFile rest
      | stream => stream

/-- Takes all that is left of the input. -/
def takeInput : Act (List Char) := do
  let (text, _) ← unread 0
  leaveUnread 0 []
  return text

/-! ## Variables -/

/-- The value of a variable. -/
def valueOf? (name : String) : Act (Option String) :=
  return ((← get).bindings.lookup name).bind (·.value)

/-- Changes a variable, which is made if it is not there. -/
def changeVariable (name : String) (f : Variable → Variable) : Act Unit := modify fun p =>
  let rec change : List (String × Variable) → List (String × Variable)
    | [] => [(name, f ⟨none, false, false⟩)]
    | (other, old) :: rest =>
      if other == name then (other, f old) :: rest else (other, old) :: change rest
  { p with bindings := change p.bindings }

/-- Sets a variable, unless its value is fixed, which ends the shell. -/
def assign (name value : String) : Act Unit := do
  if ((← get).bindings.lookup name).any (·.isFixed) then abort s!"{name}: is read only"
  else
    if name == "OPTIND" then modify fun p => { p with optionOffset := none }
    let exported ← option 'a'
    changeVariable name fun v => { v with value := some value, isExported := v.isExported || exported }

/-! ## Files -/

/-- A path as commands see it. -/
def path (name : String) : Act Path := return (← get).directory.join (.ofString (toText name))

/-- The file that holds nothing and forgets what is written to it. -/
def nullFile : String := "/dev/null"

/-- The file that takes nothing. -/
def fullFile : String := "/dev/full"

/-- The file that holds zeros without end, and how many of them are read. -/
def zeroFile : String := "/dev/zero"

@[inherit_doc zeroFile]
def zerosRead : Nat := 1048576

/-- The descriptors that paths stand for. -/
def standardPaths : List (String × Nat) :=
  [("/dev/stdin", 0), ("/dev/stdout", 1), ("/dev/stderr", 2), ("/dev/fd/0", 0), ("/dev/fd/1", 1),
    ("/dev/fd/2", 2)]

/-- The files, with all that was written to them. -/
def files : Act FileTree := do
  sync
  return (← get).files

/-- Changes the files; answers with why that is refused. -/
def changeFiles (f : FileTree → Except FileError FileTree) : Act (Option FileError) := do
  match f (← files) with
  | .ok changed =>
    modify fun p => { p with files := changed }
    return none
  | .error e => return some e

/-- What is found at a name: none is empty, and one that ends with a slash leads to a directory. -/
def found (name : String) (found : Except Fault FileTree.Found) : Except Fault FileTree.Found :=
  if name == "" then .error .notFound
  else if name.endsWith "/" then
    match found with
    | .ok (.entry _ (.file _)) => .error .notDirectory
    | found => found
  else found

/-- What a name leads to, every link followed. -/
def follow (name : String) : Act (Except Fault FileTree.Found) :=
  return found name ((← files).follow (← path name))

/-- What a name stands for, a link at its end not followed. -/
def locate (name : String) : Act (Except Fault FileTree.Found) := do
  if name.endsWith "/" then follow name else return found name ((← files).locate (← path name))

/-- Whether a name leads to a directory. -/
def isDirectory (name : String) : Act Bool := do
  match ← follow name with
  | .ok (.entry _ .directory) => return true
  | _ => return false

/-- The content of a file, or why it cannot be read. -/
def readFile (name : String) : Act (Except Fault (List Char)) := do
  if name == nullFile then return .ok []
  else if standardPaths.lookup name == some 0 then return .ok (← takeInput)
  else if name == zeroFile then return .ok (List.replicate zerosRead '\x00')
  else
    match ← follow name with
    | .ok (.entry _ (.file content)) => return .ok (ofBytes content).toList
    | .ok (.entry _ _) => return .error .isDirectory
    | .ok (.vacant _) => return .error .notFound
    | .error fault => return .error fault

/-! ## Time -/

/-- Lets time pass. Where a limit is reached before, that ends there. -/
def passTime (milliseconds : Nat) : Act Unit := do
  let p ← get
  match p.deadline with
  | some deadline =>
    if p.clock + milliseconds > deadline then
      set { p with clock := deadline }
      throw .expired
    else set { p with clock := p.clock + milliseconds }
  | none => set { p with clock := p.clock + milliseconds }

end Act

/-- The cause of a refused operation. -/
def causeOf : FileError → Fault
  | .refused fault _ | .refusedPair fault _ _ => fault
  | _ => .exists

end WasmPackaging.Shell
