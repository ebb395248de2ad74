import WasmPackaging.Shell.Evaluation
import WasmPackaging.World

/-!
Starting commands. A command either cannot be started (`startFault?`), which is a failure with a status
of its own, or ends with a status, and any status but zero is a failure.
-/

namespace WasmPackaging.Shell

/-- The status that a command counts as having when it cannot be started. -/
def notStarted : Int := 127

/-- Why no command can start in a directory. -/
def directoryFault? (files : FileTree) (directory : Path) : Option Fault :=
  match files.follow directory with
  | .ok (.entry _ .directory) => none
  | .ok (.entry _ _) => some .notDirectory
  | .ok (.vacant _) => some .notFound
  | .error fault => some fault

/-- Why a path or a name starts nothing in a directory. No file of a tree may be executed, and a name
that is no step of a path names the directories themselves in which commands are looked for. -/
def nameFault (files : FileTree) (directory : Path) (name : String) : Fault :=
  if !isPart name || name = parentStep then .noPermission
  else if !name.toList.contains '/' then .notFound
  else match files.follow (directory.child name) with
    | .ok (.entry _ _) => .noPermission
    | .ok (.vacant _) => .notFound
    | .error fault => fault

/-- Why a command cannot be started. -/
def startFault? (files : FileTree) (directory : Path) (name : String) : Option FileError :=
  match directoryFault? files directory with
  | some fault => some (.refused fault directory.toString)
  | none =>
    if (program? name).isSome then none else some (.refused (nameFault files directory name) name)

/-- The directory that a path leads to. -/
def settledDirectory (files : FileTree) (directory : Path) : Path :=
  match files.follow directory with
  | .ok (.entry location _) => .ofLocation location
  | _ => directory

/-- The process of a command before its first step. -/
def Process.ofCommand (files : FileTree) (c : Command) : Process :=
  let directory := settledDirectory files c.directory
  let exported (value : String) : Variable := { value := some (ofText value), isExported := true }
  { files, directory,
    bindings := [("PATH", exported searchPath), ("HOME", exported "/root"),
      ("PWD", exported directory.toString), ("LANG", exported "C.UTF-8")],
    streams := #[.source false (ofText (c.input.getD "")).toList, .sink Act.endless [], .sink Act.endless []],
    descriptors := [(0, 0), (1, 1), (2, 2)] }

/-- The files behind a command, its exit status, and what it wrote. A command that a signal ends has the
signal's number with a minus for its status. -/
structure Ending where
  files : FileTree
  status : Int
  output : String
  complaints : String

/-- How a program ends that is run under a name with some arguments. -/
def Process.ending (program : Program) (name : String) (arguments : List String) (p : Process) : Ending :=
  let act : Act (Int × String × String) := do
    let result ← Act.attempt (run plenty program (ofText name) (arguments.map ofText))
    let p ← get
    let status := match result with
      | .error (.killed signal) => -(signal : Int)
      | _ => p.status
    let _ ← Act.settle fun _ => true
    Act.sync
    return (status, ← Act.written 1, ← Act.written 2)
  match act p with
  | (.ok (status, output, complaints), p) => ⟨p.files, status, toText output, toText complaints⟩
  | (.error _, p) => ⟨p.files, p.status, "", ""⟩

/-- Runs a command to its end. What it did to the files stays done when it fails. -/
def runCommand {τ : Type} : Runner τ := fun c world =>
  match c.arguments with
  | [] => (.error (.unsupported .emptyCommand), world)
  | name :: arguments =>
    if c.arguments.any fun argument => argument.toList.contains '\x00' then
      (.error (.unsupported .zeroInArgument), world)
    else match startFault? world.files c.directory name, program? name with
      | none, some program =>
        let ending := (Process.ofCommand world.files c).ending program name arguments
        let world := { world with files := ending.files }
        if ending.status = 0 then (.ok ending.output, world)
        else (.error (c.failure ⟨c.arguments, ending.status, ending.output, ending.complaints⟩), world)
      | fault, _ =>
        let cause := (fault.map FileError.message).getD ""
        (.error (c.failure ⟨c.arguments, notStarted, "", s!"Unable to start {name}: {cause}"⟩), world)

end WasmPackaging.Shell
