import WasmPackaging.Shell.Tools.Awk
import WasmPackaging.Shell.Tools.Blocks
import WasmPackaging.Shell.Tools.Checksums
import WasmPackaging.Shell.Tools.Comparing
import WasmPackaging.Shell.Tools.Conditions
import WasmPackaging.Shell.Tools.Expression
import WasmPackaging.Shell.Tools.Files
import WasmPackaging.Shell.Tools.Finding
import WasmPackaging.Shell.Tools.Grep
import WasmPackaging.Shell.Tools.Inputs
import WasmPackaging.Shell.Tools.Lines
import WasmPackaging.Shell.Tools.Sed

/-!
The programs that a shell can start, and where it finds them: in the directories that the search path
names, or at a path.
-/

namespace WasmPackaging.Shell

open Text

/-- A program: a tool, one that starts other commands, one that tells where programs are, or a shell. -/
inductive Program where
  | tool (act : Tool)
  | launcher (act : Launcher)
  | finder
  | shell

/-- The programs by name. -/
def programs : List (String × Program) :=
  [("sh", .shell), ("dash", .shell), ("which", .finder),
    ("true", .tool fun _ => Act.ended 0), ("false", .tool fun _ => Act.ended 1),
    ("echo", .tool (echoProgram false false)), ("printf", .tool printfProgram),
    ("seq", .tool seq), ("yes", .tool yes), ("basename", .tool basename), ("dirname", .tool dirname),
    ("test", .tool (test fun cause => Act.complain s!"test: {cause}")),
    ("[", .tool (bracketTest (curlyQuoted "]") fun cause => Act.complain s!"[: {cause}")),
    ("cat", .tool cat), ("tee", .tool tee), ("head", .tool head), ("tail", .tool tail), ("wc", .tool wc),
    ("tac", .tool (buffered tac)), ("rev", .tool (buffered rev)), ("nl", .tool nl),
    ("base64", .tool base64), ("sha256sum", .tool sha256sum), ("sha1sum", .tool sha1sum),
    ("md5sum", .tool md5sum), ("od", .tool od),
    ("ls", .tool ls), ("mkdir", .tool mkdir), ("rmdir", .tool rmdir), ("rm", .tool rm), ("cp", .tool cp),
    ("mv", .tool mv), ("ln", .tool ln), ("readlink", .tool readlink), ("realpath", .tool realpath),
    ("touch", .tool touch), ("chmod", .tool chmod), ("cmp", .tool cmp), ("diff", .tool diff),
    ("unlink", .tool unlink), ("truncate", .tool truncate), ("stat", .tool stat), ("dd", .tool dd),
    ("whoami", .tool (answering "root")), ("groups", .tool (answering "root")), ("id", .tool userIds),
    ("uname", .tool uname), ("arch", .tool (answering "x86_64")), ("tty", .tool tty),
    ("sort", .tool sort), ("uniq", .tool uniq), ("cut", .tool cut), ("paste", .tool paste),
    ("fold", .tool fold), ("expand", .tool expand), ("comm", .tool comm), ("tr", .tool tr),
    ("grep", .tool (grep false false)), ("egrep", .tool (grep true false)),
    ("fgrep", .tool (grep false true)), ("sed", .tool sed),
    ("expr", .tool expr), ("find", .launcher find), ("awk", .launcher awk), ("mawk", .launcher awk),
    ("env", .launcher env), ("printenv", .tool printenv), ("xargs", .launcher xargs),
    ("sleep", .tool sleep), ("pwd", .tool pwd),
    ("timeout", .launcher timeout), ("nohup", .launcher nohup), ("nice", .launcher nice)]

/-- Says that a tool could not write. -/
def toolUnwritten (tool : String) (fault : WriteFault) : Act Unit :=
  let cause := fault.text
  match tool with
  | "cat" =>
    let name := if fault = .closed then "standard output" else "write error"
    Act.failing 1 s!"cat: {name}: {cause}"
  | "sort" => Act.failing 2 s!"sort: fflush failed: 'standard output': {cause}\nsort: write error"
  | "sed" =>
    let verb := if fault = .closed then "close" else "flush"
    Act.failing 4 s!"sed: couldn't {verb} stdout: {cause}"
  | "awk" | "mawk" => Act.failing 2 s!"{tool}: close failed on file \"/dev/stdout\" ({cause})"
  | "tee" => Act.failing 1 s!"tee: 'standard output': {cause}"
  | "diff" | "cmp" => Act.failing 2 s!"{tool}: standard output: {cause}"
  | "yes" => Act.failing 1 s!"yes: standard output: {cause}"
  | "find" =>
    let output := curlyQuoted "standard output"
    Act.failing 1 s!"find: {output}: {cause}\nfind: write error"
  | "ls" | "grep" | "egrep" | "fgrep" | "printenv" => Act.failing 2 s!"{tool}: write error: {cause}"
  | "expr" => Act.failing 3 s!"expr: write error: {cause}"
  | "env" => Act.failing 125 s!"env: write error: {cause}"
  | tool => Act.failing 1 s!"{tool}: write error: {cause}"

/-- The directories that hold the programs. -/
def programDirectories : List String := ["/usr/bin", "/bin"]

/-- The directories that are searched for programs unless a variable says otherwise. -/
def searchPath : String := "/usr/local/sbin:/usr/local/bin:/usr/sbin:/usr/bin:/sbin:/bin"

/-- The directories that are searched where no variable says anything. -/
def bareSearchPath : String := "/bin:/usr/bin"

/-- The program at a path. -/
def programAt? (path : String) : Option Program :=
  programDirectories.findSome? fun directory =>
    let start := (directory ++ "/").toList
    if start.isPrefixOf path.toList then programs.lookup (String.ofList (path.toList.drop start.length))
    else none

/-- The program of a name, at a path or in the directories that hold programs. -/
def program? (name : String) : Option Program :=
  if name.toList.contains '/' then programAt? name else programs.lookup name

/-- What can be started: a program, or a file that holds a script. -/
inductive Executable where
  | program (path : String) (program : Program)
  | script (path : String) (content : List Char)

/-- The path at which something to be started stands. -/
def Executable.path : Executable → String
  | .program path _ | .script path _ => path

/-- Why nothing can be started: the status that this counts as, and the cause. -/
structure Unstarted where
  status : Int
  cause : String

/-- The refusal for a fault. -/
def Unstarted.ofFault : Fault → Unstarted
  | .notFound | .notDirectory => ⟨127, "not found"⟩
  | .linkLoop => ⟨127, Fault.linkLoop.text⟩
  | .nameTooLong => ⟨127, Fault.nameTooLong.text⟩
  | fault => ⟨126, fault.text⟩

/-- What can be started at a path. -/
def executableAt (path : String) : Act (Except Fault Executable) := do
  match programAt? path with
  | some program => return .ok (.program path program)
  | none =>
    match ← Act.follow path with
    | .ok (.entry location (.file content)) =>
      if (← get).executables.contains location then return .ok (.script path (ofBytes content).toList)
      else return .error .noPermission
    | .ok (.entry _ _) => return .error .noPermission
    | .ok (.vacant _) => return .error .notFound
    | .error fault => return .error fault

/-- What a name starts; `search` is the path that is searched where no variable gives one. -/
def findExecutable (search name : String) : Act (Except Unstarted Executable) := do
  if name == "" then return .error ⟨127, Fault.noPermission.text⟩
  else if name.toList.contains '/' then
    match ← executableAt name with
    | .ok found => return .ok found
    | .error fault => return .error (.ofFault fault)
  else
    let directories := splitAt ':' ((← Act.valueOf? "PATH").getD search).toList
    let answers ← directories.mapM fun directory =>
      executableAt (if directory.isEmpty then name else String.ofList directory ++ "/" ++ name)
    match answers.findSome? fun | .ok found => some found | .error _ => none with
    | some found => return .ok found
    | none =>
      let isRefused := answers.any fun | .error .noPermission => true | _ => false
      return .error (.ofFault (if isRefused then .noPermission else .notFound))

/-- Tells where programs are found. -/
def which (arguments : List String) : Act Unit := do
  let names := arguments.filter fun name => name != "-a" && name != "-s"
  let found ← names.mapM fun name => do
    match ← findExecutable bareSearchPath name with
    | .ok found =>
      if !arguments.contains "-s" then Act.say (found.path ++ "\n")
      return true
    | .error _ => return false
  Act.ended (if names.isEmpty || !found.all (· == true) then 1 else 0)

end WasmPackaging.Shell
