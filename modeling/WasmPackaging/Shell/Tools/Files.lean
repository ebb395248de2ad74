import WasmPackaging.FileTree.Resolution
import WasmPackaging.Shell.Tools.Inputs

/-!
Tools that list, make, copy, move and remove files.
-/

namespace WasmPackaging.Shell

open Text

/-- The hint behind a wrong use of a tool. -/
def helpHint (tool : String) : String := s!"\nTry '{tool} --help' for more information."

/-- A name with a name in it behind a slash. -/
def nameIn (directory name : String) : String :=
  if directory.endsWith "/" then directory ++ name else directory ++ "/" ++ name

/-- The names in a directory in order. -/
def sortedNames (files : FileTree) (location : Location) : List String :=
  ((files.children location).map fun child => ofText child.1).mergeSort fun a b => decide (a ≤ b)

/-- The last part of a name. -/
def baseName (name : String) : String := lastName "" name

/-- Does something for each name; ends with a status of one if any of it failed. -/
def eachName (names : List String) (act : String → Act Bool) : Act Unit := do
  let done ← names.mapM act
  endedWell (done.all id)

/-- A refusal that is complained about. -/
def refused (text : String) : Act Bool := do
  Act.complain text
  return false

/-! ## Lists -/

/-- What a list of files shows. -/
structure ListStyle where
  hidden : Bool
  parents : Bool
  marks : Bool
  slashes : Bool
  reverses : Bool
  quotes : Bool
  long : Bool
  bySize : Bool

/-- The size of an entry. -/
def entrySize : Entry → Nat
  | .file content => content.length
  | .link target => target.utf8ByteSize
  | .directory => 4096

/-- The mark behind a name. -/
def ListStyle.mark (style : ListStyle) (isExecutable : Bool) : Entry → String
  | .directory => if style.marks || style.slashes then "/" else ""
  | .link _ => if style.marks then "@" else ""
  | .file _ => if style.marks && isExecutable then "*" else ""

/-- A line of a list. -/
def ListStyle.line (style : ListStyle) (isExecutable : Bool) (name : String) (entry : Entry) : String :=
  let shown := if style.quotes then s!"\"{name}\"" else name
  let shown := shown ++ style.mark isExecutable entry
  if !style.long then shown ++ "\n"
  else
    let kind := match entry with
      | .directory => "drwxr-xr-x"
      | .link _ => "lrwxrwxrwx"
      | .file _ => if isExecutable then "-rwxr-xr-x" else "-rw-r--r--"
    let target := match entry with
      | .link target => " -> " ++ ofText target
      | _ => ""
    s!"{kind} 1 root root {entrySize entry} Jan  1 00:00 {shown}{target}\n"

/-- The entries of a directory that a list shows. -/
def ListStyle.entries (style : ListStyle) (files : FileTree) (location : Location) :
    List (String × Entry) :=
  let entries := (files.children location).map fun child => (ofText child.1, child.2)
  let entries := if style.parents then [(".", Entry.directory), ("..", .directory)] ++ entries else entries
  let entries := entries.filter fun entry => style.hidden || !entry.1.startsWith "."
  let sorted := entries.mergeSort fun a b => decide (a.1 ≤ b.1)
  let sorted := if style.bySize then
    sorted.mergeSort fun a b => decide (entrySize b.2 ≤ entrySize a.2) else sorted
  if style.reverses then sorted.reverse else sorted

/-- The text of a list of a directory, and of those in it as deep as asked for. -/
def ListStyle.text (style : ListStyle) (p : Process) (headed : Bool) :
    Nat → String → Location → String
  | depth, name, location =>
    let entries := style.entries p.files location
    let lines := entries.map fun (entryName, entry) =>
      style.line (p.executables.contains (location ++ [toText entryName])) entryName entry
    let heading := (if headed then name ++ ":\n" else "") ++ if style.long then "total 0\n" else ""
    let inner := match depth with
      | 0 => []
      | depth + 1 => entries.filterMap fun (entryName, entry) =>
        if entry == .directory && entryName != "." && entryName != ".." then
          some ("\n" ++ style.text p true depth (nameIn name entryName) (location ++ [toText entryName]))
        else none
    heading ++ String.join lines ++ String.join inner

/-- Lists files. -/
def ls : Tool := fun arguments =>
  let table : FlagTable :=
    { tool := "ls", letters := "1aABbcCdfFgGhHiklLmnNopqQrRsStTuUvxXZ", valued := "Iw",
      long := [("all", 'a'), ("almost-all", 'A'), ("directory", 'd'), ("classify", 'F'), ("recursive", 'R'),
        ("reverse", 'r'), ("quote-name", 'Q')],
      failure := 2 }
  table.run arguments fun given => do
    let p ← get
    let style : ListStyle :=
      { hidden := given.has 'a' || given.has 'A' || given.has 'f', parents := given.has 'a' || given.has 'f',
        marks := given.has 'F', slashes := given.has 'p', reverses := given.has 'r', quotes := given.has 'Q',
        long := given.has 'l', bySize := given.has 'S' }
    let names := if given.operands.isEmpty then ["."] else given.operands
    let found ← names.mapM fun name => do
      let leads ← Act.follow name
      let stands ← Act.locate name
      match stands, leads with
      | .ok (.entry location entry), leads =>
        let keepsLink := given.has 'd' || given.has 'F' || given.has 'l'
        match leads with
        | .ok (.entry there .directory) =>
          if given.has 'd' || (keepsLink && entry != .directory) then return some (name, entry, location, false)
          else return some (name, .directory, there, true)
        | _ => return some (name, entry, location, false)
      | .ok (.vacant _), _ =>
        Act.complain s!"ls: cannot access {nameQuoted name}: {Fault.notFound.text}"
        return none
      | .error fault, _ =>
        Act.complain s!"ls: cannot access {nameQuoted name}: {fault.text}"
        return none
    let files ← Act.files
    let p := { p with files }
    let shown := (found.filterMap id).mergeSort fun a b => decide (a.1 ≤ b.1)
    let shown := if style.reverses then shown.reverse else shown
    let plain := shown.filter fun entry => !entry.2.2.2
    let lists := shown.filter fun entry => entry.2.2.2
    let lines := plain.map fun (name, entry, location, _) =>
      style.line (p.executables.contains location) name entry
    let depth := if given.has 'R' then files.entries.length + 1 else 0
    let texts := lists.map fun (name, _, location, _) =>
      style.text p (names.length > 1 || given.has 'R') depth name location
    let texts := if lines.isEmpty then texts else String.join lines :: texts
    let text := "\n".intercalate texts
    Act.say (if given.has 'm' && !given.has 'R' then
      ", ".intercalate ((bareLines text.toList).map String.ofList) ++ (if text == "" then "" else "\n") else text)
    Act.ended (if found.all Option.isSome then 0 else 2)

/-! ## Directories -/

/-- Makes a directory. -/
def makeDirectory (name : String) : Act (Option Fault) := do
  let shown := String.ofList (withoutSlashes name.toList)
  match ← Act.locate shown with
  | .ok (.entry _ _) => return some .exists
  | .error fault => return some fault
  | .ok (.vacant _) =>
    let path ← Act.path shown
    return (← Act.changeFiles (·.makeDirectory path)).map causeOf

/-- The names of the directories on the way to a name, and that name. -/
def leadingNames (name : String) : List String :=
  let parts := (splitAt '/' name.toList).map String.ofList
  let starts := (List.range parts.length).map fun i => "/".intercalate (parts.take (i + 1))
  starts.filter fun start => start != "" && !start.endsWith "/"

/-- Makes directories. -/
def mkdir : Tool := fun arguments =>
  let table : FlagTable :=
    { tool := "mkdir", letters := "pvZ", valued := "m",
      long := [("parents", 'p'), ("verbose", 'v'), ("mode", 'm')] }
  table.run arguments fun given => do
    let refusal (name : String) (fault : Fault) : Act Bool :=
      refused s!"mkdir: cannot create directory {curlyQuoted name}: {fault.text}"
    let noted (name : String) : Act Unit :=
      if given.has 'v' then Act.say s!"mkdir: created directory {nameQuoted name}\n" else pure ()
    let rec parents (whole : String) : List String → Act Bool
      | [] => return true
      | name :: rest => do
        if ← Act.isDirectory name then parents whole rest
        else
          match ← makeDirectory name with
          | none =>
            noted name
            parents whole rest
          | some .exists =>
            if rest.isEmpty then refusal whole .exists else refusal name .notDirectory
          | some fault => refusal name fault
    if given.operands.isEmpty then Act.failing 1 ("mkdir: missing operand" ++ helpHint "mkdir")
    else
      eachName given.operands fun name => do
        if given.has 'p' && name != "" then parents name (leadingNames name)
        else
          match ← makeDirectory name with
          | none =>
            noted name
            return true
          | some fault => refusal name fault

/-- Removes an empty directory. -/
def removeDirectory (name : String) : Act (Option String) := do
  match ← Act.locate name with
  | .ok (.entry location .directory) =>
    let files ← Act.files
    if !(files.children location).isEmpty then return some "Directory not empty"
    else if (baseName name) == "." then return some "Invalid argument"
    else
      let _ ← Act.changeFiles fun files => .ok (files.erase location)
      return none
  | .ok (.entry _ _) => return some Fault.notDirectory.text
  | .ok (.vacant _) => return some Fault.notFound.text
  | .error fault => return some fault.text

/-- Removes empty directories. -/
def rmdir : Tool := fun arguments =>
  let table : FlagTable :=
    { tool := "rmdir", letters := "pvi",
      long := [("parents", 'p'), ("verbose", 'v'), ("ignore-fail-on-non-empty", 'i')] }
  table.run arguments fun given => do
    let rec go (what : String) : List String → Act Bool
      | [] => return true
      | name :: rest => do
        if given.has 'v' then Act.say s!"rmdir: removing directory, {nameQuoted name}\n"
        match ← removeDirectory name with
        | none => go "directory " rest
        | some cause =>
          if given.has 'i' && cause == "Directory not empty" then return true
          else refused s!"rmdir: failed to remove {what}{nameQuoted name}: {cause}"
    if given.operands.isEmpty then Act.failing 1 ("rmdir: missing operand" ++ helpHint "rmdir")
    else
      eachName given.operands fun name =>
        if given.has 'p' then go "" (leadingNames (String.ofList (withoutSlashes name.toList))).reverse
        else go "" [name]

/-! ## Removing -/

/-- The lines that tell of the removal of what is in a directory. -/
def removalLines (files : FileTree) : Nat → String → Location → List String
  | 0, _, _ => []
  | depth + 1, name, location =>
    (sortedNames files location).flatMap fun inner =>
      let there := location ++ [toText inner]
      let innerName := nameIn name inner
      if files.lookup there == some .directory then
        removalLines files depth innerName there ++ [s!"removed directory {nameQuoted innerName}"]
      else [s!"removed {nameQuoted innerName}"]

/-- Asks a question; answers whether a line of the input agrees. -/
def agrees (question : String) : Act Bool := do
  let _ ← Act.writeTo 2 question
  let (text, _) ← Act.unread 0
  let line := text.takeWhile (· != '\n')
  Act.leaveUnread 0 (text.drop (line.length + 1))
  return line.head? == some 'y' || line.head? == some 'Y'

/-- What a file is called in a question. -/
def fileKind : Entry → String
  | .file [] => "regular empty file"
  | .file _ => "regular file"
  | .link _ => "symbolic link"
  | .directory => "directory"

/-- Removes files, and directories with all that is in them. -/
def rm : Tool := fun arguments =>
  let table : FlagTable :=
    { tool := "rm", letters := "dfiIrRv",
      long := [("dir", 'd'), ("force", 'f'), ("recursive", 'r'), ("verbose", 'v')] }
  table.run arguments fun given => do
    let asks := given.lastOf? "if" == some 'i'
    let isRecursive := given.has 'r' || given.has 'R'
    let noted (lines : List String) : Act Unit :=
      if given.has 'v' then Act.say (String.join (lines.map (· ++ "\n"))) else pure ()
    let refusal (name cause : String) : Act Bool := refused s!"rm: cannot remove {nameQuoted name}: {cause}"
    if given.operands.isEmpty then
      if given.has 'f' then Act.ended 0 else Act.failing 1 ("rm: missing operand" ++ helpHint "rm")
    else
      eachName given.operands fun name => do
        let last := baseName name
        match ← Act.locate name with
        | .ok (.entry location .directory) =>
          if (last == "." || last == "..") && (isRecursive || given.has 'd') then
            refused s!"rm: refusing to remove '.' or '..' directory: skipping {nameQuoted name}"
          else if isRecursive && location == [] then
            Act.complain ("rm: it is dangerous to operate recursively on " ++
              (if name == "/" then "'/'" else s!"{nameQuoted name} (same as '/')"))
            refused "rm: use --no-preserve-root to override this failsafe"
          else if isRecursive then
            let files ← Act.files
            noted (removalLines files (files.entries.length + 1) name location ++
              [s!"removed directory {nameQuoted name}"])
            let _ ← Act.changeFiles fun files => .ok (files.eraseBelow location)
            return true
          else if given.has 'd' then
            match ← removeDirectory name with
            | none =>
              noted [s!"removed directory {nameQuoted name}"]
              return true
            | some cause => refusal name cause
          else refusal name Fault.isDirectory.text
        | .ok (.entry location entry) =>
          if asks then
            if !(← agrees s!"rm: remove {fileKind entry} {nameQuoted name}? ") then return true
          noted [s!"removed {nameQuoted name}"]
          let _ ← Act.changeFiles fun files => .ok (files.erase location)
          return true
        | .ok (.vacant _) => if given.has 'f' then return true else refusal name Fault.notFound.text
        | .error .notFound => if given.has 'f' then return true else refusal name Fault.notFound.text
        | .error .notDirectory =>
          if given.has 'f' && !name.endsWith "/" then return true else refusal name Fault.notDirectory.text
        | .error fault => refusal name fault.text

/-! ## Copying and moving -/

/-- Sources and the target of a tool that copies or moves, given its flags. -/
structure Transfer where
  sources : List String
  target : String
  isInto : Bool

/-- Reads the operands of a tool that copies or moves. -/
def Transfer.read (tool : String) (given : Given) : Act (Except String Transfer) := do
  let missing (name : String) : Except String Transfer :=
    .error (s!"{tool}: missing destination file operand after {nameQuoted name}" ++ helpHint tool)
  match given.value? 't', given.operands with
  | _, [] => return .error (s!"{tool}: missing file operand" ++ helpHint tool)
  | some directory, sources =>
    match ← Act.follow directory with
    | .ok (.entry _ .directory) => return .ok ⟨sources, directory, true⟩
    | .ok (.entry _ _) => return .error s!"{tool}: target directory {nameQuoted directory}: {Fault.notDirectory.text}"
    | .error fault => return .error s!"{tool}: target directory {nameQuoted directory}: {fault.text}"
    | .ok (.vacant _) => return .error s!"{tool}: target directory {nameQuoted directory}: {Fault.notFound.text}"
  | none, [name] => return missing name
  | none, names =>
    let sources := names.dropLast
    let target := names.getLast?.getD ""
    if given.has 'T' then
      match sources with
      | [_] => return .ok ⟨sources, target, false⟩
      | _ => return .error (s!"{tool}: extra operand " ++ nameQuoted (names.getD 2 "") ++ helpHint tool)
    else
      match ← Act.follow target with
      | .ok (.entry _ .directory) => return .ok ⟨sources, target, true⟩
      | found =>
        if sources.length = 1 then return .ok ⟨sources, target, false⟩
        else
          let fault := match found with
            | .ok (.vacant _) => Fault.notFound
            | .error fault => fault
            | _ => .notDirectory
          return .error s!"{tool}: target {nameQuoted target}: {fault.text}"

/-- Does something with each source and its target. -/
def Transfer.each (t : Transfer) (act : String → String → Act Bool) : Act Unit :=
  eachName t.sources fun source =>
    act source (if t.isInto then nameIn t.target (baseName source) else t.target)

/-- The entries of a directory, each with what leads to it from there. -/
def entriesBelow (files : FileTree) (location : Location) : List (Location × Entry) :=
  files.entries.filterMap fun (other, entry) => (Path.below? location other).map (·, entry)

/-- The flags of a copy. -/
structure CopyStyle where
  isRecursive : Bool
  keepsLinks : Bool
  keepsTargets : Bool
  noted : String → String → Act Unit

/-- Copies a file or a directory to a name. -/
def copyTo (style : CopyStyle) : Nat → Bool → String → String → Act Bool
  | 0, _, _, _ => return true
  | depth + 1, isOutermost, source, target => do
    let there ← if style.keepsLinks then Act.locate source else Act.follow source
    let kept ← Act.follow target
    let unfollowed ← Act.locate target
    let isThere := match unfollowed with
      | .ok (.entry _ _) => true
      | _ => false
    match there with
    | .error fault => refused s!"cp: cannot stat {nameQuoted source}: {fault.text}"
    | .ok (.vacant _) => refused s!"cp: cannot stat {nameQuoted source}: {Fault.notFound.text}"
    | .ok (.entry location .directory) =>
      if !style.isRecursive then refused s!"cp: -r not specified; omitting directory {nameQuoted source}"
      else
        let isWithin := match unfollowed with
          | .ok (.entry other _) | .ok (.vacant other) => (Path.below? location other).isSome
          | .error _ => false
        if isOutermost && isWithin then
          let inner := sortedNames (← Act.files) location
          let isSame := match unfollowed with
            | .ok (.entry other _) => other == location
            | _ => false
          if !isSame then
            let _ ← makeDirectory target
            let _ ← inner.mapM fun name => do
              let source := nameIn source name
              let inside ← Act.locate source
              let made ← Act.locate target
              let isTarget := match inside, made with
                | .ok (.entry a _), .ok (.entry b _) => a == b
                | _, _ => false
              if isTarget then return true else copyTo style depth false source (nameIn target name)
          refused s!"cp: cannot copy a directory, {nameQuoted source}, into itself, {nameQuoted target}"
        else
          match kept with
          | .ok (.entry _ (.file _)) | .ok (.entry _ (.link _)) =>
            refused s!"cp: cannot overwrite non-directory {nameQuoted target} with directory {nameQuoted source}"
          | kept =>
            let inner := sortedNames (← Act.files) location
            let made ← match kept with
              | .ok (.entry _ _) => pure none
              | _ => makeDirectory target
            match made with
            | some fault => refused s!"cp: cannot create directory {nameQuoted target}: {fault.text}"
            | none =>
              let isNew := match kept with
                | .ok (.entry _ _) => false
                | _ => true
              if isNew then style.noted source target
              let done ← inner.mapM fun name =>
                copyTo style depth false (nameIn source name) (nameIn target name)
              return done.all id
    | .ok (.entry location entry) =>
      if isThere && style.keepsTargets then return true
      else
        match kept, unfollowed, entry with
        | .ok (.entry _ .directory), _, _ =>
          refused s!"cp: cannot overwrite directory {nameQuoted target} with non-directory"
        | .ok (.entry other _), _, .file content =>
          if other == location then
            refused s!"cp: {nameQuoted source} and {nameQuoted target} are the same file"
          else
            style.noted source target
            let _ ← Act.changeFiles fun files => .ok (files.put other (.file content))
            return true
        | .ok (.vacant _), .ok (.entry _ (.link _)), .file _ =>
          refused s!"cp: not writing through dangling symlink {nameQuoted target}"
        | _, .ok (.entry other _), entry =>
          if other == location then
            refused s!"cp: {nameQuoted source} and {nameQuoted target} are the same file"
          else
            style.noted source target
            let _ ← Act.changeFiles fun files => .ok (files.put other entry)
            return true
        | _, .ok (.vacant other), entry =>
          if target.endsWith "/" then
            refused s!"cp: cannot create regular file {nameQuoted target}: {Fault.notDirectory.text}"
          else
            style.noted source target
            let executables := (← get).executables
            let _ ← Act.changeFiles fun files => .ok (files.put other entry)
            if executables.contains location then
              modify fun p => { p with executables := other :: p.executables }
            return true
        | _, .error fault, .link _ =>
          refused s!"cp: cannot create symbolic link {nameQuoted target}: {fault.text}"
        | _, .error fault, _ =>
          refused s!"cp: cannot create regular file {nameQuoted target}: {fault.text}"

/-- Copies files, and directories with all that is in them. -/
def cp : Tool := fun arguments =>
  let table : FlagTable :=
    { tool := "cp", letters := "abdfHilLnPprRsTuvx", valued := "tS",
      long := [("archive", 'a'), ("force", 'f'), ("dereference", 'L'), ("no-dereference", 'P'),
        ("no-clobber", 'n'), ("recursive", 'r'), ("verbose", 'v'), ("target-directory", 't'),
        ("no-target-directory", 'T'), ("update", 'u')] }
  table.run arguments fun given => do
    let isRecursive := given.has 'r' || given.has 'R' || given.has 'a'
    let keepsLinks := match given.lastOf? "LPdaH" with
      | some 'L' | some 'H' => false
      | some _ => true
      | none => isRecursive
    let noted (source target : String) : Act Unit :=
      if given.has 'v' then Act.say s!"{nameQuoted source} -> {nameQuoted target}\n" else pure ()
    match ← Transfer.read "cp" given with
    | .error cause => Act.failing 1 cause
    | .ok t =>
      let depth := (← Act.files).entries.length + 2
      t.each (copyTo ⟨isRecursive, keepsLinks, given.has 'n', noted⟩ depth true)

/-- Files with all that is below one location put below another. -/
def movedBelow (source target : Location) (files : FileTree) : FileTree :=
  let moved := (entriesBelow files source).map fun (rest, entry) => (target ++ rest, entry)
  moved.foldl (fun files (location, entry) => files.put location entry)
    ((files.eraseBelow target).eraseBelow source)

/-- Moves a file or a directory to a name. -/
def moveTo (keepsTargets : Bool) (noted : String → String → Act Unit) (source target : String) :
    Act Bool := do
  let bareTarget := String.ofList (withoutSlashes target.toList)
  let standing ← Act.locate source
  let targeted ← Act.locate bareTarget
  match standing, targeted with
  | .error fault, _ => refused s!"mv: cannot stat {nameQuoted source}: {fault.text}"
  | .ok (.vacant _), _ => refused s!"mv: cannot stat {nameQuoted source}: {Fault.notFound.text}"
  | .ok (.entry _ _), .error fault =>
    refused s!"mv: cannot move {nameQuoted source} to {nameQuoted target}: {fault.text}"
  | .ok (.entry here entry), found =>
    let there := match found with
      | .ok (.entry there _) | .ok (.vacant there) => there
      | .error _ => []
    let finish : Act Bool := do
      noted source target
      let executables := (← get).executables
      let _ ← Act.changeFiles fun files => .ok (movedBelow here there files)
      let moved (location : Location) : Location :=
        ((Path.below? here location).map (there ++ ·)).getD location
      modify fun p => { p with executables := executables.map moved }
      return true
    let isWithin := (Path.below? here there).isSome
    match found, entry with
    | .ok (.entry _ _), _ =>
      if keepsTargets then return true
      else if here == there then
        if entry == .directory then
          refused (s!"mv: cannot move {nameQuoted source} to a subdirectory of itself, " ++
            nameQuoted (nameIn target (baseName source)))
        else refused s!"mv: {nameQuoted source} and {nameQuoted target} are the same file"
      else
        match entry, (← Act.files).lookup there with
        | .directory, some .directory =>
          if isWithin then
            refused s!"mv: cannot move {nameQuoted source} to a subdirectory of itself, {nameQuoted target}"
          else if !((← Act.files).children there).isEmpty then
            refused s!"mv: cannot overwrite {nameQuoted target}: Directory not empty"
          else finish
        | .directory, _ =>
          refused s!"mv: cannot overwrite non-directory {nameQuoted target} with directory {nameQuoted source}"
        | _, some .directory =>
          refused s!"mv: cannot overwrite directory {nameQuoted target} with non-directory"
        | _, _ => finish
    | _, .directory =>
      if isWithin then
        refused s!"mv: cannot move {nameQuoted source} to a subdirectory of itself, {nameQuoted target}"
      else finish
    | _, _ =>
      if target.endsWith "/" then
        refused s!"mv: cannot move {nameQuoted source} to {nameQuoted target}: {Fault.notDirectory.text}"
      else finish

/-- Moves files and directories. -/
def mv : Tool := fun arguments =>
  let table : FlagTable :=
    { tool := "mv", letters := "bfinTuv", valued := "tS",
      long := [("force", 'f'), ("no-clobber", 'n'), ("verbose", 'v'), ("target-directory", 't'),
        ("no-target-directory", 'T'), ("update", 'u')] }
  table.run arguments fun given => do
    let noted (source target : String) : Act Unit :=
      if given.has 'v' then Act.say s!"renamed {nameQuoted source} -> {nameQuoted target}\n" else pure ()
    match ← Transfer.read "mv" given with
    | .error cause => Act.failing 1 cause
    | .ok t => t.each (moveTo (given.lastOf? "fin" == some 'n') noted)

/-! ## Links -/

/-- Makes links. -/
def ln : Tool := fun arguments =>
  let table : FlagTable :=
    { tool := "ln", letters := "bfinrsTvLP", valued := "tS",
      long := [("symbolic", 's'), ("force", 'f'), ("no-dereference", 'n'), ("verbose", 'v'), ("relative", 'r'),
        ("target-directory", 't'), ("no-target-directory", 'T')] }
  table.run arguments fun given => do
    let isSymbolic := given.has 's'
    let what := if isSymbolic then "symbolic" else "hard"
    let transfer? : Except String Transfer ← match given.value? 't', given.operands with
      | _, [] => pure (.error ("ln: missing file operand" ++ helpHint "ln"))
      | some _, _ => Transfer.read "ln" given
      | none, [_] => pure (.ok ⟨given.operands, ".", true⟩)
      | none, [source, target] =>
        let stands := match ← Act.locate target with
          | .ok (.entry _ entry) => entry == .directory
          | _ => false
        let leads ← Act.isDirectory target
        let isInto := !given.has 'T' && (if given.has 'n' then stands else leads)
        pure (.ok ⟨[source], target, isInto⟩)
      | none, _ => Transfer.read "ln" given
    match transfer? with
    | .error cause => Act.failing 1 cause
    | .ok t =>
      t.each fun source target => do
        let files ← Act.files
        let refusal (fault : Fault) : Act Bool :=
          let pair := if isSymbolic && fault == .notFound then
            s!"{nameQuoted target} -> {nameQuoted source}" else nameQuoted target
          refused s!"ln: failed to create {what} link {pair}: {fault.text}"
        let entry : Except String Entry ← do
          if isSymbolic then
            if source == "" then
              pure (.error s!"ln: failed to create symbolic link {nameQuoted target} -> {nameQuoted source}: {Fault.notFound.text}")
            else pure (.ok (.link (toText source)))
          else match ← Act.locate source with
            | .ok (.entry _ .directory) => pure (.error s!"ln: {nameShown source}: hard link not allowed for directory")
            | .ok (.entry _ entry) => pure (.ok entry)
            | .ok (.vacant _) => pure (.error s!"ln: failed to access {nameQuoted source}: {Fault.notFound.text}")
            | .error fault => pure (.error s!"ln: failed to access {nameQuoted source}: {fault.text}")
        match entry with
        | .error cause => refused cause
        | .ok entry =>
          let finish (location : Location) : Act Bool := do
            let entry := match entry with
              | .link text =>
                if given.has 'r' then
                  let here := (Path.ofString text).normalize files.workingDirectory
                  .link (Path.relativeTo here location.dropLast).toString
                else .link text
              | entry => entry
            if given.has 'v' then
              Act.say (s!"{nameQuoted target} " ++ (if isSymbolic then "->" else "=>") ++ s!" {nameQuoted source}\n")
            let _ ← Act.changeFiles fun files => .ok (files.put location entry)
            return true
          match ← Act.locate target with
          | .ok (.vacant location) => finish location
          | .ok (.entry _ .directory) =>
            if given.has 'f' then refused s!"ln: {nameShown target}: cannot overwrite directory"
            else refusal .exists
          | .ok (.entry location _) => if given.has 'f' then finish location else refusal .exists
          | .error fault => refusal fault

/-- Where a name really leads: everything on the way has to be there, or all but the last part, or nothing. -/
def realLocation (mode : Char) (name : String) : Act (Except Fault Location) := do
  let files ← Act.files
  match ← Act.follow name with
  | .ok (.entry location _) => return .ok location
  | .ok (.vacant location) => return if mode == 'e' then .error .notFound else .ok location
  | .error fault =>
    if mode != 'm' || name == "" then return .error fault
    else
      match files.resolve (← Act.path name) with
      | .ok location => return .ok location
      | .error _ => return .error .linkLoop

/-- Writes where links lead. -/
def readlink : Tool := fun arguments =>
  let table : FlagTable :=
    { tool := "readlink", letters := "efmnqsvz",
      long := [("canonicalize", 'f'), ("canonicalize-existing", 'e'), ("canonicalize-missing", 'm'),
        ("no-newline", 'n'), ("quiet", 'q'), ("silent", 's'), ("verbose", 'v'), ("zero", 'z')] }
  table.run arguments fun given => do
    if given.operands.isEmpty then Act.failing 1 ("readlink: missing operand" ++ helpHint "readlink")
    else
      let ending := if given.has 'n' && given.operands.length = 1 then "" else if given.has 'z' then "\x00" else "\n"
      eachName given.operands fun name => do
        let failed (cause : String) : Act Bool := do
          if given.has 'v' then Act.complain s!"readlink: {nameShown name}: {cause}"
          return false
        match given.lastOf? "efm" with
        | some mode =>
          match ← realLocation mode name with
          | .ok location =>
            Act.say (ofText (Path.ofLocation location).toString ++ ending)
            return true
          | .error fault => failed fault.text
        | none =>
          match ← Act.locate name with
          | .ok (.entry _ (.link target)) =>
            Act.say (ofText target ++ ending)
            return true
          | .ok (.entry _ _) => failed "Invalid argument"
          | .ok (.vacant _) => failed Fault.notFound.text
          | .error fault => failed fault.text

/-- Writes where names really lead. -/
def realpath : Tool := fun arguments =>
  let table : FlagTable :=
    { tool := "realpath", letters := "emsqzLP", valued := "RB",
      long := [("canonicalize-existing", 'e'), ("canonicalize-missing", 'm'), ("strip", 's'), ("no-symlinks", 's'),
        ("quiet", 'q'), ("zero", 'z'), ("relative-to", 'R'), ("relative-base", 'B')] }
  table.run arguments fun given => do
    let ending := if given.has 'z' then "\x00" else "\n"
    if given.operands.isEmpty then Act.failing 1 ("realpath: missing operand" ++ helpHint "realpath")
    else
      let files ← Act.files
      let start? ← match given.value? 'R' with
        | none => pure none
        | some name => do
          match ← realLocation 'm' name with
          | .ok location => pure (some location)
          | .error _ => pure none
      eachName given.operands fun name => do
        let found ← if given.has 's' then
            pure (.ok ((← Act.path name).normalize files.workingDirectory))
          else realLocation ((given.lastOf? "em").getD 'f') name
        match found with
        | .ok location =>
          let path := match start? with
            | some start => Path.relativeTo location start
            | none => Path.ofLocation location
          Act.say (ofText path.toString ++ ending)
          return true
        | .error fault =>
          if !given.has 'q' then Act.complain s!"realpath: {nameShown name}: {fault.text}"
          return false

/-! ## Attributes -/

/-- Makes files that are not there. -/
def touch : Tool := fun arguments =>
  let table : FlagTable :=
    { tool := "touch", letters := "acfhm", valued := "drt",
      long := [("no-create", 'c'), ("date", 'd'), ("reference", 'r')] }
  table.run arguments fun given => do
    if given.operands.isEmpty then Act.failing 1 ("touch: missing file operand" ++ helpHint "touch")
    else
      eachName given.operands fun name => do
        match ← Act.follow name with
        | .ok (.entry _ _) => return true
        | .ok (.vacant _) =>
          if name.endsWith "/" then refused s!"touch: setting times of {nameQuoted name}: {Fault.notFound.text}"
          else if given.has 'c' then return true
          else
            let path ← Act.path name
            match ← Act.changeFiles (·.write path []) with
            | none => return true
            | some e => refused s!"touch: cannot touch {nameQuoted name}: {(causeOf e).text}"
        | .error fault =>
          if given.has 'c' && fault == .notFound then return true
          else refused s!"touch: cannot touch {nameQuoted name}: {fault.text}"

/-- What a mode does to the permission to execute: gives it, takes it, or leaves it; nothing for a text that
is no mode. -/
def executeChange? (mode : String) : Option (Option Bool) :=
  if mode != "" && mode.length ≤ 4 && mode.toList.all fun c => (octalDigit? c).isSome then
    some (some (mode.toList.any fun c => ((octalDigit? c).getD 0) % 2 = 1 && mode.length ≤ 3 ||
      ((octalDigit? c).getD 0) % 2 = 1))
  else
    let clauses := splitAt ',' mode.toList
    let read (clause : List Char) : Option (Option Bool) :=
      match clause.dropWhile "ugoa".toList.contains with
      | sign :: letters =>
        if !"+-=".toList.contains sign || !letters.all "rwxXst".toList.contains then none
        else if letters.contains 'x' || letters.contains 'X' then some (some (sign != '-'))
        else some (if sign == '=' then some false else none)
      | [] => none
    let changes := clauses.map read
    if changes.any Option.isNone then none
    else some ((changes.filterMap id).filterMap id).getLast?

/-- Changes permissions, of which that to execute is known. -/
def chmod : Tool := fun arguments => do
  let isMode (s : String) : Bool := s.length > 1 && s.startsWith "-" && (executeChange? s).isSome
  let (modes, rest) := (arguments.filter isMode, arguments.filter fun s => !isMode s)
  let table : FlagTable :=
    { tool := "chmod", letters := "cfRv", long := [("recursive", 'R'), ("verbose", 'v'), ("silent", 'f')] }
  table.run rest fun given => do
    match modes ++ given.operands with
    | [] => Act.failing 1 ("chmod: missing operand" ++ helpHint "chmod")
    | [mode] => Act.failing 1 (s!"chmod: missing operand after {curlyQuoted mode}" ++ helpHint "chmod")
    | mode :: names =>
      match executeChange? mode with
      | none => Act.failing 1 (s!"chmod: invalid mode: {curlyQuoted mode}" ++ helpHint "chmod")
      | some change? =>
        eachName names fun name => do
          match ← Act.follow name with
          | .ok (.entry location entry) =>
            let files ← Act.files
            let below := if given.has 'R' && entry == .directory then
                (entriesBelow files location).map fun found => location ++ found.1
              else [location]
            if let some gives := change? then
              modify fun p => { p with executables :=
                let others := p.executables.filter fun other => !below.contains other
                if gives then below ++ others else others }
            return true
          | .ok (.vacant _) => refused s!"chmod: cannot access {nameQuoted name}: {Fault.notFound.text}"
          | .error fault => refused s!"chmod: cannot access {nameQuoted name}: {fault.text}"

/-! ## Comparing -/

/-- An octet as three octal digits with blanks before them. -/
def octalShown (c : Char) : String := padStart 3 (String.ofList (Nat.toDigits 8 c.toNat))

/-- Compares two files byte by byte. -/
def cmp : Tool := fun arguments =>
  let table : FlagTable :=
    { tool := "cmp", letters := "bls", valued := "ni",
      long := [("silent", 's'), ("quiet", 's'), ("print-bytes", 'b'), ("verbose", 'l'), ("bytes", 'n'),
        ("ignore-initial", 'i')] }
  match table.read arguments with
  | .error complaint =>
    Act.failing 2 (String.ofList (complaint.toList.takeWhile (· != '\n')) ++
      "\ncmp: Try 'cmp --help' for more information.")
  | .ok given => do
    let wrong (cause : String) : Act Unit :=
      Act.failing 2 s!"cmp: {cause}\ncmp: Try 'cmp --help' for more information."
    let skips := match given.value? 'i', given.operands.drop 2 with
      | some text, _ => (splitAt ':' text.toList).map String.ofList
      | none, skips => skips
    match given.operands with
    | [] => wrong "missing operand after 'cmp'"
    | a :: rest =>
      let b := rest.headD "-"
      let read (name : String) : Act (Option (List Char)) := do
        match ← contentOf name with
        | .ok content => return some content
        | .error fault =>
          if !given.has 's' then Act.complain s!"cmp: {name}: {fault.text}"
          return none
      if given.has 'l' && given.has 's' then wrong "options -l and -s are incompatible"
      else if let some text := skips.find? fun text => text.toNat?.isNone then
        wrong s!"invalid --ignore-initial value '{text}'"
      else if let some text := (given.values 'n').find? fun text => text.toNat?.isNone then
        wrong s!"invalid --bytes value '{text}'"
      else
        let most := (given.value? 'n').bind String.toNat?
        let kept (i : Nat) (s : List Char) : List Char :=
          let s := s.drop (((skips.getD i (if given.has 'i' then skips.headD "0" else "0")).toNat?).getD 0)
          s.take (most.getD s.length)
        match ← read a with
        | none => Act.ended 2
        | some first =>
          match ← read b with
          | none => Act.ended 2
          | some second =>
            let (first, second) := (kept 0 first, kept 1 second)
            let size := min first.length second.length
            let width := if a == "-" || b == "-" then 19 else (toString size).length
            if first == second then Act.ended 0
            else
              let different := ((first.zip second).zipIdx 1).filter fun entry => entry.1.1 != entry.1.2
              let bytes (x y : Char) (isPadded : Bool) : String :=
                let shown (c : Char) : String := String.ofList (visibleOctet c)
                if given.has 'b' then
                  octalShown x ++ " " ++ (if isPadded then padEnd 4 (shown x) else shown x) ++ " " ++ octalShown y ++
                    " " ++ shown y
                else octalShown x ++ " " ++ octalShown y
              let lineOf (n : Nat) : Nat := (first.take n).foldl (fun n c => if c == '\n' then n + 1 else n) 0
              let shorter := if size == first.length then a else b
              if given.has 'l' then
                if first.length != second.length then
                  Act.complain (s!"cmp: EOF on {shorter}" ++
                    if size == 0 then " which is empty" else s!" after byte {size}")
                Act.say (String.join (different.map fun ((x, y), n) =>
                  padStart width (toString n) ++ " " ++ bytes x y true ++ "\n"))
              else if !given.has 's' then
                match different with
                | [] =>
                  let isLineStart := size == 0 || first[size - 1]? == some '\n'
                  let place := if size == 0 then " which is empty"
                    else s!" after byte {size}, " ++
                      (if isLineStart then s!"line {lineOf size}" else s!"in line {lineOf size + 1}")
                  Act.complain s!"cmp: EOF on {shorter}{place}"
                | ((x, y), n) :: _ =>
                  Act.say (s!"{a} {b} differ: byte {n}, line {lineOf (n - 1) + 1}" ++
                    (if given.has 'b' then " is " ++ bytes x y false else "") ++ "\n")
              Act.ended 1

end WasmPackaging.Shell
