import WasmPackaging.Shell.Tools.Files

/-!
Tools for files as blocks of octets, for what is known of files and of who asks, and for single entries.
-/

namespace WasmPackaging.Shell

open Text

/-! ## Who asks -/

/-- A tool that writes a line. -/
def answering (line : String) : Tool := fun _ => do
  Act.say (line ++ "\n")
  Act.ended 0

/-- Tells the user and the groups. -/
def userIds : Tool := fun arguments =>
  let table : FlagTable :=
    { tool := "id", letters := "ugGnrz", long := [("user", 'u'), ("group", 'g'), ("groups", 'G'), ("name", 'n')] }
  table.run arguments fun given => do
    let isSingle := given.has 'u' || given.has 'g' || given.has 'G'
    match given.operands.find? fun name => name != "root" && name != "0" with
    | some name => Act.failing 1 s!"id: {curlyQuoted name}: no such user"
    | none =>
      Act.say (if !isSingle then "uid=0(root) gid=0(root) groups=0(root)\n" else if given.has 'n' then "root\n" else "0\n")
      Act.ended 0

/-- Tells the system. -/
def uname : Tool := fun arguments =>
  let table : FlagTable :=
    { tool := "uname", letters := "asmopi",
      long := [("kernel-name", 's'), ("machine", 'm'), ("operating-system", 'o'), ("processor", 'p')] }
  table.run arguments fun given => do
    let part (letter : Char) (text : String) : List String := if given.has letter then [text] else []
    let parts := part 's' "Linux" ++ part 'm' "x86_64" ++ part 'p' "unknown" ++ part 'i' "unknown" ++ part 'o' "GNU/Linux"
    Act.say (" ".intercalate (if parts.isEmpty then ["Linux"] else parts) ++ "\n")
    Act.ended 0

/-- Tells the terminal: there is none. -/
def tty : Tool := fun arguments => do
  if !arguments.contains "-s" then Act.say "not a tty\n"
  Act.ended 1

/-! ## Single entries -/

/-- Takes the name of a file away. -/
def unlink : Tool := fun arguments =>
  let table : FlagTable := { tool := "unlink" }
  table.run arguments fun given => do
    match given.operands with
    | [] => Act.failing 1 ("unlink: missing operand" ++ helpHint "unlink")
    | [name] =>
      let path ← Act.path name
      let isDirectory := match ← Act.locate name with
        | .ok (.entry _ .directory) => true
        | _ => false
      let fault? ← if isDirectory then pure (some Fault.isDirectory)
        else do pure ((← Act.changeFiles (·.unlink path)).map causeOf)
      match fault? with
      | none => Act.ended 0
      | some fault => Act.failing 1 s!"unlink: cannot unlink {nameQuoted name}: {fault.text}"
    | _ :: extra :: _ => Act.failing 1 (s!"unlink: extra operand {curlyQuoted extra}" ++ helpHint "unlink")

/-- Cuts files to a size, or fills them up to it. -/
def truncate : Tool := fun arguments =>
  let table : FlagTable :=
    { tool := "truncate", letters := "co", valued := "sr",
      long := [("size", 's'), ("reference", 'r'), ("no-create", 'c')] }
  table.run arguments fun given => do
    match given.value? 's', given.operands with
    | none, _ =>
      let (size, reference) := (curlyQuoted "--size", curlyQuoted "--reference")
      Act.failing 1 (s!"truncate: you must specify either {size} or {reference}" ++ helpHint "truncate")
    | some _, [] => Act.failing 1 ("truncate: missing file operand" ++ helpHint "truncate")
    | some text, names =>
      match Count.read? text with
      | none => Act.failing 1 s!"truncate: Invalid number: {curlyQuoted text}"
      | some count =>
        eachName names fun name => do
          let path ← Act.path name
          let content? ← Act.readFile name
          let content := match content? with
            | .ok content => content
            | .error _ => []
          let size := match count.sign with
            | some '+' => content.length + count.size
            | some '-' => content.length - count.size
            | _ => count.size
          let isMissing := match content? with
            | .error .notFound => true
            | _ => false
          if isMissing && given.has 'c' then return true
          else
            let filled := content.take size ++ List.replicate (size - content.length) '\x00'
            match ← Act.changeFiles (·.write path (toBytes filled)) with
            | none => return true
            | some e => refused s!"truncate: cannot open {nameQuoted name} for writing: {(causeOf e).text}"

/-- What kind of entry stands at a place. -/
def entryKind : Entry → String
  | .file [] => "regular empty file"
  | .file _ => "regular file"
  | .link _ => "symbolic link"
  | .directory => "directory"

/-- What is known of an entry, written by a format. -/
def knownText (name : String) (entry : Entry) (isExecutable : Bool) : List Char → List Char
  | '%' :: letter :: rest =>
    let known : Option String := match letter, entry with
      | 'n', _ => some name
      | 's', .file content => some (toString content.length)
      | 's', .link target => some (toString (ofText target).length)
      | 's', .directory => some "4096"
      | 'F', entry => some (entryKind entry)
      | 'N', .link target => some (nameQuoted name ++ " -> " ++ nameQuoted (ofText target))
      | 'N', _ => some (nameQuoted name)
      | 'a', .file _ => some (if isExecutable then "755" else "644")
      | 'a', .link _ => some "777"
      | 'a', .directory => some "755"
      | 'U', _ | 'G', _ => some "root"
      | 'u', _ | 'g', _ => some "0"
      | 'h', _ => some "1"
      | '%', _ => some "%"
      | _, _ => none
    ((known.map String.toList).getD ['%', letter]) ++ knownText name entry isExecutable rest
  | c :: rest => c :: knownText name entry isExecutable rest
  | [] => []

/-- Tells what is known of files, by a format. -/
def stat : Tool := fun arguments =>
  let table : FlagTable :=
    { tool := "stat", letters := "Lft", valued := "cp",
      long := [("format", 'c'), ("printf", 'p'), ("dereference", 'L')] }
  table.run arguments fun given => do
    if given.operands.isEmpty then Act.failing 1 ("stat: missing operand" ++ helpHint "stat")
    else
      eachName given.operands fun name => do
        match ← (if given.has 'L' then Act.follow name else Act.locate name) with
        | .ok (.entry location entry) =>
          let isExecutable := (← get).executables.contains location
          let shown (format : String) : String :=
            String.ofList (knownText name entry isExecutable format.toList)
          match given.value? 'c', given.value? 'p' with
          | some format, _ => Act.say (shown format ++ "\n")
          | none, some format => Act.say (shown (withEscapes shellDialect.escapes format).1)
          | none, none => Act.say (shown "  File: %N\n  Size: %s\n")
          return true
        | .ok (.vacant _) => refused s!"stat: cannot statx {nameQuoted name}: {Fault.notFound.text}"
        | .error fault => refused s!"stat: cannot statx {nameQuoted name}: {fault.text}"

/-! ## Blocks -/

/-- The number of blocks in some octets, whole ones and parts. -/
def blockCounts (size count : Nat) : String :=
  let parts := if count % size = 0 then 0 else 1
  s!"{count / size}+{parts}"

/-- Copies blocks of octets. -/
def dd : Tool := fun arguments => do
  let given := arguments.map fun argument =>
    let name := argument.toList.takeWhile (· != '=')
    (String.ofList name, String.ofList (argument.toList.drop (name.length + 1)), argument)
  let known := ["if", "of", "bs", "ibs", "obs", "count", "skip", "seek", "status", "conv", "iflag", "oflag"]
  match given.find? fun entry => !known.contains entry.1 || !entry.2.2.toList.contains '=' with
  | some (_, _, argument) =>
    Act.failing 1 (s!"dd: unrecognized operand {nameQuoted argument}" ++ helpHint "dd")
  | none =>
    let value? (name : String) : Option String := (given.reverse.lookup name).map Prod.fst
    let numbers := ["bs", "ibs", "obs", "count", "skip", "seek"].filterMap value?
    match numbers.find? fun text => (Count.read? text).isNone with
    | some text => Act.failing 1 s!"dd: invalid number: {curlyQuoted text}"
    | none =>
      let number? (name : String) : Option Nat := ((value? name).bind Count.read?).map Count.size
      let inSize := max 1 (((number? "bs").or (number? "ibs")).getD 512)
      let outSize := max 1 (((number? "bs").or (number? "obs")).getD 512)
      let content ← match value? "if" with
        | some name => Act.readFile name
        | none => do pure (.ok (← Act.takeInput))
      match content with
      | .error .isDirectory =>
        let name := nameQuoted ((value? "if").getD "")
        Act.failing 1 s!"dd: error reading {name}: Is a directory"
      | .error fault =>
        let name := nameQuoted ((value? "if").getD "")
        Act.failing 1 s!"dd: failed to open {name}: {fault.text}"
      | .ok content =>
        let rest := content.drop (inSize * (number? "skip").getD 0)
        let read := match number? "count" with
          | some count => rest.take (count * inSize)
          | none => rest
        let conversions := (splitAt ',' ((value? "conv").getD "").toList).map String.ofList
        let text := if conversions.contains "ucase" then read.map Char.toUpper
          else if conversions.contains "lcase" then read.map Char.toLower else read
        let fault? ← match value? "of" with
          | none => do
            Act.say (String.ofList text)
            pure none
          | some name => do
            let path ← Act.path name
            let before := match (← Act.files).read path with
              | .ok content => content
              | .error _ => []
            let start := outSize * (number? "seek").getD 0
            let lead := before.take start ++ List.replicate (start - before.length) 0
            let kept := if conversions.contains "notrunc" then before.drop (start + text.length) else []
            if name == Act.nullFile then pure none
            else pure ((← Act.changeFiles (·.write path (lead ++ toBytes text ++ kept))).map fun e => (name, causeOf e))
        match fault? with
        | some (name, fault) => Act.failing 1 s!"dd: failed to open {nameQuoted name}: {fault.text}"
        | none =>
          let status := (value? "status").getD ""
          if status != "none" then
            let records := s!"{blockCounts inSize read.length} records in\n{blockCounts outSize text.length} records out"
            let unit := if text.length = 1 then "byte" else "bytes"
            Act.complain (records ++ if status == "noxfer" then "" else s!"\n{text.length} {unit} copied, 0 s, Infinity B/s")
          Act.ended 0

end WasmPackaging.Shell
