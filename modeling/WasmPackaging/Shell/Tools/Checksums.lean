import WasmPackaging.Digest.Md5
import WasmPackaging.Digest.Sha1
import WasmPackaging.Shell.Tools.Inputs

/-!
Tools that write digests of their inputs, or check lists of such digests.
-/

namespace WasmPackaging.Shell

open Text

/-- A kind of digest: the tool that writes it, its name in lists, how many characters it has, and the digest
of some bytes. -/
structure DigestKind where
  tool : String
  name : String
  size : Nat
  digest : Bytes → String

/-- The digest and the name of a file that a line of a list gives. -/
def DigestKind.listed? (kind : DigestKind) (line : List Char) : Option (String × String) :=
  let start := (kind.name ++ " (").toList
  let isDigest (s : List Char) : Bool := s.length == kind.size && s.all isHexDigit
  if start.isPrefixOf line then
    let digest := (line.reverse.take kind.size).reverse
    let rest := (line.drop start.length).reverse.drop kind.size
    if isDigest digest && [' ', '=', ' ', ')'].isPrefixOf rest then
      some (String.ofList digest, String.ofList (rest.drop 4).reverse)
    else none
  else
    let digest := line.take kind.size
    match isDigest digest, line.drop kind.size with
    | true, ' ' :: c :: name =>
      if (c == ' ' || c == '*') && !name.isEmpty then some (String.ofList digest, String.ofList name) else none
    | _, _ => none
where
  /-- Whether a character is a digit of a digest. -/
  isHexDigit (c : Char) : Bool := c.isDigit || ('a' ≤ c && c ≤ 'f') || ('A' ≤ c && c ≤ 'F')

/-- How many lines of a list were read, were wrong, named a file that cannot be read, or did not agree. -/
structure CheckCounts where
  proper : Nat := 0
  wrong : Nat := 0
  unreadable : Nat := 0
  different : Nat := 0

/-- What is said of a count. -/
def countWarning (n : Nat) (one several : String) : Option String :=
  if n == 0 then none else some (s!"WARNING: {n} " ++ if n == 1 then one else several)

/-- Checks a list of digests. -/
def DigestKind.check (kind : DigestKind) (given : Given) (list : String) (content : List Char) : Act Bool := do
  let isMute := given.has 'S'
  let counts ← (bareLines content).zipIdx.foldlM (fun (counts : CheckCounts) (line, i) => do
    match kind.listed? line with
    | none =>
      if given.has 'w' then
        Act.complain s!"{kind.tool}: {list}: {i + 1}: improperly formatted {kind.name} checksum line"
      return { counts with wrong := counts.wrong + 1 }
    | some (digest, name) => do
      let counts := { counts with proper := counts.proper + 1 }
      match ← contentOf name with
      | .error fault =>
        if given.has 'I' && fault == .notFound then return counts
        Act.complain (plainRefusal kind.tool name fault)
        if !isMute then Act.say s!"{name}: FAILED open or read\n"
        return { counts with unreadable := counts.unreadable + 1 }
      | .ok content =>
        if kind.digest (toBytes content) == String.ofList (digest.toList.map Char.toLower) then
          if !isMute && !given.has 'Q' then Act.say s!"{name}: OK\n"
          return counts
        else
          if !isMute then Act.say s!"{name}: FAILED\n"
          return { counts with different := counts.different + 1 }) {}
  if counts.proper == 0 then
    Act.complain s!"{kind.tool}: {list}: no properly formatted checksum lines found"
    return false
  else
    let warnings := [countWarning counts.wrong "line is improperly formatted" "lines are improperly formatted",
      countWarning counts.unreadable "listed file could not be read" "listed files could not be read",
      countWarning counts.different "computed checksum did NOT match" "computed checksums did NOT match"]
    if !isMute then (warnings.filterMap id).forM fun warning => Act.complain s!"{kind.tool}: {warning}"
    return counts.unreadable == 0 && counts.different == 0 && (counts.wrong == 0 || !given.has 'T')

/-- A name of a file in a list of digests, with a mark if it holds escapes. -/
def listedName (name : String) : String × String :=
  let shown := String.ofList (name.toList.flatMap fun c =>
    if c == '\\' then ['\\', '\\'] else if c == '\n' then ['\\', 'n'] else if c == '\r' then ['\\', 'r'] else [c])
  (if shown == name then "" else "\\", shown)

/-- Writes the digests of its inputs, or checks lists of them. -/
def DigestKind.write (kind : DigestKind) : Tool := fun arguments =>
  let table : FlagTable :=
    { tool := kind.tool, letters := "bctwzQSITG",
      long := [("binary", 'b'), ("check", 'c'), ("text", 't'), ("warn", 'w'), ("zero", 'z'), ("quiet", 'Q'),
        ("status", 'S'), ("ignore-missing", 'I'), ("strict", 'T'), ("tag", 'G')] }
  table.run arguments fun given => do
    let checking := [('I', "ignore-missing"), ('S', "status"), ('w', "warn"), ('Q', "quiet"), ('T', "strict")]
    match given.has 'c', checking.find? fun entry => given.has entry.1 with
    | false, some (_, name) =>
      Act.failing 1 (s!"{kind.tool}: the --{name} option is meaningful only when verifying checksums\n" ++
        s!"Try '{kind.tool} --help' for more information.")
    | true, _ =>
      let checked ← (inputNames given.operands).mapM fun name => do
        match ← contentOf name with
        | .ok content =>
          kind.check given (if name == "-" then nameQuoted "standard input" else nameShown name) content
        | .error fault =>
          Act.complain (plainRefusal kind.tool name fault)
          return false
      endedWell (checked.all id)
    | false, none =>
      let mark := if given.lastOf? "bt" == some 'b' then " *" else "  "
      let ending := if given.has 'z' then "\x00" else "\n"
      endedWell (← eachInput (plainRefusal kind.tool) given.operands fun name content => do
        let digest := kind.digest (toBytes content)
        let (escape, shown) := if given.has 'z' then ("", name) else listedName name
        Act.say ((if given.has 'G' then s!"{escape}{kind.name} ({shown}) = {digest}"
          else escape ++ digest ++ mark ++ shown) ++ ending))

/-- Writes MD5 digests. -/
def md5sum : Tool := DigestKind.write ⟨"md5sum", "MD5", 32, Digest.Md5.digest⟩

/-- Writes SHA-1 digests. -/
def sha1sum : Tool := DigestKind.write ⟨"sha1sum", "SHA1", 40, Digest.Sha1.digest⟩

/-- Writes SHA-256 digests. -/
def sha256sum : Tool := DigestKind.write ⟨"sha256sum", "SHA256", 64, Digest.sha256⟩

end WasmPackaging.Shell
