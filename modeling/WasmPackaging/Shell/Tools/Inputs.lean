import WasmPackaging.Shell.Tools.Printing
import WasmPackaging.Text.Base64

/-!
Tools that write their inputs, or a part of them, or what there is to tell about them. An input is a file
or, under the name of a dash, what is left of the standard input.
-/

namespace WasmPackaging.Shell

open Text

/-! ## Inputs -/

/-- What an input holds. -/
def contentOf (name : String) : Act (Except Fault (List Char)) := do
  if name != "-" then Act.readFile name
  else
    match ← Act.streamOf? 0 with
    | none => return .ok []
    | some number =>
      match (← get).streams[number]? with
      | some .directory => return .error .isDirectory
      | _ => return .ok (← Act.takeInput)

/-- The names of inputs; without any it is the standard input. -/
def inputNames (names : List String) : List String := if names.isEmpty then ["-"] else names

/-- A name in a complaint, in quotes if it has to be. -/
def nameShown (name : String) : String := shellQuoted false name

/-- A name in a complaint, always in quotes. -/
def nameQuoted (name : String) : String := shellQuoted true name

/-- The complaint on an input, behind the name of the tool and its own. -/
def plainRefusal (tool : String) (name : String) (fault : Fault) : String :=
  s!"{tool}: {nameShown name}: {fault.text}"

/-- The complaint that an input cannot be opened or read. -/
def openingComplaint (tool : String) (name : String) : Fault → String
  | .isDirectory => s!"{tool}: error reading {nameQuoted name}: {Fault.isDirectory.text}"
  | fault => s!"{tool}: cannot open {nameQuoted name} for reading: {fault.text}"

/-- Does something with each input that can be read, in order; answers whether all could. -/
def eachInput (refusal : String → Fault → String) (names : List String)
    (act : String → List Char → Act Unit) : Act Bool := do
  let readable ← (inputNames names).mapM fun name => do
    match ← contentOf name with
    | .ok content =>
      act name content
      return true
    | .error fault =>
      Act.complain (refusal name fault)
      return false
  return readable.all id

/-- All that some inputs hold, and whether all could be read. -/
def allInputs (refusal : String → Fault → String) (names : List String) :
    Act (List (List Char) × Bool) := do
  let contents ← (inputNames names).mapM fun name => do
    match ← contentOf name with
    | .ok content => return some content
    | .error fault =>
      Act.complain (refusal name fault)
      return none
  return (contents.filterMap id, contents.all Option.isSome)

/-- Ends with a status of zero, or of one if something failed. -/
def endedWell (isWell : Bool) : Act Unit := Act.ended (if isWell then 0 else 1)

/-! ## Whole inputs -/

/-- How lines are shown: which of them are numbered, whether only one of several blank ones is kept, and
which characters are made visible. -/
structure ShowingStyle where
  numbers : Bool := false
  onlyFilled : Bool := false
  joinsBlank : Bool := false
  ends : Bool := false
  tabs : Bool := false
  controls : Bool := false

/-- Where a text that is shown has got to: the number of its line, whether a line starts, and whether the line
before it was blank. -/
structure Showing where
  number : Nat := 0
  isStart : Bool := true
  afterBlank : Bool := false

/-- A text with blanks before it, up to a width. -/
def padStart (width : Nat) (s : String) : String :=
  String.ofList (List.replicate (width - s.length) ' ') ++ s

/-- A text with blanks behind it, up to a width. -/
def padEnd (width : Nat) (s : String) : String :=
  s ++ String.ofList (List.replicate (width - s.length) ' ')

/-- A control character or an octet outside of ASCII, made visible. -/
def visibleOctet (c : Char) : List Char :=
  let low (n : Nat) : List Char :=
    if n < 32 then ['^', Char.ofNat (n + 64)] else if n = 127 then ['^', '?'] else [Char.ofNat n]
  if c.toNat < 128 then low c.toNat else 'M' :: '-' :: low (c.toNat - 128)

/-- A line made visible. -/
def ShowingStyle.line (style : ShowingStyle) (line : List Char) : List Char :=
  let body := withoutLineEnd line
  let isEnded := body.length < line.length
  let shown := body.flatMap fun c =>
    if c == '\t' then (if style.tabs then ['^', 'I'] else [c])
    else if style.controls then visibleOctet c
    else [c]
  let shown := if style.ends && isEnded && !style.controls && body.getLast? == some '\r' then
    shown.dropLast ++ ['^', 'M'] else shown
  shown ++ (if isEnded then (if style.ends then ['$', '\n'] else ['\n']) else [])

/-- Shows a line. -/
def Showing.step (style : ShowingStyle) (s : Showing) (line : List Char) : Showing × List Char :=
  let isBlank := s.isStart && line == ['\n']
  if isBlank && s.afterBlank && style.joinsBlank then (s, [])
  else
    let counts := style.numbers && s.isStart && !(style.onlyFilled && isBlank)
    let number := if counts then s.number + 1 else s.number
    let start := if counts then (padStart 6 (toString number)).toList ++ ['\t'] else []
    (⟨number, line.getLast? == some '\n', isBlank⟩, start ++ style.line line)

/-- Writes its inputs one behind the other. -/
def cat : Tool := fun arguments =>
  let table : FlagTable :=
    { tool := "cat", letters := "AbeEnstTuv",
      long := [("show-all", 'A'), ("number-nonblank", 'b'), ("show-ends", 'E'), ("number", 'n'),
        ("squeeze-blank", 's'), ("show-tabs", 'T'), ("show-nonprinting", 'v')] }
  table.run arguments fun given => do
    let has (letters : String) : Bool := letters.toList.any given.has
    let style : ShowingStyle :=
      { numbers := has "bn", onlyFilled := has "b", joinsBlank := has "s", ends := has "AeE",
        tabs := has "AtT", controls := has "Aetv" }
    let isPlain := !has "AbeEnstTv"
    let rec go (showing : Showing) (isWell : Bool) : List String → Act Unit
      | [] => endedWell isWell
      | name :: rest => do
        match ← contentOf name with
        | .error fault =>
          Act.complain (plainRefusal "cat" name fault)
          go showing false rest
        | .ok content =>
          if isPlain then
            Act.say (String.ofList content)
            go showing isWell rest
          else
            let (showing, parts) := (linesOf content).foldl (fun (showing, parts) line =>
              let (showing, part) := showing.step style line
              (showing, String.ofList part :: parts)) (showing, ([] : List String))
            Act.say (String.join parts.reverse)
            go showing isWell rest
    go {} true (inputNames given.operands)

/-- Writes its input and puts it into files as well. -/
def tee : Tool := fun arguments =>
  let table : FlagTable :=
    { tool := "tee", letters := "aip", long := [("append", 'a'), ("ignore-interrupts", 'i')] }
  table.run arguments fun given => do
    let text ← Act.takeInput
    let written ← given.operands.mapM fun name => do
      if name == Act.nullFile || (Act.standardPaths.lookup name).isSome then return true
      let path ← Act.path name
      let before := match (← Act.files).read path with
        | .ok content => if given.has 'a' then content else []
        | .error _ => []
      match ← Act.changeFiles (·.write path (before ++ toBytes text)) with
      | none => return true
      | some e =>
        Act.complain (plainRefusal "tee" name (causeOf e))
        return false
    Act.say (String.ofList text)
    (given.operands.filterMap fun name => Act.standardPaths.lookup name).forM fun descriptor => do
      let _ ← Act.writeTo descriptor (String.ofList text)
    endedWell (written.all id)

/-! ## Starts and ends -/

/-- A count with a sign and a letter for its unit. -/
structure Count where
  sign : Option Char := none
  size : Nat

/-- Reads a count. -/
def Count.read? (s : String) : Option Count :=
  let (sign, body) := match s.toList with
    | '-' :: rest => (some '-', rest)
    | '+' :: rest => (some '+', rest)
    | s => (none, s)
  let digits := body.takeWhile Char.isDigit
  let factor? : Option Nat := match String.ofList (body.drop digits.length) with
    | "" => some 1
    | "b" => some 512
    | "k" | "K" | "KiB" => some 1024
    | "kB" | "KB" => some 1000
    | "m" | "M" | "MiB" => some 1048576
    | "MB" => some 1000000
    | "G" | "GiB" => some 1073741824
    | _ => none
  if digits.isEmpty then none else factor?.map fun factor => ⟨sign, decimal digits * factor⟩

/-- What a start or an end is counted in, and how much of it there is. -/
structure Extent where
  inLines : Bool
  count : Count

/-- The units of a text: its lines or its octets. -/
def Extent.units (extent : Extent) (ending : Char) (text : List Char) : List (List Char) :=
  if !extent.inLines then text.map fun c => [c]
  else if ending == '\n' then linesOf text
  else text.foldr (fun c lines => match lines with
    | [] => [[c]]
    | line :: rest => if c == ending then [c] :: line :: rest else (c :: line) :: rest) []

/-- Arguments in which a dash before a number is the flag for a number of lines. -/
def withCountFlag (signs : List Char) : List String → List String
  | [] => []
  | argument :: rest =>
    match argument.toList with
    | sign :: c :: more =>
      let digits := (c :: more).takeWhile Char.isDigit
      let unit := (c :: more).drop digits.length
      if signs.contains sign && !digits.isEmpty && (unit == [] || unit == ['c']) then
        let count := (if sign == '+' then "+" else "") ++ String.ofList digits
        (if unit == [] then "-n" else "-c") :: count :: rest
      else argument :: rest
    | _ => argument :: rest

/-- Reads the extent that flags give. -/
def Extent.ofFlags (tool : String) (given : Given) : Except String Extent :=
  let letter := (given.lastOf? "nc").getD 'n'
  match given.value? letter with
  | none => .ok ⟨true, ⟨none, 10⟩⟩
  | some text => match Count.read? text with
    | some count => .ok ⟨letter == 'n', count⟩
    | none =>
      .error (s!"{tool}: invalid number of " ++ (if letter == 'n' then "lines" else "bytes") ++
        s!": {curlyQuoted text}")

/-- The name of an input in a heading. -/
def headingName (name : String) : String := if name == "-" then "standard input" else name

/-- Writes parts of inputs, under headings if there are several. -/
def writeParts (tool : String) (given : Given) (part : Bool → List Char → Act (List Char)) : Act Unit := do
  let names := inputNames given.operands
  let isHeaded := given.has 'v' || (names.length > 1 && !given.has 'q')
  let rec go (isFirst isWell : Bool) : List String → Act Unit
    | [] => endedWell isWell
    | name :: rest => do
      let heading : Act Unit :=
        if isHeaded then Act.say ((if isFirst then "" else "\n") ++ s!"==> {headingName name} <==\n") else pure ()
      let (_, isFile) ← Act.unread 0
      match ← contentOf name with
      | .ok content =>
        heading
        Act.say (String.ofList (← part (name == "-" && isFile) content))
        go false isWell rest
      | .error fault =>
        let shown := if name == "-" then "standard input" else name
        if fault == .isDirectory then heading
        Act.complain (openingComplaint tool shown fault)
        go (isFirst && fault != .isDirectory) false rest
  go true true names

/-- Writes the starts of inputs. What it does not need of a file that is its standard input stays there. -/
def head : Tool := fun arguments =>
  let table : FlagTable :=
    { tool := "head", letters := "qvz", valued := "nc",
      long := [("lines", 'n'), ("bytes", 'c'), ("quiet", 'q'), ("silent", 'q'), ("verbose", 'v'),
        ("zero-terminated", 'z')] }
  table.run (withCountFlag ['-'] arguments) fun given => do
    match Extent.ofFlags "head" given with
    | .error cause => Act.failing 1 cause
    | .ok extent =>
      writeParts "head" given fun staysThere content => do
        let units := extent.units (if given.has 'z' then '\x00' else '\n') content
        let n := if extent.count.sign == some '-' then units.length - extent.count.size else extent.count.size
        let part := (units.take n).flatten
        if staysThere then Act.leaveUnread 0 (content.drop part.length)
        return part

/-- Writes the ends of inputs. -/
def tail : Tool := fun arguments =>
  let table : FlagTable :=
    { tool := "tail", letters := "qvzfF", valued := "ncs",
      long := [("lines", 'n'), ("bytes", 'c'), ("quiet", 'q'), ("silent", 'q'), ("verbose", 'v'),
        ("zero-terminated", 'z'), ("follow", 'f')] }
  table.run (withCountFlag ['-', '+'] arguments) fun given => do
    match Extent.ofFlags "tail" given with
    | .error cause => Act.failing 1 cause
    | .ok extent =>
      writeParts "tail" given fun _ content => do
        let units := extent.units (if given.has 'z' then '\x00' else '\n') content
        let n := if extent.count.sign == some '+' then extent.count.size - 1 else units.length - extent.count.size
        return (units.drop n).flatten

/-! ## Counts -/

/-- The counts of a text: lines, words, characters, bytes, and the width of its longest line. -/
structure Counts where
  lines : Nat := 0
  words : Nat := 0
  chars : Nat := 0
  bytes : Nat := 0
  width : Nat := 0

/-- Counts a text. -/
def Counts.ofText (text : List Char) : Counts :=
  let isSpace (c : Char) : Bool := c == ' ' || ('\t' ≤ c && c ≤ '\r')
  let lines := text.foldl (fun n c => if c == '\n' then n + 1 else n) 0
  let (words, _) := text.foldl (fun (n, inWord) c =>
    if isSpace c then (n, false) else (if inWord then n else n + 1, true)) (0, false)
  let chars := (widen text).foldl (fun n c => if isStray c then n else n + 1) 0
  let (longest, current) := (widen text).foldl (fun (longest, current) c =>
    if c == '\n' || c == '\r' || c == '\x0c' then (max longest current, 0)
    else if c == '\t' then (longest, current / 8 * 8 + 8)
    else (longest, if c < ' ' || isStray c then current else current + 1)) (0, 0)
  ⟨lines, words, chars, text.length, max longest current⟩

/-- Two counts together. -/
def Counts.add (a b : Counts) : Counts :=
  ⟨a.lines + b.lines, a.words + b.words, a.chars + b.chars, a.bytes + b.bytes, max a.width b.width⟩

/-- Counts the lines, words and bytes of its inputs. -/
def wc : Tool := fun arguments =>
  let table : FlagTable :=
    { tool := "wc", letters := "lwcmL",
      long := [("lines", 'l'), ("words", 'w'), ("bytes", 'c'), ("chars", 'm'), ("max-line-length", 'L')] }
  table.run arguments fun given => do
    let isAsked (letter : Char) : Bool := if given.flags.isEmpty then "lwc".toList.contains letter else given.has letter
    let columns : List (Char × (Counts → Nat)) :=
      [('l', Counts.lines), ('w', Counts.words), ('m', Counts.chars), ('c', Counts.bytes), ('L', Counts.width)]
    let columns := columns.filter fun column => isAsked column.1
    let names := inputNames given.operands
    let sizes ← names.mapM fun name => do
      if name == "-" then
        let (text, isFile) ← Act.unread 0
        return if isFile then some (some text.length) else none
      else match (← Act.files).follow (← Act.path name) with
        | .ok (.entry _ (.file content)) => return some (some content.length)
        | .ok (.entry _ _) => return none
        | _ => return some none
    let width :=
      if names.length = 1 && columns.length = 1 then 1
      else
        let total := (sizes.filterMap id).filterMap id |>.foldl (· + ·) 0
        max (if sizes.any Option.isNone then 7 else 1) (toString total).length
    let line (counts : Counts) (name : String) : Act Unit := do
      let texts := columns.map fun column => padStart width (toString (column.2 counts))
      Act.say (" ".intercalate texts ++ (if name == "" then "" else " " ++ name) ++ "\n")
    let counts ← names.mapM fun name => do
      match ← contentOf name with
      | .ok content =>
        let counts := Counts.ofText content
        line counts (if given.operands.isEmpty then "" else nameShown name)
        return (counts, true)
      | .error fault =>
        Act.complain (plainRefusal "wc" name fault)
        if fault == .isDirectory then line {} (nameShown name)
        return ({}, false)
    if names.length > 1 then line ((counts.map Prod.fst).foldl Counts.add {}) "total"
    endedWell (counts.all Prod.snd)

/-! ## Other orders and forms -/

/-- Writes the lines of its inputs from the last to the first. -/
def tac : Tool := fun arguments =>
  let table : FlagTable := { tool := "tac", letters := "br", valued := "s" }
  table.run arguments fun given => do
    let refusal (name : String) : Fault → String
      | .isDirectory => s!"tac: {nameShown name}: read error: Invalid argument"
      | fault => s!"tac: failed to open {nameQuoted name} for reading: {fault.text}"
    endedWell (← eachInput refusal given.operands fun _ content =>
      Act.say (String.ofList (linesOf content).reverse.flatten))

/-- Writes the characters of each line from the last to the first. -/
def rev : Tool := fun arguments =>
  let table : FlagTable := { tool := "rev" }
  table.run arguments fun given => do
    let refusal (name : String) (fault : Fault) : String := s!"rev: cannot open {name}: {fault.text}"
    endedWell (← eachInput refusal given.operands fun _ content => do
      let lines := (linesOf content).map fun line =>
        let body := withoutLineEnd line
        narrow (widen body).reverse ++ line.drop body.length
      Act.say (String.ofList lines.flatten))

/-- Writes its inputs with numbered lines. -/
def nl : Tool := fun arguments =>
  let table : FlagTable := { tool := "nl", letters := "p", valued := "bdfhilnsvw" }
  table.run arguments fun given => do
    let (contents, isWell) ← allInputs (plainRefusal "nl") given.operands
    let number (letter : Char) (default : Nat) : Nat :=
      ((given.value? letter).bind String.toNat?).getD default
    let width := number 'w' 6
    let separator := (given.value? 's').getD "\t"
    let style := (given.value? 'b').getD "t"
    let shown (n : Nat) : String :=
      match given.value? 'n' with
      | some "ln" => padEnd width (toString n)
      | some "rz" => String.ofList (digitsOf width n)
      | _ => padStart width (toString n)
    let (_, parts) := (bareLines contents.flatten).foldl (fun (n, parts) line =>
      if style == "a" || (style == "t" && !line.isEmpty) then
        (n + number 'i' 1, (shown n ++ separator ++ String.ofList line ++ "\n") :: parts)
      else (n, (padStart (width + separator.length) "" ++ String.ofList line ++ "\n") :: parts))
      (number 'v' 1, ([] : List String))
    Act.say (String.join parts.reverse)
    endedWell isWell

/-- Writes bytes in base 64 in lines of a width. -/
def base64Lines (width : Nat) (bytes : Bytes) : String :=
  let letters := Base64.write bytes
  let rec cut : Nat → List Char → String
    | 0, _ => ""
    | _, [] => ""
    | fuel + 1, s => String.ofList (s.take width) ++ "\n" ++ cut fuel (s.drop width)
  if width = 0 then String.ofList letters else cut (letters.length + 1) letters

/-- Writes its input in base 64, or what such a text writes. -/
def base64 : Tool := fun arguments =>
  let table : FlagTable :=
    { tool := "base64", letters := "di", valued := "w",
      long := [("decode", 'd'), ("ignore-garbage", 'i'), ("wrap", 'w')] }
  table.run arguments fun given => do
    let (contents, isWell) ← allInputs (plainRefusal "base64") (given.operands.take 1)
    let text := contents.flatten
    if !isWell then endedWell false
    else if given.has 'd' then
      let letters := text.filter fun c =>
        c != '\n' && !(given.has 'i' && (Base64.value? c).isNone && c != '=')
      let (bytes, isWhole) := Base64.readGroups (letters.length + 1) letters
      Act.say (ofBytes bytes)
      if isWhole then Act.ended 0 else Act.failing 1 "base64: invalid input"
    else
      let width := (given.value? 'w').getD "76"
      match width.toNat? with
      | some width =>
        Act.say (base64Lines width (toBytes text))
        Act.ended 0
      | none => Act.failing 1 s!"base64: invalid wrap size: {curlyQuoted width}"

/-! ## Dumps -/

/-- How a dump shows units of bytes: how many bytes make one, the width of a column, what is written for
one, and whether the characters are shown behind each line. -/
structure DumpForm where
  size : Nat
  width : Nat
  shown : Nat → String
  showsText : Bool := false

/-- The name of an octet in a dump of characters. -/
def octetName (n : Nat) : String :=
  match n with
  | 0 => "\\0"
  | 7 => "\\a"
  | 8 => "\\b"
  | 9 => "\\t"
  | 10 => "\\n"
  | 11 => "\\v"
  | 12 => "\\f"
  | 13 => "\\r"
  | n => if 32 ≤ n && n < 127 then String.singleton (Char.ofNat n) else String.ofList (digitsInBase 8 3 n)
where
  /-- Some digits in a base. -/
  digitsInBase (base least n : Nat) : List Char :=
    let digits := Nat.toDigits base n
    List.replicate (least - digits.length) '0' ++ digits

/-- The names of the controls in a dump of named characters. -/
def controlNames : List String :=
  ["nul", "soh", "stx", "etx", "eot", "enq", "ack", "bel", "bs", "ht", "nl", "vt", "ff", "cr", "so", "si", "dle",
    "dc1", "dc2", "dc3", "dc4", "nak", "syn", "etb", "can", "em", "sub", "esc", "fs", "gs", "rs", "us", "sp"]

/-- The name of an octet in a dump of named characters, which leaves out the highest bit. -/
def namedOctet (n : Nat) : String :=
  let n := n % 128
  if n == 127 then "del" else controlNames.getD n (String.singleton (Char.ofNat n))

/-- The form that a letter and a size in bytes name. -/
def DumpForm.ofLetter? (letter : Char) (size : Nat) : Option DumpForm :=
  let values := Nat.pow 256 size
  let digits (base : Nat) : Nat := (Nat.toDigits base (values - 1)).length
  let signed (n : Nat) : Int := if n ≥ values / 2 then (n : Int) - (values : Int) else n
  let zeros (base : Nat) (n : Nat) : String := String.ofList (octetName.digitsInBase base (digits base) n)
  match letter with
  | 'a' => some { size := 1, width := 4, shown := namedOctet }
  | 'c' => some { size := 1, width := 4, shown := octetName }
  | 'o' => some { size, width := digits 8 + 1, shown := zeros 8 }
  | 'x' => some { size, width := digits 16 + 1, shown := zeros 16 }
  | 'u' => some { size, width := digits 10 + 1, shown := toString }
  | 'd' =>
    some { size, width := (toString (-(values / 2 : Int))).length + 1, shown := fun n => toString (signed n) }
  | _ => none

/-- The size that letters or digits behind a letter of a form name, and how many there are. -/
def unitSize : List Char → Nat × Nat
  | 'C' :: _ => (1, 1)
  | 'S' :: _ => (2, 1)
  | 'I' :: _ => (4, 1)
  | 'L' :: _ => (8, 1)
  | rest =>
    let digits := rest.takeWhile Char.isDigit
    if digits.isEmpty then (4, 0) else (decimal digits, digits.length)

/-- The forms that a text names. -/
def DumpForm.read (whole : String) : List Char → Except String (List DumpForm)
  | [] => .ok []
  | letter :: rest =>
    let (size, taken) := if letter == 'c' || letter == 'a' then (1, 0) else unitSize rest
    if !(['a', 'c', 'd', 'o', 'u', 'x'].contains letter) then
      .error s!"invalid character '{letter}' in type string {curlyQuoted whole}"
    else if !([1, 2, 4, 8].contains size) then
      .error (s!"invalid type string {curlyQuoted whole};\n" ++
        s!"this system doesn't provide a {size}-byte integral type")
    else
      let showsText := rest[taken]? == some 'z'
      let taken := if showsText then taken + 1 else taken
      match DumpForm.ofLetter? letter size, DumpForm.read whole (rest.drop taken) with
      | _, .error cause => .error cause
      | none, forms => forms
      | some form, .ok forms => .ok ({ form with showsText } :: forms)
termination_by s => s.length

/-- The units of some bytes, with the lowest byte first. -/
def unitsOf (size : Nat) : Nat → Bytes → List Nat
  | 0, _ => []
  | _, [] => []
  | fuel + 1, bytes =>
    (bytes.take size).foldr (fun byte n => n * 256 + byte.toNat) 0 :: unitsOf size fuel (bytes.drop size)

/-- The lines of a dump, each of some bytes: bytes that repeat the line before them are left out. -/
def dumpLines (forms : List DumpForm) (size : Nat) (repeats : Bool) (address : Nat → String) :
    Nat → Nat → Option Bytes → Bool → Bytes → List String
  | 0, _, _, _, _ => []
  | _, offset, _, _, [] => [address offset]
  | fuel + 1, offset, before, isLeftOut, bytes =>
    let row := bytes.take size
    let rest := bytes.drop size
    if !repeats && before == some row && row.length = size && !rest.isEmpty then
      (if isLeftOut then [] else ["*"]) ++ dumpLines forms size repeats address fuel (offset + size) before true rest
    else
      let widest := (forms.map fun form => form.width * size / form.size).foldl max 0
      let lines := forms.map fun form =>
        let width := form.width + (widest - form.width * size / form.size) / (size / form.size)
        let line := String.join ((unitsOf form.size row.length row).map fun n => padStart width (form.shown n))
        if form.showsText then
          let texts := row.map fun byte =>
            let c := Char.ofNat byte.toNat
            if ' ' ≤ c && c ≤ '~' then c else '.'
          padEnd (width * (size / form.size)) line ++ "  >" ++ String.ofList texts ++ "<"
        else line
      let lines := lines.zipIdx.map fun (line, i) =>
        (if i = 0 then address offset else padStart (address offset).length "") ++ line
      lines ++ dumpLines forms size repeats address fuel (offset + row.length) (some row) false rest

/-- Writes its inputs in numbers. -/
def od : Tool := fun arguments =>
  let table : FlagTable :=
    { tool := "od", letters := "abcdosxv", valued := "AtNj", optional := "w",
      long := [("address-radix", 'A'), ("format", 't'), ("read-bytes", 'N'), ("skip-bytes", 'j'),
        ("output-duplicates", 'v'), ("width", 'w')] }
  table.run arguments fun given => do
    let named := given.flags.filterMap fun (letter, value) =>
      match letter with
      | 'a' => some "a"
      | 'b' => some "o1"
      | 'c' => some "c"
      | 'd' => some "u2"
      | 'o' => some "o2"
      | 's' => some "d2"
      | 'x' => some "x2"
      | 't' => some value
      | _ => none
    let named := if named.isEmpty then ["o2"] else named
    let number (letter : Char) : Except String (Option Nat) :=
      match given.value? letter with
      | none => .ok none
      | some text => match text.toNat? with
        | some n => .ok (some n)
        | none => .error s!"invalid -{letter} argument {curlyQuoted text}"
    let radix := (given.value? 'A').getD "o"
    let read : Except String (List DumpForm × Nat × Option Nat) := do
      if !(["d", "o", "x", "n"].contains (String.ofList (radix.toList.take 1))) then
        throw s!"invalid output address radix '{radix}'; it must be one character from [doxn]"
      let skipped ← number 'j'
      let most ← number 'N'
      let forms ← named.mapM fun text => DumpForm.read text text.toList
      return (forms.flatten, skipped.getD 0, most)
    match read with
    | .error cause => Act.failing 1 s!"od: {cause}"
    | .ok (forms, skipped, most) =>
      let widest := (forms.map DumpForm.size).foldl max 1
      let asked := match given.value? 'w' with
        | none => 16
        | some "" => 32
        | some text => text.toNat?.getD 16
      let size := if asked == 0 || asked % widest != 0 then widest else asked
      if size != asked then Act.complain s!"od: warning: invalid width {asked}; using {size} instead"
      let (contents, isWell) ← allInputs (plainRefusal "od") given.operands
      let bytes := toBytes contents.flatten
      if contents.isEmpty then Act.ended 1
      else if skipped > bytes.length then Act.failing 1 "od: cannot skip past end of combined input"
      else
        let bytes := bytes.drop skipped
        let bytes := bytes.take (most.getD bytes.length)
        let address (n : Nat) : String :=
          match radix.toList with
          | 'n' :: _ => ""
          | 'd' :: _ => String.ofList (digitsOf 7 n)
          | 'x' :: _ => String.ofList (octetName.digitsInBase 16 6 n)
          | _ => String.ofList (octetName.digitsInBase 8 7 n)
        let lines := dumpLines forms size (given.has 'v') address (bytes.length + 1) skipped none false bytes
        let lines := if radix.startsWith "n" then lines.dropLast else lines
        Act.say (String.join (lines.map (· ++ "\n")))
        endedWell isWell

end WasmPackaging.Shell
