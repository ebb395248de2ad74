import WasmPackaging.Shell.Process

/-!
The arguments of tools: flags, flags with values, and operands. Flags may stand behind operands, and two
dashes end them.
-/

namespace WasmPackaging.Shell

/-- What a tool does with its arguments. -/
abbrev Tool := List String → Act Unit

/-- The flags that a tool knows: letters, letters with a value, letters with a value that may be missing, and
long names for letters. Where `inOrder` holds, the first operand ends the flags. -/
structure FlagTable where
  tool : String
  letters : String := ""
  valued : String := ""
  optional : String := ""
  long : List (String × Char) := []
  inOrder : Bool := false
  failure : Int := 1

/-- The flags and the operands that were given. -/
structure Given where
  flags : List (Char × String) := []
  operands : List String := []

namespace Given

/-- Whether a flag was given. -/
def has (given : Given) (letter : Char) : Bool := given.flags.any (·.1 == letter)

/-- The last value that was given for a flag. -/
def value? (given : Given) (letter : Char) : Option String := given.flags.reverse.lookup letter

/-- All values that were given for a flag. -/
def values (given : Given) (letter : Char) : List String :=
  (given.flags.filter (·.1 == letter)).map Prod.snd

/-- The last one given of some flags. -/
def lastOf? (given : Given) (letters : String) : Option Char :=
  (given.flags.reverse.find? fun flag => letters.toList.contains flag.1).map Prod.fst

end Given

namespace FlagTable

/-- The refusal of an argument. -/
def refusal {α : Type} (table : FlagTable) (cause : String) : Except String α :=
  .error s!"{table.tool}: {cause}\nTry '{table.tool} --help' for more information."

/-- Reads the letters of an argument behind its dash; tells whether the last one still needs a value. -/
def letterFlags (table : FlagTable) : List Char → Except String (List (Char × String) × Option Char)
  | [] => .ok ([], none)
  | c :: rest =>
    if table.valued.toList.contains c then
      if rest = [] then .ok ([], some c) else .ok ([(c, String.ofList rest)], none)
    else if table.optional.toList.contains c then .ok ([(c, String.ofList rest)], none)
    else if table.letters.toList.contains c then
      (table.letterFlags rest).map fun (flags, open_) => ((c, "") :: flags, open_)
    else table.refusal s!"invalid option -- '{c}'"

/-- The letter of a long name, which may be cut short. -/
def longFlag (table : FlagTable) (name : String) : Except String Char :=
  match table.long.lookup name with
  | some letter => .ok letter
  | none =>
    match table.long.filter fun entry => entry.1.startsWith name with
    | [(_, letter)] => .ok letter
    | [] => table.refusal s!"unrecognized option '--{name}'"
    | several =>
      if (several.map Prod.snd).eraseDups.length = 1 then .ok ((several.map Prod.snd).headD ' ')
      else
        let names := String.join (several.map fun entry => s!" '--{entry.1}'")
        table.refusal s!"option '--{name}' is ambiguous; possibilities:{names}"

/-- Reads arguments. -/
def read (table : FlagTable) : List String → Except String Given
  | [] => .ok {}
  | argument :: rest => do
    let withFlags (flags : List (Char × String)) (given : Given) : Given :=
      { given with flags := flags ++ given.flags }
    match argument.toList with
    | ['-', '-'] => .ok { operands := rest }
    | '-' :: '-' :: long =>
      let name := long.takeWhile (· != '=')
      let letter ← table.longFlag (String.ofList name)
      let shown := String.ofList name
      match long.drop name.length, table.valued.toList.contains letter with
      | _ :: value, true => return withFlags [(letter, String.ofList value)] (← table.read rest)
      | [], false => return withFlags [(letter, "")] (← table.read rest)
      | _ :: value, false =>
        if table.optional.toList.contains letter then
          return withFlags [(letter, String.ofList value)] (← table.read rest)
        else table.refusal s!"option '--{shown}' doesn't allow an argument"
      | [], true =>
        match rest with
        | value :: rest => return withFlags [(letter, value)] (← table.read rest)
        | [] => table.refusal s!"option '--{shown}' requires an argument"
    | '-' :: c :: more =>
      let (flags, open_) ← table.letterFlags (c :: more)
      match open_, rest with
      | none, rest => return withFlags flags (← table.read rest)
      | some letter, value :: rest => return withFlags (flags ++ [(letter, value)]) (← table.read rest)
      | some letter, [] => table.refusal s!"option requires an argument -- '{letter}'"
    | _ =>
      if table.inOrder then .ok { operands := argument :: rest }
      else
        let given ← table.read rest
        return { given with operands := argument :: given.operands }

/-- Does something with the arguments of a tool, unless they are refused. -/
def run (table : FlagTable) (arguments : List String) (act : Given → Act Unit) : Act Unit :=
  match table.read arguments with
  | .ok given => act given
  | .error complaint => Act.failing table.failure complaint

end FlagTable

/-- The escape of a control character. -/
def controlEscape (c : Char) : List Char :=
  match c with
  | '\n' => ['\\', 'n']
  | '\t' => ['\\', 't']
  | '\r' => ['\\', 'r']
  | '\x07' => ['\\', 'a']
  | '\x08' => ['\\', 'b']
  | '\x0b' => ['\\', 'v']
  | '\x0c' => ['\\', 'f']
  | c => '\\' :: (Nat.toDigits 8 (c.toNat + 512)).drop 1

/-- Whether a character is a control. -/
def isControl (c : Char) : Bool := c < ' ' || c == '\x7f'

/-- A text in single quotes, with controls and quotes as escapes between them. -/
def singleQuoted (inEscape : Bool) : List Char → List Char
  | [] => ['\'']
  | c :: rest =>
    if isControl c then (if inEscape then [] else "'$'".toList) ++ controlEscape c ++ singleQuoted true rest
    else
      (if inEscape then "''".toList else []) ++
        (if c == '\'' then "'\\''".toList else [c]) ++ singleQuoted false rest

/-- A text that a shell would read as one word: as it is, or between quotes if it has to be. -/
def shellQuoted (always : Bool) (s : String) : String :=
  let isSafe (c : Char) : Bool :=
    c.isAlphanum || c.toNat ≥ 0x80 || "%+,-./@_~#\x7b\x7d".toList.contains c
  let isRisky := s.startsWith "~" || s.startsWith "#" || s == "\x7b" || s == "\x7d"
  if !always && s != "" && s.toList.all isSafe && !isRisky then s
  else if s.toList.contains '\'' && s.toList.all fun c => !"\"$\\\x60!".toList.contains c && !isControl c then
    s!"\"{s}\""
  else String.ofList ('\'' :: singleQuoted false s.toList)

end WasmPackaging.Shell
