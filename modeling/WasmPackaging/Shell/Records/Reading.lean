import WasmPackaging.Shell.Records.Program
import WasmPackaging.Shell.Tools.Printing

/-!
The text of a program on records: its tokens, and the program that they write.
-/

namespace WasmPackaging.Shell.Records

/-! ## Tokens -/

/-- A token: a number, a text, an expression between slashes, a name, a name with an opening bracket right
behind it, a word of the language, a function that is always there, a sign, or the end of a line or of the
program. One that is `wrong` tells what is said of it. -/
inductive Token where
  | number (x : Float)
  | text (s : String)
  | regex (s : List Char)
  | name (s : String)
  | called (s : String)
  | word (s : String)
  | builtin (function : Builtin)
  | sign (s : String)
  | lineEnd
  | done
  | wrong (cause : String)

/-- A token with its line, and as it is shown in complaints. -/
structure Placed where
  token : Token
  line : Nat
  shown : String

/-- The words of the language. -/
def words : List String :=
  ["BEGIN", "END", "function", "func", "if", "else", "while", "for", "do", "break", "continue", "next",
    "nextfile", "exit", "return", "delete", "in", "getline", "print", "printf"]

/-- The functions that are always there, by name. -/
def builtins : List (String × Builtin) :=
  [("length", .length), ("substr", .substr), ("index", .index), ("split", .split), ("sub", .sub),
    ("gsub", .gsub), ("match", .search), ("sprintf", .sprintf), ("sin", .sin), ("cos", .cos),
    ("atan2", .atan2), ("exp", .exp), ("log", .log), ("sqrt", .sqrt), ("int", .int), ("rand", .rand),
    ("srand", .srand), ("tolower", .tolower), ("toupper", .toupper), ("system", .system),
    ("close", .close), ("fflush", .fflush)]

/-- The signs of the language, longer ones before those that they start with. -/
def signs : List String :=
  ["&&", "||", "++", "--", "+=", "-=", "*=", "/=", "%=", "^=", "==", "<=", ">=", "!=", "!~", ">>",
    "\x7b", "\x7d", "(", ")", "[", "]", ";", ",", "+", "-", "*", "/", "%", "^", "!", ">", "<", "|", "?",
    ":", "~", "$", "="]

/-- A text with its escapes read; a backslash before any other character stays. -/
def withEscapesRead : List Char → List Char
  | '\\' :: '"' :: rest => '"' :: withEscapesRead rest
  | '\\' :: '/' :: rest => '/' :: withEscapesRead rest
  | '\\' :: '\n' :: rest => withEscapesRead rest
  | '\\' :: a :: b :: c :: rest =>
    let isOctal (c : Char) : Bool := '0' ≤ c && c ≤ '7'
    let octal (digits : List Char) : Char :=
      Char.ofNat (digits.foldl (fun n c => n * 8 + (c.toNat - '0'.toNat)) 0 % 256)
    if isOctal a then
      if isOctal b then
        if isOctal c then octal [a, b, c] :: withEscapesRead rest
        else octal [a, b] :: withEscapesRead (c :: rest)
      else octal [a] :: withEscapesRead (b :: c :: rest)
    else match if a == 'e' then none else controlOf? a with
      | some control => control :: withEscapesRead (b :: c :: rest)
      | none => '\\' :: a :: withEscapesRead (b :: c :: rest)
  | '\\' :: a :: rest =>
    match if a == 'e' then none else controlOf? a with
    | some control => control :: withEscapesRead rest
    | none => '\\' :: a :: withEscapesRead rest
  | c :: rest => c :: withEscapesRead rest
  | [] => []

/-- The text up to a quote, escapes unread, and what is behind the quote. -/
def quotedPart : List Char → Option (List Char × List Char)
  | [] | '\n' :: _ => none
  | '"' :: rest => some ([], rest)
  | '\\' :: c :: rest => (quotedPart rest).map fun (part, rest) => ('\\' :: c :: part, rest)
  | c :: rest => (quotedPart rest).map fun (part, rest) => (c :: part, rest)

/-- The text up to a slash that is not within a set, and what is behind the slash. -/
def slashedPart (inSet : Bool) : List Char → Option (List Char × List Char)
  | [] | '\n' :: _ => none
  | '\\' :: c :: rest => (slashedPart inSet rest).map fun (part, rest) => ('\\' :: c :: part, rest)
  | c :: rest =>
    if c == '/' && !inSet then some ([], rest)
    else
      let inSet := if c == '[' then true else if c == ']' then false else inSet
      (slashedPart inSet rest).map fun (part, rest) => (c :: part, rest)

/-- The digits at the start of a text that write a number: with a point, and with an exponent. -/
def numberPart (s : List Char) : List Char :=
  let whole := s.takeWhile Char.isDigit
  let (fraction, behind) := match s.drop whole.length with
    | '.' :: rest => ('.' :: rest.takeWhile Char.isDigit, rest.dropWhile Char.isDigit)
    | rest => ([], rest)
  if whole.isEmpty && fraction.length < 2 then []
  else
    let exponent := match behind with
      | c :: rest =>
        let sign := match rest with
          | '+' :: _ => ['+']
          | '-' :: _ => ['-']
          | _ => []
        let digits := (rest.drop sign.length).takeWhile Char.isDigit
        if (c == 'e' || c == 'E') && !digits.isEmpty then c :: (sign ++ digits) else []
      | [] => []
    whole ++ fraction ++ exponent

/-- The number that some digits write. -/
def numberOf (digits : List Char) : Float :=
  (Text.real? digits).getD 0.0

/-- Whether a slash behind a token divides. -/
def Token.endsOperand : Token → Bool
  | .number _ | .text _ | .regex _ | .name _ | .builtin _ => true
  | .sign s => s == ")" || s == "]" || s == "$" || s == "++" || s == "--"
  | _ => false

/-- The tokens of a text. -/
def tokens : Nat → Nat → Bool → List Char → List Placed
  | 0, line, _, _ => [⟨.done, line, "end of file"⟩]
  | fuel + 1, line, afterOperand, s =>
    let go (token : Token) (shown : String) (rest : List Char) : List Placed :=
      ⟨token, line, shown⟩ :: tokens fuel line token.endsOperand rest
    let stop (cause : String) : List Placed := [⟨.wrong cause, line, ""⟩]
    match s with
    | [] => [⟨.done, line + 1, "end of file"⟩]
    | '\n' :: rest => ⟨.lineEnd, line, "end of line"⟩ :: tokens fuel (line + 1) false rest
    | '\\' :: '\n' :: rest => tokens fuel (line + 1) afterOperand rest
    | '#' :: rest => tokens fuel line afterOperand (rest.dropWhile (· != '\n'))
    | '"' :: rest =>
      match quotedPart rest with
      | some (part, rest) =>
        let text := String.ofList part
        go (.text (String.ofList (withEscapesRead part))) s!"\"{text}\"" rest
      | none =>
        let shown := String.ofList ((rest.takeWhile (· != '\n')).take 10)
        stop s!"line {line}: runaway string constant \"{shown} ..."
    | c :: rest =>
      if c == ' ' || c == '\t' || c == '\r' then tokens fuel line afterOperand rest
      else if c == '/' && !afterOperand then
        match slashedPart false rest with
        | some (part, rest) =>
          let text := String.ofList part
          go (.regex part) s!"/{text}/" rest
        | none =>
          let shown := String.ofList ((rest.takeWhile (· != '\n')).take 10)
          stop s!"line {line}: runaway regular expression /{shown} ..."
      else if !(numberPart s).isEmpty then
        let digits := numberPart s
        go (.number (numberOf digits)) (String.ofList digits) (s.drop digits.length)
      else if c.isAlpha || c == '_' then
        let part := s.takeWhile fun c => c.isAlphanum || c == '_'
        let name := String.ofList part
        let behind := s.drop part.length
        if words.contains name then go (.word name) name behind
        else match builtins.lookup name with
          | some function => go (.builtin function) name behind
          | none => go (if behind.head? == some '(' then .called name else .name name) name behind
      else match signs.find? fun sign => sign.toList.isPrefixOf s with
        | some sign => go (.sign sign) sign (s.drop sign.length)
        | none => stop s!"{line}: unexpected character '{c}'"

/-! ## Programs -/

/-- Why a text is no program: a token that cannot stand where it does, with those behind it, or another
cause. -/
inductive Refusal where
  | unexpected (rest : List Placed)
  | other (cause : String)

/-- A step of reading a program: what is left are tokens, the last of which is its end. -/
abbrev Reader := StateT (List Placed) (Except Refusal)

namespace Reader

/-- The next token. -/
def peek : Reader Token := return (((← get).head?).map Placed.token).getD .done

/-- Passes over a token, unless it is the last one. -/
def skip : Reader Unit := modify fun
  | [last] => [last]
  | rest => rest.tail

/-- Refuses the next token. -/
def unexpected {α : Type} : Reader α := do throw (.unexpected (← get))

/-- Passes over a sign if it comes next. -/
def takeSign (sign : String) : Reader Bool := do
  match ← peek with
  | .sign other =>
    if other == sign then
      skip
      return true
    else return false
  | _ => return false

/-- Passes over a word if it comes next. -/
def takeWord (word : String) : Reader Bool := do
  match ← peek with
  | .word other =>
    if other == word then
      skip
      return true
    else return false
  | _ => return false

/-- Passes over a sign that has to come next. -/
def expect (sign : String) : Reader Unit := do if !(← takeSign sign) then unexpected

/-- Passes over the ends of lines, and over semicolons where they may stand too. -/
def skipLines (semicolons : Bool) : Nat → Reader Unit
  | 0 => return
  | fuel + 1 => do
    match ← peek with
    | .lineEnd =>
      skip
      skipLines semicolons fuel
    | .sign ";" =>
      if semicolons then
        skip
        skipLines semicolons fuel
    | _ => return

/-- Passes over the ends of lines. -/
def newLines : Reader Unit := do skipLines false (← get).length

/-- A regular expression between slashes or in a text, in which braces stand for themselves. -/
def regexOf (s : List Char) : Except String CompiledRegex :=
  let rec plain (inSet : Bool) : List Char → List Char
    | '\\' :: c :: rest =>
      match controlOf? c with
      | some '\\' => '\\' :: '\\' :: plain inSet rest
      | some control => if c == 'e' then c :: plain inSet rest else control :: plain inSet rest
      | none => (if c == '/' || c == '"' || c == '&' || c.isAlphanum then [c] else ['\\', c]) ++ plain inSet rest
    | '[' :: '^' :: ']' :: rest => if inSet then '[' :: '^' :: ']' :: plain false rest else '[' :: '^' :: ']' :: plain true rest
    | '[' :: ']' :: rest => if inSet then '[' :: ']' :: plain false rest else '[' :: ']' :: plain true rest
    | c :: rest =>
      if inSet then c :: plain (c != ']') rest
      else if c == '\x7b' || c == '\x7d' then '\\' :: c :: plain false rest
      else c :: plain (c == '[') rest
    | [] => []
  match CompiledRegex.read true false false (plain false s) with
  | .ok r => .ok r
  | .error fault => .error fault.message

/-- A regular expression, which ends the reading if it is none. -/
def regex (s : List Char) : Reader Expression := do
  match regexOf s with
  | .ok r => return .regex r
  | .error cause =>
    let shown := String.ofList s
    throw (.other s!"regular expression compile failed ({cause})\n{shown}")

/-- The operators that assign. -/
def assigning : List (String × Option Operator) :=
  [("=", none), ("+=", some .add), ("-=", some .subtract), ("*=", some .multiply), ("/=", some .divide),
    ("%=", some .remainder), ("^=", some .power)]

/-- The signs that compare. -/
def comparing : List (String × Comparison) :=
  [("<", .less), ("<=", .atMost), ("==", .equal), ("!=", .different), (">", .more), (">=", .atLeast)]

/-- The operators between numbers, those that bind least first. -/
def levels : List (List (String × Operator)) :=
  [[("+", .add), ("-", .subtract)], [("*", .multiply), ("/", .divide), ("%", .remainder)]]

/-- Whether something can be assigned to an expression. -/
def isTarget : Expression → Bool
  | .name _ | .field _ | .element _ _ => true
  | _ => false

/-- Whether an operand can start with a token where nothing stands before it. -/
def startsOperand : Token → Bool
  | .number _ | .text _ | .regex _ | .name _ | .called _ | .builtin _ => true
  | .sign s => s == "(" || s == "$" || s == "!" || s == "-" || s == "+" || s == "++" || s == "--"
  | _ => false

/-- Whether an operand that is joined to another can start with a token. -/
def joins : Token → Bool
  | .sign s => s == "(" || s == "$" || s == "!" || s == "++" || s == "--"
  | token => startsOperand token

/-- What is counted before it is used. -/
def stepOf (up : Bool) (e : Expression) : Reader Expression := do
  if isTarget e then return .step true up e else unexpected

mutual

/-- An expression; one that is written has no sign for more than another outside of brackets. -/
def expression (isWritten : Bool) : Nat → Reader Expression
  | 0 => unexpected
  | fuel + 1 => do
    let target ← chosen isWritten fuel
    match ← peek with
    | .sign sign =>
      match assigning.lookup sign with
      | some operator =>
        if !isTarget target then unexpected
        skip
        newLines
        return .assign operator target (← expression isWritten fuel)
      | none => return target
    | _ => return target
termination_by structural fuel => fuel

/-- A choice between two values, or a condition. -/
def chosen (isWritten : Bool) : Nat → Reader Expression
  | 0 => unexpected
  | fuel + 1 => do
    let condition ← eitherOf isWritten fuel
    if ← takeSign "?" then
      newLines
      let yes ← expression isWritten fuel
      newLines
      expect ":"
      newLines
      return .choice condition yes (← expression isWritten fuel)
    else return condition
termination_by structural fuel => fuel

/-- Conditions of which one has to hold. -/
def eitherOf (isWritten : Bool) : Nat → Reader Expression
  | 0 => unexpected
  | fuel + 1 => do
    let first ← bothOf isWritten fuel
    if ← takeSign "||" then
      newLines
      return .either first (← eitherOf isWritten fuel)
    else return first
termination_by structural fuel => fuel

/-- Conditions all of which have to hold. -/
def bothOf (isWritten : Bool) : Nat → Reader Expression
  | 0 => unexpected
  | fuel + 1 => do
    let first ← keyed isWritten fuel
    if ← takeSign "&&" then
      newLines
      return .both first (← bothOf isWritten fuel)
    else return first
termination_by structural fuel => fuel

/-- A value, or whether it is a key of an array. -/
def keyed (isWritten : Bool) : Nat → Reader Expression
  | 0 => unexpected
  | fuel + 1 => do keyOf fuel (← described isWritten fuel)
termination_by structural fuel => fuel

/-- A value, or whether it is a key of the arrays that come next. -/
def keyOf : Nat → Expression → Reader Expression
  | 0, e => return e
  | fuel + 1, e => do
    if ← takeWord "in" then
      match ← peek with
      | .name array =>
        skip
        let keys := match e with
          | .list keys => keys
          | e => [e]
        keyOf fuel (.isKey keys array)
      | _ => unexpected
    else return e
termination_by structural fuel => fuel

/-- A value, or whether an expression describes it. -/
def described (isWritten : Bool) : Nat → Reader Expression
  | 0 => unexpected
  | fuel + 1 => do describedBy isWritten fuel (← compared isWritten fuel)
termination_by structural fuel => fuel

/-- A value, or whether the expressions that come next describe it. -/
def describedBy (isWritten : Bool) : Nat → Expression → Reader Expression
  | 0, e => return e
  | fuel + 1, e => do
    if ← takeSign "~" then describedBy isWritten fuel (.describes false e (← compared isWritten fuel))
    else if ← takeSign "!~" then describedBy isWritten fuel (.describes true e (← compared isWritten fuel))
    else return e
termination_by structural fuel => fuel

/-- A value, or how two compare. -/
def compared (isWritten : Bool) : Nat → Reader Expression
  | 0 => unexpected
  | fuel + 1 => do
    comparedTo isWritten fuel (← piped isWritten fuel)
termination_by structural fuel => fuel

/-- A value, or how it compares to those that come next. -/
def comparedTo (isWritten : Bool) : Nat → Expression → Reader Expression
  | 0, e => return e
  | fuel + 1, e => do
    match ← peek with
    | .sign sign =>
      if isWritten && sign == ">" then return e
      else match comparing.lookup sign with
        | some comparison =>
          skip
          comparedTo isWritten fuel (.compare comparison e (← piped isWritten fuel))
        | none => return e
    | _ => return e
termination_by structural fuel => fuel

/-- A value, or a record that a command writes. -/
def piped (isWritten : Bool) : Nat → Reader Expression
  | 0 => unexpected
  | fuel + 1 => do pipedFrom fuel (← joined isWritten fuel)
termination_by structural fuel => fuel

/-- A value, or the record that it writes as a command. -/
def pipedFrom : Nat → Expression → Reader Expression
  | 0, e => return e
  | fuel + 1, e => do
    match ← get with
    | ⟨.sign "|", _, _⟩ :: ⟨.word "getline", _, _⟩ :: _ =>
      skip
      skip
      pipedFrom fuel (.readCommand (← target? fuel) e)
    | _ => return e
termination_by structural fuel => fuel

/-- What a record is read into, if that is said. -/
def target? : Nat → Reader (Option Expression)
  | 0 => unexpected
  | fuel + 1 => do
    match ← peek with
    | .name _ | .sign "$" => return some (← primary fuel)
    | _ => return none
termination_by structural fuel => fuel

/-- Values that are joined. -/
def joined (isWritten : Bool) : Nat → Reader Expression
  | 0 => unexpected
  | fuel + 1 => do joinedTo isWritten fuel (← operands levels fuel)
termination_by structural fuel => fuel

/-- A value, and those that come next joined to it. -/
def joinedTo (isWritten : Bool) : Nat → Expression → Reader Expression
  | 0, e => return e
  | fuel + 1, e => do
    if joins (← peek) then joinedTo isWritten fuel (.binary .join e (← operands levels fuel)) else return e
termination_by structural fuel => fuel

/-- Numbers with operators of some levels between them. -/
def operands (levels : List (List (String × Operator))) : Nat → Reader Expression
  | 0 => unexpected
  | fuel + 1 =>
    match levels with
    | [] => signed fuel
    | level :: tighter => do moreOperands level tighter fuel (← operands tighter fuel)
termination_by structural fuel => fuel

/-- A number and those that operators of a level join to it. -/
def moreOperands (level : List (String × Operator)) (tighter : List (List (String × Operator))) :
    Nat → Expression → Reader Expression
  | 0, e => return e
  | fuel + 1, e => do
    match ← peek with
    | .sign sign =>
      match level.lookup sign with
      | some operator =>
        skip
        moreOperands level tighter fuel (.binary operator e (← operands tighter fuel))
      | none => return e
    | _ => return e
termination_by structural fuel => fuel

/-- A value behind signs of its own, or a power. -/
def signed : Nat → Reader Expression
  | 0 => unexpected
  | fuel + 1 => do
    if ← takeSign "!" then return .opposite (← signed fuel)
    else if ← takeSign "-" then return .negative (← signed fuel)
    else if ← takeSign "+" then return .positive (← signed fuel)
    else
      let base ← stepped fuel
      if ← takeSign "^" then return .binary .power base (← signed fuel) else return base
termination_by structural fuel => fuel

/-- A value, counted up or down when it has been used. -/
def stepped : Nat → Reader Expression
  | 0 => unexpected
  | fuel + 1 => do
    let e ← primary fuel
    if !isTarget e then return e
    else if ← takeSign "++" then return .step false true e
    else if ← takeSign "--" then return .step false false e
    else return e
termination_by structural fuel => fuel

/-- A value without operators. -/
def primary : Nat → Reader Expression
  | 0 => unexpected
  | fuel + 1 => do
    match ← peek with
    | .number x =>
      skip
      return .number x
    | .text s =>
      skip
      return .text s
    | .regex s =>
      skip
      regex s
    | .name name =>
      skip
      if ← takeSign "[" then
        let keys ← items fuel
        expect "]"
        return .element name keys
      else return .name name
    | .called name =>
      skip
      return .call name (← arguments fuel)
    | .builtin function =>
      skip
      match ← peek with
      | .sign "(" => return .builtin function (← arguments fuel)
      | _ => if function == .length then return .builtin .length [] else unexpected
    | .word "getline" =>
      skip
      let target ← target? fuel
      if ← takeSign "<" then return .readFile target (← stepped fuel) else return .readRecord target
    | .sign "$" =>
      skip
      if ← takeSign "-" then return .field (.negative (← primary fuel)) else return .field (← primary fuel)
    | .sign "++" =>
      skip
      stepOf true (← primary fuel)
    | .sign "--" =>
      skip
      stepOf false (← primary fuel)
    | .sign "(" =>
      skip
      newLines
      let inside ← items fuel
      newLines
      expect ")"
      match inside with
      | [e] => return e
      | several => return .list several
    | _ => unexpected
termination_by structural fuel => fuel

/-- Values with commas between them. -/
def items : Nat → Reader (List Expression)
  | 0 => unexpected
  | fuel + 1 => do
    let first ← expression false fuel
    if ← takeSign "," then
      newLines
      return first :: (← items fuel)
    else return [first]
termination_by structural fuel => fuel

/-- The arguments of a function in brackets. -/
def arguments : Nat → Reader (List Expression)
  | 0 => unexpected
  | fuel + 1 => do
    expect "("
    newLines
    if ← takeSign ")" then return []
    else
      let arguments ← items fuel
      newLines
      expect ")"
      return arguments
termination_by structural fuel => fuel

end

/-- Passes over the end of a statement. -/
def endStatement : Reader Unit := do
  match ← peek with
  | .sign ";" | .lineEnd =>
    skip
    newLines
  | .sign "\x7d" | .done => return
  | _ => unexpected

/-- Whether a statement ends here. -/
def isAtEnd : Reader Bool := do
  match ← peek with
  | .lineEnd | .done => return true
  | .sign sign => return sign == ";" || sign == "\x7d" || sign == ")" || sign == ">" || sign == ">>" || sign == "|"
  | _ => return false

/-- What is written, and where it goes. -/
def written (fuel : Nat) : Reader (List Expression × Option (Destination × Expression)) := do
  let rec values : Nat → Reader (List Expression)
    | 0 => unexpected
    | count + 1 => do
      let first ← expression true fuel
      if ← takeSign "," then
        newLines
        return first :: (← values count)
      else return [first]
  let given ← if ← isAtEnd then pure [] else values fuel
  let given := match given with
    | [.list items] => items
    | given => given
  let target (destination : Destination) : Reader (Option (Destination × Expression)) := do
    return some (destination, ← expression true fuel)
  if ← takeSign ">" then return (given, ← target .file)
  else if ← takeSign ">>" then return (given, ← target .behindFile)
  else if ← takeSign "|" then return (given, ← target .command)
  else return (given, none)

/-- An expression, unless the statement ends here. -/
def optional (fuel : Nat) : Reader (Option Expression) := do
  if ← isAtEnd then return none else return some (← expression false fuel)

/-- A condition in brackets. -/
def condition (fuel : Nat) : Reader Expression := do
  expect "("
  newLines
  let condition ← expression false fuel
  newLines
  expect ")"
  newLines
  return condition

/-- A statement that holds no other. -/
def simple (fuel : Nat) : Reader Statement := do
  match ← peek with
  | .word word =>
    let plain (statement : Statement) : Reader Statement := do
      skip
      return statement
    match word with
    | "print" =>
      skip
      let (values, target) ← written fuel
      return .print values target
    | "printf" =>
      skip
      let (values, target) ← written fuel
      return .printFormatted values target
    | "break" => plain .leave
    | "continue" => plain .again
    | "next" => plain .next
    | "nextfile" => plain .nextFile
    | "exit" =>
      skip
      return .quit (← optional fuel)
    | "return" =>
      skip
      return .back (← optional fuel)
    | "delete" =>
      skip
      match ← peek with
      | .name array =>
        skip
        if ← takeSign "[" then
          let keys ← items fuel
          expect "]"
          return .delete array keys
        else return .clear array
      | _ => unexpected
    | "getline" => return .evaluate (← expression false fuel)
    | _ => unexpected
  | _ => return .evaluate (← expression false fuel)

/-- A statement that holds no other, or none. -/
def simple? (fuel : Nat) : Reader Statement := do if ← isAtEnd then return .block [] else simple fuel

mutual

/-- A statement with its end. -/
def statement : Nat → Reader Statement
  | 0 => unexpected
  | fuel + 1 => do
    match ← peek with
    | .sign "\x7b" =>
      let block ← block fuel
      skipLines false (← get).length
      let _ ← takeSign ";"
      newLines
      return block
    | .sign ";" =>
      skip
      newLines
      return .block []
    | .word "if" =>
      skip
      let condition ← condition fuel
      let yes ← statement fuel
      skipLines false (← get).length
      if ← takeWord "else" then
        newLines
        return .choose condition yes (← statement fuel)
      else return .choose condition yes (.block [])
    | .word "while" =>
      skip
      let condition ← condition fuel
      return .loop condition (.block []) (← statement fuel)
    | .word "do" =>
      skip
      newLines
      let body ← statement fuel
      skipLines true (← get).length
      if !(← takeWord "while") then unexpected
      expect "("
      let condition ← expression false fuel
      expect ")"
      endStatement
      return .loopAfter body condition
    | .word "for" =>
      skip
      expect "("
      match ← get with
      | ⟨.name name, _, _⟩ :: ⟨.word "in", _, _⟩ :: ⟨.name array, _, _⟩ :: ⟨.sign ")", _, _⟩ :: _ =>
        modify (List.drop 4)
        newLines
        return .forEach name array (← statement fuel)
      | _ =>
        let first ← simple? fuel
        expect ";"
        newLines
        let condition ← optional fuel
        expect ";"
        newLines
        let step ← simple? fuel
        expect ")"
        newLines
        let body ← statement fuel
        return .block [first, .loop (condition.getD (.number 1.0)) step body]
    | _ =>
      let statement ← simple fuel
      endStatement
      return statement
termination_by structural fuel => fuel

/-- Statements between braces. -/
def block : Nat → Reader Statement
  | 0 => unexpected
  | fuel + 1 => do
    expect "\x7b"
    newLines
    return .block (← statements fuel)
termination_by structural fuel => fuel

/-- Statements up to a closing brace. -/
def statements : Nat → Reader (List Statement)
  | 0 => unexpected
  | fuel + 1 => do
    if ← takeSign "\x7d" then return []
    else
      let first ← statement fuel
      return first :: (← statements fuel)
termination_by structural fuel => fuel

end

/-- The names of the parameters of a function, up to a closing bracket. -/
def parameters : Nat → Reader (List String)
  | 0 => unexpected
  | fuel + 1 => do
    match ← peek with
    | .name name =>
      skip
      if ← takeSign "," then
        newLines
        return name :: (← parameters fuel)
      else
        expect ")"
        return [name]
    | _ =>
      expect ")"
      return []

/-- The function whose name comes next. -/
def function (fuel : Nat) : Reader (String × Function) := do
  let name ← match ← peek with
    | .called name | .name name => pure name
    | _ => unexpected
  skip
  expect "("
  let parameters ← parameters fuel
  newLines
  return (name, ⟨parameters, ← block fuel⟩)

/-- A rule. -/
def rule (fuel : Nat) : Reader Rule := do
  if ← takeWord "BEGIN" then return ⟨.first, some (← block fuel)⟩
  else if ← takeWord "END" then return ⟨.last, some (← block fuel)⟩
  else
    let body? : Reader (Option Statement) := do
      match ← peek with
      | .sign "\x7b" => return some (← block fuel)
      | .lineEnd | .done | .sign ";" => return none
      | _ => unexpected
    match ← peek with
    | .sign "\x7b" => return ⟨.always, some (← block fuel)⟩
    | _ =>
      let condition ← expression false fuel
      if ← takeSign "," then
        newLines
        let stop ← expression false fuel
        return ⟨.between condition stop, ← body?⟩
      else return ⟨.on condition, ← body?⟩

/-- The rules and functions up to the end. -/
def program (fuel : Nat) : Nat → Program → Reader Program
  | 0, done => return done
  | count + 1, done => do
    skipLines true (← get).length
    match ← peek with
    | .done => return { done with rules := done.rules.reverse }
    | .word "function" | .word "func" =>
      skip
      let function ← function fuel
      program fuel count { done with functions := function :: done.functions }
    | _ =>
      let rule ← rule fuel
      program fuel count { done with rules := rule :: done.rules }

end Reader

/-- How often a sign occurs among tokens. -/
def occurrences (sign : String) (tokens : List Placed) : Nat :=
  tokens.countP fun
    | ⟨.sign other, _, _⟩ => other == sign
    | _ => false

/-- What is said of a refused text: of the end of the program or of a closing brace, what is missing
before it. -/
def Refusal.message (all : List Placed) : Refusal → String
  | .other cause => cause
  | .unexpected rest =>
    let before := all.take (all.length - rest.length)
    let isOpen (start stop : String) : Bool := occurrences start before > occurrences stop before
    match rest with
    | ⟨.wrong cause, _, _⟩ :: _ => cause
    | ⟨token, line, shown⟩ :: _ =>
      let missing : Option String := match token with
        | .done => if isOpen "(" ")" then some ")" else if isOpen "\x7b" "\x7d" then some "\x7d" else none
        | .sign "\x7d" => if isOpen "(" ")" then some ")" else none
        | _ => none
      match missing with
      | some sign => s!"line {line}: missing {sign} near {shown}"
      | none => s!"line {line}: syntax error at or near {shown}"
    | [] => "syntax error"

/-- The program that a text writes. -/
def Program.read (text : List Char) : Except String Program :=
  let all := tokens (text.length + 1) 1 false text
  let fuel := 30 * all.length + 100
  match (Reader.program fuel (all.length + 1) {}).run all with
  | .ok (program, _) => .ok program
  | .error refusal => .error (refusal.message all)

end WasmPackaging.Shell.Records
