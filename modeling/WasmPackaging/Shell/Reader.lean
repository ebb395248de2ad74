import WasmPackaging.Shell.Script
import WasmPackaging.Text.Blank

/-!
Reading the text of a shell script, a command at a time: what stands before a fault is run before the
fault is noticed.
-/

namespace WasmPackaging.Shell

/-- Whether a character may start a variable's name. -/
def startsName (c : Char) : Bool := c.isAlpha || c == '_'

/-- Whether a character may stand in a variable's name. -/
def inName (c : Char) : Bool := c.isAlphanum || c == '_'

/-- Whether a text is the name of a variable. -/
def isName (s : String) : Bool := s.toList.head?.any startsName && s.toList.all inName

/-- Whether a character stands for a value of the shell itself. -/
def isSpecialName (c : Char) : Bool := c.isDigit || "?#@*$!-".toList.contains c

/-- Whether a character ends a word that is not quoted. -/
def endsWord (c : Char) : Bool := " \t\n;&|<>()".toList.contains c

/-- The words that have a meaning of their own where a command may start. -/
def keywords : List String :=
  ["!", "case", "do", "done", "elif", "else", "esac", "fi", "for", "if", "in", "then", "until", "while",
    "\x7b", "\x7d"]

/-- The keywords and signs that end a list of commands. -/
def listEnds : List String := ["do", "done", "elif", "else", "esac", "fi", "then", "\x7d", ";;", ")"]

/-- A word, a sign between words, or the start of a redirection. A word is given with its text if no part
of it is quoted or put in. -/
inductive Token where
  | textEnd
  | newline
  | sign (text : String)
  | keyword (text : String)
  | redirect (descriptor : Nat) (mode : RedirectionMode)
  | word (word : ScriptWord) (plain : Option String)

/-- How a complaint names a token. -/
def Token.shown : Token → String
  | .textEnd => "end of file"
  | .newline => "newline"
  | .redirect _ _ => "redirection"
  | .word _ _ => "word"
  | .sign text | .keyword text => s!"\"{text}\""

/-- Whether a token is a sign. -/
def Token.isSign (token : Token) (text : String) : Bool :=
  match token with
  | .sign other => other == text
  | _ => false

/-- Whether a token is a keyword. -/
def Token.isKeyword (token : Token) (text : String) : Bool :=
  match token with
  | .keyword other => other == text
  | _ => false

/-- Why a text is no script. -/
inductive SyntaxFault where
  | unexpected (found : String)
  | unexpectedFor (found expected : String)
  | openQuote
  | openBackquote
  | openArithmetic
  | openBrace
  | badLoopName
  | badFunctionName
  | badDescriptor
  deriving DecidableEq

/-- The wording of a fault. -/
def SyntaxFault.message : SyntaxFault → String
  | .unexpected found => s!"{found} unexpected"
  | .unexpectedFor found expected =>
    s!"{found} unexpected (expecting " ++ (if expected == "word" then "word)" else s!"\"{expected}\")")
  | .openQuote => "Unterminated quoted string"
  | .openBackquote => "EOF in backquote substitution"
  | .openArithmetic => "Missing '))'"
  | .openBrace => "Missing '\x7d'"
  | .badLoopName => "Bad for loop variable"
  | .badFunctionName => "Bad function name"
  | .badDescriptor => "Bad fd number"

/-- A fault and the line on which it was noticed. -/
structure SyntaxError where
  line : Nat
  fault : SyntaxFault

/-- A document that a redirection takes from the lines behind it: the line that ends it, whether values
are put into it, and whether the tabs at the starts of its lines are left out. -/
structure Awaited where
  ending : String
  plain : Bool
  untabbed : Bool

/-- The text of a script that is left, and what is known of what is behind. A name that is being expanded is
held with how much text is left behind it. -/
structure Source where
  rest : List Char
  line : Nat := 1
  pushed : Option Token := none
  awaited : List Awaited := []
  documents : List ScriptWord := []
  aliases : List (String × String) := []
  expanding : List (String × Nat) := []

/-- A step of reading a script. -/
abbrev Reader := StateT Source (Except SyntaxError)

namespace Reader

/-- Fails. -/
def fail {α : Type} (fault : SyntaxFault) : Reader α := do throw ⟨(← get).line, fault⟩

/-- The next character. -/
def next? : Reader (Option Char) := return (← get).rest.head?

/-- The character behind the next one. -/
def second? : Reader (Option Char) := return (← get).rest[1]?

/-- Passes over a character. -/
def skip : Reader Unit := modify fun s =>
  { s with rest := s.rest.drop 1, line := if s.rest.head? == some '\n' then s.line + 1 else s.line }

/-- Passes over a number of characters. -/
def skipMany : Nat → Reader Unit
  | 0 => return
  | n + 1 => do
    skip
    skipMany n

/-- Passes over a line end behind a backslash, as often as there is one. -/
def joinLines : Nat → Reader Unit
  | 0 => return
  | fuel + 1 => do
    match (← get).rest with
    | '\\' :: '\n' :: _ =>
      skipMany 2
      joinLines fuel
    | _ => return

/-- Takes the characters up to the first that fails a test. -/
def takeWhile (test : Char → Bool) : Reader String := do
  let run := (← get).rest.takeWhile test
  skipMany run.length
  return String.ofList run

/-- Takes the characters before a closing mark and passes over it. -/
def takeUntil (mark : Char) (fault : SyntaxFault) : Reader String := do
  let text ← takeWhile (· != mark)
  if (← next?).isNone then fail fault
  else
    skip
    return text

/-- Passes over blanks, comments and joined lines. -/
def skipBlanks : Nat → Reader Unit
  | 0 => return
  | fuel + 1 => do
    match (← get).rest with
    | ' ' :: _ | '\t' :: _ =>
      skip
      skipBlanks fuel
    | '#' :: rest =>
      skipMany (rest.takeWhile (· != '\n')).length.succ
      skipBlanks fuel
    | '\\' :: '\n' :: _ =>
      skipMany 2
      skipBlanks fuel
    | _ => return

/-- Puts a token back. -/
def push (token : Token) : Reader Unit := modify fun s => { s with pushed := some token }

/-- Fails at a token. -/
def unexpected {α : Type} (token : Token) : Reader α := fail (.unexpected token.shown)

/-- Fails at a token where another has to stand. -/
def unexpectedFor {α : Type} (token : Token) (expected : String) : Reader α :=
  fail (.unexpectedFor token.shown expected)

/-- Adds a document that is to be read, and answers with its number. -/
def await (document : Awaited) : Reader Nat := do
  let s ← get
  set { s with awaited := s.awaited ++ [document] }
  return s.documents.length + s.awaited.length

/-! ## Lines of documents -/

/-- The lines before the one that ends a document, and what is behind that. -/
def documentLines (document : Awaited) : Nat → List Char → List Char × List Char
  | 0, s => ([], s)
  | fuel + 1, s =>
    let s := if document.untabbed then s.dropWhile (· == '\t') else s
    if s = [] then ([], [])
    else
      let line := s.takeWhile (· != '\n')
      let rest := s.drop line.length
      if String.ofList line = document.ending then ([], rest.drop 1)
      else
        let (more, behind) := documentLines document fuel (rest.drop 1)
        (line ++ rest.take 1 ++ more, behind)

/-! ## Words -/

/-- A word whose tilde at the start is told from other text. -/
def withHome (word : ScriptWord) : ScriptWord :=
  match word with
  | .text false text :: rest =>
    match text.toList with
    | '~' :: more =>
      let user := more.takeWhile (· != '/')
      if user.length < more.length || rest.isEmpty then
        .home (String.ofList user) :: .text false (String.ofList (more.drop user.length)) :: rest
      else word
    | _ => word
  | _ => word

/-- The parts of a value between colons, of which those that start with a tilde name homes. `isEnd` tells
whether nothing else of the value follows, and `starts` whether the first part starts one. -/
def homesBetween (isEnd starts : Bool) : List (List Char) → ScriptWord
  | [] => []
  | part :: rest =>
    let shown : ScriptWord := if part.isEmpty then [] else [.text false (String.ofList part)]
    let first := match starts, part with
      | true, '~' :: more =>
        let user := more.takeWhile (· != '/')
        if user.length < more.length || isEnd || !rest.isEmpty then
          .home (String.ofList user) ::
            (if user.length < more.length then [.text false (String.ofList (more.drop user.length))] else [])
        else shown
      | _, _ => shown
    first ++ (if rest.isEmpty then [] else [.text false ":"]) ++ homesBetween isEnd true rest

/-- A value that is assigned: tildes at its start and behind colons name homes. -/
def withHomes (starts : Bool) : ScriptWord → ScriptWord
  | [] => []
  | .text false text :: rest =>
    homesBetween rest.isEmpty starts (Text.splitAt ':' text.toList) ++ withHomes (text.endsWith ":") rest
  | segment :: rest => segment :: withHomes false rest

/-- Puts the text that a name stands for in its place, if it does and is not being expanded. What follows a
text with a blank at its end is expanded as well. -/
def expandAlias (name : String) : Reader Bool := do
  let s ← get
  match s.aliases.lookup name with
  | none => return false
  | some text =>
    let size := s.rest.length
    let expanding := s.expanding.filter fun entry => entry.2 < size
    if expanding.any (·.1 == name) then return false
    else
      let word := (s.rest.dropWhile isBlankChar).takeWhile fun c => c.isAlphanum || c == '_' || c == '.' || c == '-'
      let behind := (s.rest.dropWhile isBlankChar).drop word.length
      let rest := match text.toList.getLast?.any isBlankChar, s.aliases.lookup (String.ofList word) with
        | true, some next => next.toList ++ behind
        | _, _ => s.rest
      set { s with rest := text.toList ++ rest, expanding := (name, size) :: expanding }
      return true
where
  /-- Whether a character separates words within a line. -/
  isBlankChar (c : Char) : Bool := c == ' ' || c == '\t'

/-- The plain text of a word, if no part of it is quoted or put in. -/
def plainText? : ScriptWord → Option String
  | [.text false text] => some text
  | _ => none

/-- The text of a word with its quotes taken off. -/
def bareText (word : ScriptWord) : String :=
  String.join (word.map fun
    | .text _ text => text
    | .parameter _ name _ => "$" ++ name
    | _ => "")

/-- The name and the value that a word assigns, if it does. -/
def assignment? : ScriptWord → Option (String × ScriptWord)
  | .text false text :: rest =>
    let name := text.toList.takeWhile (· != '=')
    match text.toList.drop name.length with
    | _ :: value =>
      if isName (String.ofList name) then
        let value := String.ofList value
        some (String.ofList name, withHomes true (if value = "" then rest else .text false value :: rest))
      else none
    | [] => none
  | _ => none

/-- The mode of a redirection from its sign, the length of the sign, and the descriptor it is about unless
another is named. -/
def redirectionSign? : List Char → Option (RedirectionMode × Nat × Nat)
  | '>' :: '>' :: _ => some (.append, 2, 1)
  | '>' :: '&' :: _ => some (.duplicate, 2, 1)
  | '>' :: '|' :: _ => some (.force, 2, 1)
  | '>' :: _ => some (.write, 1, 1)
  | '<' :: '<' :: _ => some (.document 0, 2, 0)
  | '<' :: '&' :: _ => some (.duplicate, 2, 0)
  | '<' :: '>' :: _ => some (.both, 2, 0)
  | '<' :: _ => some (.read, 1, 0)
  | _ => none

/-- The sign between commands that starts at a text. -/
def sign? : List Char → Option String
  | '&' :: '&' :: _ => some "&&"
  | '|' :: '|' :: _ => some "||"
  | ';' :: ';' :: _ => some ";;"
  | c :: _ => if ";&|()".toList.contains c then some (String.singleton c) else none
  | [] => none

/-- The text of a command between backquotes, with its backslashes taken off. -/
def backquotedText (quoted : Bool) : List Char → List Char
  | '\\' :: '\n' :: rest => backquotedText quoted rest
  | '\\' :: c :: rest =>
    if "\\$\x60".toList.contains c || (quoted && c == '"') then c :: backquotedText quoted rest
    else '\\' :: c :: backquotedText quoted rest
  | c :: rest => c :: backquotedText quoted rest
  | [] => []

/-- How many characters stand before the closing backquote. -/
def backquotedLength : List Char → Nat
  | '\\' :: _ :: rest => backquotedLength rest + 2
  | '\x60' :: _ => 0
  | _ :: rest => backquotedLength rest + 1
  | [] => 0

/-- The names of the commands that belong to the shell more than others: no function has their names. -/
def specialNames : List String :=
  [".", ":", "break", "continue", "eval", "exec", "exit", "export", "readonly", "return", "set", "shift",
    "times", "trap", "unset"]

/-- Where a word that is read stands: by itself, between double quotes, in braces behind the sign of a
use, or in a document. -/
inductive Place where
  | bare
  | doubleQuotes
  | braces (quoted : Bool)
  | document
  deriving DecidableEq

/-- Whether what stands at a place is quoted. -/
def Place.isQuoted : Place → Bool
  | .bare => false
  | .braces quoted => quoted
  | _ => true

/-- The characters that a backslash takes their meaning from at a place. -/
def Place.escapable : Place → List Char
  | .doubleQuotes => "$\x60\"\\".toList
  | .braces _ => "$\x60\"\\\x7d".toList
  | _ => "$\x60\\".toList

/-- A list of commands: the line of a script, which a line end ends; one within a command that holds at
least one command, or that may hold none; and one that goes on. -/
inductive ListKind where
  | line
  | some
  | any
  | more
  deriving DecidableEq

mutual

/-- Reads a word at a place, up to its end. -/
def word (place : Place) : Nat → Reader ScriptWord
  | 0 => return []
  | fuel + 1 => do
    let quoted := place.isQuoted
    match ← next? with
    | none =>
      match place with
      | .doubleQuotes => fail .openQuote
      | .braces _ => fail .openBrace
      | _ => return []
    | some c =>
      if c == '\\' then
        match ← second? with
        | none =>
          skip
          return .text true "\\" :: (← word place fuel)
        | some '\n' =>
          skipMany 2
          word place fuel
        | some d =>
          skipMany 2
          let text := if !quoted || place.escapable.contains d then [d] else ['\\', d]
          return .text true (String.ofList text) :: (← word place fuel)
      else if c == '$' then
        skip
        let segment ← dollar quoted fuel
        return segment :: (← word place fuel)
      else if c == '\x60' then
        skip
        let segment ← backquoted quoted fuel
        return segment :: (← word place fuel)
      else if c == '"' && place == .doubleQuotes then
        skip
        return []
      else if c == '\x7d' && (place == .braces true || place == .braces false) then
        skip
        return []
      else if c == '"' && place != .document then
        skip
        let inner ← word .doubleQuotes fuel
        let inner := match inner with
          | [.parameter _ "@" .value] => inner
          | _ => .text true "" :: inner
        return inner ++ (← word place fuel)
      else if c == '\'' && !quoted then
        skip
        let text ← takeUntil '\'' .openQuote
        return .text true text :: (← word place fuel)
      else if place == .bare && endsWord c then return []
      else
        let stops := "\\$\x60\"'\x7d".toList
        skip
        let run ← takeWhile fun d => !stops.contains d && !(place == .bare && endsWord d)
        let segment := Segment.text quoted (String.singleton c ++ run)
        match ← word place fuel with
        | .text other more :: rest =>
          if other == quoted then return .text quoted (String.singleton c ++ run ++ more) :: rest
          else return segment :: .text other more :: rest
        | rest => return segment :: rest
termination_by structural fuel => fuel

/-- Reads what stands behind a dollar sign. -/
def dollar (quoted : Bool) : Nat → Reader Segment
  | 0 => return .text quoted "$"
  | fuel + 1 => do
    joinLines fuel
    match ← next? with
    | some '(' =>
      skip
      joinLines fuel
      if (← next?) == some '(' then
        skip
        return .arithmetic quoted (← arithmetic 0 fuel)
      else
        let saved := (← get).pushed
        modify fun s => { s with pushed := none }
        let body ← commandList .any .empty fuel
        let token ← token false false fuel
        if !token.isSign ")" then unexpectedFor token ")"
        else
          modify fun s => { s with pushed := saved }
          return .output quoted body
    | some '\x7b' =>
      skip
      braces quoted fuel
    | some c =>
      if startsName c then return .parameter quoted (← takeWhile inName) .value
      else if isSpecialName c then
        skip
        return .parameter quoted (String.singleton c) .value
      else return .text quoted "$"
    | none => return .text quoted "$"
termination_by structural fuel => fuel

/-- Reads the expression between double brackets, with some brackets open within it. -/
def arithmetic (depth : Nat) : Nat → Reader ScriptWord
  | 0 => fail .openArithmetic
  | fuel + 1 => do
    let more (text : String) (depth : Nat) : Reader ScriptWord := do
      return .text true text :: (← arithmetic depth fuel)
    match ← next? with
    | none => fail .openArithmetic
    | some '\\' =>
      if (← second?) == some '\n' then
        skipMany 2
        arithmetic depth fuel
      else
        skip
        more "\\" depth
    | some '$' =>
      skip
      let segment ← dollar true fuel
      return segment :: (← arithmetic depth fuel)
    | some '\x60' =>
      skip
      let segment ← backquoted true fuel
      return segment :: (← arithmetic depth fuel)
    | some '"' =>
      skip
      arithmetic depth fuel
    | some '(' =>
      skip
      more "(" (depth + 1)
    | some ')' =>
      skip
      if depth > 0 then more ")" (depth - 1)
      else if (← next?) == some ')' then
        skip
        return []
      else more ")" 0
    | some _ =>
      let run ← takeWhile fun c => !"\\$\x60\"()".toList.contains c
      more run depth
termination_by structural fuel => fuel

/-- Reads what stands between braces behind a dollar sign. -/
def braces (quoted : Bool) : Nat → Reader Segment
  | 0 => fail .openBrace
  | fuel + 1 => do
    match (← get).rest with
    | '#' :: c :: rest =>
      if startsName c || c.isDigit || (isSpecialName c && rest.head? == some '\x7d') then
        skip
        let name ← if startsName c then takeWhile inName else if c.isDigit then takeWhile Char.isDigit else do
          skip
          pure (String.singleton c)
        if (← next?) == some '\x7d' then
          skip
          return .parameter quoted name .length
        else
          let _ ← word (.braces quoted) fuel
          return .parameter quoted name .wrong
      else parameterUse quoted fuel
    | _ => parameterUse quoted fuel
termination_by structural fuel => fuel

/-- Reads a parameter's name and its use. -/
def parameterUse (quoted : Bool) : Nat → Reader Segment
  | 0 => fail .openBrace
  | fuel + 1 => do
    let name ← match ← next? with
      | some c =>
        if startsName c then takeWhile inName
        else if c.isDigit then takeWhile Char.isDigit
        else if isSpecialName c then do
          skip
          pure (String.singleton c)
        else pure ""
      | none => pure ""
    joinLines fuel
    let wordUse (use : ScriptWord → Use) : Reader Segment := do
      skip
      return .parameter quoted name (use (withHome (← word (.braces quoted) fuel)))
    let cut (c : Char) (use : Bool → ScriptWord → Use) : Reader Segment := do
      skip
      let longest := (← next?) == some c
      if longest then skip
      return .parameter quoted name (use longest (withHome (← word (.braces false) fuel)))
    if name = "" then
      let _ ← word (.braces quoted) fuel
      return .parameter quoted name .wrong
    else match (← get).rest with
      | '\x7d' :: _ =>
        skip
        return .parameter quoted name .value
      | ':' :: c :: _ =>
        skip
        match c with
        | '-' => wordUse (.default true)
        | '=' => wordUse (.assign true)
        | '?' => wordUse (.demand true)
        | '+' => wordUse (.instead true)
        | _ =>
          let _ ← word (.braces quoted) fuel
          return .parameter quoted name .wrong
      | '-' :: _ => wordUse (.default false)
      | '=' :: _ => wordUse (.assign false)
      | '?' :: _ => wordUse (.demand false)
      | '+' :: _ => wordUse (.instead false)
      | '#' :: _ => cut '#' .withoutStart
      | '%' :: _ => cut '%' .withoutEnd
      | _ =>
        let _ ← word (.braces quoted) fuel
        return .parameter quoted name .wrong
termination_by structural fuel => fuel

/-- Reads a command between backquotes. -/
def backquoted (quoted : Bool) : Nat → Reader Segment
  | 0 => fail .openBackquote
  | fuel + 1 => do
    let s ← get
    let length := backquotedLength s.rest
    if s.rest.length ≤ length then
      skipMany length
      fail .openBackquote
    else
      let inner := backquotedText quoted (s.rest.take length)
      set { s with rest := inner, pushed := none, awaited := [] }
      let body ← commandList .any .empty fuel
      let token ← token false false fuel
      match token with
      | .textEnd => pure ()
      | other => unexpected other
      modify fun t => { t with rest := s.rest, line := s.line, pushed := s.pushed, awaited := s.awaited }
      skipMany (length + 1)
      return .output quoted body
termination_by structural fuel => fuel

/-- Reads the next token as such. -/
def rawToken : Nat → Reader Token
  | 0 => return .textEnd
  | fuel + 1 => do
    let s ← get
    match s.pushed with
    | some token =>
      set { s with pushed := none }
      return token
    | none =>
      skipBlanks fuel
      let rest := (← get).rest
      match rest with
      | [] => return .textEnd
      | '\n' :: _ =>
        skip
        return .newline
      | c :: more =>
        match sign? rest with
        | some sign =>
          skipMany sign.length
          return .sign sign
        | none =>
          let (digits, behind) := if c.isDigit then ([c], more) else ([], rest)
          match redirectionSign? behind with
          | some (mode, length, standard) =>
            skipMany (digits.length + length)
            return .redirect (((String.ofList digits).toNat?).getD standard) mode
          | none =>
            let word ← word .bare fuel
            return .word (withHome word) (plainText? word)
termination_by structural fuel => fuel

/-- Reads the next token: words may be keywords, and line ends may be passed over. -/
def token (keywordsCount passLines : Bool) : Nat → Reader Token
  | 0 => return .textEnd
  | fuel + 1 => do
    match ← rawToken fuel with
    | .newline =>
      if passLines then
        documents fuel
        token keywordsCount passLines fuel
      else return .newline
    | .word word (some plain) =>
      if !keywordsCount then return .word word (some plain)
      else if keywords.contains plain then return .keyword plain
      else if ← expandAlias plain then token keywordsCount passLines fuel
      else return .word word (some plain)
    | token => return token
termination_by structural fuel => fuel

/-- Reads the documents that are awaited. -/
def documents : Nat → Reader Unit
  | 0 => return
  | fuel + 1 => do
    let s ← get
    match s.awaited with
    | [] => return
    | document :: more => do
      let (text, behind) := documentLines document (s.rest.length + 1) s.rest
      let lines := (s.rest.take (s.rest.length - behind.length)).count '\n'
      let content ← if document.plain then pure [Segment.text true (String.ofList text)] else do
        set { s with rest := text, awaited := [], pushed := none }
        word .document fuel
      modify fun t => { t with
        rest := behind, line := s.line + lines, awaited := more, pushed := s.pushed,
        documents := t.documents ++ [content] }
      documents fuel
termination_by structural fuel => fuel

/-- Reads the target of a redirection. -/
def redirectionTarget (descriptor : Nat) (mode : RedirectionMode) : Nat → Reader Redirection
  | 0 => fail .badDescriptor
  | fuel + 1 => do
    let (mode, untabbed) ← match mode with
      | .document number =>
        if (← next?) == some '-' then do
          skip
          pure (RedirectionMode.document number, true)
        else pure (RedirectionMode.document number, false)
      | mode => pure (mode, false)
    match ← token false false fuel with
    | .word target plain =>
      match mode with
      | .document _ =>
        let number ← await ⟨bareText target, plain.isNone, untabbed⟩
        return .mk descriptor (.document number) []
      | .duplicate =>
        match plain with
        | some text =>
          if text = "-" || (text.length == 1 && text.toList.all Char.isDigit) then
            return .mk descriptor .duplicate target
          else fail .badDescriptor
        | none => return .mk descriptor .duplicate target
      | mode => return .mk descriptor mode target
    | other => unexpected other
termination_by structural fuel => fuel

/-- Reads redirections. -/
def redirections : Nat → Reader (List Redirection)
  | 0 => return []
  | fuel + 1 => do
    match ← token true false fuel with
    | .redirect descriptor mode =>
      let first ← redirectionTarget descriptor mode fuel
      return first :: (← redirections fuel)
    | other =>
      push other
      return []
termination_by structural fuel => fuel

/-- Reads the parts of a simple command behind some others. -/
def simple (line : Nat) (assignments : List (String × ScriptWord)) (words : List ScriptWord)
    (redirections : List Redirection) : Nat → Reader Script
  | 0 => return .empty
  | fuel + 1 => do
    let finish : Script := .simple line assignments.reverse words.reverse redirections.reverse
    match ← token false false fuel with
    | .word word plain =>
      match if words.isEmpty then assignment? word else none with
      | some assignment => simple line (assignment :: assignments) words redirections fuel
      | none =>
        if words.isEmpty && assignments.isEmpty && redirections.isEmpty then
          functionOr line word plain fuel
        else simple line assignments (word :: words) redirections fuel
    | .redirect descriptor mode =>
      let redirection ← redirectionTarget descriptor mode fuel
      simple line assignments words (redirection :: redirections) fuel
    | other =>
      push other
      return finish
termination_by structural fuel => fuel

/-- Reads a function, if brackets follow the first word of a command. -/
def functionOr (line : Nat) (first : ScriptWord) (plain : Option String) : Nat → Reader Script
  | 0 => return .empty
  | fuel + 1 => do
    match ← token false false fuel with
    | .sign "(" =>
      let closing ← token false false fuel
      if !closing.isSign ")" then unexpectedFor closing ")"
      else match plain with
        | some name =>
          if isName name && !specialNames.contains name then
            let opening ← token true true fuel
            return .define line name (← command opening fuel)
          else fail .badFunctionName
        | none => fail .badFunctionName
    | other =>
      push other
      simple line [] [first] [] fuel
termination_by structural fuel => fuel

/-- Reads a command that starts with a token. -/
def command (token : Token) : Nat → Reader Script
  | 0 => return .empty
  | fuel + 1 => do
    let line := (← get).line
    match token with
    | .word _ _ | .redirect _ _ =>
      push token
      simple line [] [] [] fuel
    | .keyword "if" =>
      let script ← choice fuel
      withRedirections line script fuel
    | .keyword "while" => loop true fuel
    | .keyword "until" => loop false fuel
    | .keyword "for" => eachLoop fuel
    | .keyword "case" => caseCommand fuel
    | .keyword "\x7b" =>
      let body ← commandList .some .empty fuel
      closing "\x7d" fuel
      withRedirections line body fuel
    | .sign "(" =>
      let body ← commandList .some .empty fuel
      let close ← Reader.token true false fuel
      if close.isSign ")" then withRedirections line (.subshell line body) fuel
      else unexpectedFor close ")"
    | other => unexpected other
termination_by structural fuel => fuel

/-- Passes over a keyword that has to stand here. -/
def closing (keyword : String) : Nat → Reader Unit
  | 0 => return
  | fuel + 1 => do
    let token ← token true false fuel
    if token.isKeyword keyword then return else unexpectedFor token keyword
termination_by structural fuel => fuel

/-- A compound command with the redirections behind it. -/
def withRedirections (line : Nat) (body : Script) : Nat → Reader Script
  | 0 => return body
  | fuel + 1 => do
    match ← redirections fuel with
    | [] => return body
    | list => return .redirected line body list
termination_by structural fuel => fuel

/-- Reads the rest of a choice, up to its last keyword. -/
def choice : Nat → Reader Script
  | 0 => return .empty
  | fuel + 1 => do
    let condition ← commandList .some .empty fuel
    closing "then" fuel
    let yes ← commandList .some .empty fuel
    match ← token true false fuel with
    | .keyword "elif" => return .choice condition yes (← choice fuel)
    | .keyword "else" =>
      let no ← commandList .some .empty fuel
      closing "fi" fuel
      return .choice condition yes no
    | .keyword "fi" => return .choice condition yes .empty
    | other => unexpectedFor other "fi"
termination_by structural fuel => fuel

/-- Reads the rest of a loop that depends on a condition. -/
def loop (whileSuccess : Bool) : Nat → Reader Script
  | 0 => return .empty
  | fuel + 1 => do
    let line := (← get).line
    let condition ← commandList .some .empty fuel
    closing "do" fuel
    let body ← commandList .some .empty fuel
    closing "done" fuel
    withRedirections line (.loop whileSuccess condition body) fuel
termination_by structural fuel => fuel

/-- Reads the words up to the end of a line. -/
def lineWords : Nat → Reader (List ScriptWord)
  | 0 => return []
  | fuel + 1 => do
    match ← token false false fuel with
    | .word word _ => return word :: (← lineWords fuel)
    | .newline =>
      push .newline
      return []
    | .sign ";" => return []
    | other => unexpected other
termination_by structural fuel => fuel

/-- Reads the rest of a loop over some words. -/
def eachLoop : Nat → Reader Script
  | 0 => return .empty
  | fuel + 1 => do
    let line := (← get).line
    match ← token false false fuel with
    | .word _ (some name) =>
      if !isName name then fail .badLoopName
      else
        let items ← match ← token true true fuel with
          | .keyword "in" => lineWords fuel
          | .sign ";" => pure [[.parameter true "@" .value]]
          | other => do
            push other
            pure [[.parameter true "@" .value]]
        let opening ← token true true fuel
        if !opening.isKeyword "do" then unexpectedFor opening "do"
        else
          let body ← commandList .some .empty fuel
          closing "done" fuel
          withRedirections line (.each line name items body) fuel
    | _ => fail .badLoopName
termination_by structural fuel => fuel

/-- Reads the rest of a command that chooses by patterns. -/
def caseCommand : Nat → Reader Script
  | 0 => return .empty
  | fuel + 1 => do
    let line := (← get).line
    match ← token false false fuel with
    | .word subject _ =>
      let opening ← token true true fuel
      if !opening.isKeyword "in" then unexpectedFor opening "in"
      else
        let branches ← branches fuel
        withRedirections line (.cases line subject branches) fuel
    | other => unexpectedFor other "word"
termination_by structural fuel => fuel

/-- Reads the branches of such a command, up to its last keyword. -/
def branches : Nat → Reader (List (List ScriptWord × Script))
  | 0 => return []
  | fuel + 1 => do
    let first ← token true true fuel
    if first.isKeyword "esac" then return []
    else
      let first ← if first.isSign "(" then token false false fuel else pure first
      let patterns ← patterns first fuel
      let body ← commandList .any .empty fuel
      match ← token true true fuel with
      | .keyword "esac" => return [(patterns, body)]
      | .sign ";;" => return (patterns, body) :: (← branches fuel)
      | other => unexpectedFor other ";;"
termination_by structural fuel => fuel

/-- Reads the patterns of a branch and the bracket behind them. -/
def patterns (first : Token) : Nat → Reader (List ScriptWord)
  | 0 => return []
  | fuel + 1 => do
    let pattern := match first with
      | .word word _ => word
      | .keyword text => [.text false text]
      | _ => []
    match ← token false false fuel with
    | .sign "|" =>
      let next ← token false false fuel
      return pattern :: (← patterns next fuel)
    | .sign ")" => return [pattern]
    | other => unexpectedFor other ")"
termination_by structural fuel => fuel

/-- Reads commands with pipes between them, given the first token. -/
def pipeline : Nat → Reader Script
  | 0 => return .empty
  | fuel + 1 => do
    let first ← token true true fuel
    let isNegated := first.isKeyword "!"
    let first ← if isNegated then token true false fuel else pure first
    let script ← command first fuel
    let more ← pipeRest fuel
    let script := if more.isEmpty then script else .pipe (script :: more)
    return if isNegated then .negated script else script
termination_by structural fuel => fuel

/-- Reads the commands behind pipe signs. -/
def pipeRest : Nat → Reader (List Script)
  | 0 => return []
  | fuel + 1 => do
    match ← token true false fuel with
    | .sign "|" =>
      let script ← command (← token true true fuel) fuel
      return script :: (← pipeRest fuel)
    | other =>
      push other
      return []
termination_by structural fuel => fuel

/-- Reads pipelines each of which but the first depends on how the one before it ended. -/
def conditional (before : Script → Script) : Nat → Reader Script
  | 0 => return .empty
  | fuel + 1 => do
    let script := before (← pipeline fuel)
    match ← token true false fuel with
    | .sign "&&" => conditional (.ifSucceeds script) fuel
    | .sign "||" => conditional (.ifFails script) fuel
    | other =>
      push other
      return script
termination_by structural fuel => fuel

/-- Reads a list of commands behind some others. -/
def commandList (kind : ListKind) (before : Script) : Nat → Reader Script
  | 0 => return before
  | fuel + 1 => do
    let first ← token true (kind != .line) fuel
    match first with
    | .newline =>
      documents fuel
      return before
    | .textEnd =>
      documents fuel
      push .textEnd
      return before
    | _ =>
      push first
      let ends := match first with
        | .keyword text | .sign text => listEnds.contains text
        | _ => false
      if (kind == .any || kind == .more) && ends then return before
      else
        let script ← conditional id fuel
        let last ← token true false fuel
        let script := if last.isSign "&" then .background script else script
        let whole := match before with
          | .empty => script
          | before => .sequence before script
        let again := if kind == .line then ListKind.line else .more
        match last with
        | .newline | .textEnd =>
          push last
          commandList again whole fuel
        | .sign "&" | .sign ";" => commandList again whole fuel
        | other =>
          if kind == .line then unexpected other
          else
            push other
            return whole
termination_by structural fuel => fuel

end

/-- The fuel that reading a text takes at most. -/
def fuelFor (s : Source) : Nat := 12 * s.rest.length + 100

/-- Reads the next line of commands; nothing if the text ends. -/
def line? : Reader (Option Script) := do
  let fuel := fuelFor (← get)
  match ← token true false fuel with
  | .textEnd => return none
  | first =>
    push first
    return some (← commandList .line .empty fuel)

end Reader

end WasmPackaging.Shell
