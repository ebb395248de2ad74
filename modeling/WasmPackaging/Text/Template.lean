import WasmPackaging.Text.Identifier
import WasmPackaging.Text.Number
import WasmPackaging.Text.Quoted

/-!
Replacement templates: text in which a backslash introduces a reference to a group of what is
replaced, or an escape. A template is read once against the groups that exist (`Template.read`) and
then expanded for each find (`Template.expand`). Main fact: a template without backslash stands for
itself (`expand_read_plain`).
-/

namespace WasmPackaging.Text

/-- The groups that a template may refer to: numbers from 0 to `last`, some of them also named. -/
structure Groups where
  last : Nat
  names : List (String × Nat)

/-- What can be wrong with a template at a place. -/
inductive TemplateFault where
  | dangling
  | badEscape (c : Char)
  | octalTooLarge (digits : List Char)
  | noReference (group : Int)
  | noAngle
  | noName
  | unterminatedName
  | badName (name : String)

/-- Why a template cannot be used: a fault at an offset of its text, or a name no group has. -/
inductive TemplateError where
  | malformed (fault : TemplateFault) (offset : Nat) (template : String)
  | unknownName (name : String)

/-- The wording of a fault. -/
def TemplateFault.message : TemplateFault → String
  | .dangling => "bad escape (end of pattern)"
  | .badEscape c => s!"bad escape \\" ++ String.singleton c
  | .octalTooLarge digits =>
    s!"octal escape value \\" ++ String.ofList digits ++ " outside of range 0-0o377"
  | .noReference group => s!"invalid group reference {group}"
  | .noAngle => "missing <"
  | .noName => "missing group name"
  | .unterminatedName => "missing >, unterminated name"
  | .badName name => s!"bad character in group name {quoted name}"

/-- The line and column of an offset, both counted from one. -/
def lineAndColumn (s : List Char) (offset : Nat) : Nat × Nat :=
  let before := s.take offset
  (before.count '\n' + 1, (before.reverse.takeWhile (· ≠ '\n')).length + 1)

/-- The wording of an error; a template of several lines has its line and column named. -/
def TemplateError.message : TemplateError → String
  | .malformed fault offset template =>
    let place := s!"{fault.message} at position {offset}"
    if template.toList.contains '\n' then
      let (line, column) := lineAndColumn template.toList offset
      s!"{place} (line {line}, column {column})"
    else place
  | .unknownName name => s!"unknown group name {quoted name}"

namespace Template

/-- A character of a template, or a backslash with the character behind it. -/
inductive Token where
  | plain (c : Char)
  | escaped (c : Char)

/-- The text of a token. -/
def Token.text : Token → List Char
  | .plain c => [c]
  | .escaped c => ['\\', c]

/-- The tokens of a template with their offsets, and whether a lone backslash ends it. -/
def tokens (offset : Nat) : List Char → List (Nat × Token) × Bool
  | [] => ([], false)
  | ['\\'] => ([], true)
  | '\\' :: c :: rest =>
    let (more, dangling) := tokens (offset + 2) rest
    ((offset, .escaped c) :: more, dangling)
  | c :: rest =>
    let (more, dangling) := tokens (offset + 1) rest
    ((offset, .plain c) :: more, dangling)

/-- A part of a template that was read. -/
inductive Part where
  | literal (text : List Char)
  | group (number : Nat)

/-- A template as it is read: its text, whether a lone backslash ends it, and its groups. -/
structure Source where
  text : List Char
  dangling : Bool
  groups : Groups

/-- The offset of the next token, or the end. -/
def Source.place (source : Source) : List (Nat × Token) → Nat
  | [] => source.text.length
  | (offset, _) :: _ => offset

/-- Fails with a fault a number of characters before the next token. -/
def Source.fail {α : Type} (source : Source) (fault : TemplateFault) (rest : List (Nat × Token))
    (back : Nat) : Except TemplateError α :=
  .error (.malformed fault (source.place rest - back) (String.ofList source.text))

/-- Notices a lone backslash as soon as it is the next thing to read. -/
def Source.ahead (source : Source) (rest : List (Nat × Token)) : Except TemplateError Unit :=
  if rest.isEmpty && source.dangling then
    .error (.malformed .dangling (source.text.length - 1) (String.ofList source.text))
  else .ok ()

/-- The name up to the closing angle bracket, and what follows it. -/
def Source.name (source : Source) (sofar : List Char) :
    List (Nat × Token) → Except TemplateError (List Char × List (Nat × Token))
  | [] =>
    if sofar.isEmpty then source.fail .noName [] 0
    else source.fail .unterminatedName [] sofar.length
  | (_, .plain '>') :: rest => do
    source.ahead rest
    if sofar.isEmpty then source.fail .noName rest 1 else return (sofar, rest)
  | (_, token) :: rest => do
    source.ahead rest
    source.name (sofar ++ token.text) rest

/-- The group that a name or number between angle brackets refers to. -/
def Source.resolve (source : Source) (name : List Char) (rest : List (Nat × Token)) :
    Except TemplateError Nat :=
  let text := String.ofList name
  if isIdentifier name then
    match source.groups.names.lookup text with
    | some number => .ok number
    | none => .error (.unknownName text)
  else match integer? name with
    | some (.ofNat number) =>
      if number ≤ source.groups.last then .ok number
      else source.fail (.noReference number) rest (name.length + 1)
    | _ => source.fail (.badName text) rest (name.length + 1)

/-- The digits of a plain token that stands next, if it is one that a test accepts. -/
def nextDigit? (test : Char → Bool) : List (Nat × Token) → Option (Char × List (Nat × Token))
  | (_, .plain c) :: rest => if test c then some (c, rest) else none
  | _ => none

/-- Whether a character is an octal digit. -/
def isOctal (c : Char) : Bool := '0' ≤ c && c ≤ '7'

/-- The value of a text of octal digits. -/
def octalValue (digits : List Char) : Nat :=
  digits.foldl (fun value c => value * 8 + (c.toNat - '0'.toNat)) 0

/-- The value of a text of decimal digits. -/
def decimalValue (digits : List Char) : Nat :=
  digits.foldl (fun value c => value * 10 + (c.toNat - '0'.toNat)) 0

/-- The character that a letter behind a backslash stands for. -/
def controlOf? : Char → Option Char
  | 'a' => some (Char.ofNat 7)
  | 'b' => some (Char.ofNat 8)
  | 'f' => some (Char.ofNat 12)
  | 'n' => some '\n'
  | 'r' => some '\r'
  | 't' => some '\t'
  | 'v' => some (Char.ofNat 11)
  | '\\' => some '\\'
  | _ => none

/-- Whether a character is an ASCII letter. -/
def isAsciiLetter (c : Char) : Bool := c.isUpper || c.isLower

/-- Reads the digits behind a backslash: a zero with up to two octal digits, three octal digits, or
a group number of one or two digits. -/
def Source.digits (source : Source) (first : Char) (rest : List (Nat × Token)) :
    Except TemplateError (Part × List (Nat × Token)) :=
  let octal (digits : List Char) (rest : List (Nat × Token)) :=
    (Part.literal [Char.ofNat (octalValue digits % 256)], rest)
  let group (digits : List Char) (rest : List (Nat × Token)) :
      Except TemplateError (Part × List (Nat × Token)) :=
    let number := decimalValue digits
    if number ≤ source.groups.last then .ok (.group number, rest)
    else source.fail (.noReference number) rest digits.length
  if first == '0' then
    match nextDigit? isOctal rest with
    | none => .ok (octal [first] rest)
    | some (second, rest) => do
      source.ahead rest
      match nextDigit? isOctal rest with
      | none => return octal [first, second] rest
      | some (third, rest) => do
        source.ahead rest
        return octal [first, second, third] rest
  else match nextDigit? Char.isDigit rest with
    | none => group [first] rest
    | some (second, rest) => do
      source.ahead rest
      if isOctal first && isOctal second then
        match nextDigit? isOctal rest with
        | none => group [first, second] rest
        | some (third, rest) => do
          source.ahead rest
          let digits := [first, second, third]
          if 255 < octalValue digits then
            source.fail (.octalTooLarge digits) rest (digits.length + 1)
          else return octal digits rest
      else group [first, second] rest

/-- Reads the part that starts with a token. -/
def Source.part (source : Source) (token : Token) (rest : List (Nat × Token)) :
    Except TemplateError (Part × List (Nat × Token)) := do
  source.ahead rest
  match token with
  | .plain c => return (.literal [c], rest)
  | .escaped 'g' =>
    match rest with
    | (_, .plain '<') :: rest => do
      source.ahead rest
      let (name, rest) ← source.name [] rest
      return (.group (← source.resolve name rest), rest)
    | _ => source.fail .noAngle rest 0
  | .escaped c =>
    if c.isDigit then source.digits c rest
    else match controlOf? c with
      | some control => return (.literal [control], rest)
      | none =>
        if isAsciiLetter c then source.fail (.badEscape c) rest 2
        else return (.literal ['\\', c], rest)

/-- Reads the parts of a list of tokens; `fuel` is at least their number. -/
def Source.parts (source : Source) : Nat → List (Nat × Token) → Except TemplateError (List Part)
  | _, [] => .ok []
  | 0, _ => .ok []
  | fuel + 1, (_, token) :: rest => do
    let (part, rest) ← source.part token rest
    return part :: (← source.parts fuel rest)

/-- The parts of a template; one without backslash is a single literal. -/
def read (groups : Groups) (template : String) : Except TemplateError (List Part) := do
  let text := template.toList
  if text.contains '\\' then
    let (tokens, dangling) := tokens 0 text
    let source : Source := ⟨text, dangling, groups⟩
    source.ahead tokens
    source.parts tokens.length tokens
  else return [.literal text]

/-- The text that the parts of a template stand for, given the text of each group. -/
def expand (parts : List Part) (group : Nat → List Char) : List Char :=
  parts.flatMap fun
    | .literal text => text
    | .group number => group number

/-- A template without backslash is read as itself. -/
theorem expand_read_plain {groups : Groups} {template : String} (group : Nat → List Char)
    (h : '\\' ∉ template.toList) :
    (read groups template).map (expand · group) = .ok template.toList := by
  simp [read, h, expand, Except.map, pure, Except.pure]

end Template

end WasmPackaging.Text
