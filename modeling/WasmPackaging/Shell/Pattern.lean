import WasmPackaging.Shell.Octets

/-!
Patterns of the shell: stars, question marks and sets of characters, of which each may be quoted.
-/

namespace WasmPackaging.Shell

/-- A character of a word, and whether it is quoted. -/
structure Marked where
  char : Char
  quoted : Bool
  deriving DecidableEq

/-- The characters of a text, all quoted or none. -/
def marked (quoted : Bool) (text : String) : List Marked := text.toList.map (⟨·, quoted⟩)

/-- The text of marked characters. -/
def unmarked (chars : List Marked) : String := String.ofList (chars.map Marked.char)

/-- A part of a pattern. -/
inductive PatternItem where
  | char (c : Char)
  | one
  | any
  | set (isNegated : Bool) (ranges : List (Char × Char)) (classes : List String)
  deriving DecidableEq

/-- A pattern. -/
abbrev Pattern := List PatternItem

/-- Whether a character is a mark of punctuation. -/
def isMark (c : Char) : Bool := '!' ≤ c && c ≤ '~' && !c.isAlphanum

/-- Whether a character belongs to a named class. -/
def inClass (name : String) (c : Char) : Bool :=
  match name with
  | "alpha" => c.isAlpha
  | "digit" => c.isDigit
  | "alnum" => c.isAlphanum
  | "upper" => c.isUpper
  | "lower" => c.isLower
  | "space" => c == ' ' || ('\t' ≤ c && c ≤ '\r')
  | "blank" => c == ' ' || c == '\t'
  | "punct" => isMark c
  | "print" => ' ' ≤ c && c ≤ '~'
  | "graph" => '!' ≤ c && c ≤ '~'
  | "cntrl" => c < ' ' || c == '\x7f'
  | "xdigit" => c.isDigit || ('a' ≤ c && c ≤ 'f') || ('A' ≤ c && c ≤ 'F')
  | _ => false

/-- Whether a character belongs to a set. -/
def inSet (isNegated : Bool) (ranges : List (Char × Char)) (classes : List String) (c : Char) : Bool :=
  isNegated != (ranges.any (fun range => range.1 ≤ c && c ≤ range.2) || classes.any (inClass · c))

namespace Pattern

/-- The members of a set up to its closing bracket, and what is behind that. -/
def setMembers (first : Bool) :
    Nat → List Marked → Option (List (Char × Char) × List String × List Marked)
  | 0, _ => none
  | fuel + 1, s =>
    match s with
    | [] => none
    | ⟨']', false⟩ :: rest =>
      if first then (setMembers false fuel rest).map fun (ranges, more) => ((']', ']') :: ranges, more)
      else some ([], [], rest)
    | ⟨'[', false⟩ :: ⟨':', false⟩ :: rest =>
      let name := (rest.takeWhile (·.char.isAlpha)).map Marked.char
      match rest.drop name.length with
      | ⟨':', false⟩ :: ⟨']', false⟩ :: rest =>
        (setMembers false fuel rest).map fun (ranges, classes, more) =>
          (ranges, String.ofList name :: classes, more)
      | _ => (setMembers false fuel (⟨':', false⟩ :: rest)).map fun (ranges, more) =>
        (('[', '[') :: ranges, more)
    | low :: ⟨'-', false⟩ :: high :: rest =>
      if high = ⟨']', false⟩ then
        (setMembers false fuel (⟨'-', false⟩ :: high :: rest)).map fun (ranges, more) =>
          ((low.char, low.char) :: ranges, more)
      else (setMembers false fuel rest).map fun (ranges, more) => ((low.char, high.char) :: ranges, more)
    | c :: rest => (setMembers false fuel rest).map fun (ranges, more) => ((c.char, c.char) :: ranges, more)

/-- The pattern that a word writes. -/
def ofMarked (s : List Marked) : Pattern :=
  go (s.length + 1) s
where
  /-- The pattern that the rest of a word writes. -/
  go : Nat → List Marked → Pattern
    | 0, _ => []
    | _, [] => []
    | fuel + 1, ⟨c, true⟩ :: rest => .char c :: go fuel rest
    | fuel + 1, ⟨c, false⟩ :: rest =>
      if c == '*' then .any :: go fuel rest
      else if c == '?' then .one :: go fuel rest
      else if c == '\\' then
        match rest with
        | next :: rest => .char next.char :: go fuel rest
        | [] => [.char '\\']
      else if c == '[' then
        let (isNegated, members) := match rest with
          | ⟨'!', false⟩ :: members => (true, members)
          | members => (false, members)
        match setMembers true (members.length + 1) members with
        | some (ranges, classes, rest) => .set isNegated ranges classes :: go fuel rest
        | none => .char '[' :: go fuel rest
      else .char c :: go fuel rest

/-- Whether a pattern describes a text. -/
def accepts : Pattern → List Char → Bool
  | [], s => s.isEmpty
  | .any :: more, s => anywhere (accepts more) s
  | .one :: more, s =>
    match s with
    | [] => false
    | _ :: rest => accepts more rest
  | .char c :: more, s =>
    match s with
    | [] => false
    | d :: rest => c == d && accepts more rest
  | .set isNegated ranges classes :: more, s =>
    match s with
    | [] => false
    | d :: rest => inSet isNegated ranges classes d && accepts more rest
where
  /-- Whether a test holds of some rest of a text. -/
  anywhere (test : List Char → Bool) : List Char → Bool
    | [] => test []
    | c :: rest => test (c :: rest) || anywhere test rest

/-- The lengths of the starts of a text that a pattern describes. -/
def startLengths (pattern : Pattern) (s : List Char) : List Nat :=
  (List.range (s.length + 1)).filter fun n => pattern.accepts (s.take n)

/-- A text without its shortest or longest start that a pattern describes. -/
def withoutStart (longest : Bool) (pattern : Pattern) (s : List Char) : List Char :=
  let lengths := pattern.startLengths s
  match if longest then lengths.getLast? else lengths.head? with
  | some n => s.drop n
  | none => s

/-- A text without its shortest or longest end that a pattern describes. -/
def withoutEnd (longest : Bool) (pattern : Pattern) (s : List Char) : List Char :=
  let lengths := (List.range (s.length + 1)).filter fun n => pattern.accepts (s.drop n)
  match if longest then lengths.head? else lengths.getLast? with
  | some n => s.take n
  | none => s

/-- Whether a word holds a sign of a pattern that is not quoted. -/
def isWritten (s : List Marked) : Bool := s.any fun c => !c.quoted && "*?[".toList.contains c.char

end Pattern

end WasmPackaging.Shell
