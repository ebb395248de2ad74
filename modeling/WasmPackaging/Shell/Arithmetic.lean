import WasmPackaging.Shell.Process
import WasmPackaging.Text.Number

/-!
Whole-number expressions of the shell, in words of 64 bits. An expression is evaluated as it is read, so
that what is wrong with a part of it is noticed before what is wrong behind.
-/

namespace WasmPackaging.Shell

open Text

/-- A number as a signed word of 64 bits. -/
def asWord (n : Int) : Int := n.bmod (Nat.pow 2 64)

/-- A number cut to what a signed word of 64 bits can hold. -/
def withinWord (n : Int) : Int := max (-(Nat.pow 2 63 : Int)) (min n ((Nat.pow 2 63 : Int) - 1))

/-- The truth of a condition as a number. -/
def truthNumber (b : Bool) : Int := if b then 1 else 0

/-- The number at the start of a text, in base sixteen behind a zero and an x and in base eight behind a
zero, and what is behind it. -/
def leadingNumber (s : List Char) : Int × List Char :=
  let read (base : Nat) (isDigit : Char → Bool) (s : List Char) : Int × List Char :=
    let digits := s.takeWhile isDigit
    (withinWord ((digits.foldl (fun n c => n * base + (digitOfBase? 16 c).getD 0) 0 : Nat) : Int),
      s.drop digits.length)
  match s with
  | '0' :: x :: rest =>
    if (x == 'x' || x == 'X') && rest.head?.any (inHex ·) then read 16 inHex rest
    else read 8 (fun c => '0' ≤ c && c ≤ '7') s
  | _ => read 10 Char.isDigit s
where
  /-- Whether a character is a digit of base sixteen. -/
  inHex (c : Char) : Bool := c.isDigit || ('a' ≤ c && c ≤ 'f') || ('A' ≤ c && c ≤ 'F')

/-- Whether a character is a blank around numbers. -/
def isNumberSpace (c : Char) : Bool := c == ' ' || ('\t' ≤ c && c ≤ '\r')

/-- The number that a whole text writes, if it does; a blank text counts as zero. -/
def wholeText? (s : List Char) : Option Int :=
  let s := s.dropWhile isNumberSpace
  let digits := unsigned s
  let (n, rest) := leadingNumber digits
  if rest.all isNumberSpace && (digits.head?.any Char.isDigit || s = []) then
    some (if isNegative s then -n else n)
  else none

/-- A part of an expression. -/
inductive ExpressionPart where
  | number (value : Int)
  | name (name : String)
  | sign (text : String)
  deriving DecidableEq

/-- The signs of expressions, longer ones first. -/
def expressionSigns : List String :=
  ["<<=", ">>=", "+=", "-=", "*=", "/=", "%=", "&=", "|=", "^=", "==", "!=", "<=", ">=", "<<", ">>", "&&",
    "||", "=", "!", "<", ">", "&", "|", "^", "+", "-", "*", "/", "%", "~", "?", ":", "(", ")"]

/-- The parts of an expression. What is none of them is a sign that nothing knows. -/
def expressionParts : Nat → List Char → List ExpressionPart
  | 0, _ => []
  | fuel + 1, s =>
    match s.dropWhile isNumberSpace with
    | [] => []
    | c :: rest =>
      let s := c :: rest
      if c.isDigit then
        let (n, rest) := leadingNumber s
        .number n :: expressionParts fuel rest
      else if c.isAlpha || c == '_' then
        let name := s.takeWhile fun c => c.isAlphanum || c == '_'
        .name (String.ofList name) :: expressionParts fuel (s.drop name.length)
      else
        let sign := (expressionSigns.find? fun sign => sign.toList.isPrefixOf s).getD (String.singleton c)
        .sign sign :: expressionParts fuel (s.drop sign.length)

/-- The operators between two operands, those that bind least first. -/
def operatorLevels : List (List String) :=
  [["|"], ["^"], ["&"], ["==", "!="], ["<", ">", "<=", ">="], ["<<", ">>"], ["+", "-"], ["*", "/", "%"]]

/-- The value of an operator; nothing for a division by zero. -/
def applyOperator (operator : String) (a b : Int) : Option Int :=
  let bits (n : Int) : BitVec 64 := BitVec.ofInt 64 n
  match operator with
  | "==" => some (truthNumber (a == b))
  | "!=" => some (truthNumber (a != b))
  | "<=" => some (truthNumber (a ≤ b))
  | ">=" => some (truthNumber (b ≤ a))
  | "<" => some (truthNumber (a < b))
  | ">" => some (truthNumber (b < a))
  | "+" => some (asWord (a + b))
  | "-" => some (asWord (a - b))
  | "*" => some (asWord (a * b))
  | "/" => if b = 0 then none else some (asWord (a.tdiv b))
  | "%" => if b = 0 then none else some (a.tmod b)
  | "&" => some (bits a &&& bits b).toInt
  | "|" => some (bits a ||| bits b).toInt
  | "^" => some (bits a ^^^ bits b).toInt
  | "<<" => some (bits a <<< (b % 64).toNat).toInt
  | ">>" => some ((bits a).sshiftRight (b % 64).toNat).toInt
  | _ => none

/-- An expression that is evaluated: its text, and the parts that are left. -/
structure Evaluation where
  text : String
  rest : List ExpressionPart

/-- A step of evaluating an expression. -/
abbrev Evaluating := StateT Evaluation Act

namespace Evaluating

/-- Fails. -/
def fail {α : Type} (cause : String) : Evaluating α := do
  let text := (← get).text
  (Act.abort s!"arithmetic expression: {cause}: \"{text}\"" : Act α)

/-- Passes over a sign if it comes next. -/
def takeSign (sign : String) : Evaluating Bool := do
  let s ← get
  match s.rest with
  | .sign other :: rest =>
    if other == sign then
      set { s with rest }
      return true
    else return false
  | _ => return false

/-- Takes one of some signs if it comes next. -/
def takeOneOf (signs : List String) : Evaluating (Option String) := do
  let s ← get
  match s.rest with
  | .sign other :: rest =>
    if signs.contains other then
      set { s with rest }
      return some other
    else return none
  | _ => return none

/-- The number that a variable holds. -/
def numberOf (name : String) : Act Int := do
  match ← Act.valueOf? name with
  | none =>
    if ← Act.option 'u' then Act.abort s!"{name}: parameter not set" else return 0
  | some value => match wholeText? value.toList with
    | some n => return n
    | none => Act.abort s!"Illegal number: {value}"

/-- The signs that assign, with the operators that they apply. -/
def assigning : List (String × Option String) :=
  [("=", none)] ++ ["*", "/", "%", "+", "-", "<<", ">>", "&", "^", "|"].map fun op => (op ++ "=", some op)

/-- Applies an operator, unless the values do not count. -/
def apply (counts : Bool) (operator : String) (a b : Int) : Evaluating Int := do
  if !counts then return b
  else match applyOperator operator a b with
    | some n => return n
    | none => fail "division by zero"

mutual

/-- The value of an assignment, or of a choice. Where values do not count nothing is assigned. -/
def assignment (counts : Bool) : Nat → Evaluating Int
  | 0 => return 0
  | fuel + 1 => do
    let s ← get
    match s.rest with
    | .name name :: .sign sign :: rest =>
      match assigning.lookup sign with
      | some operator => do
        set { s with rest }
        let value ← assignment counts fuel
        if !counts then return value
        else
          let value ← match operator with
            | none => pure value
            | some operator => apply true operator (← numberOf name) value
          Act.assign name (toString value)
          return value
      | none => choice counts fuel
    | _ => choice counts fuel
termination_by structural fuel => fuel

/-- The value of a choice between two values, or of a condition. -/
def choice (counts : Bool) : Nat → Evaluating Int
  | 0 => return 0
  | fuel + 1 => do
    let condition ← either counts fuel
    if ← takeSign "?" then
      let yes ← assignment (counts && condition != 0) fuel
      if ← takeSign ":" then
        let no ← choice (counts && condition == 0) fuel
        return if condition != 0 then yes else no
      else fail "expecting ':'"
    else return condition
termination_by structural fuel => fuel

/-- The value of conditions of which one has to hold. -/
def either (counts : Bool) : Nat → Evaluating Int
  | 0 => return 0
  | fuel + 1 => do
    let a ← both counts fuel
    if ← takeSign "||" then
      let b ← either (counts && a == 0) fuel
      return truthNumber (a != 0 || b != 0)
    else return a
termination_by structural fuel => fuel

/-- The value of conditions all of which have to hold. -/
def both (counts : Bool) : Nat → Evaluating Int
  | 0 => return 0
  | fuel + 1 => do
    let a ← operands counts operatorLevels fuel
    if ← takeSign "&&" then
      let b ← both (counts && a != 0) fuel
      return truthNumber (a != 0 && b != 0)
    else return a
termination_by structural fuel => fuel

/-- The value of operands with operators of some levels between them. -/
def operands (counts : Bool) (levels : List (List String)) : Nat → Evaluating Int
  | 0 => return 0
  | fuel + 1 =>
    match levels with
    | [] => primary counts fuel
    | level :: tighter => do
      let a ← operands counts tighter fuel
      moreOperands counts level tighter a fuel
termination_by structural fuel => fuel

/-- The value of an operand and those that operators of a level join to it. -/
def moreOperands (counts : Bool) (level : List String) (tighter : List (List String)) (a : Int) :
    Nat → Evaluating Int
  | 0 => return a
  | fuel + 1 => do
    match ← takeOneOf level with
    | none => return a
    | some operator =>
      let b ← operands counts tighter fuel
      moreOperands counts level tighter (← apply counts operator a b) fuel
termination_by structural fuel => fuel

/-- The value of a number, a name, a part in brackets, or one of these behind a sign. -/
def primary (counts : Bool) : Nat → Evaluating Int
  | 0 => return 0
  | fuel + 1 => do
    let s ← get
    match s.rest with
    | .number n :: rest =>
      set { s with rest }
      return n
    | .name name :: rest =>
      set { s with rest }
      if counts then (numberOf name : Act Int) else return 0
    | .sign sign :: rest =>
      set { s with rest }
      match sign with
      | "(" =>
        let n ← assignment counts fuel
        if ← takeSign ")" then return n else fail "expecting ')'"
      | "+" => primary counts fuel
      | "-" => return asWord (-(← primary counts fuel))
      | "!" => return truthNumber ((← primary counts fuel) == 0)
      | "~" => return -1 - (← primary counts fuel)
      | _ => fail "expecting primary"
    | [] => fail "expecting primary"
termination_by structural fuel => fuel

end

end Evaluating

/-- The value of an expression. -/
def evaluate (text : String) : Act Int := do
  let parts := expressionParts (text.length + 1) text.toList
  let (n, s) ← (Evaluating.assignment true (16 * parts.length + 16)).run ⟨text, parts⟩
  if s.rest = [] then return n else Act.abort s!"arithmetic expression: expecting EOF: \"{text}\""

end WasmPackaging.Shell
