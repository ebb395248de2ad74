import WasmPackaging.Shell.Regex
import WasmPackaging.Shell.Tools.Arguments
import WasmPackaging.Shell.Tools.Printing

/-!
Expressions that are written as arguments: a value for each, and operators between them.
-/

namespace WasmPackaging.Shell

open Text

namespace ArgumentExpression

/-- A value with the arguments behind it. -/
abbrev Reading := Except String (String × List String)

/-- The number that a value is, if it is one. -/
def number? (value : String) : Option Int :=
  match value.toList with
  | '-' :: digits => if !digits.isEmpty && digits.all Char.isDigit then some (-(decimal digits : Int)) else none
  | digits => if !digits.isEmpty && digits.all Char.isDigit then some (decimal digits) else none

/-- Whether a value counts as nothing: it is empty or zero. -/
def isNull (value : String) : Bool :=
  match value.toList with
  | [] => true
  | ['-'] => false
  | '-' :: digits => digits.all (· == '0')
  | digits => digits.all (· == '0')

/-- The characters of a value, without the stray octets in it. -/
def lengthOf (value : String) : Nat := (widen value.toList).length

/-- What a pattern matches at the start of a value: its group if it has one, else how long the match is. -/
def matched (value pattern : String) : Except String String :=
  match CompiledRegex.read false false false (widen pattern.toList) with
  | .error fault => .error fault.message
  | .ok r =>
    let text := MatchedText.ofList r (widen value.toList)
    match r.matchAt? text 0 with
    | some m =>
      .ok (if r.groups = 0 then toString m.stop
        else String.ofList (narrow (m.group (widen value.toList).toArray 1)))
    | none => .ok (if r.groups = 0 then "0" else "")

/-- The places of a value from a place on, counted from one. -/
def part (value start size : String) : String :=
  match number? start, number? size with
  | some start, some size =>
    if start ≤ 0 || size ≤ 0 then ""
    else String.ofList (narrow (((widen value.toList).drop (start.toNat - 1)).take size.toNat))
  | _, _ => ""

/-- The first place of a value at which one of some characters stands, counted from one, or zero. -/
def place (value chars : String) : Nat :=
  let wanted := widen chars.toList
  match (widen value.toList).findIdx? wanted.contains with
  | some i => i + 1
  | none => 0

/-- The result of an operator between numbers, or of a comparison of any values. -/
def apply (operator a b : String) : Except String String :=
  let truth (b : Bool) : String := if b then "1" else "0"
  let compared (order : Ordering) : Except String String :=
    match operator with
    | "<" => .ok (truth (order == .lt))
    | "<=" => .ok (truth (order != .gt))
    | "=" | "==" => .ok (truth (order == .eq))
    | "!=" => .ok (truth (order != .eq))
    | ">=" => .ok (truth (order != .lt))
    | _ => .ok (truth (order == .gt))
  if ["<", "<=", "=", "==", "!=", ">=", ">"].contains operator then
    match number? a, number? b with
    | some x, some y => compared (compare x y)
    | _, _ => compared (compare a b)
  else
    match number? a, number? b with
    | some x, some y =>
      match operator with
      | "+" => .ok (toString (x + y))
      | "-" => .ok (toString (x - y))
      | "*" => .ok (toString (x * y))
      | operator =>
        if y = 0 then .error "division by zero"
        else .ok (toString (if operator == "/" then x.tdiv y else x.tmod y))
    | _, _ => .error "non-integer argument"

/-- The operators between two values, the loosest first. -/
def levels : List (List String) :=
  [["|"], ["&"], ["<", "<=", "=", "==", "!=", ">=", ">"], ["+", "-"], ["*", "/", "%"], [":"]]

/-- Complains that an argument is missing behind the last one. -/
def missing {α : Type} (whole : List String) : Except String α :=
  .error ("syntax error: missing argument after " ++ curlyQuoted (whole.getLastD ""))

/-- The result of an operator. -/
def combined (operator a b : String) : Except String String :=
  match operator with
  | "|" => .ok (if !isNull a then a else if isNull b then "0" else b)
  | "&" => .ok (if isNull a || isNull b then "0" else a)
  | ":" => matched a b
  | operator => apply operator a b

mutual

/-- Reads operators of some levels with their values. Where `counts` does not hold, the value does not
matter. -/
def operands (whole : List String) (counts : Bool) :
    Nat → List (List String) → List String → Reading
  | 0, _, rest => .ok ("", rest)
  | fuel + 1, [], rest => keyword whole counts fuel rest
  | fuel + 1, level :: tighter, rest => do
    let (a, rest) ← operands whole counts fuel tighter rest
    more whole counts fuel level tighter a rest
termination_by structural fuel => fuel

/-- Goes on with operators of a level. -/
def more (whole : List String) (counts : Bool) :
    Nat → List String → List (List String) → String → List String → Reading
  | 0, _, _, a, rest => .ok (a, rest)
  | fuel + 1, level, tighter, a, rest =>
    match rest with
    | operator :: behind =>
      if level.contains operator then do
        let decides := (operator == "|" && !isNull a) || (operator == "&" && isNull a)
        let (b, behind) ← operands whole (counts && !decides) fuel tighter behind
        let value ← if !counts then pure a
          else if decides then pure (if operator == "|" then a else "0")
          else combined operator a b
        more whole counts fuel level tighter value behind
      else .ok (a, rest)
    | [] => .ok (a, rest)
termination_by structural fuel => fuel

/-- Reads a value that a word may announce. -/
def keyword (whole : List String) (counts : Bool) : Nat → List String → Reading
  | 0, rest => .ok ("", rest)
  | fuel + 1, rest =>
    match rest with
    | "+" :: behind =>
      match behind with
      | value :: behind => .ok (value, behind)
      | [] => missing whole
    | "length" :: behind => do
      let (value, behind) ← keyword whole counts fuel behind
      return (toString (lengthOf value), behind)
    | "match" :: behind => do
      let (value, behind) ← keyword whole counts fuel behind
      let (pattern, behind) ← keyword whole counts fuel behind
      return (← if counts then matched value pattern else pure value, behind)
    | "index" :: behind => do
      let (value, behind) ← keyword whole counts fuel behind
      let (chars, behind) ← keyword whole counts fuel behind
      return (toString (place value chars), behind)
    | "substr" :: behind => do
      let (value, behind) ← keyword whole counts fuel behind
      let (start, behind) ← keyword whole counts fuel behind
      let (size, behind) ← keyword whole counts fuel behind
      return (part value start size, behind)
    | "(" :: behind => do
      let (value, behind) ← operands whole counts fuel levels behind
      match behind with
      | ")" :: behind => return (value, behind)
      | [] => throw ("syntax error: expecting ')' after " ++ curlyQuoted (whole.getLastD ""))
      | other :: _ => throw ("syntax error: expecting ')' instead of " ++ curlyQuoted other)
    | ")" :: _ => .error "syntax error: unexpected ')'"
    | value :: behind => .ok (value, behind)
    | [] => missing whole
termination_by structural fuel => fuel

end

end ArgumentExpression

/-- Writes the value of an expression. -/
def expr : Tool := fun arguments => do
  let arguments := if arguments.head? == some "--" then arguments.drop 1 else arguments
  if arguments.isEmpty then
    Act.failing 2 "expr: missing operand\nTry 'expr --help' for more information."
  else
    let fuel := 12 * arguments.length + 20
    match ArgumentExpression.operands arguments true fuel ArgumentExpression.levels arguments with
    | .error cause => Act.failing 2 s!"expr: {cause}"
    | .ok (_, extra :: _) =>
      Act.failing 2 ("expr: syntax error: unexpected argument " ++ curlyQuoted extra)
    | .ok (value, []) =>
      Act.say (value ++ "\n")
      Act.ended (if ArgumentExpression.isNull value then 1 else 0)

end WasmPackaging.Shell
