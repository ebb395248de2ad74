import WasmPackaging.Shell.Tools.Arguments
import WasmPackaging.Shell.Arithmetic

/-!
Conditions on texts, numbers and files, as the command between square brackets states them.
-/

namespace WasmPackaging.Shell

open Text

/-- What an operator of a condition stands for: one operand, two operands, or the structure around. -/
inductive OperatorKind where
  | one
  | two
  | structural
  deriving DecidableEq

/-- The operators of conditions. -/
def conditionOperators : List (String × OperatorKind) :=
  ["-r", "-w", "-x", "-e", "-f", "-d", "-c", "-b", "-p", "-u", "-g", "-k", "-s", "-t", "-z", "-n", "-h",
      "-O", "-G", "-L", "-S"].map (·, .one) ++
    ["=", "!=", "<", ">", "-eq", "-ne", "-ge", "-gt", "-le", "-lt", "-nt", "-ot", "-ef"].map (·, .two) ++
    ["!", "-a", "-o", "(", ")"].map (·, .structural)

/-- The kind of operator that a text is. -/
def operatorKind? (s : String) : Option OperatorKind := conditionOperators.lookup s

/-- Whether a text that is an operator stands for itself, given what is behind it. -/
def isOperand : List String → Bool
  | [] => true
  | [_] => false
  | next :: _ => operatorKind? next == some .two

/-- The operator that the first of some texts is. -/
def leadingOperator? : List String → Option (String × OperatorKind)
  | [] => none
  | s :: rest =>
    match operatorKind? s with
    | none => none
    | some kind =>
      if (kind == .one && isOperand rest) || (s == "(" && rest.isEmpty) then none else some (s, kind)

/-- Whether the first of some texts is a certain operator. -/
def leads (operator : String) (s : List String) : Bool :=
  (leadingOperator? s).any fun found => found.1 == operator

/-- Why a text states no condition. -/
def wrongCondition {α : Type} (operator cause : String) : Except String α :=
  .error (if operator = "" then cause else s!"{operator}: {cause}")

/-- The number that an operand writes in decimal digits. -/
def operandNumber (s : String) : Except String Int :=
  let t := s.toList.dropWhile isNumberSpace
  let digits := (unsigned t).takeWhile Char.isDigit
  if !digits.isEmpty && ((unsigned t).drop digits.length).all isNumberSpace then
    let n : Int := digits.foldl (fun n c => n * 10 + (c.toNat - '0'.toNat)) 0
    .ok (if isNegative t then -n else n)
  else .error s!"Illegal number: {s}"

/-- A question about files, which a condition asks. -/
structure FileQuestions where
  files : FileTree
  directory : Path
  isExecutable : String → Bool

namespace FileQuestions

/-- The path that an operand names. -/
def path (q : FileQuestions) (s : String) : Path := q.directory.join (.ofString (toText s))

/-- Whether a condition on a file holds. -/
def holds (q : FileQuestions) (operator file : String) : Bool :=
  if file == "" then false
  else if file == Act.nullFile then ["-e", "-r", "-w", "-c"].contains operator
  else
    let leads := q.files.follow (q.path file)
    match operator, leads with
    | "-h", _ | "-L", _ =>
      match q.files.locate (q.path file) with
      | .ok (.entry _ (.link _)) => true
      | _ => false
    | "-f", .ok (.entry _ (.file _)) => true
    | "-s", .ok (.entry _ (.file content)) => !content.isEmpty
    | "-s", .ok (.entry _ _) => true
    | "-d", .ok (.entry _ .directory) => true
    | "-x", .ok (.entry _ .directory) => true
    | "-x", .ok (.entry _ _) => q.isExecutable file
    | "-e", .ok (.entry _ _) | "-r", .ok (.entry _ _) | "-w", .ok (.entry _ _) | "-O", .ok (.entry _ _)
    | "-G", .ok (.entry _ _) => true
    | _, _ => false

/-- Whether an operator holds of two operands. -/
def holdsOfTwo (q : FileQuestions) (operator a b : String) : Except String Bool := do
  match operator with
  | "=" => return a == b
  | "!=" => return a != b
  | "<" => return decide (a < b)
  | ">" => return decide (b < a)
  | "-ef" => return q.files.isSame (q.path a) (q.path b)
  | "-nt" => return q.holds "-e" a && !q.holds "-e" b
  | "-ot" => return !q.holds "-e" a && q.holds "-e" b
  | _ =>
    let n ← operandNumber a
    let m ← operandNumber b
    match operator with
    | "-eq" => return n == m
    | "-ne" => return n != m
    | "-lt" => return decide (n < m)
    | "-le" => return decide (n ≤ m)
    | "-gt" => return decide (m < n)
    | _ => return decide (m ≤ n)

mutual

/-- Whether one of some conditions holds, and the texts from the last one read on. -/
def either (q : FileQuestions) : Nat → List String → Except String (Bool × List String)
  | 0, s => .ok (false, s)
  | fuel + 1, s => do
    let (a, s) ← q.both fuel s
    if leads "-o" (s.drop 1) then
      let (b, s) ← q.either fuel (s.drop 2)
      return (a || b, s)
    else return (a, s)
termination_by structural fuel => fuel

/-- Whether all of some conditions hold. -/
def both (q : FileQuestions) : Nat → List String → Except String (Bool × List String)
  | 0, s => .ok (false, s)
  | fuel + 1, s => do
    let (a, s) ← q.negated fuel s
    if leads "-a" (s.drop 1) then
      let (b, s) ← q.both fuel (s.drop 2)
      return (a && b, s)
    else return (a, s)
termination_by structural fuel => fuel

/-- Whether a condition holds, or fails to behind a mark. -/
def negated (q : FileQuestions) : Nat → List String → Except String (Bool × List String)
  | 0, s => .ok (false, s)
  | fuel + 1, s =>
    if leads "!" s then
      (q.negated fuel (if s.length > 1 then s.drop 1 else s.drop 1)).map fun (a, rest) => (!a, rest)
    else q.primary fuel s
termination_by structural fuel => fuel

/-- Whether a condition holds that is none of others, or is in brackets. -/
def primary (q : FileQuestions) : Nat → List String → Except String (Bool × List String)
  | 0, s => .ok (false, s)
  | fuel + 1, s =>
    match s, leadingOperator? s with
    | [], _ => .ok (false, [])
    | _ :: rest, some ("(", _) =>
      if leads ")" rest then .ok (false, rest)
      else do
        let (a, s) ← q.either fuel rest
        if leads ")" (s.drop 1) then return (a, s.drop 1)
        else wrongCondition "" "closing paren expected"
    | _ :: rest, some (operator, .one) =>
      match rest with
      | [] => wrongCondition operator "argument expected"
      | operand :: more =>
        if operator == "-z" then .ok (operand == "", operand :: more)
        else if operator == "-n" then .ok (operand != "", operand :: more)
        else if operator == "-t" then do
          let _ ← operandNumber operand
          return (false, operand :: more)
        else .ok (q.holds operator operand, operand :: more)
    | a :: rest, _ =>
      match leadingOperator? rest with
      | some (operator, .two) =>
        match rest.drop 1 with
        | [] => wrongCondition operator "argument expected"
        | b :: more => (q.holdsOfTwo operator a b).map (·, b :: more)
      | _ => .ok (a != "", a :: rest)
termination_by structural fuel => fuel

end

/-- Whether some texts state a condition that holds. -/
def answer (q : FileQuestions) : Nat → List String → Except String Bool
  | 0, _ => .ok false
  | _, [] => .ok false
  | fuel + 1, s => do
    let whole (s : List String) : Except String Bool := do
      let (a, rest) ← q.either (4 * s.length + 8) s
      match rest with
      | last :: _ :: _ => wrongCondition last "unexpected operator"
      | _ => return a
    match s with
    | [a, operator, b] =>
      if operatorKind? operator == some .two then q.holdsOfTwo operator a b
      else if a == "(" && b == ")" then whole [operator]
      else if a == "!" then return !(← q.answer fuel [operator, b])
      else whole s
    | [a, b, c, d] =>
      if a == "(" && d == ")" then whole [b, c]
      else if a == "!" then return !(← q.answer fuel [b, c, d])
      else whole s
    | s => whole s

end FileQuestions

/-- Succeeds if its arguments state a condition that holds. -/
def test (complain : String → Act Unit) : Tool := fun arguments => do
  let p ← get
  let files ← Act.files
  let isExecutable (name : String) : Bool :=
    match files.follow (p.directory.join (.ofString (toText name))) with
    | .ok (.entry location _) => p.executables.contains location
    | _ => false
  match FileQuestions.answer ⟨files, p.directory, isExecutable⟩ (arguments.length + 1) arguments with
  | .ok holds => Act.ended (if holds then 0 else 1)
  | .error cause => do
    complain cause
    Act.ended 2

/-- The same between square brackets, of which the last one is called by a name. -/
def bracketTest (bracket : String) (complain : String → Act Unit) : Tool := fun arguments => do
  if arguments.getLast? == some "]" then test complain arguments.dropLast
  else
    complain s!"missing {bracket}"
    Act.ended 2

end WasmPackaging.Shell
