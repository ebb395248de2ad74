import WasmPackaging.Shell.Pattern
import WasmPackaging.Text.Word

/-!
Regular expressions as tools know them, in the basic and the extended form. A match is the longest of those
that start first; of its groups, each is as long as the ones before it let it be. An expression that refers
to its own groups is matched by trying.
-/

namespace WasmPackaging.Shell

open Text

/-- A place between characters that an expression can ask for. -/
inductive Edge where
  | start
  | stop
  | lineStart
  | lineStop
  | wordStart
  | wordStop
  | word
  | noWord
  deriving DecidableEq

/-- A regular expression. -/
inductive Regex where
  | empty
  | char (c : Char)
  | any
  | oneOf (isNegated : Bool) (ranges : List (Char × Char)) (classes : List String)
  | edge (edge : Edge)
  | group (number : Nat) (body : Regex)
  | sequence (first second : Regex)
  | either (first second : Regex)
  | repeated (least : Nat) (most : Option Nat) (body : Regex)
  | back (number : Nat)
  deriving DecidableEq

/-- An expression with what is to be known to match it: whether letters match in either case, and whether
lines within a text have starts and ends of their own. -/
structure CompiledRegex where
  regex : Regex
  groups : Nat
  folds : Bool := false
  inLines : Bool := false

/-! ## Reading -/

/-- Why a text is no regular expression. -/
inductive RegexFault where
  | openGroup
  | openSet
  | openCount
  | strayClose
  | badCount
  | nothingBefore
  | trailingBackslash
  | badReference
  | badRange
  | badClass
  deriving DecidableEq

/-- The wording of a fault. -/
def RegexFault.message : RegexFault → String
  | .openGroup => "Unmatched ( or \\("
  | .openSet => "Unmatched [, [^, [:, [., or [="
  | .openCount => "Unmatched \\\x7b"
  | .strayClose => "Unmatched ) or \\)"
  | .badCount => "Invalid content of \\\x7b\\\x7d"
  | .nothingBefore => "Invalid preceding regular expression"
  | .trailingBackslash => "Trailing backslash"
  | .badReference => "Invalid back reference"
  | .badRange => "Invalid range end"
  | .badClass => "Invalid character class name"

namespace Regex

/-- Whether a character may be part of a word. -/
def isWordChar (c : Char) : Bool := c == '_' || (!isStray c && isWord c)

/-- Whether a character belongs to a class of an expression. -/
def classHolds (name : String) (c : Char) : Bool :=
  if name == "word" then isWordChar c
  else if c.toNat < 0x80 then inClass name c
  else !isStray c && (name == "print" || name == "graph" || ((name == "alpha" || name == "alnum") && isWord c))

/-- The names of classes. -/
def classes : List String :=
  ["alpha", "digit", "alnum", "upper", "lower", "space", "blank", "punct", "print", "graph", "cntrl", "xdigit"]

/-- The members of a set up to its closing bracket. -/
def setMembers (first : Bool) :
    Nat → List Char → Except RegexFault (List (Char × Char) × List String × List Char)
  | 0, _ => .error .openSet
  | fuel + 1, s =>
    let withRange (low high : Char) (rest : List Char) :
        Except RegexFault (List (Char × Char) × List String × List Char) :=
      if high < low then .error .badRange
      else (setMembers false fuel rest).map fun (ranges, more) => ((low, high) :: ranges, more)
    match s with
    | [] => .error .openSet
    | '[' :: ':' :: rest =>
      let name := String.ofList (rest.takeWhile Char.isAlpha)
      match rest.drop name.length with
      | ':' :: ']' :: rest =>
        if Regex.classes.contains name then
          (setMembers false fuel rest).map fun (ranges, classes, more) => (ranges, name :: classes, more)
        else .error .badClass
      | _ => .error .openSet
    | '[' :: '.' :: c :: '.' :: ']' :: rest | '[' :: '=' :: c :: '=' :: ']' :: rest => withRange c c rest
    | ']' :: rest => if first then withRange ']' ']' rest else .ok ([], [], rest)
    | low :: '-' :: ']' :: rest => withRange low low ('-' :: ']' :: rest)
    | low :: '-' :: '[' :: '.' :: high :: '.' :: ']' :: rest => withRange low high rest
    | low :: '-' :: high :: rest => withRange low high rest
    | c :: rest => withRange c c rest

/-- Two expressions one behind the other. -/
def before : Regex → Regex → Regex
  | .empty, r => r
  | r, .empty => r
  | r, s => .sequence r s

/-- What has been read of an expression: what is left of its text, and how many groups were opened. -/
structure Reading where
  rest : List Char
  groups : Nat := 0

/-- A step of reading an expression. -/
abbrev Reader := StateT Reading (Except RegexFault)

/-- Reads the counts of a repetition, if its text has the right form. -/
def counts? (extended : Bool) (s : List Char) : Option (Nat × Option Nat × List Char) :=
  let low := s.takeWhile Char.isDigit
  let behind := s.drop low.length
  let (most, behind) : Option Nat × List Char := match behind with
    | ',' :: rest =>
      let high := rest.takeWhile Char.isDigit
      (if high.isEmpty then none else some (decimal high), rest.drop high.length)
    | rest => (some (decimal low), rest)
  let hasComma := behind.length + low.length < s.length
  if low.isEmpty && !hasComma then none
  else match extended, behind with
    | true, '\x7d' :: rest | false, '\\' :: '\x7d' :: rest => some (decimal low, most, rest)
    | _, _ => none
where
  /-- The number that some digits write. -/
  decimal (digits : List Char) : Nat := digits.foldl (fun n c => n * 10 + (c.toNat - '0'.toNat)) 0

mutual

/-- Reads alternatives. -/
def alternatives (extended : Bool) (depth : Nat) : Nat → Reader Regex
  | 0 => return .empty
  | fuel + 1 => do
    let first ← branch extended depth true .empty fuel
    let s ← get
    match extended, s.rest with
    | true, '|' :: rest | false, '\\' :: '|' :: rest =>
      set { s with rest }
      return .either first (← alternatives extended depth fuel)
    | _, _ => return first
termination_by structural fuel => fuel

/-- Reads what stands behind the start of an alternative. -/
def branch (extended : Bool) (depth : Nat) (isStart : Bool) (done : Regex) : Nat → Reader Regex
  | 0 => return done
  | fuel + 1 => do
    let s ← get
    let take (n : Nat) : Reader Unit := modify fun s => { s with rest := s.rest.drop n }
    let add (r : Regex) : Reader Regex := do
      branch extended depth false (done.before (← repetitions extended r fuel)) fuel
    let edge (n : Nat) (e : Edge) : Reader Regex := do
      take n
      branch extended depth (isStart && e == .lineStart) (done.before (.edge e)) fuel
    let group (n : Nat) : Reader Regex := do
      set { s with rest := s.rest.drop n, groups := s.groups + 1 }
      let body ← alternatives extended (depth + 1) fuel
      let t ← get
      match extended, t.rest with
      | true, ')' :: rest | false, '\\' :: ')' :: rest =>
        set { t with rest }
        add (.group (s.groups + 1) body)
      | _, _ => throw .openGroup
    match s.rest with
    | [] => return done
    | '\\' :: rest =>
      match rest with
      | [] => throw .trailingBackslash
      | c :: _ =>
        if !extended && c == '|' then return done
        else if !extended && c == ')' then
          if depth > 0 then return done else throw .strayClose
        else if !extended && c == '(' then group 2
        else if !extended && c == '\x7b' then
          if isStart then throw .nothingBefore else throw .openCount
        else if c.isDigit && c != '0' then
          if c.toNat - '0'.toNat > s.groups then throw .badReference
          else
            take 2
            add (.back (c.toNat - '0'.toNat))
        else match c with
          | 'w' | 'W' | 's' | 'S' => do
            take 2
            add (.oneOf c.isUpper [] [if c.toLower == 'w' then "word" else "space"])
          | 'b' => edge 2 .word
          | 'B' => edge 2 .noWord
          | '<' => edge 2 .wordStart
          | '>' => edge 2 .wordStop
          | '\x60' => edge 2 .start
          | '\'' => edge 2 .stop
          | 'n' => do
            take 2
            add (.char '\n')
          | 't' => do
            take 2
            add (.char '\t')
          | c => do
            take 2
            if !extended && isStart && (c == '+' || c == '?') then add (.char c) else add (.char c)
    | '[' :: rest =>
      let (isNegated, members) := match rest with
        | '^' :: members => (true, members)
        | members => (false, members)
      let (ranges, classes, rest) ← (setMembers true (members.length + 1) members : Except RegexFault _)
      set { s with rest }
      add (.oneOf isNegated ranges classes)
    | '.' :: _ =>
      take 1
      add .any
    | '^' :: _ =>
      if extended || isStart then edge 1 .lineStart
      else
        take 1
        add (.char '^')
    | '$' :: rest =>
      let isLast := match rest with
        | [] => true
        | '\\' :: c :: _ => c == ')' || c == '|'
        | _ => false
      if extended || isLast then edge 1 .lineStop
      else
        take 1
        add (.char '$')
    | c :: _ =>
      if extended && c == '(' then group 1
      else if extended && c == '|' then return done
      else if extended && c == ')' && depth > 0 then return done
      else if extended && (c == '+' || c == '?' || c == '*') && isStart then
        take 1
        branch extended depth isStart done fuel
      else if extended && c == '\x7b' && isStart && (counts? true (s.rest.drop 1)).isSome then
        throw .nothingBefore
      else
        take 1
        add (.char c)
termination_by structural fuel => fuel

/-- Reads the signs behind an expression that say how often it is repeated. -/
def repetitions (extended : Bool) (r : Regex) : Nat → Reader Regex
  | 0 => return r
  | fuel + 1 => do
    let s ← get
    let again (n least : Nat) (most : Option Nat) : Reader Regex := do
      set { s with rest := s.rest.drop n }
      repetitions extended (.repeated least most r) fuel
    let counted (n : Nat) : Reader Regex := do
      match counts? extended (s.rest.drop n) with
      | some (least, most, rest) =>
        if most.any (· < least) then throw .badCount
        else
          set { s with rest }
          repetitions extended (.repeated least most r) fuel
      | none =>
        if extended then return r
        else if (s.rest.drop n).contains '\x7d' then throw .badCount else throw .openCount
    match extended, s.rest with
    | _, '*' :: _ => again 1 0 none
    | true, '+' :: _ => again 1 1 none
    | true, '?' :: _ => again 1 0 (some 1)
    | true, '\x7b' :: _ => counted 1
    | false, '\\' :: '+' :: _ => again 2 1 none
    | false, '\\' :: '?' :: _ => again 2 0 (some 1)
    | false, '\\' :: '\x7b' :: _ => counted 2
    | _, _ => return r
termination_by structural fuel => fuel

end

end Regex

/-- The expression that a text of characters writes. -/
def CompiledRegex.read (extended folds inLines : Bool) (s : List Char) : Except RegexFault CompiledRegex := do
  let fuel := 8 * s.length + 32
  let (regex, reading) ← (Regex.alternatives extended 0 fuel).run ⟨s, 0⟩
  if reading.rest.isEmpty then return ⟨regex, reading.groups, folds, inLines⟩
  else throw .strayClose

/-! ## Matching -/

/-- A text in which matches are looked for. -/
structure MatchedText where
  chars : Array Char
  folds : Bool
  inLines : Bool

namespace MatchedText

/-- A text for an expression. -/
def ofList (compiled : CompiledRegex) (s : List Char) : MatchedText :=
  ⟨(if compiled.folds then s.map Char.toLower else s).toArray, compiled.folds, compiled.inLines⟩

/-- Whether the character before a place is part of a word. -/
def isWordBefore (t : MatchedText) (i : Nat) : Bool :=
  i > 0 && (t.chars[i - 1]?).any Regex.isWordChar

/-- Whether the character behind a place is part of a word. -/
def isWordBehind (t : MatchedText) (i : Nat) : Bool := (t.chars[i]?).any Regex.isWordChar

/-- Whether a place is what an expression asks for. -/
def isAt (t : MatchedText) (i : Nat) : Edge → Bool
  | .start => i == 0
  | .stop => i == t.chars.size
  | .lineStart => i == 0 || (t.inLines && t.chars[i - 1]? == some '\n')
  | .lineStop => i == t.chars.size || (t.inLines && t.chars[i]? == some '\n')
  | .wordStart => !t.isWordBefore i && t.isWordBehind i
  | .wordStop => t.isWordBefore i && !t.isWordBehind i
  | .word => t.isWordBefore i != t.isWordBehind i
  | .noWord => t.isWordBefore i == t.isWordBehind i

/-- Whether a character belongs to a set, in either case if cases do not count. -/
def inSet (t : MatchedText) (isNegated : Bool) (ranges : List (Char × Char)) (classes : List String)
    (c : Char) : Bool :=
  let holds (c : Char) : Bool :=
    ranges.any (fun range => range.1 ≤ c && c ≤ range.2) || classes.any (Regex.classHolds · c)
  isNegated != (holds c || (t.folds && (holds c.toUpper || holds c.toLower)))

/-- Whether an expression for one character describes the one behind a place; nothing for any other
expression. -/
def single? (t : MatchedText) : Regex → Option (Char → Bool)
  | .char c =>
    let wanted := if t.folds then c.toLower else c
    some (· == wanted)
  | .any => some fun c => !isStray c
  | .oneOf isNegated ranges classes => some (t.inSet isNegated ranges classes)
  | _ => none

/-- Two lists of places from the last to the first in one. -/
def union : List Nat → List Nat → List Nat
  | [], b => b
  | a, [] => a
  | x :: a, y :: b =>
    if x = y then x :: union a b
    else if x < y then y :: union (x :: a) b
    else x :: union a (y :: b)

/-- Places reached from some others by a step, again and again, as often as the fuel lets it. -/
def reached (step : Nat → List Nat) : Nat → List Nat → List Nat → List Nat
  | 0, done, _ => done
  | _, done, [] => done
  | fuel + 1, done, places =>
    let next := places.foldl (fun reached i => union reached (step i)) []
    let fresh := next.filter fun i => !done.contains i
    reached step fuel (union done fresh) fresh

/-- Places reached from some others by exactly so many steps. -/
def after (step : Nat → List Nat) : Nat → List Nat → List Nat
  | 0, places => places
  | n + 1, places => after step n (places.foldl (fun more i => union more (step i)) [])

/-- Where the matches of an expression that start at a place end, the last ones first. -/
def ends (t : MatchedText) : Regex → Nat → List Nat
  | .empty, i => [i]
  | .char c, i => if (t.chars[i]?).any fun d => d == if t.folds then c.toLower else c then [i + 1] else []
  | .any, i => if (t.chars[i]?).any (!isStray ·) then [i + 1] else []
  | .oneOf isNegated ranges classes, i =>
    if (t.chars[i]?).any (t.inSet isNegated ranges classes) then [i + 1] else []
  | .edge edge, i => if t.isAt i edge then [i] else []
  | .group _ body, i => ends t body i
  | .sequence first second, i => (ends t first i).foldl (fun places m => union places (ends t second m)) []
  | .either first second, i => union (ends t first i) (ends t second i)
  | .repeated least most body, i =>
    match t.single? body with
    | some holds =>
      let limit := match most with
        | some n => min n (t.chars.size - i)
        | none => t.chars.size - i
      let n := run holds limit i 0
      if n < least then [] else (List.range (n - least + 1)).map fun k => i + n - k
    | none =>
      let start := after (ends t body) least [i]
      match most with
      | some n => (List.range (n - least)).foldl (fun (all, last) _ =>
          let next := after (ends t body) 1 last
          (union all next, next)) (start, start) |>.1
      | none => reached (ends t body) (t.chars.size + 1) start start
  | .back _, _ => []
where
  /-- How many characters from a place on pass a test. -/
  run (holds : Char → Bool) : Nat → Nat → Nat → Nat
    | 0, _, n => n
    | limit + 1, i, n => if (t.chars[i]?).any holds then run holds limit (i + 1) (n + 1) else n

/-- The places of groups in a match, by their numbers. -/
abbrev Captures := List (Nat × Nat × Nat)

/-- The captures of a repetition between two places. -/
def repeatedCaptures (step : Nat → List Nat) (one : Nat → Nat → Captures → Captures) (stop : Nat) :
    Nat → Nat → Option Nat → Nat → Captures → Captures
  | 0, _, _, _, captures => captures
  | fuel + 1, least, most, i, captures =>
    if most = some 0 || (i = stop && least = 0) then captures
    else
      let reaches (m : Nat) : Bool :=
        let start := after step (least - 1) [m]
        match most with
        | none => (reached step (stop + 2 - m) start start).contains stop
        | some n =>
          ((List.range (n - 1 - (least - 1))).foldl (fun (all, last) _ =>
            let next := after step 1 last
            (union all next, next)) (start, start)).1.contains stop
      match (step i).find? fun m => m ≤ stop && (m > i || least > 0) && reaches m with
      | none => captures
      | some m =>
        repeatedCaptures step one stop fuel (least - 1) (most.map (· - 1)) m (one i m captures)

/-- The captures of a match between two places. -/
def captures (t : MatchedText) : Regex → Nat → Nat → Captures → Captures
  | .group number body, i, stop, done =>
    (number, i, stop) :: (captures t body i stop done).filter fun capture => capture.1 != number
  | .sequence first second, i, stop, done =>
    match (ends t first i).find? fun m => (ends t second m).contains stop with
    | some m => captures t second m stop (captures t first i m done)
    | none => done
  | .either first second, i, stop, done =>
    if (ends t first i).contains stop then captures t first i stop done else captures t second i stop done
  | .repeated least most body, i, stop, done =>
    if (t.single? body).isSome then done
    else repeatedCaptures (ends t body) (captures t body) stop (stop + least + 2) least most i done
  | _, _, _, done => done

/-- Matches that are found by trying: the first way on that a continuation accepts. -/
def tried (t : MatchedText) {α : Type} :
    Regex → Nat → Captures → (Nat → Captures → Option α) → Option α
  | .empty, i, done, next => next i done
  | .char c, i, done, next =>
    if (t.chars[i]?).any fun d => d == if t.folds then c.toLower else c then next (i + 1) done else none
  | .any, i, done, next => if (t.chars[i]?).any (!isStray ·) then next (i + 1) done else none
  | .oneOf isNegated ranges classes, i, done, next =>
    if (t.chars[i]?).any (t.inSet isNegated ranges classes) then next (i + 1) done else none
  | .edge edge, i, done, next => if t.isAt i edge then next i done else none
  | .group number body, i, done, next =>
    tried t body i done fun m inner => next m ((number, i, m) :: inner.filter fun capture => capture.1 != number)
  | .sequence first second, i, done, next =>
    tried t first i done fun m inner => tried t second m inner next
  | .either first second, i, done, next => (tried t first i done next).or (tried t second i done next)
  | .repeated least most body, i, done, next =>
    let rec again : Nat → Nat → Option Nat → Nat → Captures → Option α
      | 0, _, _, i, done => next i done
      | fuel + 1, least, most, i, done =>
        let more := if most = some 0 then none
          else tried t body i done fun m inner =>
            if m = i && least = 0 then none else again fuel (least - 1) (most.map (· - 1)) m inner
        more.or (if least = 0 then next i done else none)
    again (t.chars.size - i + least + 1) least most i done
  | .back number, i, done, next =>
    match done.lookup number with
    | none => none
    | some (start, stop) =>
      let size := stop - start
      if (List.range size).all fun k => t.chars[start + k]? == t.chars[i + k]? then
        if i + size ≤ t.chars.size then next (i + size) done else none
      else none

end MatchedText

/-- Whether an expression refers to its own groups. -/
def Regex.refersBack : Regex → Bool
  | .back _ => true
  | .group _ body | .repeated _ _ body => body.refersBack
  | .sequence first second | .either first second => first.refersBack || second.refersBack
  | _ => false

/-- A match: its places in the text, and those of its groups. -/
structure RegexMatch where
  start : Nat
  stop : Nat
  captures : MatchedText.Captures

/-- The match that starts at a place. -/
def CompiledRegex.matchAt? (r : CompiledRegex) (t : MatchedText) (i : Nat) : Option RegexMatch :=
  if r.regex.refersBack then
    t.tried r.regex i [] fun stop captures => some ⟨i, stop, captures⟩
  else
    match t.ends r.regex i with
    | [] => none
    | stop :: _ => some ⟨i, stop, if r.groups = 0 then [] else t.captures r.regex i stop []⟩

/-- The first match from a place on, among as many places as the fuel says. -/
def CompiledRegex.search (r : CompiledRegex) (t : MatchedText) : Nat → Nat → Option RegexMatch
  | 0, _ => none
  | fuel + 1, i => (r.matchAt? t i).or (r.search t fuel (i + 1))

/-- The first match from a place on. -/
def CompiledRegex.find? (r : CompiledRegex) (t : MatchedText) (i : Nat) : Option RegexMatch :=
  r.search t (t.chars.size + 1 - i) i

/-- All matches from a place on, none of them within another; an empty one does not follow another at
once. -/
def CompiledRegex.all (r : CompiledRegex) (t : MatchedText) : Nat → Nat → Option Nat → List RegexMatch
  | 0, _, _ => []
  | fuel + 1, i, last =>
    if t.chars.size < i then []
    else match r.find? t i with
      | none => []
      | some m =>
        if m.stop = m.start then
          if last = some m.start then r.all t fuel (m.start + 1) none
          else m :: r.all t fuel (m.start + 1) none
        else m :: r.all t fuel m.stop (some m.stop)

/-- All matches in a text. -/
def CompiledRegex.findAll (r : CompiledRegex) (t : MatchedText) : List RegexMatch :=
  r.all t (2 * t.chars.size + 2) 0 none

/-- The text of a group of a match. -/
def RegexMatch.group (m : RegexMatch) (chars : Array Char) (number : Nat) : List Char :=
  let (start, stop) := if number = 0 then (m.start, m.stop) else (m.captures.lookup number).getD (0, 0)
  (chars.extract start stop).toList

end WasmPackaging.Shell
