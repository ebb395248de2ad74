import WasmPackaging.Shell.Regex
import WasmPackaging.Shell.Tools.Lines

/-!
The tool that writes the lines in which a pattern is found.
-/

namespace WasmPackaging.Shell

open Text

/-- What lines are selected by: expressions, of which one has to be found, and whether it has to be found as
a word or as a whole line. -/
structure LineTest where
  regexes : List CompiledRegex
  asWord : Bool
  asLine : Bool

/-- A fixed text as an expression. -/
def fixedRegex (folds : Bool) (s : List Char) : CompiledRegex :=
  ⟨s.foldr (fun c r => Regex.before (.char c) r) .empty, 0, folds, false⟩

/-- The match of an expression that starts at a place and that a test accepts. -/
def LineTest.matchAt? (test : LineTest) (t : MatchedText) (i : Nat) (r : CompiledRegex) :
    Option (Nat × Nat) :=
  let isWhole (stop : Nat) : Bool := i = 0 && stop = t.chars.size
  let isWord (stop : Nat) : Bool := !t.isWordBefore i && !t.isWordBehind stop
  let accepts (stop : Nat) : Bool := (!test.asLine || isWhole stop) && (!test.asWord || isWord stop)
  let stop? := if r.regex.refersBack then
      t.tried r.regex i [] fun stop _ => if accepts stop then some stop else none
    else (t.ends r.regex i).find? accepts
  stop?.map (i, ·)

/-- The longest match that starts at a place. -/
def LineTest.longestAt? (test : LineTest) (t : MatchedText) (i : Nat) : Option (Nat × Nat) :=
  test.regexes.foldl (fun best r =>
    match best, test.matchAt? t i r with
    | some a, some b => if a.2 < b.2 then some b else some a
    | none, found | found, none => found) none

/-- The matches in a text from a place on. -/
def LineTest.matchesFrom (test : LineTest) (t : MatchedText) : Nat → Nat → List (Nat × Nat)
  | 0, _ => []
  | fuel + 1, i =>
    if t.chars.size < i then []
    else match test.longestAt? t i with
      | some (start, stop) => (start, stop) :: test.matchesFrom t fuel (max stop (i + 1))
      | none => test.matchesFrom t fuel (i + 1)

/-- The text of a line as it is searched. -/
def LineTest.searched (test : LineTest) (line : List Char) : MatchedText :=
  match test.regexes with
  | r :: _ => .ofList r (widen line)
  | [] => ⟨#[], false, false⟩

/-- Whether a line is selected. -/
def LineTest.holds (test : LineTest) (line : List Char) : Bool :=
  let t := test.searched line
  let rec search : Nat → Nat → Bool
    | 0, _ => false
    | fuel + 1, i => test.regexes.any (fun r => (test.matchAt? t i r).isSome) || search fuel (i + 1)
  search (if test.asLine then 1 else t.chars.size + 1) 0

/-- What is written for the lines of an input. -/
structure GrepStyle where
  inverts : Bool
  counts : Bool
  lists : Bool
  listsOthers : Bool
  isQuiet : Bool
  numbers : Bool
  offsets : Bool
  onlyMatches : Bool
  isHeaded : Bool
  most : Option Nat
  before : Nat
  behind : Nat
  asText : Bool
  ending : Char
  endsNames : Bool

/-- A line with its number and the place where it starts. -/
structure NumberedLine where
  number : Nat
  offset : Nat
  text : List Char

/-- The lines of a text with their numbers and places. -/
def numberedLines (ending : Char) (content : List Char) : List NumberedLine :=
  let lines := splitAt ending content
  let lines := if lines.getLast? == some [] then lines.dropLast else lines
  (lines.foldl (fun (lines, number, offset) line =>
    (⟨number, offset, line⟩ :: lines, number + 1, offset + line.length + 1))
    (([] : List NumberedLine), 1, 0)).1.reverse

/-- The start of what is written for a line. -/
def GrepStyle.heading (style : GrepStyle) (name : String) (mark : String) (number offset : Nat) : String :=
  (if style.isHeaded then name ++ (if style.endsNames then "\x00" else mark) else "") ++
    (if style.numbers then toString number ++ mark else "") ++
    (if style.offsets then toString offset ++ mark else "")

/-- What is written for selected lines, and for those around them. -/
def GrepStyle.lines (style : GrepStyle) (test : LineTest) (name : String) (hasGaps : Bool) :
    List (NumberedLine × Bool) → Option Nat → List String
  | [], _ => []
  | (line, isSelected) :: rest, last =>
    let gap := if hasGaps && last.any (fun n => n + 1 < line.number) then ["--\n"] else []
    let mark := if isSelected then ":" else "-"
    let written :=
      if style.onlyMatches then
        if !isSelected || style.inverts then []
        else
          let chars := widen line.text
          let found := (test.matchesFrom (test.searched line.text) (chars.length + 2) 0).filter fun m => m.1 < m.2
          found.map fun (start, stop) =>
            let offset := line.offset + (narrow (chars.take start)).length
            style.heading name mark line.number offset ++
              String.ofList (narrow ((chars.take stop).drop start) ++ [style.ending])
      else [style.heading name mark line.number line.offset ++ String.ofList (line.text ++ [style.ending])]
    gap ++ written ++ style.lines test name hasGaps rest (some line.number)

/-- Writes what there is to write for an input; answers whether a line was selected. -/
def GrepStyle.input (style : GrepStyle) (test : LineTest) (name : String) (content : List Char) :
    Act Bool := do
  let all := numberedLines style.ending content
  let rec select : Option Nat → List NumberedLine → List (NumberedLine × Bool)
    | some 0, _ => []
    | _, [] => []
    | most, line :: rest =>
      let isSelected := test.holds line.text != style.inverts
      (line, isSelected) :: select (if isSelected then most.map (· - 1) else most) rest
  let marked := select style.most all
  let selected := marked.filter Prod.snd
  let found := !selected.isEmpty
  let isBinary := !style.asText && 
    ((content.contains '\x00' && style.ending != '\x00') || (widen content).any isStray)
  let nameEnd := if style.endsNames then "\x00" else "\n"
  if style.isQuiet then return found
  else if style.lists then
    if found then Act.say (name ++ nameEnd)
    return found
  else if style.listsOthers then
    if !found then Act.say (name ++ nameEnd)
    return !found
  else if style.counts then
    Act.say ((if style.isHeaded then name ++ (if style.endsNames then "\x00" else ":") else "") ++ s!"{selected.length}\n")
    return found
  else if isBinary then
    if found && !(style.onlyMatches && style.inverts) then Act.say s!"grep: {name}: binary file matches\n"
    return found
  else
    let numbers := (selected.map fun entry => entry.1.number).toArray
    let isNear (n : Nat) : Bool :=
      numbers.any fun m => (n ≤ m && m ≤ n + style.before) || (m ≤ n && n ≤ m + style.behind)
    let hasContext := style.before > 0 || style.behind > 0
    let shown :=
      if !hasContext then selected
      else
        let others := (all.drop marked.length).map (·, false)
        (marked ++ others).filter fun entry => isNear entry.1.number
    Act.say (String.join (style.lines test name hasContext shown none))
    return found

/-- The files below a directory, by name. -/
def filesBelow (files : FileTree) : Nat → String → Location → List String
  | 0, _, _ => []
  | depth + 1, name, location =>
    (sortedNames files location).flatMap fun inner =>
      let there := location ++ [toText inner]
      let innerName := if name == "" then inner else nameIn name inner
      match files.lookup there with
      | some .directory => filesBelow files depth innerName there
      | some (.file _) => [innerName]
      | _ => []

/-- Answers a wrong use. -/
def refuseUse : Act Unit := do
  let _ ← Act.writeTo 2 "Usage: grep [OPTION]... PATTERNS [FILE]...\nTry 'grep --help' for more information.\n"
  Act.ended 2

/-- Arguments in which a number behind a dash is the flag for lines around. -/
def withContextFlag (arguments : List String) : List String :=
  arguments.map fun argument =>
    match argument.toList with
    | '-' :: c :: more => if (c :: more).all Char.isDigit then "-C" ++ String.ofList (c :: more) else argument
    | _ => argument

/-- Writes the lines in which patterns are found. -/
def grep (extended fixed : Bool) : Tool := fun arguments => do
  let table : FlagTable :=
    { tool := "grep", letters := "EFGPiyvclLqsnHhowxrRabzIUZT", valued := "efmABCdD", optional := "K",
      long := [("extended-regexp", 'E'), ("fixed-strings", 'F'), ("basic-regexp", 'G'), ("perl-regexp", 'P'),
        ("regexp", 'e'), ("file", 'f'), ("ignore-case", 'i'), ("word-regexp", 'w'), ("line-regexp", 'x'),
        ("invert-match", 'v'), ("count", 'c'), ("files-with-matches", 'l'), ("files-without-match", 'L'),
        ("quiet", 'q'), ("silent", 'q'), ("no-messages", 's'), ("line-number", 'n'), ("with-filename", 'H'),
        ("no-filename", 'h'), ("only-matching", 'o'), ("max-count", 'm'), ("after-context", 'A'),
        ("before-context", 'B'), ("context", 'C'), ("recursive", 'r'), ("text", 'a'), ("byte-offset", 'b'),
        ("null-data", 'z'), ("null", 'Z'), ("color", 'K'), ("colour", 'K'), ("include", 'N'), ("exclude", 'X')],
      failure := 2 }
  let table := { table with valued := table.valued ++ "NX" }
  match table.read (withContextFlag arguments) with
  | .error complaint =>
    let first := String.ofList (complaint.toList.takeWhile (· != '\n'))
    Act.complain first
    refuseUse
  | .ok given => do
    let (patternFiles, isWell) ← (given.values 'f').foldlM (fun (texts, isWell) name => do
      match ← contentOf name with
      | .ok content => return (texts ++ bareLines content, isWell)
      | .error fault =>
        Act.complain s!"grep: {nameShown name}: {fault.text}"
        return (texts, false)) (([] : List (List Char)), true)
    let given_ := (given.values 'e').flatMap fun text => splitAt '\n' text.toList
    let hasPatterns := given.has 'e' || given.has 'f'
    let patterns := if hasPatterns then given_ ++ patternFiles
      else (given.operands.take 1).flatMap fun text => splitAt '\n' text.toList
    let names := if hasPatterns then given.operands else given.operands.drop 1
    if !isWell then Act.ended 2
    else if !hasPatterns && given.operands.isEmpty then refuseUse
    else
      let folds := given.has 'i' || given.has 'y'
      let kind := (given.lastOf? "EFGP").getD (if fixed then 'F' else if extended then 'E' else 'G')
      let compile (pattern : List Char) : Except String CompiledRegex :=
        if kind == 'F' then .ok (fixedRegex folds (widen pattern))
        else
          let pattern := if kind == 'P' then
              (String.ofList pattern).replace "\\d" "[0-9]" |>.toList else pattern
          match CompiledRegex.read (kind != 'G') folds false (widen pattern) with
          | .ok r => .ok r
          | .error .openSet => .error "Invalid regular expression"
          | .error fault => .error fault.message
      let number (letter : Char) : Except String (Option Nat) :=
        match given.value? letter with
        | none => .ok none
        | some text => match text.toNat? with
          | some n => .ok (some n)
          | none => .error (if letter == 'm' then "invalid max count" else s!"{text}: invalid context length argument")
      let read : Except String (List CompiledRegex × Option Nat × Option Nat × Option Nat × Option Nat) := do
        let around ← number 'C'
        let before ← number 'B'
        let behind ← number 'A'
        let most ← number 'm'
        return (← patterns.mapM compile, around, before, behind, most)
      match read with
      | .error cause => Act.failing 2 s!"grep: {cause}"
      | .ok (regexes, around, before, behind, most) =>
        let isRecursive := given.has 'r' || given.has 'R'
        let p ← get
        let files ← Act.files
        let isNamed (name : String) : Bool :=
          let holds (pattern : String) : Bool :=
            (Pattern.ofMarked (marked false pattern)).accepts (baseName name).toList
          let included := given.values 'N'
          (included.isEmpty || included.any holds) && !(given.values 'X').any holds
        let below (name : String) : List String :=
          let path := p.directory.join (.ofString (toText name))
          match files.follow path with
          | .ok (.entry location .directory) =>
            if isRecursive then (filesBelow files (files.entries.length + 1) name location).filter isNamed
            else [name]
          | _ => [name]
        let inputs := if isRecursive then (if names.isEmpty then below "" else names.flatMap below)
          else inputNames names
        let style : GrepStyle :=
          { inverts := given.has 'v', counts := given.has 'c', lists := given.has 'l', listsOthers := given.has 'L',
            isQuiet := given.has 'q', numbers := given.has 'n', offsets := given.has 'b',
            onlyMatches := given.has 'o',
            isHeaded := !given.has 'h' && (given.has 'H' || names.length > 1 || isRecursive), most,
            before := (before.or around).getD 0, behind := (behind.or around).getD 0, asText := given.has 'a',
            ending := if given.has 'z' then '\x00' else '\n', endsNames := given.has 'Z' }
        let test : LineTest := ⟨regexes, given.has 'w', given.has 'x'⟩
        let results ← inputs.mapM fun name => do
          let shown := if name == "-" then "(standard input)" else name
          match ← contentOf name with
          | .ok content => return some (← style.input test shown content)
          | .error fault =>
            if fault == .isDirectory && style.counts && !style.isQuiet then
              Act.say ((if style.isHeaded then shown ++ ":" else "") ++ "0\n")
            if !given.has 's' then Act.complain s!"grep: {shown}: {fault.text}"
            return none
        let found := results.any fun result => result == some true
        let failed := results.any Option.isNone
        Act.ended (if failed && !(style.isQuiet && found) then 2 else if found then 0 else 1)

end WasmPackaging.Shell
