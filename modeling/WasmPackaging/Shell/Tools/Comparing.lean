import WasmPackaging.Shell.Tools.Files

/-!
What tells two files apart, line by line: as few lines as possible are taken away or added, and lines that
are changed side by side are shown together.
-/

namespace WasmPackaging.Shell

open Text

/-- What becomes of a line: it stays, it is taken away, or it is added. -/
inductive LineEdit where
  | stays (line other : List Char)
  | goes (line : List Char)
  | comes (line : List Char)

namespace LineEdit

/-- The line in the first file. -/
def before? : LineEdit → Option (List Char)
  | .stays line _ | .goes line => some line
  | .comes _ => none

/-- The line in the second file. -/
def after? : LineEdit → Option (List Char)
  | .stays _ line | .comes line => some line
  | .goes _ => none

/-- Whether a line stays. -/
def isKept : LineEdit → Bool
  | .stays _ _ => true
  | _ => false

end LineEdit

/-- How many lines the rest of a file that starts with a line has in common with the ends of another, given
that for the rest behind the line. -/
def commonRow (same : List Char → List Char → Bool) (line : List Char) : List (List Char) → List Nat → List Nat
  | other :: others, below :: rest =>
    let row := commonRow same line others rest
    (if same line other then rest.headD 0 + 1 else max below (row.headD 0)) :: row
  | _, _ => [0]

/-- The rows for all ends of a file, the whole one first. -/
def commonRows (same : List Char → List Char → Bool) (others : List (List Char)) :
    List (List Char) → List (List Nat)
  | [] => [List.replicate (others.length + 1) 0]
  | line :: lines =>
    let rows := commonRows same others lines
    commonRow same line others (rows.headD []) :: rows

/-- The rows without their first numbers. -/
def narrowed (rows : List (List Nat)) : List (List Nat) := rows.map (List.drop 1)

/-- The edits that lead from some lines to others, by the rows of the lines. -/
def lineEdits (same : List Char → List Char → Bool) :
    List (List Char) → List (List Char) → List (List Nat) → List LineEdit
  | [], others, _ => others.map .comes
  | lines, [], _ => lines.map .goes
  | line :: lines, other :: others, rows =>
    let below := rows.drop 1
    if same line other then .stays line other :: lineEdits same lines others (narrowed below)
    else if (below.headD []).headD 0 ≥ ((rows.headD []).drop 1).headD 0 then
      .goes line :: lineEdits same lines (other :: others) below
    else .comes other :: lineEdits same (line :: lines) others (narrowed rows)
termination_by lines others => lines.length + others.length

/-- Edits with the number of lines before each, in the first and in the second file. -/
structure PlacedEdits where
  first : Nat
  second : Nat
  edits : List LineEdit

/-- The edits in groups of lines that stay, and of lines that do not, with their places. -/
def editGroups : List LineEdit → List PlacedEdits :=
  let rec go (first second : Nat) : Nat → List LineEdit → List PlacedEdits
    | 0, _ | _, [] => []
    | fuel + 1, edit :: edits =>
      let group := edit :: edits.takeWhile fun other => other.isKept == edit.isKept
      let rest := (edit :: edits).drop group.length
      ⟨first, second, group⟩ :: go (first + group.countP (·.before?.isSome))
        (second + group.countP (·.after?.isSome)) fuel rest
  fun edits => go 0 0 (edits.length + 1) edits

/-- A line with a mark before it, and a word on a missing end. -/
def markedLine (mark : String) (line : List Char) : String :=
  if line.getLast? == some '\n' then mark ++ String.ofList line
  else mark ++ String.ofList line ++ "\n\\ No newline at end of file\n"

/-- The numbers of some lines behind others. -/
def lineRange (before count : Nat) : String :=
  if count ≤ 1 then toString (before + count) else s!"{before + 1},{before + count}"

/-- A group of lines that do not stay. -/
def shownGroup (group : PlacedEdits) : String :=
  let gone := group.edits.filterMap fun | .goes line => some line | _ => none
  let come := group.edits.filterMap fun | .comes line => some line | _ => none
  let letter := if come.isEmpty then "d" else if gone.isEmpty then "a" else "c"
  lineRange group.first gone.length ++ letter ++ lineRange group.second come.length ++ "\n" ++
    String.join (gone.map (markedLine "< ")) ++
    (if letter == "c" then "---\n" else "") ++ String.join (come.map (markedLine "> "))

/-- How many lines are shown around those that do not stay. -/
def shownAround : Nat := 3

/-- The groups with the lines around them that are shown; a place between two of them may show all lines. -/
def shownParts (groups : List PlacedEdits) : List (List PlacedEdits) :=
  let isKept (group : PlacedEdits) : Bool := group.edits.all LineEdit.isKept
  let lead (group : PlacedEdits) : PlacedEdits :=
    let dropped := group.edits.length - shownAround
    ⟨group.first + dropped, group.second + dropped, group.edits.drop dropped⟩
  let trail (group : PlacedEdits) : PlacedEdits := { group with edits := group.edits.take shownAround }
  let rec go (current : List PlacedEdits) : List PlacedEdits → List (List PlacedEdits)
    | [] => if current.isEmpty then [] else [current]
    | group :: rest =>
      if !isKept group then go (current ++ [group]) rest
      else if rest.isEmpty then (if current.isEmpty then [] else [current ++ [trail group]])
      else if current.isEmpty then go [lead group] rest
      else if group.edits.length ≤ 2 * shownAround then go (current ++ [group]) rest
      else (current ++ [trail group]) :: go [lead group] rest
  go [] groups

/-- A part of the edits with the lines around them. -/
def shownPart (part : List PlacedEdits) : String :=
  let edits := part.flatMap PlacedEdits.edits
  let range (before count : Nat) : String :=
    if count = 1 then toString (before + 1)
    else if count = 0 then s!"{before},0" else s!"{before + 1},{count}"
  let first := range ((part.map PlacedEdits.first).headD 0) (edits.countP (·.before?.isSome))
  let second := range ((part.map PlacedEdits.second).headD 0) (edits.countP (·.after?.isSome))
  let body := part.flatMap fun group =>
    if group.edits.all LineEdit.isKept then (group.edits.filterMap LineEdit.before?).map (markedLine " ")
    else
      (group.edits.filterMap LineEdit.before?).map (markedLine "-") ++
        (group.edits.filterMap LineEdit.after?).map (markedLine "+")
  s!"@@ -{first} +{second} @@\n" ++ String.join body

/-- A line as it is compared: in either case, or whatever its blanks are. -/
def comparedLine (folds anyBlanks noBlanks : Bool) (line : List Char) : List Char :=
  let isBlank (c : Char) : Bool := c == ' ' || c == '\t' || c == '\r' || c == '\n'
  let line := if folds then line.map Char.toLower else line
  if noBlanks then line.filter (!isBlank ·)
  else if anyBlanks then
    joinWith [' '] ((splitWhere isBlank line).filter (!·.isEmpty)) ++ (if line.head?.any isBlank then [' '] else [])
  else line

/-- Shows what tells two files apart. -/
def diff : Tool := fun arguments => do
  let table : FlagTable :=
    { tool := "diff", letters := "qsuiwbaN", valued := "L",
      long := [("brief", 'q'), ("report-identical-files", 's'), ("unified", 'u'), ("ignore-case", 'i'),
        ("ignore-all-space", 'w'), ("ignore-space-change", 'b'), ("text", 'a'), ("new-file", 'N'),
        ("label", 'L')] }
  let hint := "\ndiff: Try 'diff --help' for more information."
  match table.read arguments with
  | .error complaint => Act.failing 2 (String.ofList (complaint.toList.takeWhile (· != '\n')) ++ hint)
  | .ok given =>
    match given.operands with
    | [] => Act.failing 2 ("diff: missing operand after 'diff'" ++ hint)
    | [name] => Act.failing 2 (s!"diff: missing operand after '{name}'" ++ hint)
    | first :: second :: extra =>
      if let some name := extra.head? then Act.failing 2 (s!"diff: extra operand '{name}'" ++ hint)
      else
        let within (name other : String) : Act String := do
          let isFile := match ← Act.follow other with
            | .ok (.entry _ (.file _)) => true
            | _ => false
          return if isFile && (← Act.isDirectory name) then name ++ "/" ++ baseName other else name
        let names := (← within first second, ← within second first)
        let read (name : String) : Act (Except Fault (List Char)) := do
          match ← contentOf name with
          | .error .notFound => return if given.has 'N' then .ok [] else .error .notFound
          | content => return content
        let contents := (← read names.1, ← read names.2)
        let fault? (name : String) : Except Fault (List Char) → Option String
          | .error fault => some s!"diff: {name}: {fault.text}"
          | .ok _ => none
        match contents with
        | (.ok s, .ok t) =>
          let compared := comparedLine (given.has 'i') (given.has 'b') (given.has 'w')
          let same (a b : List Char) : Bool := compared a == compared b
          let (lines, others) := (linesOf s, linesOf t)
          let groups := editGroups (lineEdits same lines others (commonRows same others lines))
          let isSame := groups.all fun group => group.edits.all LineEdit.isKept
          if isSame then
            if given.has 's' then Act.say s!"Files {names.1} and {names.2} are identical\n"
            Act.ended 0
          else
            if given.has 'q' then Act.say s!"Files {names.1} and {names.2} differ\n"
            else if given.has 'u' then
              let labels := given.values 'L'
              let (old, new) := (labels.getD 0 names.1, labels.getD 1 names.2)
              Act.say (s!"--- {old}\n+++ {new}\n" ++ String.join ((shownParts groups).map shownPart))
            else
              let changed := groups.filter fun group => !group.edits.all LineEdit.isKept
              Act.say (String.join (changed.map shownGroup))
            Act.ended 1
        | (s, t) =>
          ((fault? names.1 s).toList ++ (fault? names.2 t).toList).forM Act.complain
          Act.ended 2

end WasmPackaging.Shell
