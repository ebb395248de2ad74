import WasmPackaging.Shell.Pattern
import WasmPackaging.Shell.Tools.Files

/-!
Tools that work on the lines of their inputs: they put them in order, leave some out, cut parts from them,
join them, or exchange their characters.
-/

namespace WasmPackaging.Shell

open Text

/-- Lines written with an end behind each. -/
def sayLines (lines : List (List Char)) : Act Unit := Act.say (ofLines lines)

/-- The lines of all inputs, where the end of an input ends a line. -/
def inputLines (contents : List (List Char)) : List (List Char) := contents.flatMap bareLines

/-! ## Order -/

/-- Whether a character separates fields that no sign separates. -/
def isFieldBlank (c : Char) : Bool := c == ' ' || c == '\t' || c == '\n'

/-- What is compared: texts, numbers, reals, numbers with units, months, or versions. -/
inductive SortKind where
  | text
  | number
  | real
  | sized
  | month
  | version
  deriving DecidableEq

/-- How keys are compared. -/
structure SortFlags where
  kind : SortKind := .text
  reverses : Bool := false
  folds : Bool := false
  skipsBlanks : Bool := false
  onlyWords : Bool := false
  onlyPrintable : Bool := false
  deriving DecidableEq

/-- The flags with a letter added. -/
def SortFlags.add (flags : SortFlags) : Char → Option SortFlags
  | 'n' => some { flags with kind := .number }
  | 'g' => some { flags with kind := .real }
  | 'h' => some { flags with kind := .sized }
  | 'M' => some { flags with kind := .month }
  | 'V' => some { flags with kind := .version }
  | 'r' => some { flags with reverses := true }
  | 'f' => some { flags with folds := true }
  | 'b' => some { flags with skipsBlanks := true }
  | 'd' => some { flags with onlyWords := true }
  | 'i' => some { flags with onlyPrintable := true }
  | _ => none

/-- A place in a line: a field and a character of it, both counted from one; zero is the end of the field. -/
structure KeyPlace where
  field : Nat
  char : Nat
  skipsBlanks : Bool := false

/-- A part of a line that is compared. -/
structure SortKey where
  start : KeyPlace
  stop : Option KeyPlace
  flags : SortFlags

/-- A line from behind some of its fields on. -/
def behindFields (separator : Option Char) (isStart : Bool) : Nat → List Char → List Char
  | 0, s => s
  | n + 1, s =>
    match separator with
    | some c =>
      let rest := s.dropWhile (· != c)
      if n = 0 && !isStart then rest else behindFields separator isStart n (rest.drop 1)
    | none => behindFields separator isStart n ((s.dropWhile isFieldBlank).dropWhile fun c => !isFieldBlank c)

/-- The part of a line that a key names. -/
def SortKey.text (key : SortKey) (separator : Option Char) (line : List Char) : List Char :=
  let from_ := behindFields separator true (key.start.field - 1) line
  let from_ := if key.start.skipsBlanks then from_.dropWhile isFieldBlank else from_
  let from_ := from_.drop (key.start.char - 1)
  match key.stop with
  | none => from_
  | some stop =>
    let rest :=
      if stop.char = 0 then behindFields separator false stop.field line
      else
        let rest := behindFields separator true (stop.field - 1) line
        let rest := if stop.skipsBlanks then rest.dropWhile isFieldBlank else rest
        rest.drop stop.char
    from_.take (from_.length - rest.length)

/-- A number at the start of a text: its sign, its whole digits and those behind its point. -/
def numberParts (s : List Char) : Bool × List Char × List Char × List Char :=
  let s := s.dropWhile isFieldBlank
  let (isNegative, s) := match s with
    | '-' :: rest => (true, rest)
    | s => (false, s)
  let whole := s.takeWhile Char.isDigit
  match s.drop whole.length with
  | '.' :: rest =>
    let fraction := rest.takeWhile Char.isDigit
    (isNegative, whole, fraction, rest.drop fraction.length)
  | rest => (isNegative, whole, [], rest)

/-- Two numbers at the starts of texts compared. -/
def compareNumbers (a b : List Char) : Ordering :=
  let (aSign, aWhole, aFraction, _) := numberParts a
  let (bSign, bWhole, bFraction, _) := numberParts b
  let places := max aFraction.length bFraction.length
  let value (isNegative : Bool) (whole fraction : List Char) : Int :=
    let n : Nat := decimal (whole ++ fraction) * Nat.pow 10 (places - fraction.length)
    if isNegative then -(n : Int) else n
  compare (value aSign aWhole aFraction) (value bSign bWhole bFraction)

/-- The rank of a unit behind a number. -/
def unitRank (s : List Char) : Int :=
  let (isNegative, whole, fraction, rest) := numberParts s
  let rank : Int := ((" KMGTPEZY".toList.findIdx? fun c => some c == (rest.head?.map Char.toUpper)).getD 0 : Nat)
  if (whole ++ fraction).all (· == '0') then 0 else if isNegative then -rank else rank

/-- The rank of a month at the start of a text. -/
def monthRank (s : List Char) : Nat :=
  let name := String.ofList (((s.dropWhile isFieldBlank).take 3).map Char.toUpper)
  match ["JAN", "FEB", "MAR", "APR", "MAY", "JUN", "JUL", "AUG", "SEP", "OCT", "NOV", "DEC"].findIdx? (· == name) with
  | some i => i + 1
  | none => 0

/-- The rank of a character in a version: a tilde before the end, letters before other signs. -/
def versionRank : Option Char → Nat
  | none => 1
  | some '~' => 0
  | some c => if c.isDigit then 1 else if c.isAlpha then c.toNat + 2 else c.toNat + 300

/-- Two versions compared: signs by their ranks and numbers by their values, in turn. -/
def compareVersions : Nat → List Char → List Char → Ordering
  | 0, _, _ => .eq
  | fuel + 1, a, b =>
    if a.isEmpty && b.isEmpty then .eq
    else
      let (aSigns, bSigns) := (a.takeWhile (!·.isDigit), b.takeWhile (!·.isDigit))
      let (aRest, bRest) := (a.drop aSigns.length, b.drop bSigns.length)
      let (aDigits, bDigits) := (aRest.takeWhile Char.isDigit, bRest.takeWhile Char.isDigit)
      let signs := compareLex compare
        ((List.range (max aSigns.length bSigns.length)).map fun i => versionRank aSigns[i]?)
        ((List.range (max aSigns.length bSigns.length)).map fun i => versionRank bSigns[i]?)
      match signs, compare (decimal aDigits) (decimal bDigits) with
      | .eq, .eq => compareVersions fuel (aRest.drop aDigits.length) (bRest.drop bDigits.length)
      | .eq, order => order
      | order, _ => order
where
  /-- Two lists compared by their first difference. -/
  compareLex (f : Nat → Nat → Ordering) : List Nat → List Nat → Ordering
    | a :: as, b :: bs => match f a b with
      | .eq => compareLex f as bs
      | order => order
    | [], [] => .eq
    | [], _ => .lt
    | _, [] => .gt

/-- Two texts compared by their octets. -/
def compareTexts (a b : List Char) : Ordering :=
  let (a, b) := (String.ofList a, String.ofList b)
  if a < b then .lt else if a == b then .eq else .gt

/-- Two keys compared. -/
def SortFlags.compare (flags : SortFlags) (a b : List Char) : Ordering :=
  let kept (s : List Char) : List Char :=
    let s := if flags.onlyWords then s.filter fun c => c.isAlphanum || c == ' ' || c == '\t' else s
    let s := if flags.onlyPrintable then s.filter fun c => ' ' ≤ c && c ≤ '~' else s
    if flags.folds then s.map Char.toUpper else s
  let order := match flags.kind with
    | .number => compareNumbers a b
    | .real =>
      let value (s : List Char) : Option Float := (leadingReal (s.dropWhile isFieldBlank)).map Prod.fst
      match value a, value b with
      | some x, some y => if x < y then .lt else if y < x then .gt else .eq
      | none, some _ => .lt
      | some _, none => .gt
      | none, none => .eq
    | .sized => match Ord.compare (unitRank a) (unitRank b) with
      | .eq => compareNumbers a b
      | order => order
    | .month => Ord.compare (monthRank a) (monthRank b)
    | .version => compareVersions (a.length + b.length + 1) a b
    | .text => compareTexts (kept a) (kept b)
  if flags.reverses then order.swap else order

/-- Reads a place in a line; answers with what is behind it. -/
def KeyPlace.read (default : Nat) (place : String) (s : List Char) : Except String (KeyPlace × List Char) :=
  let digits := s.takeWhile Char.isDigit
  let rest := s.drop digits.length
  if digits.isEmpty then .error s!"invalid number {place}: invalid count at start of {curlyQuoted (String.ofList s)}"
  else match rest with
    | '.' :: rest =>
      let chars := rest.takeWhile Char.isDigit
      if chars.isEmpty then .error s!"invalid number after '.': invalid count at start of {curlyQuoted (String.ofList rest)}"
      else .ok (⟨decimal digits, decimal chars, false⟩, rest.drop chars.length)
    | rest => .ok (⟨decimal digits, default, false⟩, rest)

/-- Reads a key. -/
def SortKey.read (shared : SortFlags) (text : String) : Except String SortKey :=
  let addAll (flags : SortFlags) (letters : List Char) : Option SortFlags :=
    letters.foldlM SortFlags.add flags
  let invalid (cause : String) : Except String SortKey :=
    .error s!"sort: {cause}: invalid field specification {curlyQuoted text}"
  let wrong := invalid "stray character in field spec"
  match KeyPlace.read 1 "at field start" text.toList with
  | .error cause => .error s!"sort: {cause}"
  | .ok (start, rest) =>
    if start.field = 0 then invalid "field number is zero"
    else if start.char = 0 then invalid "character offset is zero"
    else
      let letters := rest.takeWhile (· != ',')
      match addAll {} letters, rest.drop letters.length with
      | none, _ => wrong
      | some own, [] =>
        let flags := if own = {} then shared else own
        .ok ⟨{ start with skipsBlanks := flags.skipsBlanks }, none, flags⟩
      | some own, _ :: rest =>
        match KeyPlace.read 0 "after ','" rest with
        | .error cause => .error s!"sort: {cause}"
        | .ok (stop, letters) =>
          if stop.field = 0 then invalid "field number is zero" else
          match addAll {} letters with
          | none => wrong
          | some behind =>
            let merged := (addAll own letters).getD own
            let isOwn := own ≠ {} ∨ behind ≠ {}
            let flags := if isOwn then merged else shared
            .ok ⟨{ start with skipsBlanks := if isOwn then own.skipsBlanks else shared.skipsBlanks },
              some { stop with skipsBlanks := if isOwn then behind.skipsBlanks else shared.skipsBlanks }, flags⟩

/-- Puts lines in order. -/
def sort : Tool := fun arguments =>
  let table : FlagTable :=
    { tool := "sort", letters := "bdfghiMnRrVcCmsuz", valued := "koStT",
      long := [("ignore-leading-blanks", 'b'), ("dictionary-order", 'd'), ("ignore-case", 'f'),
        ("general-numeric-sort", 'g'), ("human-numeric-sort", 'h'), ("month-sort", 'M'), ("numeric-sort", 'n'),
        ("reverse", 'r'), ("version-sort", 'V'), ("check", 'c'), ("merge", 'm'), ("stable", 's'),
        ("unique", 'u'), ("key", 'k'), ("output", 'o'), ("field-separator", 't')],
      failure := 2 }
  table.run arguments fun given => do
    let shared := given.flags.foldl (fun flags flag => (SortFlags.add flags flag.1).getD flags) {}
    let separatorText := given.value? 't'
    let keys? := (given.values 'k').mapM (SortKey.read shared)
    match keys?, separatorText with
    | .error cause, _ => Act.failing 2 cause
    | .ok _, some "" => Act.failing 2 "sort: empty tab"
    | .ok keys, separatorText =>
      let separator? := separatorText.bind fun text =>
        if text == "\\0" then some '\x00' else text.toList.head?
      if separatorText.any fun text => text.length > 1 && text != "\\0" then
        Act.failing 2 ("sort: multi-character tab " ++ curlyQuoted (separatorText.getD ""))
      else
        let keys := if keys.isEmpty then [⟨⟨1, 1, shared.skipsBlanks⟩, none, shared⟩] else keys
        let compareKeys (a b : List Char) : Ordering :=
          keys.foldl (fun order key =>
            if order != .eq then order
            else key.flags.compare (key.text separator? a) (key.text separator? b)) .eq
        let isUnique := given.has 'u'
        let compareLines (a b : List Char) : Ordering :=
          match compareKeys a b with
          | .eq =>
            if isUnique || given.has 's' then .eq
            else
              let order := compareTexts a b
              if shared.reverses then order.swap else order
          | order => order
        let refusal (name : String) : Fault → String
          | .isDirectory => s!"sort: read failed: {nameShown name}: {Fault.isDirectory.text}"
          | fault => s!"sort: cannot read: {nameShown name}: {fault.text}"
        let (contents, isWell) ← allInputs refusal given.operands
        let lines := inputLines contents
        if !isWell then Act.ended 2
        else if given.has 'c' || given.has 'C' then
          let pairs := lines.zip (lines.drop 1)
          let isWrong (pair : List Char × List Char) : Bool :=
            let order := compareLines pair.1 pair.2
            order == .gt || (isUnique && order == .eq)
          match pairs.findIdx? isWrong with
          | none => Act.ended 0
          | some i =>
            if given.has 'c' then
              let name := (inputNames given.operands).headD "-"
              let line := String.ofList ((lines[i + 1]?).getD [])
              Act.complain s!"sort: {name}:{i + 2}: disorder: {line}"
            Act.ended 1
        else
          let sorted := lines.mergeSort fun a b => compareLines a b != .gt
          let sorted := if isUnique then
              (sorted.foldl (fun kept line => match kept with
                | last :: _ => if compareKeys last line == .eq then kept else line :: kept
                | [] => [line]) []).reverse
            else sorted
          match given.value? 'o' with
          | none =>
            sayLines sorted
            Act.ended 0
          | some name =>
            let path ← Act.path name
            match ← Act.changeFiles (·.write path (toBytes (ofLines sorted).toList)) with
            | none => Act.ended 0
            | some e => Act.failing 2 s!"sort: open failed: {nameShown name}: {(causeOf e).text}"

/-! ## Repeated lines -/

/-- Groups of neighbours that are the same for a test. -/
def groups {α : Type} (same : α → α → Bool) : List α → List (List α)
  | [] => []
  | a :: rest =>
    match groups same rest with
    | (b :: group) :: more => if same a b then (a :: b :: group) :: more else [a] :: (b :: group) :: more
    | more => [a] :: more

/-- Leaves out lines that repeat the one before them. -/
def uniq : Tool := fun arguments =>
  let table : FlagTable :=
    { tool := "uniq", letters := "cdDiuz", valued := "fsw",
      long := [("count", 'c'), ("repeated", 'd'), ("ignore-case", 'i'), ("unique", 'u'), ("skip-fields", 'f'),
        ("skip-chars", 's'), ("check-chars", 'w')] }
  table.run arguments fun given => do
    match given.operands with
    | _ :: _ :: extra :: _ => Act.failing 1 (s!"uniq: extra operand {curlyQuoted extra}" ++ helpHint "uniq")
    | operands =>
      let refusal (name : String) : Fault → String
        | .isDirectory => s!"uniq: error reading {nameQuoted name}: {Fault.isDirectory.text}"
        | fault => s!"uniq: {nameShown name}: {fault.text}"
      let (contents, isWell) ← allInputs refusal (operands.take 1)
      if !isWell then Act.ended 1
      else
        let number (letter : Char) : Nat := ((given.value? letter).bind String.toNat?).getD 0
        let key (line : List Char) : List Char :=
          let line := behindFields none true (number 'f') line
          let line := line.drop (number 's')
          let line := if (given.value? 'w').isSome then line.take (number 'w') else line
          if given.has 'i' then line.map Char.toLower else line
        let grouped := groups (fun a b => key a == key b) (inputLines contents)
        let lines := grouped.flatMap fun group =>
          let isRepeated := group.length > 1
          if given.has 'D' then (if isRepeated then group else [])
          else if (isRepeated && given.has 'u') || (!isRepeated && given.has 'd') then []
          else
            let line := group.headD []
            [if given.has 'c' then (padStart 7 (toString group.length)).toList ++ ' ' :: line else line]
        match operands[1]? with
        | none | some "-" =>
          sayLines lines
          Act.ended 0
        | some name =>
          let path ← Act.path name
          match ← Act.changeFiles (·.write path (toBytes (ofLines lines).toList)) with
          | none => Act.ended 0
          | some e => Act.failing 1 s!"uniq: {nameShown name}: {(causeOf e).text}"

/-! ## Parts of lines -/

/-- Ranges of places, counted from one; a range may have no end. -/
abbrev PlaceRanges := List (Nat × Option Nat)

/-- Whether a place is in some ranges. -/
def inPlaces (ranges : PlaceRanges) (place : Nat) : Bool :=
  ranges.any fun (low, high?) => low ≤ place && high?.all fun high => decide (place ≤ high)

/-- Reads ranges of places. -/
def placeRanges? (isFields : Bool) (text : String) : Except String PlaceRanges :=
  let what := if isFields then "field" else "byte/character position"
  let numbered := if isFields then "fields are numbered from 1" else "byte/character positions are numbered from 1"
  let invalid (s : List Char) : Except String (Nat × Option Nat) :=
    .error (s!"invalid {what} " ++ (if isFields then "value " else "") ++ curlyQuoted (String.ofList s))
  (text.toList |> splitWhere fun c => c == ',' || c == ' ').mapM fun part =>
    let low := part.takeWhile Char.isDigit
    match low, part.drop low.length with
    | [], [] => .error numbered
    | low, [] => if decimal low = 0 then .error numbered else .ok (decimal low, some (decimal low))
    | low, '-' :: high =>
      if !high.all Char.isDigit then invalid part
      else if low.isEmpty && high.isEmpty then .error "invalid range with no endpoint: -"
      else if !low.isEmpty && decimal low = 0 then .error numbered
      else
        let first := if low.isEmpty then 1 else decimal low
        if high.isEmpty then .ok (first, none)
        else if decimal high < first then .error "invalid decreasing range"
        else .ok (first, some (decimal high))
    | _, _ => invalid part

/-- Cuts parts from lines. -/
def cut : Tool := fun arguments =>
  let table : FlagTable :=
    { tool := "cut", letters := "nszC", valued := "bcdfOx",
      long := [("bytes", 'b'), ("characters", 'c'), ("delimiter", 'd'), ("fields", 'f'), ("complement", 'C'),
        ("only-delimited", 's'), ("output-delimiter", 'O')] }
  table.run arguments fun given => do
    let wrong (cause : String) : Act Unit := Act.failing 1 (s!"cut: {cause}" ++ helpHint "cut")
    let lists := given.flags.filter fun flag => "bcf".toList.contains flag.1
    match lists with
    | [] => wrong "you must specify a list of bytes, characters, or fields"
    | _ :: _ :: _ => wrong "only one list may be specified"
    | [(letter, text)] =>
      let isFields := letter == 'f'
      match placeRanges? isFields text, (given.value? 'd').getD "\t" with
      | .error cause, _ => wrong cause
      | .ok ranges, delimiter =>
        if !isFields && (given.value? 'd').isSome then
          wrong "an input delimiter may be specified only when operating on fields"
        else if !isFields && given.has 's' then
          wrong "suppressing non-delimited lines makes sense\n\tonly when operating on fields"
        else if delimiter.length > 1 then wrong "the delimiter must be a single character"
        else
          let mark := delimiter.toList.headD '\x00'
          let keeps (place : Nat) : Bool := inPlaces ranges place != given.has 'C'
          let between := (given.value? 'O').getD (if isFields then String.singleton mark else "")
          let part (line : List Char) : List (List Char) :=
            if isFields then
              let fields := splitAt mark line
              if fields.length = 1 then (if given.has 's' then [] else [line])
              else
                let kept := (fields.zipIdx 1).filter fun field => keeps field.2
                [joinWith between.toList (kept.map Prod.fst)]
            else
              let kept := (line.zipIdx 1).filter fun c => keeps c.2
              if between == "" then [kept.map Prod.fst]
              else
                let runs := groups (fun a b => a.2 + 1 == b.2) kept
                [joinWith between.toList (runs.map fun run => run.map Prod.fst)]
          endedWell (← eachInput (plainRefusal "cut") given.operands fun _ content =>
            sayLines ((bareLines content).flatMap part))

/-- Joins the lines of its inputs side by side, or those of each input. -/
def paste : Tool := fun arguments =>
  let table : FlagTable :=
    { tool := "paste", letters := "sz", valued := "d", long := [("delimiters", 'd'), ("serial", 's')] }
  table.run arguments fun given => do
    let (marks, _) := unescaped {} (((given.value? 'd').getD "\t").length + 1)
      ((given.value? 'd').getD "\t").toList
    let mark (i : Nat) : List Char :=
      if marks.isEmpty then [] else match marks.getD (i % marks.length) '\t' with
        | '\x00' => []
        | c => [c]
    let names := inputNames given.operands
    let dashes := (names.filter (· == "-")).length
    let shared ← if dashes > 1 then Act.takeInput else pure []
    let sharedLines := (bareLines shared).zipIdx
    let rec read (dash : Nat) : List String → Act (List (List (List Char)) × Bool)
      | [] => return ([], true)
      | name :: rest => do
        if name == "-" && dashes > 1 then
          let own := if given.has 's' then (if dash = 0 then sharedLines else [])
            else sharedLines.filter fun line => line.2 % dashes == dash
          let (lines, isWell) ← read (dash + 1) rest
          return (own.map Prod.fst :: lines, isWell)
        else
          match ← contentOf name with
          | .ok content =>
            let (lines, isWell) ← read dash rest
            return (bareLines content :: lines, isWell)
          | .error fault =>
            Act.complain (plainRefusal "paste" name fault)
            return ([], false)
    let (columns, isWell) ← read 0 names
    let joined (cells : List (List Char)) : List Char :=
      (cells.zipIdx.map fun (cell, i) => (if i = 0 then [] else mark (i - 1)) ++ cell).flatten
    if given.has 's' then
      sayLines (columns.map joined)
      endedWell isWell
    else if !isWell then Act.ended 1
    else
      let rows := (columns.map List.length).foldl max 0
      sayLines ((List.range rows).map fun i => joined (columns.map fun column => column.getD i []))
      Act.ended 0

/-- Where a column is behind a character. -/
def columnBehind (inBytes : Bool) (column : Nat) (c : Char) : Nat :=
  if inBytes then column + 1
  else match c with
    | '\x08' => column - 1
    | '\r' => 0
    | '\t' => column / 8 * 8 + 8
    | _ => column + 1

/-- A line cut into lines of a width at most. -/
def folded (width : Nat) (atBlanks inBytes : Bool) : Nat → List Char → List Char → Nat → List (List Char)
  | 0, _, current, _ => [current.reverse]
  | _, [], current, _ => [current.reverse]
  | fuel + 1, c :: rest, current, column =>
    let next := columnBehind inBytes column c
    if next > width && !current.isEmpty then
      let isBlank (c : Char) : Bool := c == ' ' || c == '\t'
      if atBlanks && current.any isBlank then
        let behind := (current.takeWhile fun c => !isBlank c).reverse
        let before := (current.dropWhile fun c => !isBlank c).reverse
        before :: folded width atBlanks inBytes fuel (c :: rest) behind.reverse
          (behind.foldl (columnBehind inBytes) 0)
      else current.reverse :: folded width atBlanks inBytes fuel (c :: rest) [] 0
    else folded width atBlanks inBytes fuel rest (c :: current) next

/-- Cuts long lines. -/
def fold : Tool := fun arguments =>
  let table : FlagTable :=
    { tool := "fold", letters := "bs", valued := "w",
      long := [("bytes", 'b'), ("spaces", 's'), ("width", 'w')] }
  table.run arguments fun given => do
    match (given.value? 'w').getD "80" with
    | text =>
      match text.toNat? with
      | none => Act.failing 1 s!"fold: invalid number of columns: {curlyQuoted text}"
      | some 0 => Act.failing 1 s!"fold: invalid number of columns: {curlyQuoted text}: Numerical result out of range"
      | some width =>
        endedWell (← eachInput (plainRefusal "fold") given.operands fun _ content =>
          Act.say (String.join ((linesOf content).map fun line =>
            let body := withoutLineEnd line
            let lines := folded width (given.has 's') (given.has 'b') (2 * body.length + 2) body [] 0
            String.ofList (joinWith ['\n'] lines ++ line.drop body.length))))

/-- The tab stops that a text names: widths between stops if there is one number, else columns. -/
def tabStops (text : String) : Except String (List Nat) :=
  let parts := (splitWhere (fun c => c == ',' || c == ' ') text.toList).filter (· != [])
  match parts.find? fun part => !part.all Char.isDigit with
  | some part =>
    let wrong := curlyQuoted (String.ofList (part.dropWhile Char.isDigit))
    .error s!"tab size contains invalid character(s): {wrong}"
  | none =>
    let stops := parts.map decimal
    if stops.contains 0 then .error "tab size cannot be 0"
    else if (stops.zip (stops.drop 1)).any fun pair => pair.1 ≥ pair.2 then .error "tab sizes must be ascending"
    else .ok stops

/-- The column of the next tab stop. -/
def nextStop (stops : List Nat) (column : Nat) : Nat :=
  match stops with
  | [] => column / 8 * 8 + 8
  | [width] => column / width * width + width
  | stops => (stops.find? fun stop => column < stop).getD (column + 1)

/-- Arguments in which tab stops behind a dash are those of a flag. -/
def withStopsFlag (arguments : List String) : List String :=
  arguments.map fun argument =>
    match argument.toList with
    | '-' :: c :: more => if c.isDigit then "-t" ++ String.ofList (c :: more) else argument
    | _ => argument

/-- Writes blanks for tabs. -/
def expand : Tool := fun arguments =>
  let table : FlagTable :=
    { tool := "expand", letters := "i", valued := "t", long := [("initial", 'i'), ("tabs", 't')] }
  table.run (withStopsFlag arguments) fun given => do
    match tabStops (",".intercalate (given.values 't')) with
    | .error cause => Act.failing 1 s!"expand: {cause}"
    | .ok stops =>
      endedWell (← eachInput (plainRefusal "expand") given.operands fun _ content =>
        let (parts, _, _) := content.foldl (fun ((parts, column, isText) : List String × Nat × Bool) c =>
          if c == '\t' && !(isText && given.has 'i') then
            let next := nextStop stops column
            (String.ofList (List.replicate (next - column) ' ') :: parts, next, isText)
          else if c == '\n' then ("\n" :: parts, 0, false)
          else (String.singleton c :: parts, if c == '\x08' then column - 1 else column + 1, isText || c != ' '))
          (([] : List String), 0, false)
        Act.say (String.join parts.reverse))

/-! ## Two inputs -/

/-- What is told of two lists of lines that are gone through in order: a line that is only in the first, only
in the second, or in both, or a list that is out of order. -/
inductive Merging where
  | line (place : Nat) (text : List Char)
  | disorder (place : Nat)

/-- Whether a list goes on with a line that stands before the one that was just taken. -/
def fallsBehind (taken : List Char) (rest : List (List Char)) : Bool :=
  (rest.head?.map (compareTexts taken ·)) == some .gt

/-- Goes through two lists of lines. Their order is looked at behind the first line that is only in one of
them; `told` holds the lists of which the disorder was told. -/
def merged (isStrict : Bool) : Nat → Bool → List Nat → List (List Char) → List (List Char) → List Merging
  | 0, _, _, _, _ => []
  | _, _, _, [], [] => []
  | fuel + 1, differs, told, as, bs =>
    let place := match as, bs with
      | a :: _, b :: _ => match compareTexts a b with
        | .lt => 1
        | .gt => 2
        | .eq => 3
      | _ :: _, [] => 1
      | [], _ => 2
    let differs := differs || place != 3 || isStrict
    let takes (n : Nat) : Bool := place == n || place == 3
    let check (n : Nat) (lines : List (List Char)) : List Nat :=
      if takes n && differs && !told.contains n && fallsBehind (lines.headD []) (lines.drop 1) then [n] else []
    let wrong := check 1 as ++ check 2 bs
    .line place ((if place == 2 then bs else as).headD []) :: wrong.map .disorder ++
      merged isStrict fuel differs (told ++ wrong) (if takes 1 then as.drop 1 else as)
        (if takes 2 then bs.drop 1 else bs)

/-- Compares two inputs whose lines are in order. -/
def comm : Tool := fun arguments =>
  let table : FlagTable :=
    { tool := "comm", letters := "123zCNT", valued := "O",
      long := [("check-order", 'C'), ("nocheck-order", 'N'), ("total", 'T'), ("output-delimiter", 'O'),
        ("zero-terminated", 'z')] }
  table.run arguments fun given => do
    match given.operands with
    | [a, b] =>
      let ending := if given.has 'z' then '\x00' else '\n'
      let read (name : String) : Act (Option (List (List Char))) := do
        match ← contentOf name with
        | .ok content =>
          let lines := splitAt ending content
          return some (if lines.getLast? == some [] then lines.dropLast else lines)
        | .error fault =>
          Act.complain (plainRefusal "comm" name fault)
          return none
      match ← read a with
      | none => Act.ended 1
      | some first =>
        match ← read b with
        | none => Act.ended 1
        | some second =>
          let hides (n : Nat) : Bool := given.has (Char.ofNat (n + '0'.toNat))
          let separator := ((given.value? 'O').getD "\t").toList
          let events := merged (given.has 'C') (first.length + second.length + 1) false [] first second
          let counted (n : Nat) : String :=
            toString (events.filter fun | .line place _ => place == n | .disorder _ => false).length
          let rec go (isWell : Bool) : List Merging → Act Bool
            | [] => return isWell
            | .line place text :: rest => do
              let before := ((List.range (place - 1)).filter fun i => !hides (i + 1)).map fun _ => separator
              if !hides place then Act.say (String.ofList (before.flatten ++ text ++ [ending]))
              go isWell rest
            | .disorder place :: rest => do
              if given.has 'N' then go isWell rest
              else
                Act.complain s!"comm: file {place} is not in sorted order"
                if given.has 'C' then return false else go false rest
          let isWell ← go true events
          if !isWell && given.has 'C' then Act.ended 1
          else
            if given.has 'T' then
              Act.say ((String.ofList separator).intercalate [counted 1, counted 2, counted 3, "total"] ++ "\n")
            if isWell then Act.ended 0 else Act.failing 1 "comm: input is not in sorted order"
    | [] => Act.failing 1 ("comm: missing operand" ++ helpHint "comm")
    | [a] => Act.failing 1 (s!"comm: missing operand after {curlyQuoted a}" ++ helpHint "comm")
    | _ :: _ :: extra :: _ => Act.failing 1 (s!"comm: extra operand {curlyQuoted extra}" ++ helpHint "comm")

/-! ## Characters -/

/-- The octets of a named class in order. -/
def classOctets (name : String) : List Char :=
  ((List.range 256).map Char.ofNat).filter (inClass name)

/-- The names of the classes. -/
def classNames : List String :=
  ["alnum", "alpha", "blank", "cntrl", "digit", "graph", "lower", "print", "punct", "space", "upper", "xdigit"]

/-- A part of a set of characters: characters, or one that is repeated as often as asked for, or as often as
there is room. -/
inductive SetPart where
  | chars (chars : List Char)
  | filling (c : Char)

/-- A character of a set, with backslashes read. -/
def setChar : List Char → Option (Char × List Char)
  | [] => none
  | ['\\'] => some ('\\', [])
  | '\\' :: c :: rest =>
    if (octalDigit? c).isSome then some (octal 3 (c :: rest))
    else if "abfnrtv\\".toList.contains c then some ((controlOf? c).getD c, rest)
    else some (c, rest)
  | c :: rest => some (c, rest)

/-- Reads a set of characters. -/
def setParts : Nat → List Char → Except String (List SetPart)
  | 0, _ => .ok []
  | _, [] => .ok []
  | fuel + 1, s =>
    let more (part : SetPart) (rest : List Char) : Except String (List SetPart) :=
      (setParts fuel rest).map (part :: ·)
    let ordinary : Except String (List SetPart) :=
      match setChar s with
      | none => .ok []
      | some (low, '-' :: rest) =>
        match setChar rest with
        | none => more (.chars [low]) ['-']
        | some (high, rest) =>
          if high < low then
            let shown := nameQuoted (String.ofList [low, '-', high])
            .error s!"range-endpoints of {shown} are in reverse collating sequence order"
          else
            more (.chars ((List.range (high.toNat - low.toNat + 1)).map fun i => Char.ofNat (low.toNat + i))) rest
      | some (c, rest) => more (.chars [c]) rest
    match s with
    | '[' :: ':' :: rest =>
      let name := rest.takeWhile Char.isAlpha
      match rest.drop name.length with
      | ':' :: ']' :: rest =>
        if classNames.contains (String.ofList name) then more (.chars (classOctets (String.ofList name))) rest
        else .error s!"invalid character class {curlyQuoted (String.ofList name)}"
      | _ => ordinary
    | '[' :: '=' :: c :: '=' :: ']' :: rest => more (.chars [c]) rest
    | '[' :: rest =>
      match setChar rest with
      | some (c, '*' :: behind) =>
        let digits := behind.takeWhile Char.isDigit
        match behind.drop digits.length with
        | ']' :: rest =>
          let n := if digits.head? == some '0' then
              digits.foldl (fun n c => n * 8 + (octalDigit? c).getD 0) 0 else decimal digits
          if n = 0 then more (.filling c) rest else more (.chars (List.replicate n c)) rest
        | _ => ordinary
      | _ => ordinary
    | _ => ordinary

/-- The characters of a set, where what fills it is as long as there is room. -/
def setChars (room : Nat) (parts : List SetPart) : List Char :=
  let fixed := parts.foldl (fun n part => match part with
    | .chars chars => n + chars.length
    | .filling _ => n) 0
  parts.flatMap fun
    | .chars chars => chars
    | .filling c => List.replicate (room - fixed) c

/-- A text in which neighbours that are the same character of a set are one. -/
def squeezed (set : List Char) : Option Char → List Char → List Char
  | _, [] => []
  | before, c :: rest =>
    if before == some c && set.contains c then squeezed set before rest else c :: squeezed set (some c) rest

/-- Exchanges, removes or squeezes the characters of its input. -/
def tr : Tool := fun arguments =>
  let table : FlagTable :=
    { tool := "tr", letters := "cCdst", inOrder := true,
      long := [("complement", 'c'), ("delete", 'd'), ("squeeze-repeats", 's'), ("truncate-set1", 't')] }
  table.run arguments fun given => do
    let (deletes, squeezes) := (given.has 'd', given.has 's')
    let wrong (cause : String) : Act Unit := Act.failing 1 (s!"tr: {cause}" ++ helpHint "tr")
    let least := if deletes == squeezes then 2 else 1
    let most := if deletes && !squeezes then 1 else 2
    match given.operands with
    | [] => wrong "missing operand"
    | operands =>
      if operands.length < least then
        let aim := if squeezes then "Two strings must be given when both deleting and squeezing repeats."
          else "Two strings must be given when translating."
        wrong ("missing operand after " ++ curlyQuoted (operands.headD "") ++ "\n" ++ aim)
      else if operands.length > most then
        let aim := if operands.length = 2 then
          "\nOnly one string may be given when deleting without squeezing repeats." else ""
        wrong ("extra operand " ++ curlyQuoted (operands.getD most "") ++ aim)
      else
        let read (s : String) : Except String (List SetPart) := setParts (s.length + 1) s.toList
        match read (operands.headD ""), read (operands.getD 1 "") with
        | .error cause, _ | _, .error cause => Act.failing 1 s!"tr: {cause}"
        | .ok first, .ok second =>
          let isComplement := given.has 'c' || given.has 'C'
          let named := setChars 0 first
          let old := if isComplement then ((List.range 256).map Char.ofNat).filter (!named.contains ·) else named
          let text ← Act.takeInput
          if deletes then
            let table := (List.range 256).map fun n => old.contains (Char.ofNat n)
            let removed := table.toArray
            let kept := text.filter fun c => !(removed.getD c.toNat false)
            let kept := if squeezes then squeezed (setChars 0 second) none kept else kept
            Act.say (String.ofList kept)
            Act.ended 0
          else if operands.length = 1 then
            Act.say (String.ofList (squeezed old none text))
            Act.ended 0
          else
            let new := setChars old.length second
            if new.isEmpty && !given.has 't' then
              Act.failing 1 "tr: when not truncating set1, string2 must be non-empty"
            else
              let new := if given.has 't' then new
                else new ++ List.replicate (old.length - new.length) (new.getLast?.getD ' ')
              let pairs := (old.zip new).reverse
              let table := ((List.range 256).map fun n =>
                (pairs.lookup (Char.ofNat n)).getD (Char.ofNat n)).toArray
              let changed := text.map fun c => table.getD c.toNat c
              let changed := if squeezes then squeezed new none changed else changed
              Act.say (String.ofList changed)
              Act.ended 0

end WasmPackaging.Shell
