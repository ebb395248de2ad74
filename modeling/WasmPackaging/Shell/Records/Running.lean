import WasmPackaging.Shell.Records.Machine

/-!
Running programs on records. Expressions are evaluated and statements done with fuel, which every step into
one uses up by one; a turn of a loop starts with the fuel of the turn before it.
-/

namespace WasmPackaging.Shell.Records

open Text

namespace Run

/-! ## Texts -/

/-- What is put in for a match: a mark in the replacement stands for the match. -/
def replacement (matched : List Char) : List Char → List Char
  | '\\' :: '&' :: rest => '&' :: replacement matched rest
  | '\\' :: '\\' :: '&' :: rest => '\\' :: (matched ++ replacement matched rest)
  | '&' :: rest => matched ++ replacement matched rest
  | c :: rest => c :: replacement matched rest
  | [] => []

/-- A text with matches replaced: the first one, or all of them; and how many there are. -/
def replaced (r : CompiledRegex) (isAll : Bool) (new s : List Char) : Nat × List Char :=
  let t : MatchedText := .ofList r s
  let chars := s.toArray
  let found := if isAll then r.findAll t else (r.find? t 0).toList
  let (parts, place) := found.foldl (fun ((parts, place) : List (List Char) × Nat) m =>
    (replacement (m.group chars 0) new :: (chars.extract place m.start).toList :: parts, m.stop)) ([], 0)
  (found.length, parts.reverse.flatten ++ (chars.extract place chars.size).toList)

/-- The place at which a text occurs in another, counted from one; zero if it does not. -/
def placeOf (part : List Char) : Nat → List Char → Nat
  | place, s =>
    if part.isPrefixOf s then place
    else match s with
      | [] => 0
      | _ :: rest => placeOf part (place + 1) rest

/-- A number rounded to a whole one; a half goes to the even neighbour. -/
def rounded (x : Float) : Int :=
  let low := x.floor
  let rest := x - low
  let n := wholeOf low
  if rest > 0.5 || (rest == 0.5 && n % 2 != 0) then n + 1 else n

/-- A part of a text, from a place counted from one, of a length. -/
def partOf (s : List Char) (start : Float) (length : Option Float) : List Char :=
  let first := rounded start
  let stop := match length with
    | some length => if length.isNaN then first else min (rounded (start + length)) (s.length + 1)
    | none => s.length + 1
  let first := max first 1
  (s.drop (first - 1).toNat).take (stop - first).toNat

/-- A text written by a format, as far as there are values, and whether there are enough. -/
def formatted (format : String) : Nat → List Char → List Value → List String → String × Bool
  | 0, _, _, done => (String.join done.reverse, true)
  | fuel + 1, s, values, done =>
    let plain := s.takeWhile (· != '%')
    let done := String.ofList plain :: done
    match s.drop (plain.length + 1) with
    | [] => (String.join (if plain.length < s.length then "%" :: done else done).reverse, true)
    | '%' :: rest => formatted format fuel rest values ("%" :: done)
    | behind =>
      match WrittenDirective.read behind with
      | none => (String.join (("%" ++ String.ofList behind) :: done).reverse, true)
      | some written =>
        let short : String × Bool := (String.join done.reverse, false)
        let number? (values : List Value) : Option (Int × List Value) :=
          match values with
          | [] => none
          | value :: rest => some (wholeOf value.toNumber, rest)
        let width? := if written.widthGiven then number? values else some ((written.directive.width : Int), values)
        match width? with
        | none => short
        | some (width, values) =>
          let precision? := if written.precisionGiven then (number? values).map fun (n, rest) => (some n.toNat, rest)
            else some (written.directive.precision, values)
          match precision? with
          | none => short
          | some (_, []) => short
          | some (precision, value :: values) =>
            let flags := if width < 0 then '-' :: written.directive.flags else written.directive.flags
            let d : Directive := { written.directive with flags, width := width.natAbs, precision }
            let text := match d.letter with
              | 'd' | 'i' => d.signed (wholeOf value.toNumber)
              | 'o' | 'x' | 'X' | 'u' => d.unsigned (wholeOf value.toNumber)
              | 'c' =>
                match value.asNumber?, value with
                | some _, .unset => d.text ""
                | some x, _ => d.text (String.singleton (Char.ofNat (wholeOf x % 256).toNat))
                | none, value => d.text (String.ofList ((value.toText format).toList.take 1))
              | 's' => d.text (value.toText format)
              | _ => d.real value.toNumber
            formatted format fuel written.rest values (text :: done)

/-- The text of some values of which the first one is a format. What can be written before a value is missing
goes ahead. -/
def format (name : String) (ahead : String → Run Unit) (values : List Value) : Run String := do
  match values with
  | [] => return ""
  | first :: rest =>
    let s ← textOf first
    let (text, isWhole) := formatted (← numberFormat) (s.length + 1) s.toList rest []
    if isWhole then return text
    else
      ahead text
      let file ← textOf (← global "FILENAME")
      let count ← textOf (← global "NR")
      let place ← textOf (← global "FNR")
      fail (s!"run time error: not enough arguments passed to {name}(\"{s}\")\n" ++
        s!"\tFILENAME=\"{file}\" FNR={place} NR={count}")

/-- The next number of a sequence that looks as if it were drawn. -/
def draw : Run Float := do
  modify fun machine => { machine with seed := (machine.seed * 16807) % 2147483647 }
  return Float.ofNat (← get).seed / 2147483647.0

/-! ## Loops -/

/-- Does turns of a loop as long as they do not tell that it is over. -/
def turns (act : Run Bool) : Nat → Run Unit
  | 0 => return
  | n + 1 => do
    let goesOn ← tryCatch act fun
      | .again => pure true
      | .leave => pure false
      | jump => throw jump
    if goesOn then turns act n

/-- Does something for each key of an array. -/
def forKeys (name : String) (act : Run Unit) : List String → Run Unit
  | [] => return
  | key :: keys => do
    setName name (.given key)
    let goesOn ← tryCatch (do act; pure true) fun
      | .again => pure true
      | .leave => pure false
      | jump => throw jump
    if goesOn then forKeys name act keys

/-- How often a loop is run through at most. -/
def mostTurns : Nat := 100000000

/-! ## Evaluation -/

/-- Something that can be set. -/
inductive Place where
  | name (name : String)
  | field (number : Int)
  | element (array key : String)

/-- The value at a place; an element comes into being when it is asked for. -/
def valueAt : Place → Run Value
  | .name name => valueOf name
  | .field number => field number
  | .element array key => do
    match (← table array).get? key with
    | some value => return value
    | none =>
      changeTable array (·.insert key .unset)
      return .unset

/-- Sets what is at a place. -/
def setAt : Place → Value → Run Unit
  | .name name, value => setName name value
  | .field number, value => setField number value
  | .element array key, value => changeTable array (·.insert key value)

/-- The key that some values make. -/
def joinedKey (values : List Value) : Run String := do
  let separator ← textOf (← global "SUBSEP")
  return separator.intercalate (← values.mapM textOf)

/-- The expression that a value is as a text. -/
def regexOf (value : Value) : Run CompiledRegex := do
  let text ← textOf value
  match Reader.regexOf text.toList with
  | .ok r => return r
  | .error cause => fail s!"regular expression compile failed ({cause})\n{text}"

/-- Whether an expression describes a part of a text. -/
def describes (r : CompiledRegex) (text : String) : Bool := (r.find? (.ofList r text.toList) 0).isSome

/-- What a function that needs only the values of its arguments comes to. -/
def computed (function : Builtin) (values : List Value) : Run Value := do
  let number (i : Nat) : Float := (values.getD i .unset).toNumber
  let text (i : Nat) : Run String := textOf (values.getD i .unset)
  match function with
  | .length => return .ofNat (← text 0).length
  | .substr =>
    let length := if values.length > 2 then some (number 2) else none
    return .text (String.ofList (partOf (← text 0).toList (number 1) length))
  | .index => return .ofNat (placeOf (← text 1).toList 1 (← text 0).toList)
  | .sin => return .number (number 0).sin
  | .cos => return .number (number 0).cos
  | .atan2 => return .number (Float.atan2 (number 0) (number 1))
  | .exp => return .number (number 0).exp
  | .log => return .number (number 0).log
  | .sqrt => return .number (number 0).sqrt
  | .int => return .number (if (number 0) < 0.0 then -((number 0).abs.floor) else (number 0).floor)
  | .rand => return .number (← draw)
  | .srand =>
    let before := (← get).seed
    modify fun machine => { machine with seed := (rounded (number 0)).natAbs % 2147483646 + 1 }
    return .ofNat before
  | .tolower => return .text (String.ofList ((← text 0).toList.map Char.toLower))
  | .toupper => return .text (String.ofList ((← text 0).toList.map Char.toUpper))
  | .sprintf => return .text (← format "sprintf" (fun _ => pure ()) values)
  | .system => return .number (Float.ofInt (← runCommand (← text 0)))
  | .close =>
    return .number (Float.ofInt (← close (← text 0)))
  | .fflush =>
    flush
    return .number 0.0
  | _ => return .unset

/-- Takes a record that was read: to a place, or as the record. -/
def take (target : Option Place) : Option String → Run Value
  | none => return .number 0.0
  | some record => do
    match target with
    | some place => setAt place (.given record)
    | none => setRecord record
    return .number 1.0

mutual

/-- The value of an expression. -/
def evaluate : Nat → Expression → Run Value
  | 0, _ => fail "function call nesting is too deep"
  | fuel + 1, e => do
    match e with
    | .number x => return .number x
    | .text s => return .text s
    | .regex r => return .ofBool (describes r (← get).record)
    | .name name => valueOf name
    | .field number => field (wholeOf (← evaluate fuel number).toNumber)
    | .element array keys => valueAt (.element array (← key fuel keys))
    | .list items => return .text (← key fuel items)
    | .isKey keys array =>
      let key ← key fuel keys
      return .ofBool ((← table array).get? key).isSome
    | .assign operator target value =>
      let place ← place fuel target
      let value ← evaluate fuel value
      let value ← match operator with
        | none => pure value
        | some operator => do pure (operator.apply (← numberFormat) (← valueAt place) value)
      setAt place value
      return value
    | .step before up target =>
      let place ← place fuel target
      let old := (← valueAt place).toNumber
      let new := if up then old + 1.0 else old - 1.0
      setAt place (.number new)
      return .number (if before then new else old)
    | .choice condition yes no =>
      if (← evaluate fuel condition).holds then evaluate fuel yes else evaluate fuel no
    | .either first second =>
      if (← evaluate fuel first).holds then return .ofBool true
      else return .ofBool (← evaluate fuel second).holds
    | .both first second =>
      if (← evaluate fuel first).holds then return .ofBool (← evaluate fuel second).holds
      else return .ofBool false
    | .opposite e => return .ofBool !(← evaluate fuel e).holds
    | .negative e => return .number (-(← evaluate fuel e).toNumber)
    | .positive e => return .number (← evaluate fuel e).toNumber
    | .binary operator first second =>
      let first ← evaluate fuel first
      let second ← evaluate fuel second
      return operator.apply (← numberFormat) first second
    | .compare comparison first second =>
      let first ← evaluate fuel first
      let second ← evaluate fuel second
      return .ofBool (compareValues (← numberFormat) comparison first second)
    | .describes isNegated text pattern =>
      let text ← textOf (← evaluate fuel text)
      let r ← regex fuel pattern
      return .ofBool (describes r text != isNegated)
    | .builtin function arguments => builtin fuel function arguments
    | .call name arguments =>
      match (← get).functions.lookup name with
      | none => fail s!"function {name} never defined"
      | some function =>
        let locals ← parameters fuel function.parameters arguments
        let before := (← get).frame
        modify fun machine => { machine with frame := locals }
        let value ← tryCatch (do execute fuel function.body; pure Value.unset) fun
          | .back value => pure value
          | jump => throw jump
        modify fun machine => { machine with frame := before }
        return value
    | .readRecord target =>
      let place ← target.mapM (place fuel)
      take place (← mainRecord)
    | .readFile target file =>
      let place ← target.mapM (place fuel)
      let name ← textOf (← evaluate fuel file)
      let content : Run (Option (List Char)) := do
        match ← ofAct (contentOf name) with
        | .ok content => return some content
        | .error _ => return none
      match ← sourceRecord name content with
      | none => return .number (-1.0)
      | some record => take place record
    | .readCommand target command =>
      let place ← target.mapM (place fuel)
      let name ← textOf (← evaluate fuel command)
      match ← sourceRecord name (do return some (← outputOf name)) with
      | none => return .number (-1.0)
      | some record => take place record
termination_by structural fuel => fuel

/-- The place that an expression names. -/
def place : Nat → Expression → Run Place
  | 0, _ => fail "function call nesting is too deep"
  | fuel + 1, e => do
    match e with
    | .name name => return .name name
    | .field number => return .field (wholeOf (← evaluate fuel number).toNumber)
    | .element array keys => return .element array (← key fuel keys)
    | _ => fail "assignment to what is no variable"
termination_by structural fuel => fuel

/-- The key that some expressions make. -/
def key : Nat → List Expression → Run String
  | 0, _ => fail "function call nesting is too deep"
  | fuel + 1, keys => do joinedKey (← keys.mapM fun e => evaluate fuel e)
termination_by structural fuel => fuel

/-- The regular expression that an expression is. -/
def regex : Nat → Expression → Run CompiledRegex
  | 0, _ => fail "function call nesting is too deep"
  | fuel + 1, e => do
    match e with
    | .regex r => return r
    | e => regexOf (← evaluate fuel e)
termination_by structural fuel => fuel

/-- The variables of a function. A variable without a value that is given for one may become an array. -/
def parameters : Nat → List String → List Expression → Run (List (String × Local))
  | 0, _, _ => return []
  | _, [], _ => return []
  | fuel + 1, name :: names, arguments => do
    let fresh : Run Local := do
      let number := (← get).fresh
      modify fun machine => { machine with fresh := number + 1 }
      return .unset s!"#{number}"
    let given ← match arguments with
      | [] => fresh
      | .name other :: _ => do
        match (← get).frame.lookup other with
        | some given => pure given
        | none =>
          if ((← get).globals.get? other).isSome || other == "NF" then pure (Local.value (← global other))
          else pure (Local.unset other)
      | e :: _ => pure (Local.value (← evaluate fuel e))
    return (name, given) :: (← parameters fuel names arguments.tail)
termination_by structural fuel => fuel

/-- The value of a function that is always there. -/
def builtin : Nat → Builtin → List Expression → Run Value
  | 0, _, _ => fail "function call nesting is too deep"
  | fuel + 1, function, arguments => do
    let values : Run (List Value) := arguments.mapM fun e => evaluate fuel e
    match function, arguments with
    | .length, [] => return .ofNat (← get).record.length
    | .length, [.name name] =>
      let size := (← table name).entries.size
      if size > 0 then return .ofNat size else computed .length [← valueOf name]
    | .split, text :: .name array :: rest =>
      let s := (← textOf (← evaluate fuel text)).toList
      let parts ← match rest with
        | [.regex r] => pure (partsBetween r s)
        | [separator] => do partsBy (← textOf (← evaluate fuel separator)) s
        | _ => do partsBy (← textOf (← global "FS")) s
      let numbered := parts.zip ((List.range parts.length).map (· + 1))
      let table := numbered.foldl (fun (t : Table) ((part, n) : List Char × Nat) =>
        t.insert (toString n) (.given (String.ofList part))) {}
      changeTable array fun _ => table
      return .ofNat parts.length
    | .search, [text, pattern] =>
      let s := (← textOf (← evaluate fuel text)).toList
      let r ← regex fuel pattern
      let (start, length) : Int × Int := match r.find? (.ofList r s) 0 with
        | some m => (m.start + 1, (m.stop - m.start : Nat))
        | none => (0, -1)
      setPlain "RSTART" (.number (Float.ofInt start))
      setPlain "RLENGTH" (.number (Float.ofInt length))
      return .number (Float.ofInt start)
    | .sub, pattern :: new :: rest => substitute fuel false pattern new (rest.headD (.field (.number 0.0)))
    | .gsub, pattern :: new :: rest => substitute fuel true pattern new (rest.headD (.field (.number 0.0)))
    | function, _ => computed function (← values)
termination_by structural fuel => fuel

/-- Replaces matches at a place; answers with how many there are. -/
def substitute : Nat → Bool → Expression → Expression → Expression → Run Value
  | 0, _, _, _, _ => fail "function call nesting is too deep"
  | fuel + 1, isAll, pattern, new, target => do
    let r ← regex fuel pattern
    let new := (← textOf (← evaluate fuel new)).toList
    let place ← place fuel target
    let (count, text) := replaced r isAll new (← textOf (← valueAt place)).toList
    if count > 0 then setAt place (.text (String.ofList text))
    return .ofNat count
termination_by structural fuel => fuel

/-- Does a statement. -/
def execute : Nat → Statement → Run Unit
  | 0, _ => fail "function call nesting is too deep"
  | fuel + 1, statement => do
    match statement with
    | .evaluate e =>
      let _ ← evaluate fuel e
    | .print values target =>
      let ending ← textOf (← global "ORS")
      let text ← match values with
        | [] => pure (← get).record
        | values => do
          let format := (← global "OFMT").toText "%.6g"
          let texts ← values.mapM fun e => do return (← evaluate fuel e).toText format
          pure ((← textOf (← global "OFS")).intercalate texts)
      match target with
      | none => say (text ++ ending)
      | some (destination, e) => sayTo destination (← textOf (← evaluate fuel e)) (text ++ ending)
    | .printFormatted values target =>
      let values ← values.mapM fun e => evaluate fuel e
      let write ← match target with
        | none => pure say
        | some (destination, e) => do
          let name ← textOf (← evaluate fuel e)
          pure (sayTo destination name)
      write (← format "printf" write values)
    | .block statements => statements.forM fun statement => execute fuel statement
    | .choose condition yes no =>
      if (← evaluate fuel condition).holds then execute fuel yes else execute fuel no
    | .loop condition step body =>
      turns (do
        if (← evaluate fuel condition).holds then
          tryCatch (execute fuel body) fun
            | .again => pure ()
            | jump => throw jump
          execute fuel step
          pure true
        else pure false) mostTurns
    | .loopAfter body condition =>
      turns (do
        tryCatch (execute fuel body) fun
          | .again => pure ()
          | jump => throw jump
        return (← evaluate fuel condition).holds) mostTurns
    | .forEach name array body =>
      forKeys name (execute fuel body) (← table array).keys
    | .leave => throw .leave
    | .again => throw .again
    | .next => throw .next
    | .nextFile => throw .nextFile
    | .quit status =>
      if let some e := status then
        let status := wholeOf (← evaluate fuel e).toNumber
        modify fun machine => { machine with status }
      throw .quit
    | .back e =>
      let value ← match e with
        | some e => evaluate fuel e
        | none => pure .unset
      throw (.back value)
    | .delete array keys =>
      let key ← key fuel keys
      changeTable array (·.erase key)
    | .clear array => changeTable array fun _ => {}
termination_by structural fuel => fuel

end

end Run

end WasmPackaging.Shell.Records
