import WasmPackaging.Text.Number
import WasmPackaging.Text.Quoted

/-!
The options on a command line. A long option may be shortened as long as it is the only one meant, and
be given its value behind an equals sign; short options without a value may be run together. What
stands behind two dashes is no option.
-/

namespace WasmPackaging.CommandLine

open Text

/-- An option: its names, whether it takes a value, and the values it may take if not every one. -/
structure OptionSpec where
  names : List String
  takesValue : Bool := false
  choices : List String := []
  deriving DecidableEq

/-- Why a command line is not carried out: it is wrong, or it asks how the program is used. -/
inductive Refusal where
  | usage (program message : String)
  | help (program : String)
  deriving DecidableEq

/-- A program and its options. -/
structure Grammar where
  program : String
  options : List OptionSpec

/-- What an argument is. -/
inductive Role where
  | plain
  | separator
  | option (spec : OptionSpec) (name : String) (value : Option String)
  | unknown
  deriving DecidableEq

/-- An argument and what it is. -/
structure Word where
  text : String
  role : Role
  deriving DecidableEq

/-- An option that was given, with its value. -/
structure Given where
  spec : OptionSpec
  value : Option String
  deriving DecidableEq

/-- The option that asks how a program is used. -/
def helpOption : OptionSpec := { names := ["-h", "--help"] }

/-- The names of an option in messages. -/
def OptionSpec.label (spec : OptionSpec) : String := "/".intercalate spec.names

/-- A text that says a value is none of some choices. -/
def invalidChoice (label value : String) (choices : List String) : String :=
  let listed := commaList (choices.map quoted)
  s!"argument {label}: invalid choice: {quoted value} (choose from {listed})"

/-- A text cut at the first equals sign, if it has one. -/
def atEquals (s : String) : String × Option String :=
  let start := s.toList.takeWhile (· != '=')
  match s.toList.drop start.length with
  | [] => (s, none)
  | _ :: value => (String.ofList start, some (String.ofList value))

/-- Whether a text is a minus and a number; a line end behind it does not count. -/
def isNegativeNumber (s : String) : Bool :=
  let digits (cs : List Char) : Bool := !cs.isEmpty && cs.all fun c => (digitValue? c).isSome
  match withoutLineEnd s.toList with
  | '-' :: rest =>
    let whole := rest.takeWhile fun c => (digitValue? c).isSome
    match rest.drop whole.length with
    | [] => digits whole
    | '.' :: fraction => digits fraction
    | _ => false
  | _ => false

namespace Grammar

/-- A refusal of a command line that is wrong. -/
def refuse {α : Type} (g : Grammar) (message : String) : Except Refusal α := .error (.usage g.program message)

/-- The names of the options, each with its option. -/
def named (g : Grammar) : List (String × OptionSpec) :=
  g.options.flatMap fun spec => spec.names.map (·, spec)

/-- The options that an argument may mean when it is none of the names: by the start of a long name, or
by a short name that more letters follow. -/
def candidates (g : Grammar) (argument : String) : List (String × Role) :=
  if argument.toList.take 2 = ['-', '-'] then
    let (start, value) := atEquals argument
    g.named.filterMap fun (name, spec) =>
      if start.toList.isPrefixOf name.toList then some (name, .option spec name value) else none
  else
    let short := String.ofList (argument.toList.take 2)
    let more := String.ofList (argument.toList.drop 2)
    g.named.filterMap fun (name, spec) =>
      if name = short then some (name, .option spec name (some more))
      else if argument.toList.isPrefixOf name.toList then some (name, .option spec name none) else none

/-- What an argument is that does not stand behind two dashes. -/
def roleOf (g : Grammar) (argument : String) : Except Refusal Role :=
  if argument.toList.head? ≠ some '-' then .ok .plain
  else match g.named.lookup argument with
    | some spec => .ok (.option spec argument none)
    | none =>
      if argument = "-" then .ok .plain
      else
        let (name, value) := atEquals argument
        match if value.isSome then g.named.lookup name else none with
        | some spec => .ok (.option spec name value)
        | none => match g.candidates argument with
          | [(_, role)] => .ok role
          | [] => .ok (if isNegativeNumber argument || argument.toList.contains ' ' then .plain else .unknown)
          | several =>
            let matching := commaList (several.map Prod.fst)
            g.refuse s!"ambiguous option: {argument} could match {matching}"

/-- What each argument is. -/
def words (g : Grammar) : List String → Except Refusal (List Word)
  | [] => .ok []
  | argument :: rest =>
    if argument = "--" then .ok (⟨argument, .separator⟩ :: rest.map (⟨·, .plain⟩))
    else do
      let role ← g.roleOf argument
      return ⟨argument, role⟩ :: (← g.words rest)

/-- An option with its value, which must be one of its choices. -/
def accept (g : Grammar) (spec : OptionSpec) (value : Option String) : Except Refusal Given :=
  match value with
  | none => if spec = helpOption then .error (.help g.program) else .ok ⟨spec, none⟩
  | some text =>
    if spec.choices = [] ∨ spec.choices.contains text then .ok ⟨spec, some text⟩
    else g.refuse (invalidChoice spec.label text spec.choices)

/-- A refusal of a value for an option that takes none. -/
def refuseValue {α : Type} (g : Grammar) (spec : OptionSpec) (value : String) : Except Refusal α :=
  g.refuse s!"argument {spec.label}: ignored explicit argument {quoted value}"

/-- The options in a run of short ones, given the letters behind the first. The last one may take what
follows it as its value; if nothing does, it is still to be given one. -/
def runTogether (g : Grammar) (spec : OptionSpec) : List Char → Except Refusal (List OptionSpec × Option String)
  | [] => .ok ([spec], none)
  | c :: more =>
    if spec.takesValue then .ok ([spec], some (String.ofList (c :: more)))
    else match g.named.lookup (String.ofList ['-', c]) with
      | none => g.refuseValue spec (String.ofList (c :: more))
      | some next => do
        let (specs, value) ← g.runTogether next more
        return (spec :: specs, value)

/-- The options that an argument gives, and the value that stands in it. -/
def optionsIn (g : Grammar) (spec : OptionSpec) (name : String) :
    Option String → Except Refusal (List OptionSpec × Option String)
  | none => .ok ([spec], none)
  | some value =>
    if spec.takesValue then .ok ([spec], some value)
    else if value = "" ∨ name.toList.take 2 = ['-', '-'] then g.refuseValue spec value
    else g.runTogether spec value.toList

/-- The options that are given, the arguments that are none, and, if the arguments of a command are to be
left alone, those from the first plain one on. -/
def read (g : Grammar) (hasCommand : Bool) :
    List Word → Except Refusal (List Given × List String × List Word)
  | [] => .ok ([], [], [])
  | word :: rest =>
    match word.role with
    | .plain | .separator =>
      if hasCommand then .ok ([], [], word :: rest)
      else do
        let (given, extras, rest) ← g.read hasCommand rest
        return (given, word.text :: extras, rest)
    | .unknown => do
      let (given, extras, rest) ← g.read hasCommand rest
      return (given, word.text :: extras, rest)
    | .option spec name value => do
      let (specs, value) ← g.optionsIn spec name value
      let flags ← specs.dropLast.mapM fun spec => g.accept spec none
      let last := specs.getLast?.getD spec
      if last.takesValue && value.isNone then
        match rest with
        | ⟨text, .plain⟩ :: rest => do
          let given ← g.accept last (some text)
          let (more, extras, rest) ← g.read hasCommand rest
          return (flags ++ given :: more, extras, rest)
        | _ => g.refuse s!"argument {last.label}: expected one argument"
      else do
        let given ← g.accept last value
        let (more, extras, rest) ← g.read hasCommand rest
        return (flags ++ given :: more, extras, rest)

end Grammar

/-- The values that were given for an option, in order. -/
def valuesOf (spec : OptionSpec) (given : List Given) : List String :=
  (given.filter fun g => g.spec = spec).filterMap Given.value

/-- Whether an option was given. -/
def isGiven (spec : OptionSpec) (given : List Given) : Bool := given.any fun g => g.spec = spec

end WasmPackaging.CommandLine
