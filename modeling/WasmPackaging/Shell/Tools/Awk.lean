import WasmPackaging.Shell.Records.Running

/-!
The tool that runs a program on the records of its inputs: the rules that come first, those for each record,
and those that come last.
-/

namespace WasmPackaging.Shell

namespace Records

namespace Run

/-- Whether a rule applies now. Of one that applies from one record to another it is kept whether it does. -/
def applies (number : Nat) : Occasion → Run Bool
  | .first | .last => return false
  | .always => return true
  | .on condition => return (← evaluate plenty condition).holds
  | .between start stop => do
    let isWithin := (← get).ranges.contains number
    if !isWithin && !(← evaluate plenty start).holds then return false
    else
      let isLast := (← evaluate plenty stop).holds
      modify fun machine =>
        let others := machine.ranges.filter (· != number)
        { machine with ranges := if isLast then others else number :: others }
      return true
where
  /-- The fuel for a step. -/
  plenty : Nat := 100000

/-- Runs the body of a rule, or writes the record. -/
def runRule (rule : Rule) : Run Unit :=
  match rule.body with
  | some body => execute applies.plenty body
  | none => execute applies.plenty (.print [] none)

/-- Runs the rules that apply to a record. -/
def runRules (rules : List (Nat × Rule)) : Run Unit :=
  rules.forM fun (number, rule) => do if ← applies number rule.occasion then runRule rule

/-- Runs the rules on record after record. -/
def runOnRecords (rules : List (Nat × Rule)) : Run Unit :=
  turns (do
    match ← mainRecord with
    | none => return false
    | some record =>
      setRecord record
      tryCatch (runRules rules) fun
        | .next => pure ()
        | .nextFile => modify fun machine => { machine with input := some [] }
        | jump => throw jump
      return true) mostTurns

/-- Runs a program, and its last rules also if it ends before. -/
def runProgram (rules : List Rule) : Run Unit := do
  let numbered := (List.range rules.length).zip rules
  let firsts := rules.filter fun rule => rule.occasion matches .first
  let lasts := rules.filter fun rule => rule.occasion matches .last
  let others := numbered.filter fun entry => !(entry.2.occasion matches .first | .last)
  let untilQuit (act : Run Unit) : Run Bool := tryCatch (do act; pure true) fun
    | .quit => pure false
    | jump => throw jump
  if ← untilQuit (firsts.forM runRule) then
    if !others.isEmpty || !lasts.isEmpty then
      let _ ← untilQuit (runOnRecords others)
  let _ ← untilQuit (lasts.forM runRule)

/-- Lets all commands that are written to read that, and writes what is held back. -/
def finishAll : Run Unit := do
  let { commands, .. } ← get
  modify fun machine => { machine with commands := [] }
  commands.forM fun (command, parts) => do
    let _ ← finish command parts
  flush

end Run

end Records

open Records in
/-- Runs a program on the records of its inputs. -/
def awk : Launcher := fun launch arguments => do
  let table : FlagTable := { tool := "awk", valued := "FvfW", inOrder := true, failure := 2 }
  match table.read arguments with
  | .error _ =>
    let wrong := (arguments.find? fun argument => argument.startsWith "-").getD ""
    Act.failing 2 s!"awk: not an option: {wrong}"
  | .ok given =>
    let texts ← (given.values 'f').mapM fun name => do return (name, ← contentOf name)
    let missing? := texts.findSome? fun
      | (name, .error fault) => some s!"cannot open \"{name}\" ({fault.text})"
      | _ => none
    let text := match texts.filterMap fun | (_, .ok text) => some text | _ => none with
      | [] => (given.operands.headD "").toList
      | parts => (parts.map (· ++ ['\n'])).flatten
    let operands := if texts.isEmpty then given.operands.drop 1 else given.operands
    if texts.isEmpty && given.operands.isEmpty then
      Act.failing 2 "Usage: awk [Options] [Program] [file ...]"
    else match missing?, Program.read text with
      | some cause, _ | none, .error cause => Act.failing 2 s!"awk: {cause}"
      | none, .ok program =>
        let passed ← passedVariables
        let act : Run Unit := do
          Run.presets.forM fun (name, value) => Run.setPlain name value
          if let some separator := given.value? 'F' then
            Run.setPlain "FS" (.text (String.ofList (withEscapesRead separator.toList)))
          (given.values 'v').forM fun argument => do
            if let some (name, value) := Run.assignment? argument then Run.assignGiven name value
          let counted := (List.range (operands.length + 1)).zip ("awk" :: operands)
          counted.forM fun (n, argument) =>
            Run.changeTable "ARGV" (·.insert (toString n) (.given argument))
          passed.forM fun (name, value) => Run.changeTable "ENVIRON" (·.insert name (.given value))
          Run.setPlain "ARGC" (.ofNat counted.length)
          Run.runProgram program.rules
        let (result, machine) ← (ExceptT.run act).run { functions := program.functions, launch }
        let status ← match result with
          | .error (.fail cause) => do
            Act.complain s!"awk: {cause}"
            pure 2
          | _ => pure (machine.status % 256)
        let _ ← (ExceptT.run Run.finishAll).run machine
        Act.sync
        Act.ended status

end WasmPackaging.Shell
