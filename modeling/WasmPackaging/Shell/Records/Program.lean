import WasmPackaging.Shell.Regex

/-!
Programs on records: rules that say on which records something is done, and what. A record is a line
unless its end is set otherwise, and its fields are the words in it.
-/

namespace WasmPackaging.Shell.Records

/-- What joins two values. -/
inductive Operator where
  | add
  | subtract
  | multiply
  | divide
  | remainder
  | power
  | join
  deriving DecidableEq

/-- How two values may compare. -/
inductive Comparison where
  | less
  | atMost
  | equal
  | different
  | more
  | atLeast
  deriving DecidableEq

/-- A function that is always there. -/
inductive Builtin where
  | length
  | substr
  | index
  | split
  | sub
  | gsub
  | search
  | sprintf
  | sin
  | cos
  | atan2
  | exp
  | log
  | sqrt
  | int
  | rand
  | srand
  | tolower
  | toupper
  | system
  | close
  | fflush
  deriving DecidableEq

/-- An expression. A regular expression on its own is matched with the record; a list stands in brackets. -/
inductive Expression where
  | number (x : Float)
  | text (s : String)
  | regex (r : CompiledRegex)
  | name (name : String)
  | field (number : Expression)
  | element (array : String) (keys : List Expression)
  | list (items : List Expression)
  | isKey (keys : List Expression) (array : String)
  | assign (operator : Option Operator) (target value : Expression)
  | step (before up : Bool) (target : Expression)
  | choice (condition yes no : Expression)
  | either (first second : Expression)
  | both (first second : Expression)
  | opposite (e : Expression)
  | negative (e : Expression)
  | positive (e : Expression)
  | binary (operator : Operator) (first second : Expression)
  | compare (comparison : Comparison) (first second : Expression)
  | describes (isNegated : Bool) (text pattern : Expression)
  | builtin (function : Builtin) (arguments : List Expression)
  | call (function : String) (arguments : List Expression)
  | readRecord (target : Option Expression)
  | readFile (target : Option Expression) (file : Expression)
  | readCommand (target : Option Expression) (command : Expression)

/-- Where what is written goes: into a file, behind its content, or to a command. -/
inductive Destination where
  | file
  | behindFile
  | command
  deriving DecidableEq

/-- A statement. -/
inductive Statement where
  | evaluate (e : Expression)
  | print (values : List Expression) (target : Option (Destination × Expression))
  | printFormatted (values : List Expression) (target : Option (Destination × Expression))
  | block (statements : List Statement)
  | choose (condition : Expression) (yes no : Statement)
  | loop (condition : Expression) (step body : Statement)
  | loopAfter (body : Statement) (condition : Expression)
  | forEach (name array : String) (body : Statement)
  | leave
  | again
  | next
  | nextFile
  | quit (status : Option Expression)
  | back (value : Option Expression)
  | delete (array : String) (keys : List Expression)
  | clear (array : String)

/-- When a rule applies: before all records, behind them, to all, to some, or from one to another. -/
inductive Occasion where
  | first
  | last
  | always
  | on (condition : Expression)
  | between (start stop : Expression)

/-- A rule; one without a body writes the record. -/
structure Rule where
  occasion : Occasion
  body : Option Statement

/-- A function of a program. -/
structure Function where
  parameters : List String
  body : Statement

/-- A program. -/
structure Program where
  rules : List Rule := []
  functions : List (String × Function) := []

end WasmPackaging.Shell.Records
