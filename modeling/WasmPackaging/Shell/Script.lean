/-!
Shell scripts: words with what is to be put into them, redirections and commands.
-/

namespace WasmPackaging.Shell

/-- What a redirection does with the file or descriptor it names. A document is a text of the script
itself, known by its number. -/
inductive RedirectionMode where
  | read
  | write
  | force
  | append
  | both
  | duplicate
  | document (number : Nat)
  deriving DecidableEq

mutual

/-- A part of a word. What is not quoted is split into fields at its blanks once values are put in. -/
inductive Segment where
  | text (quoted : Bool) (text : String)
  | home (user : String)
  | parameter (quoted : Bool) (name : String) (use : Use)
  | arithmetic (quoted : Bool) (expression : List Segment)
  | output (quoted : Bool) (body : Script)

/-- What is put in for a parameter. Where `empty` holds, an empty value counts as none. -/
inductive Use where
  | value
  | length
  | default (empty : Bool) (word : List Segment)
  | assign (empty : Bool) (word : List Segment)
  | demand (empty : Bool) (word : List Segment)
  | instead (empty : Bool) (word : List Segment)
  | withoutStart (longest : Bool) (pattern : List Segment)
  | withoutEnd (longest : Bool) (pattern : List Segment)
  | wrong

/-- A redirection of a descriptor. -/
inductive Redirection where
  | mk (descriptor : Nat) (mode : RedirectionMode) (target : List Segment)

/-- A script. A loop goes on as long as its condition succeeds, or as long as it fails. Where a line is
given, complaints name it. -/
inductive Script where
  | empty
  | simple (line : Nat) (assignments : List (String × List Segment)) (words : List (List Segment))
      (redirections : List Redirection)
  | pipe (parts : List Script)
  | sequence (first second : Script)
  | background (body : Script)
  | ifSucceeds (first second : Script)
  | ifFails (first second : Script)
  | negated (body : Script)
  | loop (whileSuccess : Bool) (condition body : Script)
  | choice (condition yes no : Script)
  | each (line : Nat) (name : String) (items : List (List Segment)) (body : Script)
  | cases (line : Nat) (word : List Segment) (branches : List (List (List Segment) × Script))
  | redirected (line : Nat) (body : Script) (redirections : List Redirection)
  | subshell (line : Nat) (body : Script)
  | define (line : Nat) (name : String) (body : Script)

end

instance : Inhabited Script := ⟨.empty⟩

/-- A word of a script. -/
abbrev ScriptWord := List Segment

end WasmPackaging.Shell
