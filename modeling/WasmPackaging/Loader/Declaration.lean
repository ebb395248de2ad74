import WasmPackaging.Text.Pieces
import WasmPackaging.Text.Word

/-!
Declarations at the top level of a module: the uninitialised ones, which can be taken back for
some names, and the test whether a name is declared at all.
-/

namespace WasmPackaging.Loader

open Text

/-- An uninitialised declaration: its keyword and the names it lists. -/
structure Forward where
  keyword : List Char
  names : List (List Char)
  deriving DecidableEq

/-- Reads a name and the text behind it. -/
def takeName? (s : List Char) : Option (List Char × List Char) :=
  if startsName s then some (s.takeWhile isNameChar, s.dropWhile isNameChar) else none

/-- The text behind a comma with blanks around it, when a name follows. -/
def nextName? (s : List Char) : Option (List Char) := do
  let s ← after? [','] (trimStart s)
  if startsName (trimStart s) then some (trimStart s) else none

theorem length_dropWhile_le (test : Char → Bool) (s : List Char) :
    (s.dropWhile test).length ≤ s.length := (List.dropWhile_sublist test).length_le

theorem length_nextName?_lt {s rest : List Char} (h : nextName? s = some rest) :
    rest.length < s.length := by
  simp only [nextName?, Option.bind_eq_bind, Option.bind_eq_some_iff] at h
  obtain ⟨behind, hbehind, h⟩ := h
  split at h
  · have h1 := after?_eq_some_iff.1 hbehind
    have h2 := length_dropWhile_le isBlank s
    have h3 := length_dropWhile_le isBlank behind
    have h4 : (trimStart s).length = behind.length + 1 := by simp [h1]
    simp only [Option.some.injEq] at h
    subst h
    simp only [trimStart] at h4 ⊢
    omega
  · simp at h

theorem length_takeName?_lt {s name rest : List Char} (h : takeName? s = some (name, rest)) :
    rest.length ≤ s.length := by
  simp only [takeName?] at h
  split at h
  · simp only [Option.some.injEq, Prod.mk.injEq] at h
    rw [← h.2]
    exact length_dropWhile_le _ _
  · simp at h

/-- Reads names with commas between them, and the text behind the last. -/
def takeNames? (s : List Char) : Option (List (List Char) × List Char) :=
  match _hs : takeName? s with
  | none => none
  | some (name, rest) =>
    match _hn : nextName? rest with
    | none => some ([name], rest)
    | some next => (takeNames? next).map fun (names, rest) => (name :: names, rest)
termination_by s.length
decreasing_by
  have h1 := length_takeName?_lt _hs
  have h2 := length_nextName?_lt _hn
  omega

/-- The text behind a line feed, with or without a carriage return before it. -/
def afterNewline? : List Char → Option (List Char)
  | '\n' :: rest => some rest
  | '\r' :: '\n' :: rest => some rest
  | _ => none

/-- The keyword of a declaration that may stand without a value. -/
def forwardKeyword? (s : List Char) : Option (List Char × List Char) :=
  match afterWord? "var" s with
  | some rest => some ("var".toList, rest)
  | none => (afterWord? "let" s).map ("let".toList, ·)

/-- Recognises an unindented declaration without values, together with the blanks and the line end
behind its semicolon. -/
def forward : Recognizer Forward := fun before s =>
  if atLineStart before then do
    let (keyword, s) ← forwardKeyword? s
    let s ← afterBlanks? s
    let (names, s) ← takeNames? s
    let s ← after? [';'] (trimStart s)
    let s := s.dropWhile isIndent
    some (⟨keyword, names⟩, (afterNewline? s).getD s)
  else none

/-- A declaration of some names on a line of its own. -/
def Forward.statement (declaration : Forward) : List Char :=
  declaration.keyword ++ [' '] ++ joinWith [',', ' '] declaration.names ++ [';', '\n']

/-- What is left of a declaration when some names are taken out of it; one that lists none of them
stays as it is written. -/
def Forward.without (unwanted : List (List Char)) (declaration : Forward) (text : List Char) :
    List Char :=
  let kept := declaration.names.filter fun name => !unwanted.contains name
  if kept = declaration.names then text
  else if kept = [] then []
  else { declaration with names := kept }.statement

/-- The module without the forward declarations of some names. -/
def stripForward (unwanted : List (List Char)) (source : List Char) : List Char :=
  replaceFinds forward (Forward.without unwanted) source

/-! ## Declared names -/

/-- The texts that remain when any number of leading characters that pass a test is dropped. -/
def remainders (test : Char → Bool) : List Char → List (List Char)
  | [] => [[]]
  | c :: s => (c :: s) :: if test c then remainders test s else []

/-- The texts that remain when at least one leading blank is dropped. -/
def blankRemainders : List Char → List (List Char)
  | [] => []
  | c :: s => if isBlank c then remainders isBlank s else []

/-- Where the name may start behind the keyword of a function. -/
def functionNames (s : List Char) : List (List Char) :=
  let s := match afterWord? "async" s with
    | none => s
    | some rest => (afterBlanks? rest).getD s
  match afterWord? "function" s with
  | none => []
  | some rest => (remainders isBlank rest).flatMap fun s =>
    s :: match s with
      | '*' :: s => remainders isBlank s
      | _ => []

/-- Where the name may start behind the keyword of a class. -/
def classNames (s : List Char) : List (List Char) := ((afterWord? "class" s).map blankRemainders).getD []

/-- Whether a character may stand between the keyword of a declaration and a later declarator. -/
def isDeclaratorChar (c : Char) : Bool := c != ';' && c != '\n'

/-- Where the name may start behind the keyword of a variable: at once, or behind a comma on the
keyword's line. -/
def variableNames (s : List Char) : List (List Char) :=
  match [afterWord? "var" s, afterWord? "let" s, afterWord? "const" s].filterMap id with
  | [] => []
  | rest :: _ => (blankRemainders rest).flatMap fun s =>
    s :: (remainders isDeclaratorChar s).flatMap fun
      | ',' :: s => remainders isBlank s
      | _ => []

/-- Whether a declaration of the name starts a text. -/
def declaresHere (name s : List Char) : Bool :=
  (functionNames s ++ classNames s ++ variableNames s).any fun s =>
    match after? name s with
    | none => false
    | some rest => !startsName rest

/-- Whether an unindented declaration of the name starts at a line of the text. -/
def declaresFrom (name : List Char) (before : Option Char) : List Char → Bool
  | [] => atLineStart before && declaresHere name []
  | c :: s => (atLineStart before && declaresHere name (c :: s)) || declaresFrom name (some c) s

/-- Whether a module declares a name at its top level. -/
def declaresTopLevel (name source : List Char) : Bool := declaresFrom name none source

end WasmPackaging.Loader
