import WasmPackaging.Text.Blank
import WasmPackaging.Text.Quoted

/-!
Paths: an anchor and a list of names. The text of a path names no current directory and no empty
name, but keeps every step to a parent, since only the file tree knows what it leads to. Main facts:
joining an absolute path forgets what it was joined to, and a path made relative to another leads
back to its target (`normalizeFrom_relativeParts`).
-/

namespace WasmPackaging

open Text

/-- The names from the root directory down to a place. -/
abbrev Location := List String

/-- Where a path starts: at the working directory, or at the root, written with one slash or two. -/
inductive Anchor where
  | relative
  | root
  | doubleRoot
  deriving DecidableEq

/-- A path. -/
structure Path where
  anchor : Anchor
  parts : List String
  deriving DecidableEq

/-- Why a path cannot be given another name. -/
inductive NameError where
  | nameless (path : String)
  | invalid (name : String)
  deriving DecidableEq

/-- The wording of the error. -/
def NameError.message : NameError → String
  | .nameless path => s!"PosixPath({quoted path}) has an empty name"
  | .invalid name => s!"Invalid name {quoted name}"

/-- The step to the parent directory. -/
def parentStep : String := ".."

/-- Whether a text between two slashes is a name or a step to the parent. -/
def isPart (s : String) : Bool := s != "" && s != "."

/-- The texts between the slashes of a text. -/
def slashed (s : String) : List String := (splitAt '/' s.toList).map String.ofList

namespace Anchor

/-- The anchor that the slashes at the start of a text stand for. -/
def ofText : List Char → Anchor
  | '/' :: '/' :: '/' :: _ => .root
  | '/' :: '/' :: _ => .doubleRoot
  | '/' :: _ => .root
  | _ => .relative

/-- The slashes of an anchor. -/
def text : Anchor → String
  | .relative => ""
  | .root => "/"
  | .doubleRoot => "//"

end Anchor

namespace Path

/-- The path that a text writes. -/
def ofString (s : String) : Path := ⟨Anchor.ofText s.toList, (slashed s).filter isPart⟩

/-- The text of a path. -/
protected def toString (p : Path) : String :=
  if p.anchor = .relative ∧ p.parts = [] then "."
  else p.anchor.text ++ "/".intercalate p.parts

instance : ToString Path := ⟨Path.toString⟩

/-- The absolute path to a location. -/
def ofLocation (location : Location) : Path := ⟨.root, location⟩

/-- Whether a path starts at the root. -/
def isAbsolute (p : Path) : Bool := p.anchor != .relative

/-- The path that leads on from another; an absolute path starts anew. -/
def join (p q : Path) : Path := if q.isAbsolute then q else ⟨p.anchor, p.parts ++ q.parts⟩

/-- The path that leads on by a text. -/
def child (p : Path) (s : String) : Path := p.join (ofString s)

/-- The path without its last part. -/
def parent (p : Path) : Path := { p with parts := p.parts.dropLast }

/-- The last part of a path, empty if there is none. -/
def name (p : Path) : String := p.parts.getLast?.getD ""

/-- A name cut before its last dot; a dot that starts or ends the name is not counted. -/
def cutSuffix (name : String) : String × String :=
  let chars := name.toList
  let suffix := (chars.reverse.takeWhile (· != '.')).reverse
  let stem := (chars.take (chars.length - suffix.length)).dropLast
  if suffix = [] ∨ stem = [] then (name, "")
  else (String.ofList stem, String.ofList ('.' :: suffix))

/-- The name without its suffix. -/
def stem (p : Path) : String := (cutSuffix p.name).1

/-- The suffix of the name, with its dot. -/
def suffix (p : Path) : String := (cutSuffix p.name).2

/-- Whether a path holds the zero character, which no name can hold. -/
def holdsZero (p : Path) : Bool := p.parts.any fun part => part.toList.contains '\x00'

/-- The steps that a path takes: a part that was set as it stands may be several. -/
def steps (p : Path) : List String := p.parts.flatMap slashed

/-- The path with another last part, which is taken as it stands. -/
def withName (p : Path) (name : String) : Except NameError Path :=
  if p.name = "" then .error (.nameless p.toString)
  else match ofString name with
    | ⟨.relative, [_]⟩ =>
      if name.toList.getLast? = some '/' then .error (.invalid name)
      else .ok { p with parts := p.parts.dropLast ++ [name] }
    | _ => .error (.invalid name)

/-- The path with another suffix of its name, given with its dot. -/
def withSuffix (p : Path) (suffix : String) : Except NameError Path :=
  if p.name = "" then .error (.nameless p.toString)
  else .ok { p with parts := p.parts.dropLast ++ [p.stem ++ suffix] }

/-! ## Steps to the parent taken by their text alone -/

/-- Takes a part: a step to the parent undoes the last name, and does nothing at the root. -/
def takePart (location : Location) (part : String) : Location :=
  if part = parentStep then location.dropLast else location ++ [part]

/-- The location that some parts lead to from a place when every step to a parent undoes a name. -/
def normalizeFrom (place : Location) (parts : List String) : Location := parts.foldl takePart place

/-- The location that a path leads to by its text alone. -/
def normalize (workingDirectory : Location) (p : Path) : Location :=
  normalizeFrom (if p.isAbsolute then [] else workingDirectory) p.parts

/-- The parts that lead from one location to another: up to the last common directory, then down. -/
def relativeParts : (target start : Location) → List String
  | t :: target, s :: start =>
    if t = s then relativeParts target start
    else List.replicate (start.length + 1) parentStep ++ t :: target
  | target, start => List.replicate start.length parentStep ++ target

/-- The relative path that leads from one location to another. -/
def relativeTo (target start : Location) : Path := ⟨.relative, relativeParts target start⟩

/-- The parts below a location, if the other location lies in it. -/
def below? : (root location : Location) → Option (List String)
  | [], location => some location
  | _ :: _, [] => none
  | r :: root, l :: location => if r = l then below? root location else none

/-! ## Laws -/

@[simp] theorem join_of_isAbsolute (p : Path) {q : Path} (h : q.isAbsolute = true) : p.join q = q := by
  simp [join, h]

theorem below?_eq_some_iff {root location : Location} {parts : List String} :
    below? root location = some parts ↔ location = root ++ parts := by
  induction root generalizing location with
  | nil => simp [below?]
  | cons r root ih =>
    cases location with
    | nil => simp [below?]
    | cons l location =>
      by_cases h : r = l
      · simp [below?, h, ih]
      · simp [below?, h, Ne.symm h]

@[simp] theorem normalizeFrom_append (place : Location) (a b : List String) :
    normalizeFrom place (a ++ b) = normalizeFrom (normalizeFrom place a) b := by
  simp [normalizeFrom]

theorem normalizeFrom_parents (location : Location) (n : Nat) :
    normalizeFrom location (List.replicate n parentStep) = location.take (location.length - n) := by
  induction n generalizing location with
  | zero => simp [normalizeFrom]
  | succ n ih =>
    have h := ih location.dropLast
    simp only [normalizeFrom] at h
    simp only [normalizeFrom, List.replicate_succ, List.foldl_cons, takePart, if_true, h]
    rw [List.dropLast_eq_take, List.take_take, List.length_take]
    congr 1
    omega

theorem normalizeFrom_replicate_parent (place steps : Location) :
    normalizeFrom (place ++ steps) (List.replicate steps.length parentStep) = place := by
  simp [normalizeFrom_parents]

/-- Names lead down when none of them is a step to the parent. -/
theorem normalizeFrom_of_names {place names : Location} (h : parentStep ∉ names) :
    normalizeFrom place names = place ++ names := by
  induction names generalizing place with
  | nil => simp [normalizeFrom]
  | cons name names ih =>
    simp only [List.mem_cons, not_or] at h
    have h1 : takePart place name = place ++ [name] := by simp [takePart, Ne.symm h.1]
    have h2 := @ih (place ++ [name]) h.2
    simpa [normalizeFrom, h1] using h2

/-- Relative parts lead back to their target. -/
theorem normalizeFrom_relativeParts {target : Location} (h : parentStep ∉ target) (start place : Location) :
    normalizeFrom (place ++ start) (relativeParts target start) = place ++ target := by
  fun_induction relativeParts target start generalizing place with
  | case1 target s start ih =>
    simp only [List.mem_cons, not_or] at h
    have h1 := ih h.2 (place ++ [s])
    simpa using h1
  | case2 t target s start hne =>
    rw [normalizeFrom_append]
    have h1 := normalizeFrom_replicate_parent place (s :: start)
    simp only [List.length_cons] at h1
    rw [h1, normalizeFrom_of_names h]
  | case3 target start hne =>
    rw [normalizeFrom_append, normalizeFrom_replicate_parent, normalizeFrom_of_names h]

end Path

end WasmPackaging
