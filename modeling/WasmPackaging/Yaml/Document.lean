import WasmPackaging.Yaml.Outline
import WasmPackaging.Yaml.Scalar

/-!
The value that the text of a document holds. Scalars get their values as soon as they are met; a list
or mapping is met first and completed later, those met first before those met while others are completed,
so that a part may hold itself. What is merged into a mapping becomes a part of it just before that.
-/

namespace WasmPackaging.Yaml

open Document Text

/-- What a part of a document stands for. The parts that a list or mapping holds are given by their
numbers; of pairs only their number is known. -/
inductive Meaning where
  | scalar (value : Value)
  | list (items : List Nat)
  | mapping (entries : List (Nat × Nat))
  | set (keys : List Nat)
  | pairs (count : Nat)

/-- The parts of a document, what those met so far stand for, and the ones that wait to be completed,
the last one first. -/
structure Construction where
  parts : Array Part
  meanings : Array (Option Meaning)
  waiting : List Nat := []

/-- A step of giving parts their meaning. -/
abbrev Constructing := StateT Construction (Except Error)

namespace Construction

/-- What a part consists of. -/
def content (n : Nat) : Constructing Content := return ((← get).parts.getD n default).content

/-- The kind of a part. -/
def kind (n : Nat) : Constructing Kind := return ((← get).parts.getD n default).kind

/-- What a part that was met stands for. -/
def meaning? (n : Nat) : Constructing (Option Meaning) := return ((← get).meanings.getD n none)

/-- Notes what a part stands for. -/
def setMeaning (n : Nat) (meaning : Meaning) : Constructing Unit :=
  modify fun s => { s with meanings := s.meanings.setIfInBounds n (some meaning) }

/-- Changes a part. -/
def change (n : Nat) (f : Part → Part) : Constructing Unit :=
  modify fun s => { s with parts := s.parts.modify n f }

/-- The entries of a part that is a mapping. -/
def entriesOf (n : Nat) : Constructing (List (Nat × Nat)) := do
  match ← content n with
  | .mapping entries => return entries
  | _ => throw (.text (.badValue "mapping of its tag"))

/-- Gives a mapping other entries. -/
def setEntries (n : Nat) (entries : List (Nat × Nat)) : Constructing Unit :=
  change n fun part => { part with content := .mapping entries }

/-! ## Meeting parts -/

/-- The text of a part that stands for a scalar. A mapping stands for the scalar that it has under the
sign for its value. -/
def scalarText : Nat → Nat → Constructing String
  | 0, _ => throw (.value .endless)
  | fuel + 1, n => do
    match ← content n with
    | .scalar text => return text
    | .mapping entries => do
      match ← entries.findM? fun (key, _) => return (← kind key) == .standIn with
      | some (_, value) => scalarText fuel value
      | none => throw (.text (.badValue "scalar of its tag"))
    | .list _ => throw (.text (.badValue "scalar of its tag"))

/-- Gives a part that stands for a scalar its value. -/
def meetScalar (n : Nat) (kind : Kind) : Constructing Unit := do
  let text ← scalarText ((← get).parts.size + 1) n
  match kind, ← content n with
  | .timestamp, .mapping _ => throw (.value .unwrittenTimestamp)
  | _, _ => setMeaning n (.scalar (← scalarValue kind text))

/-- Notes that a part that holds others waits to be completed. -/
def await (n : Nat) (meaning : Meaning) : Constructing Unit := do
  setMeaning n meaning
  modify fun s => { s with waiting := n :: s.waiting }

/-- Meets a part, unless it was met before. -/
def meet (n : Nat) : Constructing Unit := do
  if (← meaning? n).isNone then
    match ← kind n with
    | .list => await n (.list [])
    | .mapping => await n (.mapping [])
    | .set => await n (.set [])
    | .pairs => await n (.pairs 0)
    | .merge | .standIn | .other => throw (.text .badTag)
    | kind => meetScalar n kind

/-! ## Merging -/

/-- The entries before and behind the first one that merges something, and what it merges. -/
def firstMerge? : List (Nat × Nat) → Constructing (Option (List (Nat × Nat) × Nat × List (Nat × Nat)))
  | [] => return none
  | (key, value) :: rest => do
    if (← kind key) == .merge then return some ([], value, rest)
    else return (← firstMerge? rest).map fun (before, found) => ((key, value) :: before, found)

mutual

/-- Puts the entries that are merged into a mapping before its own. A key that is the sign for a value
is a text here. -/
def merge : Nat → Nat → Constructing Unit
  | 0, _ => return
  | fuel + 1, n => do
    let merged ← takeMerged fuel n
    let own ← entriesOf n
    own.forM fun (key, _) => do
      if (← kind key) == .standIn then change key fun part => { part with kind := .text }
    setEntries n (merged ++ own)

/-- Takes the merging entries out of a mapping and answers with the entries that they bring. Of a list
of mappings, the last one comes first. -/
def takeMerged : Nat → Nat → Constructing (List (Nat × Nat))
  | 0, _ => return []
  | fuel + 1, n => do
    match ← firstMerge? (← entriesOf n) with
    | none => return []
    | some (before, value, rest) => do
      setEntries n (before ++ rest)
      let merge (part : Nat) : Constructing (List (Nat × Nat)) := do
        match ← content part with
        | .mapping _ => do
          merge fuel part
          entriesOf part
        | _ => throw (.text .badMerge)
      let here ← match ← content value with
        | .list items => pure (← items.mapM merge).reverse.flatten
        | _ => merge value
      return here ++ (← takeMerged fuel n)

end

/-! ## Completing parts -/

/-- The value of a key; only a scalar can be one. -/
def keyValue (n : Nat) : Constructing Value := do
  match ← meaning? n with
  | some (.scalar value) => return value
  | _ => throw (.text .unhashableKey)

/-- Some entries with one more. A key keeps its first place and its last value. -/
def addEntry (entries : List ((Nat × Value) × Nat)) (key : Nat × Value) (value : Nat) :
    List ((Nat × Value) × Nat) :=
  let same (other : Nat × Value) : Bool := other.1 == key.1 || other.2.same key.2
  if entries.any fun entry => same entry.1 then
    entries.map fun entry => if same entry.1 then (entry.1, value) else entry
  else entries ++ [(key, value)]

/-- The entries of a mapping, each key once. -/
def distinctEntries (limit n : Nat) : Constructing (List (Nat × Nat)) := do
  merge limit n
  let entries ← (← entriesOf n).foldlM (fun known (key, value) => do
    meet key
    let shown ← keyValue key
    meet value
    return addEntry known (key, shown) value) []
  return entries.map fun entry => (entry.1.1, entry.2)

/-- Meets the key and the value of a mapping with one entry. -/
def meetPair (n : Nat) : Constructing Unit := do
  match ← content n with
  | .mapping [(key, value)] => do
    meet key
    meet value
  | _ => throw (.text (.badValue "pair"))

/-- Completes a part that was met, which meets the parts it holds. -/
def complete (limit n : Nat) : Constructing Unit := do
  match ← kind n, ← content n with
  | .list, .list items => do
    items.forM meet
    setMeaning n (.list items)
  | .pairs, .list items => do
    items.forM meetPair
    setMeaning n (.pairs items.length)
  | .mapping, .mapping _ => do setMeaning n (.mapping (← distinctEntries limit n))
  | .set, .mapping _ => do setMeaning n (.set ((← distinctEntries limit n).map Prod.fst))
  | _, _ => throw (.text (.badValue "list or mapping of its tag"))

/-- Completes the parts that wait, then those that were met meanwhile, and so on. -/
def completeAll (limit : Nat) : Nat → Constructing Unit
  | 0 => return
  | rounds + 1 => do
    let waiting := (← get).waiting.reverse
    if waiting != [] then
      modify fun s => { s with waiting := [] }
      waiting.forM (complete limit)
      completeAll limit rounds

/-- How many entries a part has. -/
def entryCount (part : Part) : Nat :=
  match part.content with
  | .mapping entries => entries.length
  | _ => 0

/-- Gives a part and all that it holds their meaning. Every round completes a part, and what is merged
is taken out of the entries that there are. -/
def construct (root : Nat) : Constructing Unit := do
  let parts := (← get).parts
  meet root
  let entries := parts.foldl (fun count part => count + entryCount part) 0
  completeAll (2 * entries + 2) (parts.size + 1)

/-- The value of a part, down to a depth. -/
def valueOf (meanings : Array (Option Meaning)) : Nat → Nat → Value
  | 0, _ => .list []
  | depth + 1, n =>
    match meanings.getD n none with
    | none => .null
    | some (.scalar value) => value
    | some (.list items) => .list (items.map (valueOf meanings depth))
    | some (.set keys) => .list (keys.map (valueOf meanings depth))
    | some (.pairs count) => .list (List.replicate count (.foreign "" []))
    | some (.mapping entries) =>
      .mapping (entries.map fun (key, value) => (valueOf meanings depth key, valueOf meanings depth value))

end Construction

/-- How deep the value of a document is followed, which may hold itself; settings are nested less deep. -/
def deepest : Nat := 6

/-- The value that the text of a document holds; an empty text holds none. Lists and mappings may stand
`nesting` deep within one another. -/
def read (text : List Char) (nesting : Nat := usualNesting) : Reading Value := do
  if !text.all isAllowed then bad .strangeCharacter
  else
    let (root?, outline) ← Outline.document.run { tokens := tokens text, room := nesting }
    match root? with
    | none => return .null
    | some root =>
      let parts := outline.parts
      let start : Construction := { parts, meanings := Array.replicate parts.size none }
      let (_, built) ← (Construction.construct root).run start
      return Construction.valueOf built.meanings deepest root

end WasmPackaging.Yaml
