import WasmPackaging.Yaml.Kind
import WasmPackaging.Yaml.Layout

/-!
The parts of a document, as its tokens form them, before scalars are given values. Parts are numbered,
and each refers to the ones it consists of by their numbers, so that a part with an anchor can stand at
several places, within itself too.
-/

namespace WasmPackaging.Yaml

/-- What a part of a document consists of. -/
inductive Content where
  | scalar (text : String)
  | list (items : List Nat)
  | mapping (entries : List (Nat × Nat))
  deriving Inhabited

/-- A part of a document. -/
structure Part where
  kind : Kind
  content : Content
  deriving Inhabited

/-- How deep lists and mappings may stand within one another, about, on a host with its usual stack. -/
def usualNesting : Nat := 480

/-- A document that is read up to a place: the tokens that are left, the parts so far, the numbers of those
with an anchor, and for how many levels more there is room on the stack. -/
structure Outline where
  tokens : List Token
  parts : Array Part := #[]
  anchors : List (String × Nat) := []
  room : Nat := usualNesting

/-- A step of reading a document. -/
abbrev Outlining := StateT Outline (Except Error)

namespace Outline

/-- The handles of tags in a document and what they stand for. -/
abbrev Handles := List (String × String)

/-- The handles that every document knows. -/
def standardHandles : Handles := [("!", "!"), ("!!", "tag:yaml.org,2002:")]

/-- The whole tag that a written one stands for. -/
def wholeTag (handles : Handles) (tag : WrittenTag) : Reading String :=
  match tag.handle with
  | none => .ok tag.rest
  | some handle =>
    match handles.lookup handle with
    | some start => .ok (start ++ tag.rest)
    | none => bad .badTag

/-- The next token. -/
def next? : Outlining (Option Token) := return (← get).tokens.head?

/-- Passes over the next token. -/
def skip : Outlining Unit := modify fun s => { s with tokens := s.tokens.drop 1 }

/-- Whether the next token passes a test. -/
def nextIs (test : Token → Bool) : Outlining Bool := return (← next?).any test

/-- A token where none of its kind may stand. -/
def unexpected {α : Type} : Outlining α := do
  match ← next? with
  | some (.failed error) => throw error
  | _ => throw (.text (.misplaced "a part of the document"))

/-- Passes over a token that has to stand here. -/
def expect (token : Token) : Outlining Unit := do
  if ← nextIs (· == token) then skip else unexpected

/-- Adds a part and answers with its number; its anchor must be a new one. -/
def add (anchor : Option String) (kind : Kind) (content : Content) : Outlining Nat := do
  let s ← get
  let number := s.parts.size
  let anchors ← match anchor with
    | none => pure s.anchors
    | some name =>
      if (s.anchors.lookup name).isSome then bad (.misplaced "a second anchor of a name")
      else pure ((name, number) :: s.anchors)
  set { s with parts := s.parts.push ⟨kind, content⟩, anchors }
  return number

/-- Adds a part that is left out. -/
def addEmpty : Outlining Nat := add none .null (.scalar "")

/-- Sets what a part consists of. -/
def fill (number : Nat) (content : Content) : Outlining Unit :=
  modify fun s => { s with parts := s.parts.modify number fun part => { part with content } }

/-- Reads what a list or mapping holds, one level down. -/
def within {α : Type} (reading : Outlining α) : Outlining α := do
  match (← get).room with
  | 0 => throw (.value .endless)
  | room + 1 => do
    modify fun s => { s with room }
    let held ← reading
    modify fun s => { s with room := room + 1 }
    return held

/-- The number of the part that an alias stands for. -/
def aliased (name : String) : Outlining Nat := do
  match (← get).anchors.lookup name with
  | some number => return number
  | none => throw (.text (.unknownAlias name))

/-- Reads the anchor and the tag of a part, in either order. -/
def marks (handles : Handles) : Outlining (Option String × Option String) := do
  let s ← get
  let (anchor, tag, rest) := match s.tokens with
    | .anchor name :: .tag tag :: rest => (some name, some tag, rest)
    | .anchor name :: rest => (some name, none, rest)
    | .tag tag :: .anchor name :: rest => (some name, some tag, rest)
    | .tag tag :: rest => (none, some tag, rest)
    | rest => (none, none, rest)
  set { s with tokens := rest }
  match tag with
  | none => return (anchor, none)
  | some tag => return (anchor, some (← wholeTag handles tag))

/-- The kind of a scalar. A plain one is what its text says. -/
def scalarKind (tag : Option String) (plain : Bool) (text : String) : Kind :=
  match tag with
  | some tag => .ofTag tag
  | none => if plain then .ofPlain text else .text

/-- The kind of a list or mapping. -/
def groupKind (tag : Option String) (kind : Kind) : Kind := (tag.map Kind.ofTag).getD kind

/-- Whether a token ends what is written behind a key or colon of a block. -/
def endsBlockPart (token : Token) : Bool := token == .key || token == .value || token == .blockEnd

/-- Whether a token ends an item behind a dash. -/
def endsDash (token : Token) : Bool := token == .dash || endsBlockPart token

/-- Whether a token ends an item within square brackets. -/
def endsItem (token : Token) : Bool := token == .comma || token == .flowSequenceEnd

/-- Whether a token ends an entry within curly brackets. -/
def endsEntry (token : Token) : Bool := token == .comma || token == .flowMappingEnd

/-- Which parts may stand at a place: those within brackets, those of a block, or also a list whose
dashes stand below the key it belongs to. -/
inductive Position where
  | flow
  | block
  | behindKey
  deriving DecidableEq

mutual

/-- Reads a part of a document and answers with its number. -/
def part (handles : Handles) (position : Position) : Nat → Outlining Nat
  | 0 => unexpected
  | fuel + 1 => do
    if let some (.alias name) ← next? then
      skip
      aliased name
    else
      let (anchor, given) ← marks handles
      let tag := if given == some "!" then none else given
      match ← next? with
      | some (.scalar text plain) =>
        skip
        add anchor (scalarKind tag ((plain && given.isNone) || given == some "!") text) (.scalar text)
      | some .flowSequence => do
        let number ← add anchor (groupKind tag .list) (.list [])
        skip
        fill number (.list (← within (items handles fuel true)))
        return number
      | some .flowMapping => do
        let number ← add anchor (groupKind tag .mapping) (.mapping [])
        skip
        fill number (.mapping (← within (entries handles fuel true)))
        return number
      | some first =>
        if first == .dash && position == .behindKey then do
          let number ← add anchor (groupKind tag .list) (.list [])
          fill number (.list (← within (dashes handles fuel)))
          return number
        else if first == .blockSequence && position != .flow then do
          let number ← add anchor (groupKind tag .list) (.list [])
          skip
          fill number (.list (← within (dashes handles fuel)))
          expect .blockEnd
          return number
        else if first == .blockMapping && position != .flow then do
          let number ← add anchor (groupKind tag .mapping) (.mapping [])
          skip
          fill number (.mapping (← within (keys handles fuel)))
          expect .blockEnd
          return number
        else if anchor.isSome || given.isSome then
          if let .failed error := first then throw error
          else add anchor (scalarKind tag tag.isNone "") (.scalar "")
        else unexpected
      | none => unexpected

/-- Reads a part that may be left out before some tokens. -/
def partUnless (ends : Token → Bool) (handles : Handles) (position : Position) : Nat → Outlining Nat
  | 0 => unexpected
  | fuel + 1 => do if ← nextIs ends then addEmpty else part handles position fuel

/-- Reads what is behind the colon of a key, if there is one. -/
def valuePart (ends : Token → Bool) (handles : Handles) (position : Position) : Nat → Outlining Nat
  | 0 => unexpected
  | fuel + 1 => do
    if ← nextIs (· == .value) then
      skip
      partUnless ends handles position fuel
    else if let some (.failed error) ← next? then throw error
    else addEmpty

/-- Reads the items behind dashes. A list that belongs to a key ends at the next one. -/
def dashes (handles : Handles) : Nat → Outlining (List Nat)
  | 0 => unexpected
  | fuel + 1 => do
    if ← nextIs (· == .dash) then
      skip
      let item ← partUnless endsDash handles .block fuel
      let more ← dashes handles fuel
      return item :: more
    else return []

/-- Reads the entries of a block. -/
def keys (handles : Handles) : Nat → Outlining (List (Nat × Nat))
  | 0 => unexpected
  | fuel + 1 => do
    if ← nextIs (· == .key) then
      skip
      let key ← partUnless endsBlockPart handles .behindKey fuel
      let value ← valuePart endsBlockPart handles .behindKey fuel
      let more ← keys handles fuel
      return (key, value) :: more
    else return []

/-- Reads the items within square brackets, up to the closing one. A key among them is a mapping of one
entry. -/
def items (handles : Handles) : Nat → Bool → Outlining (List Nat)
  | 0, _ => unexpected
  | fuel + 1, first => do
    if ← nextIs (· == .flowSequenceEnd) then
      skip
      return []
    else
      if !first then expect .comma
      if ← nextIs (· == .flowSequenceEnd) then
        skip
        return []
      else if ← nextIs (· == .key) then
        let number ← add none .mapping (.mapping [])
        skip
        let entry ← within do
          let key ← partUnless (fun token => token == .value || endsItem token) handles .flow fuel
          let value ← valuePart endsItem handles .flow fuel
          return (key, value)
        fill number (.mapping [entry])
        let more ← items handles fuel false
        return number :: more
      else
        let item ← part handles .flow fuel
        let more ← items handles fuel false
        return item :: more

/-- Reads the entries within curly brackets, up to the closing one. -/
def entries (handles : Handles) : Nat → Bool → Outlining (List (Nat × Nat))
  | 0, _ => unexpected
  | fuel + 1, first => do
    if ← nextIs (· == .flowMappingEnd) then
      skip
      return []
    else
      if !first then expect .comma
      if ← nextIs (· == .flowMappingEnd) then
        skip
        return []
      else if ← nextIs (· == .key) then
        skip
        let key ← partUnless (fun token => token == .value || endsEntry token) handles .flow fuel
        let value ← valuePart endsEntry handles .flow fuel
        let more ← entries handles fuel false
        return (key, value) :: more
      else
        let key ← part handles .flow fuel
        let value ← addEmpty
        let more ← entries handles fuel false
        return (key, value) :: more

end

/-! ## Documents -/

/-- Reads directives: the handles that they declare, on top of the given ones; at most one version may
be named. -/
def directives (versioned : Bool) (declared : Handles) : List Token → Reading (Handles × List Token)
  | .directive (.version major) :: rest =>
    if versioned || major ≠ 1 then bad .badDirective else directives true declared rest
  | .directive (.handle handle start) :: rest =>
    if (declared.lookup handle).isSome then bad .badDirective
    else directives versioned (declared ++ [(handle, start)]) rest
  | .directive .other :: rest => directives versioned declared rest
  | tokens => .ok (declared ++ standardHandles, tokens)

/-- Whether a token shows that a document holds nothing. -/
def endsDocument : Token → Bool
  | .directive _ | .documentStart | .documentEnd | .textEnd => true
  | _ => false

/-- Checks that nothing follows a document. -/
def lastDocument (tokens : List Token) : Reading Unit := do
  let rest := tokens.dropWhile (· == .documentEnd)
  if rest = [.textEnd] then .ok ()
  else
    match ← directives false [] rest with
    | (_, .failed error :: _) => .error error
    | _ => bad .severalDocuments

/-- Reads the only document of a text; answers with the number of the part that it is, if there is a
document. -/
def document : Outlining (Option Nat) := do
  let tokens := (← get).tokens
  let fuel := 4 * tokens.length + 4
  match tokens with
  | [.textEnd] => return none
  | .directive _ :: _ | .documentStart :: _ => do
    let (handles, rest) ← directives false [] tokens
    set { ← get with tokens := rest }
    expect .documentStart
    let root ← partUnless endsDocument handles .block fuel
    lastDocument (← get).tokens
    return some root
  | _ => do
    let root ← part standardHandles .block fuel
    lastDocument (← get).tokens
    return some root

end Outline

end WasmPackaging.Yaml
