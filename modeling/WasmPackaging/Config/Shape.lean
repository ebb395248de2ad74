import WasmPackaging.Config.Violation
import WasmPackaging.Document.Value
import WasmPackaging.Path
import WasmPackaging.Text.Real

/-!
The shapes that values in the settings are declared to have, and what is wrong with a value that has
another one. Every complaint is found, those about declared settings first and in the order of their
declaration, then those about other keys.
-/

namespace WasmPackaging.Config

open Document

/-- The shape of a value. Nothing is taken for a text but a text and the bytes of one. -/
inductive Shape where
  | text
  | optionalText
  | path
  | texts
  | textTable
  | group (name : Section) (members : List (String × Shape))
  deriving Inhabited

/-- How a key is shown. -/
def shownKey : Value → String
  | .bool value => if value then "1" else "0"
  | key => key.plain

/-- A complaint about a value that must be a text. -/
def textViolations (value : Value) : List Violation :=
  match value, value.asText? with
  | _, some _ => []
  | .bytes _, none => [⟨[], .undecodable⟩]
  | _, none => [⟨[], .notText⟩]

/-- The complaints about a value that must be a list of texts. -/
def listViolations : Value → List Violation
  | .list items => items.zipIdx.flatMap fun (item, n) => (textViolations item).map (.within (toString n))
  | _ => [⟨[], .notList⟩]

/-- The complaints about a value that must map texts to texts. -/
def tableViolations : Value → List Violation
  | .mapping entries => entries.flatMap fun (key, value) =>
    let shown := shownKey key
    (textViolations key).map (fun v => v.within "[key]" |>.within shown) ++
      (textViolations value).map (.within shown)
  | _ => [⟨[], .notMapping⟩]

/-- A complaint about a key, unless it is one of the declared ones. -/
def keyViolation? (declared : List String) : Value → Option Violation
  | .text key => if declared.contains key then none else some ⟨[key], .undeclared⟩
  | key => some ⟨[shownKey key], .keyNotText⟩

mutual

/-- The complaints about a value that must have a shape. -/
def Shape.violations : Shape → Value → List Violation
  | .text, value => textViolations value
  | .optionalText, .null => []
  | .optionalText, value => textViolations value
  | .path, .text _ => []
  | .path, _ => [⟨[], .notPath⟩]
  | .texts, value => listViolations value
  | .textTable, value => tableViolations value
  | .group _ members, .mapping entries =>
    memberViolations (.mapping entries) members ++
      entries.filterMap fun entry => keyViolation? (members.map Prod.fst) entry.1
  | .group name _, _ => [⟨[], .notSection name⟩]

/-- The complaints about declared settings; one that is left out is not complained about. -/
def memberViolations (value : Value) : List (String × Shape) → List Violation
  | [] => []
  | (name, shape) :: rest =>
    (match value.member? name with
      | some member => (shape.violations member).map (.within name)
      | none => []) ++ memberViolations value rest

end

/-- A setting in a group: its name, the shape of its value, and how it is read and given. -/
structure Field (σ : Type) where
  name : String
  shape : Shape
  get : σ → Value
  set : Value → σ → σ

namespace Field

variable {σ : Type}

/-- A setting that is a text. -/
def text (name : String) (get : σ → String) (set : String → σ → σ) : Field σ where
  name
  shape := .text
  get s := .text (get s)
  set value s := ((value.asText?).map (set · s)).getD s

/-- A setting that is a text or nothing. -/
def optionalText (name : String) (get : σ → Option String) (set : Option String → σ → σ) : Field σ where
  name
  shape := .optionalText
  get s := ((get s).map Value.text).getD .null
  set
    | .null, s => set none s
    | value, s => ((value.asText?).map fun text => set (some text) s).getD s

/-- A setting that is a path. -/
def path (name : String) (get : σ → Path) (set : Path → σ → σ) : Field σ where
  name
  shape := .path
  get s := .text (get s).toString
  set
    | .text value, s => set (Path.ofString value) s
    | _, s => s

/-- A setting that is a list of texts. -/
def texts (name : String) (get : σ → List String) (set : List String → σ → σ) : Field σ where
  name
  shape := .texts
  get s := .list ((get s).map Value.text)
  set
    | .list items, s => set (items.filterMap Value.asText?) s
    | _, s => s

/-- A table of texts with an entry more. A key keeps its first place and its last value. -/
def addEntry (table : List (String × String)) (entry : Value × Value) : List (String × String) :=
  match entry.1.asText?, entry.2.asText? with
  | some key, some value =>
    if (table.lookup key).isSome then table.map fun old => if old.1 == key then (key, value) else old
    else table ++ [(key, value)]
  | _, _ => table

/-- A setting that maps texts to texts. -/
def textTable (name : String) (get : σ → List (String × String)) (set : List (String × String) → σ → σ) :
    Field σ where
  name
  shape := .textTable
  get s := .mapping ((get s).map fun (key, value) => (.text key, .text value))
  set
    | .mapping entries, s =>
      set (entries.foldl addEntry []) s
    | _, s => s

/-- The settings that a value gives, on top of some others. -/
def assign (fields : List (Field σ)) (value : Value) (settings : σ) : σ :=
  fields.foldl (fun s field => match value.member? field.name with
    | some member => field.set member s
    | none => s) settings

/-- The value that gives some settings in full. -/
def document (fields : List (Field σ)) (settings : σ) : Value :=
  .mapping (fields.map fun field => (.text field.name, field.get settings))

/-- The shape of a group of settings. -/
def shapeOf (group : Section) (fields : List (Field σ)) : Shape :=
  .group group (fields.map fun field => (field.name, field.shape))

/-- A group of settings as a setting of another group; what a value leaves out has its default. -/
def group {τ : Type} (name : String) (group : Section) (fields : List (Field τ)) (default : τ)
    (get : σ → τ) (set : τ → σ → σ) : Field σ where
  name
  shape := shapeOf group fields
  get s := document fields (get s)
  set value s := set (assign fields value default) s

end Field

end WasmPackaging.Config
