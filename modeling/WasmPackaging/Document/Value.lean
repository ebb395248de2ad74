import WasmPackaging.Text.Real
import WasmPackaging.Text.Utf8

/-!
The value that a document of nested lists and mappings holds, as it is read from a settings file or
written to a report.
-/

namespace WasmPackaging.Document

/-- A value of a document. A mapping keeps its entries in the order they were given; `foreign` is a
value of a kind that neither settings nor reports use, such as a date, known by how it is shown; two of
them are the same if their identities are. -/
inductive Value where
  | null
  | bool (value : Bool)
  | integer (value : Int)
  | real (value : Float)
  | text (value : String)
  | bytes (value : Text.Bytes)
  | foreign (shown : String) (identity : List Int)
  | list (items : List Value)
  | mapping (entries : List (Value × Value))
  deriving Inhabited

/-- The text that a value is, if it is one. -/
def Value.text? : Value → Option String
  | .text value => some value
  | _ => none

/-- The text that a value can be taken for: a text, or the bytes of one. -/
def Value.asText? : Value → Option String
  | .text value => some value
  | .bytes value => (Text.decode value).toOption.map String.ofList
  | _ => none

/-- Whether a real is a whole number. -/
def isWhole (x : Float) (n : Int) : Bool :=
  if x == 0.0 then n == 0
  else if !x.isFinite then false
  else
    let (number, power) := Text.binaryParts x.abs
    let size := number * Nat.pow 2 power.toNat
    let unit := Nat.pow 2 (-power).toNat
    size % unit == 0 && n == (if x < 0.0 then -(size / unit : Nat) else (size / unit : Nat) : Int)

/-- Whether two values that hold no others are the same; truth values count as numbers. -/
def Value.same : Value → Value → Bool
  | .null, .null => true
  | .text a, .text b => a == b
  | .bytes a, .bytes b => a == b
  | .foreign _ a, .foreign _ b => a == b
  | a, b =>
    match number? a, number? b with
    | some (.inl a), some (.inl b) => a == b
    | some (.inl a), some (.inr b) => isWhole b a
    | some (.inr a), some (.inl b) => isWhole a b
    | some (.inr a), some (.inr b) => a == b
    | _, _ => false
where
  /-- The number that a value is, a whole one or a real. -/
  number? : Value → Option (Int ⊕ Float)
    | .bool value => some (.inl value.toNat)
    | .integer value => some (.inl value)
    | .real value => some (.inr value)
    | _ => none

/-- The first value that a mapping holds under a text. -/
def Value.member? (key : String) : Value → Option Value
  | .mapping entries => (entries.find? fun entry => entry.1.text? == some key).map Prod.snd
  | _ => none

mutual

/-- How a value is shown in messages. -/
def Value.shown : Value → String
  | .null => "None"
  | .bool value => if value then "True" else "False"
  | .integer value =>
    if value.natAbs < Nat.pow 10 Text.mostDigits then toString value else "<unprintable int object>"
  | .real value => Text.shownReal value
  | .text value => Text.quoted value
  | .bytes value => Text.shownBytes value
  | .foreign shown _ => shown
  | .list items => "[" ++ Text.commaList (shownItems items) ++ "]"
  | .mapping entries => "\x7b" ++ Text.commaList (shownEntries entries) ++ "\x7d"

/-- How some values are shown. -/
def Value.shownItems : List Value → List String
  | [] => []
  | item :: rest => item.shown :: shownItems rest

/-- How some entries are shown. -/
def Value.shownEntries : List (Value × Value) → List String
  | [] => []
  | (key, value) :: rest => (key.shown ++ ": " ++ value.shown) :: shownEntries rest

end

/-- A text as it is, any other value as it is shown. -/
def Value.plain : Value → String
  | .text value => value
  | value => value.shown

end WasmPackaging.Document
