import WasmPackaging.Yaml.Number

/-!
The kinds of parts of a document: those that tags name, and those that the texts of plain scalars have.
-/

namespace WasmPackaging.Yaml

open Text

/-- What a part of a document is. -/
inductive Kind where
  | null
  | bool
  | integer
  | real
  | timestamp
  | bytes
  | text
  | list
  | mapping
  | set
  | pairs
  | merge
  | standIn
  | other
  deriving DecidableEq, Inhabited

/-- The kind that a tag names. -/
def Kind.ofTag (tag : String) : Kind :=
  let known : List (String × Kind) :=
    [("null", .null), ("bool", .bool), ("int", .integer), ("float", .real), ("timestamp", .timestamp),
     ("binary", .bytes), ("str", .text), ("seq", .list), ("map", .mapping), ("set", .set), ("pairs", .pairs),
     ("omap", .pairs), ("merge", .merge), ("value", .standIn)]
  ((known.map fun (name, kind) => ("tag:yaml.org,2002:" ++ name, kind)).lookup tag).getD .other

/-- The truth value of a word in small letters. -/
def truthOf? : String → Option Bool
  | "yes" | "true" | "on" => some true
  | "no" | "false" | "off" => some false
  | _ => none

/-- Whether a word is all in small letters, all in capitals, or starts with the only capital. -/
def isUniformCase : List Char → Bool
  | [] => true
  | first :: rest => rest.all (!·.isUpper) || (first :: rest).all (!·.isLower)

/-- Whether a plain text is a truth value. -/
def isTruth (s : List Char) : Bool :=
  isUniformCase s && (truthOf? (String.ofList (s.map Char.toLower))).isSome

/-- The kind of a plain scalar. A line end at the end of the text does not count. -/
def Kind.ofPlain (text : String) : Kind :=
  let s := withoutLineEnd text.toList
  if text = "" ∨ ["~", "null", "Null", "NULL"].contains (String.ofList s) then .null
  else if isTruth s then .bool
  else if isReal s then .real
  else if isInteger s then .integer
  else if (Timestamp.ofText? true s).isSome then .timestamp
  else if s = ['<', '<'] then .merge
  else if s = ['='] then .standIn
  else if s = ['!'] || s = ['&'] || s = ['*'] then .other
  else .text

end WasmPackaging.Yaml
