import WasmPackaging.Document.Value
import WasmPackaging.Text.Base64
import WasmPackaging.Yaml.Kind

/-!
The values of scalars: what a text stands for, given the kind that it is said to have or shows by itself.
-/

namespace WasmPackaging.Yaml

open Document Text

/-- The truth value of a word. -/
def truthValue (text : String) : Except ValueFault Value :=
  let word := String.ofList (smallLetters text.toList)
  match truthOf? word with
  | some value => .ok (.bool value)
  | none => .error (.truth word)

/-- Whether a text writes what is no number, which is known by how it is shown. -/
def isNotNumber (text : String) : Bool :=
  unsigned (smallLetters (text.toList.filter (· != '_'))) == ".nan".toList

/-- The date or time that a text writes. -/
def timestampValue (text : String) : Except ValueFault Value :=
  match Timestamp.ofText? false (withoutLineEnd text.toList) with
  | none => .error .timestamp
  | some timestamp =>
    match timestamp.fault? with
    | some fault => .error fault
    | none => .ok (.foreign timestamp.shown timestamp.identity)

/-- The value of a scalar of a kind. -/
def scalarValue (kind : Kind) (text : String) : Reading Value :=
  match kind with
  | .null => .ok .null
  | .text => .ok (.text text)
  | .bool => (truthValue text).mapError .value
  | .integer => ((integerValue text.toList).map .integer).mapError .value
  | .real =>
    if isNotNumber text then .ok (.foreign "nan" [])
    else ((realValue text.toList).map .real).mapError .value
  | .timestamp => (timestampValue text).mapError .value
  | .bytes =>
    match if text.toList.all (·.toNat < 0x80) then Base64.read? text.toList else none with
    | some bytes => .ok (.bytes bytes)
    | none => bad (.badValue "text in base 64")
  | _ => bad (.badValue "scalar of its tag")

end WasmPackaging.Yaml
