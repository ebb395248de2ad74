import WasmPackaging.Text.Number
import WasmPackaging.Text.Quoted

/-!
Why a text is not a YAML document that settings can be read from.
-/

namespace WasmPackaging.Yaml

open Text

/-- What is wrong with the text of a document. -/
inductive Fault where
  | strangeCharacter
  | misplaced (what : String)
  | unterminated (what : String)
  | badEscape
  | badDirective
  | badTag
  | badIndent
  | unknownAlias (name : String)
  | recursive
  | unhashableKey
  | badMerge
  | badValue (kind : String)
  | severalDocuments
  deriving DecidableEq

/-- The wording of a fault. -/
def Fault.message : Fault → String
  | .strangeCharacter => "a character that a document may not hold"
  | .misplaced what => s!"{what} where it may not stand"
  | .unterminated what => s!"{what} without an end"
  | .badEscape => "an unknown escape"
  | .badDirective => "a directive that cannot be read"
  | .badTag => "a tag that cannot be read"
  | .badIndent => "an indentation that cannot be read"
  | .unknownAlias name => s!"an alias of the undefined anchor {quoted name}"
  | .recursive => "a value that holds itself"
  | .unhashableKey => "a list or mapping as a key"
  | .badMerge => "a merge of something that is no mapping"
  | .badValue kind => s!"a value that is no {kind}"
  | .severalDocuments => "more than one document"

/-- A well-formed scalar that stands for no value of its kind. -/
inductive ValueFault where
  | month
  | day
  | year (value : Nat)
  | hour
  | minute
  | second
  | offset (minutes : Int)
  | codePoint
  | half
  | hugeCode
  | digits (base : Nat) (text : String)
  | tooLong (count : Nat)
  | number (text : String)
  | hugeFactor
  | truth (word : String)
  | noText
  | timestamp
  | unwrittenTimestamp
  | endless
  deriving DecidableEq

/-- A span of some minutes, by its days and the seconds of the last day. -/
def shownSpan (minutes : Int) : String :=
  let part (name : String) (n : Int) : List String := if n = 0 then [] else [s!"{name}={n}"]
  let parts := part "days" (minutes / 1440) ++ part "seconds" (minutes % 1440 * 60)
  "datetime.timedelta(" ++ commaList (if parts = [] then ["0"] else parts) ++ ")"

/-- The wording of the fault. -/
def ValueFault.message : ValueFault → String
  | .month => "month must be in 1..12"
  | .day => "day is out of range for month"
  | .year value => s!"year {value} is out of range"
  | .hour => "hour must be in 0..23"
  | .minute => "minute must be in 0..59"
  | .second => "second must be in 0..59"
  | .offset minutes =>
    "offset must be a timedelta strictly between -timedelta(hours=24) and timedelta(hours=24), not " ++
      shownSpan minutes ++ "."
  | .codePoint => "chr() arg not in range(0x110000)"
  | .half => "surrogates not allowed"
  | .hugeCode => "int too large to convert to C int"
  | .digits base text =>
    let shown := String.ofList ((quoted text).toList.take 200)
    s!"invalid literal for int() with base {base}: {shown}"
  | .tooLong count => tooManyDigits count
  | .number text => s!"could not convert string to float: {quoted text}"
  | .hugeFactor => "int too large to convert to float"
  | .truth word => word
  | .noText => "string index out of range"
  | .timestamp => "'NoneType' object has no attribute 'groupdict'"
  | .unwrittenTimestamp => "expected string or bytes-like object, got 'list'"
  | .endless => "maximum recursion depth exceeded"

/-- Why a document could not be read: a fault of its text, or a scalar without a value. -/
inductive Error where
  | text (fault : Fault)
  | value (fault : ValueFault)
  deriving DecidableEq

end WasmPackaging.Yaml
