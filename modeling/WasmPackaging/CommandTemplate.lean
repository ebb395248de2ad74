import WasmPackaging.Text.Pieces

/-!
Command templates: arguments in which names between braces stand for values. The names are replaced
one after another, so a value may bring in a name that is replaced later.
-/

namespace WasmPackaging.CommandTemplate

open Text

/-- A name as it stands in a template. -/
def placeholder (name : String) : List Char := '{' :: name.toList ++ ['}']

/-- An argument with every name of a list replaced by its value. -/
def fill (values : List (String × String)) (argument : String) : String :=
  String.ofList (values.foldl
    (fun text (name, value) => replaceAll (placeholder name) value.toList text) argument.toList)

/-- The command that a template stands for. -/
def render (template : List String) (values : List (String × String)) : List String :=
  template.map (fill values)

end WasmPackaging.CommandTemplate
