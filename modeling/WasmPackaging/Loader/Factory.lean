import WasmPackaging.Loader.Declaration
import WasmPackaging.Loader.ExportClause
import WasmPackaging.Loader.Options

/-!
Turning a bundled loader module into a factory: its export clause becomes the value that the
factory returns, its statements the factory's body, and the worker hooks, no longer declared in the
body, are imported and listed as the factory's dependencies.
-/

namespace WasmPackaging.Loader

open Text

/-- Whether a text goes on with a word or with a character that only a static import has there. -/
def startsImport (s : List Char) : Bool :=
  startsWord s || s.head?.any fun c => c == '$' || c == '{' || c == '*' || c == '\'' || c == '"'

/-- Recognises the start of a module-level statement on a line, blanks before it included. -/
def moduleStatement : Recognizer Unit := fun before s =>
  if atLineStart before then
    let s := s.dropWhile isIndent
    match afterWord? "export" s, afterWord? "import" s with
    | some rest, _ => if startsWord rest then none else some ((), rest)
    | _, some rest => if startsImport (trimStart rest) then some ((), rest) else none
    | none, none => none
  else none

/-- The line of the first module-level statement in a text. -/
def strayLine? (body : List Char) : Option (List Char) :=
  (locateIn moduleStatement body).head?.map fun (start, _) => trim (firstLine (body.drop start))

/-- The entries of the object that the factory returns. -/
def returnedEntries (options : LoaderOptions) (clause : ExportClause) : List (List Char) :=
  clause.specifiers.map fun specifier =>
    if specifier.isDefault then s!"default: {options.defaultBinding}".toList else specifier.property

/-- The statement that replaces the export clause. -/
def returnStatement (options : LoaderOptions) (clause : ExportClause) : List Char :=
  "return \x7b ".toList ++ joinWith [',', ' '] (returnedEntries options clause) ++ " \x7d;".toList

/-- The module with its export clause replaced and the hooks no longer declared. -/
def factoryBody (options : LoaderOptions) (clause : ExportClause) (source : List Char) : List Char :=
  stripForward (options.workerHooks.map String.toList)
    (source.take clause.start ++ returnStatement options clause ++ source.drop clause.stop)

/-- The module that exports a factory with the given body. -/
def factoryModule (options : LoaderOptions) (body : List Char) : String :=
  let hooks := commaList options.workerHooks
  let name := options.factoryName
  s!"import \x7b {hooks} \x7d from '{options.helpersModule}';\n" ++
    s!"export default {name};\n" ++
    s!"function {name}() \x7b\n" ++
    String.ofList (trimEnd body) ++ "\n\x7d\n" ++
    s!"{name}.deps = [{hooks}];\n"

/-- The one entry that exports a binding as default. -/
def ExportClause.default? (clause : ExportClause) : Except LoaderMismatch ExportSpecifier :=
  match clause.defaults with
  | [] => .error .noDefault
  | [specifier] => .ok specifier
  | specifiers => .error (.manyDefaults (specifiers.map fun s => String.ofList s.localName))

/-- Turns a bundled loader module into a module that exports a factory. -/
def toFactory (options : LoaderOptions) (source : String) : Except LoaderMismatch String := do
  let text := source.toList
  let clause ← findExportClause text
  let exportedDefault ← clause.default?
  let body := factoryBody options clause text
  match strayLine? body with
  | some line => .error (.strayStatement (String.ofList line))
  | none =>
    if declaresTopLevel options.defaultBinding.toList (text.take clause.start) then
      return factoryModule options body
    else .error (.undeclaredDefault options.defaultBinding (String.ofList exportedDefault.localName))

end WasmPackaging.Loader
