import WasmPackaging.Loader.Mismatch
import WasmPackaging.Text.Pieces

/-!
The export clause of a bundled module: where it stands, and which bindings it exports under which
names. The last clause of a module counts.
-/

namespace WasmPackaging.Loader

open Text

/-- A binding and the name it is exported under. -/
structure ExportSpecifier where
  localName : List Char
  exported : List Char
  deriving DecidableEq

/-- An export clause: the offset of its first character and of the one behind it, and its entries. -/
structure ExportClause where
  start : Nat
  stop : Nat
  specifiers : List ExportSpecifier
  deriving DecidableEq

/-- The entry of an object that holds the binding under its exported name. -/
def ExportSpecifier.property (specifier : ExportSpecifier) : List Char :=
  if specifier.localName = specifier.exported then specifier.localName
  else specifier.exported ++ [':', ' '] ++ specifier.localName

/-- The name of the default export. -/
def defaultName : List Char := "default".toList

/-- Whether a binding is the default export. -/
def ExportSpecifier.isDefault (specifier : ExportSpecifier) : Bool :=
  specifier.exported == defaultName

/-- Whether a character may stand between the braces of a clause. -/
def isClauseChar (c : Char) : Bool := c != '{' && c != '}'

/-- Recognises an export clause that starts a line: the text between its braces. -/
def exportClause : Recognizer (List Char) := fun before s =>
  if atLineStart before then do
    let s ← afterWord? "export" (s.dropWhile isIndent)
    let s ← after? ['{'] (trimStart s)
    let body := s.takeWhile isClauseChar
    let s ← after? ['}'] (s.dropWhile isClauseChar)
    let s := s.dropWhile isIndent
    some (body, (after? [';'] s).getD s)
  else none

/-- Reads one entry: a name, or a name, `as` and a second name. -/
def readSpecifier (entry : List (List Char)) : Option ExportSpecifier :=
  match entry with
  | [name] => if isName name then some ⟨name, name⟩ else none
  | [name, ['a', 's'], exported] =>
    if isName name && isName exported then some ⟨name, exported⟩ else none
  | _ => none

/-- Reads the entries between the commas of a clause; an empty one is passed over. -/
def readSpecifiers : List (List (List Char)) → Except LoaderMismatch (List ExportSpecifier)
  | [] => .ok []
  | entry :: rest =>
    if entry.isEmpty then readSpecifiers rest
    else match readSpecifier entry with
      | none => .error (.unreadableExport (String.ofList (joinWith [' '] entry)))
      | some specifier => (readSpecifiers rest).map (specifier :: ·)

/-- The entries written between the braces of a clause. -/
def specifiersOf (body : List Char) : Except LoaderMismatch (List ExportSpecifier) :=
  readSpecifiers ((splitAt ',' body).map words)

/-- The export clause of a module. -/
def findExportClause (source : List Char) : Except LoaderMismatch ExportClause :=
  match (locateIn exportClause source).getLast? with
  | none => .error .noExportBlock
  | some (start, body, text) => (specifiersOf body).map (⟨start, start + text.length, ·⟩)

/-- The entries that export a binding as default. -/
def ExportClause.defaults (clause : ExportClause) : List ExportSpecifier :=
  clause.specifiers.filter ExportSpecifier.isDefault

end WasmPackaging.Loader
