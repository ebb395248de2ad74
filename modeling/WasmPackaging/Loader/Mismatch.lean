import WasmPackaging.Text.Template

/-!
Why a loader module cannot be prepared or turned into a factory, and how that is worded.
-/

namespace WasmPackaging

open Text

/-- The ways in which a module's text lacks the shape that packaging needs. -/
inductive LoaderMismatch where
  | noPayload
  | manyPayloads (names : List String)
  | noExportBlock
  | unreadableExport (entry : String)
  | noDefault
  | manyDefaults (locals : List String)
  | strayStatement (line : String)
  | undeclaredDefault (binding exportedLocal : String)
  deriving DecidableEq

/-- The wording of a mismatch. -/
def LoaderMismatch.message : LoaderMismatch → String
  | .noPayload => "Loader module does not construct its binary payload URL from import.meta.url."
  | .manyPayloads names =>
    s!"Loader module references more than one binary payload: {commaList names}"
  | .noExportBlock => "Bundled loader module has no export block."
  | .unreadableExport entry => s!"Unrecognised export specifier: {entry}"
  | .noDefault => "Export block of the bundled loader has no default alias."
  | .manyDefaults locals =>
    s!"Export block has more than one default alias candidate: {commaList locals}"
  | .strayStatement line => s!"Module-level statement left inside the factory body: {line}"
  | .undeclaredDefault binding exportedLocal =>
    s!"Bundled loader does not declare '{binding}' at top level; " ++
      s!"the default export is '{exportedLocal}'."

/-- Why a loader module could not be prepared. -/
inductive LoaderError where
  | mismatch (cause : LoaderMismatch)
  | template (cause : TemplateError)

end WasmPackaging
