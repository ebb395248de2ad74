import WasmPackaging.Bundling.Plugin

/-!
What a bundler is told to do.
-/

namespace WasmPackaging.Bundling

/-- The file endings that are tried, in order, when a specifier leaves out its ending. -/
def defaultExtensions : List String := [".tsx", ".ts", ".jsx", ".js", ".css", ".json"]

/-- One run of a bundler. -/
structure BuildOptions where
  entryPoint : Path
  outputFile : Path
  format : String := "esm"
  platform : Option String := none
  target : String := "esnext"
  extensions : List String := defaultExtensions
  plugins : List Plugin := []
  external : List String := []
  droppedLabels : List String := []
  minify : Bool := false
  logLevel : String := "warning"
  allowOverwrite : Bool := true

/-- The transformation of a single script. -/
structure TransformOptions where
  target : String := "esnext"
  minify : Bool := true
  logLevel : String := "error"
  loader : String := "js"

end WasmPackaging.Bundling
