import WasmPackaging.Loader.Factory
import WasmPackaging.Loader.Inlining
import WasmPackaging.Targets.Context

/-!
The edge target: a bundle for workers whose loader is a factory with its binary payload inlined. The
loader is prepared in a temporary file, which is gone when the build ends, in whatever way it does.
-/

namespace WasmPackaging.Targets

open Bundling Config

variable {τ : Type}

/-- How the edge target prepares its loader. -/
def loaderOptions (edge : EdgeSettings) : LoaderOptions where
  payloadBinding := edge.payloadBinding
  locationPlaceholder := edge.locationPlaceholder
  workerHooks := edge.workerHooks.names
  defaultBinding := edge.defaultBinding
  factoryName := edge.factoryName
  helpersModule := edge.workerHooks.helpersModule

/-- A loader module that takes its payload from a binding. -/
def inlined (options : LoaderOptions) (source : String) : FileRun String :=
  match Loader.inlinePayload options source with
  | .ok text => pure text
  | .error e => throw e.failure

/-- A bundled loader as a factory. -/
def asFactory (options : LoaderOptions) (source : String) : FileRun String :=
  match Loader.toFactory options source with
  | .ok text => pure text
  | .error e => throw (.loader e)

/-- The bundling of the loader in its place. -/
def loaderBuild (settings : Settings) (loader : Path) : BuildOptions where
  entryPoint := loader
  outputFile := loader
  format := "esm"
  target := settings.target
  plugins := [.binary settings.edge.payloadExtension]

/-- The bundling of the entry in its place. -/
def edgeBuild (settings : Settings) (entry : Path) : BuildOptions where
  entryPoint := entry
  outputFile := entry
  format := "esm"
  target := settings.target
  extensions := settings.edge.extensions
  plugins := [.binary settings.edge.payloadExtension, .text settings.edge.verbatimStart]
  external := settings.edge.external
  droppedLabels := settings.edge.droppedLabels
  minify := true
  logLevel := "error"

/-- The files and directories that the edge target publishes, and where to. -/
def edgeAssets (edge : EdgeSettings) (values : List (String × String)) : List (Path × Path) :=
  edge.assets.map fun (source, target) => (.ofString source, .ofString (CommandTemplate.fill values target))

namespace Context

/-- Turns the loader module into a factory in its temporary file. -/
def prepareLoader (context : Context τ) (result : TargetResult) (loader temporary : Path) :
    Run τ TargetResult := do
  let options := loaderOptions context.settings.edge
  let source ← (readScript loader : FileRun String)
  let rewritten ← (inlined options source : FileRun String)
  (writeScript temporary rewritten : FileRun Unit)
  let result ← (reach result .sourceRewritten : FileRun TargetResult)
  context.bundler.build (loaderBuild context.settings temporary)
  let result ← (reach result .bundled : FileRun TargetResult)
  let bundled ← (readScript temporary : FileRun String)
  let factory ← (asFactory options bundled : FileRun String)
  (writeScript temporary factory : FileRun Unit)
  (reach result .postRewritten : FileRun TargetResult)

/-- Publishes the assets and the loader. -/
def publishEdge (context : Context τ) (result : TargetResult) (output temporary : Path) :
    Run τ TargetResult := do
  let edge := context.settings.edge
  let values ← (context.placeholders output : FileRun (List (String × String)))
  let assets ← (context.publisher.copy (edgeAssets edge values) [temporary.name] : FileRun (List Path))
  edge.minifiedScripts.forM fun script => context.minify (output.child script)
  let published := output.child edge.publishedLoader
  let _ ← (context.publisher.copy [(temporary, published)] [] : FileRun (List Path))
  let pattern := s!"**/*{edge.platformSuffix}.js"
  let renamed ←
    (context.publisher.moveAndRename pattern edge.platformSuffix (some output) : FileRun (List Path))
  return result.publish (assets ++ published :: renamed)

/-- Builds the edge target. -/
def buildEdge (context : Context τ) : Run τ TargetResult := do
  let edge := context.settings.edge
  let output ← (context.path edge.outputDirectory : FileRun Path)
  let loader ← (context.path edge.loaderPath : FileRun Path)
  let temporary ← (context.path edge.temporaryLoaderPath : FileRun Path)
  let (result, entry) ← context.publisher.withTemporary temporary fun _ => do
    let result : TargetResult := { target := "edge", sequence := edgeStages }
    let result ← context.prepareLoader result loader temporary
    context.checkTypes edge.typecheckCommand output
    let result ← context.publishEdge result output temporary
    let entry := output.child (← (entryScript context.settings : FileRun String))
    context.bundler.build (edgeBuild context.settings entry)
    let result ← (reach result .repackagedBundled : FileRun TargetResult)
    (context.publisher.deleteTemporary temporary : FileRun Unit)
    return (result, entry)
  let entry ← (verifyOutput output entry (some edge.platformSuffix) : FileRun Path)
  let result ← (reach { result with entry := some entry } .published : FileRun TargetResult)
  (reach result .done : FileRun TargetResult)

end Context

end WasmPackaging.Targets
