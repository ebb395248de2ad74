import WasmPackaging.Targets.Context

/-!
The server target: a bundle whose native modules and their companions stay outside of it.
-/

namespace WasmPackaging.Targets

open Bundling Config

variable {τ : Type}

/-- The bundling of the entry in its place. -/
def serverBuild (settings : Settings) (entry : Path) (companions : Plugin)
    (host : String := defaultPlatform) : BuildOptions where
  entryPoint := entry
  outputFile := entry
  format := "cjs"
  platform := some "node"
  target := settings.target
  extensions := settings.server.extensions
  plugins := [.forPlatform settings.server.hostPlatform inlinedOn host, companions]
  droppedLabels := settings.server.droppedLabels
  minify := false

namespace Context

/-- Copies the bindings next to where they are, under the name they are staged by. -/
def stageBindings (context : Context τ) (bindings : Path) : FileRun Unit := do
  match bindings.withName context.settings.server.stagedBindingsName with
  | .error e => throw (.name e)
  | .ok staged => let _ ← context.publisher.copy [(bindings, staged)] []

/-- Builds the server target. -/
def buildServer (context : Context τ) : Run τ TargetResult := do
  let server := context.settings.server
  let output ← (context.path server.outputDirectory : FileRun Path)
  let bindings ← (context.path server.bindingsDirectory : FileRun Path)
  (context.stageBindings bindings : FileRun Unit)
  context.checkTypes server.typecheckCommand output
  let place ← (context.relativeText output : FileRun String)
  let files ← (context.publisher.copySwapped (server.assets.map Path.ofString) server.sourceStart
    (place ++ "/") : FileRun (List Path))
  let entry := output.child (← (entryScript context.settings : FileRun String))
  match Plugin.forCompanions (← Run.files) output server.companionSuffixes with
  | .error failure => throw failure
  | .ok companions =>
    context.bundler.build (serverBuild context.settings entry companions context.hostPlatform)
    let result := TargetResult.publish { target := "server", sequence := serverStages } files
    let result ← (reach result .bundled : FileRun TargetResult)
    let entry ← (verifyOutput output entry none : FileRun Path)
    let result ← (reach { result with entry := some entry } .published : FileRun TargetResult)
    (reach result .done : FileRun TargetResult)

end Context

end WasmPackaging.Targets
