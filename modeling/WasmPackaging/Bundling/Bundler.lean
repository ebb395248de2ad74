import WasmPackaging.Bundling.Staging
import WasmPackaging.World

/-!
Bundlers. The one that drives a command stages the modules of a build, runs the command over the
copies and removes them, whatever comes of it.
-/

namespace WasmPackaging.Bundling

/-- What bundles modules and transforms scripts. -/
structure Bundler (τ : Type) where
  build : BuildOptions → Run τ Unit
  transform : String → TransformOptions → Run τ String

/-- A bundling command: the arguments it starts with, and the project it is run in. -/
structure BundlingCommand where
  project : Location
  arguments : List String

/-- What is drawn to make the name of a stage a new one: a few letters, digits and underscores. -/
structure StageToken where
  text : String
  plain : text.toList.all (fun c => c.isAlphanum || c == '_') = true
  short : text.length ≤ 8

/-- The token that stands in for one that is not told. -/
def StageToken.standIn : StageToken := ⟨"TMP", by decide, by decide⟩

/-- The command that bundles when none is given. -/
def defaultCommand : List String := ["npx", "esbuild"]

namespace BundlingCommand

/-- An argument that is given only under a condition. -/
def argumentIf (condition : Bool) (argument : String) : List String :=
  if condition then [argument] else []

/-- Some texts with commas between them. -/
def commas (texts : List String) : String := ",".intercalate texts

/-- The arguments for a platform, unless it is missing or empty. -/
def platformArguments : Option String → List String
  | none => []
  | some platform => argumentIf (platform != "") s!"--platform={platform}"

/-- The arguments that tell which loader reads which file ending, sorted by ending. -/
def loaderArguments (loaders : List (String × String)) : List String :=
  (loaders.mergeSort fun a b => decide (a.1 ≤ b.1)).map fun (suffix, loader) =>
    s!"--loader:{suffix}={loader}"

/-- The arguments that bundle a staged build. -/
def buildArguments (command : List String) (options : BuildOptions) (output : Location)
    (staged : Staged) : List String :=
  let extensions := commas options.extensions
  let labels := commas options.droppedLabels
  command ++ [
    staged.entryPoint.toString,
    "--bundle",
    "--outfile=" ++ (Path.ofLocation output).toString,
    s!"--format={options.format}",
    s!"--target={options.target}",
    s!"--log-level={options.logLevel}"] ++
  platformArguments options.platform ++
  argumentIf (options.extensions != []) s!"--resolve-extensions={extensions}" ++
  (options.external ++ staged.external).map (fun pattern => s!"--external:{pattern}") ++
  loaderArguments staged.loaders ++
  argumentIf (options.droppedLabels != []) s!"--drop-labels={labels}" ++
  argumentIf options.minify "--minify" ++
  argumentIf options.allowOverwrite "--allow-overwrite"

/-- The arguments that transform a script. -/
def transformArguments (command : List String) (options : TransformOptions) : List String :=
  command ++ [s!"--loader={options.loader}", s!"--target={options.target}",
    s!"--log-level={options.logLevel}"] ++ argumentIf options.minify "--minify"

/-- The name of the directory that a build is staged in. -/
def stageName (token : StageToken := .standIn) : String := ".bindings-pack-stage-" ++ token.text

variable {τ : Type}

/-- The directory that a build is staged in. -/
def stageLocation (b : BundlingCommand) (token : StageToken) : Location := b.project ++ [stageName token]

/-- Runs the command over a staged build. -/
def bundleStaged (b : BundlingCommand) (run : Runner τ) (options : BuildOptions) (token : StageToken) :
    Run τ Unit := do
  let project := Path.ofLocation b.project
  let staged ← (stage project (Path.ofLocation (b.stageLocation token)) options : FileRun Staged)
  let output ← (FileRun.askFor .unresolvable (·.resolve options.outputFile) : FileRun Location)
  let arguments := buildArguments b.arguments options output staged
  let _ ← run { arguments, directory := project, failure := Failure.bundler }

/-- Bundles in a directory of its own, which is removed in the end. Its name ends in a token that is drawn
for it; where something stands under the name, the build fails. -/
def build (b : BundlingCommand) (run : Runner τ) (options : BuildOptions) (token : StageToken := .standIn) :
    Run τ Unit := do
  let stage ← (FileTask.makeFresh (Path.ofLocation (b.stageLocation token)) : FileRun Location)
  Run.always (·.eraseBelow stage) (b.bundleStaged run options token)

/-- Transforms a script, which the command reads from its input. -/
def transform (b : BundlingCommand) (run : Runner τ) (code : String) (options : TransformOptions) :
    Run τ String :=
  run { arguments := transformArguments b.arguments options, directory := Path.ofLocation b.project,
        input := some code, failure := Failure.bundler }

/-- The bundler that drives the command; what is drawn for a stage may be any token. -/
def bundler (b : BundlingCommand) (run : Runner τ) (draw : World τ → StageToken := fun _ => .standIn) :
    Bundler τ where
  build options := fun world => b.build run options (draw world) world
  transform := b.transform run

end BundlingCommand

end WasmPackaging.Bundling
