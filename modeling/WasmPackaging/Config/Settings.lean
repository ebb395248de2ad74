import WasmPackaging.Config.Shape
import WasmPackaging.Failure

/-!
The settings of a packaging run, with their defaults, and their reading from a document. A document is
refused with every complaint about it; one without any has all it gives taken over, and the default of
all it leaves out (`Settings.read`).
-/

namespace WasmPackaging.Config

open Document

/-- Where a loader gets the hooks that start and stop workers. -/
structure WorkerHooks where
  helpersModule : String := "../bindings/js/web/worker-helpers.js"
  names : List String := ["startWorkers", "terminateWorkers"]
  deriving DecidableEq

/-- The command that checks types, with a place for the output directory. -/
def defaultTypecheck : List String :=
  ["npx", "tsc", "-p", "tsconfig.cloudflare.json", "--outDir", "\x7boutput_dir\x7d"]

/-- The files and directories that the edge target publishes, and where to. -/
def defaultEdgeAssets : List (String × String) :=
  [("src/bindings/compiled/web_bindings/", "\x7boutput_dir\x7d/web_bindings/"),
   ("src/snarky.d.ts", "\x7boutput_dir\x7d/snarky.d.ts"),
   ("src/snarky.web.js", "\x7boutput_dir\x7d/snarky.js"),
   ("src/bindings/js/web/", "\x7boutput_dir\x7d/bindings/js/web/")]

/-- The settings of the target for edge workers. -/
structure EdgeSettings where
  outputDirectory : Path := .ofString "dist/cloudflare"
  bindingsDirectory : Path := .ofString "src/bindings/compiled/web_bindings"
  loaderModule : String := "plonk_wasm.js"
  payloadBinding : String := "wasmCode"
  locationPlaceholder : String := "\"/\""
  defaultBinding : String := "__wbg_init"
  factoryName : String := "plonkWasm"
  workerHooks : WorkerHooks := {}
  typecheckCommand : List String := defaultTypecheck
  assets : List (String × String) := defaultEdgeAssets
  minifiedScripts : List String := ["web_bindings/o1js_web.bc.js"]
  publishedLoader : String := "web_bindings/plonk_wasm.js"
  platformSuffix : String := ".web"
  external : List String := ["*.bc.js"]
  extensions : List String := [".js", ".ts"]
  droppedLabels : List String := ["CJS"]
  verbatimStart : String := "string:"
  payloadExtension : String := ".wasm"
  deriving DecidableEq

/-- The settings of the target for servers. -/
structure ServerSettings where
  outputDirectory : Path := .ofString "dist/cloudflare-node"
  bindingsDirectory : Path := .ofString "src/bindings/compiled/node_bindings"
  stagedBindingsName : String := "_node_bindings"
  typecheckCommand : List String := defaultTypecheck
  assets : List String :=
    ["src/snarky.d.ts", "src/bindings/compiled/_node_bindings",
     "src/bindings/compiled/node_bindings/plonk_wasm.d.cts"]
  sourceStart : String := "src/"
  companionSuffixes : List String := ["bc.cjs", "plonk_wasm.cjs"]
  extensions : List String := [".node.js", ".ts", ".js"]
  droppedLabels : List String := ["CJS"]
  hostPlatform : Option String := none
  deriving DecidableEq

/-- The settings of a run. -/
structure Settings where
  projectRoot : Path := .ofString "."
  entry : Path := .ofString "src/index.ts"
  bundlerCommand : List String := ["npx", "esbuild"]
  target : String := "esnext"
  edge : EdgeSettings := {}
  server : ServerSettings := {}
  deriving DecidableEq

/-! ## The settings by their names -/

/-- The settings of the worker hooks. -/
def WorkerHooks.fields : List (Field WorkerHooks) :=
  [.text "module" (·.helpersModule) fun v s => { s with helpersModule := v },
   .texts "names" (·.names) fun v s => { s with names := v }]

/-- The settings of the edge target. -/
def EdgeSettings.fields : List (Field EdgeSettings) :=
  [.path "output_dir" (·.outputDirectory) fun v s => { s with outputDirectory := v },
   .path "bindings_dir" (·.bindingsDirectory) fun v s => { s with bindingsDirectory := v },
   .text "loader_module" (·.loaderModule) fun v s => { s with loaderModule := v },
   .text "payload_binding" (·.payloadBinding) fun v s => { s with payloadBinding := v },
   .text "location_placeholder" (·.locationPlaceholder) fun v s => { s with locationPlaceholder := v },
   .text "default_binding" (·.defaultBinding) fun v s => { s with defaultBinding := v },
   .text "factory_name" (·.factoryName) fun v s => { s with factoryName := v },
   .group "worker_hooks" .workerHooks WorkerHooks.fields {} (·.workerHooks)
    fun v s => { s with workerHooks := v },
   .texts "typecheck_command" (·.typecheckCommand) fun v s => { s with typecheckCommand := v },
   .textTable "assets" (·.assets) fun v s => { s with assets := v },
   .texts "minify_scripts" (·.minifiedScripts) fun v s => { s with minifiedScripts := v },
   .text "published_loader" (·.publishedLoader) fun v s => { s with publishedLoader := v },
   .text "platform_suffix" (·.platformSuffix) fun v s => { s with platformSuffix := v },
   .texts "external" (·.external) fun v s => { s with external := v },
   .texts "resolve_extensions" (·.extensions) fun v s => { s with extensions := v },
   .texts "drop_labels" (·.droppedLabels) fun v s => { s with droppedLabels := v },
   .text "verbatim_prefix" (·.verbatimStart) fun v s => { s with verbatimStart := v },
   .text "payload_extension" (·.payloadExtension) fun v s => { s with payloadExtension := v }]

/-- The settings of the server target. -/
def ServerSettings.fields : List (Field ServerSettings) :=
  [.path "output_dir" (·.outputDirectory) fun v s => { s with outputDirectory := v },
   .path "bindings_dir" (·.bindingsDirectory) fun v s => { s with bindingsDirectory := v },
   .text "staged_bindings_name" (·.stagedBindingsName) fun v s => { s with stagedBindingsName := v },
   .texts "typecheck_command" (·.typecheckCommand) fun v s => { s with typecheckCommand := v },
   .texts "assets" (·.assets) fun v s => { s with assets := v },
   .text "source_prefix" (·.sourceStart) fun v s => { s with sourceStart := v },
   .texts "companion_suffixes" (·.companionSuffixes) fun v s => { s with companionSuffixes := v },
   .texts "resolve_extensions" (·.extensions) fun v s => { s with extensions := v },
   .texts "drop_labels" (·.droppedLabels) fun v s => { s with droppedLabels := v },
   .optionalText "host_platform" (·.hostPlatform) fun v s => { s with hostPlatform := v }]

/-- The settings of a run. -/
def Settings.fields : List (Field Settings) :=
  [.path "project_root" (·.projectRoot) fun v s => { s with projectRoot := v },
   .path "entry" (·.entry) fun v s => { s with entry := v },
   .texts "esbuild_command" (·.bundlerCommand) fun v s => { s with bundlerCommand := v },
   .text "target" (·.target) fun v s => { s with target := v },
   .group "edge" .edge EdgeSettings.fields {} (·.edge) fun v s => { s with edge := v },
   .group "server" .server ServerSettings.fields {} (·.server) fun v s => { s with server := v }]

namespace Settings

/-- The shape of a document that gives settings. -/
def shape : Shape := Field.shapeOf .build fields

/-- The settings that a document gives, without a check. -/
def ofDocument (document : Value) : Settings := Field.assign fields document {}

/-- The settings that a document gives, or all that is wrong with it. -/
def read (document : Value) : Except (List Violation) Settings :=
  match shape.violations document with
  | [] => .ok (ofDocument document)
  | violations => .error violations

/-- The document that gives some settings in full. -/
def document (settings : Settings) : Value := Field.document fields settings

/-- A document is accepted just if nothing is wrong with it. -/
theorem read_eq_ok_iff {value : Value} {settings : Settings} :
    read value = .ok settings ↔ shape.violations value = [] ∧ ofDocument value = settings := by
  unfold read
  split
  · rename_i h
    simp [h]
  · rename_i h
    simp only [reduceCtorEq, false_iff]
    exact fun both => h both.1

/-! ## Places that follow from the settings -/

/-- The name that the script has which type checking makes of the entry. -/
def entryScript (settings : Settings) : Except NameError String :=
  (settings.entry.withSuffix ".js").map Path.name

end Settings

/-- A text up to its last dot; one without a dot is kept whole. -/
def beforeLastDot (s : String) : String :=
  let chars := s.toList
  let cut := chars.reverse.dropWhile (· != '.')
  if cut = [] then s else String.ofList (cut.drop 1).reverse

/-- The path of the loader module. -/
def EdgeSettings.loaderPath (edge : EdgeSettings) : Path := edge.bindingsDirectory.child edge.loaderModule

/-- The path that the loader module has while it is being prepared. -/
def EdgeSettings.temporaryLoaderPath (edge : EdgeSettings) : Path :=
  edge.bindingsDirectory.child (beforeLastDot edge.loaderModule ++ ".tmp.js")

end WasmPackaging.Config
