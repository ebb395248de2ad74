/-!
The names that packaging gives to the parts of a loader module.
-/

namespace WasmPackaging

/-- The names used when a loader module is prepared and turned into a factory. The binding and the
placeholder are templates for what they replace. -/
structure LoaderOptions where
  payloadBinding : String := "wasmCode"
  locationPlaceholder : String := "\"/\""
  workerHooks : List String := ["startWorkers", "terminateWorkers"]
  defaultBinding : String := "__wbg_init"
  factoryName : String := "plonkWasm"
  helpersModule : String := "../bindings/js/web/worker-helpers.js"

end WasmPackaging
