import WasmPackaging.Targets.Edge
import WasmPackaging.Targets.Server

/-!
The targets that can be built, by name, and the building of some of them one after another.
-/

namespace WasmPackaging.Targets

/-- A target: its name, what it is, and how it is built. -/
structure Target (τ : Type) where
  name : String
  description : String
  build : Context τ → Run τ TargetResult

variable {τ : Type}

/-- The edge target. -/
def edgeTarget : Target τ := ⟨"edge", "Edge bundle with inlined binary payload.", Context.buildEdge⟩

/-- The server target. -/
def serverTarget : Target τ :=
  ⟨"server", "CommonJS server bundle with external native modules.", Context.buildServer⟩

/-- Targets in the order they were registered, each name once. -/
abbrev Registry (τ : Type) := List (Target τ)

namespace Registry

/-- The targets there are from the start. -/
def standard : Registry τ := [edgeTarget, serverTarget]

/-- The names of the targets. -/
def names (registry : Registry τ) : List String := registry.map Target.name

/-- The registry with one target more, whose name must be free. -/
def register (registry : Registry τ) (target : Target τ) : Except Failure (Registry τ) :=
  if registry.names.contains target.name then .error (.unsupported (.targetTaken target.name))
  else .ok (registry ++ [target])

/-- The target of a name. -/
def find (registry : Registry τ) (name : String) : Except Failure (Target τ) :=
  match List.find? (fun target => target.name == name) registry with
  | some target => .ok target
  | none => .error (.unknownTarget name (registry.names.mergeSort fun a b => decide (a ≤ b)))

/-- The names of the targets that are asked for, each once; all of them if none is, or if `all` is. -/
def wanted (registry : Registry τ) (asked : List String) : List String :=
  if asked = [] ∨ asked.contains "all" then registry.names else asked.eraseDups

/-- Builds some targets one after another; the first failure ends the run. -/
def buildAll (registry : Registry τ) (names : List String) (context : Context τ) :
    Run τ (List TargetResult) := do
  match names.mapM registry.find with
  | .error failure => throw failure
  | .ok targets => targets.mapM fun target => target.build context

end Registry

end WasmPackaging.Targets
