import WasmPackaging.FileTree.Task

/-!
Runs: actions on files and on the tools that a build calls. The state of the tools is left open. What
was done before a failure stays done, and a cleanup is done in either case (`run_always`).
-/

namespace WasmPackaging

/-- The files, and the state of the tools. -/
structure World (τ : Type) where
  files : FileTree
  tools : τ

/-- An action on a world, which may fail. -/
abbrev Run (τ : Type) := ExceptT Failure (StateM (World τ))

/-- A command that a tool runs: its arguments, the directory it starts in, what it reads, and how its
failure is reported. -/
structure Command where
  arguments : List String
  directory : Path
  input : Option String := none
  failure : CommandReport → Failure := Failure.command

/-- What runs commands; the result is what the command wrote. -/
abbrev Runner (τ : Type) := Command → Run τ String

namespace Run

variable {τ α : Type}

/-- An action on the files alone. -/
def onFiles (act : FileRun α) : Run τ α := fun world =>
  let (result, files) := act world.files
  (result, { world with files })

instance : MonadLift FileRun (Run τ) := ⟨onFiles⟩

/-- The files as they stand. -/
def files : Run τ FileTree := fun world => (.ok world.files, world)

/-- The state of the tools. -/
def tools : Run τ τ := fun world => (.ok world.tools, world)

/-- Changes the state of the tools. -/
def changeTools (f : τ → τ) : Run τ Unit := fun world =>
  (.ok (), { world with tools := f world.tools })

/-- Does an action and then a cleanup of the files, whether or not the action failed. -/
def always (cleanup : FileTree → FileTree) (act : Run τ α) : Run τ α := fun world =>
  let (result, world) := act world
  (result, { world with files := cleanup world.files })

/-- The cleanup changes the files that the action leaves, and nothing else. -/
theorem run_always (cleanup : FileTree → FileTree) (act : Run τ α) (world : World τ) :
    (always cleanup act) world =
      ((act world).1, { (act world).2 with files := cleanup (act world).2.files }) := rfl

end Run

end WasmPackaging
