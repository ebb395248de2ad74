import WasmPackaging.Document.Value
import WasmPackaging.Failure

/-!
How far the build of a target has come, and what it has made. A build passes through the stages of its
sequence in order (`advance_eq_ok_iff`); it can neither skip one nor go back.
-/

namespace WasmPackaging.Targets

open Document

/-- The stages of a build. -/
inductive Stage where
  | idle
  | sourceRewritten
  | bundled
  | postRewritten
  | repackagedBundled
  | published
  | done
  deriving DecidableEq

namespace Stage

/-- All stages. -/
def all : List Stage :=
  [.idle, .sourceRewritten, .bundled, .postRewritten, .repackagedBundled, .published, .done]

/-- The name of a stage. -/
def name : Stage → String
  | .idle => "idle"
  | .sourceRewritten => "source_rewritten"
  | .bundled => "bundled"
  | .postRewritten => "post_rewritten"
  | .repackagedBundled => "repackaged_bundled"
  | .published => "published"
  | .done => "done"

/-- The stage of a name. -/
def ofName? (name : String) : Option Stage := all.find? fun stage => stage.name == name

end Stage

/-- The stages of the edge target. -/
def edgeStages : List Stage := Stage.all

/-- The stages of the server target. -/
def serverStages : List Stage := [.idle, .bundled, .published, .done]

/-- What a build of a target has done: the stages it passed, the entry it made, and the files it
published. -/
structure TargetResult where
  target : String
  sequence : List Stage
  stages : List Stage := [.idle]
  entry : Option Path := none
  files : List Path := []
  deriving DecidableEq

namespace TargetResult

/-- The stage that a build is at. -/
def stage (result : TargetResult) : Stage := result.stages.getLast?.getD .idle

/-- The build at a stage that comes next. -/
def advance (result : TargetResult) (next : Stage) : Except BuildFault TargetResult :=
  if result.sequence[result.stages.length]? = some next then
    .ok { result with stages := result.stages ++ [next] }
  else .error (.stageOrder result.target result.stage.name next.name)

/-- The build with more files published. -/
def publish (result : TargetResult) (paths : List Path) : TargetResult :=
  { result with files := result.files ++ paths }

/-- The report on a build. -/
def document (result : TargetResult) : Value :=
  .mapping [
    (.text "target", .text result.target),
    (.text "stage", .text result.stage.name),
    (.text "stages", .list (result.stages.map fun stage => .text stage.name)),
    (.text "entry", (result.entry.map fun path => Value.text path.toString).getD .null),
    (.text "files", .list (result.files.map fun path => .text path.toString))]

/-- A build advances just to the stage that follows those it passed. -/
theorem advance_eq_ok_iff {result after : TargetResult} {next : Stage} :
    result.advance next = .ok after ↔
      result.sequence[result.stages.length]? = some next ∧
        after = { result with stages := result.stages ++ [next] } := by
  unfold advance
  split
  · rename_i h
    simp [h, eq_comm]
  · rename_i h
    simp [h]

end TargetResult

end WasmPackaging.Targets
