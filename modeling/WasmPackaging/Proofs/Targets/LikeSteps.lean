import WasmPackaging.Proofs.LikePublishing

/-!
Steps of a build that two runs do alike. The tools are determined: what comes of a call depends on what it is given and on
the text that it reads, and it changes nothing but what it writes (`BundlesBy`, `MinifiesBy`, `ChecksBy`). So a call that
succeeds in the one run does in the other, with the same output.
-/

namespace WasmPackaging.Targets

open Bundling Config Text FileTree FileTree.Plan

variable {τ α β : Type} {plan : Plan} {location : Location}

/-! ## Tools -/

/-- A run bundles a script: it replaces the output file by what a function makes of the entry's content, and changes nothing
else. -/
def BundlesBy (bundle : Bytes → Option Bytes) (entry output : Path) (run : Run τ Unit) : Prop :=
  ∀ (world : World τ) (files : FileTree), (∃ tools, run world = (.ok (), ⟨files, tools⟩)) ↔
    ∃ content out, world.files.read entry = .ok content ∧ bundle content = some out ∧ world.files.write output out = .ok files

/-- A run answers with what a function makes of a script, and changes no file. -/
def MinifiesBy (minified : Option String) (run : Run τ String) : Prop :=
  ∀ (world : World τ) (answer : String) (files : FileTree), (∃ tools, run world = (.ok answer, ⟨files, tools⟩)) ↔
    minified = some answer ∧ files = world.files

/-- Writes some files below a directory. -/
def writeBelow (directory : Location) (list : List (List String × Bytes)) : FileTask Unit :=
  list.forM fun file => FileTask.writeBytes (.ofLocation (directory ++ file.1)) file.2

/-- A run writes some files below a directory, and changes nothing else. -/
def ChecksBy (directory : Location) (list : List (List String × Bytes)) (run : Run τ String) : Prop :=
  ∀ (world : World τ) (files : FileTree), (∃ answer tools, run world = (.ok answer, ⟨files, tools⟩)) ↔
    writeBelow directory list world.files = (.ok (), files)

/-- A run writes the files below a directory that a function makes of a text in the project, and changes nothing else; it fails
when the function makes none. -/
def ChecksText (directory : Location) (entry : Path) (written : Option Bytes → Option (List (List String × Bytes))) (run : Run τ String) : Prop :=
  ∀ (world : World τ) (files : FileTree), (∃ answer tools, run world = (.ok answer, ⟨files, tools⟩)) ↔
    ∃ list, written (world.files.read entry).toOption = some list ∧ writeBelow directory list world.files = (.ok (), files)

/-- A run writes the same files below a directory in all trees of a plan, and changes nothing else, or it fails in all of them. -/
def ChecksIn (plan : Plan) (directory : Location) (listed : Option (List (List String × Bytes))) (run : Run τ String) : Prop :=
  ∀ (world : World τ) (files : FileTree), plan.Holds world.files → ((∃ answer tools, run world = (.ok answer, ⟨files, tools⟩)) ↔
    ∃ list, listed = some list ∧ writeBelow directory list world.files = (.ok (), files))

theorem ChecksBy.inPlan {list : List (List String × Bytes)} {run : Run τ String} (by_ : ChecksBy location list run) :
    ChecksIn plan location (some list) run := by
  intro world files _
  rw [by_ world files]
  exact ⟨fun written => ⟨list, rfl, written⟩, fun ⟨_, same, written⟩ => Option.some.inj same ▸ written⟩

/-- A text that stands alike in two trees is read alike. -/
theorem toOption_read_eq {tree other : FileTree} (sound : tree.WellFormed) (free : tree.LinkFree) (sound' : other.WellFormed)
    (free' : other.LinkFree) (named : AreNames location) (same : other.lookup location = tree.lookup location) :
    (other.read (.ofLocation location)).toOption = (tree.read (.ofLocation location)).toOption := by
  have read (answer : Except FileError Bytes) (content : Bytes) : answer.toOption = some content ↔ answer = .ok content := by
    cases answer <;> simp [Except.toOption]
  refine Option.ext fun content => ?_
  rw [read, read, read_ofLocation_iff sound' free' named, read_ofLocation_iff sound free named, same]

/-- A check by a text among the sources writes the same in all trees of a plan. -/
theorem ChecksText.inPlan {entry : Location} {written : Option Bytes → Option (List (List String × Bytes))} {run : Run τ String} {tree : FileTree}
    (by_ : ChecksText location (.ofLocation entry) written run) (sound : tree.WellFormed) (free : tree.LinkFree) (named : AreNames entry)
    (source : plan.part entry = .source) (same : tree.lookup entry = plan.base.lookup entry) :
    ChecksIn plan location (written (tree.read (.ofLocation entry)).toOption) run := by
  intro world files holds
  rw [by_ world files, toOption_read_eq sound free holds.sound holds.free named ((holds.lookup_source source).trans same.symm)]

/-- The bundler and the minifier of a context are determined: what they make of a text depends on it and on the options. -/
structure Determined (context : Context τ) (bundle : BuildOptions → Bytes → Option Bytes)
    (minified : String → TransformOptions → Option String) : Prop where
  build : ∀ options, BundlesBy (bundle options) options.entryPoint options.outputFile (context.bundler.build options)
  transform : ∀ code options, MinifiesBy (minified code options) (context.bundler.transform code options)

/-- Files that can be written below a directory. -/
def FilesBelow (list : List (List String × Bytes)) : Prop := ∀ file ∈ list, file.1 ≠ [] ∧ AreNames file.1

/-- Two runs go alike in worlds whose files are paired by a plan. -/
abbrev RunsAlike (plan : Plan) (run : Run τ α) : Prop := Simulates plan.pairing.ofFiles plan.pairing.ofFiles run run

theorem alike_build {bundle : Bytes → Option Bytes} {run : Run τ Unit} (takes : plan.Takes location)
    (by_ : BundlesBy bundle (.ofLocation location) (.ofLocation location) run) : RunsAlike plan run := by
  rintro world ⟨files, tools⟩ ⟨⟩ holds ended
  obtain ⟨content, out, read, made, written⟩ := (by_ world files).1 ⟨tools, ended⟩
  obtain ⟨held, carried⟩ := repeats_write takes out holds (FileTask.change_ends_iff.2 written)
  refine ⟨held, fun leads => ?_⟩
  obtain ⟨leads, now⟩ := carried leads
  refine ⟨leads, fun world' related => ?_⟩
  obtain ⟨files', written', related'⟩ := now world'.files related
  have read' : world'.files.read (.ofLocation location) = .ok content := related.read holds takes.files.known takes.named read
  obtain ⟨tools', ended'⟩ := (by_ world' files').2 ⟨content, out, read', made, FileTask.change_ends_iff.1 written'⟩
  exact ⟨⟨files', tools'⟩, ended', related'⟩

theorem alike_transform {minified : Option String} {run : Run τ String} (by_ : MinifiesBy minified run) : RunsAlike plan run := by
  rintro world ⟨files, tools⟩ answer holds ended
  obtain ⟨made, rfl⟩ := (by_ world answer files).1 ⟨tools, ended⟩
  refine ⟨holds, fun leads => ⟨leads, fun world' related => ?_⟩⟩
  obtain ⟨tools', ended'⟩ := (by_ world' answer world'.files).2 ⟨made, rfl⟩
  exact ⟨⟨world'.files, tools'⟩, ended', related⟩

theorem repeats_writeBelow {list : List (List String × Bytes)} (lays : plan.Lays location) (below : FilesBelow list) :
    plan.Repeats (writeBelow location list) (writeBelow location list) := by
  refine .forM list fun file mem => ?_
  obtain ⟨filled, valid⟩ := below file mem
  have inside := lays.receives valid filled
  exact repeats_writeBytes inside.reaches.dropLast inside.takes file.2

/-- What the check answers is not asked for. -/
theorem alike_check {listed : Option (List (List String × Bytes))} {run : Run τ String} (lays : plan.Lays location)
    (below : ∀ list, listed = some list → FilesBelow list) (by_ : ChecksIn plan location listed run) :
    RunsAlike plan (run >>= fun _ => pure PUnit.unit) := by
  rintro world after ⟨⟩ holds ran
  obtain ⟨answer, ⟨files, tools⟩, ended, same⟩ := bind_ends_iff.1 ran
  obtain rfl : after = ⟨files, tools⟩ := (Prod.mk.inj same).2.symm
  obtain ⟨list, given, written⟩ := (by_ world files holds).1 ⟨answer, tools, ended⟩
  obtain ⟨held, carried⟩ := repeats_writeBelow lays (below list given) holds written
  refine ⟨held, fun leads => ?_⟩
  obtain ⟨leads, now⟩ := carried leads
  refine ⟨leads, fun world' related => ?_⟩
  obtain ⟨files', written', related'⟩ := now world'.files related
  obtain ⟨answer', tools', ended'⟩ := (by_ world' files' related.holds).2 ⟨list, given, written'⟩
  exact ⟨⟨files', tools'⟩, bind_ends_iff.2 ⟨answer', _, ended', rfl⟩, related'⟩

/-! ## Scripts -/

theorem repeats_readScript (known : plan.Known location) (named : AreNames location) :
    plan.Repeats (readScript (.ofLocation location)) (readScript (.ofLocation location)) := (repeats_readText known named).adapt

theorem repeats_writeScript (reaches : plan.Reaches location.dropLast) (takes : plan.Takes location) (content : String) :
    plan.Repeats (writeScript (.ofLocation location) content) (writeScript (.ofLocation location) content) :=
  (repeats_writeBytes reaches takes (encode content)).adapt.adapt

section fixed

variable {p : Pairing FileTree}

/-- A step that depends on no file goes alike in both runs. -/
theorem simulates_fixed {act : FileRun α} (fixed : (∃ answer, act = pure answer) ∨ ∃ failure, act = throw failure) : Simulates p p act act := by
  obtain ⟨answer, rfl⟩ | ⟨failure, rfl⟩ := fixed
  · exact .pure _ _
  · exact .throw

theorem simulates_reach (result : TargetResult) (next : Stage) : Simulates p p (reach result next) (reach result next) := by
  refine simulates_fixed ?_
  unfold reach
  split
  · exact .inl ⟨_, rfl⟩
  · exact .inr ⟨_, rfl⟩

theorem simulates_inlined (options : LoaderOptions) (source : String) : Simulates p p (inlined options source) (inlined options source) := by
  refine simulates_fixed ?_
  unfold inlined
  split
  · exact .inl ⟨_, rfl⟩
  · exact .inr ⟨_, rfl⟩

theorem simulates_asFactory (options : LoaderOptions) (source : String) : Simulates p p (asFactory options source) (asFactory options source) := by
  refine simulates_fixed ?_
  unfold asFactory
  split
  · exact .inl ⟨_, rfl⟩
  · exact .inr ⟨_, rfl⟩

end fixed

/-- What follows a question about files goes on from its one answer. -/
theorem runOnward {act : FileRun α} {value : α} {next next' : α → Run τ β} {p : Pairing (World τ)} (asks : plan.Asks act value)
    (rest : Simulates plan.pairing.ofFiles p (next value) (next' value)) :
    Simulates plan.pairing.ofFiles p ((monadLift act : Run τ α) >>= next) ((monadLift act : Run τ α) >>= next') := by
  have asked : Simulates plan.pairing.ofFiles plan.pairing.ofFiles (monadLift act : Run τ α) (monadLift act) := .onFiles asks.simulates
  obtain ⟨succeeds, ends⟩ := asks
  have known (before after : World τ) (answer : α) (holds : plan.pairing.ofFiles.holds before)
      (ended : (monadLift act : Run τ α) before = (.ok answer, after)) : answer = value :=
    ((ends before.files holds answer after.files).1 (Run.onFiles_ends ended).1).2.1
  refine asked.bindWith known fun answer => .assume (fun _ holds => holds.2) fun same => ?_
  subst same
  exact rest.given

/-- What follows a look at the files, when it is the same in related trees. -/
theorem filesOnward {next : FileTree → Run τ β} {p : Pairing (World τ)}
    (same : ∀ tree other, plan.Holds tree → plan.Relates tree other → next other = next tree)
    (rest : ∀ tree, Simulates plan.pairing.ofFiles p (next tree) (next tree)) :
    Simulates plan.pairing.ofFiles p (Run.files >>= next) (Run.files >>= next) := by
  have seen (world : World τ) : (Run.files >>= next) world = next world.files world := rfl
  intro before after answer holds ended
  rw [seen] at ended
  obtain ⟨held, carried⟩ := rest _ holds ended
  refine ⟨held, fun leads => ?_⟩
  obtain ⟨leads, now⟩ := carried leads
  refine ⟨leads, fun before' related => ?_⟩
  rw [seen, same _ _ holds related]
  exact now before' related

namespace Context

variable {context : Context τ}

theorem alike_minify {minified : String → TransformOptions → Option String} (known : plan.Known location)
    (reaches : plan.Reaches location.dropLast) (takes : plan.Takes location)
    (by_ : ∀ code options, MinifiesBy (minified code options) (context.bundler.transform code options)) :
    RunsAlike plan (context.minify (.ofLocation location)) := by
  unfold minify
  refine (Simulates.onFiles (repeats_readScript known takes.named)).bind fun code => ?_
  refine (alike_transform (by_ _ _)).bind fun minified => ?_
  exact .onFiles (repeats_writeScript reaches takes minified)

variable {project : Location} (resolved : plan.base.straight context.settings.projectRoot = project)

include resolved

/-- The project is where it is in all trees of a plan. -/
theorem rooted_of_holds (start : context.publisher.root = .ofLocation project) (fine : context.settings.projectRoot.holdsZero = false)
    {tree : FileTree} (holds : plan.Holds tree) : context.Rooted tree := by
  refine ⟨project, ?_, start⟩
  rw [holds.free.resolve_eq fine, straight_congr holds.working]
  exact congrArg _ resolved

theorem asks_root : plan.Asks context.root (.ofLocation project) := resolved ▸ Asks.resolve _

theorem asks_relativeText (output : Path) : plan.Asks (context.relativeText output)
    (Path.relativeTo (output.normalize plan.base.workingDirectory) ((Path.ofLocation project).normalize plan.base.workingDirectory)).toString := by
  refine (asks_root resolved).bind ?_
  exact @Asks.get plan _ _ _ _ (fun tree : FileTree => tree.workingDirectory)
    (fun workingDirectory => pure (Path.relativeTo (output.normalize workingDirectory) ((Path.ofLocation project).normalize workingDirectory)).toString)
    (fun _ holds => holds.working) (.pure _)

theorem asks_placeholders (output : Path) :
    plan.Asks (context.placeholders output) (templateValues plan.base.workingDirectory project output) :=
  (asks_relativeText resolved output).bind ((asks_root resolved).bind (.pure _))

/-- The command that checks the types of a project. -/
def checkCommand (workingDirectory project : Location) (template : List String) (output : Path) : Command where
  arguments := CommandTemplate.render template (templateValues workingDirectory project output)
  directory := .ofLocation project

theorem alike_checkTypes {template : List String} {output : Path} {directory : Location}
    {listed : Option (List (List String × Bytes))} (lays : plan.Lays directory) (below : ∀ list, listed = some list → FilesBelow list)
    (by_ : ChecksIn plan directory listed (context.runner (checkCommand plan.base.workingDirectory project template output))) :
    RunsAlike plan (context.checkTypes template output) := by
  unfold checkTypes
  refine runOnward (asks_placeholders resolved output) (runOnward (asks_root resolved) ?_)
  exact alike_check lays below by_

end Context

/-! ## The output -/

theorem verifyNames_web (output entry : Path) : verifyNames output entry (some ".web") = (do
    match ← FileRun.askFor .refused (·.search output ⟨[.anyDepth, .wildcard ("*" ++ ".web" ++ ".js")], false⟩) with
    | [] => pure entry
    | left => throw (.build (.suffixLeft (left.map Path.toString)))) := by
  have parsed (suffix : String) (same : suffix = ".web") :
      PathPattern.ofString s!"**/*{suffix}.js" = .ok ⟨[.anyDepth, .wildcard ("*" ++ ".web" ++ ".js")], false⟩ := same ▸ ofString_scripts
  have named : (some ".web").filter (· != "") = some ".web" := by decide
  unfold verifyNames
  rw [named]
  simp only
  rewrite [parsed _ rfl]
  rfl

/-- An output is made sure of just when its entry is there and its names are right. -/
theorem verifyOutput_ends_iff {output entry answer : Path} {suffix : Option String} {before after : FileTree} :
    verifyOutput output entry suffix before = (.ok answer, after) ↔
      before.asksFile entry = .ok true ∧ verifyNames output entry suffix before = (.ok answer, after) := by
  rw [verifyOutput_eq, bind_ends_iff]
  constructor
  · rintro ⟨there, between, asked, ended⟩
    obtain ⟨asked, rfl⟩ := FileRun.askFor_ends_iff.1 asked
    cases there with
    | true => exact ⟨asked, ended⟩
    | false => cases (Prod.mk.inj ended).1
  · rintro ⟨asked, ended⟩
    exact ⟨true, before, FileRun.askFor_ends_iff.2 ⟨asked, rfl⟩, ended⟩

theorem verifyNames_web_ends_iff {output entry answer : Path} {before after : FileTree} :
    verifyNames output entry (some ".web") before = (.ok answer, after) ↔
      before.search output ⟨[.anyDepth, .wildcard ("*" ++ ".web" ++ ".js")], false⟩ = .ok [] ∧ answer = entry ∧ after = before := by
  rw [verifyNames_web, bind_ends_iff]
  constructor
  · rintro ⟨left, between, searched, ended⟩
    obtain ⟨searched, rfl⟩ := FileRun.askFor_ends_iff.1 searched
    split at ended
    · obtain ⟨same, rfl⟩ := Prod.mk.inj ended
      exact ⟨searched, (Except.ok.inj same).symm, rfl⟩
    · cases (Prod.mk.inj ended).1
  · rintro ⟨searched, rfl, rfl⟩
    exact ⟨[], after, FileRun.askFor_ends_iff.2 ⟨searched, rfl⟩, rfl⟩

/-- A file that the one run finds the other finds too. -/
theorem asksFile_of_related {tree other : FileTree} (holds : plan.Holds tree) (related : plan.Relates tree other) (known : plan.Known location)
    (named : AreNames location) (asked : tree.asksFile (.ofLocation location) = .ok true) : other.asksFile (.ofLocation location) = .ok true := by
  obtain ⟨fits, entry, present, file⟩ := (asks_ofLocation_true_iff holds.sound holds.free named).1 asked
  exact (asks_ofLocation_true_iff related.holds.sound related.holds.free named).2 ⟨fits, entry, related.present known present, file⟩

/-- An output in which all names are allowed. -/
theorem repeats_verifyEntry (output : Path) (known : plan.Known location) (named : AreNames location) :
    plan.Repeats (verifyOutput output (.ofLocation location) none) (verifyOutput output (.ofLocation location) none) := by
  intro before after answer holds ended
  obtain ⟨asked, ended⟩ := verifyOutput_ends_iff.1 ended
  obtain ⟨same, rfl⟩ := Prod.mk.inj ended
  obtain rfl := Except.ok.inj same
  refine ⟨holds, fun leads => ⟨leads, fun before' related => ⟨before', verifyOutput_ends_iff.2 ⟨?_, rfl⟩, related⟩⟩⟩
  exact asksFile_of_related holds related known named asked

/-- An output that the one run finds complete is complete for the other. -/
theorem repeats_verifyOutput {name : String} (tidy : plan.Tidy location) (valid : IsEntryName name) :
    plan.Repeats (verifyOutput (.ofLocation location) (.ofLocation (location ++ [name])) (some ".web"))
      (verifyOutput (.ofLocation location) (.ofLocation (location ++ [name])) (some ".web")) := by
  have named := (tidy.lays.child valid).reaches.named
  intro before after answer holds ended
  obtain ⟨asked, ended⟩ := verifyOutput_ends_iff.1 ended
  obtain ⟨searched, rfl, rfl⟩ := verifyNames_web_ends_iff.1 ended
  refine ⟨holds, fun leads => ⟨leads, fun before' related =>
    ⟨before', verifyOutput_ends_iff.2 ⟨?_, verifyNames_web_ends_iff.2 ⟨?_, rfl, rfl⟩⟩, related⟩⟩⟩
  · exact asksFile_of_related holds related (tidy.known [name]) named asked
  · obtain ⟨fits, entry, present, -⟩ := (asks_ofLocation_true_iff holds.sound holds.free named).1 asked
    exact tidy.search holds related (holds.sound.parent location name (by simp [present])) searched

end WasmPackaging.Targets
