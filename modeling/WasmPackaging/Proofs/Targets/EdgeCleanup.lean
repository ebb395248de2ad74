import WasmPackaging.Proofs.Publishing
import WasmPackaging.Proofs.Targets.TemporaryLoader
import WasmPackaging.Targets.Edge

/-!
The edge target cleans up. Whatever the tools do in the output directory and in the place of the temporary loader, and
wherever the build fails, the temporary loader is gone at the end, and nothing else is changed outside the output
directory (`buildEdge_cleans_up`). Each step of the build keeps to that zone, so it does not matter which of them is
the last.
-/

namespace WasmPackaging.Targets

open Bundling Config FileTree

variable {τ : Type} {zone : Zone} {tree : FileTree}

/-- A run keeps an invariant of the files, however it ends. -/
abbrev RunKeeps (invariant : FileTree → Prop) {α : Type} (run : Run τ α) : Prop :=
  Keeps (fun world : World τ => invariant world.files) (fun _ => True) run

/-- A run keeps to a zone: however it ends, the files differ in the zone alone. -/
abbrev RunsIn (zone : Zone) (tree : FileTree) {α : Type} (run : Run τ α) : Prop := RunKeeps (Confined zone tree) run

/-- What holds of the files when a run has ended holds when steps follow that keep it. -/
theorem RunKeeps.onward {invariant : FileTree → Prop} {α β : Type} {act : Run τ α} {next : α → Run τ β} {world : World τ}
    (ended : invariant (act world).2.files) (rest : ∀ answer, RunKeeps invariant (next answer)) :
    invariant ((act >>= next) world).2.files := Keeps.onward ended rest

/-! ## Steps that change no file -/

section unchanged

variable {invariant : FileTree → Prop}

theorem keeps_reach (result : TargetResult) (next : Stage) : Keeps invariant (fun _ => True) (reach result next) := by
  unfold reach
  split
  · exact .pure trivial
  · exact .throw

theorem keeps_inlined (options : LoaderOptions) (source : String) : Keeps invariant (fun _ => True) (inlined options source) := by
  unfold inlined
  split
  · exact .pure trivial
  · exact .throw

theorem keeps_asFactory (options : LoaderOptions) (source : String) : Keeps invariant (fun _ => True) (asFactory options source) := by
  unfold asFactory
  split
  · exact .pure trivial
  · exact .throw

theorem keeps_entryScript (settings : Settings) : Keeps invariant (fun _ => True) (entryScript settings) := by
  unfold entryScript
  split
  · exact .pure trivial
  · exact .throw

/-- A script that was read is a file in some tree that passes the test of the invariant. -/
theorem keeps_readScript (path : Path) :
    Keeps invariant (fun _ => ∃ now content, invariant now ∧ now.read path = .ok content) (readScript path) := by
  have asked : Keeps invariant (fun content => ∃ now, invariant now ∧ now.read path = .ok content) (FileRun.readBytes path) :=
    FileRun.keeps_askFor fun now content holds script => ⟨now, holds, script⟩
  refine .adapt (.bind asked fun content ⟨now, holds, script⟩ => ?_)
  split
  · exact .pure ⟨now, content, holds, script⟩
  · exact .throw

/-- The entry, when no script below the output directory has a suffix left in its name. -/
def verifyNames (output entry : Path) (suffix : Option String) : FileRun Path :=
  match suffix.filter (· != "") with
  | none => pure entry
  | some suffix =>
    match PathPattern.ofString s!"**/*{suffix}.js" with
    | .error e => throw (.pattern e)
    | .ok pattern => do
      match ← FileRun.askFor .refused (·.search output pattern) with
      | [] => pure entry
      | left => throw (.build (.suffixLeft (left.map Path.toString)))

theorem verifyOutput_eq (output entry : Path) (suffix : Option String) : verifyOutput output entry suffix = (do
    if ← FileRun.askFor .refused (·.asksFile entry) then verifyNames output entry suffix
    else throw (.build (.noEntry entry.toString))) := by
  unfold verifyOutput
  refine congrArg (_ >>= ·) (funext fun there => ?_)
  cases there <;> rfl

theorem keeps_verifyOutput (output entry : Path) (suffix : Option String) :
    Keeps invariant (fun _ => True) (verifyOutput output entry suffix) := by
  have asked {α ε : Type} (failure : ε → Failure) (question : FileTree → Except ε α) :
      Keeps invariant (fun _ => True) (FileRun.askFor failure question) := FileRun.keeps_askFor fun _ _ _ _ => trivial
  refine Keeps.bind (asked _ _) fun there _ => ?_
  have rest : Keeps invariant (fun _ => True) (verifyNames output entry suffix) := by
    unfold verifyNames
    split
    · exact .pure trivial
    · split
      · exact .throw
      · refine Keeps.bind (asked _ _) fun left _ => ?_
        split
        · exact .pure trivial
        · exact .throw
  cases there with
  | false => exact Keeps.bind (show Keeps invariant (fun _ => True) _ from .throw) fun _ _ => rest
  | true => exact rest

end unchanged

theorem keeps_writeScript {path : Path} {content : String} (roams : zone.Roams tree path.parent) (allowed : zone.Allows (tree.straight path)) :
    KeepsTo zone tree (writeScript path content) := .adapt (.adapt (keeps_writeBytes roams allowed))

namespace Context

variable (context : Context τ)

/-! ## Places in the project -/

/-- The output directory of the edge target in the project. -/
def edgeOutput : Path := context.publisher.root.join context.settings.edge.outputDirectory

/-- The loader module in the project. -/
def edgeLoader : Path := context.publisher.root.join context.settings.edge.loaderPath

/-- The temporary loader in the project. -/
def edgeTemporary : Path := context.publisher.root.join context.settings.edge.temporaryLoaderPath

/-- The publisher of a build starts at the real path of its project. -/
def Rooted (tree : FileTree) : Prop :=
  ∃ project, tree.resolve context.settings.projectRoot = .ok project ∧ context.publisher.root = .ofLocation project

/-- What the names in templates stand for in a project. -/
def templateValues (workingDirectory project : Location) (output : Path) : List (String × String) :=
  [("output_dir", (Path.relativeTo (output.normalize workingDirectory) ((Path.ofLocation project).normalize workingDirectory)).toString),
    ("project_root", (Path.ofLocation project).toString)]

theorem placeholders_apply {context : Context τ} {project : Location} (resolved : tree.resolve context.settings.projectRoot = .ok project)
    (output : Path) : context.placeholders output tree = (.ok (templateValues tree.workingDirectory project output), tree) := by
  have relative : context.relativeText output tree = (.ok (Path.relativeTo (output.normalize tree.workingDirectory)
      ((Path.ofLocation project).normalize tree.workingDirectory)).toString, tree) := by
    unfold relativeText root
    rw [bind_apply, FileRun.resolve_apply, resolved]
    rfl
  unfold placeholders root
  rw [bind_apply, relative]
  simp only
  rw [bind_apply, FileRun.resolve_apply, resolved]
  rfl

section

variable {context} (rooted : context.Rooted tree)

include rooted

theorem path_apply (path : Path) : context.path path tree = (.ok (context.publisher.root.join path), tree) := by
  obtain ⟨project, resolved, start⟩ := rooted
  unfold Context.path
  split
  · next absolute =>
    rw [Path.join_of_isAbsolute _ absolute]
    rfl
  · unfold root
    rw [bind_apply, FileRun.resolve_apply, resolved, start]
    rfl

theorem isAbsolute_root : context.publisher.root.isAbsolute = true := by
  obtain ⟨project, -, start⟩ := rooted
  rw [start]
  rfl

/-- The names in templates have the same values in every tree that differs in a zone alone. -/
theorem exists_placeholders (free : tree.LinkFree) (output : Path) :
    ∃ values, ∀ now, Confined zone tree now → context.placeholders output now = (.ok values, now) := by
  obtain ⟨project, resolved, -⟩ := rooted
  refine ⟨templateValues tree.workingDirectory project output, fun now confined => ?_⟩
  have same : now.resolve context.settings.projectRoot = .ok project := (confined.resolve_eq free _).trans resolved
  rw [placeholders_apply same, confined.working]

end

/-- A build whose edge target publishes in one zone: all that it publishes has its place in the output directory, and the
temporary loader has the place beside it, where no directory stands. The loader module lies neither in the output
directory nor above it. -/
structure EdgeLayout (zone : Zone) (tree : FileTree) : Prop where
  rooted : context.Rooted tree
  output : tree.straight context.edgeOutput = zone.top
  temporary : zone.loose = some (tree.straight context.edgeTemporary)
  solid : tree.lookup (tree.straight context.edgeTemporary) ≠ some .directory
  loader : ¬ zone.top <+: tree.straight context.edgeLoader
  loader' : ¬ tree.straight context.edgeLoader <+: zone.top
  assets : ∀ values, (context.placeholders context.edgeOutput tree).1 = .ok values →
    ∀ asset ∈ edgeAssets context.settings.edge values, zone.top <+: tree.straight (context.publisher.root.join asset.2)
  minified : ∀ script ∈ context.settings.edge.minifiedScripts, zone.top <+: tree.straight (context.edgeOutput.child script)
  published : zone.top <+: tree.straight (context.edgeOutput.child context.settings.edge.publishedLoader)

/-- The tools of a build keep an invariant of the files, whenever they are called and whatever comes of it. -/
structure ToolsKeep (invariant : FileTree → Prop) : Prop where
  build : ∀ options, RunKeeps invariant (context.bundler.build options)
  transform : ∀ code options, RunKeeps invariant (context.bundler.transform code options)
  run : ∀ command, RunKeeps invariant (context.runner command)

/-! ## Steps of the build -/

variable {context}

section

variable {invariant : FileTree → Prop} (within : ∀ now, invariant now → Confined zone tree now)

include within

/-- A script is minified in its place: the directories on the way there were passed when it was read. -/
theorem keeps_minify {path : Path} (apart : tree.straight path ∉ zone.loose)
    (transform : ∀ code options, RunKeeps invariant (context.bundler.transform code options))
    (write : zone.Roams tree path.parent → ∀ content, Keeps invariant (fun _ => True) (writeScript path content)) :
    RunKeeps invariant (context.minify path) := by
  obtain ⟨extra, whole⟩ := path.exists_under_parent
  unfold minify
  refine Keeps.bind (.onFiles (keeps_readScript _)) fun source ⟨now, content, kept, script⟩ => ?_
  have roams : zone.Roams tree path.parent := by
    rw [whole] at script apart
    exact (within now kept).roams_of_read script apart
  refine Keeps.bind (transform _ _) fun minified _ => ?_
  exact .onFiles (write roams minified)

end

section

variable {invariant : FileTree → Prop} {output : Path} {values : List (String × String)}
  (templates : ∀ now, invariant now → context.placeholders output now = (.ok values, now))

include templates

theorem keeps_placeholders : Keeps invariant (fun answer => answer = values) (context.placeholders output) := by
  intro now kept
  unfold Leaves
  rw [templates now kept]
  exact ⟨rfl, kept⟩

theorem keeps_checkTypes
    (run : ∀ command, RunKeeps invariant (context.runner command)) (template : List String) :
    RunKeeps invariant (context.checkTypes template output) := by
  have root : Keeps invariant (fun _ => True) context.root :=
    .bind (FileRun.keeps_askFor (fun _ _ _ _ => trivial)) fun _ _ => .pure trivial
  refine Keeps.bind (.onFiles (keeps_placeholders templates)) fun _ _ => ?_
  refine Keeps.bind (.onFiles root) fun directory _ => ?_
  exact Keeps.bind (run _) fun _ _ => .pure trivial

end

section

variable (tools : context.ToolsKeep (Confined zone tree)) {output : Path} {values : List (String × String)}
  (templates : ∀ now, Confined zone tree now → context.placeholders output now = (.ok values, now))

include tools

/-- The loader is prepared in the place beside the zone: the directories on the way there were passed when the loader
module was read. -/
theorem keeps_prepareLoader {loader temporary : Path} {extra : List String} (beside : loader = temporary.parent.under extra)
    (apart : tree.straight loader ∉ zone.loose) (spelled : tree.straight temporary ∈ zone.loose) (result : TargetResult) :
    RunsIn zone tree (context.prepareLoader result loader temporary) := by
  unfold prepareLoader
  refine Keeps.bind (.onFiles (keeps_readScript _)) fun source ⟨now, content, confined, script⟩ => ?_
  have roams : zone.Roams tree temporary.parent := by
    rw [beside] at script apart
    exact confined.roams_of_read script apart
  have write (content : String) : KeepsTo zone tree (writeScript temporary content) := keeps_writeScript roams (.inr spelled)
  refine Keeps.bind (.onFiles (keeps_inlined _ source)) fun rewritten _ => ?_
  refine Keeps.bind (.onFiles (write rewritten)) fun _ _ => ?_
  refine Keeps.bind (.onFiles (keeps_reach _ _)) fun _ _ => ?_
  refine Keeps.bind (tools.build _) fun _ _ => ?_
  refine Keeps.bind (.onFiles (keeps_reach _ _)) fun _ _ => ?_
  refine Keeps.bind (.onFiles (keeps_readScript _)) fun bundled _ => ?_
  refine Keeps.bind (.onFiles (keeps_asFactory _ bundled)) fun factory _ => ?_
  refine Keeps.bind (.onFiles (write factory)) fun _ _ => ?_
  exact .onFiles (keeps_reach _ _)

include templates

/-- What is published keeps to the zone when all of it has its place there. -/
theorem keeps_publishEdge (sound : tree.WellFormed) (free : tree.LinkFree) {temporary : Path}
    (assets : ∀ asset ∈ edgeAssets context.settings.edge values, zone.top <+: tree.straight (context.publisher.root.join asset.2))
    (minified : ∀ script ∈ context.settings.edge.minifiedScripts, zone.top <+: tree.straight (output.child script))
    (published : zone.top <+: tree.straight (context.publisher.root.join (output.child context.settings.edge.publishedLoader)))
    (inside : zone.top <+: tree.straight (context.publisher.root.join output)) (result : TargetResult) :
    RunsIn zone tree (context.publishEdge result output temporary) := by
  unfold publishEdge
  refine Keeps.bind (.onFiles (keeps_placeholders templates)) fun _ same => ?_
  subst same
  refine Keeps.bind (.onFiles (context.publisher.keeps_copy sound free _ _ assets)) fun _ _ => ?_
  have minify (script : String) (mem : script ∈ context.settings.edge.minifiedScripts) :
      RunsIn zone tree (context.minify (output.child script)) := by
    have apart : tree.straight (output.child script) ∉ zone.loose := fun loose => (zone.beside _ loose).1 (minified script mem)
    exact keeps_minify (fun _ confined => confined) apart tools.transform fun roams _ => keeps_writeScript roams (.inl (minified script mem))
  refine Keeps.bind (Keeps.forM _ minify) fun _ _ => ?_
  have loader : ∀ pair ∈ [(temporary, output.child context.settings.edge.publishedLoader)],
      zone.top <+: tree.straight (context.publisher.root.join pair.2) := by simpa using published
  refine Keeps.bind (.onFiles (context.publisher.keeps_copy sound free _ _ loader)) fun _ _ => ?_
  refine Keeps.bind (.onFiles (context.publisher.keeps_moveAndRename sound inside _)) fun _ _ => ?_
  exact .pure trivial

end

/-! ## The build -/

/-- The steps of a build of the edge target while its temporary loader is there. -/
def edgeSteps (context : Context τ) (output loader temporary : Path) : Run τ (TargetResult × Path) := do
  let result ← context.prepareLoader { target := "edge", sequence := edgeStages } loader temporary
  context.checkTypes context.settings.edge.typecheckCommand output
  let result ← context.publishEdge result output temporary
  let entry := output.child (← (entryScript context.settings : FileRun String))
  context.bundler.build (edgeBuild context.settings entry)
  let result ← (reach result .repackagedBundled : FileRun TargetResult)
  (context.publisher.deleteTemporary temporary : FileRun Unit)
  return (result, entry)

/-- The end of a build of the edge target: its entry is found and its result is complete. -/
def finishEdge (context : Context τ) (output : Path) (built : TargetResult × Path) : Run τ TargetResult := do
  let entry ← (verifyOutput output built.2 (some context.settings.edge.platformSuffix) : FileRun Path)
  let result ← (reach { built.1 with entry := some entry } .published : FileRun TargetResult)
  (reach result .done : FileRun TargetResult)

/-- A build of the edge target in a project. -/
theorem buildEdge_apply {context : Context τ} {world : World τ} (rooted : context.Rooted world.files) :
    context.buildEdge world = (do
      let built ← context.publisher.withTemporary context.edgeTemporary fun _ =>
        context.edgeSteps context.edgeOutput context.edgeLoader context.edgeTemporary
      context.finishEdge context.edgeOutput built : Run τ TargetResult) world := by
  have place (path : Path) : (liftM (context.path path) : Run τ Path) world = (.ok (context.publisher.root.join path), world) :=
    (Run.onFiles_apply _ _).trans (by rw [path_apply rooted])
  unfold buildEdge
  rw [bind_apply, place]
  simp only
  rw [bind_apply, place]
  simp only
  rw [bind_apply, place]
  rfl

namespace EdgeLayout

variable (layout : context.EdgeLayout zone tree)

include layout

theorem confined (sound : tree.WellFormed) (free : tree.LinkFree) : Confined zone tree tree :=
  .start sound free fun place loose => by
    rw [layout.temporary] at loose
    exact Option.some.inj loose ▸ layout.solid

/-- A path in the project is absolute, so that the publisher takes it as it is. -/
theorem join_root (path : Path) : context.publisher.root.join (context.publisher.root.join path) = context.publisher.root.join path :=
  Path.join_of_isAbsolute _ (Path.isAbsolute_join (isAbsolute_root layout.rooted) path)

theorem spelled : tree.straight (context.publisher.root.join context.edgeTemporary) ∈ zone.loose := by
  rw [edgeTemporary, layout.join_root, layout.temporary]
  rfl

theorem inside : zone.top <+: tree.straight (context.publisher.root.join context.edgeOutput) := by
  rw [edgeOutput, layout.join_root, ← layout.output]
  exact List.prefix_refl _

theorem loaderInside :
    zone.top <+: tree.straight (context.publisher.root.join (context.edgeOutput.child context.settings.edge.publishedLoader)) := by
  have output : context.edgeOutput.isAbsolute = true := Path.isAbsolute_join (isAbsolute_root layout.rooted) _
  have loader : (context.edgeOutput.child context.settings.edge.publishedLoader).isAbsolute = true := Path.isAbsolute_join output _
  rw [Path.join_of_isAbsolute _ loader]
  exact layout.published

/-- The loader module stays apart from what the build may change beside the output directory. -/
theorem apart : tree.straight context.edgeLoader ∉ zone.loose := by
  obtain ⟨-, -, apart⟩ := context.settings.edge.temporary_beside tree context.publisher.root
  rw [layout.temporary]
  exact fun same => apart (Option.some.inj same).symm

end EdgeLayout

/-- While the temporary loader is there, each step keeps to the zone, however the three paths are made up. -/
theorem keeps_edgeSteps (sound : tree.WellFormed) (free : tree.LinkFree) (tools : context.ToolsKeep (Confined zone tree))
    {output loader temporary : Path} {values : List (String × String)} {extra : List String}
    (templates : ∀ now, Confined zone tree now → context.placeholders output now = (.ok values, now))
    (assets : ∀ asset ∈ edgeAssets context.settings.edge values, zone.top <+: tree.straight (context.publisher.root.join asset.2))
    (minified : ∀ script ∈ context.settings.edge.minifiedScripts, zone.top <+: tree.straight (output.child script))
    (published : zone.top <+: tree.straight (context.publisher.root.join (output.child context.settings.edge.publishedLoader)))
    (inside : zone.top <+: tree.straight (context.publisher.root.join output)) (beside : loader = temporary.parent.under extra)
    (apart : tree.straight loader ∉ zone.loose) (spelled : tree.straight temporary ∈ zone.loose)
    (spelled' : tree.straight (context.publisher.root.join temporary) ∈ zone.loose) :
    RunsIn zone tree (context.edgeSteps output loader temporary) := by
  refine Keeps.bind (keeps_prepareLoader tools beside apart spelled _) fun _ _ => ?_
  refine Keeps.bind (keeps_checkTypes templates tools.run _) fun _ _ => ?_
  refine Keeps.bind (keeps_publishEdge tools templates sound free assets minified published inside _) fun _ _ => ?_
  refine Keeps.bind (.onFiles (keeps_entryScript _)) fun _ _ => ?_
  refine Keeps.bind (tools.build _) fun _ _ => ?_
  refine Keeps.bind (.onFiles (keeps_reach _ _)) fun _ _ => ?_
  refine Keeps.bind (.onFiles (context.publisher.keeps_deleteTemporary sound free (.inr spelled'))) fun _ _ => ?_
  exact .pure trivial

/-- The end of a build only looks at the files. -/
theorem keeps_finishEdge {invariant : FileTree → Prop} (output : Path) (built : TargetResult × Path) :
    RunKeeps invariant (context.finishEdge output built) := by
  refine Keeps.bind (.onFiles (keeps_verifyOutput _ _ _)) fun _ _ => ?_
  refine Keeps.bind (.onFiles (keeps_reach _ _)) fun _ _ => ?_
  exact .onFiles (keeps_reach _ _)

/-- What a build is to leave: files that differ in a zone alone, and nothing at the temporary loader. -/
structure CleanedUp (zone : Zone) (tree : FileTree) (temporary : Path) (after : FileTree) : Prop where
  confined : Confined zone tree after
  gone : ∀ location, tree.resolve temporary = .ok location → after.exists? (.ofLocation location) = false

theorem buildEdge_leaves {world : World τ} (sound : world.files.WellFormed) (free : world.files.LinkFree)
    (layout : context.EdgeLayout zone world.files) (tools : context.ToolsKeep (Confined zone world.files)) :
    CleanedUp zone world.files context.edgeTemporary (context.buildEdge world).2.files := by
  have start : Confined zone world.files world.files := layout.confined sound free
  obtain ⟨values, templates⟩ : ∃ values, ∀ now, Confined zone world.files now →
      context.placeholders context.edgeOutput now = (.ok values, now) := exists_placeholders layout.rooted free _
  obtain ⟨extra, beside, -⟩ := context.settings.edge.temporary_beside world.files context.publisher.root
  have steps (_ : Path) : RunsIn zone world.files (context.edgeSteps context.edgeOutput context.edgeLoader context.edgeTemporary) :=
    keeps_edgeSteps sound free tools templates (layout.assets values (by rw [templates _ start])) layout.minified layout.loaderInside
      layout.inside beside layout.apart layout.temporary layout.spelled
  obtain ⟨confined, gone⟩ := context.publisher.withTemporary_leaves sound free layout.spelled steps start
  have place : context.publisher.root.join context.edgeTemporary = context.edgeTemporary := layout.join_root _
  rw [place] at gone
  rw [buildEdge_apply layout.rooted]
  exact RunKeeps.onward ⟨confined, gone⟩ fun built => keeps_finishEdge _ built

/-- The edge target cleans up, however its build ends: nothing is left at the temporary loader, the loader module is as it
was, and whatever lies outside the output directory is as it was, but that directories may have been made on the way
there. -/
theorem buildEdge_cleans_up {world : World τ} (sound : world.files.WellFormed) (free : world.files.LinkFree)
    (layout : context.EdgeLayout zone world.files) (tools : context.ToolsKeep (Confined zone world.files)) :
    let after := (context.buildEdge world).2.files
    (∀ location, world.files.resolve context.edgeTemporary = .ok location → after.exists? (.ofLocation location) = false) ∧
    after.lookup (world.files.straight context.edgeLoader) = world.files.lookup (world.files.straight context.edgeLoader) ∧
    ∀ location, ¬ zone.Allows location → after.lookup location = world.files.lookup location ∨
      location <+: zone.top ∧ world.files.lookup location = none ∧ after.lookup location = some .directory := by
  obtain ⟨confined, gone⟩ := buildEdge_leaves sound free layout tools
  obtain ⟨-, -, apart⟩ := context.settings.edge.temporary_beside world.files context.publisher.root
  have outside : ¬ zone.Allows (world.files.straight context.edgeLoader) := by
    rintro (inside | same)
    · exact layout.loader inside
    · rw [layout.temporary] at same
      exact apart (Option.some.inj same).symm
  refine ⟨gone, ?_, confined.kept⟩
  exact confined.lookup_eq outside layout.loader'

/-! ## A small project -/

/-- A project with what the edge target publishes by default, and some more. -/
def smallProject (more : List (Location × Entry)) : FileTree where
  entries := [(["p"], .directory), (["p", "src"], .directory), (["p", "src", "bindings"], .directory),
    (["p", "src", "bindings", "compiled"], .directory), (["p", "src", "bindings", "compiled", "web_bindings"], .directory),
    (["p", "src", "bindings", "compiled", "web_bindings", "plonk_wasm.js"], .file (Text.encode
      "async function __wbg_init() \x7b\n    return new URL('p.wasm', import.meta.url);\n\x7d\nexport \x7b __wbg_init as default \x7d;\n")),
    (["p", "src", "bindings", "compiled", "web_bindings", "o1js_web.bc.js"], .file (Text.encode "x")),
    (["p", "src", "bindings", "js"], .directory), (["p", "src", "bindings", "js", "web"], .directory),
    (["p", "src", "snarky.d.ts"], .file (Text.encode "d")), (["p", "src", "snarky.web.js"], .file (Text.encode "s"))] ++ more
  workingDirectory := ["p"]

/-- The loader as the tools of the small project bundle it. -/
def smallBundle : String := "async function __wbg_init() \x7b\x7d\nexport \x7b __wbg_init as default \x7d;\n"

/-- The tools write a bundle over the temporary loader, and the entry into the output directory. -/
def smallContext : Context Unit where
  settings := { projectRoot := .ofString "/p" }
  publisher := ⟨.ofLocation ["p"]⟩
  bundler :=
    { build := fun options =>
        if options.outputFile = .ofString "/p/src/bindings/compiled/web_bindings/plonk_wasm.tmp.js" then
          (FileTask.change (·.write (.ofString "/p/src/bindings/compiled/web_bindings/plonk_wasm.tmp.js")
            (Text.encode smallBundle)) : FileRun Unit)
        else (FileTask.change (·.write (.ofString "/p/dist/cloudflare/index.js") (Text.encode "e")) : FileRun Unit)
      transform := fun code _ => pure code }
  runner := fun _ => pure ""

/-- The output directory of the small project, and the temporary loader. -/
def smallZone : Zone where
  top := ["p", "dist", "cloudflare"]
  loose := some ["p", "src", "bindings", "compiled", "web_bindings", "plonk_wasm.tmp.js"]
  beside := by decide

theorem linkFree_small : (smallProject []).LinkFree := linkFree_of_entries (by simp [smallProject])

theorem wellFormed_small : (smallProject []).WellFormed := wellFormed_of_entries (by decide) (by decide)

theorem edgeLayout_small : smallContext.EdgeLayout smallZone (smallProject []) where
  rooted := ⟨["p"], eq_ok_of_toOption (by decide +kernel), rfl⟩
  output := by decide
  temporary := by decide
  solid := by decide
  loader := by decide
  loader' := by decide
  assets := by
    intro values given
    have known : (smallContext.placeholders smallContext.edgeOutput (smallProject [])).1 =
        .ok [("output_dir", "dist/cloudflare"), ("project_root", "/p")] := eq_ok_of_toOption (by decide +kernel)
    obtain rfl := Except.ok.inj (known.symm.trans given)
    decide +kernel
  minified := by decide
  published := by decide

theorem toolsKeep_small : smallContext.ToolsKeep (Confined smallZone (smallProject [])) where
  build := by
    intro options
    have loose : smallZone.Allows ((smallProject []).straight
        (.ofString "/p/src/bindings/compiled/web_bindings/plonk_wasm.tmp.js")) := .inr (by decide +kernel)
    have top : smallZone.Allows ((smallProject []).straight (.ofString "/p/dist/cloudflare/index.js")) := .inl (by decide)
    change RunsIn _ _ (if _ then _ else _)
    split
    · exact .onFiles (.adapt (keeps_write loose))
    · exact .onFiles (.adapt (keeps_write top))
  transform := fun code options => .pure trivial
  run := fun command => .pure trivial

theorem buildEdge_cleans_up_small :
    (smallProject []).WellFormed ∧ (smallProject []).LinkFree ∧ smallContext.EdgeLayout smallZone (smallProject []) ∧
      smallContext.ToolsKeep (Confined smallZone (smallProject [])) ∧
      (smallContext.buildEdge ⟨smallProject [], ()⟩).2.files.exists?
        (.ofString "/p/src/bindings/compiled/web_bindings/plonk_wasm.tmp.js") = false ∧
      (smallContext.buildEdge ⟨smallProject [], ()⟩).2.files.lookup
          ["p", "src", "bindings", "compiled", "web_bindings", "plonk_wasm.js"] =
        (smallProject []).lookup ["p", "src", "bindings", "compiled", "web_bindings", "plonk_wasm.js"] := by
  obtain ⟨gone, loader, -⟩ := @buildEdge_cleans_up Unit smallZone smallContext ⟨smallProject [], ()⟩ wellFormed_small linkFree_small
    edgeLayout_small toolsKeep_small
  have place : (smallProject []).straight smallContext.edgeLoader =
      ["p", "src", "bindings", "compiled", "web_bindings", "plonk_wasm.js"] := by decide
  rw [place] at loader
  exact ⟨wellFormed_small, linkFree_small, edgeLayout_small, toolsKeep_small,
    gone ["p", "src", "bindings", "compiled", "web_bindings", "plonk_wasm.tmp.js"] (eq_ok_of_toOption (by decide +kernel)), loader⟩

end Context

end WasmPackaging.Targets
