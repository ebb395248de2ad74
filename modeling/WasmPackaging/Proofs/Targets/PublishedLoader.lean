import WasmPackaging.Proofs.FileTree.Copies
import WasmPackaging.Proofs.Targets.EdgeCleanup
import WasmPackaging.Proofs.Text.Finds

/-!
The published loader of the edge target. With the default settings the loader is copied to its place before scripts
with the platform's suffix are renamed, so a script `plonk_wasm.web.js` among the bindings ends up there instead of
the factory (`buildEdge_replaces_factory`). Where no such script is, the factory stays: each later step keeps to a part of
the output directory apart from it (`buildEdge_publishes_factory`).
-/

namespace WasmPackaging

open Text

/-! ## Names with the platform's suffix -/

theorem Text.Wildcard.eq_of_matches_literals {word s : List Char} (matched : Wildcard.Matches (word.map .literal) s) : s = word := by
  induction word generalizing s with
  | nil =>
    cases matched
    rfl
  | cons c word ih =>
    cases matched with
    | one same rest => rw [ih rest, beq_iff_eq.1 (show (c == _) = true from same)]

theorem Text.Wildcard.tokens_eq_literals {word : List Char} (plain : ∀ c ∈ word, c ∉ ['*', '?', '[']) :
    Wildcard.tokens word = word.map .literal := by
  induction word with
  | nil => simp [Wildcard.tokens]
  | cons c word ih =>
    obtain ⟨here, later⟩ := List.forall_mem_cons.1 plain
    simp only [List.mem_cons, List.not_mem_nil, or_false, not_or] at here
    rw [Wildcard.tokens.eq_def]
    split
    · next same => cases same
    · next same => exact absurd (List.cons.inj same).1 here.1
    · next same => exact absurd (List.cons.inj same).1 here.2.1
    · next same => exact absurd (List.cons.inj same).1 here.2.2
    · next same =>
      obtain ⟨rfl, rfl⟩ := List.cons.inj same
      rw [ih later, List.map_cons]

/-- A name that the pattern of the scripts with a suffix describes ends in the suffix and the ending of a script. -/
theorem exists_stem_of_matchesName {suffix name : String} (plain : ∀ c ∈ suffix.toList, c ∉ ['*', '?', '['])
    (matched : Wildcard.matchesName ("*" ++ suffix ++ ".js") name = true) :
    ∃ stem, name.toList = stem ++ (suffix.toList ++ ".js".toList) := by
  have plain' : ∀ c ∈ suffix.toList ++ ".js".toList, c ∉ ['*', '?', '['] := by
    intro c mem
    obtain inside | ending := List.mem_append.1 mem
    · exact plain c inside
    · exact (by simp : ∀ c ∈ ".js".toList, c ∉ ['*', '?', '[']) c ending
  have tokens : Wildcard.tokens ("*" ++ suffix ++ ".js").toList = .star :: (suffix.toList ++ ".js".toList).map .literal := by
    rw [← Wildcard.tokens_eq_literals plain', String.toList_append, String.toList_append, List.append_assoc]
    change Wildcard.tokens ('*' :: (suffix.toList ++ ".js".toList)) = _
    rw [Wildcard.tokens]
  have found := Wildcard.accepts_iff.1 matched
  rw [tokens] at found
  generalize name.toList = s at found ⊢
  cases found with
  | star stem rest => exact ⟨stem, by rw [Wildcard.eq_of_matches_literals rest]⟩
  | one admitted => cases admitted

/-- Taking out the suffix of a platform leaves the ending of the script. -/
theorem withoutLast?_script {stem renamed : List Char} (cut : withoutLast? ".web".toList (stem ++ ".web.js".toList) = some renamed) :
    renamed = stem ++ ".js".toList := by
  unfold withoutLast? at cut
  split at cut
  · obtain rfl := Option.some.inj cut
    have turned : (stem ++ ".web.js".toList).reverse = 's' :: 'j' :: '.' :: 'b' :: 'e' :: 'w' :: '.' :: stem.reverse := by simp
    rw [turned]
    simp [replaceFirst]
  · cases cut

/-- A script that is renamed keeps its stem, and has the name of an entry again. -/
theorem exists_stem_of_renamed {name : String} {renamed : List Char} (valid : IsEntryName name)
    (matched : Wildcard.matchesName ("*" ++ ".web" ++ ".js") name = true) (cut : withoutLast? ".web".toList name.toList = some renamed) :
    ∃ stem, name.toList = stem ++ ".web.js".toList ∧ renamed = stem ++ ".js".toList ∧ IsEntryName (String.ofList renamed) := by
  obtain ⟨stem, ending⟩ := exists_stem_of_matchesName (by simp) matched
  rw [ending] at cut
  obtain rfl := withoutLast?_script cut
  have script : 'j' ∈ (String.ofList (stem ++ ".js".toList)).toList := by simp
  have plain : '/' ∉ (String.ofList (stem ++ ".js".toList)).toList := by
    rw [String.toList_ofList]
    intro slash
    refine valid.2.2 ?_
    rw [ending]
    simpa using slash
  exact ⟨stem, ending, rfl, (Path.isPart_of_mem script (by decide)).1, (Path.isPart_of_mem script (by decide)).2, plain⟩

namespace Text

theorem replaceAll_of_not_mem {c : Char} {rest s : List Char} (plain : c ∉ s) (new : List Char) : replaceAll (c :: rest) new s = s := by
  rw [replaceAll, if_neg (by simp)]
  have nowhere : ∀ u v, s = u ++ v → v ≠ [] → (after? (c :: rest) (v ++ [])).map (((), ·) : List Char → Unit × List Char) = none := by
    rintro u v rfl -
    rw [List.append_nil]
    rcases found : after? (c :: rest) v with _ | behind
    · rfl
    · rw [after?_eq_some_iff.1 found] at plain
      simp at plain
  have skipped := @replaceFrom_skip Unit (fun _ s => (after? (c :: rest) s).map ((), ·)) (fun _ _ => new) s [] none nowhere
  rw [List.append_nil, replaceFrom_nil, List.append_nil] at skipped
  exact skipped

end Text

namespace Targets

open Bundling Config FileTree

variable {τ : Type} {project : Location}

/-! ## Places of the default settings -/

/-- The output directory. -/
def edgeDirectory (project : Location) : Location := project ++ ["dist", "cloudflare"]

/-- The directory of the bindings. -/
def bindingsDirectory (project : Location) : Location := project ++ ["src", "bindings", "compiled", "web_bindings"]

theorem fill_of_plain {output argument : String} (project : String)
    (plain : '\x7b' ∉ (CommandTemplate.fill [("output_dir", output)] argument).toList) :
    CommandTemplate.fill [("output_dir", output), ("project_root", project)] argument =
      CommandTemplate.fill [("output_dir", output)] argument := by
  have kept : replaceAll (CommandTemplate.placeholder "project_root") project.toList
      (CommandTemplate.fill [("output_dir", output)] argument).toList =
        (CommandTemplate.fill [("output_dir", output)] argument).toList := replaceAll_of_not_mem plain _
  unfold CommandTemplate.fill at kept ⊢
  rw [String.toList_ofList] at kept
  exact congrArg String.ofList kept

/-- What is published by default, and where to. -/
theorem edgeAssets_default (project : String) :
    edgeAssets {} [("output_dir", "dist/cloudflare"), ("project_root", project)] =
      [(⟨.relative, ["src", "bindings", "compiled", "web_bindings"]⟩, ⟨.relative, ["dist", "cloudflare", "web_bindings"]⟩),
        (⟨.relative, ["src", "snarky.d.ts"]⟩, ⟨.relative, ["dist", "cloudflare", "snarky.d.ts"]⟩),
        (⟨.relative, ["src", "snarky.web.js"]⟩, ⟨.relative, ["dist", "cloudflare", "snarky.js"]⟩),
        (⟨.relative, ["src", "bindings", "js", "web"]⟩, ⟨.relative, ["dist", "cloudflare", "bindings", "js", "web"]⟩)] := by
  have plain : ∀ asset ∈ ({} : EdgeSettings).assets, '\x7b' ∉ (CommandTemplate.fill [("output_dir", "dist/cloudflare")] asset.2).toList := by
    decide +kernel
  have filled : edgeAssets {} [("output_dir", "dist/cloudflare"), ("project_root", project)] =
      edgeAssets {} [("output_dir", "dist/cloudflare")] :=
    List.map_congr_left fun (source, target) mem => by
      simp only [fill_of_plain project (plain (source, target) mem)]
  rw [filled]
  decide +kernel

/-- The relative path from a project to what is below it. -/
theorem relativeTo_below (workingDirectory : Location) (named : AreNames project) {names : List String} (valid : AreNames names) :
    Path.relativeTo ((Path.ofLocation (project ++ names)).normalize workingDirectory) ((Path.ofLocation project).normalize workingDirectory) =
      ⟨.relative, Path.relativeParts names []⟩ := by
  have normal {location : Location} (named : AreNames location) : (Path.ofLocation location).normalize workingDirectory = location :=
    Path.normalizeFrom_of_names fun up => (named _ up).2.1 rfl
  have relative := Path.relativeParts_append project names []
  rw [List.append_nil] at relative
  rw [normal named, normal (areNames_append.2 ⟨named, valid⟩), Path.relativeTo, relative]

theorem templateValues_default (workingDirectory : Location) (named : AreNames project) :
    Context.templateValues workingDirectory project (.ofLocation (edgeDirectory project)) =
      [("output_dir", "dist/cloudflare"), ("project_root", (Path.ofLocation project).toString)] := by
  unfold Context.templateValues
  rw [edgeDirectory, relativeTo_below workingDirectory named (by decide)]
  rfl

theorem entryScript_default {context : Context τ} (defaults : context.settings = { projectRoot := context.settings.projectRoot }) :
    entryScript context.settings = pure "index.js" := by
  have same : Settings.entryScript { projectRoot := context.settings.projectRoot } = .ok "index.js" :=
    (rfl : _ = Settings.entryScript {}).trans (eq_ok_of_toOption (by decide))
  unfold entryScript
  rw [defaults, same]

theorem child_eq_ofLocation {location : Location} {text : String} {parts : List String} (reads : Path.ofString text = ⟨.relative, parts⟩) :
    Path.child (.ofLocation location) text = .ofLocation (location ++ parts) := by
  rw [Path.child, reads]
  rfl

theorem straight_join {publisher : Publisher} (start : publisher.root = .ofLocation project) (tree : FileTree) {parts : List String}
    (named : AreNames (project ++ parts)) : tree.straight (publisher.root.join ⟨.relative, parts⟩) = project ++ parts := by
  rw [start]
  exact straight_ofLocation named

/-! ## Scripts that rival the loader -/

/-- No script takes the place of the published loader: none has its name with the platform's suffix, neither among the
bindings nor among those that are published, and no directory stands in the place. -/
structure Unrivalled (project : Location) (tree : FileTree) : Prop where
  bindings : tree.lookup (bindingsDirectory project ++ ["plonk_wasm.web.js"]) = none
  scripts : ∀ content, tree.lookup (edgeDirectory project ++ ["web_bindings", "plonk_wasm.web.js"]) ≠ some (.file content)
  solid : tree.lookup (edgeDirectory project ++ ["web_bindings", "plonk_wasm.js"]) ≠ some .directory

/-- Changes in a part of the output directory bring no rival. -/
theorem Unrivalled.of_confined {names : List String} {tree now : FileTree} (clear : Unrivalled project tree)
    (confined : Confined (.below (edgeDirectory project ++ names)) tree now) (rival : ¬ names <+: ["web_bindings", "plonk_wasm.web.js"])
    (place : ¬ names <+: ["web_bindings", "plonk_wasm.js"]) (place' : ¬ ["web_bindings", "plonk_wasm.js"] <+: names) :
    Unrivalled project now := by
  constructor
  · rw [confined.lookup_eq (by simp [edgeDirectory, bindingsDirectory]) (by simp [Zone.below, edgeDirectory, bindingsDirectory])]
    exact clear.bindings
  · intro content file
    obtain same | ⟨-, -, made⟩ := confined.kept (edgeDirectory project ++ ["web_bindings", "plonk_wasm.web.js"]) (by simpa using rival)
    · exact clear.scripts content (same ▸ file)
    · simp [made] at file
  · rw [confined.lookup_eq (by simpa using place) (by simpa [Zone.below] using place')]
    exact clear.solid

/-- Files that differ from others in a zone alone, with no rival of the loader among them. -/
structure Laid (zone : Zone) (project : Location) (tree now : FileTree) : Prop where
  confined : Confined zone tree now
  clear : Unrivalled project now

/-- What changes a part of the output directory alone, apart from the loader and its rival, brings no rival. -/
theorem keeps_laid {ε α : Type} {act : ExceptT ε (StateM FileTree) α} {tree : FileTree} {names : List String}
    (rival : ¬ names <+: ["web_bindings", "plonk_wasm.web.js"]) (place : ¬ names <+: ["web_bindings", "plonk_wasm.js"])
    (place' : ¬ ["web_bindings", "plonk_wasm.js"] <+: names)
    (keeps : ∀ now, KeepsTo (.below (edgeDirectory project ++ names)) now act) :
    Keeps (Laid (.below (edgeDirectory project)) project tree) (fun _ => True) act := by
  refine Keeps.of_after fun now laid => ?_
  have changed := (keeps now).after (Confined.startBelow laid.confined.sound laid.confined.free)
  exact ⟨laid.confined.widen (List.prefix_append _ _) changed, laid.clear.of_confined changed rival place place'⟩

/-! ## What is published besides the loader -/

section

variable {tree : FileTree} (named : AreNames project)

include named

theorem areNames_edge {names : List String} (valid : AreNames names) : AreNames (edgeDirectory project ++ names) := by
  have fixed : AreNames ["dist", "cloudflare"] := by decide
  exact areNames_append.2 ⟨areNames_append.2 ⟨named, fixed⟩, valid⟩

theorem areNames_bindings {names : List String} (valid : AreNames names) : AreNames (bindingsDirectory project ++ names) := by
  have fixed : AreNames ["src", "bindings", "compiled", "web_bindings"] := by decide
  exact areNames_append.2 ⟨areNames_append.2 ⟨named, fixed⟩, valid⟩

/-- An entry that is published under another name than the loader and its rival brings no rival. -/
theorem keeps_copyEntry_apart (ignored : List String) {source : Location} (named' : AreNames source) {names : List String}
    (valid : AreNames names) (rival : ¬ names <+: ["web_bindings", "plonk_wasm.web.js"])
    (place : ¬ names <+: ["web_bindings", "plonk_wasm.js"]) (place' : ¬ ["web_bindings", "plonk_wasm.js"] <+: names) :
    Keeps (Laid (.below (edgeDirectory project)) project tree) (fun _ => True)
      (Publisher.copyEntry ignored (.ofLocation source) (.ofLocation (edgeDirectory project ++ names))) :=
  keeps_laid rival place place' fun _ => Publisher.keeps_copyEntry ignored named' (areNames_edge named valid) (List.prefix_refl _)

/-- A file is copied to the place of the published loader, and no directory stands there then. -/
theorem keeps_copyLoader {source : Path} (valid : IsEntryName source.name) :
    Keeps (Laid (.below (edgeDirectory project)) project tree) (fun _ => True)
      (FileTask.copyFile true source (.ofLocation (edgeDirectory project ++ ["web_bindings", "plonk_wasm.js"]))) := by
  refine Keeps.of_after fun now ⟨confined, clear⟩ => ?_
  have named' : AreNames (edgeDirectory project ++ ["web_bindings", "plonk_wasm.js"]) := areNames_edge named (by decide)
  obtain ⟨others, solid⟩ := lookup_copyFile confined.sound confined.free true source named' clear.solid
  refine ⟨(keeps_copyFile named' (List.prefix_append _ _) true (.inr valid)).after confined, ?_⟩
  constructor
  · rw [others _ (by simp [edgeDirectory, bindingsDirectory])]
    exact clear.bindings
  · rw [others _ (by simp)]
    exact clear.scripts
  · exact solid

variable {content : Bytes} (file : tree.lookup (bindingsDirectory project ++ ["plonk_wasm.js"]) = some (.file content))

omit named in
include file in
theorem Laid.lookup_loader {now : FileTree} (laid : Laid (.below (edgeDirectory project)) project tree now) :
    now.lookup (bindingsDirectory project ++ ["plonk_wasm.js"]) = some (.file content) := by
  rw [laid.confined.present (by simp [edgeDirectory, bindingsDirectory]) (by simp [file]), file]

include file

/-- One of the bindings is published and brings no rival, since it has another name, and the loader module is a file. -/
theorem keeps_copyBinding (ignored : List String) (depth : Nat) {name : String} (valid : IsEntryName name) (other : name ≠ "plonk_wasm.web.js") :
    Keeps (Laid (.below (edgeDirectory project)) project tree) (fun _ => True) (do
      if (← MonadState.get).isDirectory (.ofLocation (bindingsDirectory project ++ [name])) then
        FileTask.copyDirectory ignored depth (.ofLocation (bindingsDirectory project ++ [name]))
          (.ofLocation (edgeDirectory project ++ ["web_bindings", name]))
      else
        FileTask.copyFile true (.ofLocation (bindingsDirectory project ++ [name]))
          (.ofLocation (edgeDirectory project ++ ["web_bindings", name])) : FileTask Unit) := by
  have last : (Path.ofLocation (bindingsDirectory project ++ [name])).name = name := by simp [Path.name, Path.ofLocation]
  by_cases loader : name = "plonk_wasm.js"
  · subst loader
    refine .get fun now laid => ?_
    have source : AreNames (bindingsDirectory project ++ ["plonk_wasm.js"]) := areNames_bindings named (by decide)
    have solid : now.lookup (now.straight (.ofLocation (bindingsDirectory project ++ ["plonk_wasm.js"]))) ≠ some .directory := by
      rw [straight_ofLocation source, laid.lookup_loader file]
      simp
    rw [isDirectory_of_lookup laid.confined.sound laid.confined.free solid, if_neg Bool.false_ne_true]
    exact keeps_copyLoader named (last.symm ▸ valid) now laid
  · have target : AreNames (edgeDirectory project ++ ["web_bindings", name]) :=
      areNames_edge named (areNames_cons.2 ⟨by decide, by simpa using valid⟩)
    have rival : ¬ ["web_bindings", name] <+: ["web_bindings", "plonk_wasm.web.js"] := by simpa using other
    refine keeps_laid rival (by simpa using loader) (by simpa using Ne.symm loader) fun now => ?_
    refine .get fun now confined => ?_
    split
    · exact keeps_copyDirectory target (List.prefix_refl _) ignored depth _ now confined
    · exact keeps_copyFile target (List.prefix_refl _) true (.inr (last.symm ▸ valid)) now confined

/-- The bindings are published and bring no rival. -/
theorem keeps_copyBindings (ignored : List String) :
    Keeps (Laid (.below (edgeDirectory project)) project tree) (fun _ => True)
      (Publisher.copyEntry ignored (.ofLocation (bindingsDirectory project)) (.ofLocation (edgeDirectory project ++ ["web_bindings"]))) := by
  have source : AreNames (bindingsDirectory project) := by simpa using areNames_bindings named areNames_nil
  have target : AreNames (edgeDirectory project ++ ["web_bindings"]) := areNames_edge named (by decide)
  have copied (depth : Nat) : Keeps (Laid (.below (edgeDirectory project)) project tree) (fun _ => True)
      (FileTask.copyDirectory ignored depth (.ofLocation (bindingsDirectory project)) (.ofLocation (edgeDirectory project ++ ["web_bindings"]))) := by
    cases depth with
    | zero => exact .throw
    | succ depth =>
      have made : Keeps (Laid (.below (edgeDirectory project)) project tree) (fun _ => True)
          (FileTask.makeDirectories (.ofLocation (edgeDirectory project ++ ["web_bindings"]))) := by
        have rival : ¬ ["web_bindings", ""] <+: ["web_bindings", "plonk_wasm.web.js"] := by decide
        exact keeps_laid rival (by decide) (by decide) fun now =>
          keeps_makeDirectories (Zone.roams_above now target (by simp [Zone.below]))
      refine keeps_copyDirectory_step made fun now place entry laid leads name mem _ => ?_
      obtain ⟨rfl, -⟩ := found_eq_entry_iff.1 (laid.confined.free.follow_eq laid.confined.sound leads).symm
      rw [straight_ofLocation source] at mem
      have valid := isEntryName_of_mem_children laid.confined.sound mem
      have other : name ≠ "plonk_wasm.web.js" := by
        rintro rfl
        exact lookup_ne_none_of_mem_children mem laid.clear.bindings
      rw [Path.child_ofLocation valid, Path.child_ofLocation valid, List.append_assoc]
      exact keeps_copyBinding named file ignored depth valid other
  refine .adapt (.adapt (.get fun now laid => ?_))
  split
  · exact .throw laid
  · exact copied _ now laid
  · have parent : Path.parent (.ofLocation (edgeDirectory project ++ ["web_bindings"])) = .ofLocation (edgeDirectory project) := by
      simp [Path.parent, Path.ofLocation]
    have made : Keeps (Laid (.below (edgeDirectory project)) project tree) (fun _ => True)
        (FileTask.ensureDirectory (.ofLocation (edgeDirectory project))) := by
      have rival : ¬ [""] <+: ["web_bindings", "plonk_wasm.web.js"] := by decide
      exact keeps_laid rival (by decide) (by decide) fun now => keeps_way (by simpa using areNames_edge named areNames_nil)
    rw [parent]
    refine Keeps.bind made (fun _ _ => Keeps.of_after fun now laid => ?_) now laid
    have directory : now.lookup (bindingsDirectory project) = some .directory :=
      laid.confined.sound.above (List.cons_ne_nil "plonk_wasm.js" []) (by simp [laid.lookup_loader file])
    rw [copyFile_of_directory laid.confined.sound laid.confined.free _ (by rwa [straight_ofLocation source])]
    exact laid

variable {publisher : Publisher} (start : publisher.root = .ofLocation project)

include start

/-- The assets are published and bring no rival. -/
theorem keeps_assets (free : tree.LinkFree) (root : String) (ignored : List String) :
    Keeps (Laid (.below (edgeDirectory project)) project tree) (fun _ => True)
      (publisher.copy (edgeAssets {} [("output_dir", "dist/cloudflare"), ("project_root", root)]) ignored) := by
  refine publisher.keeps_batch free (fun _ laid => laid.confined) _ ignored fun pair mem => ?_
  rw [edgeAssets_default] at mem
  simp only [List.mem_cons, List.not_mem_nil, or_false] at mem
  have spelled {parts : List String} (valid : AreNames parts) : tree.straight (publisher.root.join ⟨.relative, parts⟩) = project ++ parts :=
    straight_join start tree (areNames_append.2 ⟨named, valid⟩)
  have source {parts : List String} (valid : AreNames parts) : AreNames (project ++ parts) := areNames_append.2 ⟨named, valid⟩
  have target (names : List String) : project ++ "dist" :: "cloudflare" :: names = edgeDirectory project ++ names := by simp [edgeDirectory]
  obtain rfl | rfl | rfl | rfl := mem <;> rw [spelled (by decide), spelled (by decide), target]
  · exact keeps_copyBindings named file ignored
  all_goals exact keeps_copyEntry_apart named ignored (source (by decide)) (by decide) (by decide) (by decide) (by decide)

end

/-! ## The loader in its place -/

/-- Files with some content in the place of the published loader. -/
structure Placed (project : Location) (content : Bytes) (now : FileTree) : Prop where
  sound : now.WellFormed
  free : now.LinkFree
  loader : now.lookup (edgeDirectory project ++ ["web_bindings", "plonk_wasm.js"]) = some (.file content)

/-- What changes files apart from the published loader leaves it in its place. -/
theorem keeps_placed {content : Bytes} {top : Location} (apart : ¬ top <+: edgeDirectory project ++ ["web_bindings", "plonk_wasm.js"])
    (aside : ¬ edgeDirectory project ++ ["web_bindings", "plonk_wasm.js"] <+: top) {α : Type} {run : Run τ α}
    (keeps : ∀ tree, tree.WellFormed → tree.LinkFree → RunsIn (.below top) tree run) :
    RunKeeps (Placed project content) run := by
  refine Keeps.of_after fun world placed => ?_
  have changed := (keeps world.files placed.sound placed.free).after (Confined.startBelow placed.sound placed.free)
  refine ⟨changed.sound, changed.free, ?_⟩
  rw [changed.lookup_eq (by simpa using apart) aside]
  exact placed.loader

section

variable (named : AreNames project) {publisher : Publisher}

include named

/-- The loader is copied to its place, and its rival stays away. -/
theorem copyLoader_leaves {now : FileTree} (sound : now.WellFormed) (free : now.LinkFree) (clear : Unrivalled project now)
    {content : Bytes} (loader : now.lookup (bindingsDirectory project ++ ["plonk_wasm.tmp.js"]) = some (.file content)) :
    Leaves (publisher.copy [(.ofLocation (bindingsDirectory project ++ ["plonk_wasm.tmp.js"]),
        .ofLocation (edgeDirectory project ++ ["web_bindings", "plonk_wasm.js"]))] []) now
      (fun _ after => Placed project content after ∧
        ∀ content, after.lookup (edgeDirectory project ++ ["web_bindings", "plonk_wasm.web.js"]) ≠ some (.file content)) (fun _ => True) := by
  refine .of_ends fun targets after ended => ?_
  have source : AreNames (bindingsDirectory project ++ ["plonk_wasm.tmp.js"]) := areNames_bindings named (by decide)
  have target : AreNames (edgeDirectory project ++ ["web_bindings", "plonk_wasm.js"]) := areNames_edge named (by decide)
  have copied := publisher.copy_one_ends sound free ended
  rw [straight_join_ofLocation _ _ source, straight_join_ofLocation _ _ target] at copied
  have valid : IsEntryName (Path.ofLocation (bindingsDirectory project ++ ["plonk_wasm.tmp.js"])).name := by
    have last : (Path.ofLocation (bindingsDirectory project ++ ["plonk_wasm.tmp.js"])).name = "plonk_wasm.tmp.js" := by
      simp [Path.name, Path.ofLocation]
    rw [last]
    decide
  have changed : Confined (.below (edgeDirectory project ++ ["web_bindings", "plonk_wasm.js"])) now after :=
    ((FileTree.keeps_copy target (List.prefix_refl _) [] (.inr valid)).of_ok (.startBelow sound free) copied).2
  refine ⟨⟨changed.sound, changed.free, lookup_of_copy sound free source target loader clear.solid copied⟩, ?_⟩
  rw [changed.lookup_eq (by simp) (by simp [Zone.below])]
  exact clear.scripts

/-- Renaming a script with the platform's suffix leaves the published loader in its place, unless the script is the
loader's rival. -/
theorem keeps_moveEntry_apart {content : Bytes} {outer : List String} {name : String} {renamed : List Char} (valid : AreNames outer)
    (valid' : IsEntryName name) (matched : Wildcard.matchesName ("*" ++ ".web" ++ ".js") name = true)
    (cut : withoutLast? ".web".toList name.toList = some renamed) (other : outer ++ [name] ≠ ["web_bindings", "plonk_wasm.web.js"]) :
    Keeps (Placed project content) (fun _ => True) (Publisher.moveEntry (.ofLocation (edgeDirectory project ++ outer ++ [name]))
      (.ofLocation (edgeDirectory project ++ outer ++ [String.ofList renamed]))) := by
  obtain ⟨stem, ending, rfl, renamed'⟩ := exists_stem_of_renamed valid' matched cut
  have inner : AreNames (edgeDirectory project ++ outer) := areNames_edge named valid
  have source : AreNames (edgeDirectory project ++ outer ++ [name]) := areNames_append.2 ⟨inner, by simpa using valid'⟩
  have target : AreNames (edgeDirectory project ++ outer ++ [String.ofList (stem ++ ".js".toList)]) :=
    areNames_append.2 ⟨inner, by simpa using renamed'⟩
  have split {last : String} (same : edgeDirectory project ++ ["web_bindings", "plonk_wasm.js"] = edgeDirectory project ++ outer ++ [last]) :
      ["web_bindings"] = outer ∧ "plonk_wasm.js" = last := by
    rw [List.append_assoc] at same
    exact List.append_singleton_inj.1 (List.append_cancel_left same)
  have apart : edgeDirectory project ++ ["web_bindings", "plonk_wasm.js"] ≠ edgeDirectory project ++ outer ++ [String.ofList (stem ++ ".js".toList)] := by
    intro same
    obtain ⟨rfl, last⟩ := split same
    have both : stem ++ ".js".toList = "plonk_wasm".toList ++ ".js".toList := by
      have text : "plonk_wasm.js".toList = (String.ofList (stem ++ ".js".toList)).toList := congrArg String.toList last
      exact String.toList_ofList.symm.trans (text.symm.trans rfl)
    obtain rfl := List.append_cancel_right both
    have rival : name = "plonk_wasm.web.js" := String.toList_inj.1 ending
    exact other (by rw [rival]; rfl)
  have aside : edgeDirectory project ++ ["web_bindings", "plonk_wasm.js"] ≠ edgeDirectory project ++ outer ++ [name] := by
    intro same
    obtain ⟨-, rfl⟩ := split same
    have ends : ".web.js".toList <:+ "plonk_wasm.js".toList := ⟨stem, ending.symm⟩
    exact absurd ends (by decide)
  refine .adapt (.adapt (FileTask.keeps_change fun now after placed moved => ?_))
  have anywhere (location : Location) : (Zone.below []).Allows location := Zone.allows_below.2 List.nil_prefix
  have changed : Confined (.below []) now after :=
    (Confined.startBelow placed.sound placed.free).move (anywhere _) (fun _ _ _ => anywhere _) moved
  refine ⟨changed.sound, changed.free, ?_⟩
  obtain ⟨_, from_, -, -, rfl | rfl⟩ := placed.free.move_eq placed.sound moved
  · exact placed.loader
  · rw [straight_ofLocation source, straight_ofLocation target, FileTree.lookup_put _ (List.concat_ne_nil _ _), if_neg apart,
      FileTree.lookup_erase _ (List.concat_ne_nil _ _), if_neg aside]
    exact placed.loader

/-- The scripts are renamed around the published loader. -/
theorem renameScripts_leaves {content : Bytes} {now : FileTree} (placed : Placed project content now)
    (clear : ∀ content, now.lookup (edgeDirectory project ++ ["web_bindings", "plonk_wasm.web.js"]) ≠ some (.file content)) :
    Leaves (publisher.moveAndRename ("**/*" ++ ".web" ++ ".js") ".web" (some (.ofLocation (edgeDirectory project)))) now
      (fun _ after => True ∧ Placed project content after) (Placed project content) := by
  have named' : AreNames (edgeDirectory project) := by simpa using areNames_edge named areNames_nil
  have spelled : now.straight (publisher.root.join (.ofLocation (edgeDirectory project))) = edgeDirectory project :=
    straight_join_ofLocation _ _ named'
  refine publisher.moveAndRename_leaves placed.sound placed.free placed spelled ?_
  intro outer name renamed valid valid' matched cut asked
  refine keeps_moveEntry_apart named valid valid' matched cut fun rival => ?_
  obtain ⟨entry, there, regular⟩ := exists_of_asks placed.sound placed.free asked
  have source : AreNames (edgeDirectory project ++ outer ++ [name]) := by
    rw [List.append_assoc]
    exact areNames_edge named (areNames_append.2 ⟨valid, by simpa using valid'⟩)
  rw [straight_ofLocation source, List.append_assoc, rival] at there
  cases entry with
  | file content => exact clear content there
  | directory | link => cases regular

/-- What a build publishes after the loader is ready leaves it in its place. -/
theorem publishEdge_leaves {context : Context τ} (defaults : context.settings = { projectRoot := context.settings.projectRoot })
    (start : context.publisher.root = .ofLocation project) {tree : FileTree} (free : tree.LinkFree)
    (resolved : tree.resolve context.settings.projectRoot = .ok project)
    (transform : ∀ code options, RunKeeps (Laid (.below (edgeDirectory project)) project tree) (context.bundler.transform code options))
    {module content : Bytes} (file : tree.lookup (bindingsDirectory project ++ ["plonk_wasm.js"]) = some (.file module))
    (loader : tree.lookup (bindingsDirectory project ++ ["plonk_wasm.tmp.js"]) = some (.file content)) (result : TargetResult)
    {world : World τ} (laid : Laid (.below (edgeDirectory project)) project tree world.files) :
    Leaves (context.publishEdge result (.ofLocation (edgeDirectory project)) (.ofLocation (bindingsDirectory project ++ ["plonk_wasm.tmp.js"]))) world
      (fun _ after => Placed project content after.files) (fun _ => True) := by
  have templates (now : FileTree) (laid : Laid (.below (edgeDirectory project)) project tree now) :
      context.placeholders (.ofLocation (edgeDirectory project)) now =
        (.ok [("output_dir", "dist/cloudflare"), ("project_root", (Path.ofLocation project).toString)], now) := by
    rw [Context.placeholders_apply ((laid.confined.resolve_eq free _).trans resolved), templateValues_default _ named]
  have edge : context.settings.edge = {} := by rw [defaults]
  have minified : RunKeeps (Laid (.below (edgeDirectory project)) project tree)
      (({} : EdgeSettings).minifiedScripts.forM fun script => context.minify (Path.child (.ofLocation (edgeDirectory project)) script)) := by
    refine Keeps.forM _ fun script mem => ?_
    obtain rfl := List.mem_singleton.1 mem
    have script : AreNames (edgeDirectory project ++ ["web_bindings", "o1js_web.bc.js"]) := areNames_edge named (by decide)
    have rival : ¬ ["web_bindings", "o1js_web.bc.js"] <+: ["web_bindings", "plonk_wasm.web.js"] := by decide
    have place : Path.child (.ofLocation (edgeDirectory project)) "web_bindings/o1js_web.bc.js" =
        .ofLocation (edgeDirectory project ++ ["web_bindings", "o1js_web.bc.js"]) := child_eq_ofLocation (by decide)
    rw [place]
    refine Context.keeps_minify (fun _ laid => laid.confined) (fun loose => nomatch loose) transform fun _ content => ?_
    refine keeps_laid rival (by decide) (by decide) fun now => ?_
    exact keeps_writeScript (Zone.roams_ofLocation now script (List.prefix_refl _)).parent (Zone.allows_top (straight_ofLocation script))
  unfold Context.publishEdge
  rw [edge]
  refine .bind ((Keeps.onFiles (Context.keeps_placeholders templates) world laid).mono ?_ fun _ _ => trivial)
  rintro values between ⟨rfl, laid⟩
  refine .bind ((Keeps.onFiles (keeps_assets named file start free _ _) between laid).mono ?_ fun _ _ => trivial)
  rintro assets between ⟨-, laid⟩
  refine .bind ((minified between laid).mono ?_ fun _ _ => trivial)
  rintro ⟨⟩ between ⟨-, laid⟩
  have place : Path.child (.ofLocation (edgeDirectory project)) ({} : EdgeSettings).publishedLoader =
      .ofLocation (edgeDirectory project ++ ["web_bindings", "plonk_wasm.js"]) := child_eq_ofLocation (by decide)
  have loader' : between.files.lookup (bindingsDirectory project ++ ["plonk_wasm.tmp.js"]) = some (.file content) := by
    rw [laid.confined.present (by simp [edgeDirectory, bindingsDirectory]) (by simp [loader]), loader]
  rw [place]
  refine .bind ((copyLoader_leaves named laid.confined.sound laid.confined.free laid.clear loader').onFiles.mono ?_ fun _ _ => trivial)
  rintro copies between ⟨placed, clear⟩
  refine .bind ((renameScripts_leaves named placed clear).onFiles.mono ?_ fun _ _ => trivial)
  rintro renamed between ⟨-, placed⟩
  exact .pure placed

end

/-! ## The loader before it is published -/

theorem reach_ends {result after : TargetResult} {next : Stage} {world later : World τ}
    (ended : (monadLift (reach result next) : Run τ TargetResult) world = (.ok after, later)) : later = world := by
  unfold reach at ended
  split at ended
  · exact (Prod.mk.inj ended).2.symm
  · cases (Prod.mk.inj ended).1

theorem asFactory_ends {options : LoaderOptions} {text factory : String} {world later : World τ}
    (ended : (monadLift (asFactory options text) : Run τ String) world = (.ok factory, later)) :
    Loader.toFactory options text = .ok factory ∧ later = world := by
  unfold asFactory at ended
  split at ended
  · next made =>
    obtain ⟨same, later⟩ := Prod.mk.inj ended
    exact ⟨made.trans (congrArg _ (Except.ok.inj same)), later.symm⟩
  · cases (Prod.mk.inj ended).1

namespace Context

/-- The loader as it is bundled: the text that the bundler leaves in the temporary loader. -/
def bundledLoader (context : Context τ) (loader temporary : Path) : Run τ String := do
  let source ← (readScript loader : FileRun String)
  let rewritten ← (inlined (loaderOptions context.settings.edge) source : FileRun String)
  (writeScript temporary rewritten : FileRun Unit)
  context.bundler.build (loaderBuild context.settings temporary)
  (readScript temporary : FileRun String)

/-- A loader that was prepared is the factory of the bundled loader. -/
theorem prepareLoader_ends {context : Context τ} {result after : TargetResult} {loader temporary : Path} {world later : World τ}
    (ended : context.prepareLoader result loader temporary world = (.ok after, later)) :
    ∃ text factory bundled, context.bundledLoader loader temporary world = (.ok text, bundled) ∧
      Loader.toFactory (loaderOptions context.settings.edge) text = .ok factory ∧
      writeScript temporary factory bundled.files = (.ok (), later.files) := by
  simp only [prepareLoader, bind_ends_iff] at ended
  obtain ⟨source, first, read, rewritten, second, rewrote, _, third, written, _, _, reached, _, fourth, built, _, _, reached', text,
    _, read', factory, _, made, _, _, written', reached''⟩ := ended
  obtain rfl := reach_ends reached
  obtain rfl := reach_ends reached'
  obtain rfl := reach_ends reached''
  obtain ⟨same, rfl⟩ := asFactory_ends made
  refine ⟨text, factory, _, ?_, same, (Run.onFiles_ends written').1⟩
  simp only [bundledLoader, bind_ends_iff]
  exact ⟨source, first, read, rewritten, second, rewrote, _, _, written, _, _, built, read'⟩

end Context

/-- A script that is written is in its place in the end. -/
theorem lookup_of_writeScript {now after : FileTree} (sound : now.WellFormed) (free : now.LinkFree) {outer : Location} {name content : String}
    (named : AreNames (outer ++ [name])) (ended : writeScript (.ofLocation (outer ++ [name])) content now = (.ok (), after)) :
    after.lookup (outer ++ [name]) = some (.file (encode content)) := by
  have written : FileTask.writeText (.ofLocation (outer ++ [name])) content now = (.ok (), after) :=
    adapt_ends_iff.1 (adapt_ends_iff.1 ended)
  have parent : Path.parent (.ofLocation (outer ++ [name])) = .ofLocation outer := by simp [Path.parent, Path.ofLocation]
  unfold FileTask.writeText FileTask.writeBytes at written
  obtain ⟨_, between, made, written⟩ := bind_ends_iff.1 written
  rw [parent] at made
  have confined : Confined (.below (outer ++ [""])) now between :=
    ((keeps_way (areNames_append.1 named).1).of_ok (.startBelow sound free) made).2
  rw [FileTask.change_apply] at written
  split at written
  · next final wrote =>
    obtain ⟨-, rfl⟩ := Prod.mk.inj written
    rw [confined.free.lookup_write confined.sound wrote, if_pos (straight_ofLocation named).symm]
  · cases (Prod.mk.inj written).1

/-- A script changes nothing but its place when it is written. -/
theorem keeps_writeTemporary {tree : FileTree} {place : Location} (named : AreNames place) (content : String) :
    KeepsTo (.below place) tree (writeScript (.ofLocation place) content) := by
  exact keeps_writeScript (Zone.roams_ofLocation tree named (List.prefix_refl _)).parent (Zone.allows_top (straight_ofLocation named))

/-! ## The build -/

/-- The tools of a build write what they are to write, and leave no links: the bundler its output alone, the type check files
in the output directory, and the minifier no file. -/
structure WriteOwnOutput (context : Context τ) (project : Location) : Prop where
  loader : ∀ tree : FileTree, tree.WellFormed → tree.LinkFree → RunsIn (.below (bindingsDirectory project ++ ["plonk_wasm.tmp.js"])) tree
    (context.bundler.build (loaderBuild context.settings (.ofLocation (bindingsDirectory project ++ ["plonk_wasm.tmp.js"]))))
  check : ∀ (command : Command) (tree : FileTree), tree.WellFormed → tree.LinkFree →
    RunsIn (.below (edgeDirectory project)) tree (context.runner command)
  transform : ∀ code options world, (context.bundler.transform code options world).2.files = world.files
  entry : ∀ tree : FileTree, tree.WellFormed → tree.LinkFree → RunsIn (.below (edgeDirectory project ++ ["index.js"])) tree
    (context.bundler.build (edgeBuild context.settings (.ofLocation (edgeDirectory project ++ ["index.js"]))))

/-- Changes in the place of the temporary loader bring no rival. -/
theorem Unrivalled.of_confined_loader {tree now : FileTree} (clear : Unrivalled project tree)
    (confined : Confined (.below (bindingsDirectory project ++ ["plonk_wasm.tmp.js"])) tree now) : Unrivalled project now := by
  constructor
  · rw [confined.lookup_eq (by simp) (by simp [Zone.below])]
    exact clear.bindings
  · rw [confined.lookup_eq (by simp [edgeDirectory, bindingsDirectory]) (by simp [Zone.below, edgeDirectory, bindingsDirectory])]
    exact clear.scripts
  · rw [confined.lookup_eq (by simp [edgeDirectory, bindingsDirectory]) (by simp [Zone.below, edgeDirectory, bindingsDirectory])]
    exact clear.solid

/-- The paths of the default settings in a project. -/
theorem paths_default {context : Context τ} (defaults : context.settings = { projectRoot := context.settings.projectRoot })
    (start : context.publisher.root = .ofLocation project) :
    context.edgeOutput = .ofLocation (edgeDirectory project) ∧
      context.edgeLoader = .ofLocation (bindingsDirectory project ++ ["plonk_wasm.js"]) ∧
      context.edgeTemporary = .ofLocation (bindingsDirectory project ++ ["plonk_wasm.tmp.js"]) := by
  have edge : context.settings.edge = {} := by rw [defaults]
  have output : ({} : EdgeSettings).outputDirectory = ⟨.relative, ["dist", "cloudflare"]⟩ := by decide
  have loader : ({} : EdgeSettings).loaderPath =
      ⟨.relative, ["src", "bindings", "compiled", "web_bindings", "plonk_wasm.js"]⟩ := by decide
  have temporary : ({} : EdgeSettings).temporaryLoaderPath =
      ⟨.relative, ["src", "bindings", "compiled", "web_bindings", "plonk_wasm.tmp.js"]⟩ := by decide
  refine ⟨?_, ?_, ?_⟩
  · rw [Context.edgeOutput, edge, output, start]
    rfl
  · rw [Context.edgeLoader, edge, loader, start]
    simp [bindingsDirectory, Path.join, Path.isAbsolute, Path.ofLocation]
  · rw [Context.edgeTemporary, edge, temporary, start]
    simp [bindingsDirectory, Path.join, Path.isAbsolute, Path.ofLocation]

/-- What the loader is bundled with changes the place of the temporary loader alone. -/
theorem keeps_bundledLoader {context : Context τ} (tools : WriteOwnOutput context project) (named : AreNames project) {tree : FileTree}
    (sound : tree.WellFormed) (free : tree.LinkFree) (loader : Path) :
    RunsIn (.below (bindingsDirectory project ++ ["plonk_wasm.tmp.js"])) tree
      (context.bundledLoader loader (.ofLocation (bindingsDirectory project ++ ["plonk_wasm.tmp.js"]))) := by
  have temporary : AreNames (bindingsDirectory project ++ ["plonk_wasm.tmp.js"]) := areNames_bindings named (by decide)
  refine Keeps.bind (.onFiles (keeps_readScript _)) fun source _ => ?_
  refine Keeps.bind (.onFiles (keeps_inlined _ source)) fun rewritten _ => ?_
  refine Keeps.bind (.onFiles (keeps_writeTemporary temporary rewritten)) fun _ _ => ?_
  refine Keeps.bind (tools.loader tree sound free) fun _ _ => ?_
  exact (Keeps.onFiles (keeps_readScript _)).mono fun _ _ => trivial

/-- A loader that is bundled was read from a file. -/
theorem exists_loader {context : Context τ} {world bundled : World τ} (sound : world.files.WellFormed) (free : world.files.LinkFree)
    {place : Location} (named : AreNames place) {temporary : Path} {text : String}
    (ran : context.bundledLoader (.ofLocation place) temporary world = (.ok text, bundled)) :
    ∃ module, world.files.lookup place = some (.file module) := by
  obtain ⟨_, _, read, -⟩ := bind_ends_iff.1 ran
  obtain ⟨⟨_, content, rfl, script⟩, -⟩ := (@keeps_readScript (· = world.files) _).of_ok rfl (Run.onFiles_ends read).1
  have there := (free.lookup_of_read sound script).2
  rw [straight_ofLocation named] at there
  exact ⟨content, there⟩

/-- Files in which the loader is ready to be published: its factory stands in its temporary place, and no script rivals it. -/
structure Ready (context : Context τ) (project : Location) (content : Bytes) (now : FileTree) : Prop where
  sound : now.WellFormed
  free : now.LinkFree
  resolved : now.resolve context.settings.projectRoot = .ok project
  clear : Unrivalled project now
  module : ∃ source, now.lookup (bindingsDirectory project ++ ["plonk_wasm.js"]) = some (.file source)
  factory : now.lookup (bindingsDirectory project ++ ["plonk_wasm.tmp.js"]) = some (.file content)

/-- What changes the place of the temporary loader alone leaves the published loader in its place. -/
theorem keeps_placed_apart {content : Bytes} {α : Type} {act : FileRun α}
    (keeps : ∀ tree : FileTree, tree.WellFormed → tree.LinkFree → KeepsTo (.below (bindingsDirectory project ++ ["plonk_wasm.tmp.js"])) tree act) :
    RunKeeps (Placed project content) (monadLift act : Run τ α) :=
  keeps_placed (by simp [edgeDirectory, bindingsDirectory]) (by simp [edgeDirectory, bindingsDirectory])
    fun tree sound free => .onFiles (keeps tree sound free)

section

variable {context : Context τ} (tools : WriteOwnOutput context project) (named : AreNames project)

include tools named

/-- A loader that was prepared is ready. -/
theorem ready_of_prepareLoader {world later : World τ} {result after : TargetResult} (sound : world.files.WellFormed)
    (free : world.files.LinkFree) (resolved : world.files.resolve context.settings.projectRoot = .ok project)
    (clear : Unrivalled project world.files)
    (ended : context.prepareLoader result (.ofLocation (bindingsDirectory project ++ ["plonk_wasm.js"]))
      (.ofLocation (bindingsDirectory project ++ ["plonk_wasm.tmp.js"])) world = (.ok after, later)) :
    ∃ text factory bundled, context.bundledLoader (.ofLocation (bindingsDirectory project ++ ["plonk_wasm.js"]))
        (.ofLocation (bindingsDirectory project ++ ["plonk_wasm.tmp.js"])) world = (.ok text, bundled) ∧
      Loader.toFactory (loaderOptions context.settings.edge) text = .ok factory ∧ Ready context project (encode factory) later.files := by
  have temporary : AreNames (bindingsDirectory project ++ ["plonk_wasm.tmp.js"]) := areNames_bindings named (by decide)
  obtain ⟨text, factory, bundled, ran, made, written⟩ := Context.prepareLoader_ends ended
  have bundling := ((keeps_bundledLoader tools named sound free _).of_ok (.startBelow sound free) ran).2
  have prepared := ((keeps_writeTemporary temporary factory).of_ok bundling written).2
  obtain ⟨source, module⟩ := exists_loader sound free (areNames_bindings named (by decide)) ran
  refine ⟨text, factory, bundled, ran, made, prepared.sound, prepared.free, (prepared.resolve_eq free _).trans resolved,
    clear.of_confined_loader prepared, ⟨source, ?_⟩, lookup_of_writeScript bundling.sound bundling.free temporary written⟩
  rw [prepared.present (by simp) (by simp [module]), module]

omit named in
/-- The check of the types leaves the loader ready, unless it brings a rival. -/
theorem Ready.of_checkTypes {content : Bytes} {world later : World τ} (start : context.publisher.root = .ofLocation project)
    (ready : Ready context project content world.files)
    (kept : ∀ command (world : World τ), Unrivalled project world.files → Unrivalled project (context.runner command world).2.files)
    {template : List String} (checked : context.checkTypes template (.ofLocation (edgeDirectory project)) world = (.ok (), later)) :
    Ready context project content later.files := by
  obtain ⟨values, templates⟩ : ∃ values, ∀ now, Confined (.below (edgeDirectory project)) world.files now →
      context.placeholders (.ofLocation (edgeDirectory project)) now = (.ok values, now) :=
    Context.exists_placeholders ⟨project, ready.resolved, start⟩ ready.free _
  have checking : RunKeeps (Laid (.below (edgeDirectory project)) project world.files)
      (context.checkTypes template (.ofLocation (edgeDirectory project))) := by
    refine Context.keeps_checkTypes (fun now laid => templates now laid.confined) (fun command => ?_) _
    refine Keeps.of_after fun now laid => ⟨?_, kept command now laid.clear⟩
    exact (tools.check command world.files ready.sound ready.free).after laid.confined
  obtain ⟨-, confined, clear⟩ := checking.of_ok ⟨.startBelow ready.sound ready.free, ready.clear⟩ checked
  obtain ⟨source, module⟩ := ready.module
  refine ⟨confined.sound, confined.free, (confined.resolve_eq ready.free _).trans ready.resolved, clear, ⟨source, ?_⟩, ?_⟩
  · rw [confined.present (by simp [edgeDirectory, bindingsDirectory]) (by simp [module]), module]
  · rw [confined.present (by simp [edgeDirectory, bindingsDirectory]) (by simp [ready.factory]), ready.factory]

/-- What is done once the loader is published leaves it in its place. -/
theorem keeps_bundleEntry (defaults : context.settings = { projectRoot := context.settings.projectRoot }) {content : Bytes}
    (result : TargetResult) :
    RunKeeps (Placed project content) (do
      let entry := (Path.ofLocation (edgeDirectory project)).child (← (entryScript context.settings : FileRun String))
      context.bundler.build (edgeBuild context.settings entry)
      let result ← (reach result .repackagedBundled : FileRun TargetResult)
      (context.publisher.deleteTemporary (.ofLocation (bindingsDirectory project ++ ["plonk_wasm.tmp.js"])) : FileRun Unit)
      return (result, entry) : Run τ (TargetResult × Path)) := by
  have temporary : AreNames (bindingsDirectory project ++ ["plonk_wasm.tmp.js"]) := areNames_bindings named (by decide)
  have entry : Path.child (.ofLocation (edgeDirectory project)) "index.js" = .ofLocation (edgeDirectory project ++ ["index.js"]) :=
    child_eq_ofLocation (by decide)
  have allowed (tree : FileTree) : (Zone.below (bindingsDirectory project ++ ["plonk_wasm.tmp.js"])).Allows
      (tree.straight (context.publisher.root.join (.ofLocation (bindingsDirectory project ++ ["plonk_wasm.tmp.js"])))) := by
    rw [Path.join_of_isAbsolute _ rfl]
    exact Zone.allows_top (straight_ofLocation temporary)
  rw [entryScript_default defaults]
  refine Keeps.bind (.onFiles (.pure rfl : Keeps _ (· = "index.js") _)) fun _ same => ?_
  rw [same, entry]
  refine Keeps.bind (keeps_placed (by simp) (by simp) tools.entry) fun _ _ => ?_
  refine Keeps.bind (.onFiles (keeps_reach _ _)) fun _ _ => ?_
  refine Keeps.bind (keeps_placed_apart fun tree sound free => context.publisher.keeps_deleteTemporary sound free (allowed tree)) fun _ _ => ?_
  exact .pure trivial

/-- With the default settings, a build that succeeds leaves the factory of the bundled loader in the place of the published
loader, unless a script rivals it. The files have no links at the start, and the tools leave none (`WriteOwnOutput`). -/
theorem buildEdge_publishes_factory {world after : World τ} {result : TargetResult}
    (defaults : context.settings = { projectRoot := context.settings.projectRoot }) (start : context.publisher.root = .ofLocation project)
    (resolved : world.files.resolve context.settings.projectRoot = .ok project)
    (sound : world.files.WellFormed) (free : world.files.LinkFree) (clear : Unrivalled project world.files)
    (kept : ∀ command (world : World τ), Unrivalled project world.files → Unrivalled project (context.runner command world).2.files)
    (ended : context.buildEdge world = (.ok result, after)) :
    ∃ text factory bundled, context.bundledLoader context.edgeLoader context.edgeTemporary world = (.ok text, bundled) ∧
      Loader.toFactory (loaderOptions context.settings.edge) text = .ok factory ∧
      after.files.lookup (edgeDirectory project ++ ["web_bindings", "plonk_wasm.js"]) = some (.file (encode factory)) := by
  obtain ⟨output, loader, temporary⟩ := paths_default defaults start
  have temporary_ : AreNames (bindingsDirectory project ++ ["plonk_wasm.tmp.js"]) := areNames_bindings named (by decide)
  rw [Context.buildEdge_apply ⟨project, resolved, start⟩] at ended
  rw [output, temporary, loader] at ended
  rw [temporary, loader]
  obtain ⟨⟨built, entry⟩, closed, wrapped, ended⟩ := bind_ends_iff.1 ended
  obtain ⟨open_, steps, discarded⟩ := context.publisher.withTemporary_ends sound free wrapped
  rw [Context.edgeSteps] at steps
  obtain ⟨_, first, prepared, steps⟩ := bind_ends_iff.1 steps
  obtain ⟨_, second, checked, steps⟩ := bind_ends_iff.1 steps
  obtain ⟨_, third, published, steps⟩ := bind_ends_iff.1 steps
  obtain ⟨text, factory, bundled, ran, made, ready⟩ := ready_of_prepareLoader tools named sound free resolved clear prepared
  refine ⟨text, factory, bundled, ran, made, ?_⟩
  have ready' := ready.of_checkTypes tools start kept checked
  obtain ⟨source, module⟩ := ready'.module
  have placed : Placed project (encode factory) third.files :=
    (publishEdge_leaves named defaults start ready'.free ready'.resolved
      (fun code options => Keeps.of_after fun world laid => (tools.transform code options world).symm ▸ laid) module ready'.factory _
      ⟨.startBelow ready'.sound ready'.free, ready'.clear⟩).of_ok published
  have bundled_ := ((keeps_bundleEntry tools named defaults _).of_ok placed steps).2
  have discarding : RunKeeps (Placed project (encode factory)) (monadLift (Publisher.discard (.ofLocation (world.files.straight
      (context.publisher.root.join (.ofLocation (bindingsDirectory project ++ ["plonk_wasm.tmp.js"])))))) : Run τ Unit) := by
    refine keeps_placed_apart fun tree sound free => Keeps.of_after fun now confined => Publisher.discard_confined ?_ confined
    rw [Path.join_of_isAbsolute _ rfl, straight_ofLocation temporary_]
    exact Zone.allows_top (straight_ofLocation temporary_)
  have closed_ : Placed project (encode factory) closed.files := discarded ▸ discarding.after bundled_
  have finished : RunKeeps (Placed project (encode factory)) (context.finishEdge (.ofLocation (edgeDirectory project)) (built, entry)) := by
    refine Keeps.bind (.onFiles (keeps_verifyOutput _ _ _)) fun _ _ => ?_
    refine Keeps.bind (.onFiles (keeps_reach _ _)) fun _ _ => ?_
    exact .onFiles (keeps_reach _ _)
  exact ((finished.of_ok closed_ ended).2).loader

end

/-! ## The small project -/

/-- The bindings of the small project, and a script among them that rivals the loader. -/
def rivalProject : FileTree :=
  Context.smallProject [(["p", "src", "bindings", "compiled", "web_bindings", "plonk_wasm.web.js"], .file (encode "w"))]

/-- The bundler of the small project writes one of two files. -/
theorem smallContext_build (options : BuildOptions) : Context.smallContext.bundler.build options =
    if options.outputFile = .ofString "/p/src/bindings/compiled/web_bindings/plonk_wasm.tmp.js" then
      (monadLift (monadLift (FileTask.change (·.write (.ofString "/p/src/bindings/compiled/web_bindings/plonk_wasm.tmp.js")
        (encode Context.smallBundle))) : FileRun Unit) : Run Unit Unit)
    else (monadLift (monadLift (FileTask.change (·.write (.ofString "/p/dist/cloudflare/index.js") (encode "e"))) : FileRun Unit) :
      Run Unit Unit) := rfl

/-- The tools of the small project write their own output. -/
theorem writeOwnOutput_small : WriteOwnOutput Context.smallContext ["p"] where
  loader := by
    intro tree _ _
    have place : Path.ofString "/p/src/bindings/compiled/web_bindings/plonk_wasm.tmp.js" =
        .ofLocation (bindingsDirectory ["p"] ++ ["plonk_wasm.tmp.js"]) := by decide
    rw [smallContext_build, if_pos (place ▸ rfl), place]
    exact .onFiles (.adapt (keeps_write (Zone.allows_top (straight_ofLocation (by decide)))))
  check := fun command tree _ _ => .pure trivial
  transform := fun code options world => rfl
  entry := by
    intro tree _ _
    have other : (edgeBuild Context.smallContext.settings (.ofLocation (edgeDirectory ["p"] ++ ["index.js"]))).outputFile ≠
        .ofString "/p/src/bindings/compiled/web_bindings/plonk_wasm.tmp.js" := by decide
    have place : Path.ofString "/p/dist/cloudflare/index.js" = .ofLocation (edgeDirectory ["p"] ++ ["index.js"]) := by decide
    rw [smallContext_build, if_neg other, place]
    exact .onFiles (.adapt (keeps_write (Zone.allows_top (straight_ofLocation (by decide)))))

theorem exists_of_isSome {ε α σ : Type} {run : Except ε α × σ} (some : run.1.toOption.isSome = true) :
    ∃ answer, run = (.ok answer, run.2) := by
  rcases run with ⟨_ | answer, after⟩
  · cases some
  · exact ⟨answer, rfl⟩

theorem buildEdge_returns_small : (Context.smallContext.buildEdge ⟨Context.smallProject [], ()⟩).1.toOption.isSome = true := by decide +kernel

theorem buildEdge_publishes_factory_small :
    (Context.smallProject []).resolve Context.smallContext.settings.projectRoot = .ok ["p"] ∧ (Context.smallProject []).WellFormed ∧
      (Context.smallProject []).LinkFree ∧ WriteOwnOutput Context.smallContext ["p"] ∧ Unrivalled ["p"] (Context.smallProject []) ∧
      ∃ result after text bundled factory, Context.smallContext.buildEdge ⟨Context.smallProject [], ()⟩ = (.ok result, after) ∧
        Context.smallContext.bundledLoader Context.smallContext.edgeLoader Context.smallContext.edgeTemporary
          ⟨Context.smallProject [], ()⟩ = (.ok text, bundled) ∧
        Loader.toFactory (loaderOptions Context.smallContext.settings.edge) text = .ok factory ∧
        after.files.lookup (edgeDirectory ["p"] ++ ["web_bindings", "plonk_wasm.js"]) = some (.file (encode factory)) := by
  have resolved : (Context.smallProject []).resolve Context.smallContext.settings.projectRoot = .ok ["p"] :=
    eq_ok_of_toOption (by decide +kernel)
  have vacant : (Context.smallProject []).lookup (edgeDirectory ["p"] ++ ["web_bindings", "plonk_wasm.web.js"]) = none := by decide
  have clear : Unrivalled ["p"] (Context.smallProject []) := ⟨by decide, fun content => by simp [vacant], by decide⟩
  obtain ⟨result, ended⟩ := exists_of_isSome buildEdge_returns_small
  obtain ⟨text, factory, bundled, ran, made, placed⟩ := buildEdge_publishes_factory writeOwnOutput_small (by decide) rfl rfl resolved
    Context.wellFormed_small Context.linkFree_small clear (fun _ _ clear => clear) ended
  exact ⟨resolved, Context.wellFormed_small, Context.linkFree_small, writeOwnOutput_small, clear, result, _, text, bundled, factory, ended, ran,
    made, placed⟩

/-- A script that rivals the loader takes its place. -/
theorem buildEdge_replaces_factory : WriteOwnOutput Context.smallContext ["p"] ∧
    ∃ result after text bundled factory, Context.smallContext.buildEdge ⟨rivalProject, ()⟩ = (.ok result, after) ∧
      Context.smallContext.bundledLoader Context.smallContext.edgeLoader Context.smallContext.edgeTemporary ⟨rivalProject, ()⟩ =
        (.ok text, bundled) ∧
      Loader.toFactory (loaderOptions Context.smallContext.settings.edge) text = .ok factory ∧
      after.files.lookup (edgeDirectory ["p"] ++ ["web_bindings", "plonk_wasm.js"]) ≠ some (.file (encode factory)) := by
  refine ⟨writeOwnOutput_small, ?_⟩
  obtain ⟨returned, replaced, bundle⟩ : (Context.smallContext.buildEdge ⟨rivalProject, ()⟩).1.toOption.isSome = true ∧
      (Context.smallContext.buildEdge ⟨rivalProject, ()⟩).2.files.lookup (edgeDirectory ["p"] ++ ["web_bindings", "plonk_wasm.js"]) =
        some (.file (encode "w")) ∧
      (Context.smallContext.bundledLoader Context.smallContext.edgeLoader Context.smallContext.edgeTemporary
        ⟨rivalProject, ()⟩).1.toOption = some Context.smallBundle := by decide +kernel
  have other : (Loader.toFactory (loaderOptions Context.smallContext.settings.edge) Context.smallBundle).toOption.map
      (fun factory => decide (encode factory = encode "w")) = some false := by decide +kernel
  obtain ⟨result, ended⟩ := exists_of_isSome returned
  rcases made : Loader.toFactory (loaderOptions Context.smallContext.settings.edge) Context.smallBundle with _ | factory
  · rw [made] at other
    cases other
  · rw [made] at other
    refine ⟨result, _, Context.smallBundle, _, factory, ended, Prod.ext (eq_ok_of_toOption bundle) rfl, made, ?_⟩
    rw [replaced]
    intro same
    simp [Except.toOption, Entry.file.inj (Option.some.inj same)] at other

end Targets

end WasmPackaging
