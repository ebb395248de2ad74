import WasmPackaging.Proofs.Bundling.CopyText
import WasmPackaging.Proofs.Bundling.Record

/-!
Imports that are left to the host. The copy of a module holds the path that a plugin gave for an external
specifier, and the bundler is told to leave alone the paths of a pattern that covers it
(`stage_flags_externals`): the pattern of a path covers the path (`covers_externalPattern`), it is noted when
the specifier is met, and nothing that was noted is dropped.
-/

namespace WasmPackaging

open Text FileTree

/-! ## Patterns of paths -/

namespace Bundling

/-- The tokens of a pattern in which each star stands for any text, and every other character for itself. -/
def starTokens (pattern : List Char) : List Wildcard.Token :=
  pattern.map fun c => if c = '*' then .star else .literal c

/-- A pattern covers a path when each of its stars is read as some text. -/
def Covers (pattern path : String) : Prop := Wildcard.Matches (starTokens pattern.toList) path.toList

instance (pattern path : String) : Decidable (Covers pattern path) :=
  decidable_of_iff _ Wildcard.accepts_iff

/-- A text matches itself as a pattern: a star in it stands for a star. -/
theorem matches_starTokens (text : List Char) : Wildcard.Matches (starTokens text) text := by
  induction text with
  | nil => exact .nil
  | cons c text ih =>
    by_cases star : c = '*'
    · subst star
      exact .star ['*'] ih
    · have token : starTokens (c :: text) = .literal c :: starTokens text := by simp [starTokens, star]
      rw [token]
      exact .one (by simp [Wildcard.Token.admits]) ih

theorem dropSteps_suffix (specifier : List Char) : Specifier.dropSteps specifier <:+ specifier := by
  fun_induction Specifier.dropSteps specifier with
  | case1 rest ih => exact ih.trans ⟨['.', '/'], rfl⟩
  | case2 rest ih => exact ih.trans ⟨['.', '.', '/'], rfl⟩
  | case3 rest => exact List.suffix_refl _

/-- The pattern of a path covers the path, whether the path is local or names a package. -/
theorem covers_externalPattern (path : String) :
    Covers (String.ofList (Specifier.externalPattern path.toList)) path := by
  unfold Covers
  rw [String.toList_ofList, Specifier.externalPattern]
  split
  · have kept : (Specifier.dropSteps path.toList).dropWhile (· == '/') <:+ path.toList :=
      (List.dropWhile_suffix _).trans (dropSteps_suffix _)
    obtain ⟨skipped, whole⟩ := kept
    have star (rest : List Char) : starTokens ('*' :: rest) = .star :: starTokens rest := rfl
    rw [star]
    generalize (Specifier.dropSteps path.toList).dropWhile (· == '/') = rest at whole ⊢
    rw [← whole]
    exact .star skipped (matches_starTokens rest)
  · exact matches_starTokens _

/-- The patterns that were noted are told to the bundler. -/
theorem mem_buildArguments_of_external (command : List String) (options : BuildOptions) (output : Location) {staged : Staged}
    {pattern : String} (noted : pattern ∈ staged.external) :
    "--external:" ++ pattern ∈ BundlingCommand.buildArguments command options output staged := by
  have told : "--external:" ++ pattern ∈ (options.external ++ staged.external).map (fun pattern => s!"--external:{pattern}") := by
    refine List.mem_map.2 ⟨pattern, List.mem_append_right _ noted, ?_⟩
    simp [toString]
  unfold BundlingCommand.buildArguments
  simp only [List.mem_append]
  exact .inl (.inl (.inl (.inl (.inr told))))

namespace Stager

variable {s : Stager} {tree now after : FileTree} {base entry module : Location}

/-! ## What is noted -/

/-- A pattern that was noted stays noted, and so is that of the path. -/
theorem mem_withExternal (path : String) (state : StageState) {pattern : String}
    (mem : pattern ∈ state.staged.external ∨ pattern = String.ofList (Specifier.externalPattern path.toList)) :
    pattern ∈ (withExternal path state).staged.external := by
  unfold withExternal
  simp only
  split
  · next known =>
    obtain mem | rfl := mem
    · exact mem
    · exact List.contains_iff_mem.1 known
  · simpa using mem

@[simp] theorem withClass_external (specifier : String) (importClass : Option ImportClass) (state : StageState) :
    (withClass specifier importClass state).staged.external = state.staged.external := by cases importClass <;> rfl

section Copies

variable {copy : Path} {state state' : StageState} {list : List (Piece Mention)} {ways : List (Mention × Route)}
  {texts : List (List Char)}

theorem Takes.external_subset {way : Route} {answer : Option String}
    (takes : s.Takes base copy state now way answer state' after) : state.staged.external ⊆ state'.staged.external := by
  intro pattern mem
  cases takes with
  | keep | payload | module => exact mem
  | external => exact mem_withExternal _ _ (.inl mem)

theorem Copies.external_subset (copies : s.Copies base tree module copy state now list ways texts state' after) :
    state.staged.external ⊆ state'.staged.external := by
  induction copies with
  | nil => exact List.Subset.refl _
  | plain _ ih => exact ih
  | hit _ _ takes _ ih =>
    have noted := List.Subset.trans takes.external_subset ih
    rwa [withClass_external] at noted

theorem Copies.queue_subset (copies : s.Copies base tree module copy state now list ways texts state' after) :
    state.queue ⊆ state'.queue := by
  rw [copies.queue]
  exact List.subset_append_right _ _

/-! ## The pieces of a copy -/

/-- A piece of a module and what stands for it in the copy, given which modules were followed and which
patterns the bundler was told. `now` are the files when the mention was copied: where its specifier led to a module
then, that was followed, and where a plugin resolved it as external, the path that the plugin gave stands in its
place and is covered. -/
inductive LeavesToHost (s : Stager) (tree : FileTree) (base : Location) (followed : Location → Prop)
    (flagged : String → Prop) (module : Location) : Piece Mention → List Char → Prop
  | plain (c : Char) : LeavesToHost s tree base followed flagged module (.plain c) [c]
  | mention {found : Mention} {text : List Char} {placed : String} {now : FileTree} : Area s.root base tree now →
      (s.isExcluded (String.ofList found.specifier) = false →
        (∀ target, s.Leads now module (String.ofList found.specifier) target → followed target) ∧
        ∀ plugin resolution, s.IsResolved now module (String.ofList found.specifier) plugin resolution →
          resolution.external = true →
          placed = resolution.path ∧ ∃ pattern, flagged pattern ∧ Covers pattern resolution.path) →
      LeavesToHost s tree base followed flagged module (.hit found text) (found.withSpecifier text placed.toList)

theorem LeavesToHost.mono {followed followed' : Location → Prop} {flagged flagged' : String → Prop} {piece : Piece Mention}
    {text : List Char} (leaves : s.LeavesToHost tree base followed flagged module piece text)
    (more : ∀ target, followed target → followed' target) (more' : ∀ pattern, flagged pattern → flagged' pattern) :
    s.LeavesToHost tree base followed' flagged' module piece text := by
  cases leaves with
  | plain c => exact .plain c
  | mention area here =>
    refine .mention area fun included => ?_
    obtain ⟨leads, external⟩ := here included
    refine ⟨fun target led => more target (leads target led), fun plugin resolution resolved outside => ?_⟩
    obtain ⟨same, pattern, told, covers⟩ := external plugin resolution resolved outside
    exact ⟨same, pattern, more' pattern told, covers⟩

theorem IsResolved.way_eq {specifier : String} {way : Route} {plugin : Plugin} {resolution : Resolution}
    (resolved : s.IsResolved now module specifier plugin resolution) (included : s.isExcluded specifier = false)
    (outside : resolution.external = true) (goes : s.Goes now module specifier copy way) : way = .external resolution.path := by
  cases goes with
  | excluded excluded => simp [excluded] at included
  | package _ ordinary | nowhere _ ordinary | relative _ ordinary | absolute _ ordinary =>
    exact absurd resolved ordinary.not_isResolved
  | external _ resolved' => rw [(resolved.unique resolved').2]
  | payload _ resolved' inside | untouched _ resolved' inside | plugin _ resolved' inside =>
    rw [(resolved.unique resolved').2, inside] at outside
    cases outside

theorem Copies.leavesToHost (copied : s.copyOf module = .ok copy)
    (whole : ∀ found text, .hit found text ∈ list → found.withSpecifier text found.specifier = text)
    (copies : s.Copies base tree module copy state now list ways texts state' after) :
    List.Forall₂ (s.LeavesToHost tree base (· ∈ state'.queue) (· ∈ state'.staged.external) module) list texts := by
  induction copies with
  | nil => exact .nil
  | plain _ ih => exact .cons (.plain _) (ih fun found text mem => whole found text (List.mem_cons_of_mem _ mem))
  | @hit state between state' now files after found text importClass way answer rest ways texts area routed takes later ih =>
    refine .cons ?_ (ih fun found text mem => whole found text (List.mem_cons_of_mem _ mem))
    have goes := goes_of_route copied routed
    have placed : answer.elim text (fun new => found.withSpecifier text new.toList) =
        found.withSpecifier text (answer.getD (String.ofList found.specifier)).toList := by
      cases answer with
      | none => simpa using (whole found text List.mem_cons_self).symm
      | some new => rfl
    rw [placed]
    refine .mention area fun included => ⟨fun target leads => ?_, fun plugin resolution resolved outside => ?_⟩
    · obtain ⟨other, rfl⟩ := goes.module_iff.2 ⟨included, leads⟩
      refine later.queue_subset ?_
      rw [takes.queue]
      simp [target?]
    · obtain rfl := resolved.way_eq included outside goes
      cases takes with
      | external =>
        refine ⟨rfl, _, later.external_subset ?_, covers_externalPattern resolution.path⟩
        exact mem_withExternal _ _ (.inr rfl)

end Copies

/-! ## The record -/

/-- What a module holds as a text, as it was read when the module was staged. -/
def WasRead (s : Stager) (tree : FileTree) (base module : Location) (source : String) : Prop :=
  ∃ now, Area s.root base tree now ∧ HoldsText now (.ofLocation module) source

/-- The copy of a module stands at its names below the stage root and leaves the external imports to the host. -/
def CopyLeavesToHost (s : Stager) (tree now : FileTree) (base : Location) (followed : Location → Prop)
    (flagged : String → Prop) (module : Location) : Prop :=
  ∃ names source texts, module = s.project ++ names ∧ s.WasRead tree base module source ∧
    now.lookup (base ++ names) = some (.file (encode (String.ofList texts.flatten))) ∧
    List.Forall₂ (s.LeavesToHost tree base followed flagged module) (pieces mention none source.toList) texts

theorem CopyLeavesToHost.mono {followed followed' : Location → Prop} {flagged flagged' : String → Prop}
    (leaves : s.CopyLeavesToHost tree now base followed flagged module)
    (kept : ∀ names content, module = s.project ++ names → now.lookup (base ++ names) = some (.file content) →
      after.lookup (base ++ names) = some (.file content))
    (more : ∀ target, followed target → followed' target) (more' : ∀ pattern, flagged pattern → flagged' pattern) :
    s.CopyLeavesToHost tree after base followed' flagged' module := by
  obtain ⟨names, source, texts, whole, read, copied, alike⟩ := leaves
  refine ⟨names, source, texts, whole, read, kept names _ whole copied, alike.imp fun piece text here => ?_⟩
  exact here.mono more more'

section Visits

variable {visit : Visit} {state state' : StageState} (visits : s.Visits base tree state now visit state' after)

include visits

theorem Visits.external_subset : state.staged.external ⊆ state'.staged.external := by
  cases visits with
  | text _ _ _ copies => exact copies.external_subset
  | file => exact List.Subset.refl _

/-- The copy of a module that is staged leaves its external imports to the host. -/
theorem Visits.copyLeavesToHost (area : Area s.root base tree now) (scanned : isScanned visit.module = true) :
    s.CopyLeavesToHost tree after base (· ∈ state'.queue) (· ∈ state'.staged.external) visit.module := by
  cases visits with
  | file _ unscanned => simp [unscanned] at scanned
  | @text module parts source ways texts _ _ _ _ whole _ holds copies opens writes =>
    refine ⟨parts, source, texts, whole, ⟨now, area, holds⟩, by rw [writes.lookup, if_pos rfl], ?_⟩
    exact copies.leavesToHost (whole ▸ s.copyOf_project parts) fun found text mem => withSpecifier_self mem

end Visits

/-- The copies of the modules that were staged leave their external imports to the host. -/
theorem Records.copyLeavesToHost {record : List Visit} {state : StageState}
    (recorded : s.Records base tree entry record state now) :
    ∀ visit ∈ record, isScanned visit.module = true →
      s.CopyLeavesToHost tree now base (fun target => target ∈ record.map Visit.module ∨ target ∈ state.queue)
        (· ∈ state.staged.external) visit.module := by
  induction recorded with
  | start => simp
  | @visit record visit rest state state' now after _ area next visits ih =>
    refine List.forall_mem_cons.2 ⟨fun scanned => ?_, fun other mem scanned => ?_⟩
    · exact (visits.copyLeavesToHost area scanned).mono (fun _ _ _ here => here) (fun _ => .inr) fun _ noted => noted
    · refine (ih other mem scanned).mono (fun names content whole file => ?_)
        (fun _ => frontier_step next visits) fun _ noted => visits.external_subset noted
      refine visits.kept (whole ▸ scanned) (fun same => ?_) file
      exact head_not_mem next (List.mem_map.2 ⟨other, mem, whole.trans same.symm⟩)

/-- When staging succeeds, the entry point was staged and so was what the staged modules lead to, and the copy of
each holds for an external specifier the path that the plugin gave, which some argument of the bundler covers. -/
theorem stage_flags_externals (s : Stager) {tree : FileTree} {base : Location} (sound : tree.WellFormed)
    (project : tree.lookup s.project = some .directory)
    (leads : tree.follow s.root = .ok (.entry base .directory) ∨ tree.follow s.root = .ok (.vacant base))
    (unlinked : ∀ parts target, tree.lookup (base ++ parts) ≠ some (.link target)) (staged : Staged) (after : FileTree)
    (success : s.stage tree = (.ok staged, after)) (command : List String) (output : Location) :
    ∃ (entry : Location) (modules : List Location),
      s.resolveModule tree s.options.entryPoint = .ok (some entry) ∧ entry ∈ modules ∧ ∀ module ∈ modules, isScanned module = true →
        s.CopyLeavesToHost tree after base (· ∈ modules)
          (fun pattern => "--external:" ++ pattern ∈ BundlingCommand.buildArguments command s.options output staged)
          module := by
  obtain ⟨entry, record, state, resolved, recorded, -, done, rfl⟩ := exists_record s (.enter sound leads unlinked) project success
  refine ⟨entry, record.map Visit.module, resolved, ?_, fun module mem scanned => ?_⟩
  · exact recorded.entry_known.elim id (done entry)
  · obtain ⟨visit, staged, rfl⟩ := List.mem_map.1 mem
    refine (recorded.copyLeavesToHost visit staged scanned).mono (fun _ _ _ here => here) (fun target known => ?_)
      fun pattern noted => mem_buildArguments_of_external command s.options output noted
    exact known.elim id (done target)

/-- A module that imports a native one. -/
def nativeFiles : FileTree where
  entries := [(["p"], .directory), (["p", "main.js"], .file (encode "import './x.node';\n"))]
  workingDirectory := ["p"]

/-- A plugin that leaves native modules to the host, in a directory beside that of the bundle. -/
def nativePlugin : Plugin :=
  .custom {
    name := "native"
    importClass := .externalNative
    accepts := endsWith ".node"
    resolve := fun _ _ _ => .ok (some { path := "../native/x.node", external := true })
    load := fun _ _ => .ok none }

/-- The staging of that project. -/
def nativeStager : Stager :=
  ⟨["p"], .ofString "/p/stage",
    { entryPoint := .ofString "/p/main.js", outputFile := .ofString "/p/out.js", plugins := [nativePlugin] }⟩

theorem stage_flags_externals_native :
    nativeFiles.WellFormed ∧ ∃ staged after, nativeStager.stage nativeFiles = (.ok staged, after) ∧
      after.lookup ["p", "stage", "main.js"] = some (.file (encode "import '../native/x.node';\n")) ∧
      ∃ pattern, "--external:" ++ pattern ∈
          BundlingCommand.buildArguments ["esbuild"] nativeStager.options ["p", "out.js"] staged ∧
        Covers pattern "../native/x.node" := by
  have sound : nativeFiles.WellFormed := wellFormed_of_entries (by decide) rfl
  have done : (nativeStager.stage nativeFiles).1.toOption.isSome = true := by decide +kernel
  have start : nativeFiles.follow nativeStager.options.entryPoint =
      .ok (.entry ["p", "main.js"] (.file (encode "import './x.node';\n"))) := by decide +kernel
  have unlinked (parts : List String) (target : String) : nativeFiles.lookup (["p", "stage"] ++ parts) ≠ some (.link target) := by
    cases parts <;> simp [nativeFiles, FileTree.lookup, FileTree.find?]
  refine ⟨sound, ?_⟩
  cases staging : nativeStager.stage nativeFiles with
  | mk result after =>
    rw [staging] at done
    cases result with
    | error failure => cases done
    | ok staged =>
      obtain ⟨entry, modules, resolved, mem, copies⟩ := stage_flags_externals nativeStager sound rfl (.inr (by decide +kernel))
        unlinked staged after staging ["esbuild"] ["p", "out.js"]
      obtain rfl : ["p", "main.js"] = entry := by
        simpa [resolveModule, resolveModule_of_follow sound start] using resolved
      obtain ⟨names, source, texts, whole, ⟨now, area, holds⟩, copied, alike⟩ := copies _ mem (by decide)
      obtain rfl : ["main.js"] = names := List.append_cancel_left (show ["p"] ++ ["main.js"] = ["p"] ++ names from whole)
      obtain rfl : "import './x.node';\n" = source := by
        have read : moduleText? nativeFiles ["p", "main.js"] = some "import './x.node';\n" := by decide +kernel
        exact Option.some.inj (read.symm.trans (moduleText?_of_holds area (by decide) rfl holds))
      have cut : pieces mention none "import './x.node';\n".toList =
          [.hit ⟨'\'', "./x.node".toList⟩ "import './x.node'".toList, .plain ';', .plain '\n'] := by
        with_unfolding_all rfl
      rw [cut] at alike
      simp only [List.forall₂_cons_left_iff, List.forall₂_nil_left_iff] at alike
      obtain ⟨_, _, hit, ⟨_, _, ⟨⟩, ⟨_, _, ⟨⟩, rfl, rfl⟩, rfl⟩, rfl⟩ := alike
      cases hit with
      | @mention _ _ placed now _ here =>
      obtain ⟨-, external⟩ := here rfl
      obtain ⟨rfl, pattern, told, covers⟩ := external nativePlugin _ ⟨_, rfl, rfl, rfl⟩ rfl
      exact ⟨staged, after, rfl, copied, pattern, told, covers⟩

end Stager

end Bundling

end WasmPackaging
