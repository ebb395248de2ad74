import WasmPackaging.Proofs.Bundling.Graph

/-!
Staging mirrors what is reachable. The loop over the queue ends (`exists_ends`); one module more keeps the
account of what was staged (`Progress.step`), so when the loop ends the modules that were staged are the
reachable ones, and the files below the stage root are their copies and payloads
(`stage_mirrors_reachable`).
-/

namespace WasmPackaging.Bundling

open Text FileTree

namespace Stager

variable {s : Stager} {tree : FileTree} {base entry module : Location}

/-! ## The account of what was staged -/

theorem LeadsTo.resolved {target : Location} (leads : s.LeadsTo tree module target) :
    ∃ path, s.resolveModule tree path = .ok (some target) := by
  obtain ⟨specifier, -, -, leads⟩ := leads
  cases leads with
  | ordinary _ _ resolved | plugin _ _ _ resolved => exact ⟨_, resolved⟩

/-- What is reachable from a file is a file. -/
theorem IsReachable.file (sound : tree.WellFormed) (start : tree.HoldsFile entry)
    (reachable : s.IsReachable tree entry module) : tree.HoldsFile module := by
  cases reachable with
  | refl => exact start
  | tail _ leads =>
    obtain ⟨path, resolved⟩ := leads.resolved
    exact file_of_resolveModule sound resolved

/-- What was staged, once some modules were seen and some are queued. -/
structure Progress (s : Stager) (tree : FileTree) (base entry : Location) (seen queue : List Location)
    (now : FileTree) : Prop where
  area : Area s.root base tree now
  distinct : seen.Nodup
  seenReach : ∀ module ∈ seen, s.IsReachable tree entry module
  queueReach : ∀ module ∈ queue, s.IsReachable tree entry module
  entryFrontier : entry ∈ seen ∨ entry ∈ queue
  edgeFrontier : ∀ module ∈ seen, ∀ target, s.LeadsTo tree module target → target ∈ seen ∨ target ∈ queue
  inside : ∀ module ∈ seen, ∃ names, module = s.project ++ names
  grows : Grows base (fun parts => ∃ module ∈ seen, s.IsWrittenFor tree now base module parts)
    (fun parts => ∃ module ∈ seen, s.IsOpenedFor tree module parts) tree now

/-- What is known before staging: the project is a directory, nothing stands below the stage root, and what
comes to stand there has no say in where the reachable modules lead. -/
structure Setting (s : Stager) (tree : FileTree) (base entry : Location) : Prop where
  area : Area s.root base tree tree
  empty : ∀ name, tree.lookup (base ++ [name]) = none
  project : tree.lookup s.project = some .directory
  start : tree.HoldsFile entry
  blind : ∀ module, s.IsReachable tree entry module → s.IsBlind tree base module

namespace Setting

variable (setting : s.Setting tree base entry)

include setting

theorem file (reachable : s.IsReachable tree entry module) : tree.HoldsFile module :=
  reachable.file setting.area.sound setting.start

/-- No file stands at the stage root, nor below it. -/
theorem not_holdsFile (parts : List String) : ¬ tree.HoldsFile (base ++ parts) := by
  rintro ⟨content, file⟩
  by_cases root : parts = []
  · obtain free | free := setting.area.free <;> simp [root, free] at file
  · simp [setting.area.sound.vacant_of_empty setting.empty root] at file

theorem outside (reachable : s.IsReachable tree entry module) : Path.below? base module = none := by
  rw [Path.below?_eq_none_iff]
  rintro parts rfl
  exact setting.not_holdsFile parts (setting.file reachable)

theorem proper (reachable : s.IsReachable tree entry module) : s.Proper module := by
  obtain ⟨content, file⟩ := setting.file reachable
  exact proper_of_file setting.area.sound setting.project file

end Setting

namespace Progress

variable {seen queue rest : List Location} {state state' : StageState} {now after : FileTree}

theorem start (setting : s.Setting tree base entry) : s.Progress tree base entry [] [entry] tree where
  area := setting.area
  distinct := List.nodup_nil
  seenReach := by simp
  queueReach := by simpa using .refl
  entryFrontier := by simp
  edgeFrontier := by simp
  inside := by simp
  grows := (Grows.refl base tree).congr (by simp) (by simp)

/-- The next module is reachable, and what is queued behind it was queued. -/
theorem next_reach (progress : s.Progress tree base entry seen state.queue now)
    (next : state.queue.dropWhile seen.contains = module :: rest) :
    ∀ other ∈ module :: rest, s.IsReachable tree entry other :=
  fun other mem => progress.queueReach other ((List.dropWhile_suffix _).subset (next ▸ mem))

/-- A copy that was written stands where it stood once more is staged. -/
theorem isWrittenFor_iff (progress : s.Progress tree base entry seen queue now) {written opened : List String → Prop}
    (grows : Grows base written opened now after) (mem : module ∈ seen) (parts : List String) :
    s.IsWrittenFor tree now base module parts ↔ s.IsWrittenFor tree after base module parts := by
  obtain ⟨names, rfl⟩ := progress.inside module mem
  have copied := (progress.grows.file _).2 (.inr ⟨_, mem, .inl ⟨names, rfl, rfl⟩⟩)
  simp [IsWrittenFor, HasCopyAt, grows.landing_eq copied]

/-- One module more is staged. -/
theorem step (setting : s.Setting tree base entry) (progress : s.Progress tree base entry seen state.queue now)
    (next : state.queue.dropWhile seen.contains = module :: rest)
    (stages : s.Stages base tree module { state with queue := rest } now state' after)
    (area : Area s.root base tree after) :
    s.Progress tree base entry (module :: seen) state'.queue after := by
  have reach := progress.next_reach next
  have reachable := reach module List.mem_cons_self
  obtain ⟨content, file⟩ := setting.file reachable
  have blind := setting.blind module reachable
  have outside := setting.outside reachable
  have queued (target : Location) : target ∈ state'.queue ↔ s.LeadsTo tree module target ∨ target ∈ rest :=
    stages.mem_queue_iff blind progress.area outside file target
  have grows := stages.grows blind progress.area outside file
  have move {target : Location} (frontier : target ∈ seen ∨ target ∈ state.queue) :
      target ∈ module :: seen ∨ target ∈ state'.queue := by
    obtain old | waits := frontier
    · exact .inl (List.mem_cons_of_mem _ old)
    · obtain old | waits := mem_dropWhile_contains seen waits
      · exact .inl (List.mem_cons_of_mem _ old)
      · obtain rfl | behind := List.mem_cons.1 (next ▸ waits)
        · exact .inl List.mem_cons_self
        · exact .inr ((queued target).2 (.inr behind))
  constructor
  · exact area
  · exact List.nodup_cons.2 ⟨head_not_mem next, progress.distinct⟩
  · exact List.forall_mem_cons.2 ⟨reachable, progress.seenReach⟩
  · intro target mem
    obtain leads | behind := (queued target).1 mem
    · exact reachable.tail leads
    · exact reach target (List.mem_cons_of_mem _ behind)
  · exact move progress.entryFrontier
  · refine List.forall_mem_cons.2 ⟨fun target leads => .inr ((queued target).2 (.inl leads)), ?_⟩
    exact fun other old target leads => move (progress.edgeFrontier other old target leads)
  · exact List.forall_mem_cons.2 ⟨stages.exists_names, progress.inside⟩
  · refine (progress.grows.trans grows).congr (fun parts => ?_) fun parts => ?_
    · simp only [List.mem_cons, exists_eq_or_imp]
      rw [or_comm]
      refine or_congr_right (exists_congr fun other => and_congr_right fun old => ?_)
      exact progress.isWrittenFor_iff grows old parts
    · simp only [List.mem_cons, exists_eq_or_imp]
      rw [or_comm]

/-- When nothing is queued that was not seen, what was staged is what is reachable. -/
theorem reachable_iff (progress : s.Progress tree base entry seen queue now) (done : ∀ other ∈ queue, other ∈ seen)
    (module : Location) : s.IsReachable tree entry module ↔ module ∈ seen := by
  refine ⟨fun reachable => ?_, progress.seenReach module⟩
  induction reachable with
  | refl => exact progress.entryFrontier.elim id (done entry)
  | tail _ leads ih => exact (progress.edgeFrontier _ ih _ leads).elim id (done _)

end Progress

/-- One module more keeps a fact about the modules that were seen and the files. -/
def KeptByStep (s : Stager) (tree : FileTree) (base entry : Location) (P : List Location → FileTree → Prop) : Prop :=
  ∀ {seen rest : List Location} {module : Location} {state state' : StageState} {now after : FileTree},
    s.Progress tree base entry seen state.queue now → state.queue.dropWhile seen.contains = module :: rest →
    s.Stages base tree module { state with queue := rest } now state' after → P seen now → P (module :: seen) after

/-- What one module more keeps is kept by the whole loop, beside the account of what was staged. -/
theorem Drains.keeps (setting : s.Setting tree base entry) {P : List Location → FileTree → Prop}
    (step : s.KeptByStep tree base entry P) {seen : List Location} {state final : StageState} {now after : FileTree}
    (drains : s.Drains seen state now (.ok final) after) (progress : s.Progress tree base entry seen state.queue now)
    (holds : P seen now) :
    ∃ modules, s.Progress tree base entry modules final.queue after ∧ (∀ other ∈ final.queue, other ∈ modules) ∧
      P modules after := by
  generalize outcome : (.ok final : Except Failure StageState) = result at drains
  induction drains with
  | @done seen state now empty =>
    obtain rfl := Except.ok.inj outcome
    refine ⟨seen, progress, fun other mem => ?_, holds⟩
    simpa [empty] using mem_dropWhile_contains seen mem
  | failed => cases outcome
  | next next run _ ih =>
    have proper := setting.proper (progress.next_reach next _ List.mem_cons_self)
    obtain ⟨kept, stages⟩ := (stageModule_leaves progress.area proper _).of_ok run
    exact ih (progress.step setting next stages kept) (step progress next stages holds) outcome

/-! ## The files below the stage root -/

/-- Some payload is written. -/
def LoadsPayload (s : Stager) (tree : FileTree) (entry : Location) : Prop :=
  ∃ module place, s.IsReachable tree entry module ∧ s.HasPayloadAt tree module place

/-- The places of the copies of the reachable modules: each stands where its module stands in the project,
but a file with the name of the payload directory stands in that, if there is one. -/
inductive IsMirroredAt (s : Stager) (tree : FileTree) (entry : Location) : List String → Prop
  | mirror {names : List String} : s.IsReachable tree entry (s.project ++ names) →
      ¬ (names = [payloadName] ∧ s.LoadsPayload tree entry) → IsMirroredAt s tree entry names
  | displaced : s.IsReachable tree entry (s.project ++ [payloadName]) → s.LoadsPayload tree entry →
      IsMirroredAt s tree entry [payloadName, payloadName]

namespace Progress

variable {staged queue : List Location} {now : FileTree} {names : List String}

/-- A directory stands in the place of a copy only if that has the name of the payload directory. -/
theorem directory_iff (setting : s.Setting tree base entry) (progress : s.Progress tree base entry staged queue now)
    (done : ∀ other ∈ queue, other ∈ staged) (reachable : s.IsReachable tree entry (s.project ++ names)) :
    now.lookup (base ++ names) = some .directory ↔ names = [payloadName] ∧ s.LoadsPayload tree entry := by
  have filled := (setting.proper reachable names rfl).1
  rw [progress.grows.directory]
  constructor
  · rintro (there | ⟨module, mem, ⟨others, rfl, within⟩ | ⟨⟨place, payload⟩, within⟩⟩)
    · simp [setting.area.sound.vacant_of_empty setting.empty filled] at there
    · obtain ⟨rest, whole⟩ := within.trans (List.dropLast_prefix others)
      have deeper : rest ≠ [] := by
        rintro rfl
        have := within.length_le
        have := List.length_pos_iff.2 filled
        rw [← whole, List.append_nil, List.length_dropLast] at *
        omega
      obtain ⟨content, file⟩ := setting.file (progress.seenReach _ mem)
      have directory : tree.lookup (s.project ++ names) = some .directory :=
        setting.area.sound.above deeper (by simp [whole, file])
      exact absurd directory (setting.file reachable).not_directory
    · refine ⟨?_, module, place, progress.seenReach module mem, payload⟩
      simpa [filled] using List.prefix_concat_iff.1 (show names <+: [] ++ [payloadName] from within)
  · rintro ⟨rfl, module, place, reached, payload⟩
    exact .inr ⟨module, (progress.reachable_iff done module).1 reached, .inr ⟨⟨place, payload⟩, List.prefix_refl _⟩⟩

/-- Where the copy of a reachable module stands in the end. -/
theorem hasCopyAt_iff (setting : s.Setting tree base entry) (progress : s.Progress tree base entry staged queue now)
    (done : ∀ other ∈ queue, other ∈ staged) (parts : List String) :
    (∃ module ∈ staged, s.HasCopyAt now base module parts) ↔ s.IsMirroredAt tree entry parts := by
  constructor
  · rintro ⟨_, mem, names, rfl, rfl⟩
    have reachable := progress.seenReach _ mem
    by_cases directory : now.lookup (base ++ names) = some .directory
    · obtain ⟨rfl, payload⟩ := (progress.directory_iff setting done reachable).1 directory
      rw [landing_of_directory directory]
      simpa [Path.name, Path.ofLocation] using IsMirroredAt.displaced reachable payload
    · rw [landing_of_not_directory directory]
      exact .mirror reachable (mt (progress.directory_iff setting done reachable).2 directory)
  · rintro (⟨reachable, plain⟩ | ⟨reachable, payload⟩)
    · have directory := mt (progress.directory_iff setting done reachable).1 plain
      exact ⟨_, (progress.reachable_iff done _).1 reachable, _, rfl, (landing_of_not_directory directory).symm⟩
    · have directory := (progress.directory_iff setting done reachable).2 ⟨rfl, payload⟩
      refine ⟨_, (progress.reachable_iff done _).1 reachable, _, rfl, ?_⟩
      rw [landing_of_directory directory]
      simp [Path.name, Path.ofLocation]

/-- The files that were staged are the copies of the reachable modules and their payloads. -/
theorem holdsFile_iff (setting : s.Setting tree base entry) (progress : s.Progress tree base entry staged queue now)
    (done : ∀ other ∈ queue, other ∈ staged) (parts : List String) :
    now.HoldsFile (base ++ parts) ↔ s.IsMirroredAt tree entry parts ∨
      ∃ module, s.IsReachable tree entry module ∧ s.HasPayloadAt tree module parts := by
  rw [progress.grows.file, ← progress.hasCopyAt_iff setting done]
  simp [setting.not_holdsFile, IsWrittenFor, and_or_left, exists_or, progress.reachable_iff done]

end Progress

theorem setting_of_resolved (sound : tree.WellFormed) (project : tree.lookup s.project = some .directory)
    (leads : tree.follow s.root = .ok (.entry base .directory) ∨ tree.follow s.root = .ok (.vacant base))
    (empty : ∀ name, tree.lookup (base ++ [name]) = none)
    (blind : ∀ entry module, s.resolveModule tree s.options.entryPoint = .ok (some entry) →
      s.IsReachable tree entry module → s.IsBlind tree base module)
    (entry : Location) (resolved : s.resolveModule tree s.options.entryPoint = .ok (some entry)) :
    s.Setting tree base entry where
  area := .start sound leads empty
  empty := empty
  project := project
  start := file_of_resolveModule sound resolved
  blind := fun module => blind entry module resolved

section stage

variable (setting : ∀ entry, s.resolveModule tree s.options.entryPoint = .ok (some entry) → s.Setting tree base entry)

include setting

/-- When staging succeeds, what was staged is accounted for, nothing is queued that was not staged, and what
one module more keeps was kept. -/
theorem Ends.keeps {P : List Location → FileTree → Prop}
    (step : ∀ entry, s.resolveModule tree s.options.entryPoint = .ok (some entry) → s.KeptByStep tree base entry P)
    (holds : P [] tree)
    {staged : Staged} {after : FileTree} (ends : s.Ends tree (.ok staged) after) :
    ∃ entry modules queue, s.resolveModule tree s.options.entryPoint = .ok (some entry) ∧
      s.Progress tree base entry modules queue after ∧ (∀ other ∈ queue, other ∈ modules) ∧ P modules after := by
  generalize outcome : (.ok staged : Except Failure Staged) = result at ends
  cases ends with
  | unresolved | missing | outside => cases outcome
  | @drained entry copy result after resolved copied drains =>
    cases result with
    | error failure => cases outcome
    | ok final =>
      have known := setting entry resolved
      obtain ⟨modules, progress, done, kept⟩ := drains.keeps known (step entry resolved) (.start known) holds
      exact ⟨entry, modules, final.queue, resolved, progress, done, kept⟩

end stage

/-- Staging ends, and when it succeeds, the files below the stage root are the copies of the modules that
are reachable from the entry point, and payload files. -/
theorem stage_mirrors_reachable (s : Stager) {tree : FileTree} {base : Location} (sound : tree.WellFormed)
    (project : tree.lookup s.project = some .directory)
    (leads : tree.follow s.root = .ok (.entry base .directory) ∨ tree.follow s.root = .ok (.vacant base))
    (empty : ∀ name, tree.lookup (base ++ [name]) = none)
    (blind : ∀ entry module, s.resolveModule tree s.options.entryPoint = .ok (some entry) →
      s.IsReachable tree entry module → s.IsBlind tree base module) :
    (∃ result after, s.Ends tree result after ∧ s.stage tree = (result, after)) ∧
      ∀ staged after, s.stage tree = (.ok staged, after) →
        ∃ entry, s.resolveModule tree s.options.entryPoint = .ok (some entry) ∧
          (∀ module, s.IsReachable tree entry module → ∃ names, module = s.project ++ names) ∧
          (∀ parts target, after.lookup (base ++ parts) ≠ some (.link target)) ∧
          ∀ parts, after.HoldsFile (base ++ parts) ↔ s.IsMirroredAt tree entry parts ∨
            ∃ module, s.IsReachable tree entry module ∧ s.HasPayloadAt tree module parts := by
  have setting := setting_of_resolved sound project leads empty blind
  obtain ⟨result, last, ends, staging⟩ := s.exists_ends tree
  refine ⟨⟨result, last, ends, staging⟩, fun staged after done => ?_⟩
  obtain ⟨rfl, rfl⟩ := Prod.mk.inj (staging.symm.trans done)
  obtain ⟨entry, modules, queue, resolved, progress, all, -⟩ :=
    ends.keeps setting (P := fun _ _ => True) (fun _ _ => by simp [KeptByStep]) trivial
  refine ⟨entry, resolved, fun module reachable => ?_, progress.area.unlinked, fun parts => ?_⟩
  · exact progress.inside module ((progress.reachable_iff all module).1 reachable)
  · exact progress.holdsFile_iff (setting entry resolved) all parts

/-- Two modules that import each other, and one that nothing leads to. -/
def cycleFiles : FileTree where
  entries := [(["p"], .directory), (["p", "main.js"], .file (encode "import './b.js';\n")),
    (["p", "b.js"], .file (encode "import './main.js';\n")), (["p", "c.js"], .file (encode "export {};\n"))]
  workingDirectory := ["p"]

/-- The staging of the cycle. -/
def cycleStager : Stager :=
  ⟨["p"], .ofString "/p/stage", { entryPoint := .ofString "/p/main.js", outputFile := .ofString "/p/out.js" }⟩

theorem spellsFile_cycle {module : Location} {specifier : String} (mem : specifier ∈ scannedSpecifiers cycleFiles module) :
    cycleStager.SpellsFile cycleFiles ["p", "stage"] module specifier := by
  obtain ⟨content, listed⟩ := mem_entries_of_mem_scannedSpecifiers mem
  have spells (location : Location) (named : (directoryOf module).child specifier = .ofLocation location)
      (file : cycleFiles.HoldsFile location) (fine : (∀ name ∈ location, IsStep name) ∧
        pathFault? (.ofLocation location) = none ∧ Path.below? ["p", "stage"] location = none) :
      cycleStager.SpellsFile cycleFiles ["p", "stage"] module specifier :=
    ⟨.ordinaryModule, location, rfl, named, file, fine⟩
  simp only [cycleFiles, List.mem_cons, Prod.mk.injEq, reduceCtorEq, and_false, false_or, List.not_mem_nil, or_false] at listed
  obtain ⟨rfl, -⟩ | ⟨rfl, -⟩ | ⟨rfl, -⟩ := listed
  · have all : scannedSpecifiers cycleFiles ["p", "main.js"] = ["./b.js"] := by decide +kernel
    obtain rfl : specifier = "./b.js" := by simpa [all] using mem
    exact spells ["p", "b.js"] (by decide) ⟨_, rfl⟩ (by decide)
  · have all : scannedSpecifiers cycleFiles ["p", "b.js"] = ["./main.js"] := by decide +kernel
    obtain rfl : specifier = "./main.js" := by simpa [all] using mem
    exact spells ["p", "main.js"] (by decide) ⟨_, rfl⟩ (by decide)
  · have all : scannedSpecifiers cycleFiles ["p", "c.js"] = [] := by decide +kernel
    simp [all] at mem

theorem stage_mirrors_reachable_cycle :
    cycleFiles.WellFormed ∧ (cycleStager.stage cycleFiles).1.toOption.isSome = true ∧
      ∃ entry, cycleStager.resolveModule cycleFiles cycleStager.options.entryPoint = .ok (some entry) ∧
        cycleStager.IsMirroredAt cycleFiles entry ["b.js"] ∧ ¬ cycleStager.IsMirroredAt cycleFiles entry ["c.js"] := by
  have sound : cycleFiles.WellFormed := wellFormed_of_entries (by decide) rfl
  have done : (cycleStager.stage cycleFiles).1.toOption.isSome = true := by decide +kernel
  have copied : (cycleStager.stage cycleFiles).2.lookup ["p", "stage", "b.js"] =
      some (.file (encode "import './main.js';\n")) := by decide +kernel
  have missing : (cycleStager.stage cycleFiles).2.lookup ["p", "stage", "c.js"] = none := by decide +kernel
  have empty (name : String) : cycleFiles.lookup (["p", "stage"] ++ [name]) = none := rfl
  refine ⟨sound, done, ?_⟩
  obtain ⟨-, mirrors⟩ := stage_mirrors_reachable cycleStager sound rfl (.inr (by decide +kernel)) empty
    fun entry module _ _ => isBlind_of_spellsFile sound fun specifier => spellsFile_cycle
  cases staging : cycleStager.stage cycleFiles with
  | mk result after =>
    rw [staging] at done copied missing
    cases result with
    | error failure => cases done
    | ok staged =>
      obtain ⟨entry, resolved, -, -, files⟩ := mirrors staged after staging
      refine ⟨entry, resolved, ?_, fun mirrored => ?_⟩
      · obtain mirrored | ⟨module, -, payload⟩ := (files ["b.js"]).1 ⟨_, copied⟩
        · exact mirrored
        · obtain ⟨name, same⟩ := payload.exists_name
          simp at same
      · obtain ⟨content, file⟩ := (files ["c.js"]).2 (.inl mirrored)
        simp [missing] at file

/-- A project with a file that has the name of the payload directory, and a payload. -/
def displacedFiles : FileTree where
  entries := [(["p"], .directory), (["p", "main.js"], .file (encode "import './__payloads__';\nimport './p.wasm';\n")),
    (["p", "__payloads__"], .file (encode "x")), (["p", "p.wasm"], .file (encode "y"))]
  workingDirectory := ["p"]

/-- The staging of that project. -/
def displacedStager : Stager :=
  ⟨["p"], .ofString "/p/stage",
    { entryPoint := .ofString "/p/main.js", outputFile := .ofString "/p/out.js", plugins := [.binary ".wasm"] }⟩

/-- Its file is reachable and staging succeeds, but the copy does not stand where the file stands in the
project. -/
theorem stage_displaces_copy :
    displacedFiles.WellFormed ∧ (displacedStager.stage displacedFiles).1.toOption.isSome = true ∧
      displacedStager.IsReachable displacedFiles ["p", "main.js"] ["p", "__payloads__"] ∧
      ¬ (displacedStager.stage displacedFiles).2.HoldsFile ["p", "stage", "__payloads__"] ∧
      (displacedStager.stage displacedFiles).2.HoldsFile ["p", "stage", "__payloads__", "__payloads__"] := by
  refine ⟨wellFormed_of_entries (by decide) rfl, by decide +kernel, .single ?_, ?_, encode "x", by decide +kernel⟩
  · have scanned : scannedSpecifiers displacedFiles ["p", "main.js"] = ["./__payloads__", "./p.wasm"] := by decide +kernel
    have leads : displacedFiles.follow (.ofLocation ["p", "__payloads__"]) =
        .ok (.entry ["p", "__payloads__"] (.file (encode "x"))) := by decide +kernel
    refine ⟨"./__payloads__", by simp [scanned], rfl, .ordinary ⟨⟨.ordinaryModule, none⟩, rfl, by simp⟩ rfl ?_⟩
    exact resolveModule_of_follow (wellFormed_of_entries (by decide) rfl) leads
  · have directory : (displacedStager.stage displacedFiles).2.lookup ["p", "stage", "__payloads__"] = some .directory := by
      decide +kernel
    rintro ⟨content, file⟩
    simp [directory] at file

end Stager

end WasmPackaging.Bundling
