import Mathlib.Data.List.TakeWhile
import WasmPackaging.Proofs.Bundling.Routes
import WasmPackaging.Proofs.FileTree.Area
import WasmPackaging.Proofs.FileTree.Fitting

/-!
What each part of staging does. When a part ends without a failure, it did what a relation says with one
case for each kind of step (`Takes`, `Copies`, `Stages`); however it ends, nothing outside the stage root
was changed. The loop over the queue ends before its bound is met, since each module is staged once and
there are finitely many paths that can be looked up (`stageQueue_drains`).
-/

namespace WasmPackaging.Bundling

open Text FileTree

namespace Stager

/-- The state with the class of a specifier noted. -/
def withClass (specifier : String) : Option ImportClass → StageState → StageState
  | none, state => state
  | some importClass, state =>
    { state with staged.classes := setKey specifier importClass state.staged.classes }

/-- The state with the pattern of an external path noted, once. -/
def withExternal (path : String) (state : StageState) : StageState :=
  let pattern := String.ofList (Specifier.externalPattern path.toList)
  if state.staged.external.contains pattern then state
  else { state with staged.external := state.staged.external ++ [pattern] }

/-- A specifier in a module with a given copy is taken its way: what stands in its place afterwards, if
that changes, and the state and the files afterwards. -/
inductive Takes (s : Stager) (base : Location) (copy : Path) (state : StageState) (now : FileTree) :
    Route → Option String → StageState → FileTree → Prop
  | keep : Takes s base copy state now .keep none state now
  | external {path : String} :
      Takes s base copy state now (.external path) (some path) (withExternal path state) now
  | payload {source : Path} {loaded : Loaded} {suffix : String} {between after : FileTree} :
      payloadSuffixes.lookup loaded.loader = some suffix → OpensTo base [payloadName] now between →
      WritesTo base (payloadPlace source loaded suffix) loaded.content.toBytes between after →
      Takes s base copy state now (.payload source loaded)
        (some (specifierTo after (s.root.under (payloadPlace source loaded suffix)) copy.parent))
        { state with staged.loaders := setKey suffix loaded.loader state.staged.loaders } after
  | module {location : Location} {text : Option String} :
      Takes s base copy state now (.module location text) text
        { state with queue := location :: state.queue } now

/-- The pieces of a module are copied, from left to right; each mention goes a way that was computed for it
while nothing outside the stage root was changed. -/
inductive Copies (s : Stager) (base : Location) (before : FileTree) (module : Location) (copy : Path) :
    StageState → FileTree → List (Piece Mention) → List (Mention × Route) → List (List Char) →
      StageState → FileTree → Prop
  | nil {state : StageState} {now : FileTree} : Copies s base before module copy state now [] [] [] state now
  | plain {state state' : StageState} {now after : FileTree} {c : Char} {rest : List (Piece Mention)}
      {ways : List (Mention × Route)} {texts : List (List Char)} :
      Copies s base before module copy state now rest ways texts state' after →
      Copies s base before module copy state now (.plain c :: rest) ways ([c] :: texts) state' after
  | hit {state between state' : StageState} {now files after : FileTree} {found : Mention} {text : List Char}
      {importClass : Option ImportClass} {way : Route} {answer : Option String} {rest : List (Piece Mention)}
      {ways : List (Mention × Route)} {texts : List (List Char)} : Area s.root base before now →
      s.route now module (String.ofList found.specifier) = .ok (importClass, way) →
      Takes s base copy (withClass (String.ofList found.specifier) importClass state) now way answer between files →
      Copies s base before module copy between files rest ways texts state' after →
      Copies s base before module copy state now (.hit found text :: rest) ((found, way) :: ways)
        ((answer.elim text fun new => found.withSpecifier text new.toList) :: texts) state' after

/-- A path leads to a file that holds a text. -/
def HoldsText (tree : FileTree) (path : Path) (source : String) : Prop :=
  ∃ bytes text, tree.read path = .ok bytes ∧ decode bytes = .ok text ∧
    source = String.ofList (plainNewlines text)

/-- A module is staged: its specifiers are followed and its copy is written, or it is copied as it is. -/
inductive Stages (s : Stager) (base : Location) (before : FileTree) (module : Location) (state : StageState)
    (now : FileTree) : StageState → FileTree → Prop
  | text {parts : List String} {source : String} {ways : List (Mention × Route)} {texts : List (List Char)}
      {state' : StageState} {copied opened after : FileTree} : module = s.project ++ parts → isScanned module = true →
      HoldsText now (.ofLocation module) source →
      Copies s base before module (s.root.under parts) state now (pieces mention none source.toList) ways texts
        state' copied →
      OpensTo base parts.dropLast copied opened →
      WritesTo base parts (encode (String.ofList texts.flatten)) opened after →
      Stages s base before module state now state' after
  | file {parts : List String} {content : Bytes} {opened after : FileTree} : module = s.project ++ parts →
      isScanned module = false → OpensTo base parts.dropLast now opened → Area s.root base before opened →
      opened.read (.ofLocation module) = .ok content →
      WritesTo base (landing opened base parts (Path.ofLocation module).name) content opened after →
      Stages s base before module state now state after

variable {s : Stager} {base : Location} {before now : FileTree}

theorem writePayload_leaves (area : Area s.root base before now) {source : Path} (plain : IsPlain source)
    (loaded : Loaded) (state : StageState) :
    Leaves ((s.writePayload source loaded).run state) now
      (fun result after => Area s.root base before after ∧ ∃ suffix between,
        payloadSuffixes.lookup loaded.loader = some suffix ∧
        result = (s.root.under (payloadPlace source loaded suffix),
          { state with staged.loaders := setKey suffix loaded.loader state.staged.loaders }) ∧
        OpensTo base [payloadName] now between ∧
        WritesTo base (payloadPlace source loaded suffix) loaded.content.toBytes between after)
      (Area s.root base before) := by
  unfold writePayload
  split
  · exact .throw area
  · next suffix known =>
    have written := area.writeBytes (areNames_payloadPlace plain loaded known) (by simp [payloadPlace])
      loaded.content.toBytes
    simp only [s.payloadFile_eq plain loaded known]
    refine .runBind (.runLift (.adapt (written.mono ?_ fun _ h => h)))
    rintro _ after ⟨kept, between, opens, writes⟩
    exact .runBind (.runModify (.runPure ⟨kept, suffix, between, known, rfl, opens, writes⟩))

theorem noteClass_leaves {specifier : String} {importClass : Option ImportClass} {state : StageState}
    {done : Unit × StageState → FileTree → Prop} {failed : FileTree → Prop}
    (holds : done ((), withClass specifier importClass state) now) :
    Leaves ((noteClass specifier importClass).run state) now done failed := by
  cases importClass with
  | none => exact .runPure holds
  | some importClass => exact .runModify holds

/-- Following a way does what it says, in the area. -/
theorem follow_leaves (area : Area s.root base before now) {module : Location} {specifier : String} {copy : Path}
    {way : Route} {tree : FileTree} (goes : s.Goes tree module specifier copy way) (state : StageState) :
    Leaves ((s.follow copy way).run state) now
      (fun result after => Area s.root base before after ∧ s.Takes base copy state now way result.1 result.2 after)
      (Area s.root base before) := by
  cases way with
  | keep => exact .runPure ⟨area, .keep⟩
  | external path => exact .runBind (.runModify (.runPure ⟨area, .external⟩))
  | payload source loaded =>
    refine .runBind ((writePayload_leaves area goes.isPlain loaded state).mono ?_ fun _ h => h)
    rintro _ after ⟨kept, suffix, between, known, rfl, opens, writes⟩
    exact .runBind (.runLift (.read (.runPure ⟨kept, .payload known opens writes⟩)))
  | module location text => exact .runBind (.runModify (.runPure ⟨area, .module⟩))

section module

variable {module : Location} {copy : Path}

/-- A piece of a module is copied in the area. -/
theorem copyPiece_leaves (area : Area s.root base before now) (copied : s.copyOf module = .ok copy)
    {piece : Piece Mention} (rest : List (Piece Mention)) {state : StageState}
    {done : List Char × StageState → FileTree → Prop}
    (next : ∀ result after, Area s.root base before after →
      (∀ ways texts state' last, s.Copies base before module copy result.2 after rest ways texts state' last →
        ∃ ways, s.Copies base before module copy state now (piece :: rest) ways (result.1 :: texts) state' last) →
      done result after) :
    Leaves ((s.copyPiece module copy piece).run state) now done (Area s.root base before) := by
  cases piece with
  | plain c => exact .runPure (next ([c], state) now area fun ways texts state' last rest => ⟨ways, .plain rest⟩)
  | hit found text =>
    unfold copyPiece
    refine .runBind (.runLift (.read ?_))
    split
    · exact .runThrow area
    · next importClass way routed =>
      have goes := goes_of_route copied routed
      refine .runBind (noteClass_leaves ?_)
      refine .runBind ((follow_leaves area goes _).mono ?_ fun _ h => h)
      rintro ⟨answer, state'⟩ after ⟨kept, takes⟩
      cases answer with
      | none =>
        exact .runPure (next (text, state') after kept fun _ _ _ _ rest => ⟨_, .hit area routed takes rest⟩)
      | some new =>
        exact .runPure (next (found.withSpecifier text new.toList, state') after kept
          fun _ _ _ _ rest => ⟨_, .hit area routed takes rest⟩)

/-- The pieces of a module are copied in the area. -/
theorem copyPieces_leaves (area : Area s.root base before now) (copied : s.copyOf module = .ok copy)
    (list : List (Piece Mention)) (state : StageState) :
    Leaves ((list.mapM (s.copyPiece module copy)).run state) now
      (fun result after => Area s.root base before after ∧
        ∃ ways, s.Copies base before module copy state now list ways result.1 result.2 after)
      (Area s.root base before) := by
  induction list generalizing state now with
  | nil =>
    rw [List.mapM_nil]
    exact .runPure ⟨area, [], .nil⟩
  | cons piece rest ih =>
    rw [List.mapM_cons]
    refine .runBind (copyPiece_leaves area copied rest fun result between kept whole => ?_)
    refine .runBind ((ih kept result.2).mono (fun result' after ⟨kept', ways, copies⟩ => ?_) fun _ h => h)
    exact .runPure ⟨kept', whole _ _ _ _ copies⟩

theorem readText_leaves (now : FileTree) (path : Path) :
    Leaves (FileRun.readText path) now (fun source after => after = now ∧ HoldsText now path source)
      (fun after => after = now) := by
  unfold FileRun.readText FileRun.readBytes FileRun.askFor
  refine .bind (.get ?_)
  split
  · next bytes read =>
    refine .pure ?_
    split
    · next text decoded => exact .pure ⟨rfl, bytes, text, read, decoded, rfl⟩
    · exact .throw rfl
  · exact .throw rfl

/-- A module has its copy at names below the stage root, if it has one. -/
def Proper (s : Stager) (module : Location) : Prop :=
  ∀ parts, module = s.project ++ parts → parts ≠ [] ∧ AreNames parts

/-- A file is proper as a module of a project that is a directory. -/
theorem proper_of_file {tree : FileTree} {module : Location} {content : Bytes} (sound : tree.WellFormed)
    (project : tree.lookup s.project = some .directory) (file : tree.lookup module = some (.file content)) :
    s.Proper module := by
  rintro parts rfl
  have named : AreNames (s.project ++ parts) := sound.areNames (by simp [file])
  refine ⟨?_, (areNames_append.1 named).2⟩
  rintro rfl
  simp [project] at file

/-- A module whose copy has a name below the stage root is staged in the area. -/
theorem stageModule_leaves (area : Area s.root base before now)
    (proper : s.Proper module) (state : StageState) :
    Leaves ((s.stageModule module).run state) now
      (fun result after => Area s.root base before after ∧ s.Stages base before module state now result.2 after)
      (Area s.root base before) := by
  unfold stageModule
  split
  · exact .runThrow area
  · next copy copied =>
    obtain ⟨parts, whole, rfl⟩ := s.copyOf_eq_ok_iff.1 copied
    obtain ⟨filled, named⟩ := proper parts whole
    by_cases scanned : isScanned module = true
    · have found : scannedSuffixes.contains (Path.ofLocation module).suffix = true := scanned
      simp only [found, if_true]
      unfold stageText
      refine .runBind (.runLift (.adapt ((readText_leaves now _).mono ?_ fun after same => same ▸ area)))
      rintro source after ⟨rfl, holds⟩
      refine .runBind ((copyPieces_leaves area copied _ state).mono (fun result after ⟨kept, ways, copies⟩ => ?_) fun _ h => h)
      refine .runLift (.adapt ((kept.writeBytes named filled _).mono ?_ fun _ h => h))
      rintro _ last ⟨kept', between, opens, writes⟩
      exact ⟨kept', .text whole scanned holds copies opens writes⟩
    · have unfound : ¬ scannedSuffixes.contains (Path.ofLocation module).suffix = true := scanned
      have unscanned : isScanned module = false := by simpa using scanned
      simp only [unfound]
      have valid : IsEntryName (Path.ofLocation module).name := by
        obtain ⟨name, last, same⟩ := exists_name_ofLocation s.project filled
        rw [whole, same]
        exact named name (List.mem_of_getLast? last)
      refine .runLift (.adapt (.bind (.adapt ?_)))
      rw [Path.parent_under s.root filled]
      refine (area.ensureDirectory named.dropLast).mono (fun _ opened ⟨kept, opens⟩ => ?_) fun _ h => h
      refine .adapt ((kept.copyFile named filled valid).mono ?_ fun _ h => h)
      rintro _ after ⟨kept', content, read, writes⟩
      exact ⟨kept', .file whole unscanned opens kept read writes⟩

end module

/-! ## What is queued -/

/-- The module that a way leads to. -/
def target? : Route → Option Location
  | .module location _ => some location
  | _ => none

@[simp] theorem withClass_queue (specifier : String) (importClass : Option ImportClass) (state : StageState) :
    (withClass specifier importClass state).queue = state.queue := by cases importClass <;> rfl

@[simp] theorem withExternal_queue (path : String) (state : StageState) :
    (withExternal path state).queue = state.queue := by
  unfold withExternal
  simp only
  split <;> rfl

theorem Takes.queue {copy : Path} {state state' : StageState} {way : Route} {answer : Option String}
    {after : FileTree} (takes : s.Takes base copy state now way answer state' after) :
    state'.queue = (target? way).toList ++ state.queue := by
  cases takes <;> simp [target?]

section Copies

variable {module : Location} {copy : Path} {state state' : StageState} {after : FileTree}
  {list : List (Piece Mention)} {ways : List (Mention × Route)} {texts : List (List Char)}

/-- The modules that the ways lead to are queued, the last one first. -/
theorem Copies.queue (copies : s.Copies base before module copy state now list ways texts state' after) :
    state'.queue = (ways.filterMap fun way => target? way.2).reverse ++ state.queue := by
  induction copies with
  | nil => rfl
  | plain _ ih => exact ih
  | @hit state between state' now files after found text importClass way answer rest ways texts area routed takes
      copies ih =>
    rw [ih, takes.queue, withClass_queue]
    cases h : target? way <;> simp [h]

/-- Every way was computed while nothing outside the stage root was changed. -/
theorem Copies.routed (copies : s.Copies base before module copy state now list ways texts state' after) :
    ∀ way ∈ ways, ∃ files importClass, Area s.root base before files ∧
      s.route files module (String.ofList way.1.specifier) = .ok (importClass, way.2) := by
  induction copies with
  | nil => simp
  | plain _ ih => exact ih
  | hit area routed _ _ ih => exact List.forall_mem_cons.2 ⟨⟨_, _, area, routed⟩, ih⟩

end Copies

/-! ## The queue -/

section stageQueue

variable (s : Stager) {limit : Nat} {seen rest : List Location} {module : Location} {state : StageState}

theorem stageQueue_done (limit : Nat) (done : state.queue.dropWhile seen.contains = []) :
    (s.stageQueue limit seen).run state = pure ((), state) := by
  rw [stageQueue]
  simp [done]

theorem stageQueue_zero (next : state.queue.dropWhile seen.contains = module :: rest) :
    (s.stageQueue 0 seen).run state =
      throw .unfinished := by
  rw [stageQueue]
  simp [next]

theorem stageQueue_succ (next : state.queue.dropWhile seen.contains = module :: rest) :
    (s.stageQueue (limit + 1) seen).run state =
      (do
        let result ← (s.stageModule module).run { state with queue := rest }
        (s.stageQueue limit (module :: seen)).run result.2) := by
  rw [stageQueue]
  simp [next]

end stageQueue

/-! ## The loop without a bound -/

/-- The loop over the queue: the modules that were not seen are staged, the last queued first, until there
is none or one fails. -/
inductive Drains (s : Stager) : List Location → StageState → FileTree → Except Failure StageState → FileTree → Prop
  | done {seen : List Location} {state : StageState} {now : FileTree} :
      state.queue.dropWhile seen.contains = [] → Drains s seen state now (.ok state) now
  | failed {seen rest : List Location} {module : Location} {state : StageState} {now after : FileTree} {failure : Failure} :
      state.queue.dropWhile seen.contains = module :: rest →
      (s.stageModule module).run { state with queue := rest } now = (.error failure, after) →
      Drains s seen state now (.error failure) after
  | next {seen rest : List Location} {module : Location} {state between : StageState} {now mid after : FileTree}
      {result : Except Failure StageState} : state.queue.dropWhile seen.contains = module :: rest →
      (s.stageModule module).run { state with queue := rest } now = (.ok ((), between), mid) →
      Drains s (module :: seen) between mid result after → Drains s seen state now result after

/-- Staging without a bound on the number of modules. -/
inductive Ends (s : Stager) (tree : FileTree) : Except Failure Staged → FileTree → Prop
  | unresolved {failure : Failure} : s.resolveModule tree s.options.entryPoint = .error failure →
      Ends s tree (.error failure) tree
  | missing : s.resolveModule tree s.options.entryPoint = .ok none →
      Ends s tree (.error (.action "resolve entry point" s.options.entryPoint.toString none)) tree
  | outside {entry : Location} {failure : Failure} : s.resolveModule tree s.options.entryPoint = .ok (some entry) →
      s.copyOf entry = .error failure → Ends s tree (.error failure) tree
  | drained {entry : Location} {copy : Path} {result : Except Failure StageState} {after : FileTree} :
      s.resolveModule tree s.options.entryPoint = .ok (some entry) → s.copyOf entry = .ok copy →
      Drains s [] ⟨{ root := s.root, entryPoint := copy }, [entry]⟩ tree result after →
      Ends s tree (result.map (·.staged)) after

theorem mem_dropWhile_contains {α : Type} [BEq α] [LawfulBEq α] (seen : List α) {queue : List α} {a : α} (mem : a ∈ queue) :
    a ∈ seen ∨ a ∈ queue.dropWhile seen.contains := by
  rw [← queue.takeWhile_append_dropWhile (p := seen.contains), List.mem_append] at mem
  refine mem.imp_left fun skipped => ?_
  simpa using List.mem_takeWhile_imp skipped

theorem head_not_mem {α : Type} [BEq α] [LawfulBEq α] {seen queue rest : List α} {a : α}
    (next : queue.dropWhile seen.contains = a :: rest) : a ∉ seen := by
  have unseen := List.head?_dropWhile_not seen.contains queue
  simpa [next] using unseen

/-- A module that was staged has a path that can be looked up. -/
theorem stageModule_fine (s : Stager) (module : Location) (state : StageState) (now : FileTree) :
    Leaves ((s.stageModule module).run state) now (fun _ _ => pathFault? (.ofLocation module) = none) fun _ => True := by
  have fine {tree : FileTree} {content : Bytes} (read : tree.read (.ofLocation module) = .ok content) :
      pathFault? (.ofLocation module) = none := by
    obtain ⟨place, leads⟩ := read_eq_ok_iff.1 read
    unfold FileTree.follow at leads
    split at leads
    · cases leads
    · assumption
  unfold stageModule
  split
  · exact .runThrow trivial
  · next copy _ =>
    dsimp only
    split
    · refine .runBind (.runLift (.adapt ((readText_leaves now _).mono ?_ fun _ _ => trivial)))
      rintro source _ ⟨-, bytes, -, read, -⟩
      exact .of_ends fun _ _ _ => fine read
    · refine .runLift (.adapt (.bind ((Leaves.of_ends fun _ _ _ => trivial).mono ?_ fun _ _ => trivial)))
      intro _ between _
      refine .adapt (.get ?_)
      generalize (if between.isDirectory copy = true then copy.child (Path.ofLocation module).name else copy) = target
      cases between.isSame (.ofLocation module) target with
      | true => exact .bind (.throw trivial)
      | false =>
        simp only []
        split
        · exact .throw trivial
        · next content read => exact .of_ends fun _ _ _ => fine read

/-- The loop ends before its bound is met: the modules that were staged have paths that can be looked up, and no two
are the same. -/
theorem stageQueue_drains (s : Stager) (limit : Nat) {seen : List Location} (state : StageState) (now : FileTree)
    (distinct : seen.Nodup) (fine : ∀ module ∈ seen, pathFault? (.ofLocation module) = none)
    (enough : moduleLimit ≤ limit + seen.length) :
    ∃ result after, s.Drains seen state now result after ∧
      (s.stageQueue limit seen).run state now = (result.map fun state => ((), state), after) := by
  induction limit generalizing seen state now with
  | zero =>
    have few := length_le_of_fine distinct fine
    rw [moduleLimit] at enough
    omega
  | succ limit ih =>
    cases next : state.queue.dropWhile seen.contains with
    | nil => exact ⟨_, _, .done next, by rw [s.stageQueue_done (limit + 1) next]; rfl⟩
    | cons module rest =>
      rw [s.stageQueue_succ next, bind_apply]
      have leaves := s.stageModule_fine module { state with queue := rest } now
      cases run : (s.stageModule module).run { state with queue := rest } now with
      | mk result mid =>
        cases result with
        | error failure => exact ⟨_, _, .failed next run, rfl⟩
        | ok answer =>
          obtain ⟨result, after, drains, ran⟩ := ih answer.2 mid (List.nodup_cons.2 ⟨head_not_mem next, distinct⟩)
            (List.forall_mem_cons.2 ⟨leaves.of_ok run, fine⟩) (by simp; omega)
          exact ⟨result, after, .next next run drains, ran⟩

theorem stage_apply (s : Stager) (tree : FileTree) :
    s.stage tree =
      match s.resolveModule tree s.options.entryPoint with
      | .error failure => (.error failure, tree)
      | .ok none => (.error (.action "resolve entry point" s.options.entryPoint.toString none), tree)
      | .ok (some entry) =>
        match s.copyOf entry with
        | .error failure => (.error failure, tree)
        | .ok copy =>
          let (result, after) :=
            (s.stageQueue (moduleLimit) []).run ⟨{ root := s.root, entryPoint := copy }, [entry]⟩ tree
          (result.map (·.2.staged), after) := by
  refine (get_bind_apply _ tree).trans ?_
  cases s.resolveModule tree s.options.entryPoint with
  | error failure => rfl
  | ok found =>
    cases found with
    | none => rfl
    | some entry =>
      simp only
      cases s.copyOf entry with
      | error failure => rfl
      | ok copy =>
        simp only [bind_apply]
        cases (s.stageQueue (moduleLimit) []).run ⟨{ root := s.root, entryPoint := copy }, [entry]⟩ tree with
        | mk result after => cases result <;> rfl


/-- Staging ends as it does without a bound. -/
theorem exists_ends (s : Stager) (tree : FileTree) : ∃ result after, s.Ends tree result after ∧ s.stage tree = (result, after) := by
  rw [stage_apply]
  cases resolved : s.resolveModule tree s.options.entryPoint with
  | error failure => exact ⟨_, _, .unresolved resolved, rfl⟩
  | ok found =>
    cases found with
    | none => exact ⟨_, _, .missing resolved, rfl⟩
    | some entry =>
      simp only
      cases copied : s.copyOf entry with
      | error failure => exact ⟨_, _, .outside resolved copied, rfl⟩
      | ok copy =>
        obtain ⟨result, after, drains, ran⟩ := s.stageQueue_drains moduleLimit ⟨{ root := s.root, entryPoint := copy }, [entry]⟩ tree
          List.nodup_nil (by simp) (Nat.le_add_right _ _)
        refine ⟨_, _, .drained resolved copied drains, ?_⟩
        simp only [ran]
        cases result <;> rfl

end Stager

end WasmPackaging.Bundling
