import WasmPackaging.Proofs.Bundling.Mirror
import WasmPackaging.Proofs.Bundling.Removal
import WasmPackaging.Proofs.Path

/-!
The record of staging: the modules that were staged, the last one first, each with the ways that its
mentions went. Every run that succeeds has one (`exists_record`), whatever the plugins make of what stands
below the stage root. A copy whose specifiers are followed keeps what it holds: payload files have endings of
their own, and no other module has that copy (`Visits.kept`).
-/

namespace WasmPackaging

namespace Bundling

open Text FileTree

/-! ## Names whose specifiers are followed -/

/-- Whether the specifiers of a file are followed depends on its name. -/
theorem isScanned_concat (outer : Location) (name : String) :
    isScanned (outer ++ [name]) = scannedSuffixes.contains (Path.cutSuffix name).2 := by
  simp [isScanned, Path.suffix, Path.name, Path.ofLocation]

theorem not_isScanned_payloadFileName (outer : Location) (source : Path) (loaded : Loaded) {loader suffix : String}
    (known : payloadSuffixes.lookup loader = some suffix) :
    isScanned (outer ++ [payloadFileName source loaded suffix]) = false := by
  obtain ⟨ending, rfl, filled, plain, other⟩ : ∃ ending, suffix = String.ofList ('.' :: ending) ∧ ending ≠ [] ∧ '.' ∉ ending ∧
      scannedSuffixes.contains (String.ofList ('.' :: ending)) = false := by
    obtain ⟨-, rfl⟩ | ⟨-, rfl⟩ := payloadSuffix_cases known
    · exact ⟨"bin".toList, rfl, by decide⟩
    · exact ⟨"txt".toList, rfl, by decide⟩
  have whole : (payloadFileName source loaded (String.ofList ('.' :: ending))).toList =
      (source.stem ++ "." ++ String.ofList ((Digest.sha256 loaded.content.toBytes).toList.take 12)).toList ++ '.' :: ending := by
    rw [payloadFileName, String.toList_append, String.toList_ofList]
  rw [isScanned_concat, Path.cutSuffix_of_eq whole (by simp) filled plain, other]

namespace Stager

variable {s : Stager} {tree now after : FileTree} {base entry : Location} {names : List String} {content : Bytes}

/-! ## What is kept -/

/-- A file stands as it stood when directories are opened. -/
theorem kept_of_opensTo {outer : List String} (opens : OpensTo base outer now after)
    (file : now.lookup (base ++ names) = some (.file content)) : after.lookup (base ++ names) = some (.file content) := by
  rw [opens.lookup]
  split
  · next within => obtain directory | vacant := opens.fits names within <;> simp_all
  · exact file

/-- A file stands as it stood when another one is written. -/
theorem kept_of_writesTo {other : List String} {bytes : Bytes} (writes : WritesTo base other bytes now after) (apart : names ≠ other)
    (file : now.lookup (base ++ names) = some (.file content)) : after.lookup (base ++ names) = some (.file content) := by
  rw [writes.lookup, if_neg apart, file]

section Copies

variable {module : Location} {copy : Path} {state state' : StageState} {list : List (Piece Mention)}
  {ways : List (Mention × Route)} {texts : List (List Char)}

/-- A copy whose specifiers are followed is not written over by a payload. -/
theorem Takes.kept {way : Route} {answer : Option String} (takes : s.Takes base copy state now way answer state' after)
    (scanned : isScanned (s.project ++ names) = true) (file : now.lookup (base ++ names) = some (.file content)) :
    after.lookup (base ++ names) = some (.file content) := by
  cases takes with
  | keep | external | module => exact file
  | @payload source loaded suffix _ _ known opens writes =>
    refine kept_of_writesTo writes ?_ (kept_of_opensTo opens file)
    rintro rfl
    have unscanned := not_isScanned_payloadFileName (s.project ++ [payloadName]) source loaded known
    rw [List.append_assoc] at unscanned
    exact Bool.false_ne_true (unscanned.symm.trans scanned)

theorem Copies.kept (copies : s.Copies base tree module copy state now list ways texts state' after)
    (scanned : isScanned (s.project ++ names) = true) (file : now.lookup (base ++ names) = some (.file content)) :
    after.lookup (base ++ names) = some (.file content) := by
  induction copies with
  | nil => exact file
  | plain _ ih => exact ih file
  | hit _ _ takes _ ih => exact ih (takes.kept scanned file)

end Copies

/-! ## The record -/

/-- A module that was staged, and the ways that its mentions went. -/
structure Visit where
  module : Location
  ways : List (Mention × Route)

/-- A module is staged, and its mentions go the ways of the visit. -/
inductive Visits (s : Stager) (base : Location) (before : FileTree) (state : StageState) (now : FileTree) :
    Visit → StageState → FileTree → Prop
  | text {module : Location} {parts : List String} {source : String} {ways : List (Mention × Route)} {texts : List (List Char)}
      {state' : StageState} {copied opened after : FileTree} : module = s.project ++ parts → isScanned module = true →
      HoldsText now (.ofLocation module) source →
      Copies s base before module (s.root.under parts) state now (pieces mention none source.toList) ways texts
        state' copied →
      OpensTo base parts.dropLast copied opened →
      WritesTo base parts (encode (String.ofList texts.flatten)) opened after →
      Visits s base before state now ⟨module, ways⟩ state' after
  | file {module : Location} {parts : List String} {content : Bytes} {opened after : FileTree} : module = s.project ++ parts →
      isScanned module = false → OpensTo base parts.dropLast now opened →
      opened.read (.ofLocation module) = .ok content →
      WritesTo base (landing opened base parts (Path.ofLocation module).name) content opened after →
      Visits s base before state now ⟨module, []⟩ state after

/-- The record of staging, with the state and the files that it led to. -/
inductive Records (s : Stager) (base : Location) (tree : FileTree) (entry : Location) :
    List Visit → StageState → FileTree → Prop
  | start {copy : Path} : s.copyOf entry = .ok copy →
      Records s base tree entry [] ⟨{ root := s.root, entryPoint := copy }, [entry]⟩ tree
  | visit {record : List Visit} {visit : Visit} {rest : List Location} {state state' : StageState} {now after : FileTree} :
      Records s base tree entry record state now → Area s.root base tree now →
      state.queue.dropWhile (record.map Visit.module).contains = visit.module :: rest →
      s.Visits base tree { state with queue := rest } now visit state' after →
      Records s base tree entry (visit :: record) state' after

theorem Stages.exists_visit {module : Location} {state state' : StageState}
    (stages : s.Stages base tree module state now state' after) :
    ∃ ways, s.Visits base tree state now ⟨module, ways⟩ state' after := by
  cases stages with
  | text whole scanned holds copies opens writes => exact ⟨_, .text whole scanned holds copies opens writes⟩
  | file whole unscanned opens _ read writes => exact ⟨_, .file whole unscanned opens read writes⟩

section Visits

variable {visit : Visit} {state state' : StageState} (visits : s.Visits base tree state now visit state' after)

include visits

/-- The modules that the ways lead to are queued, the last one first. -/
theorem Visits.queue :
    state'.queue = (visit.ways.filterMap fun way => target? way.2).reverse ++ state.queue := by
  cases visits with
  | text _ _ _ copies => exact copies.queue
  | file => rfl

/-- Every way was computed while nothing outside the stage root was changed. -/
theorem Visits.routed : ∀ way ∈ visit.ways, ∃ files importClass, Area s.root base tree files ∧
    s.route files visit.module (String.ofList way.1.specifier) = .ok (importClass, way.2) := by
  cases visits with
  | text _ _ _ copies => exact copies.routed
  | file => simp

theorem Visits.exists_names : ∃ names, visit.module = s.project ++ names := by
  cases visits with
  | text whole | file whole => exact ⟨_, whole⟩

/-- A copy whose specifiers are followed keeps what it holds when another module is staged. -/
theorem Visits.kept (scanned : isScanned (s.project ++ names) = true) (other : visit.module ≠ s.project ++ names)
    (file : now.lookup (base ++ names) = some (.file content)) : after.lookup (base ++ names) = some (.file content) := by
  cases visits with
  | @text module parts _ _ _ _ _ _ _ whole _ _ copies opens writes =>
    refine kept_of_writesTo writes ?_ (kept_of_opensTo opens (copies.kept scanned file))
    rintro rfl
    exact other whole
  | @file module parts _ opened _ whole unscanned opens _ writes =>
    refine kept_of_writesTo writes ?_ (kept_of_opensTo opens file)
    unfold landing
    split
    · -- in a directory it has its own name, so its specifiers would be followed like those of the copy
      rintro rfl
      have followed := (isScanned_concat _ _).symm.trans ((List.append_assoc s.project parts _).symm ▸ scanned)
      exact Bool.false_ne_true (unscanned.symm.trans followed)
    · rintro rfl
      exact other whole

end Visits

/-- What was staged or queued is so once a module more is staged. -/
theorem frontier_step {record : List Visit} {visit : Visit} {rest : List Location} {state state' : StageState} {target : Location}
    (next : state.queue.dropWhile (record.map Visit.module).contains = visit.module :: rest)
    (visits : s.Visits base tree { state with queue := rest } now visit state' after)
    (known : target ∈ record.map Visit.module ∨ target ∈ state.queue) :
    target ∈ (visit :: record).map Visit.module ∨ target ∈ state'.queue := by
  obtain old | waits := known
  · exact .inl (List.mem_cons_of_mem _ old)
  · obtain old | waits := mem_dropWhile_contains (record.map Visit.module) waits
    · exact .inl (List.mem_cons_of_mem _ old)
    · obtain rfl | behind := List.mem_cons.1 (next ▸ waits)
      · exact .inl List.mem_cons_self
      · refine .inr ?_
        rw [visits.queue]
        exact List.mem_append_right _ behind

/-- The entry point is staged or queued. -/
theorem Records.entry_known {record : List Visit} {state : StageState} (recorded : s.Records base tree entry record state now) :
    entry ∈ record.map Visit.module ∨ entry ∈ state.queue := by
  induction recorded with
  | start => exact .inr List.mem_cons_self
  | visit _ _ next visits ih => exact frontier_step next visits ih

/-! ## Every run that succeeds has a record -/

/-- The loop records what it does. -/
theorem Records.of_stageQueue (project : tree.lookup s.project = some .directory) (limit : Nat) {record : List Visit}
    {state final : StageState} (area : Area s.root base tree now) (proper : ∀ module ∈ state.queue, s.Proper module)
    (recorded : s.Records base tree entry record state now)
    (ran : (s.stageQueue limit (record.map Visit.module)).run state now = (.ok ((), final), after)) :
    ∃ visits, s.Records base tree entry visits final after ∧ Area s.root base tree after ∧
      ∀ module ∈ final.queue, module ∈ visits.map Visit.module := by
  induction limit generalizing record state now with
  | zero =>
    cases next : state.queue.dropWhile (record.map Visit.module).contains with
    | nil =>
      rw [s.stageQueue_done 0 next] at ran
      obtain ⟨same, rfl⟩ := Prod.mk.inj ran
      obtain ⟨-, rfl⟩ := Prod.mk.inj (Except.ok.inj same)
      refine ⟨record, recorded, area, fun module mem => ?_⟩
      simpa [next] using mem_dropWhile_contains (record.map Visit.module) mem
    | cons module rest =>
      rw [s.stageQueue_zero next] at ran
      cases (Prod.mk.inj ran).1
  | succ limit ih =>
    cases next : state.queue.dropWhile (record.map Visit.module).contains with
    | nil =>
      rw [s.stageQueue_done (limit + 1) next] at ran
      obtain ⟨same, rfl⟩ := Prod.mk.inj ran
      obtain ⟨-, rfl⟩ := Prod.mk.inj (Except.ok.inj same)
      refine ⟨record, recorded, area, fun module mem => ?_⟩
      simpa [next] using mem_dropWhile_contains (record.map Visit.module) mem
    | cons module rest =>
      have waits : ∀ other ∈ module :: rest, s.Proper other :=
        fun other mem => proper other ((List.dropWhile_suffix _).subset (next ▸ mem))
      have leaves := stageModule_leaves area (waits module List.mem_cons_self) { state with queue := rest }
      rw [s.stageQueue_succ next, bind_apply] at ran
      cases run : (s.stageModule module).run { state with queue := rest } now with
      | mk result mid =>
        rw [run] at ran
        cases result with
        | error failure => cases (Prod.mk.inj ran).1
        | ok answer =>
          obtain ⟨kept, stages⟩ := leaves.of_ok run
          obtain ⟨ways, visits⟩ := stages.exists_visit
          refine ih kept (stages.proper project fun other mem => ?_) (.visit recorded area next visits) ran
          exact waits other (List.mem_cons_of_mem _ mem)

/-- A run of staging that succeeds has a record, in which everything is staged that was queued. -/
theorem exists_record (s : Stager) {tree after : FileTree} {base : Location} (area : Area s.root base tree tree)
    (project : tree.lookup s.project = some .directory) {staged : Staged} (success : s.stage tree = (.ok staged, after)) :
    ∃ entry record state, s.resolveModule tree s.options.entryPoint = .ok (some entry) ∧
      s.Records base tree entry record state after ∧ Area s.root base tree after ∧
      (∀ module ∈ state.queue, module ∈ record.map Visit.module) ∧ state.staged = staged := by
  rw [stage_apply] at success
  cases resolved : s.resolveModule tree s.options.entryPoint with
  | error failure =>
    rw [resolved] at success
    cases (Prod.mk.inj success).1
  | ok found =>
    cases found with
    | none =>
      rw [resolved] at success
      cases (Prod.mk.inj success).1
    | some entry =>
      cases copied : s.copyOf entry with
      | error failure =>
        simp only [resolved, copied] at success
        cases (Prod.mk.inj success).1
      | ok copy =>
        simp only [resolved, copied] at success
        cases run : (s.stageQueue (moduleLimit) []).run ⟨{ root := s.root, entryPoint := copy }, [entry]⟩ tree with
        | mk result last =>
          rw [run] at success
          obtain ⟨same, rfl⟩ := Prod.mk.inj success
          cases result with
          | error failure => cases same
          | ok final =>
            have proper : s.Proper entry := proper_of_resolved area project resolved
            obtain ⟨record, recorded, kept, done⟩ := Records.of_stageQueue project (moduleLimit) area
              (by simpa using proper) (.start copied) run
            exact ⟨entry, record, final.2, rfl, recorded, kept, done, Except.ok.inj same⟩

end Stager

end Bundling

end WasmPackaging
