import WasmPackaging.Proofs.Bundling.Record

/-!
What becomes of a payload file. The name of the file tells the first digits of the digest of what it holds
(`digestOf_eq_of_payloadPlace`), so it is written over only by a payload with the same digits, or by a module
that the project keeps in a directory with the name of the payload directory. Without those (`KeepsPayloads`)
it holds in the end what was loaded (`Visits.kept_payload`), and the bundler is told how to read it.
-/

namespace WasmPackaging.Bundling

open Text FileTree

/-! ## Names of payload files -/

/-- The digits of a payload's digest that its file is named for. -/
def digestOf (loaded : Loaded) : List Char := (Digest.sha256 loaded.content.toBytes).toList.take 12

theorem length_digestOf (loaded : Loaded) : (digestOf loaded).length = 12 := by
  rw [digestOf, List.length_take, String.length_toList, Digest.length_sha256]
  rfl

theorem toList_payloadFileName (source : Path) (loaded : Loaded) (suffix : String) :
    (payloadFileName source loaded suffix).toList =
      source.stem.toList ++ '.' :: (digestOf loaded ++ suffix.toList) := by
  simp [payloadFileName, digestOf, String.toList_append]

variable {source source' : Path} {loaded loaded' : Loaded} {suffix suffix' : String}

/-- Payloads with the same file have the same digits. -/
theorem digestOf_eq_of_payloadPlace (known : payloadSuffixes.lookup loaded.loader = some suffix)
    (known' : payloadSuffixes.lookup loaded'.loader = some suffix')
    (same : payloadPlace source loaded suffix = payloadPlace source' loaded' suffix') : digestOf loaded = digestOf loaded' := by
  have names : payloadFileName source loaded suffix = payloadFileName source' loaded' suffix' := by
    simpa [payloadPlace] using same
  have long {loader suffix : String} (known : payloadSuffixes.lookup loader = some suffix) : suffix.toList.length = 4 := by
    obtain ⟨-, rfl⟩ | ⟨-, rfl⟩ := payloadSuffix_cases known <;> rfl
  have texts := congrArg String.toList names
  rw [toList_payloadFileName, toList_payloadFileName] at texts
  have ends : (digestOf loaded ++ suffix.toList).length = (digestOf loaded' ++ suffix'.toList).length := by
    rw [List.length_append, List.length_append, length_digestOf, length_digestOf, long known, long known']
  have tails := (List.append_inj_right' texts (by simpa using ends))
  exact List.append_inj_left' (List.cons.inj tails).2 ((long known).trans (long known').symm)

/-- A payload file has no other name of a file in the payload directory that holds no dot. -/
theorem payloadFileName_ne {name : String} (plain : '.' ∉ name.toList) : payloadFileName source loaded suffix ≠ name := by
  rintro rfl
  rw [toList_payloadFileName] at plain
  simp at plain

/-- No name of a payload file holds the zero character if no part of its source does. -/
theorem not_mem_payloadPlace (known : payloadSuffixes.lookup loaded.loader = some suffix) (zero : source.holdsZero = false) :
    ∀ name ∈ payloadPlace source loaded suffix, '\x00' ∉ name.toList := by
  have stem : '\x00' ∉ source.stem.toList := by
    intro mem
    have inside := mem_cutSuffix mem
    unfold Path.name at inside
    cases last : source.parts.getLast? with
    | none => simp [last] at inside
    | some part =>
      rw [last] at inside
      have held : source.holdsZero = true :=
        List.any_eq_true.2 ⟨part, List.mem_of_getLast? last, List.contains_iff_mem.2 inside⟩
      exact Bool.false_ne_true (zero.symm.trans held)
  have digest : '\x00' ∉ digestOf loaded := fun mem => not_mem_sha256 (by decide) _ (List.mem_of_mem_take mem)
  have file : '\x00' ∉ (payloadFileName source loaded suffix).toList := by
    rw [toList_payloadFileName]
    obtain ⟨-, rfl⟩ | ⟨-, rfl⟩ := payloadSuffix_cases known <;> simp [stem, digest]
  unfold payloadPlace
  simp only [List.forall_mem_cons, List.not_mem_nil, false_implies, implies_true, and_true]
  exact ⟨by decide, file⟩

/-! ## Tables -/

theorem lookup_setKey {α : Type} (key other : String) (value : α) (table : List (String × α)) :
    (setKey key value table).lookup other = if other = key then some value else table.lookup other := by
  induction table with
  | nil =>
    rw [setKey, List.lookup_cons, List.lookup_nil]
    split <;> simp_all
  | cons first table ih =>
    obtain ⟨name, old⟩ := first
    unfold setKey
    split
    · next same =>
      subst same
      by_cases here : other = name
      · simp [here]
      · simp [here, List.lookup_cons, beq_eq_false_iff_ne.2 here]
    · next apart =>
      rw [List.lookup_cons, List.lookup_cons, ih]
      by_cases here : other = name
      · subst here
        simp [apart]
      · simp [beq_eq_false_iff_ne.2 here]

namespace Stager

variable {s : Stager} {tree now after : FileTree} {base : Location}

/-! ## Payloads of a run -/

/-- The payload that a way leads to. -/
def payload? : Route → Option Loaded
  | .payload _ loaded => some loaded
  | _ => none

/-- The payloads that were loaded in a run. -/
def payloads (record : List Visit) : List Loaded :=
  record.flatMap fun visit => visit.ways.filterMap fun way => payload? way.2

/-- Where all that a module mentions is loaded, nothing else is staged. -/
theorem Records.of_payloads {main : Location} {P : Loaded → Prop}
    (ways : ∀ (visit : Visit) (state state' : StageState) (now after : FileTree), visit.module = main → Area s.root base tree now →
      s.Visits base tree state now visit state' after → ∀ way ∈ visit.ways, ∃ source loaded, way.2 = .payload source loaded ∧ P loaded)
    {record : List Visit} {state : StageState} (recorded : s.Records base tree main record state now) :
    (∀ module ∈ state.queue, module = main) ∧ (∀ visit ∈ record, visit.module = main) ∧ ∀ loaded ∈ payloads record, P loaded := by
  induction recorded with
  | start => simp [payloads]
  | @visit record visit rest state state' now after _ area next visits ih =>
    obtain ⟨queued, modules, known⟩ := ih
    have waits : ∀ module ∈ visit.module :: rest, module = main :=
      fun module mem => queued module ((List.dropWhile_suffix _).subset (next ▸ mem))
    have here : visit.module = main := waits _ List.mem_cons_self
    have ways := ways visit _ _ _ _ here area visits
    refine ⟨fun module mem => ?_, List.forall_mem_cons.2 ⟨here, modules⟩, fun loaded mem => ?_⟩
    · rw [visits.queue] at mem
      obtain new | old := List.mem_append.1 mem
      · obtain ⟨way, inside, target⟩ := List.mem_filterMap.1 (List.mem_reverse.1 new)
        obtain ⟨source, loaded, same, -⟩ := ways way inside
        rw [same] at target
        cases target
      · exact waits module (List.mem_cons_of_mem _ old)
    · obtain new | old := List.mem_append.1 mem
      · obtain ⟨way, inside, payload⟩ := List.mem_filterMap.1 new
        obtain ⟨source, loaded', same, holds⟩ := ways way inside
        rw [same] at payload
        exact Option.some.inj payload ▸ holds
      · exact known loaded old

/-- Payloads of a run that differ have other digits in the names of their files, and no module of the run lies in a
directory of the project that has the name of the payload directory. -/
structure KeepsPayloads (s : Stager) (record : List Visit) : Prop where
  digests : ∀ a ∈ payloads record, ∀ b ∈ payloads record, digestOf a = digestOf b → a.content.toBytes = b.content.toBytes
  modules : ∀ visit ∈ record, ∀ rest, rest ≠ [] → visit.module ≠ s.project ++ payloadName :: rest

/-- The part of a run that was done first keeps payloads as the whole does. -/
theorem KeepsPayloads.tail {visit : Visit} {record : List Visit} (keeps : s.KeepsPayloads (visit :: record)) :
    s.KeepsPayloads record where
  digests := fun a mem b mem' => keeps.digests a (List.mem_append_right _ mem) b (List.mem_append_right _ mem')
  modules := fun other mem => keeps.modules other (List.mem_cons_of_mem _ mem)

/-- A payload file holds what was loaded, and the bundler is told how to read it. -/
structure HoldsPayload (base : Location) (source : Path) (loaded : Loaded) (suffix : String) (staged : Staged)
    (now : FileTree) : Prop where
  file : now.lookup (base ++ payloadPlace source loaded suffix) = some (.file loaded.content.toBytes)
  loader : staged.loaders.lookup suffix = some loaded.loader

/-- The loader that reads an ending is not replaced. -/
theorem loader_eq (known : payloadSuffixes.lookup loaded.loader = some suffix)
    (known' : payloadSuffixes.lookup loaded'.loader = some suffix) : loaded'.loader = loaded.loader := by
  obtain ⟨same, rfl⟩ | ⟨same, rfl⟩ := payloadSuffix_cases known <;>
    obtain ⟨same', other⟩ | ⟨same', other⟩ := payloadSuffix_cases known' <;> simp_all

@[simp] theorem withClass_loaders (specifier : String) (importClass : Option ImportClass) (state : StageState) :
    (withClass specifier importClass state).staged.loaders = state.staged.loaders := by cases importClass <;> rfl

@[simp] theorem withExternal_loaders (path : String) (state : StageState) :
    (withExternal path state).staged.loaders = state.staged.loaders := by
  unfold withExternal
  simp only
  split <;> rfl

/-- A run stages no module with the place of a payload file. -/
theorem KeepsPayloads.ne_payloadPlace {record : List Visit} (keeps : s.KeepsPayloads record) {visit : Visit} (mem : visit ∈ record)
    (source : Path) (loaded : Loaded) (suffix : String) : visit.module ≠ s.project ++ payloadPlace source loaded suffix :=
  keeps.modules visit mem [payloadFileName source loaded suffix] (List.cons_ne_nil _ _)

section kept

variable (known : payloadSuffixes.lookup loaded.loader = some suffix) {state state' : StageState}

include known

/-- Once it was staged, a payload file holds what was loaded. -/
theorem Takes.holdsPayload {copy : Path} {answer : Option String}
    (takes : s.Takes base copy state now (.payload source loaded) answer state' after) :
    HoldsPayload base source loaded suffix state'.staged after ∧
      answer = some (specifierTo after (s.root.under (payloadPlace source loaded suffix)) copy.parent) := by
  cases takes with
  | payload known' opens writes =>
    obtain rfl := Option.some.inj (known.symm.trans known')
    exact ⟨⟨by rw [writes.lookup, if_pos rfl], by rw [lookup_setKey, if_pos rfl]⟩, rfl⟩

/-- What is staged on a way leaves a payload file alone, but for a payload with the same digits. -/
theorem Takes.kept_payload {copy : Path} {way : Route} {answer : Option String}
    (takes : s.Takes base copy state now way answer state' after)
    (agree : ∀ other ∈ payload? way, digestOf other = digestOf loaded → other.content.toBytes = loaded.content.toBytes)
    (holds : HoldsPayload base source loaded suffix state.staged now) :
    HoldsPayload base source loaded suffix state'.staged after := by
  cases takes with
  | keep | module => exact ⟨holds.file, holds.loader⟩
  | external => exact ⟨holds.file, by rw [withExternal_loaders]; exact holds.loader⟩
  | @payload source' other suffix' between _ known' opens writes =>
    constructor
    · have file := kept_of_opensTo opens holds.file
      by_cases same : payloadPlace source loaded suffix = payloadPlace source' other suffix'
      · have bytes := agree other rfl (digestOf_eq_of_payloadPlace known known' same).symm
        rw [writes.lookup, if_pos same, bytes]
      · exact kept_of_writesTo writes same file
    · rw [lookup_setKey]
      split
      · next same =>
        subst same
        rw [loader_eq known known']
      · exact holds.loader

theorem Copies.kept_payload {copy : Path} {module : Location} {list : List (Piece Mention)} {ways : List (Mention × Route)}
    {texts : List (List Char)} (copies : s.Copies base tree module copy state now list ways texts state' after)
    (agree : ∀ other ∈ ways.filterMap fun way => payload? way.2, digestOf other = digestOf loaded →
      other.content.toBytes = loaded.content.toBytes)
    (holds : HoldsPayload base source loaded suffix state.staged now) :
    HoldsPayload base source loaded suffix state'.staged after := by
  induction copies with
  | nil => exact holds
  | plain _ ih => exact ih agree holds
  | @hit _ _ _ _ _ _ found _ importClass way _ _ ways _ _ _ takes _ ih =>
    have started : HoldsPayload base source loaded suffix (withClass (String.ofList found.specifier) importClass _).staged _ :=
      ⟨holds.file, by rw [withClass_loaders]; exact holds.loader⟩
    refine ih (fun other mem => agree other ?_) (takes.kept_payload known (fun other here => agree other ?_) started)
    · rw [List.filterMap_cons]
      split
      · exact mem
      · exact List.mem_cons_of_mem _ mem
    · exact List.mem_filterMap.2 ⟨_, List.mem_cons_self, here⟩

/-- A payload file holds what was loaded when another module is staged. -/
theorem Visits.kept_payload {visit : Visit} (visits : s.Visits base tree state now visit state' after)
    (agree : ∀ other ∈ visit.ways.filterMap fun way => payload? way.2, digestOf other = digestOf loaded →
      other.content.toBytes = loaded.content.toBytes)
    (beyond : visit.module ≠ s.project ++ payloadPlace source loaded suffix)
    (holds : HoldsPayload base source loaded suffix state.staged now) :
    HoldsPayload base source loaded suffix state'.staged after := by
  cases visits with
  | @text module parts _ _ _ _ _ _ _ whole _ _ copies opens writes =>
    have kept := copies.kept_payload known agree holds
    exact ⟨kept_of_writesTo writes (fun same => beyond (same ▸ whole)) (kept_of_opensTo opens kept.file), kept.loader⟩
  | @file module parts _ opened _ whole _ opens _ writes =>
    refine ⟨kept_of_writesTo writes ?_ (kept_of_opensTo opens holds.file), holds.loader⟩
    unfold landing
    split
    · -- copied into the directory of the payloads, the file would have its name, which holds no dot
      intro same
      obtain ⟨outer, last⟩ := List.append_inj' (show [payloadName] ++ [payloadFileName source loaded suffix] = _ from same) rfl
      have named : (Path.ofLocation module).name = payloadName := by simp [whole, ← outer, Path.name, Path.ofLocation]
      exact payloadFileName_ne (by decide) ((List.singleton_inj.1 last).trans named)
    · exact fun same => beyond (same ▸ whole)

end kept

end Stager

end WasmPackaging.Bundling
