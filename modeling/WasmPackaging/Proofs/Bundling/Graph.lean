import Mathlib.Logic.Relation
import WasmPackaging.Proofs.Bundling.Steps
import WasmPackaging.Proofs.FileTree.Growth

/-!
The graph of the modules of a project, as it is before anything is staged, and what staging one module
does in its terms: the modules that it leads to are queued (`Stages.mem_queue_iff`), and its copy and the
payloads that are loaded for it are written (`Stages.grows`). Both hold as long as what stands below the
stage root has no say in where specifiers lead (`IsBlind`).
-/

namespace WasmPackaging.Bundling

open Text FileTree

namespace Stager

variable (s : Stager) (tree : FileTree) (base : Location)

/-- A module leads to another by a specifier that the options do not leave alone. -/
def LeadsTo (module target : Location) : Prop :=
  ∃ specifier ∈ scannedSpecifiers tree module, s.isExcluded specifier = false ∧ s.Leads tree module specifier target

/-- A module is reachable from another. -/
def IsReachable : Location → Location → Prop := Relation.ReflTransGen (s.LeadsTo tree)

/-- A payload file of a module: a plugin loads what the file holds for a specifier that the options do not
leave alone. -/
inductive HasPayloadAt (module : Location) : List String → Prop
  | intro {specifier : String} {source : Path} {loaded : Loaded} {suffix : String} :
      specifier ∈ scannedSpecifiers tree module → s.isExcluded specifier = false →
      s.Loads tree module specifier source loaded → payloadSuffixes.lookup loaded.loader = some suffix →
      HasPayloadAt module (payloadPlace source loaded suffix)

theorem HasPayloadAt.exists_name {s : Stager} {tree : FileTree} {module : Location} {parts : List String}
    (payload : s.HasPayloadAt tree module parts) : ∃ name, parts = [payloadName, name] := by
  cases payload
  exact ⟨_, rfl⟩

/-- What stands below the stage root has no say in where the specifiers of a module lead, nor in what is
loaded for them. Staging fills the stage root, so that none of them leads there is said of whatever may
stand there. -/
def IsBlind (module : Location) : Prop :=
  ∀ now, Area s.root base tree now → ∀ specifier ∈ scannedSpecifiers tree module, s.isExcluded specifier = false →
    (∀ target, s.Leads now module specifier target ↔ s.Leads tree module specifier target) ∧
      ∀ source loaded, s.Loads now module specifier source loaded ↔ s.Loads tree module specifier source loaded

variable {s tree base} {now after : FileTree} {module : Location}

/-- A specifier that no plugin claims and that spells out the place of a file outside the stage root leads
there, whatever stands below the stage root. -/
def SpellsFile (s : Stager) (tree : FileTree) (base module : Location) (specifier : String) : Prop :=
  ∃ importClass location, classify s.options.plugins specifier = .ok ⟨importClass, none⟩ ∧
    (directoryOf module).child specifier = .ofLocation location ∧ tree.HoldsFile location ∧
    (∀ name ∈ location, IsStep name) ∧ pathFault? (.ofLocation location) = none ∧ Path.below? base location = none

/-- A module with specifiers is an entry of the tree. -/
theorem mem_entries_of_mem_scannedSpecifiers {specifier : String} (mem : specifier ∈ scannedSpecifiers tree module) :
    ∃ content, (module, .file content) ∈ tree.entries := by
  unfold scannedSpecifiers moduleText? at mem
  split at mem
  · split at mem
    · next content file =>
      refine ⟨content, mem_entries_of_lookup ?_ file⟩
      rintro rfl
      cases file
    · simp at mem
  · simp at mem

/-- A module is blind to the stage root if its specifiers spell out the places of files. -/
theorem isBlind_of_spellsFile (sound : tree.WellFormed)
    (spells : ∀ specifier ∈ scannedSpecifiers tree module, s.SpellsFile tree base module specifier) :
    s.IsBlind tree base module := by
  intro now area specifier mem _
  obtain ⟨importClass, location, classified, named, ⟨content, file⟩, steps, fine, outside⟩ := spells specifier mem
  have ordinary (tree : FileTree) : s.IsOrdinary tree module specifier := ⟨_, classified, by simp⟩
  have resolved {tree : FileTree} (sound : tree.WellFormed) (file : tree.lookup location = some (.file content)) :
      s.resolveModule tree ((directoryOf module).child specifier) = .ok (some location) := by
    rw [named]
    exact resolveModule_of_follow sound (follow_of_steps sound file (by simp) fine steps)
  refine ⟨fun target => ?_, fun source loaded => ?_⟩
  · rw [Leads.ordinary_iff (ordinary now), Leads.ordinary_iff (ordinary tree), resolved sound file,
      resolved area.sound ((area.lookup_outside outside).trans file)]
  · simp [(ordinary now).not_loads, (ordinary tree).not_loads]

/-- The text that is read from a module is the one that it has before staging. -/
theorem moduleText?_of_holds {source : String} (area : Area s.root base tree now)
    (outside : Path.below? base module = none) {content : Bytes} (file : tree.lookup module = some (.file content))
    (holds : HoldsText now (.ofLocation module) source) : moduleText? tree module = some source := by
  obtain ⟨bytes, text, read, decoded, rfl⟩ := holds
  have present := (area.lookup_outside outside).trans file
  obtain ⟨place, leads⟩ := read_eq_ok_iff.1 read
  obtain leads' | ⟨fault, leads', -⟩ := follow_ofLocation area.sound present (by simp)
  · cases leads'.symm.trans leads
    simp [moduleText?, file, decoded, Except.toOption]
  · cases leads'.symm.trans leads

/-! ## The ways of the mentions -/

section Copies

variable {copy : Path} {state state' : StageState} {list : List (Piece Mention)} {ways : List (Mention × Route)}
  {texts : List (List Char)}

/-- Each mention of a module goes one way. -/
theorem Copies.mentions (copies : s.Copies base tree module copy state now list ways texts state' after) :
    ways.map Prod.fst = list.filterMap Piece.value? := by
  induction copies with
  | nil => rfl
  | plain _ ih => exact ih
  | hit _ _ _ _ ih => simpa [Piece.value?] using ih

variable {source : String}

/-- The ways are those of the specifiers that are scanned. -/
theorem Copies.exists_way_iff (copied : s.copyOf module = .ok copy) (scanned : isScanned module = true)
    (text : moduleText? tree module = some source)
    (copies : s.Copies base tree module copy state now (pieces mention none source.toList) ways texts state' after)
    {P : Route → Prop} {Q : String → Prop}
    (agree : ∀ specifier ∈ scannedSpecifiers tree module, ∀ files, Area s.root base tree files →
      ∀ way, s.Goes files module specifier copy way → (P way ↔ Q specifier)) :
    (∃ way ∈ ways, P way.2) ↔ ∃ specifier ∈ scannedSpecifiers tree module, Q specifier := by
  have all : ways.map (fun way => String.ofList way.1.specifier) = scannedSpecifiers tree module := by
    rw [scannedSpecifiers, if_pos scanned, text, Option.map_some, Option.getD_some, specifiers, finds, ← copies.mentions,
      List.map_map]
    rfl
  rw [← all] at agree ⊢
  have same {way : Mention × Route} (mem : way ∈ ways) : P way.2 ↔ Q (String.ofList way.1.specifier) := by
    obtain ⟨files, importClass, area, routed⟩ := copies.routed way mem
    exact agree _ (List.mem_map_of_mem mem) files area way.2 (goes_of_route copied routed)
  constructor
  · rintro ⟨way, mem, here⟩
    exact ⟨_, List.mem_map_of_mem mem, (same mem).1 here⟩
  · rintro ⟨_, mem, said⟩
    obtain ⟨way, went, rfl⟩ := List.mem_map.1 mem
    exact ⟨way, went, (same went).2 said⟩

/-- The payload file that a way leads to. -/
inductive PayloadAt : Route → List String → Prop
  | intro {source : Path} {loaded : Loaded} {suffix : String} : payloadSuffixes.lookup loaded.loader = some suffix →
      PayloadAt (.payload source loaded) (payloadPlace source loaded suffix)

theorem Takes.grows {way : Route} {answer : Option String}
    (takes : s.Takes base copy state now way answer state' after) :
    Grows base (PayloadAt way) (fun parts => (∃ place, PayloadAt way place) ∧ parts <+: [payloadName]) now after := by
  cases takes with
  | keep | external | module =>
    have nothing {way : Route} (other : ∀ source loaded, way ≠ .payload source loaded) (place : List String) :
        ¬ PayloadAt way place := by
      rintro ⟨⟩
      exact other _ _ rfl
    exact (Grows.refl base now).congr (by simp [nothing]) (by simp [nothing])
  | @payload source loaded suffix _ _ known opens writes =>
    have only (parts : List String) : PayloadAt (.payload source loaded) parts ↔ parts = payloadPlace source loaded suffix := by
      constructor
      · rintro ⟨known'⟩
        rw [Option.some.inj (known.symm.trans known')]
      · rintro rfl
        exact .intro known
    exact (writes.grows opens).congr (fun parts => (only parts).symm) (by simp [only])

theorem Copies.grows (copies : s.Copies base tree module copy state now list ways texts state' after) :
    Grows base (fun parts => ∃ way ∈ ways, PayloadAt way.2 parts)
      (fun parts => (∃ place, ∃ way ∈ ways, PayloadAt way.2 place) ∧ parts <+: [payloadName]) now after := by
  induction copies with
  | nil => exact (Grows.refl base _).congr (by simp) (by simp)
  | plain _ ih => exact ih
  | hit _ _ takes _ ih => exact (takes.grows.trans ih).congr (by simp) (by simp [exists_or, or_and_right])

variable (blind : s.IsBlind tree base module)

include blind

theorem Copies.target_iff (copied : s.copyOf module = .ok copy) (scanned : isScanned module = true)
    (text : moduleText? tree module = some source)
    (copies : s.Copies base tree module copy state now (pieces mention none source.toList) ways texts state' after)
    (target : Location) : (∃ way ∈ ways, target? way.2 = some target) ↔ s.LeadsTo tree module target := by
  refine copies.exists_way_iff (P := fun way => target? way = some target)
    (Q := fun specifier => s.isExcluded specifier = false ∧ s.Leads tree module specifier target)
    copied scanned text fun specifier mem files area way goes => ?_
  have target_iff : target? way = some target ↔ ∃ text, way = .module target text := by
    cases way <;> simp [target?]
  rw [target_iff, goes.module_iff]
  exact and_congr_right fun included => (blind files area specifier mem included).1 target

theorem Copies.payload_iff (copied : s.copyOf module = .ok copy) (scanned : isScanned module = true)
    (text : moduleText? tree module = some source)
    (copies : s.Copies base tree module copy state now (pieces mention none source.toList) ways texts state' after)
    (parts : List String) : (∃ way ∈ ways, PayloadAt way.2 parts) ↔ s.HasPayloadAt tree module parts := by
  rw [copies.exists_way_iff (P := (PayloadAt · parts)) (Q := fun specifier => s.isExcluded specifier = false ∧ ∃ source loaded suffix,
    s.Loads tree module specifier source loaded ∧ payloadSuffixes.lookup loaded.loader = some suffix ∧
      parts = payloadPlace source loaded suffix) copied scanned text]
  · constructor
    · rintro ⟨specifier, mem, included, source, loaded, suffix, loads, known, rfl⟩
      exact .intro mem included loads known
    · rintro ⟨mem, included, loads, known⟩
      exact ⟨_, mem, included, _, _, _, loads, known, rfl⟩
  · intro specifier mem files area way goes
    constructor
    · rintro ⟨known⟩
      obtain ⟨included, loads⟩ := goes.payload_iff.1 rfl
      exact ⟨included, _, _, _, ((blind files area specifier mem included).2 _ _).1 loads, known, rfl⟩
    · rintro ⟨included, source, loaded, suffix, loads, known, rfl⟩
      obtain rfl := goes.payload_iff.2 ⟨included, ((blind files area specifier mem included).2 _ _).2 loads⟩
      exact .intro known

end Copies

/-! ## Staging one module -/

/-- Where the copy of a module comes to stand. -/
def HasCopyAt (s : Stager) (now : FileTree) (base : Location) (module : Location) (parts : List String) : Prop :=
  ∃ names, module = s.project ++ names ∧ parts = landing now base names (Path.ofLocation module).name

/-- The files that staging a module writes. -/
def IsWrittenFor (s : Stager) (tree now : FileTree) (base : Location) (module : Location) (parts : List String) : Prop :=
  s.HasCopyAt now base module parts ∨ s.HasPayloadAt tree module parts

/-- The directories that staging a module opens. -/
def IsOpenedFor (s : Stager) (tree : FileTree) (module : Location) (parts : List String) : Prop :=
  (∃ names, module = s.project ++ names ∧ parts <+: names.dropLast) ∨
    (∃ place, s.HasPayloadAt tree module place) ∧ parts <+: [payloadName]

section Stages

variable {state state' : StageState} {content : Bytes} (stages : s.Stages base tree module state now state' after)

include stages

theorem Stages.exists_names : ∃ names, module = s.project ++ names := by
  cases stages with
  | text whole | file whole => exact ⟨_, whole⟩

variable (blind : s.IsBlind tree base module) (area : Area s.root base tree now)
  (outside : Path.below? base module = none) (file : tree.lookup module = some (.file content))

include blind area outside file

/-- The modules that a module leads to are queued. -/
theorem Stages.mem_queue_iff (target : Location) :
    target ∈ state'.queue ↔ s.LeadsTo tree module target ∨ target ∈ state.queue := by
  cases stages with
  | text whole scanned holds copies =>
    have text := moduleText?_of_holds area outside file holds
    rw [copies.queue, List.mem_append, List.mem_reverse, List.mem_filterMap,
      copies.target_iff blind (whole ▸ s.copyOf_project _) scanned text]
  | file whole unscanned =>
    have nothing : ¬ s.LeadsTo tree module target := by simp [LeadsTo, scannedSpecifiers, unscanned]
    simp [nothing]

/-- The copy of a module and its payloads are written. -/
theorem Stages.grows :
    Grows base (s.IsWrittenFor tree after base module) (s.IsOpenedFor tree module) now after := by
  have opened_iff {names : List String} (whole : module = s.project ++ names) (parts : List String) :
      s.IsOpenedFor tree module parts ↔ parts <+: names.dropLast ∨
        (∃ place, s.HasPayloadAt tree module place) ∧ parts <+: [payloadName] := by
    subst whole
    simp [IsOpenedFor]
  have written_iff {names : List String} (whole : module = s.project ++ names) (parts : List String) :
      s.IsWrittenFor tree after base module parts ↔
        parts = landing after base names (Path.ofLocation module).name ∨ s.HasPayloadAt tree module parts := by
    subst whole
    simp [IsWrittenFor, HasCopyAt]
  cases stages with
  | @text parts source ways texts _ copied opened _ whole scanned holds copies opens writes =>
    have text := moduleText?_of_holds area outside file holds
    have stands : landing after base parts (Path.ofLocation module).name = parts := by
      refine if_neg ?_
      rw [writes.lookup, if_pos rfl]
      simp
    have payload := copies.payload_iff blind (whole ▸ s.copyOf_project _) scanned text
    refine (copies.grows.trans (writes.grows opens)).congr (fun place => ?_) fun place => ?_
    · rw [written_iff whole, stands, payload, or_comm]
    · simp only [opened_iff whole, payload, or_comm]
  | @file parts _ opened _ whole unscanned opens _ _ writes =>
    have nothing (place : List String) : ¬ s.HasPayloadAt tree module place := by
      rintro @⟨specifier, _, _, _, mem⟩
      simp [scannedSpecifiers, unscanned] at mem
    refine (writes.grows opens).congr (fun place => ?_) fun place => ?_
    · simp [written_iff whole, nothing, writes.landing_eq]
    · simp [opened_iff whole, nothing]

end Stages

end Stager

end WasmPackaging.Bundling
