import WasmPackaging.Proofs.Bundling.Externals
import WasmPackaging.Proofs.Bundling.InlinedPayload

/-!
The payloads of all modules. A specifier that a plugin for payloads claims stands in the copy of its module as one
that leads to a file below the stage root, and that file holds in the end what the plugin stores for the file that it
resolved the specifier to (`stage_stores_payloads`). The stored bytes are those of the file, but that a text gets line
feeds for its other line ends (`Plugin.Stores.eq_iff`), and that a module with the place of a payload file is copied over
it (`stage_alters_payloads`).
-/

namespace WasmPackaging.Bundling

open Text FileTree

namespace Stager

variable {s : Stager} {tree now after : FileTree} {base module : Location} {names : List String}

/-! ## The pieces of a copy -/

/-- A piece of a module and what stands for it in the copy: other characters for themselves, and for the specifier of a
mention a text that it was given while nothing outside the stage root was changed. -/
inductive Translates (s : Stager) (tree : FileTree) (base : Location) (holds : FileTree → String → String → Prop) :
    Piece Mention → List Char → Prop
  | plain (c : Char) : Translates s tree base holds (.plain c) [c]
  | mention {found : Mention} {text : List Char} {placed : String} {now : FileTree} : Area s.root base tree now →
      holds now (String.ofList found.specifier) placed →
      Translates s tree base holds (.hit found text) (found.withSpecifier text placed.toList)

theorem Translates.mono {holds holds' : FileTree → String → String → Prop} {piece : Piece Mention} {text : List Char}
    (translates : s.Translates tree base holds piece text)
    (more : ∀ now specifier placed, Area s.root base tree now → holds now specifier placed → holds' now specifier placed) :
    s.Translates tree base holds' piece text := by
  cases translates with
  | plain c => exact .plain c
  | mention area here => exact .mention area (more _ _ _ area here)

/-- What a way leaves behind in the copy and beside it, given which modules were followed and which payload files hold
what was loaded. -/
structure Carries (s : Stager) (copy : Path) (followed : Location → Prop) (holds : Path → Loaded → String → Prop) (way : Route)
    (placed : String) : Prop where
  module : ∀ target text, way = .module target text → followed target
  payload : ∀ source loaded, way = .payload source loaded → ∃ suffix files,
    payloadSuffixes.lookup loaded.loader = some suffix ∧
      placed = specifierTo files (s.root.under (payloadPlace source loaded suffix)) copy.parent ∧ holds source loaded suffix

theorem Carries.mono {copy : Path} {followed followed' : Location → Prop} {holds holds' : Path → Loaded → String → Prop}
    {way : Route} {placed : String} (carries : s.Carries copy followed holds way placed)
    (more : ∀ target, followed target → followed' target)
    (more' : ∀ source loaded suffix, payloadSuffixes.lookup loaded.loader = some suffix → holds source loaded suffix →
      holds' source loaded suffix) : s.Carries copy followed' holds' way placed where
  module := fun target text same => more target (carries.module target text same)
  payload := fun source loaded same => by
    obtain ⟨suffix, files, known, written, here⟩ := carries.payload source loaded same
    exact ⟨suffix, files, known, written, more' source loaded suffix known here⟩

/-- A specifier goes some way, which leaves behind what it should. -/
def Follows (s : Stager) (module : Location) (copy : Path) (followed : Location → Prop) (holds : Path → Loaded → String → Prop)
    (now : FileTree) (specifier placed : String) : Prop :=
  ∃ way, s.Goes now module specifier copy way ∧ s.Carries copy followed holds way placed

/-- Payloads with the same digits hold the same bytes. -/
def DigestsAgree (loaded : List Loaded) : Prop :=
  ∀ a ∈ loaded, ∀ b ∈ loaded, digestOf a = digestOf b → a.content.toBytes = b.content.toBytes

/-- The payloads that some ways lead to. -/
def waysPayloads (ways : List (Mention × Route)) : List Loaded := ways.filterMap fun way => payload? way.2

section Copies

variable {copy : Path} {state state' : StageState} {list : List (Piece Mention)} {ways : List (Mention × Route)}
  {texts : List (List Char)}

theorem Copies.translates (copied : s.copyOf module = .ok copy)
    (whole : ∀ found text, .hit found text ∈ list → found.withSpecifier text found.specifier = text)
    (copies : s.Copies base tree module copy state now list ways texts state' after) (agree : DigestsAgree (waysPayloads ways)) :
    List.Forall₂ (s.Translates tree base (s.Follows module copy (· ∈ state'.queue) fun source loaded suffix =>
      loaded ∈ waysPayloads ways ∧ HoldsPayload base source loaded suffix state'.staged after)) list texts := by
  induction copies with
  | nil => exact .nil
  | plain _ ih => exact .cons (.plain _) (ih (fun found text mem => whole found text (List.mem_cons_of_mem _ mem)) agree)
  | @hit state between state' now files after found text importClass way answer rest ways texts area routed takes later ih =>
    have behind : waysPayloads ways ⊆ waysPayloads ((found, way) :: ways) :=
      List.filterMap_subset _ (List.subset_cons_self _ _)
    have inner := ih (fun found text mem => whole found text (List.mem_cons_of_mem _ mem))
      fun a mem b mem' => agree a (behind mem) b (behind mem')
    refine .cons ?_ (inner.imp fun piece text here => here.mono fun now specifier placed _ follows => ?_)
    · have placed : answer.elim text (fun new => found.withSpecifier text new.toList) =
          found.withSpecifier text (answer.getD (String.ofList found.specifier)).toList := by
        cases answer with
        | none => simpa using (whole found text List.mem_cons_self).symm
        | some new => rfl
      rw [placed]
      refine .mention area ⟨way, goes_of_route copied routed, ?_, ?_⟩
      · rintro target text rfl
        refine later.queue_subset ?_
        rw [takes.queue]
        simp [target?]
      · rintro source loaded rfl
        obtain ⟨suffix, known⟩ : ∃ suffix, payloadSuffixes.lookup loaded.loader = some suffix := by
          cases takes with
          | payload known => exact ⟨_, known⟩
        obtain ⟨holds, rfl⟩ := takes.holdsPayload known
        have mem : loaded ∈ waysPayloads ((found, .payload source loaded) :: ways) := List.mem_cons_self
        have kept := later.kept_payload known (fun other here => agree other (behind here) loaded mem) holds
        exact ⟨suffix, files, known, rfl, mem, kept⟩
    · obtain ⟨way', goes, carries⟩ := follows
      exact ⟨way', goes, carries.mono (fun _ => id) fun _ _ _ _ here => ⟨behind here.1, here.2⟩⟩

end Copies

/-! ## The record -/

/-- The copy of a module stands at its names below the stage root, and its pieces are those of the module, translated. -/
def CopyTranslates (s : Stager) (tree now : FileTree) (base : Location) (holds : List String → FileTree → String → String → Prop)
    (module : Location) : Prop :=
  ∃ names source texts, module = s.project ++ names ∧ s.WasRead tree base module source ∧
    now.lookup (base ++ names) = some (.file (encode (String.ofList texts.flatten))) ∧
    List.Forall₂ (s.Translates tree base (holds names)) (pieces mention none source.toList) texts

theorem CopyTranslates.mono {holds holds' : List String → FileTree → String → String → Prop}
    (translates : s.CopyTranslates tree now base holds module)
    (kept : ∀ names content, module = s.project ++ names → now.lookup (base ++ names) = some (.file content) →
      after.lookup (base ++ names) = some (.file content))
    (more : ∀ names files specifier placed, holds names files specifier placed → holds' names files specifier placed) :
    s.CopyTranslates tree after base holds' module := by
  obtain ⟨names, source, texts, whole, read, copied, alike⟩ := translates
  refine ⟨names, source, texts, whole, read, kept names _ whole copied, alike.imp fun piece text here => ?_⟩
  exact here.mono fun files specifier placed _ => more names files specifier placed

/-- A payload of a run is what its file holds, if no module of the run has the place of the file. -/
def Stored (s : Stager) (base : Location) (record : List Visit) (staged : Staged) (now : FileTree) (source : Path)
    (loaded : Loaded) (suffix : String) : Prop :=
  loaded ∈ payloads record ∧ ((∀ visit ∈ record, visit.module ≠ s.project ++ payloadPlace source loaded suffix) →
    HoldsPayload base source loaded suffix staged now)

/-- The payloads of a module that is staged are stored. -/
theorem Visits.translates {visit : Visit} {state state' : StageState} (area : Area s.root base tree now)
    (scanned : isScanned visit.module = true) (visits : s.Visits base tree state now visit state' after)
    (agree : DigestsAgree (waysPayloads visit.ways)) :
    s.CopyTranslates tree after base (fun names => s.Follows visit.module (s.root.under names) (· ∈ state'.queue)
      fun source loaded suffix => loaded ∈ waysPayloads visit.ways ∧ HoldsPayload base source loaded suffix state'.staged after)
      visit.module := by
  cases visits with
  | file _ unscanned => exact absurd (unscanned.symm.trans scanned) Bool.false_ne_true
  | @text module parts source ways texts _ _ _ _ whole _ holds copies opens writes =>
    have alike := copies.translates (whole ▸ s.copyOf_project parts) (fun found text mem => withSpecifier_self mem) agree
    refine ⟨parts, source, texts, whole, ⟨now, area, holds⟩, by rw [writes.lookup, if_pos rfl], ?_⟩
    refine alike.imp fun piece text here => here.mono fun files specifier placed _ ⟨way, goes, carries⟩ => ?_
    refine ⟨way, goes, carries.mono (fun _ => id) fun source loaded suffix known ⟨mem, payload⟩ => ⟨mem, ?_, payload.loader⟩⟩
    -- the specifiers of the module are followed, and those of a payload file would not be
    refine kept_of_writesTo writes (fun same => ?_) (kept_of_opensTo opens payload.file)
    have unscanned := not_isScanned_payloadFileName (s.project ++ [payloadName]) source loaded known
    rw [List.append_assoc] at unscanned
    have place : isScanned (s.project ++ payloadPlace source loaded suffix) = true := by rwa [same, ← whole]
    exact Bool.false_ne_true (unscanned.symm.trans place)

/-- The payloads of a run are stored. -/
theorem Records.translates {entry : Location} {record : List Visit} {state : StageState}
    (recorded : s.Records base tree entry record state now) (agree : DigestsAgree (payloads record)) :
    ∀ visit ∈ record, isScanned visit.module = true →
      s.CopyTranslates tree now base (fun names => s.Follows visit.module (s.root.under names)
        (fun target => target ∈ record.map Visit.module ∨ target ∈ state.queue) (s.Stored base record state.staged now))
        visit.module := by
  induction recorded with
  | start => simp
  | @visit record visit rest state state' now after _ area next visits ih =>
    have first : waysPayloads visit.ways ⊆ payloads (visit :: record) := List.subset_append_left _ _
    have earlier : payloads record ⊆ payloads (visit :: record) := List.subset_append_right _ _
    refine List.forall_mem_cons.2 ⟨fun scanned => ?_, fun other mem scanned => ?_⟩
    · have here := visits.translates area scanned fun a mem b mem' => agree a (first mem) b (first mem')
      refine here.mono (fun _ _ _ file => file) fun names files specifier placed ⟨way, goes, carries⟩ => ?_
      exact ⟨way, goes, carries.mono (fun _ => .inr) fun _ _ _ _ stored => ⟨first stored.1, fun _ => stored.2⟩⟩
    · refine (ih (fun a mem b mem' => agree a (earlier mem) b (earlier mem')) other mem scanned).mono
        (fun names content whole file => ?_) fun names files specifier placed ⟨way, goes, carries⟩ => ?_
      · refine visits.kept (whole ▸ scanned) (fun same => ?_) file
        exact head_not_mem next (List.mem_map.2 ⟨other, mem, whole.trans same.symm⟩)
      · refine ⟨way, goes, carries.mono (fun _ => frontier_step next visits) fun source loaded suffix known stored => ?_⟩
        refine ⟨earlier stored.1, fun apart => ?_⟩
        obtain ⟨beyond, before⟩ := List.forall_mem_cons.1 apart
        refine visits.kept_payload known (fun other way => ?_) beyond (stored.2 before)
        exact agree other (first way) loaded (earlier stored.1)

/-- The modules of a run that lie outside the stage root are files of the project. -/
theorem Records.exists_file {entry : Location} {record : List Visit} {state : StageState} {path : Path} (sound : tree.WellFormed)
    (resolved : s.resolveModule tree path = .ok (some entry)) (recorded : s.Records base tree entry record state now) :
    ∀ module, module ∈ record.map Visit.module ∨ module ∈ state.queue → Path.below? base module = none →
      ∃ content, tree.lookup module = some (.file content) := by
  induction recorded with
  | start =>
    rintro module (mem | mem) -
    · cases mem
    · rw [List.mem_singleton.1 mem]
      exact file_of_resolveModule sound resolved
  | @visit record visit rest state state' now after _ area next visits ih =>
    have waits : ∀ module ∈ visit.module :: rest, module ∈ record.map Visit.module ∨ module ∈ state.queue :=
      fun module mem => .inr ((List.dropWhile_suffix _).subset (next ▸ mem))
    rintro module (mem | mem) outside
    · obtain rfl | old := List.mem_cons.1 mem
      · exact ih _ (waits _ List.mem_cons_self) outside
      · exact ih _ (.inl old) outside
    · rw [visits.queue] at mem
      obtain new | old := List.mem_append.1 mem
      · obtain ⟨way, inside, target⟩ := List.mem_filterMap.1 (List.mem_reverse.1 new)
        obtain ⟨files, importClass, area', routed⟩ := visits.routed way inside
        obtain ⟨names, whole⟩ := visits.exists_names
        obtain ⟨found, text⟩ := way
        cases text with
        | module location text =>
          obtain rfl : location = module := Option.some.inj target
          obtain ⟨path, resolved⟩ := (goes_of_route (whole ▸ s.copyOf_project names) routed).resolved
          rw [← area'.lookup_outside outside]
          exact file_of_resolveModule area'.sound resolved
        | keep | external | payload => cases target
      · exact ih _ (waits _ (List.mem_cons_of_mem _ old)) outside

/-! ## Staged payloads -/

/-- What stands in a copy for a specifier that a plugin for payloads claims leads to a file below the stage root, which
holds what the plugin stores for the file that it resolves the specifier to. `files` are those when the module was
copied, and a module with the place of the payload file would be copied over it. -/
def LeadsToStored (s : Stager) (after : FileTree) (base : Location) (modules : List Location) (module : Location)
    (names : List String) (files : FileTree) (specifier placed : String) : Prop :=
  s.isExcluded specifier = false →
    (∀ target, s.Leads files module specifier target → target ∈ modules) ∧
    ∀ plugin, s.Claims specifier plugin → plugin.loadsPayloads = true →
      ∃ resolution content stored name, plugin.resolve files (directoryOf module) specifier (.ofLocation module) = .ok (some resolution) ∧
        files.read (.ofString resolution.path) = .ok content ∧ plugin.Stores content stored ∧
        (stored = content ↔ ∀ start, plugin = .text start → 13 ∉ content) ∧
        (s.project ++ [payloadName, name] ∉ modules →
          after.resolve ((s.root.under names).parent.child placed) = .ok (base ++ [payloadName, name]) ∧
          after.lookup (base ++ [payloadName, name]) = some (.file stored))

/-- A specifier whose payload is stored leads to what is stored. -/
theorem Follows.leadsToStored {files : FileTree} {specifier placed : String} {record : List Visit} {staged : Staged}
    {content : Bytes} (area : Area s.root base tree after) (root : s.root.holdsZero = false) (sound : files.WellFormed)
    (zero : ∀ name ∈ names, '\x00' ∉ name.toList) (copy : after.lookup (base ++ names) = some (.file content))
    (follows : s.Follows module (s.root.under names) (· ∈ record.map Visit.module) (s.Stored base record staged after) files
      specifier placed) : s.LeadsToStored after base (record.map Visit.module) module names files specifier placed := by
  intro included
  obtain ⟨way, goes, carries⟩ := follows
  refine ⟨fun target leads => ?_, fun plugin claims payloads => ?_⟩
  · obtain ⟨text, same⟩ := goes.module_iff.2 ⟨included, leads⟩
    exact carries.module target text same
  · obtain ⟨resolution, loaded, bytes, resolved, read, -, stores, same⟩ := goes.payload_of_claims included claims payloads
    obtain ⟨suffix, files', known, rfl, -, stored⟩ := carries.payload _ loaded same
    refine ⟨resolution, bytes, _, payloadFileName (.ofString resolution.path) loaded suffix, resolved, read, stores, stores.eq_iff,
      fun apart => ?_⟩
    have payload := stored fun visit mem same => apart (List.mem_map.2 ⟨visit, mem, same⟩)
    have filled : names ≠ [] := by
      rintro rfl
      rw [List.append_nil] at copy
      obtain directory | vacant := area.free <;> simp_all
    have present : after.lookup (base ++ names) ≠ none := by simp [copy]
    have named : AreNames names := (areNames_append.1 (area.sound.areNames present)).2
    have place := areNames_payloadPlace (isPlain_ofString resolution.path) loaded known
    refine ⟨?_, payload.file⟩
    rw [specifierTo_parent _ s.root named filled place]
    exact resolve_importOf area root filled named zero (not_mem_payloadPlace known (holdsZero_of_read sound read))
      (by simp [payload.file])

/-- When staging succeeds, the entry point was staged and so was what the staged modules lead to, and in their copies
each specifier that a plugin for payloads claims leads to a file with what the plugin stores, if payloads with the same
digits hold the same bytes. -/
theorem stage_stores_payloads (s : Stager) {tree : FileTree} {base : Location} (sound : tree.WellFormed)
    (project : tree.lookup s.project = some .directory)
    (leads : tree.follow s.root = .ok (.entry base .directory) ∨ tree.follow s.root = .ok (.vacant base))
    (unlinked : ∀ parts target, tree.lookup (base ++ parts) ≠ some (.link target)) (staged : Staged) (after : FileTree)
    (success : s.stage tree = (.ok staged, after))
    (digests : ∀ entry record state, s.resolveModule tree s.options.entryPoint = .ok (some entry) →
      s.Records base tree entry record state after → DigestsAgree (payloads record)) :
    ∃ (entry : Location) (modules : List Location),
      s.resolveModule tree s.options.entryPoint = .ok (some entry) ∧ entry ∈ modules ∧
        (∀ module ∈ modules, Path.below? base module = none → ∃ content, tree.lookup module = some (.file content)) ∧
        ∀ module ∈ modules, isScanned module = true →
          s.CopyTranslates tree after base (s.LeadsToStored after base modules module) module := by
  obtain ⟨entry, record, state, resolved, recorded, area, done, rfl⟩ := exists_record s (.enter sound leads unlinked) project success
  have root : s.root.holdsZero = false := by
    obtain leads | leads := leads <;> exact holdsZero_of_pathFault? ((follow_eq_ok_iff sound).1 leads).1
  refine ⟨entry, record.map Visit.module, resolved, ?_, fun module mem => ?_, fun module mem scanned => ?_⟩
  · exact recorded.entry_known.elim id (done entry)
  · exact recorded.exists_file sound resolved module (.inl mem)
  · obtain ⟨visit, staged, rfl⟩ := List.mem_map.1 mem
    obtain ⟨names, source, texts, whole, read, copied, alike⟩ :=
      recorded.translates (digests entry record state resolved recorded) visit staged scanned
    have zero : ∀ name ∈ names, '\x00' ∉ name.toList := by
      intro name inside held
      have known := recorded.holdsZero visit staged scanned
      have zero : (Path.ofLocation visit.module).holdsZero = true :=
        List.any_eq_true.2 ⟨name, whole ▸ List.mem_append_right _ inside, List.contains_iff_mem.2 held⟩
      exact Bool.false_ne_true (known.symm.trans zero)
    refine ⟨names, source, texts, whole, read, copied, alike.imp fun piece text here => here.mono ?_⟩
    rintro files specifier placed reached ⟨way, goes, carries⟩
    refine Follows.leadsToStored area root reached.sound zero copied ⟨way, goes, carries.mono ?_ fun _ _ _ _ => id⟩
    exact fun target known => known.elim id (done target)

/-- A module that imports a text whose lines end as on another platform. -/
def textFiles : FileTree where
  entries := [(["p"], .directory), (["p", "a.txt"], .file (encode "x\r\ny\r\n")),
    (["p", "main.js"], .file (encode "import 'string:./a.txt';\n"))]
  workingDirectory := ["p"]

/-- The staging of that module. -/
def textStager : Stager :=
  ⟨["p"], .ofString "/p/stage",
    { entryPoint := .ofString "/p/main.js", outputFile := .ofString "/p/out.js", plugins := [.text "string:"] }⟩

theorem linkFree_text : textFiles.LinkFree := linkFree_of_entries (by simp [textFiles])

theorem wellFormed_text : textFiles.WellFormed := wellFormed_of_entries (by decide) rfl

/-- What the plugin reads for the specifier of the text, whatever was staged, is the text of the project. -/
theorem read_textFiles {content : Bytes} {resolution : Resolution} (area : Area textStager.root ["p", "stage"] textFiles now)
    (resolved : (Plugin.text "string:").resolve now (directoryOf ["p", "main.js"]) "string:./a.txt" = .ok (some resolution))
    (read : now.read (.ofString resolution.path) = .ok content) : content = encode "x\r\ny\r\n" := by
  obtain ⟨target, real, same⟩ := Plugin.exists_of_resolve_text resolved
  obtain rfl := Option.some.inj same
  have loads : LoadsFrom now _ target content := ⟨real, read⟩
  obtain ⟨rfl, file⟩ := loads.stands area.sound (area.linkFree linkFree_text)
  have place : now.straight ((directoryOf ["p", "main.js"]).child
      (String.ofList ("string:./a.txt".toList.drop "string:".length))) = ["p", "a.txt"] := by
    rw [straight_congr area.workingDirectory_eq]
    decide
  rw [place, area.lookup_outside (by decide)] at file
  simpa [textFiles, FileTree.lookup, FileTree.find?] using file.symm

/-- The mention of the text goes the way to what is stored for it, whatever was staged. -/
theorem Visits.ofText {visit : Visit} {state state' : StageState} (here : visit.module = ["p", "main.js"])
    (area : Area textStager.root ["p", "stage"] textFiles now)
    (visits : textStager.Visits ["p", "stage"] textFiles state now visit state' after) :
    ∀ way ∈ visit.ways, ∃ source loaded, way.2 = .payload source loaded ∧
      (Plugin.text "string:").Stores (encode "x\r\ny\r\n") loaded.content.toBytes := by
  intro way mem
  obtain ⟨files, importClass, area', routed⟩ := visits.routed way mem
  have copied : textStager.copyOf visit.module = .ok (textStager.root.under ["main.js"]) :=
    here ▸ textStager.copyOf_project ["main.js"]
  have mention : way.1 = ⟨'\'', "string:./a.txt".toList⟩ := by
    have text : moduleText? textFiles visit.module = some "import 'string:./a.txt';\n" := by
      rw [here]
      decide +kernel
    have known : (pieces mention none "import 'string:./a.txt';\n".toList).filterMap Piece.value? =
        [⟨'\'', "string:./a.txt".toList⟩] := by decide +kernel
    have listed := visits.mem_mentions area (by rw [here]; decide) text way mem
    rw [known] at listed
    exact List.mem_singleton.1 listed
  have goes := goes_of_route copied routed
  rw [mention, String.ofList_toList, here] at goes
  obtain ⟨resolution, loaded, content, resolved, read, -, stores, same⟩ := goes.payload_of_claims rfl ⟨_, rfl, rfl⟩ rfl
  exact ⟨_, loaded, same, read_textFiles area' resolved read ▸ stores⟩

theorem stage_stores_payloads_text :
    textFiles.WellFormed ∧ ∃ staged after placed place, textStager.stage textFiles = (.ok staged, after) ∧
      after.lookup ["p", "stage", "main.js"] = some (.file (encode ("import '" ++ placed ++ "';\n"))) ∧
      after.resolve ((Path.ofString "/p/stage").child placed) = .ok (["p", "stage"] ++ place) ∧
      after.lookup (["p", "stage"] ++ place) = some (.file (encode "x\ny\n")) := by
  have done : (textStager.stage textFiles).1.toOption.isSome = true := by decide +kernel
  have start : textStager.resolveModule textFiles textStager.options.entryPoint = .ok (some ["p", "main.js"]) :=
    eq_ok_of_toOption (by decide +kernel)
  have root : textFiles.follow textStager.root = .ok (.vacant ["p", "stage"]) := by decide +kernel
  refine ⟨wellFormed_text, ?_⟩
  cases staging : textStager.stage textFiles with
  | mk result after =>
    rw [staging] at done
    cases result with
    | error failure => cases done
    | ok staged =>
      obtain ⟨entry, modules, resolved, mem, files, copies⟩ := stage_stores_payloads textStager wellFormed_text rfl (.inr root)
        (fun _ => linkFree_text _) staged after staging fun entry record state resolved recorded => by
          obtain rfl := Option.some.inj (Except.ok.inj (start.symm.trans resolved))
          obtain ⟨-, -, known⟩ := recorded.of_payloads fun visit _ _ _ _ here area visits => visits.ofText here area
          exact fun a mem b mem' _ => (known a mem).unique (known b mem')
      obtain rfl := Option.some.inj (Except.ok.inj (start.symm.trans resolved))
      obtain ⟨names, source, texts, whole, ⟨now, area, holds⟩, copied, alike⟩ := copies _ mem (by decide)
      obtain rfl : ["main.js"] = names := List.append_cancel_left (show ["p"] ++ ["main.js"] = ["p"] ++ names from whole)
      obtain rfl : "import 'string:./a.txt';\n" = source := by
        have read : moduleText? textFiles ["p", "main.js"] = some "import 'string:./a.txt';\n" := by decide +kernel
        exact Option.some.inj (read.symm.trans (moduleText?_of_holds area (by decide) rfl holds))
      have cut : pieces mention none "import 'string:./a.txt';\n".toList =
          [.hit ⟨'\'', "string:./a.txt".toList⟩ "import 'string:./a.txt'".toList, .plain ';', .plain '\n'] := by
        with_unfolding_all rfl
      rw [cut] at alike
      simp only [List.forall₂_cons_left_iff, List.forall₂_nil_left_iff] at alike
      obtain ⟨_, _, hit, ⟨_, _, ⟨⟩, ⟨_, _, ⟨⟩, rfl, rfl⟩, rfl⟩, rfl⟩ := alike
      cases hit with
      | @mention _ _ placed now area here =>
      obtain ⟨-, loads⟩ := here rfl
      obtain ⟨resolution, content, stored, name, resolved', read, stores, -, leads⟩ := loads (.text "string:") ⟨_, rfl, rfl⟩ rfl
      obtain rfl := read_textFiles area resolved' read
      have plain : String.ofList (plainNewlines "x\r\ny\r\n".toList) = "x\ny\n" := by decide
      obtain rfl := stores.unique (.text "string:" "x\r\ny\r\n")
      obtain ⟨way, file⟩ := leads fun staged => by
        obtain ⟨bytes, there⟩ := files _ staged rfl
        simp [textStager, textFiles, FileTree.lookup, FileTree.find?, payloadName] at there
      rw [plain] at file
      have written : String.ofList ([(Mention.mk '\'' "string:./a.txt".toList).withSpecifier "import 'string:./a.txt'".toList
          placed.toList, [';'], ['\n']].flatten) = "import '" ++ placed ++ "';\n" := by
        rw [← String.toList_inj]
        simp [Mention.withSpecifier]
      exact ⟨staged, after, placed, _, rfl, written ▸ copied, way, file⟩

/-- A module that imports a binary payload, and a file with the place of the payload file. -/
def overwrittenFiles : FileTree where
  entries := [(["p"], .directory), (["p", "__payloads__"], .directory), (["p", "p.wasm"], .file (encode "y")),
    (["p", "__payloads__", "p.a1fce4363854.bin"], .file (encode "x")),
    (["p", "main.js"], .file (encode "import './p.wasm';\nimport './__payloads__/p.a1fce4363854.bin';\n"))]
  workingDirectory := ["p"]

/-- The staging of that module. -/
def overwrittenStager : Stager :=
  ⟨["p"], .ofString "/p/stage",
    { entryPoint := .ofString "/p/main.js", outputFile := .ofString "/p/out.js", plugins := [.binary ".wasm"] }⟩

/-- Staging succeeds, but the specifier of a text leads to a file with other bytes, its lines ending in line feeds. So
does that of a binary payload where a module is copied over its file. -/
theorem stage_alters_payloads :
    (textFiles.lookup ["p", "a.txt"] = some (.file (encode "x\r\ny\r\n")) ∧
      (textStager.stage textFiles).1.toOption.isSome = true ∧
      (textStager.stage textFiles).2.lookup ["p", "stage", "main.js"] =
        some (.file (encode "import './__payloads__/a.09834d488008.txt';\n")) ∧
      (textStager.stage textFiles).2.read (.ofString "/p/stage/./__payloads__/a.09834d488008.txt") = .ok (encode "x\ny\n") ∧
      encode "x\ny\n" ≠ encode "x\r\ny\r\n") ∧
    overwrittenFiles.lookup ["p", "p.wasm"] = some (.file (encode "y")) ∧
      (overwrittenStager.stage overwrittenFiles).1.toOption.isSome = true ∧
      (overwrittenStager.stage overwrittenFiles).2.lookup ["p", "stage", "main.js"] =
        some (.file (encode "import './__payloads__/p.a1fce4363854.bin';\nimport './__payloads__/p.a1fce4363854.bin';\n")) ∧
      (overwrittenStager.stage overwrittenFiles).2.read (.ofString "/p/stage/./__payloads__/p.a1fce4363854.bin") =
        .ok (encode "x") := by
  have first : (textStager.stage textFiles).1.toOption.isSome = true ∧
      (textStager.stage textFiles).2.lookup ["p", "stage", "main.js"] =
        some (.file (encode "import './__payloads__/a.09834d488008.txt';\n")) ∧
      ((textStager.stage textFiles).2.read (.ofString "/p/stage/./__payloads__/a.09834d488008.txt")).toOption =
        some (encode "x\ny\n") := by decide +kernel
  have second : (overwrittenStager.stage overwrittenFiles).1.toOption.isSome = true ∧
      (overwrittenStager.stage overwrittenFiles).2.lookup ["p", "stage", "main.js"] =
        some (.file (encode "import './__payloads__/p.a1fce4363854.bin';\nimport './__payloads__/p.a1fce4363854.bin';\n")) ∧
      ((overwrittenStager.stage overwrittenFiles).2.read (.ofString "/p/stage/./__payloads__/p.a1fce4363854.bin")).toOption =
        some (encode "x") := by decide +kernel
  exact ⟨⟨rfl, first.1, first.2.1, eq_ok_of_toOption first.2.2, encode_inj.not.2 (by decide)⟩, rfl, second.1, second.2.1,
    eq_ok_of_toOption second.2.2⟩

end Stager

end WasmPackaging.Bundling
