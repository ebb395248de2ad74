import Mathlib.Tactic.IntervalCases
import WasmPackaging.Bundling.Bundler
import WasmPackaging.Proofs.Bundling.LoadingPlugins
import WasmPackaging.Proofs.Bundling.MirrorResolution
import WasmPackaging.Proofs.Bundling.Payloads
import WasmPackaging.Proofs.FileTree.LinkFree
import WasmPackaging.Proofs.Loader.HookLine

/-!
The payload of a prepared loader. The first line of the loader imports the payload, and it is the first
mention that staging meets, so the payload is loaded from the project as it was; the copy imports its file
instead, which holds the payload in the end (`stage_inlines_payload`).
-/

namespace WasmPackaging.Bundling

open Text FileTree Loader

/-! ## The import in the text of a loader -/

/-- No mention starts in front of the specifier of the import. -/
theorem mention_importFront {u v : List Char} (whole : "import wasmCode ".toList = u ++ v) (filled : v ≠ []) (rest : List Char) :
    mention (charBefore none u) (v ++ ("from '".toList ++ rest)) = none := by
  have cut : v = "import wasmCode ".toList.drop u.length := by rw [whole, List.drop_left]
  have front : u = "import wasmCode ".toList.take u.length := by rw [whole, List.take_left]
  have short : u.length < 16 := by
    have lengths := congrArg List.length whole
    have positive := List.length_pos_iff.2 filled
    simp only [String.reduceToList, List.length_cons, List.length_nil, List.length_append] at lengths
    omega
  rw [cut, front]
  generalize u.length = n at short
  clear whole filled cut front
  interval_cases n <;> rfl

theorem mention_import {specifier : List Char} (valid : specifier.all isSpecifierChar = true) (filled : specifier ≠ [])
    (rest : List Char) :
    mention (some ' ') (("from '".toList ++ specifier ++ ['\'']) ++ rest) = some (⟨'\'', specifier⟩, rest) := by
  have behind : afterKeyword? (("from '".toList ++ specifier ++ ['\'']) ++ rest) = some ('\'' :: (specifier ++ '\'' :: rest)) := by
    rw [List.append_assoc, List.append_assoc, List.singleton_append]
    rfl
  have stop : Stops isSpecifierChar ('\'' :: rest) := by simp [isSpecifierChar]
  have word := takeWhile_span valid stop
  have later := dropWhile_span valid stop
  have start : (some ' ').any (fun c => isNameChar c || c == '.') = false := by decide
  unfold mention
  simp only [start, behind, Bool.false_eq_true, if_false, Option.bind_eq_bind, Option.bind_some, List.head?_cons, List.tail_cons,
    word, later]
  simp [filled, after?]

theorem payloadLine_import (specifier : String) (rest : List Char) : payloadLine {} specifier ++ '\n' :: rest =
    "import wasmCode ".toList ++ (("from '".toList ++ specifier.toList ++ ['\'']) ++ (';' :: '\n' :: rest)) := by
  have front : "import ".toList ++ (LoaderOptions.payloadBinding {}).toList ++ " from '".toList =
      "import wasmCode ".toList ++ "from '".toList := by decide
  have close : "';".toList = ['\'', ';'] := by decide
  unfold payloadLine
  rw [front, close]
  simp only [List.append_assoc, List.cons_append, List.nil_append]

/-- The pieces of a text that starts with the import of a payload. -/
theorem pieces_payloadLine {specifier : String} (valid : specifier.toList.all isSpecifierChar = true) (filled : specifier.toList ≠ [])
    (rest : List Char) :
    pieces mention none (payloadLine {} specifier ++ '\n' :: rest) =
      "import wasmCode ".toList.map .plain ++
        .hit ⟨'\'', specifier.toList⟩ ("from '".toList ++ specifier.toList ++ ['\'']) ::
          ([';', '\n'].map .plain ++ pieces mention (some '\n') rest) := by
  have nowhere : ∀ u v, "import wasmCode ".toList = u ++ v → v ≠ [] → mention (charBefore none u)
      (v ++ (("from '".toList ++ specifier.toList ++ ['\'']) ++ (';' :: '\n' :: rest))) = none := by
    intro u v whole more
    have nothing := mention_importFront whole more (specifier.toList ++ (['\''] ++ (';' :: '\n' :: rest)))
    simpa only [List.append_assoc] using nothing
  have before : charBefore none "import wasmCode ".toList = some ' ' := by decide
  have before' : charBefore (some ' ') ("from '".toList ++ specifier.toList ++ ['\'']) = some '\'' := by simp
  have semicolon : mention (some '\'') (';' :: '\n' :: rest) = none := rfl
  have newline : mention (some ';') ('\n' :: rest) = none := rfl
  rw [payloadLine_import, pieces_skip nowhere, before, pieces_hit (by simp) (mention_import valid filled _), before', pieces_plain semicolon,
    pieces_plain newline]
  rfl

/-- The specifier of a payload can be mentioned. -/
theorem isSpecifier_payloadSpecifier {source : List Char} {name : String} (named : payload? source = .ok name) :
    (payloadSpecifier name).toList.all isSpecifierChar = true ∧ endsWith ".wasm" (payloadSpecifier name) = true := by
  obtain ⟨chars, ending, -⟩ := payload?_sound named
  have inner : name.toList.all isSpecifierChar = true := chars
  have ends : ".wasm".toList.isSuffixOf name.toList = true := ((Bool.and_eq_true _ _).mp ending).2
  refine ⟨?_, endsWith_payloadSpecifier ends⟩
  obtain same | ⟨same, -⟩ := payloadSpecifier_cases name
  · rw [same]
    exact inner
  · rw [same, String.toList_append, List.all_append, inner]
    decide

theorem ne_nil_of_endsWith {specifier : String} (ends : endsWith ".wasm" specifier = true) : specifier.toList ≠ [] := by
  intro empty
  rw [endsWith, empty] at ends
  cases ends

/-- A prepared loader is read as its import, which names its payload, and more. -/
theorem exists_plainNewlines_of_inlinePayload {source rewritten : String} (plain : '\r' ∉ source.toList)
    (prepared : inlinePayload {} source = .ok rewritten) : ∃ name rest, payload? source.toList = .ok name ∧
      plainNewlines rewritten.toList = payloadLine {} (payloadSpecifier name) ++ '\n' :: rest := by
  obtain ⟨name, body, named, rfl⟩ := inlinePayload_eq_ok prepared
  have flat : '\r' ∉ (payloadSpecifier name).toList :=
    not_mem_payloadSpecifier (fun mem => plain ((payload?_sound named).2.2 mem)) (by decide) (by decide)
  have line : '\r' ∉ payloadLine {} (payloadSpecifier name) ++ ['\n'] :=
    List.not_mem_append (List.not_mem_append (List.not_mem_append (by decide) flat) (by decide)) (by decide)
  refine ⟨name, plainNewlines (hookLine {} ++ '\n' :: body), named, ?_⟩
  rw [String.toList_append, toList_header, String.toList_ofList]
  simpa using plainNewlines_append line (hookLine {} ++ '\n' :: body)

/-- A loader that was noted for an ending is told to the bundler. -/
theorem mem_buildArguments_of_loader (command : List String) (options : BuildOptions) (output : Location) {staged : Staged}
    {suffix loader : String} (noted : staged.loaders.lookup suffix = some loader) :
    "--loader:" ++ suffix ++ "=" ++ loader ∈ BundlingCommand.buildArguments command options output staged := by
  have told : "--loader:" ++ suffix ++ "=" ++ loader ∈ BundlingCommand.loaderArguments staged.loaders := by
    obtain ⟨before, later, whole, -⟩ := List.lookup_eq_some_iff.1 noted
    refine List.mem_map.2 ⟨(suffix, loader), List.mem_mergeSort.2 (by simp [whole]), ?_⟩
    simp [toString]
  unfold BundlingCommand.buildArguments
  simp only [List.mem_append]
  exact .inl (.inl (.inl (.inr told)))

/-! ## The way of a payload -/

namespace Stager

variable {s : Stager} {tree now after : FileTree} {base module loader : Location}

/-- The path that a real location is loaded from. -/
def payloadSource (target : Location) : Path := .ofString (Path.ofLocation target).toString

/-- A binary payload. -/
def payloadOf (content : Bytes) : Loaded := ⟨.bytes content, "binary"⟩

theorem lookup_payloadOf (content : Bytes) : payloadSuffixes.lookup (payloadOf content).loader = some ".bin" := rfl

/-- Where the file of a binary payload stands below the stage root. -/
def binaryPlace (target : Location) (content : Bytes) : List String :=
  payloadPlace (payloadSource target) (payloadOf content) ".bin"

/-- A path resolves to a location, from which a content is loaded. -/
structure LoadsFrom (tree : FileTree) (path : Path) (target : Location) (content : Bytes) : Prop where
  resolved : tree.resolve path = .ok target
  read : tree.read (payloadSource target) = .ok content

/-- Without links, a path is loaded from the file at the location that it spells. -/
theorem LoadsFrom.stands (sound : tree.WellFormed) (free : tree.LinkFree) {path : Path} {target : Location} {content : Bytes}
    (loads : LoadsFrom tree path target content) :
    target = tree.straight path ∧ tree.lookup target = some (.file content) := by
  obtain ⟨-, straight⟩ := free.straight_of_resolve loads.resolved
  have named : AreNames target := straight ▸ areNames_straight sound path
  have source : payloadSource target = .ofLocation target := Path.ofString_toString_ofLocation named
  have there := (free.lookup_of_read sound loads.read).2
  rw [source, straight_ofLocation named] at there
  exact ⟨straight.symm, there⟩

/-- With the plugin for binary payloads alone, a specifier with their ending goes the way to what the file that it
resolves to holds. -/
theorem Goes.binary {specifier : String} {copy : Path} {way : Route} (plugins : s.options.plugins = [.binary ".wasm"])
    (external : s.options.external = []) (ends : endsWith ".wasm" specifier = true) (goes : s.Goes now module specifier copy way) :
    ∃ target content, LoadsFrom now ((directoryOf module).child specifier) target content ∧
      way = .payload (payloadSource target) (payloadOf content) := by
  have claims : s.Claims specifier (.binary ".wasm") := by
    refine ⟨⟨.binaryPayload, some (.binary ".wasm")⟩, ?_, rfl⟩
    simp [classify, plugins, Plugin.accepts, ends, Plugin.importClass]
  have included : s.isExcluded specifier = false := by simp [isExcluded, external]
  obtain ⟨resolution, loaded, -, where_, -, load, -, rfl⟩ := goes.payload_of_claims included claims rfl
  obtain ⟨target, real, same⟩ := Plugin.exists_of_resolveFile where_
  obtain rfl := Option.some.inj same
  obtain ⟨content, read, same⟩ := Plugin.exists_of_load_binary load
  obtain rfl := Option.some.inj same
  exact ⟨target, content, ⟨real, read⟩, rfl⟩

/-- Characters that no mention covers stand in the copy as they are. -/
theorem Copies.of_plains {copy : Path} {state state' : StageState} {chars : List Char} {list : List (Piece Mention)}
    {ways : List (Mention × Route)} {texts : List (List Char)}
    (copies : s.Copies base tree module copy state now (chars.map .plain ++ list) ways texts state' after) :
    ∃ texts', texts.flatten = chars ++ texts'.flatten ∧ s.Copies base tree module copy state now list ways texts' state' after := by
  induction chars generalizing texts with
  | nil => exact ⟨texts, rfl, copies⟩
  | cons c chars ih =>
    cases copies with
    | plain rest =>
      obtain ⟨texts', whole, onward⟩ := ih rest
      exact ⟨texts', by rw [List.flatten_cons, whole]; rfl, onward⟩

/-! ## The copy of the loader -/

/-- The specifier that leads from the copy of a module to a place below the stage root. -/
def importOf (names place : List String) : String := Specifier.ofRelative ⟨.relative, Path.relativeParts place names.dropLast⟩

theorem specifierTo_parent (tree : FileTree) (root : Path) {names place : List String} (named : AreNames names)
    (filled : names ≠ []) (named' : AreNames place) :
    specifierTo tree (root.under place) (root.under names).parent = importOf names place := by
  rw [Path.parent_under root filled, specifierTo_under tree root named' named.dropLast, Specifier.relative, Path.relativeTo, importOf]

/-- The import of a payload with another specifier in it. -/
theorem withSpecifier_import (specifier new : List Char) :
    (Mention.mk '\'' specifier).withSpecifier ("from '".toList ++ specifier ++ ['\'']) new = "from '".toList ++ new ++ ['\''] := by
  simp [Mention.withSpecifier]

theorem areNames_binaryPlace (target : Location) (content : Bytes) : AreNames (binaryPlace target content) :=
  areNames_payloadPlace (isPlain_ofString _) _ (lookup_payloadOf content)

/-- In the copy of a text that imports its payload first, the payload file is imported instead, which holds what was
loaded. -/
theorem Copies.importsPayload {names : List String} {specifier : String} {rest : List Char} {state state' : StageState}
    {ways : List (Mention × Route)} {texts : List (List Char)} (plugins : s.options.plugins = [.binary ".wasm"])
    (external : s.options.external = []) (valid : specifier.toList.all isSpecifierChar = true)
    (ends : endsWith ".wasm" specifier = true) (whole : module = s.project ++ names) (filled : names ≠ []) (named : AreNames names)
    (copies : s.Copies base tree module (s.root.under names) state tree
      (pieces mention none (payloadLine {} specifier ++ '\n' :: rest)) ways texts state' after)
    (agree : ∀ a ∈ ways.filterMap fun way => payload? way.2, ∀ b ∈ ways.filterMap fun way => payload? way.2,
      digestOf a = digestOf b → a.content.toBytes = b.content.toBytes) :
    ∃ target content rest', LoadsFrom tree ((directoryOf module).child specifier) target content ∧
      payloadOf content ∈ ways.filterMap (fun way => payload? way.2) ∧
      HoldsPayload base (payloadSource target) (payloadOf content) ".bin" state'.staged after ∧
      texts.flatten = payloadLine {} (importOf names (binaryPlace target content)) ++ '\n' :: rest' := by
  rw [pieces_payloadLine valid (ne_nil_of_endsWith ends)] at copies
  obtain ⟨texts', front, onward⟩ := copies.of_plains
  cases onward with
  | hit _ routed takes others =>
    have goes := goes_of_route (whole ▸ s.copyOf_project names) routed
    rw [String.ofList_toList] at goes
    obtain ⟨target, content, loads, rfl⟩ := goes.binary plugins external ends
    obtain ⟨holds, rfl⟩ := takes.holdsPayload (lookup_payloadOf content)
    obtain ⟨texts'', behind, -⟩ := others.of_plains
    have kept := others.kept_payload (lookup_payloadOf content)
      (fun other later => agree other (List.mem_cons_of_mem _ later) _ List.mem_cons_self) holds
    refine ⟨target, content, texts''.flatten, loads, List.mem_cons_self, kept, ?_⟩
    have place := areNames_binaryPlace target content
    rw [binaryPlace] at place
    rw [front, List.flatten_cons, behind, Option.elim_some, specifierTo_parent _ s.root named filled place, withSpecifier_import,
      payloadLine_import, binaryPlace]
    simp only [List.append_assoc, List.cons_append, List.nil_append]

/-- The copy of a prepared loader imports the file of a payload, which holds what was loaded. -/
structure ImportsPayload (base : Location) (names : List String) (target : Location) (content : Bytes) (staged : Staged)
    (now : FileTree) : Prop where
  copy : ∃ rest, now.lookup (base ++ names) =
    some (.file (encode (String.ofList (payloadLine {} (importOf names (binaryPlace target content)) ++ '\n' :: rest))))
  payload : HoldsPayload base (payloadSource target) (payloadOf content) ".bin" staged now

section Prepared

variable {names : List String} {specifier text : String} {rest : List Char} {entry : Location}

/-- A prepared loader that is staged before anything else imports its payload. -/
theorem Visits.importsPayload {visit : Visit} {state state' : StageState} (plugins : s.options.plugins = [.binary ".wasm"])
    (external : s.options.external = []) (valid : specifier.toList.all isSpecifierChar = true)
    (ends : endsWith ".wasm" specifier = true) (whole : visit.module = s.project ++ names) (filled : names ≠ [])
    (named : AreNames names) (scanned : isScanned visit.module = true)
    (holds : ∀ source, HoldsText tree (.ofLocation visit.module) source →
      source.toList = payloadLine {} specifier ++ '\n' :: rest)
    (visits : s.Visits base tree state tree visit state' after) (keeps : s.KeepsPayloads [visit]) :
    ∃ target content, LoadsFrom tree ((directoryOf visit.module).child specifier) target content ∧
      payloadOf content ∈ payloads [visit] ∧ ImportsPayload base names target content state'.staged after := by
  have agree : ∀ a ∈ visit.ways.filterMap fun way => payload? way.2, ∀ b ∈ visit.ways.filterMap fun way => payload? way.2,
      digestOf a = digestOf b → a.content.toBytes = b.content.toBytes := by simpa [payloads] using keeps.digests
  cases visits with
  | file _ unscanned => exact absurd (unscanned.symm.trans scanned) Bool.false_ne_true
  | @text module parts source ways _ _ _ _ _ whole' _ held copies opens writes =>
    obtain rfl := List.append_cancel_left (whole'.symm.trans whole)
    rw [holds source held] at copies
    obtain ⟨target, content, rest', loads, mem, payload, copied⟩ :=
      copies.importsPayload plugins external valid ends whole filled named agree
    refine ⟨target, content, loads, by simpa [payloads] using mem, ⟨rest', ?_⟩, ?_, payload.loader⟩
    · rw [writes.lookup, if_pos rfl, copied]
    · refine kept_of_writesTo writes (fun same => ?_) (kept_of_opensTo opens payload.file)
      exact keeps.ne_payloadPlace List.mem_cons_self _ _ _ (same ▸ whole)

/-- A prepared loader that is the entry point imports its payload, whatever is staged after it. -/
theorem Records.importsPayload {record : List Visit} {state : StageState} (plugins : s.options.plugins = [.binary ".wasm"])
    (external : s.options.external = []) (valid : specifier.toList.all isSpecifierChar = true)
    (ends : endsWith ".wasm" specifier = true) (whole : entry = s.project ++ names) (filled : names ≠ [])
    (named : AreNames names) (scanned : isScanned entry = true)
    (holds : ∀ source, HoldsText tree (.ofLocation entry) source → source.toList = payloadLine {} specifier ++ '\n' :: rest)
    (recorded : s.Records base tree entry record state now) (started : record ≠ []) (keeps : s.KeepsPayloads record) :
    ∃ target content, LoadsFrom tree ((directoryOf entry).child specifier) target content ∧ entry ∈ record.map Visit.module ∧
      payloadOf content ∈ payloads record ∧ ImportsPayload base names target content state.staged now := by
  induction recorded with
  | start => exact absurd rfl started
  | @visit record visit rest' state state' now after before _ next visits ih =>
    by_cases first : record = []
    · subst first
      cases before with
      | start copied =>
        obtain ⟨rfl, -⟩ : entry = visit.module ∧ _ := by simpa using next
        obtain ⟨target, content, loads, mem, imports⟩ :=
          visits.importsPayload plugins external valid ends whole filled named scanned holds keeps
        exact ⟨target, content, loads, List.mem_cons_self, mem, imports⟩
    · obtain ⟨target, content, loads, staged, mem, ⟨rest, copy⟩, payload⟩ := ih first keeps.tail
      have mem' : payloadOf content ∈ payloads (visit :: record) := List.mem_append_right _ mem
      have other : visit.module ≠ s.project ++ names := by
        rintro same
        exact head_not_mem next (same ▸ whole ▸ staged)
      refine ⟨target, content, loads, List.mem_cons_of_mem _ staged, mem', ⟨rest, ?_⟩, ?_⟩
      · exact visits.kept (whole ▸ scanned) other copy
      · refine visits.kept_payload (lookup_payloadOf content) (fun other way => ?_) (keeps.ne_payloadPlace List.mem_cons_self _ _ _) payload
        exact keeps.digests other (List.mem_append_left _ way) _ mem'

end Prepared

/-- A path that is read holds no zero character. -/
theorem holdsZero_of_read (sound : tree.WellFormed) {path : Path} {content : Bytes} (read : tree.read path = .ok content) :
    path.holdsZero = false := by
  obtain ⟨place, leads⟩ := read_eq_ok_iff.1 read
  exact holdsZero_of_pathFault? ((follow_eq_ok_iff sound).1 leads).1

/-- The names of a module whose specifiers were followed can be looked up. -/
theorem Records.holdsZero {entry : Location} {record : List Visit} {state : StageState}
    (recorded : s.Records base tree entry record state now) :
    ∀ visit ∈ record, isScanned visit.module = true → (Path.ofLocation visit.module).holdsZero = false := by
  induction recorded with
  | start => simp
  | visit _ area _ visits ih =>
    refine List.forall_mem_cons.2 ⟨fun scanned => ?_, ih⟩
    cases visits with
    | text _ _ holds =>
      obtain ⟨_, _, read, -⟩ := holds
      exact holdsZero_of_read area.sound read
    | file _ unscanned => exact absurd (unscanned.symm.trans scanned) Bool.false_ne_true

/-- The entry point of a run has a copy. -/
theorem Records.exists_copy {entry : Location} {record : List Visit} {state : StageState}
    (recorded : s.Records base tree entry record state now) : ∃ copy, s.copyOf entry = .ok copy := by
  induction recorded with
  | start copied => exact ⟨_, copied⟩
  | visit _ _ _ _ ih => exact ih

/-- Something is staged in a run that succeeds. -/
theorem Records.ne_nil {entry : Location} {record : List Visit} {state : StageState}
    (recorded : s.Records base tree entry record state now) (done : ∀ module ∈ state.queue, module ∈ record.map Visit.module) :
    record ≠ [] := by
  rintro rfl
  cases recorded with
  | start => simpa using done entry List.mem_cons_self

/-! ## The path to the payload file -/

/-- The specifier that leads from a copy to a place resolves to it. -/
theorem resolve_importOf (area : Area s.root base tree after) {names place : List String} (root : s.root.holdsZero = false)
    (filled : names ≠ []) (named : AreNames names) (zero : ∀ name ∈ names, '\x00' ∉ name.toList)
    (zero' : ∀ name ∈ place, '\x00' ∉ name.toList) (present : after.lookup (base ++ place) ≠ none) :
    after.resolve ((s.root.under names).parent.child (importOf names place)) = .ok (base ++ place) := by
  have named' : AreNames place := (areNames_append.1 (area.sound.areNames present)).2
  have clean : (s.root.under (names.dropLast ++ Path.relativeParts place names.dropLast)).holdsZero = false := by
    rw [holdsZero_under, root, Bool.false_or, List.any_eq_false]
    intro part mem held
    have inside := List.contains_iff_mem.1 held
    obtain outer | way := List.mem_append.1 mem
    · exact zero part (List.dropLast_subset _ outer) inside
    · obtain rfl | down := Path.mem_relativeParts way
      · revert inside
        decide
      · exact zero' part down inside
  rw [← specifierTo_parent after s.root named filled named', Path.parent_under s.root filled]
  exact resolve_specifierTo area present named.dropLast clean

/-- When a prepared loader is staged with the plugin for binary payloads alone, its copy imports a file that holds what
the payload of the loader resolves to, and the bundler is told to inline it. -/
theorem stage_inlines_payload (s : Stager) {tree after : FileTree} {base loader : Location} {staged : Staged}
    {source rewritten : String} (sound : tree.WellFormed) (free : tree.LinkFree)
    (project : tree.lookup s.project = some .directory)
    (leads : tree.follow s.root = .ok (.entry base .directory) ∨ tree.follow s.root = .ok (.vacant base))
    (plugins : s.options.plugins = [.binary ".wasm"]) (external : s.options.external = [])
    (plain : '\r' ∉ source.toList) (prepared : inlinePayload {} source = .ok rewritten)
    (stored : tree.lookup loader = some (.file (encode rewritten))) (script : (Path.ofLocation loader).suffix = ".js")
    (entry : s.resolveModule tree s.options.entryPoint = .ok (some loader)) (success : s.stage tree = (.ok staged, after))
    (keeps : ∀ record state, s.Records base tree loader record state after → s.KeepsPayloads record)
    (command : List String) (output : Location) :
    ∃ name names specifier rest target bytes place, Loader.payload? source.toList = .ok name ∧ loader = s.project ++ names ∧
      tree.resolve ((directoryOf loader).child name) = .ok target ∧ tree.lookup target = some (.file bytes) ∧
      after.lookup (base ++ names) = some (.file (encode (String.ofList (payloadLine {} specifier ++ '\n' :: rest)))) ∧
      after.resolve ((s.root.under names).parent.child specifier) = .ok (base ++ place) ∧
      after.lookup (base ++ place) = some (.file bytes) ∧
      "--loader:.bin=binary" ∈ BundlingCommand.buildArguments command s.options output staged := by
  obtain ⟨found, record, state, resolved, recorded, area, done, rfl⟩ :=
    exists_record s (.enter sound leads fun _ => free _) project success
  obtain rfl : loader = found := by simpa [entry] using resolved
  obtain ⟨copy, copied⟩ := recorded.exists_copy
  obtain ⟨names, whole, -⟩ := s.copyOf_eq_ok_iff.1 copied
  obtain ⟨filled, named⟩ := proper_of_file sound project stored names whole
  have located : AreNames loader := sound.areNames (by simp [stored])
  obtain ⟨name, rest, payload, text⟩ := exists_plainNewlines_of_inlinePayload plain prepared
  obtain ⟨valid, ends⟩ := isSpecifier_payloadSpecifier payload
  have holds (read : String) (held : HoldsText tree (.ofLocation loader) read) :
      read.toList = payloadLine {} (payloadSpecifier name) ++ '\n' :: rest := by
    obtain ⟨bytes, chars, stands, decoded, rfl⟩ := held
    have there := (free.lookup_of_read sound stands).2
    rw [straight_ofLocation located, stored] at there
    obtain rfl : encode rewritten = bytes := by simpa using there
    obtain rfl : rewritten.toList = chars := Except.ok.inj ((decode_encode rewritten).symm.trans decoded)
    rw [String.toList_ofList, text]
  have scanned : isScanned loader = true := by
    rw [isScanned, script]
    decide
  obtain ⟨target, bytes, loads, visited, -, ⟨rest', imports⟩, file, noted⟩ :=
    recorded.importsPayload plugins external valid ends whole filled named scanned holds (recorded.ne_nil done) (keeps _ _ recorded)
  have zero : ∀ part ∈ names, '\x00' ∉ part.toList := by
    obtain ⟨visit, mem, rfl⟩ := List.mem_map.1 visited
    intro part inside held
    have known := recorded.holdsZero visit mem scanned
    have zero : (Path.ofLocation visit.module).holdsZero = true :=
      List.any_eq_true.2 ⟨part, whole ▸ List.mem_append_right _ inside, List.contains_iff_mem.2 held⟩
    exact Bool.false_ne_true (known.symm.trans zero)
  have root : s.root.holdsZero = false := by
    obtain leads | leads := leads <;> exact holdsZero_of_pathFault? ((follow_eq_ok_iff sound).1 leads).1
  refine ⟨name, names, _, rest', target, bytes, _, payload, whole, ?_, (loads.stands sound free).2, imports, ?_, file, ?_⟩
  · have resolved := loads.resolved
    rwa [Path.child, ofString_payloadSpecifier] at resolved
  · exact resolve_importOf area root filled named zero
      (not_mem_payloadPlace (lookup_payloadOf bytes) (holdsZero_of_read sound loads.read))
      (ne_of_eq_of_ne file (Option.some_ne_none _))
  · exact mem_buildArguments_of_loader command s.options output noted

/-- The mentions of a module that lies outside the stage root are those of its text in the project. -/
theorem Visits.mem_mentions {visit : Visit} {state state' : StageState} {source : String} (area : Area s.root base tree now)
    (outside : Path.below? base visit.module = none) (text : moduleText? tree visit.module = some source)
    (visits : s.Visits base tree state now visit state' after) :
    ∀ way ∈ visit.ways, way.1 ∈ (pieces mention none source.toList).filterMap Piece.value? := by
  intro way mem
  cases visits with
  | file => cases mem
  | @text module parts read ways texts _ _ _ _ _ _ holds copies =>
    obtain ⟨content, file⟩ : ∃ content, tree.lookup module = some (.file content) := by
      unfold moduleText? at text
      split at text
      · next content file => exact ⟨content, file⟩
      · cases text
    obtain rfl := Option.some.inj (text.symm.trans (moduleText?_of_holds area outside file holds))
    rw [← copies.mentions]
    exact List.mem_map_of_mem mem

/-- A loader that was prepared from one that constructs the URL of its payload, beside that payload. -/
def preparedFiles : FileTree where
  entries := [(["p"], .directory), (["p", "p.wasm"], .file [0, 97]),
    (["p", "temp.js"],
      .file (encode "import wasmCode from './p.wasm';\nlet startWorkers, terminateWorkers;\nconst url = wasmCode;\n"))]
  workingDirectory := ["p"]

/-- The staging of that loader. -/
def preparedStager : Stager :=
  ⟨["p"], .ofString "/p/stage",
    { entryPoint := .ofString "/p/temp.js", outputFile := .ofString "/p/out.js", plugins := [.binary ".wasm"] }⟩

theorem linkFree_prepared : preparedFiles.LinkFree := linkFree_of_entries (by simp [preparedFiles])

theorem wellFormed_prepared : preparedFiles.WellFormed := wellFormed_of_entries (by decide) rfl

/-- The mention of the prepared loader goes the way to its payload, whatever was staged. -/
theorem Visits.prepared {visit : Visit} {state state' : StageState} (here : visit.module = ["p", "temp.js"])
    (area : Area preparedStager.root ["p", "stage"] preparedFiles now)
    (visits : preparedStager.Visits ["p", "stage"] preparedFiles state now visit state' after) :
    ∀ way ∈ visit.ways, ∃ source loaded, way.2 = .payload source loaded ∧ loaded = payloadOf [0, 97] := by
  intro way mem
  obtain ⟨files, importClass, area', routed⟩ := visits.routed way mem
  have copied : preparedStager.copyOf visit.module = .ok (preparedStager.root.under ["temp.js"]) :=
    here ▸ preparedStager.copyOf_project ["temp.js"]
  have mention : way.1 = ⟨'\'', "./p.wasm".toList⟩ := by
    have text : moduleText? preparedFiles visit.module =
        some "import wasmCode from './p.wasm';\nlet startWorkers, terminateWorkers;\nconst url = wasmCode;\n" := by
      rw [here]
      decide +kernel
    have known : (pieces mention none
        "import wasmCode from './p.wasm';\nlet startWorkers, terminateWorkers;\nconst url = wasmCode;\n".toList).filterMap
          Piece.value? = [⟨'\'', "./p.wasm".toList⟩] := by decide +kernel
    have listed := visits.mem_mentions area (by rw [here]; decide) text way mem
    rw [known] at listed
    exact List.mem_singleton.1 listed
  obtain ⟨target, content, loads, same⟩ := (goes_of_route copied routed).binary rfl rfl (by rw [mention]; decide)
  obtain ⟨rfl, file⟩ := loads.stands area'.sound (area'.linkFree linkFree_prepared)
  have place : files.straight ((directoryOf visit.module).child (String.ofList way.1.specifier)) = ["p", "p.wasm"] := by
    rw [straight_congr area'.workingDirectory_eq, mention, here]
    decide
  rw [place] at file same
  rw [area'.lookup_outside (by decide)] at file
  obtain rfl : [0, 97] = content := by simpa [preparedFiles, FileTree.lookup, FileTree.find?] using file
  exact ⟨_, _, same, rfl⟩

theorem stage_inlines_payload_prepared :
    preparedFiles.WellFormed ∧ preparedFiles.LinkFree ∧ ∃ staged after specifier rest place,
      preparedStager.stage preparedFiles = (.ok staged, after) ∧
      after.lookup ["p", "stage", "temp.js"] =
        some (.file (encode (String.ofList (payloadLine {} specifier ++ '\n' :: rest)))) ∧
      after.resolve ((Path.ofString "/p/stage").child specifier) = .ok (["p", "stage"] ++ place) ∧
      after.lookup (["p", "stage"] ++ place) = some (.file [0, 97]) ∧
      "--loader:.bin=binary" ∈ BundlingCommand.buildArguments ["esbuild"] preparedStager.options ["p", "out.js"] staged := by
  have done : (preparedStager.stage preparedFiles).1.toOption.isSome = true := by decide +kernel
  have prepared : inlinePayload {} fetchingLoader =
      .ok "import wasmCode from './p.wasm';\nlet startWorkers, terminateWorkers;\nconst url = wasmCode;\n" :=
    eq_ok_of_toOption (by decide +kernel)
  have entry : preparedStager.resolveModule preparedFiles preparedStager.options.entryPoint = .ok (some ["p", "temp.js"]) :=
    eq_ok_of_toOption (by decide +kernel)
  have plain : '\r' ∉ fetchingLoader.toList := by decide
  have root : preparedFiles.follow preparedStager.root = .ok (.vacant ["p", "stage"]) := by decide +kernel
  refine ⟨wellFormed_prepared, linkFree_prepared, ?_⟩
  cases staging : preparedStager.stage preparedFiles with
  | mk result after =>
    rw [staging] at done
    cases result with
    | error failure => cases done
    | ok staged =>
      have keeps (record : List Visit) (state : StageState)
          (recorded : preparedStager.Records ["p", "stage"] preparedFiles ["p", "temp.js"] record state after) :
          preparedStager.KeepsPayloads record := by
        obtain ⟨-, modules, known⟩ := recorded.of_payloads fun visit _ _ _ _ here area visits => visits.prepared here area
        refine ⟨fun a mem b mem' _ => by rw [known a mem, known b mem'], fun visit mem rest _ same => ?_⟩
        have first := (modules visit mem).symm.trans same
        simp [preparedStager, payloadName] at first
      obtain ⟨name, names, specifier, rest, target, bytes, place, named, whole, resolved, file, copy, way, payload, told⟩ :=
        stage_inlines_payload preparedStager wellFormed_prepared linkFree_prepared rfl (.inr root) rfl rfl plain prepared rfl
          (by decide) entry staging keeps ["esbuild"] ["p", "out.js"]
      obtain rfl : ["temp.js"] = names := List.append_cancel_left (show ["p"] ++ ["temp.js"] = ["p"] ++ names from whole)
      obtain rfl : "p.wasm" = name := Except.ok.inj ((eq_ok_of_toOption (by decide +kernel)).symm.trans named)
      obtain rfl : ["p", "p.wasm"] = target := Except.ok.inj ((eq_ok_of_toOption (by decide +kernel)).symm.trans resolved)
      obtain rfl : [0, 97] = bytes := by simpa [preparedFiles, FileTree.lookup, FileTree.find?] using file
      exact ⟨staged, after, specifier, rest, place, rfl, copy, way, payload, told⟩

end Stager

end WasmPackaging.Bundling
