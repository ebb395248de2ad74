import WasmPackaging.Proofs.Bundling.Routes
import WasmPackaging.Proofs.Text.Utf8

/-!
The plugins that load payloads. What they claim is read from the file that it resolves to, so it always goes the
way to a payload (`Stager.Goes.payload_of_claims`). The plugin for binary payloads stores the bytes of the file; that
for texts stores them with a line feed for each line end, so they are the same exactly if no carriage return is among
them (`Plugin.Stores.eq_iff`).
-/

namespace WasmPackaging

open Text

namespace Bundling

open FileTree

namespace Plugin

/-- Whether a plugin loads whatever it claims. -/
def loadsPayloads : Plugin → Bool
  | .binary _ | .text _ => true
  | .native _ _ | .companion _ _ | .custom _ => false

/-- What is stored for the bytes that a plugin reads. -/
inductive Stores : Plugin → Bytes → Bytes → Prop
  | binary (ending : String) (content : Bytes) : Stores (.binary ending) content content
  | text (start text : String) : Stores (.text start) (encode text) (encode (String.ofList (plainNewlines text.toList)))

/-- What was read decides what is stored. -/
theorem Stores.unique {plugin : Plugin} {content stored stored' : Bytes} (stores : plugin.Stores content stored)
    (stores' : plugin.Stores content stored') : stored = stored' := by
  cases stores with
  | binary =>
    cases stores'
    rfl
  | text start text =>
    generalize same : encode text = content at stores'
    cases stores' with
    | text _ text' => rw [encode_inj.1 same]

/-- What is stored is what was read, unless a text was read that holds a carriage return. -/
theorem Stores.eq_iff {plugin : Plugin} {content stored : Bytes} (stores : plugin.Stores content stored) :
    stored = content ↔ ∀ start, plugin = .text start → 13 ∉ content := by
  cases stores with
  | binary => simp
  | text start text =>
    have plain : String.ofList (plainNewlines text.toList) = text ↔ '\r' ∉ text.toList := by
      rw [← plainNewlines_eq_self_iff, ← String.toList_inj, String.toList_ofList]
    have byte : 13 ∈ encode text ↔ '\r' ∈ text.toList := mem_encode_iff (by decide)
    rw [encode_inj, plain, byte]
    simp

/-- What a specifier with the ending of binary payloads leads to is the file that it resolves to. -/
theorem exists_of_resolveFile {tree : FileTree} {site : ImportSite} {specifier : String} {resolution? : Option Resolution}
    (resolved : Plugin.resolveFile tree site specifier = .ok resolution?) :
    ∃ target, tree.resolve (site.directory.child specifier) = .ok target ∧
      resolution? = some { path := (Path.ofLocation target).toString } := by
  unfold Plugin.resolveFile Plugin.locationOf at resolved
  cases real : tree.resolve (site.directory.child specifier) with
  | error cycle =>
    rw [real] at resolved
    cases resolved
  | ok target =>
    rw [real] at resolved
    exact ⟨target, rfl, (Except.ok.inj resolved).symm⟩

/-- What a specifier of a text leads to is the file that the rest of it resolves to. -/
theorem exists_of_resolve_text {tree : FileTree} {directory importer : Path} {start specifier : String}
    {resolution? : Option Resolution} (resolved : (Plugin.text start).resolve tree directory specifier importer = .ok resolution?) :
    ∃ target, tree.resolve (directory.child (String.ofList (specifier.toList.drop start.length))) = .ok target ∧
      resolution? = some { path := (Path.ofLocation target).toString, namespaceName := "src-string" } := by
  obtain ⟨target, real, same⟩ := bind_eq_ok_iff.1 resolved
  exact ⟨target, mapError_eq_ok_iff.1 real, (Except.ok.inj same).symm⟩

/-- A binary payload is the content of its file. -/
theorem exists_of_load_binary {tree : FileTree} {ending path space : String} {loaded? : Option Loaded}
    (load : (Plugin.binary ending).load tree path space = .ok loaded?) :
    ∃ content, tree.read (.ofString path) = .ok content ∧ loaded? = some ⟨.bytes content, "binary"⟩ := by
  obtain ⟨content, read, same⟩ := bind_eq_ok_iff.1 load
  exact ⟨content, mapError_eq_ok_iff.1 read, (Except.ok.inj same).symm⟩

variable {plugin : Plugin} (payloads : plugin.loadsPayloads = true)

include payloads

/-- A plugin that loads payloads leaves nothing that it resolves to the host or to the bundler. -/
theorem exists_of_resolve {tree : FileTree} {directory importer : Path} {specifier : String} {resolution? : Option Resolution}
    (resolved : plugin.resolve tree directory specifier importer = .ok resolution?) :
    ∃ resolution, resolution? = some resolution ∧ resolution.external = false := by
  cases plugin with
  | binary ending =>
    obtain ⟨target, -, rfl⟩ := exists_of_resolveFile resolved
    exact ⟨_, rfl, rfl⟩
  | text start =>
    obtain ⟨target, -, rfl⟩ := exists_of_resolve_text resolved
    exact ⟨_, rfl, rfl⟩
  | native | companion | custom => cases payloads

/-- What a plugin for payloads loads comes from the bytes that it reads. -/
theorem exists_of_load {tree : FileTree} {path space : String} {loaded? : Option Loaded}
    (load : plugin.load tree path space = .ok loaded?) :
    ∃ loaded content, loaded? = some loaded ∧ tree.read (.ofString path) = .ok content ∧
      plugin.Stores content loaded.content.toBytes := by
  cases plugin with
  | binary ending =>
    obtain ⟨content, read, same⟩ := exists_of_load_binary load
    exact ⟨_, content, same, read, .binary ending content⟩
  | text start =>
    obtain ⟨content, read, rest⟩ := bind_eq_ok_iff.1 load
    obtain ⟨text, decoded, same⟩ := bind_eq_ok_iff.1 rest
    refine ⟨⟨.text (String.ofList (plainNewlines text)), "text"⟩, content, (Except.ok.inj same).symm, mapError_eq_ok_iff.1 read, ?_⟩
    have stores := Stores.text start (String.ofList text)
    rwa [encode_of_decode (mapError_eq_ok_iff.1 decoded), String.toList_ofList] at stores
  | native | companion | custom => cases payloads

end Plugin

namespace Stager

variable {s : Stager} {now : FileTree} {module : Location} {specifier : String} {plugin : Plugin}

/-- A plugin claims a specifier, and no other does. -/
def Claims (s : Stager) (specifier : String) (plugin : Plugin) : Prop :=
  ∃ found, classify s.options.plugins specifier = .ok found ∧ found.plugin = some plugin

/-- What a plugin for payloads claims goes the way to what it loads from the path that it resolves the specifier to. -/
theorem Goes.payload_of_claims {copy : Path} {way : Route} (included : s.isExcluded specifier = false)
    (claims : s.Claims specifier plugin) (payloads : plugin.loadsPayloads = true) (goes : s.Goes now module specifier copy way) :
    ∃ resolution loaded content, plugin.resolve now (directoryOf module) specifier (.ofLocation module) = .ok (some resolution) ∧
      now.read (.ofString resolution.path) = .ok content ∧ plugin.load now resolution.path resolution.namespaceName = .ok (some loaded) ∧
      plugin.Stores content loaded.content.toBytes ∧ way = .payload (.ofString resolution.path) loaded := by
  obtain ⟨found, classified, claimed⟩ := claims
  have special : ¬ s.IsOrdinary now module specifier := by
    rintro ⟨found', classified', open_⟩
    obtain rfl := Except.ok.inj (classified.symm.trans classified')
    obtain ⟨_, same, -⟩ := Plugin.exists_of_resolve payloads (open_ plugin claimed)
    cases same
  have known {plugin' : Plugin} {resolution : Resolution} (resolved : s.IsResolved now module specifier plugin' resolution) :
      plugin' = plugin ∧ resolution.external = false ∧
        plugin.resolve now (directoryOf module) specifier (.ofLocation module) = .ok (some resolution) := by
    obtain ⟨found', classified', claimed', where_⟩ := resolved
    obtain rfl := Except.ok.inj (classified.symm.trans classified')
    obtain rfl := Option.some.inj (claimed.symm.trans claimed')
    obtain ⟨_, same, inside⟩ := Plugin.exists_of_resolve payloads where_
    exact ⟨rfl, Option.some.inj same ▸ inside, where_⟩
  cases goes with
  | excluded excluded => exact absurd (included.symm.trans excluded) Bool.false_ne_true
  | package _ ordinary | nowhere _ ordinary | relative _ ordinary | absolute _ ordinary => exact absurd ordinary special
  | external _ resolved outside => exact absurd ((known resolved).2.1.symm.trans outside) Bool.false_ne_true
  | payload _ resolved _ load =>
    obtain ⟨rfl, -, where_⟩ := known resolved
    obtain ⟨loaded, content, same, read, stores⟩ := Plugin.exists_of_load payloads load
    obtain rfl := Option.some.inj same
    exact ⟨_, _, content, where_, read, load, stores, rfl⟩
  | untouched _ resolved _ load | plugin _ resolved _ load =>
    obtain ⟨rfl, -, -⟩ := known resolved
    obtain ⟨_, _, same, -⟩ := Plugin.exists_of_load payloads load
    cases same

end Stager

end Bundling

end WasmPackaging
