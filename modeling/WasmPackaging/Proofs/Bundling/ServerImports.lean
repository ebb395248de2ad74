import WasmPackaging.Proofs.Specifier
import WasmPackaging.Targets.Server

/-!
The kinds of imports for the server target. Its two plugins look at one thing each: that for packages at whether a specifier is
local, that for companions at how it ends. So the two together tell four classes of specifiers apart, one of which both plugins
claim (`classify_server_iff`).
-/

namespace WasmPackaging.Bundling

open Config Targets

/-- A specifier ends with one of some texts. -/
def EndsIn (suffixes : List String) (specifier : String) : Prop := ∃ suffix ∈ suffixes, suffix.toList <:+ specifier.toList

theorem accepts_companion_iff {directory : Path} {suffixes : List String} {specifier : String} :
    (Plugin.companion directory suffixes).accepts specifier = true ↔ EndsIn suffixes specifier := by
  simp [Plugin.accepts, EndsIn, endsWith, List.any_eq_true]

theorem accepts_native_iff {platform : String} {inlined : List String} {specifier : String} (filled : specifier ≠ "")
    (plain : '\\' ∉ specifier.toList) :
    (Plugin.native platform inlined).accepts specifier = true ↔ Specifier.isLocal specifier.toList = false :=
  Specifier.namesPackage_iff_not_isLocal (by simpa using filled) plain

/-- What two plugins make of a specifier follows from which of them claim it. -/
theorem classify_pair (first second : Plugin) (specifier : String) :
    classify [first, second] specifier =
      match first.accepts specifier, second.accepts specifier with
      | true, true => .error (.ambiguous specifier [first.name, second.name])
      | true, false => .ok ⟨first.importClass, some first⟩
      | false, true => .ok ⟨second.importClass, some second⟩
      | false, false => .ok ⟨.ordinaryModule, none⟩ := by
  unfold classify
  cases claims : first.accepts specifier <;> cases claims' : second.accepts specifier <;> simp [claims, claims']

/-- With the plugins of the server target, the kind of an import is decided by whether its specifier is local and whether it ends
as a companion does: the plugin for packages claims just the specifiers that are not local, and both plugins claim those that
are not local and end so. -/
theorem classify_server_iff (settings : Settings) (entry output : Path) (suffixes : List String) (host : String)
    {specifier : String} (filled : specifier ≠ "") (plain : '\\' ∉ specifier.toList) :
    let companions := Plugin.companion output suffixes
    let packages := Plugin.forPlatform settings.server.hostPlatform inlinedOn host
    let classified := classify (serverBuild settings entry companions host).plugins specifier
    (∀ platform inlined, (Plugin.native platform inlined).accepts specifier = true ↔
        ¬ Specifier.isLocal specifier.toList = true) ∧
      (classified = .ok ⟨.companionBinaryModule, some companions⟩ ↔
        Specifier.isLocal specifier.toList = true ∧ EndsIn suffixes specifier) ∧
      (classified = .ok ⟨.externalNative, some packages⟩ ↔
        ¬ Specifier.isLocal specifier.toList = true ∧ ¬ EndsIn suffixes specifier) ∧
      (classified = .ok ⟨.ordinaryModule, none⟩ ↔
        Specifier.isLocal specifier.toList = true ∧ ¬ EndsIn suffixes specifier) ∧
      (classified = .error (.ambiguous specifier ["external-native", "companion-binary-module"]) ↔
        ¬ Specifier.isLocal specifier.toList = true ∧ EndsIn suffixes specifier) := by
  intro companions packages classified
  have claims (platform : String) (inlined : List String) : (Plugin.native platform inlined).accepts specifier = true ↔
      ¬ Specifier.isLocal specifier.toList = true := by
    rw [accepts_native_iff filled plain, Bool.not_eq_true]
  obtain ⟨platform, inlined, native⟩ : ∃ platform inlined, packages = .native platform inlined := ⟨_, _, rfl⟩
  have first : packages.accepts specifier = !Specifier.isLocal specifier.toList := by
    rw [native, Bool.eq_iff_iff, claims, Bool.not_eq_true', Bool.not_eq_true]
  have second : companions.accepts specifier = true ↔ EndsIn suffixes specifier := accepts_companion_iff
  have pair : classified = classify [packages, companions] specifier := rfl
  refine ⟨claims, ?_⟩
  rw [pair, classify_pair, first, ← second]
  -- the two answers that the plugins give leave four cases, with four different results
  cases Specifier.isLocal specifier.toList <;> cases companions.accepts specifier <;>
    simp [companions, native, Plugin.name, Plugin.importClass]

/-- Two dots and no slash begin the name of a package: ended like a companion, it is claimed twice. -/
theorem classify_server_dots :
    "..plonk_wasm.cjs" ≠ "" ∧ '\\' ∉ "..plonk_wasm.cjs".toList ∧
      ¬ Specifier.isLocal "..plonk_wasm.cjs".toList = true ∧ EndsIn companionSuffixes "..plonk_wasm.cjs" ∧
      classify (serverBuild {} (.ofString "index.js") (.companion (.ofString "/p/dist") companionSuffixes)).plugins
        "..plonk_wasm.cjs" = .error (.ambiguous "..plonk_wasm.cjs" ["external-native", "companion-binary-module"]) := by
  have plain : '\\' ∉ "..plonk_wasm.cjs".toList := by decide
  have away : ¬ Specifier.isLocal "..plonk_wasm.cjs".toList = true := by decide
  have ends : EndsIn companionSuffixes "..plonk_wasm.cjs" := ⟨"plonk_wasm.cjs", by decide, by decide⟩
  obtain ⟨-, -, -, -, twice⟩ :=
    classify_server_iff {} (.ofString "index.js") (.ofString "/p/dist") companionSuffixes defaultPlatform (by decide) plain
  exact ⟨by decide, plain, away, ends, twice.2 ⟨away, ends⟩⟩

end WasmPackaging.Bundling
