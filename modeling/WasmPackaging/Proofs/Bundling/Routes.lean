import WasmPackaging.Proofs.Bundling.ModuleResolution
import WasmPackaging.Proofs.Bundling.Places

/-!
Where the specifiers of a module lead. `Leads` and `Loads` say it in the terms of plugins and of the
resolution of modules; the ways that `Stager.route` computes agree with them
(`Goes.module_iff`, `Goes.payload_iff`).
-/

namespace WasmPackaging.Bundling

open Text FileTree

/-- The text of a module, each line end read as a line feed. -/
def moduleText? (tree : FileTree) (module : Location) : Option String :=
  match tree.lookup module with
  | some (.file content) => (decode content).toOption.map fun text => String.ofList (plainNewlines text)
  | _ => none

/-- Whether the specifiers of a module are followed. -/
def isScanned (module : Location) : Bool := scannedSuffixes.contains (Path.ofLocation module).suffix

/-- The specifiers of a module that are followed, in order. -/
def scannedSpecifiers (tree : FileTree) (module : Location) : List String :=
  if isScanned module then ((moduleText? tree module).map fun text => specifiers text.toList).getD [] else []

namespace Stager

variable (s : Stager) (tree : FileTree) (module : Location) (specifier : String)

/-- The directory that the specifiers of a module are read from. -/
def directoryOf (module : Location) : Path := (Path.ofLocation module).parent

/-- A plugin claims a specifier, and says where it leads. -/
def IsResolved (plugin : Plugin) (resolution : Resolution) : Prop :=
  ∃ found, classify s.options.plugins specifier = .ok found ∧ found.plugin = some plugin ∧
    plugin.resolve tree (directoryOf module) specifier (.ofLocation module) = .ok (some resolution)

/-- A specifier is left to the bundler: no plugin claims it, or the one that does leaves open where it
leads. -/
def IsOrdinary : Prop :=
  ∃ found, classify s.options.plugins specifier = .ok found ∧
    ∀ plugin ∈ found.plugin, plugin.resolve tree (directoryOf module) specifier (.ofLocation module) = .ok none

/-- A specifier leads to another module: as an ordinary local one, or through a plugin that neither leaves
it to the host nor loads it. -/
inductive Leads : Location → Prop
  | ordinary {target : Location} : s.IsOrdinary tree module specifier →
      Specifier.isLocal specifier.toList = true →
      s.resolveModule tree ((directoryOf module).child specifier) = .ok (some target) → Leads target
  | plugin {target : Location} {plugin : Plugin} {resolution : Resolution} :
      s.IsResolved tree module specifier plugin resolution → resolution.external = false →
      plugin.load tree resolution.path resolution.namespaceName = .ok none →
      s.resolveModule tree (.ofString resolution.path) = .ok (some target) → Leads target

/-- A plugin loads what a specifier leads to. -/
def Loads (source : Path) (loaded : Loaded) : Prop :=
  ∃ plugin resolution, s.IsResolved tree module specifier plugin resolution ∧ resolution.external = false ∧
    plugin.load tree resolution.path resolution.namespaceName = .ok (some loaded) ∧ source = .ofString resolution.path

/-- The ways that specifiers go in a module with a given copy. -/
inductive Goes (copy : Path) : Route → Prop
  | excluded : s.isExcluded specifier = true → Goes copy .keep
  | package : s.isExcluded specifier = false → s.IsOrdinary tree module specifier →
      Specifier.isLocal specifier.toList = false → Goes copy .keep
  | nowhere : s.isExcluded specifier = false → s.IsOrdinary tree module specifier →
      s.resolveModule tree ((directoryOf module).child specifier) = .ok none → Goes copy .keep
  | relative {target : Location} : s.isExcluded specifier = false → s.IsOrdinary tree module specifier →
      Specifier.isLocal specifier.toList = true →
      s.resolveModule tree ((directoryOf module).child specifier) = .ok (some target) →
      (Path.ofString specifier).isAbsolute = false → Goes copy (.module target none)
  | absolute {target : Location} {goal : Path} : s.isExcluded specifier = false →
      s.IsOrdinary tree module specifier → Specifier.isLocal specifier.toList = true →
      s.resolveModule tree ((directoryOf module).child specifier) = .ok (some target) →
      (Path.ofString specifier).isAbsolute = true → s.copyOf target = .ok goal →
      Goes copy (.module target (some (specifierTo tree goal copy.parent)))
  | external {plugin : Plugin} {resolution : Resolution} : s.isExcluded specifier = false →
      s.IsResolved tree module specifier plugin resolution → resolution.external = true →
      Goes copy (.external resolution.path)
  | payload {plugin : Plugin} {resolution : Resolution} {loaded : Loaded} : s.isExcluded specifier = false →
      s.IsResolved tree module specifier plugin resolution → resolution.external = false →
      plugin.load tree resolution.path resolution.namespaceName = .ok (some loaded) →
      Goes copy (.payload (.ofString resolution.path) loaded)
  | untouched {plugin : Plugin} {resolution : Resolution} : s.isExcluded specifier = false →
      s.IsResolved tree module specifier plugin resolution → resolution.external = false →
      plugin.load tree resolution.path resolution.namespaceName = .ok none →
      s.resolveModule tree (.ofString resolution.path) = .ok none → Goes copy .keep
  | plugin {plugin : Plugin} {resolution : Resolution} {target : Location} {goal : Path} :
      s.isExcluded specifier = false → s.IsResolved tree module specifier plugin resolution →
      resolution.external = false → plugin.load tree resolution.path resolution.namespaceName = .ok none →
      s.resolveModule tree (.ofString resolution.path) = .ok (some target) → s.copyOf target = .ok goal →
      Goes copy (.module target (some (specifierTo tree goal copy.parent)))

variable {s tree module specifier} {copy : Path} {way : Route}

theorem goes_of_routeOrdinary (included : s.isExcluded specifier = false)
    (ordinary : s.IsOrdinary tree module specifier)
    (routed : s.routeOrdinary tree (directoryOf module) copy specifier = .ok way) :
    s.Goes tree module specifier copy way := by
  unfold routeOrdinary at routed
  split at routed
  · next here =>
    obtain ⟨found, resolved, rest⟩ := bind_eq_ok_iff.1 routed
    cases found with
    | none =>
      obtain rfl : Route.keep = way := Except.ok.inj rest
      exact .nowhere included ordinary resolved
    | some target =>
      simp only at rest
      split at rest
      · next absolute =>
        obtain ⟨goal, copied, rest⟩ := bind_eq_ok_iff.1 rest
        obtain rfl := Except.ok.inj rest
        exact .absolute included ordinary here resolved absolute copied
      · next relative =>
        obtain rfl := Except.ok.inj rest
        exact .relative included ordinary here resolved (by simpa using relative)
  · next elsewhere =>
    obtain rfl : Route.keep = way := Except.ok.inj routed
    exact .package included ordinary (by simpa using elsewhere)

theorem goes_of_routeResolved {plugin : Plugin} {resolution : Resolution}
    (included : s.isExcluded specifier = false)
    (resolved : s.IsResolved tree module specifier plugin resolution)
    (routed : s.routeResolved tree copy plugin resolution = .ok way) :
    s.Goes tree module specifier copy way := by
  unfold routeResolved at routed
  split at routed
  · next outside =>
    obtain rfl := Except.ok.inj routed
    exact .external included resolved outside
  · next inside =>
    obtain ⟨content, load, rest⟩ := bind_eq_ok_iff.1 routed
    have inside : resolution.external = false := by simpa using inside
    cases content with
    | some loaded =>
      obtain rfl := Except.ok.inj rest
      exact .payload included resolved inside load
    | none =>
      obtain ⟨found, real, rest⟩ := bind_eq_ok_iff.1 rest
      cases found with
      | none =>
        obtain rfl : Route.keep = way := Except.ok.inj rest
        exact .untouched included resolved inside load real
      | some target =>
        obtain ⟨goal, copied, rest⟩ := bind_eq_ok_iff.1 rest
        obtain rfl := Except.ok.inj rest
        exact .plugin included resolved inside load real copied

/-- The way that is computed for a specifier is one that it goes. -/
theorem goes_of_route {importClass : Option ImportClass} (copied : s.copyOf module = .ok copy)
    (routed : s.route tree module specifier = .ok (importClass, way)) :
    s.Goes tree module specifier copy way := by
  unfold route at routed
  split at routed
  · next excluded =>
    obtain ⟨-, rfl⟩ := Prod.mk.inj (Except.ok.inj routed)
    exact .excluded excluded
  · next included =>
    have included : s.isExcluded specifier = false := by simpa using included
    obtain ⟨copy', same, rest⟩ := bind_eq_ok_iff.1 routed
    obtain rfl : copy = copy' := by simpa [copied] using same
    obtain ⟨found, classified, rest⟩ := bind_eq_ok_iff.1 rest
    have left (ordinary : s.IsOrdinary tree module specifier)
        (rest : (do return (some found.importClass, ← s.routeOrdinary tree (directoryOf module) copy specifier)) =
          Except.ok (importClass, way)) : s.Goes tree module specifier copy way := by
      obtain ⟨way', went, rest⟩ := bind_eq_ok_iff.1 rest
      obtain ⟨-, rfl⟩ := Prod.mk.inj (Except.ok.inj rest)
      exact goes_of_routeOrdinary included ordinary went
    cases claimed : found.plugin with
    | none =>
      simp only [claimed] at rest
      exact left ⟨found, classified, by simp [claimed]⟩ rest
    | some plugin =>
      simp only [claimed] at rest
      obtain ⟨resolution?, resolved, rest⟩ := bind_eq_ok_iff.1 rest
      cases resolution? with
      | none => exact left ⟨found, classified, fun other same => by
          obtain rfl : plugin = other := by simpa [claimed] using same
          exact resolved⟩ rest
      | some resolution =>
        obtain ⟨way', went, rest⟩ := bind_eq_ok_iff.1 rest
        obtain ⟨-, rfl⟩ := Prod.mk.inj (Except.ok.inj rest)
        exact goes_of_routeResolved included ⟨found, classified, claimed, resolved⟩ went

/-! ## What the ways say -/

theorem IsOrdinary.not_isResolved {plugin : Plugin} {resolution : Resolution}
    (ordinary : s.IsOrdinary tree module specifier) : ¬ s.IsResolved tree module specifier plugin resolution := by
  rintro ⟨found, classified, claimed, resolved⟩
  obtain ⟨found', classified', open_⟩ := ordinary
  obtain rfl : found = found' := by simpa [classified] using classified'
  simp [open_ plugin claimed] at resolved

theorem IsResolved.unique {plugin plugin' : Plugin} {resolution resolution' : Resolution}
    (first : s.IsResolved tree module specifier plugin resolution)
    (second : s.IsResolved tree module specifier plugin' resolution') :
    plugin = plugin' ∧ resolution = resolution' := by
  obtain ⟨found, classified, claimed, resolved⟩ := first
  obtain ⟨found', classified', claimed', resolved'⟩ := second
  obtain rfl : found = found' := by simpa [classified] using classified'
  obtain rfl : plugin = plugin' := by simpa [claimed] using claimed'
  exact ⟨rfl, by simpa [resolved] using resolved'⟩

theorem Leads.ordinary_iff {target : Location} (ordinary : s.IsOrdinary tree module specifier) :
    s.Leads tree module specifier target ↔ Specifier.isLocal specifier.toList = true ∧
      s.resolveModule tree ((directoryOf module).child specifier) = .ok (some target) := by
  constructor
  · rintro (⟨-, here, real⟩ | ⟨resolved, -⟩)
    · exact ⟨here, real⟩
    · exact absurd resolved ordinary.not_isResolved
  · rintro ⟨here, real⟩
    exact .ordinary ordinary here real

theorem Leads.resolved_iff {plugin : Plugin} {resolution : Resolution} {target : Location}
    (resolved : s.IsResolved tree module specifier plugin resolution) :
    s.Leads tree module specifier target ↔ resolution.external = false ∧
      plugin.load tree resolution.path resolution.namespaceName = .ok none ∧
      s.resolveModule tree (.ofString resolution.path) = .ok (some target) := by
  constructor
  · rintro (⟨ordinary, -⟩ | ⟨resolved', inside, load, real⟩)
    · exact absurd resolved ordinary.not_isResolved
    · obtain ⟨rfl, rfl⟩ := resolved.unique resolved'
      exact ⟨inside, load, real⟩
  · rintro ⟨inside, load, real⟩
    exact .plugin resolved inside load real

/-- A specifier goes the way to a module exactly if it leads there. -/
theorem Goes.module_iff (goes : s.Goes tree module specifier copy way) {target : Location} :
    (∃ text, way = .module target text) ↔
      s.isExcluded specifier = false ∧ s.Leads tree module specifier target := by
  cases goes with
  | excluded excluded => simp [excluded]
  | package included ordinary elsewhere => simp [Leads.ordinary_iff ordinary, elsewhere]
  | nowhere included ordinary real => simp [Leads.ordinary_iff ordinary, real]
  | relative included ordinary here real => simp [Leads.ordinary_iff ordinary, included, here, real, eq_comm]
  | absolute included ordinary here real => simp [Leads.ordinary_iff ordinary, included, here, real, eq_comm]
  | external included resolved outside => simp [Leads.resolved_iff resolved, outside]
  | payload included resolved inside load => simp [Leads.resolved_iff resolved, load]
  | untouched included resolved inside load real => simp [Leads.resolved_iff resolved, real]
  | plugin included resolved inside load real => simp [Leads.resolved_iff resolved, included, inside, load, real, eq_comm]

theorem Loads.resolved_iff {plugin : Plugin} {resolution : Resolution} {source : Path} {loaded : Loaded}
    (resolved : s.IsResolved tree module specifier plugin resolution) :
    s.Loads tree module specifier source loaded ↔ resolution.external = false ∧
      plugin.load tree resolution.path resolution.namespaceName = .ok (some loaded) ∧ source = .ofString resolution.path := by
  constructor
  · rintro ⟨plugin', resolution', resolved', rest⟩
    obtain ⟨rfl, rfl⟩ := resolved.unique resolved'
    exact rest
  · exact fun rest => ⟨plugin, resolution, resolved, rest⟩

theorem IsOrdinary.not_loads (ordinary : s.IsOrdinary tree module specifier) (source : Path) (loaded : Loaded) :
    ¬ s.Loads tree module specifier source loaded :=
  fun ⟨_, _, resolved, _⟩ => ordinary.not_isResolved resolved

/-- A specifier goes the way to a payload exactly if a plugin loads it. -/
theorem Goes.payload_iff (goes : s.Goes tree module specifier copy way) {source : Path} {loaded : Loaded} :
    way = .payload source loaded ↔
      s.isExcluded specifier = false ∧ s.Loads tree module specifier source loaded := by
  cases goes with
  | excluded excluded => simp [excluded]
  | package included ordinary | nowhere included ordinary | relative included ordinary
  | absolute included ordinary => simp [ordinary.not_loads]
  | external included resolved outside => simp [Loads.resolved_iff resolved, outside]
  | payload included resolved inside load =>
    simp [Loads.resolved_iff resolved, included, inside, load, eq_comm, and_comm]
  | untouched included resolved inside load => simp [Loads.resolved_iff resolved, load]
  | plugin included resolved inside load => simp [Loads.resolved_iff resolved, load]

theorem Goes.isPlain {source : Path} {loaded : Loaded}
    (goes : s.Goes tree module specifier copy (.payload source loaded)) : IsPlain source := by
  cases goes
  exact isPlain_ofString _

theorem Goes.resolved {target : Location} {text : Option String}
    (goes : s.Goes tree module specifier copy (.module target text)) :
    ∃ path, s.resolveModule tree path = .ok (some target) := by
  cases goes <;> exact ⟨_, by assumption⟩

end Stager

end WasmPackaging.Bundling
