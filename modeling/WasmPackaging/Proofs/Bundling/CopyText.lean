import WasmPackaging.Proofs.Bundling.Mentions
import WasmPackaging.Proofs.Bundling.MirrorResolution
import WasmPackaging.Proofs.Text.Utf8

/-!
The text of a copy is the text of its module with other specifiers in some of its mentions
(`CopiesPiece`). What was staged mirrors the project (`Progress.isMirror`), so a specifier of a copy resolves
to the copy of what the specifier of the module resolves to, when the way of that passes only directories that
hold reachable modules, and no link (`copies_resolve_alike`). Links are not mirrored: a specifier that leads
over one is lost (`copies_lose_link`).
-/

namespace WasmPackaging

open Text FileTree

namespace Bundling

namespace Stager

variable {s : Stager} {tree now after : FileTree} {base entry module : Location}

/-! ## The text of a copy -/

/-- A piece of a module in its copy: a mention that leads to another module keeps its relative specifier, or
has one that leads to the copy of that module. -/
inductive CopiesPiece (s : Stager) (tree : FileTree) (module : Location) (copy : Path) :
    Piece Mention → List Char → Prop
  | plain (c : Char) : CopiesPiece s tree module copy (.plain c) [c]
  | hit {found : Mention} {text : List Char} {answer : Option String} :
      (∀ target, s.isExcluded (String.ofList found.specifier) = false →
        s.Leads tree module (String.ofList found.specifier) target →
        (answer = none ∧ (Path.ofString (String.ofList found.specifier)).isAbsolute = false) ∨
          ∃ names, target = s.project ++ names ∧ answer = some (specifierTo tree (s.root.under names) copy.parent)) →
      CopiesPiece s tree module copy (.hit found text)
        (answer.elim text fun new => found.withSpecifier text new.toList)

theorem specifierTo_congr {other : FileTree} (same : other.workingDirectory = tree.workingDirectory) (target directory : Path) :
    specifierTo other target directory = specifierTo tree target directory := by
  simp [specifierTo, same]

theorem Copies.copiesPieces {copy : Path} {state state' : StageState} {list : List (Piece Mention)}
    {ways : List (Mention × Route)} {texts : List (List Char)} (blind : s.IsBlind tree base module)
    (copied : s.copyOf module = .ok copy)
    (known : ∀ found ∈ list.filterMap Piece.value?, String.ofList found.specifier ∈ scannedSpecifiers tree module)
    (copies : s.Copies base tree module copy state now list ways texts state' after) :
    List.Forall₂ (s.CopiesPiece tree module copy) list texts := by
  induction copies with
  | nil => exact .nil
  | plain _ ih => exact .cons (.plain _) (ih known)
  | @hit _ _ _ now _ _ found text importClass way answer rest _ _ area routed takes _ ih =>
    obtain ⟨mentioned, later⟩ := List.forall_mem_cons.1 (show ∀ other ∈ found :: rest.filterMap Piece.value?, _ from known)
    refine .cons (.hit fun target included leads => ?_) (ih later)
    have goes := goes_of_route copied routed
    obtain ⟨text, rfl⟩ := goes.module_iff.2 ⟨included, ((blind now area _ mentioned included).1 target).2 leads⟩
    obtain rfl : answer = text := by cases takes; rfl
    have written {goal : Path} (copied' : s.copyOf target = .ok goal) : ∃ names, target = s.project ++ names ∧
        some (specifierTo now goal copy.parent) = some (specifierTo tree (s.root.under names) copy.parent) := by
      obtain ⟨names, rfl, rfl⟩ := s.copyOf_eq_ok_iff.1 copied'
      exact ⟨names, rfl, by rw [specifierTo_congr area.workingDirectory_eq]⟩
    cases goes with
    | relative _ _ _ _ relative => exact .inl ⟨rfl, relative⟩
    | absolute _ _ _ _ _ copied' => exact .inr (written copied')
    | plugin _ _ _ _ _ copied' => exact .inr (written copied')

/-- The copy of a module, at its names below the stage root, holds the module's text with other specifiers. -/
def HoldsCopy (s : Stager) (tree now : FileTree) (base : Location) (names : List String) : Prop :=
  ∃ source texts, moduleText? tree (s.project ++ names) = some source ∧
    now.lookup (base ++ names) = some (.file (encode (String.ofList texts.flatten))) ∧
    List.Forall₂ (s.CopiesPiece tree (s.project ++ names) (s.root.under names)) (pieces mention none source.toList) texts

/-- What staging keeps of the modules that were seen: their names can be looked up, and their copies hold
their texts. -/
def KeepsTexts (s : Stager) (tree : FileTree) (base : Location) (seen : List Location) (now : FileTree) : Prop :=
  ∀ module ∈ seen, (∀ name ∈ module, IsStep name) ∧
    ∀ names, module = s.project ++ names → isScanned module = true → s.HoldsCopy tree now base names

section Stages

variable {state state' : StageState} (stages : s.Stages base tree module state now state' after)
  (area : Area s.root base tree now) (outside : Path.below? base module = none) {content : Bytes}
  (file : tree.lookup module = some (.file content))

include stages area outside file

/-- The names of a module that is staged can be looked up. -/
theorem Stages.isStep : ∀ name ∈ module, IsStep name := by
  have named : AreNames module :=
    area.sound.areNames (show now.lookup module ≠ none by simp [area.lookup_outside outside, file])
  cases stages with
  | text _ _ holds =>
    obtain ⟨bytes, text, read, -⟩ := holds
    exact isStep_of_read area.sound named read
  | file _ _ _ opened read => exact isStep_of_read opened.sound named read

/-- The copy of a module that is staged holds its text. -/
theorem Stages.holdsCopy (blind : s.IsBlind tree base module) (scanned : isScanned module = true) {names : List String}
    (whole : module = s.project ++ names) : s.HoldsCopy tree after base names := by
  subst whole
  cases stages with
  | @text parts source ways texts _ copied opened _ whole _ holds copies opens writes =>
    obtain rfl := List.append_cancel_left whole
    have text := moduleText?_of_holds area outside file holds
    refine ⟨source, texts, text, by rw [writes.lookup, if_pos rfl], copies.copiesPieces blind (s.copyOf_project _) ?_⟩
    intro found mem
    rw [scannedSpecifiers, if_pos scanned, text, Option.map_some, Option.getD_some]
    exact List.mem_map_of_mem mem
  | file _ unscanned => simp [scanned] at unscanned

end Stages

/-! ## The mirror -/

/-- A place in the project that lies above a reachable module. -/
def HoldsModule (s : Stager) (tree : FileTree) (entry : Location) (place : List String) : Prop :=
  ∃ rest, rest ≠ [] ∧ s.IsReachable tree entry (s.project ++ (place ++ rest))

/-- A path that climbs from the directory of a module and descends to a module keeps its way. -/
theorem keepsWay_of_climb (outer inner down : List String) {parts : List String} {name last : String}
    (climbs : s.IsReachable tree entry (s.project ++ (outer ++ inner ++ [name])))
    (descends : s.IsReachable tree entry (s.project ++ (outer ++ down ++ [last])))
    (file : tree.HoldsFile (s.project ++ (outer ++ down ++ [last]))) (steps : ∀ name ∈ outer ++ inner ++ down, IsStep name)
    (filled : parts ≠ []) (chosen : Chosen s.options.extensions tree ((Path.ofLocation s.project).under parts)
      ((Path.ofLocation s.project).under (outer ++ inner ++ (List.replicate inner.length parentStep ++ down) ++ [last]))) :
    KeepsWay s.options.extensions tree s.project (s.HoldsModule tree entry) parts := by
  have start : Passes (s.HoldsModule tree entry) [] (outer ++ inner) (outer ++ inner) := by
    refine .names (fun name mem => steps name (List.mem_append_left _ mem)) ?_
    rintro middle ⟨rest, whole⟩
    exact ⟨rest ++ [name], by simp, by simpa [← whole] using climbs⟩
  have descent : Passes (s.HoldsModule tree entry) outer down (outer ++ down) := by
    refine .names (fun name mem => steps name (List.mem_append_right _ mem)) ?_
    rintro middle ⟨rest, whole⟩
    exact ⟨rest ++ [last], by simp, by simpa [← whole] using descends⟩
  obtain ⟨content, present⟩ := file
  refine ⟨filled, _, _, last, chosen, start.append ((Passes.parents _ outer inner).append descent), fun target => ?_⟩
  rw [present]
  simp

/-- Nothing in the project has the name of the payload directory, when a payload is written. -/
def SparesPayloads (s : Stager) (tree : FileTree) (entry : Location) : Prop :=
  s.LoadsPayload tree entry → tree.lookup (s.project ++ [payloadName]) = none

section setting

variable {names : List String} (setting : s.Setting tree base entry) (spares : s.SparesPayloads tree entry)

include setting spares

/-- No other module is written to the place of the copy of a module. -/
theorem Setting.not_isWrittenFor (reachable : s.IsReachable tree entry (s.project ++ names))
    (reachable' : s.IsReachable tree entry module) (other : module ≠ s.project ++ names) :
    ¬ s.IsWrittenFor tree now base module names := by
  obtain ⟨content, file⟩ := setting.file reachable
  have present : tree.lookup (s.project ++ names) ≠ none := by simp [file]
  rintro (⟨parts, rfl, lands⟩ | payload)
  · unfold landing at lands
    split at lands
    · rw [lands, ← List.append_assoc] at present
      exact (setting.file reachable').not_directory (setting.area.sound.above (List.cons_ne_nil _ _) present)
    · exact other (congrArg (s.project ++ ·) lands.symm)
  · obtain ⟨name, rfl⟩ := payload.exists_name
    rw [List.append_cons] at present
    have directory := setting.area.sound.above (List.cons_ne_nil _ _) present
    simp [spares ⟨module, _, reachable', payload⟩] at directory

/-- The copies that were written hold their texts when one module more is staged. -/
theorem keepsTexts_step : s.KeptByStep tree base entry (s.KeepsTexts tree base) := by
  intro seen rest module state state' now after progress next stages keeps
  have reachable := progress.next_reach next module List.mem_cons_self
  obtain ⟨content, file⟩ := setting.file reachable
  have blind := setting.blind module reachable
  have outside := setting.outside reachable
  refine List.forall_mem_cons.2 ⟨⟨stages.isStep progress.area outside file, fun names whole scanned => ?_⟩, fun other mem => ?_⟩
  · exact stages.holdsCopy progress.area outside file blind scanned whole
  · obtain ⟨steps, copies⟩ := keeps other mem
    refine ⟨steps, fun names whole scanned => ?_⟩
    subst whole
    obtain ⟨source, texts, text, copied, pieces⟩ := copies names rfl scanned
    have beyond : ¬ s.IsWrittenFor tree after base module names :=
      setting.not_isWrittenFor spares (progress.seenReach _ mem) reachable fun same => head_not_mem next (same ▸ mem)
    exact ⟨source, texts, text, (stages.grows blind progress.area outside file).kept names _ copied beyond, pieces⟩

variable {staged queue : List Location} (progress : s.Progress tree base entry staged queue after)
  (done : ∀ other ∈ queue, other ∈ staged)

include progress done

/-- The copy of a reachable module stands where the module stands in the project. -/
theorem Progress.copied (reachable : s.IsReachable tree entry (s.project ++ names)) : after.HoldsFile (base ++ names) := by
  refine (progress.holdsFile_iff setting done names).2 (.inl (.mirror reachable ?_))
  rintro ⟨rfl, loads⟩
  obtain ⟨content, file⟩ := setting.file reachable
  simp [spares loads] at file

/-- What was staged mirrors the project. -/
theorem Progress.isMirror (steps : ∀ name ∈ s.project, IsStep name) :
    IsMirror tree after s.root s.project base (s.HoldsModule tree entry) where
  sound := setting.area.sound
  mirrorSound := progress.area.sound
  unlinked := progress.area.unlinked
  leads := by
    have named : AreNames s.project := setting.area.sound.areNames (by simp [setting.project])
    have onward : tree.Reaches 0 [] s.project ([] ++ s.project) :=
      reaches_names setting.area.sound steps (by simp [setting.project]) (by simp [setting.project])
    refine ⟨⟨0, Nat.zero_le _, ?_⟩, setting.project⟩
    rw [Path.steps_ofLocation named]
    exact onward
  mirrorLeads := by
    obtain ⟨names, whole⟩ := progress.inside entry (progress.entryFrontier.elim id (done entry))
    have filled := (setting.proper .refl names whole).1
    obtain ⟨content, file⟩ := progress.copied setting spares done (whole ▸ .refl : s.IsReachable tree entry (s.project ++ names))
    exact ⟨progress.area.reached, progress.area.sound.above filled (by simp [file])⟩
  there := by
    rintro place ⟨rest, filled, reachable⟩
    obtain ⟨content, file⟩ := setting.file reachable
    refine setting.area.sound.above filled ?_
    rw [List.append_assoc, file]
    simp
  here := by
    rintro place ⟨rest, filled, reachable⟩
    obtain ⟨content, file⟩ := progress.copied setting spares done reachable
    refine progress.area.sound.above filled ?_
    rw [List.append_assoc, file]
    simp
  back := by
    intro place name directory copied
    obtain mirrored | ⟨module, reachable, payload⟩ := (progress.holdsFile_iff setting done _).1 copied
    · generalize place ++ [name] = parts at mirrored ⊢
      cases mirrored with
      | mirror reachable => exact setting.file reachable
      | displaced reachable loads =>
        obtain ⟨content, file⟩ := setting.file reachable
        simp [spares loads] at file
    · obtain ⟨other, whole⟩ := payload.exists_name
      obtain ⟨rfl, -⟩ := List.append_inj' (show place ++ [name] = [payloadName] ++ [other] from whole) rfl
      simp [spares ⟨module, _, reachable, payload⟩] at directory

end setting

/-! ## The specifiers of a copy -/

/-- A specifier of a copy finds the copy of what a specifier of the module resolves to, if that is an
ordinary local one that is not left alone, its way, where it is relative, passes only directories above
reachable modules and no link, and no path that is tried in the mirror is too long to be looked up. -/
def FindsCopy (s : Stager) (tree after : FileTree) (entry base : Location) (names : List String) (specifier placed : String) : Prop :=
  ∀ target, s.isExcluded specifier = false → s.IsOrdinary tree (s.project ++ names) specifier →
    Specifier.isLocal specifier.toList = true →
    s.resolveModule tree ((directoryOf (s.project ++ names)).child specifier) = .ok (some target) →
    ((Path.ofString specifier).isAbsolute = false →
      KeepsWay s.options.extensions tree s.project (s.HoldsModule tree entry) (names.dropLast ++ (Path.ofString specifier).parts)) →
    (∀ candidate, IsCandidate s.options.extensions ((s.root.under names).parent.child placed) candidate →
      pathFault? candidate = none) →
    ∃ goal, target = s.project ++ goal ∧
      s.resolveModule after ((s.root.under names).parent.child placed) = .ok (some (base ++ goal))

/-- A piece of a module and what stands for it in the copy: a mention with a specifier that finds the copy
of what the specifier of the mention resolves to. -/
inductive ResolvesAlike (s : Stager) (tree after : FileTree) (entry base : Location) (names : List String) :
    Piece Mention → List Char → Prop
  | plain (c : Char) : ResolvesAlike s tree after entry base names (.plain c) [c]
  | mention {found : Mention} {text : List Char} {placed : String} :
      s.FindsCopy tree after entry base names (String.ofList found.specifier) placed →
      ResolvesAlike s tree after entry base names (.hit found text) (found.withSpecifier text placed.toList)

section resolved

variable {names goal : List String} {specifier : String}

/-- The path of a relative specifier below a path with names. -/
theorem child_parent_under (p : Path) (filled : names ≠ []) (relative : (Path.ofString specifier).isAbsolute = false) :
    (p.under names).parent.child specifier = p.under (names.dropLast ++ (Path.ofString specifier).parts) := by
  rw [Path.parent_under p filled, Path.child, Path.join, if_neg (by simp [relative])]
  exact Path.under_under p _ _

/-- A relative specifier that is kept finds the copy, when it keeps its way. -/
theorem resolveModule_kept (mirror : IsMirror tree after s.root s.project base (s.HoldsModule tree entry))
    (endings : ∀ ending ∈ s.options.extensions, '/' ∉ ending.toList) (filled : names ≠ []) (named : AreNames names)
    (relative : (Path.ofString specifier).isAbsolute = false)
    (keeps : KeepsWay s.options.extensions tree s.project (s.HoldsModule tree entry) (names.dropLast ++ (Path.ofString specifier).parts))
    (resolved : s.resolveModule tree ((directoryOf (s.project ++ names)).child specifier) = .ok (some (s.project ++ goal)))
    (copied : after.HoldsFile (base ++ goal))
    (fine : ∀ candidate, IsCandidate s.options.extensions ((s.root.under names).parent.child specifier) candidate →
      pathFault? candidate = none) :
    s.resolveModule after ((s.root.under names).parent.child specifier) = .ok (some (base ++ goal)) := by
  have directory : directoryOf (s.project ++ names) = ((Path.ofLocation s.project).under names).parent := rfl
  rw [directory, child_parent_under _ filled relative] at resolved
  rw [child_parent_under _ filled relative] at fine ⊢
  refine mirror.resolveModule (List.forall_mem_append.2 ⟨fun part mem => ?_, ?_⟩) endings keeps resolved copied fine
  · exact (named part (List.dropLast_subset _ mem)).2.2
  · exact isPlain_ofString specifier

/-- The specifier that is written for a copy finds it. -/
theorem resolveModule_specifierTo (area : Area s.root base tree after) (filled : names ≠ [])
    (copied : after.HoldsFile (base ++ names)) (copied' : after.HoldsFile (base ++ goal))
    (steps : ∀ name ∈ names, IsStep name) (steps' : ∀ name ∈ goal, IsStep name)
    (fine : pathFault? ((s.root.under names).parent.child (specifierTo tree (s.root.under goal) (s.root.under names).parent)) = none) :
    s.resolveModule after ((s.root.under names).parent.child (specifierTo tree (s.root.under goal) (s.root.under names).parent)) =
      .ok (some (base ++ goal)) := by
  obtain ⟨content, file⟩ := copied
  obtain ⟨content', file'⟩ := copied'
  have inside : after.lookup (base ++ names.dropLast) = some .directory := by
    refine area.sound.above (List.cons_ne_nil (names.getLast filled) []) ?_
    rw [List.append_assoc, List.dropLast_append_getLast filled]
    simp [file]
  rw [Path.parent_under _ filled] at fine ⊢
  exact resolveModule_of_follow area.sound
    (follow_specifierTo area file' inside steps' (fun name mem => steps name (List.dropLast_subset _ mem)) fine)

/-- A piece of a copy resolves as that of the module does, if the modules that are led to have copies. -/
theorem CopiesPiece.resolvesAlike (mirror : IsMirror tree after s.root s.project base (s.HoldsModule tree entry))
    (area : Area s.root base tree after)
    (endings : ∀ ending ∈ s.options.extensions, '/' ∉ ending.toList) (filled : names ≠ []) (named : AreNames names)
    (steps : ∀ name ∈ names, IsStep name) (copied : after.HoldsFile (base ++ names)) {source text : List Char}
    {piece : Piece Mention} (copies : s.CopiesPiece tree (s.project ++ names) (s.root.under names) piece text)
    (mem : piece ∈ pieces mention none source)
    (goals : ∀ found ∈ piece.value?, ∀ target, s.isExcluded (String.ofList found.specifier) = false →
      s.Leads tree (s.project ++ names) (String.ofList found.specifier) target →
      ∃ goal, target = s.project ++ goal ∧ after.HoldsFile (base ++ goal) ∧ ∀ name ∈ goal, IsStep name) :
    s.ResolvesAlike tree after entry base names piece text := by
  cases copies with
  | plain c => exact .plain c
  | @hit found text answer leads =>
    have finds : s.FindsCopy tree after entry base names (String.ofList found.specifier) (answer.getD (String.ofList found.specifier)) := by
      intro target included ordinary here resolved keeps fine
      have there := Leads.ordinary ordinary here resolved
      obtain ⟨goal, rfl, copied', steps'⟩ := goals found rfl target included there
      refine ⟨goal, rfl, ?_⟩
      obtain ⟨rfl, relative⟩ | ⟨goal', same, rfl⟩ := leads _ included there
      · exact resolveModule_kept mirror endings filled named relative (keeps relative) resolved copied' fine
      · obtain rfl := List.append_cancel_left same
        exact resolveModule_specifierTo area filled copied copied' steps steps' (fine _ .itself)
    cases answer with
    | none =>
      have kept : s.ResolvesAlike tree after entry base names (.hit found text) (found.withSpecifier text _) := .mention finds
      simpa [withSpecifier_self mem] using kept
    | some new => exact .mention finds

end resolved

/-- When staging succeeds, the copy of each reachable module holds its text, in which the specifiers that keep
their ways resolve to the copies of what they resolve to in the project. -/
theorem copies_resolve_alike (s : Stager) {tree : FileTree} {base : Location} (sound : tree.WellFormed)
    (project : tree.lookup s.project = some .directory)
    (leads : tree.follow s.root = .ok (.entry base .directory) ∨ tree.follow s.root = .ok (.vacant base))
    (empty : ∀ name, tree.lookup (base ++ [name]) = none)
    (blind : ∀ entry module, s.resolveModule tree s.options.entryPoint = .ok (some entry) →
      s.IsReachable tree entry module → s.IsBlind tree base module)
    (spares : ∀ entry, s.resolveModule tree s.options.entryPoint = .ok (some entry) → s.SparesPayloads tree entry)
    (endings : ∀ ending ∈ s.options.extensions, '/' ∉ ending.toList) (staged : Staged) (after : FileTree)
    (success : s.stage tree = (.ok staged, after)) :
    ∃ entry, s.resolveModule tree s.options.entryPoint = .ok (some entry) ∧
      ∀ module, s.IsReachable tree entry module → isScanned module = true →
        ∃ names source texts, module = s.project ++ names ∧ moduleText? tree module = some source ∧
          after.lookup (base ++ names) = some (.file (encode (String.ofList texts.flatten))) ∧
          List.Forall₂ (s.ResolvesAlike tree after entry base names) (pieces mention none source.toList) texts := by
  have setting := setting_of_resolved sound project leads empty blind
  obtain ⟨result, last, ends, staging⟩ := s.exists_ends tree
  obtain ⟨rfl, rfl⟩ := Prod.mk.inj (staging.symm.trans success)
  obtain ⟨entry, modules, queue, resolved, progress, done, keeps⟩ :=
    ends.keeps setting (fun entry resolved => keepsTexts_step (setting entry resolved) (spares entry resolved))
      (List.forall_mem_nil _)
  have known := setting entry resolved
  have spared := spares entry resolved
  refine ⟨entry, resolved, fun module reachable scanned => ?_⟩
  obtain ⟨names, rfl⟩ := progress.inside module ((progress.reachable_iff done module).1 reachable)
  obtain ⟨steps, copies⟩ := keeps _ ((progress.reachable_iff done _).1 reachable)
  obtain ⟨source, texts, text, copied, alike⟩ := copies names rfl scanned
  obtain ⟨first, later⟩ := List.forall_mem_append.1 steps
  refine ⟨names, source, texts, rfl, text, copied, ?_⟩
  have mirror := progress.isMirror known spared done first
  obtain ⟨filled, named⟩ := known.proper reachable names rfl
  have goals (found : Mention) (mentioned : found ∈ (pieces mention none source.toList).filterMap Piece.value?) (target : Location)
      (included : s.isExcluded (String.ofList found.specifier) = false)
      (leads : s.Leads tree (s.project ++ names) (String.ofList found.specifier) target) :
      ∃ goal, target = s.project ++ goal ∧ last.HoldsFile (base ++ goal) ∧ ∀ name ∈ goal, IsStep name := by
    have onward : s.IsReachable tree entry target := by
      refine reachable.tail ⟨_, ?_, included, leads⟩
      rw [scannedSpecifiers, if_pos scanned, text, Option.map_some, Option.getD_some]
      exact List.mem_map_of_mem mentioned
    have mem := (progress.reachable_iff done target).1 onward
    obtain ⟨goal, rfl⟩ := progress.inside target mem
    exact ⟨goal, rfl, progress.copied known spared done onward, (List.forall_mem_append.1 (keeps _ mem).1).2⟩
  refine ((List.forall₂_and_left (p := (· ∈ _)) _ _).2 ⟨fun piece mem => mem, alike⟩).imp fun piece text both => ?_
  obtain ⟨mem, copies⟩ := both
  refine copies.resolvesAlike mirror progress.area endings filled named later ⟨_, copied⟩ mem fun found value => ?_
  exact goals found (List.mem_filterMap.2 ⟨piece, mem, value⟩)

/-- A module that imports one in a directory. -/
def nestedFiles : FileTree where
  entries := [(["p"], .directory), (["p", "main.js"], .file (encode "import './lib/a.js';\n")), (["p", "lib"], .directory),
    (["p", "lib", "a.js"], .file (encode "export {};\n"))]
  workingDirectory := ["p"]

/-- The staging of that project. -/
def nestedStager : Stager :=
  ⟨["p"], .ofString "/p/stage", { entryPoint := .ofString "/p/main.js", outputFile := .ofString "/p/out.js" }⟩

theorem spellsFile_nested {module : Location} {specifier : String} (mem : specifier ∈ scannedSpecifiers nestedFiles module) :
    nestedStager.SpellsFile nestedFiles ["p", "stage"] module specifier := by
  obtain ⟨content, listed⟩ := mem_entries_of_mem_scannedSpecifiers mem
  simp only [nestedFiles, List.mem_cons, Prod.mk.injEq, reduceCtorEq, and_false, false_or, List.not_mem_nil, or_false] at listed
  obtain ⟨rfl, -⟩ | ⟨rfl, -⟩ := listed
  · have all : scannedSpecifiers nestedFiles ["p", "main.js"] = ["./lib/a.js"] := by decide +kernel
    obtain rfl : specifier = "./lib/a.js" := by simpa [all] using mem
    exact ⟨.ordinaryModule, ["p", "lib", "a.js"], rfl, by decide, ⟨_, rfl⟩, by decide⟩
  · have all : scannedSpecifiers nestedFiles ["p", "lib", "a.js"] = [] := by decide +kernel
    simp [all] at mem

theorem short_nested {candidate : Path} (tried : IsCandidate nestedStager.options.extensions
    ((nestedStager.root.under ["main.js"]).parent.child "./lib/a.js") candidate) : pathFault? candidate = none := by
  cases tried with
  | itself => decide
  | @ending ending _ mem named =>
    have all : ∀ ending ∈ nestedStager.options.extensions,
        ∀ path ∈ (withEnding ((nestedStager.root.under ["main.js"]).parent.child "./lib/a.js") ending).toOption,
          pathFault? path = none := by decide
    exact all ending mem candidate (by simp [named, Except.toOption])
  | @index ending mem =>
    revert ending
    decide

theorem copies_resolve_alike_nested :
    nestedFiles.WellFormed ∧ (nestedStager.stage nestedFiles).1.toOption.isSome = true ∧
      nestedStager.resolveModule nestedFiles ((directoryOf ["p", "main.js"]).child "./lib/a.js") = .ok (some ["p", "lib", "a.js"]) ∧
      nestedStager.resolveModule (nestedStager.stage nestedFiles).2 ((nestedStager.root.under ["main.js"]).parent.child "./lib/a.js") =
        .ok (some ["p", "stage", "lib", "a.js"]) := by
  have sound : nestedFiles.WellFormed := wellFormed_of_entries (by decide) rfl
  have done : (nestedStager.stage nestedFiles).1.toOption.isSome = true := by decide +kernel
  have main : (nestedStager.stage nestedFiles).2.lookup ["p", "stage", "main.js"] =
      some (.file (encode "import './lib/a.js';\n")) := by decide +kernel
  have found : nestedFiles.follow ((directoryOf ["p", "main.js"]).child "./lib/a.js") =
      .ok (.entry ["p", "lib", "a.js"] (.file (encode "export {};\n"))) := by decide +kernel
  have start : nestedFiles.follow nestedStager.options.entryPoint =
      .ok (.entry ["p", "main.js"] (.file (encode "import './lib/a.js';\n"))) := by decide +kernel
  have led : nestedStager.resolveModule nestedFiles ((directoryOf ["p", "main.js"]).child "./lib/a.js") =
      .ok (some ["p", "lib", "a.js"]) := resolveModule_of_follow sound found
  refine ⟨sound, done, led, ?_⟩
  cases staging : nestedStager.stage nestedFiles with
  | mk result after =>
    rw [staging] at done main
    cases result with
    | error failure => cases done
    | ok staged =>
      obtain ⟨entry, resolved, alike⟩ := copies_resolve_alike nestedStager sound rfl (.inr (by decide +kernel))
        (fun name => rfl) (fun entry module _ _ => isBlind_of_spellsFile sound fun specifier => spellsFile_nested)
        (fun _ _ _ => rfl) (by decide) staged after staging
      obtain rfl : ["p", "main.js"] = entry := by
        simpa [resolveModule, resolveModule_of_follow sound start] using resolved
      obtain ⟨names, source, texts, whole, text, copied, alike⟩ := alike _ .refl (by decide)
      obtain rfl : ["main.js"] = names := List.append_cancel_left (show ["p"] ++ ["main.js"] = ["p"] ++ names from whole)
      obtain rfl : "import './lib/a.js';\n" = source := by
        have read : moduleText? nestedFiles ["p", "main.js"] = some "import './lib/a.js';\n" := by decide +kernel
        exact Option.some.inj (read.symm.trans text)
      have cut : pieces mention none "import './lib/a.js';\n".toList =
          [.hit ⟨'\'', "./lib/a.js".toList⟩ "import './lib/a.js'".toList, .plain ';', .plain '\n'] := by
        with_unfolding_all rfl
      rw [cut] at alike
      simp only [List.forall₂_cons_left_iff, List.forall₂_nil_left_iff] at alike
      obtain ⟨_, _, hit, ⟨_, _, ⟨⟩, ⟨_, _, ⟨⟩, rfl, rfl⟩, rfl⟩, rfl⟩ := alike
      cases hit with
      | @mention _ _ placed finds =>
      -- the text of the copy tells which specifier stands in it
      obtain rfl : placed = "./lib/a.js" := by
        have same := congrArg String.toList (encode_inj.1 (Entry.file.inj (Option.some.inj (copied.symm.trans main))))
        rw [String.toList_ofList] at same
        have whole : "import '".toList ++ (placed.toList ++ "';\n".toList) =
            "import '".toList ++ ("./lib/a.js".toList ++ "';\n".toList) := by
          simpa [Mention.withSpecifier] using same
        exact String.toList_inj.1 (List.append_cancel_right (List.append_cancel_left whole))
      have ordinary : nestedStager.IsOrdinary nestedFiles ["p", "main.js"] "./lib/a.js" := ⟨_, rfl, by simp⟩
      have onward : nestedStager.IsReachable nestedFiles ["p", "main.js"] ["p", "lib", "a.js"] := by
        have scanned : scannedSpecifiers nestedFiles ["p", "main.js"] = ["./lib/a.js"] := by decide +kernel
        exact .single ⟨"./lib/a.js", by simp [scanned], rfl, .ordinary ordinary rfl led⟩
      have keeps : KeepsWay nestedStager.options.extensions nestedFiles ["p"]
          (nestedStager.HoldsModule nestedFiles ["p", "main.js"]) ["lib", "a.js"] := by
        refine keepsWay_of_climb [] [] ["lib"] .refl onward ⟨_, rfl⟩ (by decide) (by simp) ?_
        exact .itself (asksFile_eq_true_iff.2 ⟨_, _, found⟩)
      obtain ⟨goal, whole, result⟩ := finds ["p", "lib", "a.js"] rfl ordinary rfl led (fun _ => keeps) fun candidate => short_nested
      obtain rfl : ["lib", "a.js"] = goal := List.append_cancel_left (show ["p"] ++ ["lib", "a.js"] = ["p"] ++ goal from whole)
      exact result

/-- A module that imports a link to another. -/
def linkedFiles : FileTree where
  entries := [(["p"], .directory), (["p", "main.js"], .file (encode "import './link.js';\n")),
    (["p", "real.js"], .file (encode "export {};\n")), (["p", "link.js"], .link "real.js")]
  workingDirectory := ["p"]

/-- The specifier leads over the link to a module that is staged, and its copy holds the same specifier, which
resolves to nothing in the mirror. -/
theorem copies_lose_link :
    linkedFiles.WellFormed ∧ (nestedStager.stage linkedFiles).1.toOption.isSome = true ∧
      nestedStager.IsOrdinary linkedFiles ["p", "main.js"] "./link.js" ∧ Specifier.isLocal "./link.js".toList = true ∧
      nestedStager.resolveModule linkedFiles ((directoryOf ["p", "main.js"]).child "./link.js") = .ok (some ["p", "real.js"]) ∧
      (nestedStager.stage linkedFiles).2.lookup ["p", "stage", "main.js"] = some (.file (encode "import './link.js';\n")) ∧
      (nestedStager.stage linkedFiles).2.HoldsFile ["p", "stage", "real.js"] ∧
      nestedStager.resolveModule (nestedStager.stage linkedFiles).2
        ((nestedStager.root.under ["main.js"]).parent.child "./link.js") = .ok none := by
  have sound : linkedFiles.WellFormed := wellFormed_of_entries (by decide) rfl
  have found : linkedFiles.follow ((directoryOf ["p", "main.js"]).child "./link.js") =
      .ok (.entry ["p", "real.js"] (.file (encode "export {};\n"))) := by decide +kernel
  refine ⟨sound, by decide +kernel, ⟨_, rfl, by simp⟩, rfl, resolveModule_of_follow sound found, by decide +kernel,
    ⟨encode "export {};\n", by decide +kernel⟩, ?_⟩
  have missing : (nestedStager.resolveModule (nestedStager.stage linkedFiles).2
      ((nestedStager.root.under ["main.js"]).parent.child "./link.js")).toOption = some none := by decide +kernel
  generalize nestedStager.resolveModule _ _ = answer at missing ⊢
  cases answer with
  | error => cases missing
  | ok found => simpa [Except.toOption] using missing

end Stager

end Bundling

end WasmPackaging
