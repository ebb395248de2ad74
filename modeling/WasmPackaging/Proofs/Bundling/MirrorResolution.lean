import WasmPackaging.Proofs.Bundling.Mirror
import WasmPackaging.Proofs.FileTree.Ways
import WasmPackaging.Proofs.Specifier

/-!
The resolution of modules below the stage root. A path that passes only places which the project and the
mirror have alike, and no link (`KeepsWay`), resolves to the copy of the file that it resolves to in the
project (`IsMirror.resolveModule`); the specifier that is written for a copy leads to that
(`follow_specifierTo`).
-/

namespace WasmPackaging

open Text

namespace FileTree

variable {tree : FileTree}

/-- Steps to the parent lead up again from names. -/
theorem Reaches.parents {n : Nat} {place goal : Location} {rest : List String} (reaches : tree.Reaches n place rest goal)
    (names : List String) :
    tree.Reaches n (place ++ names) (List.replicate names.length parentStep ++ rest) goal := by
  induction names using List.reverseRecOn with
  | nil => simpa using reaches
  | append_singleton names name ih =>
    rw [List.length_append, List.length_singleton, List.replicate_succ, List.cons_append, ← List.append_assoc]
    exact .up (by simpa using ih)

/-- The relative parts from one place to a file lead there. -/
theorem reaches_relativeParts {base start : Location} {target : List String} (sound : tree.WellFormed)
    (steps : ∀ name ∈ target, IsStep name) (file : tree.HoldsFile (base ++ target)) :
    tree.Reaches 0 (base ++ start) (Path.relativeParts target start) (base ++ target) := by
  have down {base : Location} {target : List String} (steps : ∀ name ∈ target, IsStep name)
      (file : tree.HoldsFile (base ++ target)) : tree.Reaches 0 base target (base ++ target) := by
    obtain ⟨content, present⟩ := file
    exact reaches_names sound steps (by simp [present]) (by simp [present])
  fun_induction Path.relativeParts target start generalizing base with
  | case1 target name start ih =>
    have inner := @ih (base ++ [name]) (fun other mem => steps other (List.mem_cons_of_mem _ mem)) (by simpa using file)
    simpa using inner
  | case2 t target name start _ => exact (down steps file).parents (name :: start)
  | case3 target start _ => exact (down steps file).parents start

theorem resolveFrom_parents (trail : Trail) (place : Location) (names : List String) (tasks : List Task) :
    tree.resolveFrom trail (place ++ names) ((List.replicate names.length parentStep).map .part ++ tasks) =
      tree.resolveFrom trail place tasks := by
  induction names using List.reverseRecOn with
  | nil => simp
  | append_singleton names name ih =>
    rw [List.length_append, List.length_singleton, List.replicate_succ, List.map_cons, List.cons_append, resolveFrom_up,
      ← List.append_assoc, List.dropLast_concat, ih]

/-- Where no link stands, the relative parts from one place to another resolve to that. -/
theorem resolveFrom_relativeParts {trail : Trail} {base : Location} {target start : List String} (named : AreNames target)
    (unlinked : ∀ parts target, tree.lookup (base ++ parts) ≠ some (.link target)) (tasks : List Task) :
    tree.resolveFrom trail (base ++ start) ((Path.relativeParts target start).map .part ++ tasks) =
      tree.resolveFrom trail (base ++ target) tasks := by
  fun_induction Path.relativeParts target start generalizing base with
  | case1 target name start ih =>
    have inner := @ih (base ++ [name]) (areNames_cons.1 named).2 (by simpa using fun parts => unlinked (name :: parts))
    simpa using inner
  | case2 t target name start _ =>
    rw [List.map_append, List.append_assoc]
    exact (resolveFrom_parents trail base (name :: start) _).trans (resolveFrom_names named (fun front _ => unlinked front) tasks)
  | case3 target start _ =>
    rw [List.map_append, List.append_assoc]
    exact (resolveFrom_parents trail base start _).trans (resolveFrom_names named (fun front _ => unlinked front) tasks)

section last

variable {root : Path} {base place : Location} {passed : List String} {last : String}

/-- A last part leads to a directory, or to what it names, or it is too long to be looked up. -/
theorem walk_last (limit : Nat) (unlinked : ∀ target, tree.lookup (place ++ [last]) ≠ some (.link target)) :
    (∃ other, tree.walk true limit place [last] = .ok (.entry other .directory)) ∨
      (IsStep last ∧ tree.walk true limit place [last] = .ok (tree.found (place ++ [last]))) ∨
      (isPart last = true ∧ last ≠ parentStep ∧ longestName < last.utf8ByteSize) := by
  obtain blank | rfl | step | long := part_cases last
  · exact .inl ⟨place, by rw [walk_stay blank, walk_nil]⟩
  · exact .inl ⟨place.dropLast, by rw [walk_up, walk_nil]⟩
  · refine .inr (.inl ⟨step, ?_⟩)
    rw [walk_step step, found]
    rcases entry : tree.lookup (place ++ [last]) with _ | _ | target | _
    · rfl
    · rfl
    · exact absurd entry (unlinked target)
    · simp
  · exact .inr (.inr long)

variable (leads : tree.LeadsInto root base) (onward : tree.Reaches 0 base passed place)
  (inside : tree.lookup place = some .directory) (plain : ∀ part ∈ passed ++ [last], '/' ∉ part.toList)

include leads onward inside plain

/-- A path is walked to its last part. -/
theorem follow_last (fine : pathFault? (root.under (passed ++ [last])) = none) :
    ∃ limit, tree.follow (root.under (passed ++ [last])) = tree.walk true limit place [last] := by
  obtain ⟨n, enough, reaches⟩ := leads.reached
  have whole := reaches.append onward leads.directory
  refine ⟨linkLimit - n, ?_⟩
  unfold follow
  rw [fine, Path.steps_under_of_plain root plain, ← List.append_assoc]
  exact walk_append whole enough true (List.cons_ne_nil last []) inside

/-- Where a path leads to no file for certain, none stands at its end, and its last part is not too long. -/
theorem not_holdsFile_of_asksFile (zero : (root.under (passed ++ [last])).holdsZero = false)
    (asked : tree.asksFile (root.under (passed ++ [last])) = .ok false) :
    (IsStep last → ¬ tree.HoldsFile (place ++ [last])) ∧
      ¬ (isPart last = true ∧ last ≠ parentStep ∧ longestName < last.utf8ByteSize) := by
  have fine : pathFault? (root.under (passed ++ [last])) = none := by
    cases known : pathFault? (root.under (passed ++ [last])) with
    | none => rfl
    | some fault =>
      obtain rfl | rfl := pathFault?_eq_some known
      · unfold pathFault? at known
        rw [zero] at known
        simp at known
      · simp [asksFile, asks, follow, known] at asked
  obtain ⟨limit, followed⟩ := follow_last leads onward inside plain fine
  unfold asksFile asks at asked
  rw [followed] at asked
  constructor
  · rintro step ⟨content, file⟩
    simp [walk_step step, file] at asked
  · rintro ⟨valid, other, long⟩
    simp [walk_of_nameTooLong valid other long] at asked

/-- A path leads to no file if none stands at its end and its last part is not too long. -/
theorem asksFile_eq_false (fine : pathFault? (root.under (passed ++ [last])) = none)
    (unlinked : ∀ target, tree.lookup (place ++ [last]) ≠ some (.link target))
    (missing : IsStep last → ¬ tree.HoldsFile (place ++ [last]))
    (short : ¬ (isPart last = true ∧ last ≠ parentStep ∧ longestName < last.utf8ByteSize)) :
    tree.asksFile (root.under (passed ++ [last])) = .ok false := by
  obtain ⟨limit, followed⟩ := follow_last leads onward inside plain fine
  unfold asksFile asks
  rw [followed]
  obtain ⟨other, ends⟩ | ⟨step, ends⟩ | long := walk_last limit unlinked
  · rw [ends]
  · rw [ends, found]
    rcases entry : tree.lookup (place ++ [last]) with _ | content | target | _
    · rfl
    · exact absurd ⟨content, entry⟩ (missing step)
    · rfl
    · rfl
  · exact absurd long short

/-- A path that leads to a file over no link at its end leads to what it names. -/
theorem place_of_follow {location : Location} {content : Bytes}
    (unlinked : ∀ target, tree.lookup (place ++ [last]) ≠ some (.link target))
    (led : tree.follow (root.under (passed ++ [last])) = .ok (.entry location (.file content))) :
    IsStep last ∧ location = place ++ [last] ∧ tree.HoldsFile location := by
  have fine : pathFault? (root.under (passed ++ [last])) = none := by
    cases known : pathFault? (root.under (passed ++ [last])) with
    | none => rfl
    | some fault => simp [follow, known] at led
  obtain ⟨limit, followed⟩ := follow_last leads onward inside plain fine
  rw [followed] at led
  obtain ⟨other, ends⟩ | ⟨step, ends⟩ | ⟨valid, other, long⟩ := walk_last limit unlinked
  · simp [ends] at led
  · rw [ends] at led
    obtain ⟨rfl, file⟩ := found_eq_entry_iff.1 (Except.ok.inj led)
    exact ⟨step, rfl, content, file⟩
  · simp [walk_of_nameTooLong valid other long] at led

/-- A path leads to the file at its end. -/
theorem follow_eq_file {content : Bytes} (fine : pathFault? (root.under (passed ++ [last])) = none) (step : IsStep last)
    (file : tree.lookup (place ++ [last]) = some (.file content)) :
    tree.follow (root.under (passed ++ [last])) = .ok (.entry (place ++ [last]) (.file content)) := by
  obtain ⟨limit, followed⟩ := follow_last leads onward inside plain fine
  rw [followed, walk_step step, file]
  simp

end last

/-! ## Ways through known places -/

/-- Parts lead from one place to another, down only into places that are known. A place is given by its names
below some location. -/
inductive Passes (known : List String → Prop) : List String → List String → List String → Prop
  | here (place : List String) : Passes known place [] place
  | stay {place goal rest : List String} {part : String} : isPart part = false → Passes known place rest goal →
      Passes known place (part :: rest) goal
  | up {place goal rest : List String} {name : String} : Passes known place rest goal →
      Passes known (place ++ [name]) (parentStep :: rest) goal
  | down {place goal rest : List String} {part : String} : IsStep part → known (place ++ [part]) →
      Passes known (place ++ [part]) rest goal → Passes known place (part :: rest) goal

namespace Passes

variable {known : List String → Prop} {base : Location} {place goal parts rest : List String}

section directories

variable (directories : ∀ place, known place → tree.lookup (base ++ place) = some .directory)

include directories

theorem reaches (passes : Passes known place parts goal) : tree.Reaches 0 (base ++ place) parts (base ++ goal) := by
  induction passes with
  | here place => exact .here _
  | stay blank _ ih => exact .stay blank ih
  | up _ ih => exact .up (by simpa [← List.append_assoc] using ih)
  | down step there _ ih => exact .down step (by simpa using directories _ there) (by simpa using ih)

theorem directory (sound : tree.WellFormed) (passes : Passes known place parts goal)
    (start : tree.lookup (base ++ place) = some .directory) : tree.lookup (base ++ goal) = some .directory := by
  induction passes with
  | here place => exact start
  | stay _ _ ih => exact ih start
  | up _ ih =>
    rw [← List.append_assoc] at start
    exact ih (sound.directory_above start)
  | down _ there _ ih => exact ih (directories _ there)

end directories

theorem split (passes : Passes known place (parts ++ rest) goal) :
    ∃ middle, Passes known place parts middle ∧ Passes known middle rest goal := by
  induction parts generalizing place with
  | nil => exact ⟨place, .here place, passes⟩
  | cons part parts ih =>
    cases passes with
    | stay blank later =>
      obtain ⟨middle, first, second⟩ := ih later
      exact ⟨middle, .stay blank first, second⟩
    | up later =>
      obtain ⟨middle, first, second⟩ := ih later
      exact ⟨middle, .up first, second⟩
    | down step there later =>
      obtain ⟨middle, first, second⟩ := ih later
      exact ⟨middle, .down step there first, second⟩

theorem append {middle : List String} (passes : Passes known place parts middle) (onward : Passes known middle rest goal) :
    Passes known place (parts ++ rest) goal := by
  induction passes with
  | here => exact onward
  | stay blank _ ih => exact .stay blank (ih onward)
  | up _ ih => exact .up (ih onward)
  | down step there _ ih => exact .down step there (ih onward)

/-- Steps to the parent lead up again from names. -/
theorem parents (known : List String → Prop) (place names : List String) :
    Passes known (place ++ names) (List.replicate names.length parentStep) place := by
  induction names using List.reverseRecOn with
  | nil => simpa using Passes.here place
  | append_singleton names name ih =>
    rw [List.length_append, List.length_singleton, List.replicate_succ, ← List.append_assoc]
    exact .up ih

/-- Names lead down through known places. -/
theorem names {names : List String} (steps : ∀ name ∈ names, IsStep name)
    (there : ∀ middle, middle <+: names → known (place ++ middle)) : Passes known place names (place ++ names) := by
  induction names generalizing place with
  | nil => simpa using Passes.here place
  | cons name names ih =>
    obtain ⟨step, rest⟩ := List.forall_mem_cons.1 steps
    rw [List.append_cons]
    refine .down step (there [name] ⟨names, rfl⟩) (ih rest fun middle within => ?_)
    rw [← List.append_cons]
    exact there (name :: middle) (List.cons_prefix_cons.2 ⟨rfl, within⟩)

end Passes

end FileTree

namespace Bundling.Stager

open FileTree

variable {s : Stager} {tree after : FileTree} {base : Location}

theorem specifierTo_under (tree : FileTree) (root : Path) {target start : List String} (named : AreNames target)
    (named' : AreNames start) :
    specifierTo tree (root.under target) (root.under start) = Specifier.relative target start := by
  rw [specifierTo, Path.normalize_under root _ named, Path.normalize_under root _ named', Specifier.relative, Specifier.relative,
    Path.relativeTo, Path.relativeTo, Path.relativeParts_append]

/-- The specifier that leads from one place below a path to another stands for the parts between them. -/
theorem child_specifierTo (tree : FileTree) (root : Path) {target start : List String} (named : AreNames target)
    (named' : AreNames start) :
    (root.under start).child (specifierTo tree (root.under target) (root.under start)) =
      root.under (start ++ Path.relativeParts target start) := by
  rw [Path.child, specifierTo_under tree root named named', Specifier.ofString_relative named, Path.relativeTo, Path.join_relative,
    Path.under_under]

/-- No part between places below a path holds a slash. -/
theorem not_mem_relativeParts {target start : List String} (named : AreNames target) (named' : AreNames start) :
    ∀ part ∈ start ++ Path.relativeParts target start, '/' ∉ part.toList := by
  refine List.forall_mem_append.2 ⟨fun part mem => (named' part mem).2.2, fun part mem => ?_⟩
  obtain rfl | down := Path.mem_relativeParts mem
  · decide
  · exact (named part down).2.2

/-- The specifier that is written for a copy leads to it. -/
theorem follow_specifierTo {before : FileTree} (area : Area s.root base before after) {target start : List String} {content : Bytes}
    (file : after.lookup (base ++ target) = some (.file content)) (inside : after.lookup (base ++ start) = some .directory)
    (steps : ∀ name ∈ target, IsStep name) (steps' : ∀ name ∈ start, IsStep name)
    (fine : pathFault? ((s.root.under start).child (specifierTo tree (s.root.under target) (s.root.under start))) = none) :
    after.follow ((s.root.under start).child (specifierTo tree (s.root.under target) (s.root.under start))) =
      .ok (.entry (base ++ target) (.file content)) := by
  have present : after.lookup (base ++ target) ≠ none := by simp [file]
  have present' : after.lookup (base ++ start) ≠ none := by simp [inside]
  have named := (areNames_append.1 (area.sound.areNames present)).2
  have named' := (areNames_append.1 (area.sound.areNames present')).2
  have onward : after.Reaches 0 (base ++ start) (Path.relativeParts target start) (base ++ target) :=
    reaches_relativeParts area.sound steps ⟨content, file⟩
  rw [child_specifierTo tree s.root named named'] at fine ⊢
  have directory : after.lookup base = some .directory := by
    simpa using area.lookup_prefix inside (List.nil_prefix)
  obtain ⟨n, enough, reaches⟩ := area.reached
  have downward := reaches_names area.sound steps' present' (by simp [inside])
  refine (follow_eq_ok_iff area.sound).2 ⟨fine, n, enough, base ++ target, ?_, (found_eq_entry_iff.2 ⟨rfl, file⟩).symm⟩
  rw [Path.steps_under_of_plain _ (not_mem_relativeParts named named')]
  simpa using reaches.append (downward.append onward inside) directory

/-- The specifier that is written for a place below the stage root has that for its real location, if anything stands
there. -/
theorem resolve_specifierTo {before : FileTree} (area : Area s.root base before after) {target start : List String}
    (present : after.lookup (base ++ target) ≠ none) (named' : AreNames start)
    (zero : (s.root.under (start ++ Path.relativeParts target start)).holdsZero = false) :
    after.resolve ((s.root.under start).child (specifierTo tree (s.root.under target) (s.root.under start))) =
      .ok (base ++ target) := by
  have named : AreNames target := (areNames_append.1 (area.sound.areNames present)).2
  obtain ⟨entry, there⟩ := Option.ne_none_iff_exists'.1 present
  obtain ⟨n, -, reaches⟩ := area.reached
  rw [child_specifierTo tree s.root named named']
  refine resolve_of_resolveFrom area.sound zero ?_ there fun other same => area.unlinked target other (same ▸ there)
  -- the way to the stage root may pass links, but none stands below it
  obtain ⟨trail, resolved, -⟩ := resolveFrom_of_reaches reaches [] ((start ++ Path.relativeParts target start).map .part)
    (by simp [Trail.Closed]) (by simp [Trail.Open])
  have last := @resolveFrom_relativeParts after trail base target start named area.unlinked []
  rw [List.append_nil, resolveFrom] at last
  rw [start_under, Path.steps_under_of_plain _ (not_mem_relativeParts named named'), List.map_append, resolved,
    List.map_append, resolveFrom_names named' (fun front _ => area.unlinked front), last]

end Bundling.Stager

namespace Bundling

open FileTree

/-! ## Candidates -/

/-- The paths that are tried for a path. -/
inductive IsCandidate (extensions : List String) (path : Path) : Path → Prop
  | itself : IsCandidate extensions path path
  | ending {ending : String} {candidate : Path} : ending ∈ extensions → withEnding path ending = .ok candidate →
      IsCandidate extensions path candidate
  | index {ending : String} : ending ∈ extensions → IsCandidate extensions path (indexOf path ending)

/-- An ending is appended to the last part, whatever the path leads on from. -/
theorem withEnding_under {root candidate : Path} {parts : List String} {last ending : String}
    (named : withEnding (root.under (parts ++ [last])) ending = .ok candidate) (other : Path) :
    candidate = root.under (parts ++ [last ++ ending]) ∧
      withEnding (other.under (parts ++ [last])) ending = .ok (other.under (parts ++ [last ++ ending])) := by
  have name (p : Path) : (p.under (parts ++ [last])).name = last := by simp [Path.name, Path.under]
  have renamed (p : Path) (text : String) :
      ({ p.under (parts ++ [last]) with parts := (p.under (parts ++ [last])).parts.dropLast ++ [text] } : Path) =
        p.under (parts ++ [text]) := by
    simp [Path.under, List.dropLast_append_of_ne_nil]
  simp only [withEnding, mapError_eq_ok_iff, Path.withName, name, renamed] at named ⊢
  split at named
  · cases named
  · next filled =>
    rw [if_neg filled]
    split at named
    · next part whole =>
      split at named
      · cases named
      · next valid =>
        rw [if_neg valid]
        exact ⟨(Except.ok.inj named).symm, rfl⟩
    · cases named

theorem indexOf_under (root : Path) (parts : List String) {ending : String} (plain : '/' ∉ ending.toList) :
    indexOf (root.under parts) ending = root.under (parts ++ ["index" ++ ending]) := by
  have other (name : String) (starts : name.toList.head? ≠ some 'i') : "index" ++ ending ≠ name := by
    rintro rfl
    simp [String.toList_append] at starts
  have valid : IsEntryName ("index" ++ ending) := by
    refine ⟨?_, other _ (by decide), by simp [String.toList_append, plain]⟩
    simp only [isPart, Bool.and_eq_true, bne_iff_ne]
    exact ⟨other _ (by decide), other _ (by decide)⟩
  have text : s!"index{ending}" = "index" ++ ending := by simp [toString]
  rw [indexOf, text, Path.child_of_name _ valid, Path.under_under]

theorem holdsZero_under (root : Path) (parts : List String) :
    (root.under parts).holdsZero = (root.holdsZero || parts.any fun part => part.toList.contains '\x00') := by
  simp [Path.holdsZero, Path.under]

theorem under_inj {root : Path} {a b : List String} (same : root.under a = root.under b) : a = b := by
  simpa [Path.under] using same

theorem plain_ending {outer : List String} {name ending : String} (plain : ∀ part ∈ outer ++ [name], '/' ∉ part.toList)
    (plain' : '/' ∉ ending.toList) : ∀ part ∈ outer ++ [name ++ ending], '/' ∉ part.toList := by
  obtain ⟨first, last⟩ := List.forall_mem_append.1 plain
  refine List.forall_mem_append.2 ⟨first, ?_⟩
  simpa [String.toList_append, plain'] using last

theorem plain_index {parts : List String} {ending : String} (plain : ∀ part ∈ parts, '/' ∉ part.toList) (plain' : '/' ∉ ending.toList) :
    ∀ part ∈ parts ++ ["index" ++ ending], '/' ∉ part.toList := by
  refine List.forall_mem_append.2 ⟨plain, ?_⟩
  simp [String.toList_append, plain']

/-- The candidate that is taken for a path is tried for a path with the same parts. -/
theorem Chosen.isCandidate {tree : FileTree} {extensions parts others : List String} {root : Path} (filled : parts ≠ [])
    (plain : ∀ part ∈ parts, '/' ∉ part.toList) (endings : ∀ ending ∈ extensions, '/' ∉ ending.toList)
    (chosen : Chosen extensions tree (root.under parts) (root.under others)) (other : Path) :
    IsCandidate extensions (other.under parts) (other.under others) ∧ ∀ part ∈ others, '/' ∉ part.toList := by
  generalize whole : root.under others = candidate at chosen
  cases chosen with
  | itself =>
    obtain rfl := under_inj whole
    exact ⟨.itself, plain⟩
  | @ending before later ending _ _ all _ named =>
    obtain ⟨outer, name, rfl⟩ : ∃ outer name, parts = outer ++ [name] :=
      ⟨parts.dropLast, parts.getLast filled, (List.dropLast_append_getLast filled).symm⟩
    obtain ⟨rfl, named'⟩ := withEnding_under named other
    obtain rfl := under_inj whole
    have mem : ending ∈ extensions := by simp [all]
    exact ⟨.ending mem named', plain_ending plain (endings ending mem)⟩
  | @index before later ending _ _ _ all =>
    have mem : ending ∈ extensions := by simp [all]
    rw [indexOf_under _ _ (endings ending mem)] at whole
    obtain rfl := under_inj whole
    exact ⟨indexOf_under other parts (endings ending mem) ▸ .index mem, plain_index plain (endings ending mem)⟩

/-- One tree mirrors another: the known places are directories of both, and below `base`, it holds no link,
and no file but those that the other holds in the directories below `project`. -/
structure IsMirror (tree after : FileTree) (root : Path) (project base : Location) (known : List String → Prop) : Prop where
  sound : tree.WellFormed
  mirrorSound : after.WellFormed
  leads : tree.LeadsInto (.ofLocation project) project
  mirrorLeads : after.LeadsInto root base
  there : ∀ place, known place → tree.lookup (project ++ place) = some .directory
  here : ∀ place, known place → after.lookup (base ++ place) = some .directory
  unlinked : ∀ names target, after.lookup (base ++ names) ≠ some (.link target)
  back : ∀ place name, tree.lookup (project ++ place) = some .directory →
    after.HoldsFile (base ++ (place ++ [name])) → tree.HoldsFile (project ++ (place ++ [name]))

/-- The candidate that is taken for a path in the project, given by its parts below that, passes only known
places, and no link stands in its own place. -/
def KeepsWay (extensions : List String) (tree : FileTree) (project : Location) (known : List String → Prop)
    (parts : List String) : Prop :=
  parts ≠ [] ∧ ∃ passed inner last,
    Chosen extensions tree ((Path.ofLocation project).under parts) ((Path.ofLocation project).under (passed ++ [last])) ∧
      Passes known [] passed inner ∧ ∀ target, tree.lookup (project ++ (inner ++ [last])) ≠ some (.link target)

namespace IsMirror

variable {tree after : FileTree} {root : Path} {project base : Location} {known : List String → Prop}
  (mirror : IsMirror tree after root project base known) {extensions : List String} {parts passed inner : List String} {last : String}

include mirror

theorem directory (passes : Passes known [] passed inner) :
    tree.lookup (project ++ inner) = some .directory :=
  passes.directory mirror.there mirror.sound (by simpa using mirror.leads.directory)

theorem mirrorDirectory (passes : Passes known [] passed inner) :
    after.lookup (base ++ inner) = some .directory :=
  passes.directory mirror.here mirror.mirrorSound (by simpa using mirror.mirrorLeads.directory)

/-- A path that leads to no file of the project leads to none in the mirror. -/
theorem asksFile_eq_false (zero : (Path.ofLocation project).holdsZero = false)
    (passes : Passes known [] passed inner) (plain : ∀ part ∈ passed ++ [last], '/' ∉ part.toList)
    (fine : pathFault? (root.under (passed ++ [last])) = none)
    (asked : tree.asksFile ((Path.ofLocation project).under (passed ++ [last])) = .ok false) :
    after.asksFile (root.under (passed ++ [last])) = .ok false := by
  have zero' : ((Path.ofLocation project).under (passed ++ [last])).holdsZero = false := by
    have whole := holdsZero_of_pathFault? fine
    rw [holdsZero_under, Bool.or_eq_false_iff] at whole
    rw [holdsZero_under, zero, whole.2, Bool.or_false]
  obtain ⟨missing, short⟩ := not_holdsFile_of_asksFile mirror.leads (by simpa using passes.reaches mirror.there)
    (mirror.directory passes) plain zero' asked
  refine FileTree.asksFile_eq_false mirror.mirrorLeads (by simpa using passes.reaches mirror.here)
    (mirror.mirrorDirectory passes) plain fine (fun target => ?_) (fun step file => missing step ?_) short
  · simpa using mirror.unlinked (inner ++ [last]) target
  · simpa using mirror.back inner last (mirror.directory passes) (by simpa using file)

/-- A path to a directory leads to it. -/
theorem follow_eq_directory (passes : Passes known [] passed inner)
    (plain : ∀ part ∈ passed, '/' ∉ part.toList) (fine : pathFault? (root.under passed) = none) :
    after.follow (root.under passed) = .ok (.entry (base ++ inner) .directory) := by
  obtain ⟨n, enough, reaches⟩ := mirror.mirrorLeads.reached
  have onward : after.Reaches 0 base passed (base ++ inner) := by simpa using passes.reaches mirror.here
  refine (follow_eq_ok_iff mirror.mirrorSound).2
    ⟨fine, n, enough, base ++ inner, ?_, (found_of_directory (mirror.mirrorDirectory passes)).symm⟩
  rw [Path.steps_under_of_plain _ plain]
  simpa using reaches.append onward mirror.mirrorLeads.directory

/-- A path below a project that leads to a file starts without the character that no path may have. -/
theorem holdsZero_eq_false (asked : tree.asksFile ((Path.ofLocation project).under parts) = .ok true) :
    (Path.ofLocation project).holdsZero = false := by
  obtain ⟨_, _, led⟩ := asksFile_eq_true_iff.1 asked
  have whole := holdsZero_of_pathFault? ((follow_eq_ok_iff mirror.sound).1 led).1
  rw [holdsZero_under, Bool.or_eq_false_iff] at whole
  exact whole.1

section tried

variable {tried : List String} (zero : (Path.ofLocation project).holdsZero = false) (endings : ∀ ending ∈ tried, '/' ∉ ending.toList)

include zero endings

/-- Endings are tried on the last name, so the same directories are passed. -/
theorem passed_endings {outer : List String} {name : String} (plain : ∀ part ∈ outer ++ [name], '/' ∉ part.toList)
    (passes : Passes known [] outer inner)
    (fine : ∀ ending ∈ tried, ∀ candidate, withEnding (root.under (outer ++ [name])) ending = .ok candidate → pathFault? candidate = none)
    (passed : Passed tree (withEnding ((Path.ofLocation project).under (outer ++ [name]))) tried) :
    Passed after (withEnding (root.under (outer ++ [name]))) tried := by
  intro ending mem
  obtain ⟨path, named, asked⟩ := passed ending mem
  obtain ⟨rfl, named'⟩ := withEnding_under named root
  exact ⟨_, named', mirror.asksFile_eq_false zero passes (plain_ending plain (endings ending mem)) (fine ending mem _ named') asked⟩

theorem passed_indices (plain : ∀ part ∈ passed, '/' ∉ part.toList) (passes : Passes known [] passed inner)
    (fine : ∀ ending ∈ tried, pathFault? (indexOf (root.under passed) ending) = none)
    (missed : Passed tree (fun ending => .ok (indexOf ((Path.ofLocation project).under passed) ending)) tried) :
    Passed after (fun ending => .ok (indexOf (root.under passed) ending)) tried := by
  intro ending mem
  obtain ⟨path, named, asked⟩ := missed ending mem
  obtain rfl := Except.ok.inj named
  refine ⟨_, rfl, ?_⟩
  have fine' := fine ending mem
  rw [indexOf_under _ _ (endings ending mem)] at asked fine' ⊢
  exact mirror.asksFile_eq_false zero passes (plain_index plain (endings ending mem)) fine' asked

end tried

variable (plain : ∀ part ∈ parts, '/' ∉ part.toList) (endings : ∀ ending ∈ extensions, '/' ∉ ending.toList)

include plain endings

/-- The candidate that is taken in the project is taken in the mirror. -/
theorem chosen (filled : parts ≠ []) (passes : Passes known [] passed inner)
    (chosen : Chosen extensions tree ((Path.ofLocation project).under parts) ((Path.ofLocation project).under (passed ++ [last])))
    (copied : after.asksFile (root.under (passed ++ [last])) = .ok true)
    (fine : ∀ candidate, IsCandidate extensions (root.under parts) candidate → pathFault? candidate = none) :
    Chosen extensions after (root.under parts) (root.under (passed ++ [last])) := by
  obtain ⟨outer, name, rfl⟩ : ∃ outer name, parts = outer ++ [name] :=
    ⟨parts.dropLast, parts.getLast filled, (List.dropLast_append_getLast filled).symm⟩
  have zero := mirror.holdsZero_eq_false chosen.asksFile
  generalize whole : (Path.ofLocation project).under (passed ++ [last]) = candidate at chosen
  cases chosen with
  | itself asked =>
    obtain same := under_inj whole
    rw [← same] at fine ⊢
    exact .itself copied
  | @ending before later ending _ asked all tried named found =>
    obtain ⟨rfl, named'⟩ := withEnding_under named root
    obtain ⟨rfl, same⟩ := List.append_inj' (under_inj whole) rfl
    obtain rfl : last = name ++ ending := by simpa using same
    have known (other : String) (mem : other ∈ before) : other ∈ extensions := by simp [all, mem]
    have missed := mirror.passed_endings zero (fun other mem => endings other (known other mem)) plain passes
      (fun other mem _ named => fine _ (.ending (known other mem) named)) tried
    exact .ending (mirror.asksFile_eq_false zero passes plain (fine _ .itself) asked) all missed named' copied
  | @index before later ending asked tried inside all tried' found =>
    have known (other : String) (mem : other ∈ before ++ [ending]) : other ∈ extensions := by
      rw [all, List.append_cons]
      exact List.mem_append_left _ mem
    have plain' := endings ending (known ending (by simp))
    rw [indexOf_under _ _ plain'] at whole
    obtain ⟨rfl, same⟩ := List.append_inj' (under_inj whole) rfl
    obtain rfl : last = "index" ++ ending := by simpa using same
    obtain ⟨place, above, -⟩ := passes.split
    have directory := mirror.follow_eq_directory passes plain (fine _ .itself)
    have missed := mirror.passed_endings zero endings plain above (fun other mem _ named => fine _ (.ending mem named)) tried
    have known' (other : String) (mem : other ∈ before) : other ∈ extensions := known other (List.mem_append_left _ mem)
    have missed' := mirror.passed_indices zero (fun other mem => endings other (known' other mem)) plain passes
      (fun other mem => fine _ (.index (known' other mem))) tried'
    rw [← indexOf_under root _ plain'] at copied ⊢
    exact .index (by simp [asksFile, asks, directory]) missed (by simp [asksDirectory, asks, directory]) all missed' copied

/-- A path that keeps its way resolves in the mirror as it does in the project. -/
theorem resolveModule {names : List String} (keeps : KeepsWay extensions tree project known parts)
    (resolved : Bundling.resolveModule extensions tree ((Path.ofLocation project).under parts) = .ok (some (project ++ names)))
    (copied : after.HoldsFile (base ++ names))
    (fine : ∀ candidate, IsCandidate extensions (root.under parts) candidate → pathFault? candidate = none) :
    Bundling.resolveModule extensions after (root.under parts) = .ok (some (base ++ names)) := by
  obtain ⟨filled, passed, inner, last, chosen, passes, unlinked⟩ := keeps
  obtain ⟨tried, plainLast⟩ := chosen.isCandidate filled plain endings root
  obtain ⟨location, content, led⟩ := asksFile_eq_true_iff.1 chosen.asksFile
  obtain ⟨step, rfl, -⟩ := place_of_follow mirror.leads (by simpa using passes.reaches mirror.there) (mirror.directory passes)
    plainLast (by simpa using unlinked) led
  have same := resolveModule_eq_some_iff.2 ⟨_, chosen, resolve_of_follow mirror.sound led⟩
  obtain rfl : inner ++ [last] = names := by simpa [resolved] using same.symm
  obtain ⟨bytes, file⟩ := copied
  have led' : after.follow (root.under (passed ++ [last])) = .ok (.entry (base ++ (inner ++ [last])) (.file bytes)) := by
    simpa using follow_eq_file mirror.mirrorLeads (by simpa using passes.reaches mirror.here) (mirror.mirrorDirectory passes)
      plainLast (fine _ tried) step (by simpa using file)
  have taken := mirror.chosen plain endings filled passes chosen (asksFile_eq_true_iff.2 ⟨_, _, led'⟩) fine
  exact resolveModule_eq_some_iff.2 ⟨_, taken, resolve_of_follow mirror.mirrorSound led'⟩

end IsMirror

end Bundling

end WasmPackaging
