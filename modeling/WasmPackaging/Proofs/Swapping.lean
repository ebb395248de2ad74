import WasmPackaging.Proofs.Publishing

/-!
Paths that are copied to where they lead with one text in place of another. The first place of the text is what counts, wherever
in a path it stands (`swapped_eq_ok_iff`). A path that begins with the text gets another beginning; one that has the text further
inside keeps what stands before it and is copied too (`copySwapped_inside`); only a path without the text ends the run before
anything is copied (`copySwapped_copies`).
-/

namespace WasmPackaging

open Text FileTree

/-! ## The first place of a text -/

/-- A text stands in another between two stretches, and nowhere further to the left. -/
structure FirstBetween (part front rest s : List Char) : Prop where
  whole : s = front ++ part ++ rest
  least : ∀ front' rest', s = front' ++ part ++ rest' → front.length ≤ front'.length

variable {part front rest s : List Char}

theorem FirstBetween.start (part rest : List Char) : FirstBetween part [] rest (part ++ rest) := ⟨rfl, by simp⟩

theorem FirstBetween.tail {c : Char} (between : FirstBetween part (c :: front) rest (c :: s)) : FirstBetween part front rest s := by
  refine ⟨by simpa using between.whole, fun front' rest' same => ?_⟩
  have least := between.least (c :: front') rest' (by simpa using same)
  simpa using least

theorem FirstBetween.cons {c : Char} (elsewhere : ¬ part <+: c :: s) (between : FirstBetween part front rest s) :
    FirstBetween part (c :: front) rest (c :: s) := by
  refine ⟨by simp [between.whole], fun front' rest' same => ?_⟩
  cases front' with
  | nil => exact absurd ⟨rest', same.symm⟩ elsewhere
  | cons c' front' =>
    have least := between.least front' rest' (List.cons.inj same).2
    simpa using least

theorem exists_firstBetween (within : part <:+: s) : ∃ front rest, FirstBetween part front rest s := by
  induction s with
  | nil =>
    obtain rfl := List.infix_nil.1 within
    exact ⟨[], [], .start [] []⟩
  | cons c s ih =>
    by_cases here : part <+: c :: s
    · obtain ⟨rest, same⟩ := here
      exact ⟨[], rest, same ▸ .start part rest⟩
    · obtain ⟨front, rest, between⟩ := ih ((List.infix_cons_iff.1 within).resolve_left here)
      exact ⟨c :: front, rest, between.cons here⟩

/-- What is replaced is the first place of a text. -/
theorem FirstBetween.replaceFirst_eq (between : FirstBetween part front rest s) (new : List Char) :
    WasmPackaging.replaceFirst part new s = front ++ new ++ rest := by
  induction front generalizing s with
  | nil =>
    obtain rfl : s = part ++ rest := between.whole
    rcases same : part ++ rest with _ | ⟨c, s⟩
    · obtain ⟨rfl, rfl⟩ := List.append_eq_nil_iff.1 same
      simp [WasmPackaging.replaceFirst]
    · rw [WasmPackaging.replaceFirst, ← same, if_pos (List.isPrefixOf_iff_prefix.2 (List.prefix_append part rest)), List.drop_left,
        List.nil_append]
  | cons c front ih =>
    obtain ⟨s, rfl⟩ : ∃ s', s = c :: s' := ⟨front ++ part ++ rest, between.whole⟩
    have elsewhere : ¬ part.isPrefixOf (c :: s) = true := by
      rw [List.isPrefixOf_iff_prefix]
      rintro ⟨rest', same⟩
      exact absurd (between.least [] rest' same.symm) (by simp)
    rw [WasmPackaging.replaceFirst, if_neg elsewhere, ih between.tail, List.cons_append, List.cons_append]

namespace Publisher

/-! ## Where a path goes -/

/-- A path goes where its text leads with the first place of a text in it swapped for another. -/
def Swaps (old new : String) (path target : Path) : Prop :=
  ∃ front rest, FirstBetween old.toList front rest path.toString.toList ∧
    target = .ofString (String.ofList (front ++ new.toList ++ rest))

variable {old new : String} {path target : Path}

/-- The path that another begins with, and the new beginning. -/
theorem Swaps.of_start (new : String) {rest : List Char} (starts : path.toString.toList = old.toList ++ rest) :
    Swaps old new path (.ofString (String.ofList (new.toList ++ rest))) := ⟨[], rest, starts ▸ .start _ _, rfl⟩

theorem Swaps.unique {target' : Path} (swaps : Swaps old new path target) (swaps' : Swaps old new path target') : target = target' := by
  obtain ⟨front, rest, between, rfl⟩ := swaps
  obtain ⟨front', rest', between', rfl⟩ := swaps'
  rw [← between.replaceFirst_eq, ← between'.replaceFirst_eq]

theorem swapped_eq_ok_iff {pair : Path × Path} : swapped old new path = .ok pair ↔ pair.1 = path ∧ Swaps old new path pair.2 := by
  have goes {front rest : List Char} (between : FirstBetween old.toList front rest path.toString.toList) :
      swapped old new path = .ok (path, .ofString (String.ofList (front ++ new.toList ++ rest))) := by
    have stands : old.toList <:+: path.toString.toList := ⟨front, rest, between.whole.symm⟩
    simp only [swapped, if_pos (standsIn_iff_isInfix.2 stands), between.replaceFirst_eq]
  constructor
  · intro ran
    have stands : old.toList <:+: path.toString.toList := by
      by_contra lacks
      rw [swapped, if_neg (mt standsIn_iff_isInfix.1 lacks)] at ran
      cases ran
    obtain ⟨front, rest, between⟩ := exists_firstBetween stands
    obtain rfl := Except.ok.inj ((goes between).symm.trans ran)
    exact ⟨rfl, front, rest, between, rfl⟩
  · obtain ⟨path', target⟩ := pair
    rintro ⟨rfl, front, rest, between, rfl⟩
    exact goes between

theorem swapped_of_lacks (lacks : ¬ old.toList <:+: path.toString.toList) :
    swapped old new path = .error (.foreignPath path.toString old) := if_neg (mt standsIn_iff_isInfix.1 lacks)

/-! ## A batch -/

theorem exists_mapM_swapped (new : String) {paths : List Path} (each : ∀ path ∈ paths, old.toList <:+: path.toString.toList) :
    ∃ mapping, paths.mapM (swapped old new) = .ok mapping ∧ mapping.map Prod.fst = paths ∧
      ∀ pair ∈ mapping, Swaps old new pair.1 pair.2 := by
  induction paths with
  | nil => exact ⟨[], rfl, rfl, by simp⟩
  | cons path paths ih =>
    obtain ⟨here, later⟩ := List.forall_mem_cons.1 each
    obtain ⟨mapping, ran, sources, swaps⟩ := ih later
    obtain ⟨target, first⟩ : ∃ target, Swaps old new path target := by
      obtain ⟨front, rest, between⟩ := exists_firstBetween here
      exact ⟨_, front, rest, between, rfl⟩
    have goes : swapped old new path = .ok (path, target) := swapped_eq_ok_iff.2 ⟨rfl, first⟩
    refine ⟨(path, target) :: mapping, ?_, by rw [List.map_cons, sources], List.forall_mem_cons.2 ⟨first, swaps⟩⟩
    rw [List.mapM_cons, goes, ran]
    rfl

theorem mapM_swapped_fails {earlier later : List Path} (each : ∀ path ∈ earlier, old.toList <:+: path.toString.toList)
    (lacks : ¬ old.toList <:+: path.toString.toList) :
    (earlier ++ path :: later).eraseDups.mapM (swapped old new) = .error (.foreignPath path.toString old) := by
  have fresh : path ∉ earlier := fun mem => lacks (each path mem)
  have begins : (path :: later).removeAll earlier = path :: later.removeAll earlier := by
    simp [List.removeAll, fresh]
  have each' : ∀ path ∈ earlier.eraseDups, old.toList <:+: path.toString.toList := fun path mem => each path (List.mem_eraseDups.1 mem)
  obtain ⟨mapping, ran, -, -⟩ := exists_mapM_swapped new each'
  rw [List.eraseDups_append, begins, List.eraseDups_cons, List.mapM_append, ran, List.mapM_cons, swapped_of_lacks lacks]
  rfl

/-- Where all paths have a text, each is copied to where it leads with the first place of the text swapped for another, and
nothing else is done. Paths that begin with the text are so copied from one beginning to the other. The first path that lacks
the text ends the run, and nothing is changed. -/
theorem copySwapped_copies (publisher : Publisher) (paths : List Path) (old new : String) (tree : FileTree) :
    ((∀ path ∈ paths, old.toList <:+: path.toString.toList) →
      ∃ mapping, mapping.map Prod.fst = paths.eraseDups ∧ (∀ pair ∈ mapping, Swaps old new pair.1 pair.2) ∧
        publisher.copySwapped paths old new tree = publisher.copy mapping [] tree) ∧
    ((∀ path ∈ paths, old.toList <+: path.toString.toList) →
      publisher.copySwapped paths old new tree = publisher.copy (paths.eraseDups.map fun path =>
        (path, .ofString (String.ofList (new.toList ++ path.toString.toList.drop old.toList.length)))) [] tree) ∧
    ∀ earlier path later, paths = earlier ++ path :: later → (∀ path ∈ earlier, old.toList <:+: path.toString.toList) →
      ¬ old.toList <:+: path.toString.toList →
        publisher.copySwapped paths old new tree = (.error (.build (.foreignPath path.toString old)), tree) := by
  have copies (each : ∀ path ∈ paths, old.toList <:+: path.toString.toList) :
      ∃ mapping, mapping.map Prod.fst = paths.eraseDups ∧ (∀ pair ∈ mapping, Swaps old new pair.1 pair.2) ∧
        publisher.copySwapped paths old new tree = publisher.copy mapping [] tree := by
    have each' : ∀ path ∈ paths.eraseDups, old.toList <:+: path.toString.toList := fun path mem => each path (List.mem_eraseDups.1 mem)
    obtain ⟨mapping, ran, sources, swaps⟩ := exists_mapM_swapped new each'
    refine ⟨mapping, sources, swaps, ?_⟩
    unfold copySwapped
    rw [ran]
  refine ⟨copies, fun starts => ?_, ?_⟩
  · obtain ⟨mapping, sources, swaps, ran⟩ := copies fun path mem => (starts path mem).isInfix
    rw [ran, ← sources, List.map_map]
    refine congrArg (publisher.copy · [] tree) ?_
    refine (List.map_id mapping).symm.trans (List.map_congr_left fun pair mem => ?_)
    have listed : pair.1 ∈ paths := List.mem_eraseDups.1 (sources ▸ List.mem_map_of_mem mem)
    obtain ⟨rest, starts⟩ := starts pair.1 listed
    have begun := Swaps.of_start new starts.symm
    refine Prod.ext rfl (((swaps pair mem).unique begun).trans ?_)
    simp [← starts]
  · rintro earlier path later rfl each lacks
    unfold copySwapped
    rw [mapM_swapped_fails each lacks]
    rfl

/-- A project with a source at the top of a directory and one further inside. -/
def twoSources : FileTree where
  entries := [(["p"], .directory), (["p", "src"], .directory), (["p", "src", "a.js"], .file (encode "a")),
    (["p", "lib"], .directory), (["p", "lib", "src"], .directory), (["p", "lib", "src", "a.js"], .file (encode "b"))]
  workingDirectory := ["p"]

/-- The publisher of the project. -/
def sourcesPublisher : Publisher := ⟨.ofLocation ["p"]⟩

/-- A source that begins with the text is copied, and one that lacks it ends the run. -/
theorem copySwapped_copies_top :
    sourcesPublisher.copySwapped [.ofString "src/a.js"] "src/" "dist/" twoSources =
        sourcesPublisher.copy [(.ofString "src/a.js", .ofString "dist/a.js")] [] twoSources ∧
      sourcesPublisher.copySwapped [.ofString "src/a.js", .ofString "lib/a.js"] "src/" "dist/" twoSources =
        (.error (.build (.foreignPath "lib/a.js" "src/")), twoSources) := by
  have top : (Path.ofString "src/a.js").toString = "src/a.js" := by decide
  have lib : (Path.ofString "lib/a.js").toString = "lib/a.js" := by decide
  have starts : "src/".toList <+: (Path.ofString "src/a.js").toString.toList := by
    rw [top]
    decide
  have lacks : ¬ "src/".toList <:+: (Path.ofString "lib/a.js").toString.toList := by
    rw [lib]
    decide +kernel
  obtain ⟨-, begins, -⟩ := copySwapped_copies sourcesPublisher [.ofString "src/a.js"] "src/" "dist/" twoSources
  obtain ⟨-, -, ends⟩ := copySwapped_copies sourcesPublisher [.ofString "src/a.js", .ofString "lib/a.js"] "src/" "dist/" twoSources
  constructor
  · rw [begins (by simpa using starts)]
    have goes : [Path.ofString "src/a.js"].eraseDups.map (fun path =>
        (path, Path.ofString (String.ofList ("dist/".toList ++ path.toString.toList.drop "src/".toList.length)))) =
        [(.ofString "src/a.js", .ofString "dist/a.js")] := by decide
    rw [goes]
  · rw [ends [.ofString "src/a.js"] (.ofString "lib/a.js") [] rfl (by simpa using starts.isInfix) lacks, lib]

/-- A source that has the text further inside does not begin with it, and is copied out of the directory of the targets. -/
theorem copySwapped_inside : ¬ "src/".toList <+: (Path.ofString "lib/src/a.js").toString.toList ∧ ∃ after,
    sourcesPublisher.copySwapped [.ofString "lib/src/a.js"] "src/" "dist/" twoSources =
        (.ok [.ofLocation ["p", "lib", "dist", "a.js"]], after) ∧
      twoSources.lookup ["p", "lib", "dist", "a.js"] = none ∧
      after.lookup ["p", "lib", "dist", "a.js"] = some (.file (encode "b")) := by
  refine ⟨by decide, _, Prod.ext (eq_ok_of_toOption ?_) rfl, ?_, ?_⟩
  all_goals decide +kernel

end Publisher

end WasmPackaging
