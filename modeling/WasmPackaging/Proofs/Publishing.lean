import WasmPackaging.Proofs.FileTree.Search
import WasmPackaging.Publishing

/-!
What a publisher changes. Copies and moves keep to a zone when their targets lie there (`keeps_copy`,
`keeps_moveAndRename`), and a temporary file is gone at the end, whatever the action with it came to
(`withTemporary_leaves`).
-/

namespace WasmPackaging

open Text FileTree

/-! ## Names with a text taken out -/

theorem replaceFirst_nil_subset (old s : List Char) : replaceFirst old [] s ⊆ s := by
  induction s with
  | nil => simp [replaceFirst]
  | cons c rest ih =>
    rw [replaceFirst]
    split
    · exact List.drop_subset _ _
    · exact List.cons_subset_cons c ih

theorem standsIn_iff_isInfix {part s : List Char} : standsIn part s = true ↔ part <:+: s := by
  induction s with
  | nil => simp [standsIn]
  | cons c s ih => rw [standsIn, Bool.or_eq_true, ih, List.isPrefixOf_iff_prefix, List.infix_cons_iff]

theorem subset_of_standsIn {part s : List Char} (stands : standsIn part s = true) : part ⊆ s :=
  (standsIn_iff_isInfix.1 stands).subset

/-- A text that is taken out of a name stands in it, and the rest of the name holds nothing else. -/
theorem subset_of_withoutLast? {part name rest : List Char} (cut : withoutLast? part name = some rest) :
    part ⊆ name ∧ rest ⊆ name := by
  unfold withoutLast? at cut
  split at cut
  · next stands =>
    obtain rfl := Option.some.inj cut
    refine ⟨subset_of_standsIn stands, fun c mem => ?_⟩
    have kept := replaceFirst_nil_subset part.reverse name.reverse (List.mem_reverse.1 mem)
    exact List.mem_reverse.1 kept
  · cases cut

namespace PathPattern

theorem mapM_of_ofString {s : String} {pattern : PathPattern} (parsed : ofString s = .ok pattern) :
    (Path.ofString s).parts.mapM PatternPart.ofText = .ok pattern.parts := by
  simp only [ofString] at parsed
  split at parsed
  · cases parsed
  · split at parsed
    · cases parsed
    · split at parsed
      · cases parsed
      · obtain ⟨parts, ran, parsed⟩ := bind_eq_ok_iff.1 parsed
        obtain rfl := Except.ok.inj parsed
        exact ran

theorem eq_of_ofText {s : String} {part : PatternPart} (parsed : PatternPart.ofText s = .ok part) :
    part = .anyDepth ∨ part = .wildcard s ∨ part = .name s := by
  unfold PatternPart.ofText at parsed
  split at parsed
  · exact .inl (Except.ok.inj parsed).symm
  · split at parsed
    · cases parsed
    · split at parsed
      · exact .inr (.inl (Except.ok.inj parsed).symm)
      · exact .inr (.inr (Except.ok.inj parsed).symm)

theorem eq_wildcard_of_ofText {s : String} {part : PatternPart} (starred : '*' ∈ s.toList) (other : s ≠ anyDepthSign)
    (parsed : PatternPart.ofText s = .ok part) : part = .wildcard s := by
  have wild : s.toList.any (fun c => c == '*' || c == '?' || c == '[') = true := List.any_eq_true.2 ⟨'*', starred, rfl⟩
  rw [PatternPart.ofText, if_neg other, if_pos wild] at parsed
  split at parsed
  · cases parsed
  · exact (Except.ok.inj parsed).symm

/-- No name in a pattern holds a slash. -/
theorem not_mem_of_ofString {s : String} {pattern : PathPattern} (parsed : ofString s = .ok pattern) {name : String}
    (mem : .name name ∈ pattern.parts) : '/' ∉ name.toList := by
  obtain ⟨text, listed, part⟩ := exists_of_mapM_eq_ok (mapM_of_ofString parsed) _ mem
  obtain other | other | same := eq_of_ofText part
  · cases other
  · cases other
  · obtain rfl := PatternPart.name.inj same
    exact not_mem_of_mem_slashed (List.mem_filter.1 listed).1

/-- The pattern of the scripts with a suffix in their names, at any depth. -/
theorem parts_of_suffix {suffix : String} (plain : '/' ∉ suffix.toList) {pattern : PathPattern}
    (parsed : ofString ("**/*" ++ suffix ++ ".js") = .ok pattern) :
    pattern.parts = [.anyDepth, .wildcard ("*" ++ suffix ++ ".js")] := by
  have plain' : '/' ∉ ("*" ++ suffix ++ ".js").toList := by simp [plain]
  have starred : '*' ∈ ("*" ++ suffix ++ ".js").toList := by simp
  generalize same : "*" ++ suffix ++ ".js" = last at plain' starred ⊢
  have text : "**/*" ++ suffix ++ ".js" = anyDepthSign ++ "/" ++ last := by
    rw [← String.toList_inj, ← same]
    simp [anyDepthSign]
  obtain ⟨part, -⟩ := Path.isPart_of_mem starred (by decide)
  have parts : (Path.ofString ("**/*" ++ suffix ++ ".js")).parts = [anyDepthSign, last] := by
    rw [Path.ofString, text, Path.slashed_append (by decide), slashed_of_not_mem plain']
    simp only [List.filter_cons_of_pos (show isPart anyDepthSign = true by decide), List.filter_cons_of_pos part, List.filter_nil]
  have other : last ≠ anyDepthSign := by
    rintro rfl
    have script : 'j' ∈ anyDepthSign.toList := by simp [← same]
    exact absurd script (by decide)
  have ran := mapM_of_ofString parsed
  rw [parts, List.mapM_cons, List.mapM_cons, List.mapM_nil] at ran
  obtain ⟨first, here, ran⟩ := bind_eq_ok_iff.1 ran
  obtain ⟨rest, later, ran⟩ := bind_eq_ok_iff.1 ran
  obtain ⟨second, there, later⟩ := bind_eq_ok_iff.1 later
  obtain rfl : .anyDepth = first := Except.ok.inj here
  obtain rfl := eq_wildcard_of_ofText starred other there
  obtain rfl := Except.ok.inj later
  exact (Except.ok.inj ran).symm

end PathPattern

/-! ## Batches -/

theorem attemptAll_apply (run : FileRun Unit) (runs : List (FileRun Unit)) (before : FileTree) :
    attemptAll (run :: runs) before =
      match run before with
      | (.ok _, between) => attemptAll runs between
      | (.error failure, between) => (.error failure, (attemptAll runs between).2) := rfl

theorem keeps_attemptAll {invariant : FileTree → Prop} (runs : List (FileRun Unit))
    (each : ∀ run ∈ runs, Keeps invariant (fun _ => True) run) : Keeps invariant (fun _ => True) (attemptAll runs) := by
  induction runs with
  | nil => exact .pure trivial
  | cons run runs ih =>
    obtain ⟨first, rest⟩ := List.forall_mem_cons.1 each
    refine Keeps.of_after fun before kept => ?_
    have between := first.after kept
    rw [attemptAll_apply]
    split
    · next ran => exact (ih rest).after (by rwa [ran] at between)
    · next ran => exact (ih rest).after (by rwa [ran] at between)

namespace Publisher

variable {zone : Zone} {tree : FileTree}

/-! ## Single files -/

theorem keeps_copyEntry (ignored : List String) {source target : Location} (named : AreNames source) (named' : AreNames target)
    (inside : zone.top <+: target) :
    KeepsTo zone tree (copyEntry ignored (.ofLocation source) (.ofLocation target)) := by
  have valid : (Path.ofLocation source).name = "" ∨ IsEntryName (Path.ofLocation source).name :=
    (Path.ofLocation source).name_mem.imp_right (named _)
  exact .adapt (.adapt (FileTree.keeps_copy named' inside ignored valid))

/-- A file that is moved is one of those found, and a text is taken out of its name. -/
theorem of_mem_moves {now : FileTree} {suffix : String} {paths : List Path} {pairs : List (Path × Path)}
    (found : moves now suffix paths = .ok pairs) {source target : Path} (mem : (source, target) ∈ pairs) :
    source ∈ paths ∧ now.asksFile source = .ok true ∧ ∃ name, withoutLast? suffix.toList source.name.toList = some name ∧
      target = { source with parts := source.parts.dropLast ++ [String.ofList name] } := by
  obtain ⟨answers, ran, found⟩ := bind_eq_ok_iff.1 found
  obtain rfl := Except.ok.inj found
  obtain ⟨answer, listed, same⟩ := List.mem_filterMap.1 mem
  obtain rfl : answer = some (source, target) := same
  obtain ⟨path, within, ran⟩ := exists_of_mapM_eq_ok ran _ listed
  obtain ⟨isFile, asked, ran⟩ := bind_eq_ok_iff.1 ran
  rw [mapError_eq_ok_iff] at asked
  cases isFile with
  | false => cases ran
  | true =>
    simp only [if_true] at ran
    rw [mapError_eq_ok_iff, renamed?] at ran
    split at ran
    · cases ran
    · next name cut =>
      rcases given : path.withName (String.ofList name) with e | renamed <;> rw [given] at ran
      · cases ran
      · obtain ⟨rfl, rfl⟩ := Prod.mk.inj (Option.some.inj (Except.ok.inj ran))
        refine ⟨within, asked, name, cut, ?_⟩
        unfold Path.withName at given
        split at given
        · cases given
        · split at given
          · split at given
            · cases given
            · exact (Except.ok.inj given).symm
          · cases given

/-- The moves that take a suffix out of the names of scripts: each is from one name to another in a directory, at a file
that the pattern describes. -/
theorem exists_of_mem_moves {now : FileTree} (sound : now.WellFormed) {location : Location} (named : AreNames location)
    {suffix : String} {pattern : PathPattern} (parsed : PathPattern.ofString ("**/*" ++ suffix ++ ".js") = .ok pattern)
    {paths : List Path} (searched : now.search (.ofLocation location) pattern = .ok paths)
    {pairs : List (Path × Path)} (found : moves now suffix paths = .ok pairs) {pair : Path × Path} (mem : pair ∈ pairs) :
    ∃ outer name renamed, pair = (.ofLocation (location ++ outer ++ [name]), .ofLocation (location ++ outer ++ [String.ofList renamed])) ∧
      AreNames outer ∧ IsEntryName name ∧ Wildcard.matchesName ("*" ++ suffix ++ ".js") name = true ∧
      withoutLast? suffix.toList name.toList = some renamed ∧ now.asksFile pair.1 = .ok true := by
  obtain ⟨source, target⟩ := pair
  obtain ⟨within, asked, renamed, cut, rfl⟩ := of_mem_moves found mem
  have simple : '/' ∉ suffix.toList := by
    obtain ⟨names, rfl, plain⟩ := exists_extra_of_mem_search (P := fun name => '/' ∉ name.toList)
      (fun name valid => valid.2.2) sound (fun name => PathPattern.not_mem_of_ofString parsed) searched within
    obtain ⟨suffixed, -⟩ := subset_of_withoutLast? cut
    intro slash
    obtain empty | inside := ((Path.ofLocation location).under names).name_mem
    · simpa [empty] using suffixed slash
    · obtain old | new := List.mem_append.1 inside
      · exact (named _ old).2.2 (suffixed slash)
      · exact plain _ new (suffixed slash)
  obtain ⟨outer, name, rfl, valid, valid', matched⟩ :=
    exists_name_of_mem_search sound (PathPattern.parts_of_suffix simple parsed) searched within
  have last : ((Path.ofLocation location).under (outer ++ [name])).name = name := by simp [Path.name, Path.under]
  rw [last] at cut
  refine ⟨outer, name, renamed, ?_, valid, valid', matched, cut, asked⟩
  simp [Path.ofLocation, Path.under, ← List.append_assoc]

/-- A file in a directory of the zone is moved to another name there. A name that is a step to the parent leads to a
directory, over which no file is moved. -/
theorem keeps_moveEntry {place : Location} (named : AreNames place) (inside : zone.top <+: place) {name : String}
    (valid : IsEntryName name) {renamed : String} (plain : '/' ∉ renamed.toList) :
    KeepsTo zone tree (moveEntry (.ofLocation (place ++ [name])) (.ofLocation (place ++ [renamed]))) := by
  have from_ : tree.straight (.ofLocation (place ++ [name])) = place ++ [name] :=
    straight_ofLocation (areNames_append.2 ⟨named, by simpa using valid⟩)
  have to_ : tree.straight (.ofLocation (place ++ [renamed])) = Path.normalizeFrom place ([renamed].filter isPart) := by
    have plain' : ∀ part ∈ [renamed], '/' ∉ part.toList := by simpa using plain
    have led := tree.straight_under (.ofLocation place) plain'
    rwa [straight_ofLocation named] at led
  refine .adapt (.adapt (FileTask.keeps_change fun now after confined moved => ?_))
  refine confined.move ?_ (fun content file solid => ?_) moved
  · rw [from_]
    exact .inl (inside.trans (List.prefix_append _ _))
  · rw [from_] at file
    rw [to_] at solid ⊢
    by_cases part : isPart renamed = true
    · rw [List.filter_cons_of_pos part] at solid ⊢
      by_cases up : renamed = parentStep
      · have directory : now.lookup place = some .directory :=
          confined.sound.above (List.cons_ne_nil name []) (by simp [file])
        refine absurd (confined.sound.directory_dropLast directory) ?_
        simpa [Path.normalizeFrom, Path.takePart, up] using solid
      · refine .inl (inside.trans ?_)
        simp [Path.normalizeFrom, Path.takePart, up]
    · rw [List.filter_cons_of_neg part]
      exact .inl inside

/-! ## Files of a publisher -/

variable (publisher : Publisher)

/-- A place is the location that its path spells. -/
theorem keeps_place (free : tree.LinkFree) {invariant : FileTree → Prop} (within : ∀ now, invariant now → Confined zone tree now) (path : Path) :
    Keeps invariant (fun answer => answer = .ofLocation (tree.straight (publisher.root.join path))) (publisher.place path) := by
  have asked : Keeps invariant (fun answer => answer = tree.straight (publisher.root.join path))
      (FileRun.askFor .unresolvable (·.resolve (publisher.root.join path))) := by
    refine FileRun.keeps_askFor fun now location kept resolved => ?_
    rw [(within now kept).resolve_eq free] at resolved
    exact (free.straight_of_resolve resolved).2.symm
  exact .bind asked fun location same => .pure (same ▸ rfl)

/-- The places of a batch are the locations that its paths spell. -/
theorem keeps_places (free : tree.LinkFree) {invariant : FileTree → Prop} (within : ∀ now, invariant now → Confined zone tree now)
    (mapping : List (Path × Path)) :
    Keeps invariant (fun pairs => pairs = mapping.map fun pair =>
        (Path.ofLocation (tree.straight (publisher.root.join pair.1)), Path.ofLocation (tree.straight (publisher.root.join pair.2))))
      (mapping.mapM fun (source, target) => do return (← publisher.place source, ← publisher.place target)) := by
  induction mapping with
  | nil => exact .pure rfl
  | cons pair mapping ih =>
    rw [List.mapM_cons]
    have placed : Keeps invariant (fun placed => placed = (Path.ofLocation (tree.straight (publisher.root.join pair.1)),
        Path.ofLocation (tree.straight (publisher.root.join pair.2)))) (do
          return (← publisher.place pair.1, ← publisher.place pair.2) : FileRun (Path × Path)) := by
      refine .bind (publisher.keeps_place free within pair.1) fun _ first => ?_
      refine .bind (publisher.keeps_place free within pair.2) fun _ second => ?_
      exact .pure (by rw [first, second])
    refine Keeps.bind placed fun placed same => ?_
    refine Keeps.bind ih fun pairs others => ?_
    exact .pure (by rw [same, others, List.map_cons])

/-- What each copy of a batch keeps, the batch keeps. -/
theorem keeps_batch (free : tree.LinkFree) {invariant : FileTree → Prop} (within : ∀ now, invariant now → Confined zone tree now)
    (mapping : List (Path × Path)) (ignored : List String)
    (each : ∀ pair ∈ mapping, Keeps invariant (fun _ => True) (copyEntry ignored
      (.ofLocation (tree.straight (publisher.root.join pair.1))) (.ofLocation (tree.straight (publisher.root.join pair.2))))) :
    Keeps invariant (fun _ => True) (publisher.copy mapping ignored) := by
  refine Keeps.bind (publisher.keeps_places free within mapping) fun pairs placed => ?_
  have copied : Keeps invariant (fun _ => True) (attemptAll (pairs.map fun (source, target) => copyEntry ignored source target)) := by
    refine keeps_attemptAll _ fun run mem => ?_
    obtain ⟨_, listed, rfl⟩ := List.mem_map.1 mem
    rw [placed] at listed
    obtain ⟨pair, given, rfl⟩ := List.mem_map.1 listed
    exact each pair given
  exact Keeps.bind copied fun _ _ => .pure trivial

/-- A batch of one entry that succeeds has copied it. -/
theorem copy_one_ends {now after : FileTree} (sound : now.WellFormed) (free : now.LinkFree) {source target : Path} {ignored : List String}
    {targets : List Path} (ended : publisher.copy [(source, target)] ignored now = (.ok targets, after)) :
    FileTask.copy ignored (.ofLocation (now.straight (publisher.root.join source)))
      (.ofLocation (now.straight (publisher.root.join target))) now = (.ok (), after) := by
  have still (other : FileTree) (same : other = now) : Confined (.below []) now other := by
    rw [same]
    exact .startBelow sound free
  unfold copy at ended
  obtain ⟨pairs, between, placed, ended⟩ := bind_ends_iff.1 ended
  obtain ⟨rfl, rfl⟩ := (publisher.keeps_places free still _).of_ok rfl placed
  obtain ⟨⟨⟩, last, copied, ended⟩ := bind_ends_iff.1 ended
  obtain ⟨-, rfl⟩ := Prod.mk.inj ended
  rw [List.map_singleton, List.map_singleton, attemptAll_apply] at copied
  split at copied
  · next entry final ran =>
    obtain ⟨-, rfl⟩ := Prod.mk.inj copied
    exact adapt_ends_iff.1 (adapt_ends_iff.1 ran)
  · cases (Prod.mk.inj copied).1

/-- What is copied to places in the zone changes nothing else. -/
theorem keeps_copy (sound : tree.WellFormed) (free : tree.LinkFree) (mapping : List (Path × Path)) (ignored : List String)
    (inside : ∀ pair ∈ mapping, zone.top <+: tree.straight (publisher.root.join pair.2)) :
    KeepsTo zone tree (publisher.copy mapping ignored) :=
  publisher.keeps_batch free (fun _ confined => confined) mapping ignored fun pair mem =>
    keeps_copyEntry ignored (areNames_straight sound _) (areNames_straight sound _) (inside pair mem)

/-- Takes a text out of the names of all files that a pattern describes below a path. -/
def renameFrom (pattern suffix : String) (start : Path) : FileRun (List Path) :=
  match PathPattern.ofString pattern with
  | .error e => throw (.pattern e)
  | .ok pattern => do
    let found ← FileRun.askFor .refused (·.search start pattern)
    let pairs ← FileRun.askFor id (moves · suffix found)
    attemptAll (pairs.map fun (source, target) => moveEntry source target)
    return pairs.map Prod.snd

/-- What each move of a renaming keeps, the renaming keeps. All scripts to be moved are found before the first is moved. -/
theorem moveAndRename_leaves {invariant : FileTree → Prop} {before : FileTree} (sound : before.WellFormed) (free : before.LinkFree)
    (kept : invariant before) {output : Path} {location : Location} (spelled : before.straight (publisher.root.join output) = location)
    {suffix : String}
    (each : ∀ outer name renamed, AreNames outer → IsEntryName name → Wildcard.matchesName ("*" ++ suffix ++ ".js") name = true →
      withoutLast? suffix.toList name.toList = some renamed → before.asksFile (.ofLocation (location ++ outer ++ [name])) = .ok true →
      Keeps invariant (fun _ => True) (moveEntry (.ofLocation (location ++ outer ++ [name]))
        (.ofLocation (location ++ outer ++ [String.ofList renamed])))) :
    Leaves (publisher.moveAndRename ("**/*" ++ suffix ++ ".js") suffix (some output)) before
      (fun _ after => True ∧ invariant after) invariant := by
  have still (now : FileTree) (same : now = before) : Confined (.below []) before now := by
    rw [same]
    exact .startBelow sound free
  have named : AreNames location := spelled ▸ areNames_straight sound _
  refine .bind ((publisher.keeps_place free still output before rfl).mono ?_ fun after same => same ▸ kept)
  rintro start between ⟨located, same⟩
  rw [same]
  rw [spelled] at located
  subst located
  split
  · exact .throw kept
  · next pattern parsed =>
    have searched : Keeps (· = before) (fun paths => before.search (.ofLocation location) pattern = .ok paths)
        (FileRun.askFor .refused (·.search (.ofLocation location) pattern)) :=
      FileRun.keeps_askFor fun now paths same searched => same ▸ searched
    refine .bind ((searched before rfl).mono ?_ fun after same => same ▸ kept)
    rintro paths between ⟨searched, same⟩
    rw [same]
    have paired : Keeps (· = before) (fun pairs => moves before suffix paths = .ok pairs) (FileRun.askFor id (moves · suffix paths)) :=
      FileRun.keeps_askFor fun now pairs same found => same ▸ found
    refine .bind ((paired before rfl).mono ?_ fun after same => same ▸ kept)
    rintro pairs between ⟨found, same⟩
    rw [same]
    have renamed : Keeps invariant (fun _ => True) (attemptAll (pairs.map fun (source, target) => moveEntry source target)) := by
      refine keeps_attemptAll _ fun run mem => ?_
      obtain ⟨pair, listed, rfl⟩ := List.mem_map.1 mem
      obtain ⟨outer, name, renamed, rfl, valid, valid', matched, cut, asked⟩ :=
        exists_of_mem_moves sound named parsed searched found listed
      exact each outer name renamed valid valid' matched cut asked
    exact Keeps.bind renamed (fun _ _ => .pure trivial) before kept

/-- Taking a text out of the names of the scripts below a location of the zone changes nothing else. -/
theorem keeps_moveAndRename (sound : tree.WellFormed) {output : Path} (inside : zone.top <+: tree.straight (publisher.root.join output))
    (suffix : String) :
    KeepsTo zone tree (publisher.moveAndRename ("**/*" ++ suffix ++ ".js") suffix (some output)) := by
  intro before confined
  refine publisher.moveAndRename_leaves confined.sound confined.free confined (confined.straight_eq _) ?_
  intro outer name renamed valid valid' _ cut _
  have named : AreNames (tree.straight (publisher.root.join output) ++ outer) := areNames_append.2 ⟨areNames_straight sound _, valid⟩
  have plain : '/' ∉ (String.ofList renamed).toList := by
    rw [String.toList_ofList]
    exact fun slash => valid'.2.2 ((subset_of_withoutLast? cut).2 slash)
  exact keeps_moveEntry named (inside.trans (List.prefix_append _ _)) valid' plain

/-! ## Temporary files -/

/-- A temporary file of a publisher is deleted in its place. -/
theorem keeps_deleteTemporary (sound : tree.WellFormed) (free : tree.LinkFree) {path : Path}
    (allowed : zone.Allows (tree.straight (publisher.root.join path))) :
    KeepsTo zone tree (publisher.deleteTemporary path) := by
  refine .bind (publisher.keeps_place free (fun _ confined => confined) path) fun target same => ?_
  have there : tree.straight target = tree.straight (publisher.root.join path) := by
    rw [same, straight_ofLocation (areNames_straight sound _)]
  exact .adapt (.adapt (keeps_unlink (there ▸ allowed)))

/-- A file that is there is deleted when it is discarded; else nothing is done. -/
theorem discard_apply (path : Path) (now : FileTree) :
    (discard path now).2 = if now.exists? path then ((FileTask.change (·.unlink path) : FileTask Unit) now).2 else now := by
  have asked : now.asksEntry path = .ok (now.exists? path) ∨ now.exists? path = false ∧ ∃ e, now.asksEntry path = .error e := by
    unfold asksEntry asks exists?
    split <;> simp_all
  unfold discard
  rw [bind_apply, FileRun.askFor_apply]
  obtain answer | ⟨none, e, answer⟩ := asked
  · rw [answer]
    cases now.exists? path with
    | false => rfl
    | true => exact congrArg Prod.snd (adapt_apply Failure.refused _ now)
  · rw [answer, none]
    rfl

/-- Discarding a file keeps to a zone in which it lies. -/
theorem discard_confined {now : FileTree} {path : Path} (allowed : zone.Allows (tree.straight path)) (confined : Confined zone tree now) :
    Confined zone tree (discard path now).2 := by
  rw [discard_apply]
  split
  · exact (keeps_unlink allowed).after confined
  · exact confined

/-- Nothing is left of a file that is discarded. -/
theorem discard_leaves {now : FileTree} (sound : now.WellFormed) (free : now.LinkFree) {place : Location} (named : AreNames place)
    (solid : now.lookup place ≠ some .directory) : (discard (.ofLocation place) now).2.exists? (.ofLocation place) = false := by
  have spelled (other : FileTree) : other.straight (.ofLocation place) = place := straight_ofLocation named
  have allowed : (Zone.below place).Allows (now.straight (.ofLocation place)) := by
    rw [spelled]
    exact .inl (List.prefix_refl place)
  have confined := discard_confined allowed (Confined.startBelow sound free)
  rw [discard_apply] at confined ⊢
  by_cases there : now.exists? (.ofLocation place) = true
  · obtain ⟨entry, leads, present⟩ := free.follow_of_exists? sound there
    rw [spelled] at leads present
    have gone : now.unlink (.ofLocation place) = .ok (now.erase place) := by
      unfold unlink
      rw [free.locate_eq, leads]
      cases entry with
      | directory => exact absurd present solid
      | file | link => rfl
    rw [if_pos there, FileTask.change_apply, gone] at confined ⊢
    refine Bool.eq_false_iff.2 fun left => ?_
    obtain ⟨entry', -, present'⟩ := confined.free.follow_of_exists? confined.sound left
    have filled : place ≠ [] := by
      rintro rfl
      exact solid rfl
    simp [spelled, now.lookup_erase filled] at present'
  · rw [if_neg there]
    exact Bool.eq_false_iff.2 there

/-- The files that an action with a temporary file leaves, once the temporary file is discarded. -/
theorem withTemporary_files {τ α : Type} (path : Path) (act : Path → Run τ α) (world : World τ) :
    (publisher.withTemporary path act world).2.files =
      match publisher.place path world.files with
      | (.ok target, files) => (discard target (act target { world with files }).2.files).2
      | (.error _, files) => files := by
  unfold withTemporary
  simp only [bind_apply, liftM, Run.onFiles_apply]
  rcases publisher.place path world.files with ⟨_ | target, files⟩
  · rfl
  · simp only [tryFinally_apply, Run.onFiles_apply]
    rcases discard target (act target { world with files }).2.files with ⟨_ | _, after⟩ <;> rfl

/-- An action with a temporary file that succeeds has done what it does, and the file was discarded. -/
theorem withTemporary_ends {τ α : Type} {path : Path} {act : Path → Run τ α} {world after : World τ} {answer : α}
    (sound : world.files.WellFormed) (free : world.files.LinkFree) (ended : publisher.withTemporary path act world = (.ok answer, after)) :
    ∃ between, act (.ofLocation (world.files.straight (publisher.root.join path))) world = (.ok answer, between) ∧
      after.files = (discard (.ofLocation (world.files.straight (publisher.root.join path))) between.files).2 := by
  have still (now : FileTree) (same : now = world.files) : Confined (.below []) world.files now := by
    rw [same]
    exact .startBelow sound free
  unfold withTemporary at ended
  obtain ⟨target, between, placed, ended⟩ := bind_ends_iff.1 ended
  obtain ⟨placed, tools⟩ := Run.onFiles_ends placed
  obtain ⟨rfl, files⟩ := (publisher.keeps_place free still path).of_ok rfl placed
  obtain rfl : between = world := by
    cases between
    cases world
    simp_all
  simp only [liftM, tryFinally_apply, Run.onFiles_apply] at ended
  rcases ran : act (.ofLocation (between.files.straight (publisher.root.join path))) between with ⟨result, last⟩
  rw [ran] at ended
  rcases gone : discard (.ofLocation (between.files.straight (publisher.root.join path))) last.files with ⟨_ | _, final⟩
  · rw [gone] at ended
    cases (Prod.mk.inj ended).1
  · rw [gone] at ended
    obtain ⟨rfl, rfl⟩ := Prod.mk.inj ended
    exact ⟨last, rfl, by rw [gone]⟩

/-- A temporary file is gone when the action with it has ended, in whatever way it has. -/
theorem withTemporary_leaves (sound : tree.WellFormed) (free : tree.LinkFree) {path : Path}
    (spelled : tree.straight (publisher.root.join path) ∈ zone.loose) {τ α : Type} {act : Path → Run τ α}
    (keeps : ∀ target, Keeps (fun world : World τ => Confined zone tree world.files) (fun _ => True) (act target))
    {world : World τ} (confined : Confined zone tree world.files) :
    Confined zone tree (publisher.withTemporary path act world).2.files ∧
      ∀ location, tree.resolve (publisher.root.join path) = .ok location →
        (publisher.withTemporary path act world).2.files.exists? (.ofLocation location) = false := by
  rw [withTemporary_files, place, FileRun.resolveIn, FileRun.resolve_apply, confined.resolve_eq free]
  rcases resolved : tree.resolve (publisher.root.join path) with e | location
  · exact ⟨confined, fun location other => nomatch other⟩
  · obtain rfl := (free.straight_of_resolve resolved).2
    have named := areNames_straight sound (publisher.root.join path)
    have ended := (keeps (.ofLocation (tree.straight (publisher.root.join path)))).after confined
    refine ⟨discard_confined (.inr ?_) ended, fun location same => ?_⟩
    · rwa [straight_ofLocation named]
    · obtain rfl := Except.ok.inj same
      exact discard_leaves ended.sound ended.free named (ended.loose _ spelled)

end Publisher

end WasmPackaging
