import WasmPackaging.Proofs.Copying
import WasmPackaging.Proofs.FileTree.Moves

/-!
Batches of renamings. What is to be moved is settled before the first move, for each file that a pattern describes
(`mem_moves_iff`), so the moves can be carried out in any order (`renameInOrder`). Each order that succeeds leaves the same files,
and none of those that are moved is lost, if no file gets a name that another had or gets (`renameInOrder_loses_nothing`); else a
file may take the place of another (`moveAndRename_overwrites`).
-/

namespace WasmPackaging

open Text FileTree

theorem Path.under_inj {p q : Path} {a b : String} : p.under [a] = q.under [b] ↔ p = q ∧ a = b := by
  obtain ⟨anchor, parts⟩ := p
  obtain ⟨anchor', parts'⟩ := q
  unfold Path.under
  rw [Path.mk.injEq, Path.mk.injEq, List.append_singleton_inj, and_assoc]

namespace Publisher

variable {tree now after : FileTree} {suffix : String} {found : List Path} {pairs : List (Path × Path)}

/-! ## What is to be moved -/

/-- The move of a path that was found, if it is to be moved. -/
def moveOf (tree : FileTree) (suffix : String) (path : Path) : Except Failure (Option (Path × Path)) := do
  if ← (tree.asksFile path).mapError .refused then (renamed? suffix path).mapError .name
  else return none

theorem moves_cons (tree : FileTree) (suffix : String) (path : Path) (found : List Path) :
    moves tree suffix (path :: found) = (do
      let first ← moveOf tree suffix path
      let rest ← moves tree suffix found
      return first.toList ++ rest) := by
  have whole (paths : List Path) : moves tree suffix paths = (do return (← paths.mapM (moveOf tree suffix)).filterMap id) := rfl
  rw [whole, whole, List.mapM_cons]
  rcases moveOf tree suffix path with e | first
  · rfl
  · rcases found.mapM (moveOf tree suffix) with e | rest
    · rfl
    · cases first <;> rfl

theorem moveOf_eq_some_iff {path : Path} {pair : Path × Path} :
    moveOf tree suffix path = .ok (some pair) ↔ tree.asksFile path = .ok true ∧ renamed? suffix path = .ok (some pair) := by
  unfold moveOf
  rcases tree.asksFile path with e | _ | _
  · simp [Except.mapError, bind, Except.bind]
  · simp [Except.mapError, bind, Except.bind, pure, Except.pure]
  · have taken : (renamed? suffix path).mapError Failure.name = .ok (some pair) ↔ renamed? suffix path = .ok (some pair) := mapError_eq_ok_iff
    simpa [mapError_ok, bind, Except.bind] using taken

/-- The first path of a move is the one that was found. -/
theorem fst_of_renamed? {path : Path} {pair : Path × Path} (renamed : renamed? suffix path = .ok (some pair)) : pair.1 = path := by
  unfold renamed? at renamed
  split at renamed
  · cases renamed
  · next name cut =>
    rcases given : path.withName (String.ofList name) with e | target <;> rw [given] at renamed
    · cases renamed
    · exact (Prod.mk.inj (Option.some.inj (Except.ok.inj renamed))).1.symm

/-- A batch has the moves of the files that were found and whose names hold the suffix, in the order in which they were found. -/
theorem mem_moves_iff (moved : moves tree suffix found = .ok pairs) {pair : Path × Path} :
    pair ∈ pairs ↔ pair.1 ∈ found ∧ tree.asksFile pair.1 = .ok true ∧ renamed? suffix pair.1 = .ok (some pair) := by
  induction found generalizing pairs with
  | nil =>
    obtain rfl := Except.ok.inj moved
    simp
  | cons path found ih =>
    rw [moves_cons] at moved
    obtain ⟨first, here, moved⟩ := bind_eq_ok_iff.1 moved
    obtain ⟨rest, later, moved⟩ := bind_eq_ok_iff.1 moved
    obtain rfl := Except.ok.inj moved
    rw [List.mem_append, ih later, List.mem_cons]
    have head : pair ∈ first.toList ↔ pair.1 = path ∧ tree.asksFile pair.1 = .ok true ∧ renamed? suffix pair.1 = .ok (some pair) := by
      constructor
      · intro mem
        obtain rfl := Option.mem_toList.1 mem
        obtain ⟨file, renamed⟩ := moveOf_eq_some_iff.1 here
        obtain same := fst_of_renamed? renamed
        exact ⟨same, same ▸ file, same ▸ renamed⟩
      · rintro ⟨rfl, file, renamed⟩
        rw [moveOf_eq_some_iff.2 ⟨file, renamed⟩] at here
        rw [← Except.ok.inj here]
        simp
    rw [head, or_and_right]

theorem sublist_of_moves (moved : moves tree suffix found = .ok pairs) : (pairs.map Prod.fst).Sublist found := by
  induction found generalizing pairs with
  | nil =>
    obtain rfl := Except.ok.inj moved
    exact List.Sublist.refl []
  | cons path found ih =>
    rw [moves_cons] at moved
    obtain ⟨first, here, moved⟩ := bind_eq_ok_iff.1 moved
    obtain ⟨rest, later, moved⟩ := bind_eq_ok_iff.1 moved
    obtain rfl := Except.ok.inj moved
    cases first with
    | none => exact (ih later).cons path
    | some pair =>
      rw [Option.toList_some, List.singleton_append, List.map_cons, fst_of_renamed? (moveOf_eq_some_iff.1 here).2]
      exact (ih later).cons_cons path

/-- A path that leads to a file ends in the name of an entry. -/
theorem isEntryName_of_file (sound : tree.WellFormed) {directory : Path} {last : String} (plain : '/' ∉ last.toList) {place : Location}
    {content : Bytes} (leads : tree.follow (directory.under [last]) = .ok (.entry place (.file content))) : IsEntryName last := by
  have steps : (directory.under [last]).steps = directory.steps ++ [last] := by
    simp [Path.steps, Path.under, slashed_of_not_mem plain]
  unfold follow at leads
  split at leads
  · cases leads
  · rw [start_under, steps] at leads
    obtain ⟨n, -, middle, -, -, ended⟩ := exists_of_walk_append sound (lookup_start sound directory) (List.cons_ne_nil last []) leads
    refine ⟨?_, ?_, plain⟩
    · rw [← Bool.not_eq_false]
      intro blank
      rw [walk_stay blank, walk_nil] at ended
      cases ended
    · rintro rfl
      rw [walk_up, walk_nil] at ended
      cases ended

/-- A name that another is given is one part. -/
theorem isPart_of_withName {path target : Path} {name : String} (plain : '/' ∉ name.toList) (given : path.withName name = .ok target) :
    isPart name = true ∧ path.parts ≠ [] ∧ target = ⟨path.anchor, path.parts.dropLast ++ [name]⟩ := by
  unfold Path.withName at given
  split at given
  · cases given
  · next named =>
    have filled : path.parts ≠ [] := by
      intro empty
      exact named (by simp [Path.name, empty])
    split at given
    · next last whole =>
      split at given
      · cases given
      · refine ⟨?_, filled, (Except.ok.inj given).symm⟩
        have parts : [name].filter isPart = [last] := by
          rw [← slashed_of_not_mem plain]
          exact congrArg Path.parts whole
        by_contra blank
        rw [List.filter_cons_of_neg blank] at parts
        cases parts
    · cases given

/-- Each move of a batch gives a file another name in its directory. -/
theorem exists_renames (sound : tree.WellFormed) {start : Path} {text : String} {pattern : PathPattern}
    (parsed : PathPattern.ofString text = .ok pattern) (searched : tree.search start pattern = .ok found)
    (moved : moves tree suffix found = .ok pairs) {pair : Path × Path} (mem : pair ∈ pairs) :
    ∃ directory old new, Renames pair directory old new ∧ ∃ place content, tree.follow pair.1 = .ok (.entry place (.file content)) := by
  obtain ⟨within, asked, renamed⟩ := (mem_moves_iff moved).1 mem
  obtain ⟨place, content, file⟩ := asksFile_eq_true_iff.1 asked
  obtain ⟨extra, path, plain⟩ := exists_extra_of_mem_search (P := fun name => '/' ∉ name.toList) (fun name valid => valid.2.2) sound
    (fun name => PathPattern.not_mem_of_ofString parsed) searched within
  have below : extra ≠ [] := by
    rintro rfl
    rw [Path.under_nil] at path
    obtain ⟨answer, there, searched⟩ := bind_eq_ok_iff.1 searched
    cases answer with
    | false =>
      obtain rfl := Except.ok.inj searched
      cases within
    | true =>
      obtain ⟨base, directory⟩ := asksDirectory_eq_true_iff.1 there
      rw [← path, file] at directory
      cases directory
  obtain ⟨front, old, rfl⟩ := List.eq_nil_or_concat' extra |>.resolve_left below
  have whole : pair.1 = (start.under front).under [old] := by rw [path, Path.under_under]
  have name : pair.1.name = old := by
    rw [whole]
    simp [Path.name, Path.under]
  have valid : IsEntryName old := isEntryName_of_file sound (plain old (by simp)) (whole ▸ file)
  unfold renamed? at renamed
  rw [name] at renamed
  split at renamed
  · cases renamed
  · next new cut =>
    rcases given : pair.1.withName (String.ofList new) with e | target <;> rw [given] at renamed
    · cases renamed
    · have plain' : '/' ∉ (String.ofList new).toList := by
        rw [String.toList_ofList]
        exact fun slash => valid.2.2 ((subset_of_withoutLast? cut).2 slash)
      obtain ⟨part, -, same⟩ := isPart_of_withName plain' given
      refine ⟨start.under front, old, String.ofList new, ⟨whole, ?_, valid, part, plain'⟩, place, content, file⟩
      have target_ : pair.2 = target := (congrArg Prod.snd (Option.some.inj (Except.ok.inj renamed))).symm
      rw [target_, same, whole]
      simp [Path.under]

/-! ## Batches of moves -/

theorem moveEntry_ends_iff {source target : Path} : moveEntry source target now = (.ok (), after) ↔ now.move source target = .ok after :=
  adapt_ends_iff.trans (adapt_ends_iff.trans FileTask.change_ends_iff)

/-- The places between which a move carries a file. -/
def sites (tree : FileTree) (pair : Path × Path) : Location × Location := (tree.site pair.1, tree.site pair.2)

/-- A renaming in the directory that a path spells is from place to place in it. -/
theorem sites_ofLocation {outer base : Location} {name renamed old new : String} {directory : Path} (leads : tree.LeadsInto (.ofLocation outer) outer)
    (sited : tree.Sited (.ofLocation (outer ++ [name]), .ofLocation (outer ++ [renamed])) directory old new base) :
    sites tree (.ofLocation (outer ++ [name]), .ofLocation (outer ++ [renamed])) = (outer ++ [name], outer ++ [renamed]) := by
  have spelled (name : String) : Path.ofLocation (outer ++ [name]) = (Path.ofLocation outer).under [name] := rfl
  obtain ⟨rfl, rfl⟩ := Path.under_inj.1 ((spelled name).symm.trans sited.renames.source)
  obtain ⟨-, rfl⟩ := Path.under_inj.1 ((spelled renamed).symm.trans sited.renames.target)
  obtain rfl := sited.leads.unique leads
  exact Prod.ext sited.source sited.target

/-- A batch of moves that ends well has carried what stood at the places of the files, from one place to another. -/
theorem carries_of_moves (sound : tree.WellFormed) (shuffled : Shuffled tree now)
    (each : ∀ pair ∈ pairs, ∃ directory old new, Renames pair directory old new ∧
      ∃ place content, tree.follow pair.1 = .ok (.entry place (.file content)))
    (ran : pairs.forM (fun pair => moveEntry pair.1 pair.2) now = (.ok (), after)) :
    Shuffled tree after ∧ Carries now.lookup (pairs.map (sites tree)) after.lookup ∧
      ∀ pair ∈ pairs, ∃ directory old new base, tree.Sited pair directory old new base ∧ tree.lookup (base ++ [new]) ≠ some .directory := by
  induction pairs generalizing now with
  | nil =>
    obtain ⟨-, rfl⟩ := Prod.mk.inj ran
    exact ⟨shuffled, .none _, by simp⟩
  | cons pair pairs ih =>
    obtain ⟨⟨directory, old, new, renames, file⟩, rest⟩ := List.forall_mem_cons.1 each
    have parts : (pair :: pairs).forM (fun pair => moveEntry pair.1 pair.2) = (do
        moveEntry pair.1 pair.2
        pairs.forM fun pair => moveEntry pair.1 pair.2) := rfl
    rw [parts] at ran
    obtain ⟨⟨⟩, between, first, ran⟩ := bind_ends_iff.1 ran
    obtain ⟨base, sited, free, shuffled', there, look⟩ := shuffled.move sound renames file (moveEntry_ends_iff.1 first)
    obtain ⟨shuffled'', carries, others⟩ := ih shuffled' rest ran
    have places : sites tree pair = (base ++ [old], base ++ [new]) := Prod.ext sited.source sited.target
    refine ⟨shuffled'', ?_, List.forall_mem_cons.2 ⟨⟨directory, old, new, base, sited, free⟩, others⟩⟩
    rw [List.map_cons, places]
    rw [look] at carries
    exact .first there carries

/-! ## Orders of a batch -/

variable (publisher : Publisher)

/-- Where a search starts. -/
def startOf (tree : FileTree) : Option Path → Except Unresolvable Path
  | some base => (tree.resolve (publisher.root.join base)).map .ofLocation
  | none => .ok publisher.root

/-- Finds out where a search starts. -/
def findStart : Option Path → FileRun Path
  | some base => publisher.place base
  | none => pure publisher.root

/-- Takes a text out of the names of all files that a pattern describes, carrying out the moves in another order. -/
def renameInOrder (order : List (Path × Path) → List (Path × Path)) (pattern suffix : String) (base : Option Path) : FileRun (List Path) := do
  let start ← publisher.findStart base
  match PathPattern.ofString pattern with
  | .error e => throw (.pattern e)
  | .ok pattern =>
    let found ← FileRun.askFor .refused (·.search start pattern)
    let pairs ← FileRun.askFor id (moves · suffix found)
    attemptAll ((order pairs).map fun (source, target) => moveEntry source target)
    return pairs.map Prod.snd

theorem moveAndRename_eq (pattern suffix : String) (base : Option Path) :
    publisher.moveAndRename pattern suffix base = publisher.renameInOrder id pattern suffix base := by cases base <;> rfl

theorem findStart_ends_iff {base : Option Path} {start : Path} :
    publisher.findStart base tree = (.ok start, after) ↔ publisher.startOf tree base = .ok start ∧ after = tree := by
  have asked : publisher.findStart base tree = ((publisher.startOf tree base).mapError Failure.unresolvable, tree) := by
    cases base with
    | none => rfl
    | some base =>
      rw [findStart, place_apply, startOf]
      rcases tree.resolve (publisher.root.join base) with e | location
      · rfl
      · rfl
  rw [asked, Prod.mk.injEq, mapError_eq_ok_iff, eq_comm (a := tree)]

theorem renameInOrder_ends_iff {order : List (Path × Path) → List (Path × Path)} {pattern suffix : String} {base : Option Path}
    {targets : List Path} : publisher.renameInOrder order pattern suffix base tree = (.ok targets, after) ↔
      ∃ start parsed found pairs, publisher.startOf tree base = .ok start ∧ PathPattern.ofString pattern = .ok parsed ∧
        tree.search start parsed = .ok found ∧ moves tree suffix found = .ok pairs ∧
        (order pairs).forM (fun pair => moveEntry pair.1 pair.2) tree = (.ok (), after) ∧ targets = pairs.map Prod.snd := by
  unfold renameInOrder
  constructor
  · intro whole
    obtain ⟨start, between, started, onward⟩ := bind_ends_iff.1 whole
    obtain ⟨started, rfl⟩ := publisher.findStart_ends_iff.1 started
    rcases read : PathPattern.ofString pattern with e | parsed <;> rw [read] at onward
    · cases (Prod.mk.inj onward).1
    · obtain ⟨found, between, searched, later⟩ := bind_ends_iff.1 onward
      obtain ⟨searched, rfl⟩ := FileRun.askFor_ends_iff.1 searched
      obtain ⟨pairs, between, moved, last⟩ := bind_ends_iff.1 later
      obtain ⟨moved, rfl⟩ := FileRun.askFor_ends_iff.1 moved
      obtain ⟨⟨⟩, after, ran, ended⟩ := bind_ends_iff.1 last
      obtain ⟨same, rfl⟩ := Prod.mk.inj ended
      exact ⟨start, parsed, found, pairs, started, rfl, searched, moved, attemptAll_map_ends_iff.1 ran, (Except.ok.inj same).symm⟩
  · rintro ⟨start, parsed, found, pairs, started, read, searched, moved, ran, rfl⟩
    refine bind_ends_iff.2 ⟨start, tree, publisher.findStart_ends_iff.2 ⟨started, rfl⟩, ?_⟩
    rw [read]
    refine bind_ends_iff.2 ⟨found, tree, FileRun.askFor_ends_iff.2 ⟨searched, rfl⟩, ?_⟩
    refine bind_ends_iff.2 ⟨pairs, tree, FileRun.askFor_ends_iff.2 ⟨moved, rfl⟩, ?_⟩
    exact bind_ends_iff.2 ⟨(), after, attemptAll_map_ends_iff.2 ran, rfl⟩

/-! ## Batches without clashes -/

/-- No file of a batch gets a place that another gets, or that a file of the batch has. -/
structure Clashless (tree : FileTree) (pairs : List (Path × Path)) : Prop where
  apart : pairs.Pairwise fun pair other => tree.site pair.2 ≠ tree.site other.2
  fresh : ∀ pair ∈ pairs, ∀ other ∈ pairs, tree.site pair.2 ≠ tree.site other.1

/-- No file of a batch gets the place of a link to a directory. -/
def SparesLinks (tree : FileTree) (pairs : List (Path × Path)) : Prop :=
  ∀ pair ∈ pairs, ∀ target, tree.lookup (tree.site pair.2) = some (.link target) → ¬ tree.LinksToDirectory (tree.site pair.2).dropLast target

/-- What a batch without clashes comes to, whatever its order. -/
structure Renamed (tree : FileTree) (pairs : List (Path × Path)) (after : FileTree) : Prop where
  new : ∀ pair ∈ pairs, after.lookup (tree.site pair.2) = tree.lookup (tree.site pair.1)
  old : ∀ pair ∈ pairs, after.lookup (tree.site pair.1) = none
  other : ∀ location, (∀ pair ∈ pairs, tree.site pair.1 ≠ location) → (∀ pair ∈ pairs, tree.site pair.2 ≠ location) →
    after.lookup location = tree.lookup location

theorem Renamed.unique {after' : FileTree} (renamed : Renamed tree pairs after) (renamed' : Renamed tree pairs after') (location : Location) :
    after'.lookup location = after.lookup location := by
  by_cases new : ∃ pair ∈ pairs, tree.site pair.2 = location
  · obtain ⟨pair, mem, rfl⟩ := new
    rw [renamed.new pair mem, renamed'.new pair mem]
  · by_cases old : ∃ pair ∈ pairs, tree.site pair.1 = location
    · obtain ⟨pair, mem, rfl⟩ := old
      rw [renamed.old pair mem, renamed'.old pair mem]
    · have unmoved : ∀ pair ∈ pairs, tree.site pair.1 ≠ location := fun pair mem same => old ⟨pair, mem, same⟩
      have free : ∀ pair ∈ pairs, tree.site pair.2 ≠ location := fun pair mem same => new ⟨pair, mem, same⟩
      rw [renamed.other location unmoved free, renamed'.other location unmoved free]

theorem renamed_of_carries {ordered : List (Path × Path)} (clashless : Clashless tree pairs) (permuted : ordered.Perm pairs)
    (carries : Carries tree.lookup (ordered.map (sites tree)) after.lookup) : Renamed tree pairs after := by
  have apart : (ordered.map (sites tree)).Pairwise fun move other => move.2 ≠ other.2 :=
    List.pairwise_map.2 ((permuted.pairwise_iff fun differs => differs.symm).2 clashless.apart)
  have listed {pair : Path × Path} (mem : pair ∈ pairs) : sites tree pair ∈ ordered.map (sites tree) :=
    List.mem_map_of_mem (permuted.mem_iff.2 mem)
  have each {P : Location × Location → Prop} (all : ∀ pair ∈ pairs, P (sites tree pair)) : ∀ move ∈ ordered.map (sites tree), P move := by
    intro move mem
    obtain ⟨pair, listed, rfl⟩ := List.mem_map.1 mem
    exact all pair (permuted.mem_iff.1 listed)
  have fresh : ∀ move ∈ ordered.map (sites tree), ∀ other ∈ ordered.map (sites tree), move.2 ≠ other.1 :=
    each fun pair mem => each fun other mem' => clashless.fresh pair mem other mem'
  refine ⟨fun pair mem => carries.lookup_target apart fresh (listed mem), fun pair mem => ?_, fun location unmoved free => ?_⟩
  · exact carries.lookup_source (.inr ⟨_, listed mem, rfl⟩) (each fun other mem' => clashless.fresh other mem' pair mem)
  · exact carries.lookup_other (each unmoved) (each free)

/-- A file that is renamed where no clash is, and no link to a directory is replaced, can be read by its new path. -/
theorem read_of_renamed (sound : tree.WellFormed) (shuffled : Shuffled tree after) (renamed : Renamed tree pairs after) (spares : SparesLinks tree pairs)
    (files : ∀ pair ∈ pairs, ∃ place content, tree.follow pair.1 = .ok (.entry place (.file content)))
    (sited : ∀ pair ∈ pairs, ∃ directory old new base, tree.Sited pair directory old new base) {pair : Path × Path} (mem : pair ∈ pairs)
    {content : Bytes} (file : tree.lookup (tree.site pair.1) = some (.file content)) :
    tree.read pair.1 = .ok content ∧ after.read pair.2 = .ok content := by
  have links (outer : Location) (name target : String) (link : tree.lookup (outer ++ [name]) = some (.link target))
      (inside : tree.LinksToDirectory outer target) : after.lookup (outer ++ [name]) = some (.link target) := by
    rw [renamed.other (outer ++ [name]) (fun other listed same => ?_) fun other listed same => ?_, link]
    · obtain ⟨directory, old, new, base, placed⟩ := sited other listed
      obtain ⟨place, content, followed⟩ := files other listed
      rw [placed.source] at same
      obtain ⟨rfl, rfl⟩ := List.append_singleton_inj.1 same
      exact (linksToFile_of_follow sound placed.renames.valid placed.leads link (placed.renames.source ▸ followed)).not_directory inside
    · rw [← same] at link
      have outer_ : (tree.site other.2).dropLast = outer := by rw [same, List.dropLast_concat]
      exact spares other listed target link (outer_ ▸ inside)
  obtain ⟨directory, old, new, base, placed⟩ := sited pair mem
  have moved := renamed.new pair mem
  rw [placed.target, file] at moved
  rw [placed.source] at file
  have leads := shuffled.leadsInto_of sound links placed.leads
  have fine := placed.fine
  rw [placed.renames.source, placed.renames.target] at fine ⊢
  exact ⟨read_of_leadsInto placed.leads placed.renames.valid placed.steps.1 fine.1 file,
    read_of_leadsInto leads placed.valid placed.steps.2 fine.2 moved⟩

/-- In whatever order a batch of renamings is carried out, if all of them succeed and no file gets a name that another has or gets, every
file stands at its new place and can be read there, and the files are those that any other such order leaves. -/
theorem renameInOrder_loses_nothing (sound : tree.WellFormed) {order : List (Path × Path) → List (Path × Path)}
    (permutes : ∀ list, (order list).Perm list) {pattern suffix : String} {base : Option Path} {targets : List Path}
    (ended : publisher.renameInOrder order pattern suffix base tree = (.ok targets, after)) :
    ∃ start parsed found pairs, publisher.startOf tree base = .ok start ∧ PathPattern.ofString pattern = .ok parsed ∧
      tree.search start parsed = .ok found ∧ targets = pairs.map Prod.snd ∧
      (∀ pair, pair ∈ pairs ↔ pair.1 ∈ found ∧ tree.asksFile pair.1 = .ok true ∧ renamed? suffix pair.1 = .ok (some pair)) ∧
      (Clashless tree pairs →
        Renamed tree pairs after ∧
        (SparesLinks tree pairs → ∀ pair ∈ pairs, ∀ content, tree.lookup (tree.site pair.1) = some (.file content) →
          tree.read pair.1 = .ok content ∧ after.read pair.2 = .ok content) ∧
        ∀ other targets' after', (∀ list, (other list).Perm list) →
          publisher.renameInOrder other pattern suffix base tree = (.ok targets', after') →
          targets' = targets ∧ ∀ location, after'.lookup location = after.lookup location) := by
  obtain ⟨start, parsed, found, pairs, started, read, searched, moved, ran, rfl⟩ := publisher.renameInOrder_ends_iff.1 ended
  have each (pair : Path × Path) (mem : pair ∈ pairs) := exists_renames sound read searched moved mem
  have run {order : List (Path × Path) → List (Path × Path)} (permutes : ∀ list, (order list).Perm list) {after : FileTree}
      (ran : (order pairs).forM (fun pair => moveEntry pair.1 pair.2) tree = (.ok (), after)) :=
    carries_of_moves sound (.refl sound) (fun pair mem => each pair ((permutes pairs).mem_iff.1 mem)) ran
  refine ⟨start, parsed, found, pairs, started, read, searched, rfl, fun pair => mem_moves_iff moved, fun clashless => ?_⟩
  obtain ⟨shuffled, carries, sited⟩ := run permutes ran
  have renamed := renamed_of_carries clashless (permutes pairs) carries
  refine ⟨renamed, fun spares pair mem content file => ?_, fun other targets' after' permutes' ended' => ?_⟩
  · refine read_of_renamed sound shuffled renamed spares (fun pair mem => ?_) (fun pair mem => ?_) mem file
    · obtain ⟨-, -, -, -, file⟩ := each pair mem
      exact file
    · obtain ⟨directory, old, new, base, placed, -⟩ := sited pair ((permutes pairs).mem_iff.2 mem)
      exact ⟨directory, old, new, base, placed⟩
  · obtain ⟨start', parsed', found', pairs', started', read', searched', moved', ran', rfl⟩ := publisher.renameInOrder_ends_iff.1 ended'
    obtain rfl := Except.ok.inj (started.symm.trans started')
    obtain rfl := Except.ok.inj (read.symm.trans read')
    obtain rfl := Except.ok.inj (searched.symm.trans searched')
    obtain rfl := Except.ok.inj (moved.symm.trans moved')
    obtain ⟨-, carries', -⟩ := run permutes' ran'
    exact ⟨rfl, renamed.unique (renamed_of_carries clashless (permutes' pairs) carries')⟩

/-! ## Two scripts -/

/-- A directory with two scripts. -/
def twoScripts (first second : String) : FileTree where
  entries := [(["p"], .directory), (["p", first], .file (encode "1")), (["p", second], .file (encode "2"))]
  workingDirectory := ["p"]

/-- The publisher of the directory. -/
def scriptsPublisher : Publisher := ⟨.ofLocation ["p"]⟩

theorem search_of_sorted {directory : Path} {pattern : PathPattern} (there : tree.asksDirectory directory = .ok true)
    (described : tree.matchesFrom pattern.onlyDirectories directory pattern.parts = .ok found)
    (sorted : found.Pairwise fun a b => isBefore a b = true) : tree.search directory pattern = .ok found := by
  unfold search
  rw [there, described]
  exact congrArg Except.ok (List.mergeSort_of_pairwise sorted)

theorem ofString_suffixed : PathPattern.ofString "*-web.js" = .ok ⟨[.wildcard "*-web.js"], false⟩ := eq_ok_of_toOption (by decide)

/-- The moves of two scripts that stand in the order of their names. -/
theorem twoScripts_ends {first second a b : String} {order : List (Path × Path) → List (Path × Path)}
    (searched : (twoScripts first second).search (.ofLocation ["p"]) ⟨[.wildcard "*-web.js"], false⟩ =
      .ok [.ofLocation ["p", first], .ofLocation ["p", second]])
    (moved : moves (twoScripts first second) "-web" [.ofLocation ["p", first], .ofLocation ["p", second]] =
      .ok [(.ofLocation ["p", first], .ofLocation ["p", a]), (.ofLocation ["p", second], .ofLocation ["p", b])])
    (ran : (order [(.ofLocation ["p", first], .ofLocation ["p", a]), (.ofLocation ["p", second], .ofLocation ["p", b])]).forM
      (fun pair => moveEntry pair.1 pair.2) (twoScripts first second) = (.ok (), after)) :
    scriptsPublisher.renameInOrder order "*-web.js" "-web" none (twoScripts first second) =
      (.ok [.ofLocation ["p", a], .ofLocation ["p", b]], after) :=
  scriptsPublisher.renameInOrder_ends_iff.2 ⟨.ofLocation ["p"], _, _, _, rfl, ofString_suffixed, searched, moved, ran, rfl⟩

theorem renameInOrder_loses_nothing_reversed : (twoScripts "a-web.js" "b-web.js").WellFormed ∧
    ∃ after, scriptsPublisher.renameInOrder List.reverse "*-web.js" "-web" none (twoScripts "a-web.js" "b-web.js") =
        (.ok [.ofLocation ["p", "a.js"], .ofLocation ["p", "b.js"]], after) ∧
      after.read (.ofLocation ["p", "a.js"]) = .ok (encode "1") ∧ after.read (.ofLocation ["p", "b.js"]) = .ok (encode "2") := by
  have sound : (twoScripts "a-web.js" "b-web.js").WellFormed := wellFormed_of_entries (by decide) (by decide)
  have searched : (twoScripts "a-web.js" "b-web.js").search (.ofLocation ["p"]) ⟨[.wildcard "*-web.js"], false⟩ =
      .ok [.ofLocation ["p", "a-web.js"], .ofLocation ["p", "b-web.js"]] :=
    search_of_sorted (eq_ok_of_toOption (by decide +kernel)) (eq_ok_of_toOption (by decide +kernel)) (by decide)
  have moved : moves (twoScripts "a-web.js" "b-web.js") "-web" [.ofLocation ["p", "a-web.js"], .ofLocation ["p", "b-web.js"]] =
      .ok [(.ofLocation ["p", "a-web.js"], .ofLocation ["p", "a.js"]), (.ofLocation ["p", "b-web.js"], .ofLocation ["p", "b.js"])] :=
    eq_ok_of_toOption (by decide +kernel)
  have ended := @twoScripts_ends _ "a-web.js" "b-web.js" "a.js" "b.js" List.reverse searched moved
    (Prod.ext (eq_ok_of_toOption (by decide +kernel)) rfl)
  obtain ⟨start, parsed, found, pairs, started, read, searched', same, members, keeps⟩ :=
    scriptsPublisher.renameInOrder_loses_nothing sound (fun list => list.reverse_perm) ended
  obtain rfl := Except.ok.inj started
  obtain rfl := Except.ok.inj (ofString_suffixed.symm.trans read)
  obtain rfl := Except.ok.inj (searched.symm.trans searched')
  -- the batch is that of the two scripts
  have from_ (pair : Path × Path) (mem : pair ∈ pairs) := (mem_moves_iff moved).2 ((members pair).1 mem)
  obtain ⟨x, y, rfl⟩ : ∃ x y, pairs = [x, y] := List.length_eq_two.1 (by simpa using (congrArg List.length same).symm)
  have second : x.2 = .ofLocation ["p", "a.js"] ∧ y.2 = .ofLocation ["p", "b.js"] := by simpa [eq_comm] using same
  obtain rfl : x = (.ofLocation ["p", "a-web.js"], .ofLocation ["p", "a.js"]) := by
    obtain rfl | rfl : x = _ ∨ x = _ := by simpa using from_ x (by simp)
    · rfl
    · exact absurd second.1 (by decide)
  obtain rfl : y = (.ofLocation ["p", "b-web.js"], .ofLocation ["p", "b.js"]) := by
    obtain rfl | rfl : y = _ ∨ y = _ := by simpa using from_ y (by simp)
    · exact absurd second.2 (by decide)
    · rfl
  obtain ⟨-, bytes, -⟩ := keeps ⟨by decide +kernel, by decide +kernel⟩
  have vacant : SparesLinks (twoScripts "a-web.js" "b-web.js")
      [(.ofLocation ["p", "a-web.js"], .ofLocation ["p", "a.js"]), (.ofLocation ["p", "b-web.js"], .ofLocation ["p", "b.js"])] := by
    have free : ∀ pair ∈ [(Path.ofLocation ["p", "a-web.js"], Path.ofLocation ["p", "a.js"]), (.ofLocation ["p", "b-web.js"], .ofLocation ["p", "b.js"])],
        (twoScripts "a-web.js" "b-web.js").lookup ((twoScripts "a-web.js" "b-web.js").site pair.2) = none := by decide +kernel
    intro pair mem target link
    rw [free pair mem] at link
    cases link
  obtain ⟨-, first⟩ := bytes vacant (.ofLocation ["p", "a-web.js"], .ofLocation ["p", "a.js"]) (by simp) (encode "1") (by decide +kernel)
  obtain ⟨-, last⟩ := bytes vacant (.ofLocation ["p", "b-web.js"], .ofLocation ["p", "b.js"]) (by simp) (encode "2") (by decide +kernel)
  exact ⟨sound, _, ended, first, last⟩

/-- A script may take the place of another that is then renamed over a third name: the order decides which of them is left. -/
theorem moveAndRename_overwrites : ∃ after swapped,
    scriptsPublisher.moveAndRename "*-web.js" "-web" none (twoScripts "a-web-web.js" "a-web.js") =
        (.ok [.ofLocation ["p", "a-web.js"], .ofLocation ["p", "a.js"]], after) ∧
      scriptsPublisher.renameInOrder List.reverse "*-web.js" "-web" none (twoScripts "a-web-web.js" "a-web.js") =
        (.ok [.ofLocation ["p", "a-web.js"], .ofLocation ["p", "a.js"]], swapped) ∧
      after.lookup ["p", "a-web.js"] = none ∧ after.lookup ["p", "a.js"] = some (.file (encode "1")) ∧
      swapped.lookup ["p", "a-web.js"] = some (.file (encode "1")) ∧ swapped.lookup ["p", "a.js"] = some (.file (encode "2")) := by
  have moved : moves (twoScripts "a-web-web.js" "a-web.js") "-web" [.ofLocation ["p", "a-web-web.js"], .ofLocation ["p", "a-web.js"]] =
      .ok [(.ofLocation ["p", "a-web-web.js"], .ofLocation ["p", "a-web.js"]), (.ofLocation ["p", "a-web.js"], .ofLocation ["p", "a.js"])] :=
    eq_ok_of_toOption (by decide +kernel)
  have searched : (twoScripts "a-web-web.js" "a-web.js").search (.ofLocation ["p"]) ⟨[.wildcard "*-web.js"], false⟩ =
      .ok [.ofLocation ["p", "a-web-web.js"], .ofLocation ["p", "a-web.js"]] :=
    search_of_sorted (eq_ok_of_toOption (by decide +kernel)) (eq_ok_of_toOption (by decide +kernel)) (by decide)
  have ends (order : List (Path × Path) → List (Path × Path)) {after : FileTree} :=
    @twoScripts_ends after "a-web-web.js" "a-web.js" "a-web.js" "a.js" order searched moved
  refine ⟨_, _, ends id (Prod.ext (eq_ok_of_toOption ?_) rfl), ends List.reverse (Prod.ext (eq_ok_of_toOption ?_) rfl), ?_, ?_, ?_, ?_⟩
  all_goals decide +kernel

end Publisher

end WasmPackaging
