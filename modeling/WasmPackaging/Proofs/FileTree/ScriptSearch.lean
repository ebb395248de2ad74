import WasmPackaging.Proofs.FileTree.LikeTasks
import WasmPackaging.Proofs.FileTree.Ways
import WasmPackaging.Proofs.Publishing

/-!
Searches for scripts at any depth below a directory. What is found depends on what stands below the directory and on
nothing else: the entries that a wildcard describes, each once and in order (`search_scripts`). So in a tree that has more
entries, none of which the wildcard describes, the same is found (`search_scripts_congr`).
-/

namespace WasmPackaging

open Text

/-! ## Lists -/

theorem mapM_ok {ε α β : Type} (f : α → β) (list : List α) : list.mapM (fun a => (.ok (f a) : Except ε β)) = .ok (list.map f) := by
  induction list with
  | nil => rfl
  | cons a list ih =>
    rw [List.mapM_cons, ih]
    rfl

theorem nodup_eraseDups {α : Type} [BEq α] [LawfulBEq α] (list : List α) : list.eraseDups.Nodup := by
  generalize long : list.length = n
  induction n using Nat.strongRecOn generalizing list with
  | _ n shorter =>
    cases list with
    | nil => simp
    | cons a list =>
      rw [List.eraseDups_cons]
      have fewer := List.length_filter_le (fun b => !b == a) list
      rw [List.length_cons] at long
      refine List.nodup_cons.2 ⟨?_, shorter _ (by omega) _ rfl⟩
      simp [List.mem_eraseDups]

namespace FileTree

variable {tree other : FileTree} {location : Location} {pattern : PathPattern} {wildcard : String}

/-! ## What is visited -/

/-- The names that a search at any depth visits: the directories that it enters, and the names in them. -/
def Visits (tree : FileTree) (directory : Path) (outer : List String) (name : String) : Prop :=
  outer ∈ tree.directoriesBelow directory ∧ name ∈ tree.namesIn (directory.under outer)

/-- A search visits the names in the directories below one that can be looked up. -/
theorem visits_of_lookup (sound : tree.WellFormed) {directory : Path} (leads : tree.follow directory = .ok (.entry location .directory))
    {outer : List String} {name : String} (asked : tree.asksDirectory (directory.under outer) = .ok true)
    (there : tree.lookup (location ++ outer ++ [name]) ≠ none) : tree.Visits directory outer name := by
  have below := sound.parent _ _ there
  constructor
  · unfold directoriesBelow
    rw [leads]
    cases outer with
    | nil => exact List.mem_cons_self
    | cons first outer => exact List.mem_cons_of_mem _ (List.mem_filterMap.2 ⟨_, mem_entries_of_lookup (by simp) below, by simp⟩)
  · obtain ⟨place, onward⟩ := asksDirectory_eq_true_iff.1 asked
    obtain rfl := eq_of_follow_under sound leads below onward
    unfold namesIn
    rw [onward]
    exact mem_children_iff.2 there

theorem visits_ofLocation_iff (sound : tree.WellFormed) (free : tree.LinkFree) (fits : Fits location)
    (directory : tree.lookup location = some .directory) {outer : List String} {name : String} :
    tree.Visits (.ofLocation location) outer name ↔ Fits (location ++ outer) ∧ tree.lookup (location ++ outer ++ [name]) ≠ none := by
  have under : (Path.ofLocation location).under outer = .ofLocation (location ++ outer) := rfl
  unfold Visits
  rw [under]
  constructor
  · rintro ⟨below, inside⟩
    have named' : AreNames (location ++ outer) := areNames_append.2 ⟨fits.named, areNames_of_mem_directoriesBelow sound below⟩
    unfold namesIn at inside
    split at inside
    · next place leads =>
      obtain ⟨fits, rfl, -⟩ := (follow_entry_iff sound free named').1 leads
      exact ⟨fits, mem_children_iff.1 inside⟩
    · cases inside
  · rintro ⟨fits', there⟩
    have inside := sound.parent _ _ there
    refine visits_of_lookup sound ((follow_entry_iff sound free fits.named).2 ⟨fits, rfl, directory⟩) ?_ there
    exact asksDirectory_eq_true_iff.2 ⟨_, (follow_entry_iff sound free fits'.named).2 ⟨fits', rfl, inside⟩⟩

/-! ## Trees with links -/

/-- Every location is listed once in a tree. -/
def ListedOnce (tree : FileTree) : Prop := (tree.entries.map Prod.fst).Nodup

theorem map_fst_set {entries : List (Location × Entry)} (once : (entries.map Prod.fst).Nodup) (location : Location) (entry : Entry) :
    ((set location entry entries).map Prod.fst).Nodup ∧ ∀ place ∈ (set location entry entries).map Prod.fst,
      place = location ∨ place ∈ entries.map Prod.fst := by
  induction entries with
  | nil => simp [set]
  | cons e entries ih =>
    obtain ⟨place, old⟩ := e
    rw [List.map_cons, List.nodup_cons] at once
    by_cases same : place = location
    · subst same
      simp only [set, if_true, List.map_cons, List.nodup_cons]
      exact ⟨once, fun _ mem => .inr mem⟩
    · obtain ⟨once', listed⟩ := ih once.2
      simp only [set, if_neg same, List.map_cons, List.nodup_cons]
      refine ⟨⟨fun mem => ?_, once'⟩, fun place' mem => ?_⟩
      · exact (listed place mem).elim same once.1
      · obtain rfl | mem := List.mem_cons.1 mem
        · simp
        · exact (listed place' mem).imp_right (List.mem_cons_of_mem _)

namespace ListedOnce

theorem put (once : tree.ListedOnce) (location : Location) (entry : Entry) : (tree.put location entry).ListedOnce :=
  (map_fst_set once location entry).1

theorem erase (once : tree.ListedOnce) (location : Location) : (tree.erase location).ListedOnce :=
  List.Nodup.sublist (List.filter_sublist.map Prod.fst) once

theorem move (once : tree.ListedOnce) {source target : Path} (moved : tree.move source target = .ok other) : other.ListedOnce := by
  have put_erase {here there : Location} {entry : Entry} : ((tree.erase here).put there entry).ListedOnce := (once.erase here).put there entry
  unfold FileTree.move at moved
  split at moved
  · cases moved
  · cases moved
  · cases moved
  · cases moved
  · cases moved
  · split at moved
    · exact Except.ok.inj moved ▸ once
    · exact Except.ok.inj moved ▸ put_erase
  · exact Except.ok.inj moved ▸ put_erase

/-- What is listed at a location stands there. -/
theorem lookup_of_mem (once : tree.ListedOnce) {entry : Entry} (filled : location ≠ []) (listed : (location, entry) ∈ tree.entries) :
    tree.lookup location = some entry := by
  have first (entries : List (Location × Entry)) (once : (entries.map Prod.fst).Nodup) (listed : (location, entry) ∈ entries) :
      find? location entries = some entry := by
    induction entries with
    | nil => cases listed
    | cons e entries ih =>
      obtain ⟨place, other⟩ := e
      rw [List.map_cons, List.nodup_cons] at once
      obtain ⟨rfl, rfl⟩ | listed := List.mem_cons.1 listed |>.imp_left Prod.mk.inj
      · simp [find?]
      · have differs : place ≠ location := by
          rintro rfl
          exact once.1 (List.mem_map.2 ⟨_, listed, rfl⟩)
        rw [find?, if_neg differs]
        exact ih once.2 listed
  cases location with
  | nil => exact absurd rfl filled
  | cons name names => exact first tree.entries once listed

/-- The directories below a directory stand there. -/
theorem lookup_of_mem_directoriesBelow (once : tree.ListedOnce) (sound : tree.WellFormed) {directory : Path}
    (leads : tree.follow directory = .ok (.entry location .directory)) {outer : List String} (below : outer ∈ tree.directoriesBelow directory) :
    tree.lookup (location ++ outer) = some .directory := by
  unfold directoriesBelow at below
  rw [leads] at below
  obtain rfl | below := List.mem_cons.1 below
  · rw [List.append_nil, lookup_of_follow sound leads]
  · obtain ⟨⟨place, entry⟩, listed, kept⟩ := List.mem_filterMap.1 below
    dsimp only at kept
    split at kept
    · next beyond =>
      obtain rfl := Option.some.inj kept
      obtain rfl := Path.below?_eq_some_iff.1 beyond
      exact once.lookup_of_mem (by simp) listed
    · cases kept

/-- The names that are visited are those of the entries in directories that can be looked up. -/
theorem visits_iff (once : tree.ListedOnce) (sound : tree.WellFormed) {directory : Path}
    (leads : tree.follow directory = .ok (.entry location .directory)) {outer : List String} {name : String} :
    tree.Visits directory outer name ↔
      tree.asksDirectory (directory.under outer) = .ok true ∧ tree.lookup (location ++ outer ++ [name]) ≠ none := by
  refine ⟨fun ⟨below, inside⟩ => ?_, fun ⟨asked, there⟩ => visits_of_lookup sound leads asked there⟩
  unfold namesIn at inside
  split at inside
  · next place onward =>
    obtain rfl := eq_of_follow_under sound leads (once.lookup_of_mem_directoriesBelow sound leads below) onward
    exact ⟨asksDirectory_eq_true_iff.2 ⟨_, onward⟩, mem_children_iff.1 inside⟩
  · cases inside

end ListedOnce

/-! ## What is found -/

/-- The paths in a directory that a wildcard describes. -/
def described (tree : FileTree) (wildcard : String) (here : Path) : List Path :=
  ((tree.namesIn here).filter fun name => Wildcard.matchesName wildcard name).map fun name => here.under [name]

theorem matchesFrom_wildcard (tree : FileTree) (wildcard : String) (here : Path) :
    tree.matchesFrom false here [.wildcard wildcard] = .ok (tree.described wildcard here) := by
  have whole : tree.matchesFrom false here [.wildcard wildcard] = (do
      return (← (tree.namesIn here).mapM fun name =>
        .ok (if Wildcard.matchesName wildcard name then [here.under [name]] else [])).flatten) := by
    rw [matchesFrom]
    refine congrArg (· >>= _) (congrArg (List.mapM · _) (funext fun name => ?_))
    by_cases matched : Wildcard.matchesName wildcard name = true
    · simp only [matchesFrom, and_self, if_true, matched]
      rfl
    · simp only [matchesFrom, and_self, if_true, matched]
      rfl
  have joined (names : List String) :
      (names.map fun name => if Wildcard.matchesName wildcard name then [here.under [name]] else []).flatten =
        (names.filter fun name => Wildcard.matchesName wildcard name).map fun name => here.under [name] := by
    induction names with
    | nil => rfl
    | cons name names ih => by_cases matched : Wildcard.matchesName wildcard name = true <;> simp [matched, ih]
  rw [whole, mapM_ok]
  exact congrArg Except.ok (joined _)

/-- The paths at any depth below a directory whose names a wildcard describes. -/
def scriptsBelow (tree : FileTree) (wildcard : String) (directory : Path) : List Path :=
  ((tree.directoriesBelow directory).flatMap fun outer => tree.described wildcard (directory.under outer)).eraseDups

theorem mem_scriptsBelow_iff {directory path : Path} :
    path ∈ tree.scriptsBelow wildcard directory ↔
      ∃ outer name, tree.Visits directory outer name ∧ Wildcard.matchesName wildcard name = true ∧ path = (directory.under outer).under [name] := by
  unfold scriptsBelow described Visits
  rw [List.mem_eraseDups, List.mem_flatMap]
  simp only [List.mem_map, List.mem_filter]
  constructor
  · rintro ⟨outer, below, name, ⟨inside, matched⟩, rfl⟩
    exact ⟨outer, name, ⟨below, inside⟩, matched, rfl⟩
  · rintro ⟨outer, name, ⟨below, inside⟩, matched, rfl⟩
    exact ⟨outer, below, name, ⟨inside, matched⟩, rfl⟩

theorem matchesFrom_scripts (tree : FileTree) (wildcard : String) (here : Path) :
    tree.matchesFrom false here [.anyDepth, .wildcard wildcard] = .ok (tree.scriptsBelow wildcard here) := by
  have whole : tree.matchesFrom false here [.anyDepth, .wildcard wildcard] = (do
      return (← (tree.directoriesBelow here).mapM fun outer =>
        .ok (tree.described wildcard (here.under outer))).flatten.eraseDups) := by
    rw [matchesFrom]
    simp only [← matchesFrom_wildcard]
    rfl
  rw [whole, mapM_ok, scriptsBelow, List.flatMap_def]
  rfl

theorem isBefore_iff {a b : Path} : isBefore a b = true ↔ @LE.le _ List.instLE a.parts b.parts := by
  unfold isBefore
  rw [Bool.not_eq_true', decide_eq_false_iff_not]
  exact List.not_lt

/-- Paths that start at the root and come before each other are the same. -/
theorem eq_of_isBefore {a b : Path} (rooted : a.anchor = .root) (rooted' : b.anchor = .root) (first : isBefore a b = true)
    (second : isBefore b a = true) : a = b := by
  have parts := List.le_antisymm (isBefore_iff.1 first) (isBefore_iff.1 second)
  cases a
  cases b
  simp_all

theorem pairwise_mergeSort_isBefore (list : List Path) : (list.mergeSort isBefore).Pairwise fun a b => isBefore a b = true := by
  refine List.pairwise_mergeSort (fun a b c first second => ?_) (fun a b => ?_) list
  · exact isBefore_iff.2 (List.le_trans (isBefore_iff.1 first) (isBefore_iff.1 second))
  · obtain first | second := List.le_total a.parts b.parts
    · simp [isBefore_iff.2 first]
    · simp [isBefore_iff.2 second]

/-- Paths that start at the root are in one order only. -/
theorem mergeSort_eq_of_mem_iff {found found' : List Path} (once : found.Nodup) (once' : found'.Nodup)
    (same : ∀ path, path ∈ found ↔ path ∈ found') (rooted : ∀ path ∈ found, path.anchor = .root) :
    found.mergeSort isBefore = found'.mergeSort isBefore := by
  refine List.Perm.eq_of_pairwise (fun a b mem mem' first second => ?_) (pairwise_mergeSort_isBefore found) (pairwise_mergeSort_isBefore found') ?_
  · rw [List.mem_mergeSort] at mem mem'
    exact eq_of_isBefore (rooted a mem) (rooted b ((same b).2 mem')) first second
  · exact ((List.mergeSort_perm found _).trans ((List.perm_ext_iff_of_nodup once once').2 same)).trans (List.mergeSort_perm found' _).symm

/-- What a search finds is in order. -/
theorem pairwise_of_search {directory : Path} {found : List Path} (searched : tree.search directory pattern = .ok found) :
    found.Pairwise fun a b => isBefore a b = true := by
  obtain ⟨answer, -, ran⟩ := bind_eq_ok_iff.1 searched
  cases answer with
  | false =>
    obtain rfl := Except.ok.inj ran
    exact List.Pairwise.nil
  | true =>
    obtain ⟨list, -, ran⟩ := bind_eq_ok_iff.1 ran
    obtain rfl := Except.ok.inj ran
    exact pairwise_mergeSort_isBefore list

/-- A search that finds something starts at a directory. -/
theorem asksDirectory_of_mem_search {directory path : Path} {found : List Path} (searched : tree.search directory pattern = .ok found)
    (mem : path ∈ found) : tree.asksDirectory directory = .ok true := by
  obtain ⟨answer, there, ran⟩ := bind_eq_ok_iff.1 searched
  cases answer with
  | false =>
    obtain rfl := Except.ok.inj ran
    cases mem
  | true => exact there

/-- Where a directory stands that can be looked up, the search for scripts finds all the entries that the wildcard describes. -/
theorem search_scripts (parts : pattern.parts = [.anyDepth, .wildcard wildcard]) (plain : pattern.onlyDirectories = false)
    {directory : Path} (there : tree.asksDirectory directory = .ok true) :
    tree.search directory pattern = .ok ((tree.scriptsBelow wildcard directory).mergeSort isBefore) := by
  unfold search
  rw [there, parts, plain]
  exact congrArg (· >>= fun list => Except.ok (list.mergeSort isBefore)) (matchesFrom_scripts tree wildcard directory)

/-- A search for scripts finds the entries in directories that can be looked up whose names the wildcard describes. -/
theorem mem_search_scripts_iff (once : tree.ListedOnce) (sound : tree.WellFormed) (parts : pattern.parts = [.anyDepth, .wildcard wildcard])
    (plain : pattern.onlyDirectories = false) {directory : Path} (leads : tree.follow directory = .ok (.entry location .directory))
    {found : List Path} (searched : tree.search directory pattern = .ok found) {path : Path} :
    path ∈ found ↔ ∃ outer name, path = directory.under (outer ++ [name]) ∧ tree.asksDirectory (directory.under outer) = .ok true ∧
      tree.lookup (location ++ outer ++ [name]) ≠ none ∧ Wildcard.matchesName wildcard name = true := by
  obtain rfl := Except.ok.inj ((search_scripts parts plain (asksDirectory_eq_true_iff.2 ⟨_, leads⟩)).symm.trans searched)
  rw [List.mem_mergeSort, mem_scriptsBelow_iff]
  constructor
  · rintro ⟨outer, name, visited, matched, rfl⟩
    obtain ⟨asked, there⟩ := (once.visits_iff sound leads).1 visited
    exact ⟨outer, name, Path.under_under _ _ _, asked, there, matched⟩
  · rintro ⟨outer, name, rfl, asked, there, matched⟩
    exact ⟨outer, name, (once.visits_iff sound leads).2 ⟨asked, there⟩, matched, (Path.under_under _ _ _).symm⟩

section

variable (parts : pattern.parts = [.anyDepth, .wildcard wildcard]) (plain : pattern.onlyDirectories = false) (sound : tree.WellFormed)
  (free : tree.LinkFree) (named : AreNames location) {found : List Path} (searched : tree.search (.ofLocation location) pattern = .ok found)

include parts plain sound free named searched

/-- What is found stands in the tree. -/
theorem exists_entry_of_mem_search {path : Path} (mem : path ∈ found) :
    ∃ outer name entry, path = .ofLocation (location ++ outer ++ [name]) ∧ tree.lookup (location ++ outer ++ [name]) = some entry := by
  obtain ⟨answer, there, ran⟩ := bind_eq_ok_iff.1 searched
  cases answer with
  | false =>
    obtain rfl := Except.ok.inj ran
    cases mem
  | true =>
    obtain ⟨fits, entry, present, directory⟩ := (asks_ofLocation_true_iff sound free named).1 there
    obtain rfl : entry = .directory := by simpa using directory
    obtain rfl := Except.ok.inj ((search_scripts parts plain there).symm.trans searched)
    obtain ⟨outer, name, visited, -, rfl⟩ := mem_scriptsBelow_iff.1 (List.mem_mergeSort.1 mem)
    obtain ⟨entry, present⟩ := Option.ne_none_iff_exists'.1 ((visits_ofLocation_iff sound free fits present).1 visited).2
    exact ⟨outer, name, entry, rfl, present⟩

/-- Where nothing is found, the wildcard describes no entry that can be looked up. -/
theorem not_matches_of_search_nil (nothing : found = []) (fits : Fits location) (directory : tree.lookup location = some .directory)
    {outer : List String} {name : String} (fits' : Fits (location ++ outer)) (there : tree.lookup (location ++ outer ++ [name]) ≠ none) :
    Wildcard.matchesName wildcard name = false := by
  have asked : tree.asksDirectory (.ofLocation location) = .ok true := asks_ofLocation_of_present sound free named fits directory _
  have same := Except.ok.inj ((search_scripts parts plain asked).symm.trans searched)
  rw [Bool.eq_false_iff]
  intro matched
  have mem : ((Path.ofLocation location).under outer).under [name] ∈ tree.scriptsBelow wildcard (.ofLocation location) :=
    mem_scriptsBelow_iff.2 ⟨outer, name, (visits_ofLocation_iff sound free fits directory).2 ⟨fits', there⟩, matched, rfl⟩
  rw [← List.mem_mergeSort, same, nothing] at mem
  cases mem

end

/-! ## Trees with more entries -/

/-- What stands at a location in two trees is looked up alike. -/
theorem follow_eq_of_present (sound : tree.WellFormed) (free : tree.LinkFree) (sound' : other.WellFormed) (free' : other.LinkFree) {entry : Entry}
    (present : tree.lookup location = some entry) (present' : other.lookup location = some entry) :
    other.follow (.ofLocation location) = tree.follow (.ofLocation location) := by
  have named := sound.areNames (by simp [present] : tree.lookup location ≠ none)
  have start (tree : FileTree) : tree.start (.ofLocation location) = [] := rfl
  have down := @walk_down tree [] location entry sound true linkLimit rfl present fun target same => free location target (same ▸ present)
  have down' := @walk_down other [] location entry sound' true linkLimit rfl present' fun target same => free' location target (same ▸ present')
  by_cases fits : Fits location
  · rw [(follow_entry_iff sound free named).2 ⟨fits, rfl, present⟩, (follow_entry_iff sound' free' named).2 ⟨fits, rfl, present'⟩]
  · have never (tree : FileTree) (sound : tree.WellFormed) (free : tree.LinkFree) (found : Found) :
        tree.follow (.ofLocation location) ≠ .ok found := fun leads => fits (follow_ofLocation_ends sound free named leads).1
    have missing := never tree sound free
    have missing' := never other sound' free'
    unfold follow at missing missing' ⊢
    split
    · rfl
    · next fine =>
      rw [fine] at missing missing'
      simp only [start, Path.steps_ofLocation named] at missing missing' ⊢
      rw [down.resolve_left (missing _), down'.resolve_left (missing' _)]

/-- In a tree that has more entries, none of which a wildcard describes, a search finds the same. -/
theorem search_scripts_congr (parts : pattern.parts = [.anyDepth, .wildcard wildcard]) (plain : pattern.onlyDirectories = false)
    (sound : tree.WellFormed) (free : tree.LinkFree) (sound' : other.WellFormed) (free' : other.LinkFree)
    (directory : tree.lookup location = some .directory) (directory' : other.lookup location = some .directory)
    (kept : ∀ rest entry, tree.lookup (location ++ rest) = some entry → other.lookup (location ++ rest) = some entry)
    (more : ∀ outer name, tree.lookup (location ++ outer ++ [name]) = none → other.lookup (location ++ outer ++ [name]) ≠ none →
      Wildcard.matchesName wildcard name = false)
    {found : List Path} (searched : tree.search (.ofLocation location) pattern = .ok found) :
    other.search (.ofLocation location) pattern = .ok found := by
  have named := sound.areNames (by simp [directory] : tree.lookup location ≠ none)
  have asked : other.asksDirectory (.ofLocation location) = tree.asksDirectory (.ofLocation location) := by
    unfold asksDirectory asks
    rw [follow_eq_of_present sound free sound' free' directory directory']
  obtain ⟨answer, there, -⟩ := bind_eq_ok_iff.1 searched
  cases answer with
  | false =>
    unfold search at searched ⊢
    rw [asked]
    rw [there] at searched ⊢
    exact searched
  | true =>
    obtain ⟨fits, -⟩ := (asks_ofLocation_true_iff sound free named).1 there
    obtain rfl := Except.ok.inj ((search_scripts parts plain there).symm.trans searched)
    have visits {outer : List String} {name : String} := @visits_ofLocation_iff tree location sound free fits directory outer name
    have visits' {outer : List String} {name : String} := @visits_ofLocation_iff other location sound' free' fits directory' outer name
    have kept' {outer : List String} {name : String} {entry : Entry} (present : tree.lookup (location ++ outer ++ [name]) = some entry) :
        other.lookup (location ++ outer ++ [name]) = some entry := by
      rw [List.append_assoc] at present ⊢
      exact kept _ entry present
    have filled {tree : FileTree} {place : Location} {entry : Entry} (present : tree.lookup place = some entry) : tree.lookup place ≠ none := by
      rw [present]
      exact Option.some_ne_none entry
    rw [search_scripts parts plain (asked.trans there)]
    refine congrArg Except.ok (mergeSort_eq_of_mem_iff (nodup_eraseDups _) (nodup_eraseDups _) (fun path => ?_) fun path mem => ?_)
    · rw [mem_scriptsBelow_iff, mem_scriptsBelow_iff]
      constructor
      · rintro ⟨outer, name, visited, matched, rfl⟩
        obtain ⟨fits', there'⟩ := visits'.1 visited
        refine ⟨outer, name, visits.2 ⟨fits', fun vacant => ?_⟩, matched, rfl⟩
        simp [more outer name vacant there'] at matched
      · rintro ⟨outer, name, visited, matched, rfl⟩
        obtain ⟨fits', there'⟩ := visits.1 visited
        obtain ⟨entry, present⟩ := Option.ne_none_iff_exists'.1 there'
        exact ⟨outer, name, visits'.2 ⟨fits', filled (kept' present)⟩, matched, rfl⟩
    · obtain ⟨outer, name, -, -, rfl⟩ := mem_scriptsBelow_iff.1 mem
      rfl

end FileTree

end WasmPackaging
