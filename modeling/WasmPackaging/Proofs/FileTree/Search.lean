import WasmPackaging.FileTree.Search
import WasmPackaging.Proofs.FileTree.Confinement

/-!
What a search finds. Every path that a pattern describes leads on from the directory that is searched, by names
of entries and by the names in the pattern (`exists_extra_of_mem_search`); two stars and a wildcard describe the
entries at any depth whose last name the wildcard does (`exists_name_of_mem_search`).
-/

namespace WasmPackaging

theorem exists_of_mapM_eq_ok {ε α β : Type} {f : α → Except ε β} {list : List α} {answers : List β}
    (ran : list.mapM f = .ok answers) : ∀ b ∈ answers, ∃ a ∈ list, f a = .ok b := by
  induction list generalizing answers with
  | nil =>
    rw [List.mapM_nil] at ran
    obtain rfl := Except.ok.inj ran
    simp
  | cons a list ih =>
    rw [List.mapM_cons] at ran
    obtain ⟨first, here, ran⟩ := bind_eq_ok_iff.1 ran
    obtain ⟨rest, onward, ran⟩ := bind_eq_ok_iff.1 ran
    obtain rfl := Except.ok.inj ran
    refine List.forall_mem_cons.2 ⟨⟨a, List.mem_cons_self, here⟩, fun b mem => ?_⟩
    obtain ⟨a', mem', same⟩ := ih onward b mem
    exact ⟨a', List.mem_cons_of_mem _ mem', same⟩

open Text

namespace FileTree

variable {tree : FileTree}

theorem isEntryName_of_mem_namesIn (sound : tree.WellFormed) {directory : Path} {name : String} (mem : name ∈ tree.namesIn directory) :
    IsEntryName name := by
  unfold namesIn at mem
  split at mem
  · exact isEntryName_of_mem_children sound mem
  · cases mem

/-- The entries that are listed below a location have names. -/
theorem areNames_of_mem_directoriesBelow (sound : tree.WellFormed) {directory : Path} {names : List String}
    (mem : names ∈ tree.directoriesBelow directory) : AreNames names := by
  unfold directoriesBelow at mem
  split at mem
  · next location leads =>
    obtain rfl | listed := List.mem_cons.1 mem
    · exact areNames_nil
    · obtain ⟨⟨place, entry⟩, stored, found⟩ := List.mem_filterMap.1 listed
      split at found
      · next same =>
        obtain ⟨rfl, rfl⟩ := Prod.mk.inj same
        split at found
        · next name rest below =>
          obtain rfl := Option.some.inj found
          obtain rfl := Path.below?_eq_some_iff.1 below
          exact (areNames_append.1 (sound.areNames (lookup_ne_none_of_mem stored))).2
        · cases found
  · cases mem

/-- What is found was described from the directory that was searched. -/
theorem exists_matches_of_mem_search {directory path : Path} {pattern : PathPattern} {found : List Path}
    (searched : tree.search directory pattern = .ok found) (mem : path ∈ found) :
    ∃ list, tree.matchesFrom pattern.onlyDirectories directory pattern.parts = .ok list ∧ path ∈ list := by
  unfold search at searched
  obtain ⟨answer, -, searched⟩ := bind_eq_ok_iff.1 searched
  split at searched
  · obtain ⟨list, described, searched⟩ := bind_eq_ok_iff.1 searched
    obtain rfl := Except.ok.inj searched
    exact ⟨list, described, List.mem_mergeSort.1 mem⟩
  · obtain rfl := Except.ok.inj searched
    cases mem

section matchesFrom

variable {P : String → Prop} (entries : ∀ name, IsEntryName name → P name)

include entries

/-- A path that the parts of a pattern describe leads on by names of entries and of the pattern. -/
theorem exists_extra_of_mem_matchesFrom (sound : tree.WellFormed) {onlyDirectories : Bool} {parts : List PatternPart}
    (named : ∀ name, .name name ∈ parts → P name) {here path : Path} {found : List Path}
    (described : tree.matchesFrom onlyDirectories here parts = .ok found) (mem : path ∈ found) :
    ∃ extra, path = here.under extra ∧ ∀ name ∈ extra, P name := by
  induction parts generalizing here path found with
  | nil =>
    obtain rfl := Except.ok.inj described
    obtain rfl := List.mem_singleton.1 mem
    exact ⟨[], (Path.under_nil _).symm, by simp⟩
  | cons part rest ih =>
    have named' : ∀ name, .name name ∈ rest → P name := fun name mem => named name (List.mem_cons_of_mem _ mem)
    have one {name : String} (valid : P name) {found : List Path}
        (described : tree.matchesFrom onlyDirectories (here.under [name]) rest = .ok found) (mem : path ∈ found) :
        ∃ extra, path = here.under extra ∧ ∀ name ∈ extra, P name := by
      obtain ⟨extra, rfl, valid'⟩ := ih named' described mem
      exact ⟨name :: extra, Path.under_under _ _ _, List.forall_mem_cons.2 ⟨valid, valid'⟩⟩
    cases part with
    | name name =>
      rw [matchesFrom] at described
      have valid := named name List.mem_cons_self
      have go {asked : Except FileError Bool} (described : (do
          if ← asked then tree.matchesFrom onlyDirectories (here.under [name]) rest else return []) = Except.ok found) :
          ∃ extra, path = here.under extra ∧ ∀ name ∈ extra, P name := by
        obtain ⟨answer, -, described⟩ := bind_eq_ok_iff.1 described
        split at described
        · exact one valid described mem
        · obtain rfl := Except.ok.inj described
          cases mem
      split at described
      · exact go described
      · exact go described
    | wildcard pattern =>
      rw [matchesFrom] at described
      obtain ⟨lists, ran, described⟩ := bind_eq_ok_iff.1 described
      obtain rfl := Except.ok.inj described
      obtain ⟨list, listed, mem⟩ := List.mem_flatten.1 mem
      obtain ⟨name, within, described⟩ := exists_of_mapM_eq_ok ran list listed
      obtain ⟨answer, -, described⟩ := bind_eq_ok_iff.1 described
      have valid := entries name (isEntryName_of_mem_namesIn sound within)
      split at described
      · exact one valid described mem
      · obtain rfl := Except.ok.inj described
        cases mem
    | anyDepth =>
      rw [matchesFrom] at described
      obtain ⟨lists, ran, described⟩ := bind_eq_ok_iff.1 described
      obtain rfl := Except.ok.inj described
      rw [List.mem_eraseDups] at mem
      obtain ⟨list, listed, mem⟩ := List.mem_flatten.1 mem
      obtain ⟨names, within, described⟩ := exists_of_mapM_eq_ok ran list listed
      have valid := areNames_of_mem_directoriesBelow sound within
      obtain ⟨extra, rfl, valid'⟩ := ih named' described mem
      exact ⟨names ++ extra, Path.under_under _ _ _, List.forall_mem_append.2 ⟨fun name mem => entries name (valid name mem), valid'⟩⟩

/-- A path that is found leads on from the directory that was searched. -/
theorem exists_extra_of_mem_search (sound : tree.WellFormed) {directory path : Path} {pattern : PathPattern}
    (named : ∀ name, .name name ∈ pattern.parts → P name) {found : List Path} (searched : tree.search directory pattern = .ok found)
    (mem : path ∈ found) : ∃ extra, path = directory.under extra ∧ ∀ name ∈ extra, P name := by
  obtain ⟨list, described, listed⟩ := exists_matches_of_mem_search searched mem
  exact exists_extra_of_mem_matchesFrom entries sound named described listed

end matchesFrom

/-- A path at any depth whose last name a wildcard describes. -/
theorem exists_name_of_mem_search (sound : tree.WellFormed) {directory path : Path} {pattern : PathPattern} {wildcard : String}
    (parts : pattern.parts = [.anyDepth, .wildcard wildcard]) {found : List Path} (searched : tree.search directory pattern = .ok found)
    (mem : path ∈ found) :
    ∃ outer name, path = directory.under (outer ++ [name]) ∧ AreNames outer ∧ IsEntryName name ∧
      Wildcard.matchesName wildcard name = true := by
  obtain ⟨list, described, listed⟩ := exists_matches_of_mem_search searched mem
  rw [parts, matchesFrom] at described
  obtain ⟨lists, ran, described⟩ := bind_eq_ok_iff.1 described
  obtain rfl := Except.ok.inj described
  rw [List.mem_eraseDups] at listed
  obtain ⟨list, mem, listed⟩ := List.mem_flatten.1 listed
  obtain ⟨outer, below, described⟩ := exists_of_mapM_eq_ok ran list mem
  rw [matchesFrom] at described
  obtain ⟨lists, ran, described⟩ := bind_eq_ok_iff.1 described
  obtain rfl := Except.ok.inj described
  obtain ⟨list, mem, listed⟩ := List.mem_flatten.1 listed
  obtain ⟨name, within, described⟩ := exists_of_mapM_eq_ok ran list mem
  obtain ⟨answer, -, described⟩ := bind_eq_ok_iff.1 described
  split at described
  · next taken =>
    obtain rfl := Except.ok.inj described
    obtain rfl := List.mem_singleton.1 listed
    exact ⟨outer, name, Path.under_under _ _ _, areNames_of_mem_directoriesBelow sound below,
      isEntryName_of_mem_namesIn sound within, (Bool.and_eq_true_iff.1 taken).2⟩
  · obtain rfl := Except.ok.inj described
    cases listed

end FileTree

end WasmPackaging
