import WasmPackaging.Proofs.FileTree.Fitting

/-!
Ways through a tree with links. A walk over some parts and more passes a directory between them (`exists_of_walk_append`,
`Reaches.split_directory`), so what a path names is decided by the directory that its front leads into and by its last name
(`locate_under`). Where no link stands on the way down to a location, the location itself is what its path names
(`Unlinked.locate_eq`) and where it resolves to (`Unlinked.resolve_eq`).
-/

namespace WasmPackaging.FileTree

variable {tree : FileTree}

/-! ## The directory between the parts of a way -/

/-- A walk over more than its first parts passes the directory that they lead into. -/
theorem exists_of_walk_append {follow : Bool} {limit : Nat} {place : Location} {parts rest : List String} {end_ : Found}
    (sound : tree.WellFormed) (start : tree.lookup place = some .directory) (filled : rest ≠ [])
    (walked : tree.walk follow limit place (parts ++ rest) = .ok end_) :
    ∃ n ≤ limit, ∃ middle, tree.Reaches n place parts middle ∧ tree.lookup middle = some .directory ∧
      tree.walk follow (limit - n) middle rest = .ok end_ := by
  induction limit using Nat.strongRecOn generalizing place parts with
  | _ limit fewer =>
  induction parts generalizing place with
  | nil => exact ⟨0, Nat.zero_le _, place, .here place, start, walked⟩
  | cons part parts ih =>
    rw [List.cons_append] at walked
    have more : parts ++ rest ≠ [] := by simp [filled]
    obtain blank | rfl | step | ⟨valid, other, long⟩ := part_cases part
    · rw [walk_stay blank] at walked
      obtain ⟨n, enough, middle, reaches, onward⟩ := ih start walked
      exact ⟨n, enough, middle, .stay blank reaches, onward⟩
    · rw [walk_up] at walked
      obtain ⟨n, enough, middle, reaches, onward⟩ := ih (sound.directory_dropLast start) walked
      exact ⟨n, enough, middle, .up reaches, onward⟩
    · rw [walk_step step] at walked
      split at walked
      · simp [more] at walked
      · next entry =>
        obtain ⟨n, enough, middle, reaches, onward⟩ := ih entry walked
        exact ⟨n, enough, middle, .down step entry reaches, onward⟩
      · simp [more] at walked
      · next target entry =>
        simp only [more, false_and, if_false] at walked
        cases limit with
        | zero => cases walked
        | succ limit =>
          rw [← List.append_assoc] at walked
          obtain ⟨n, enough, middle, reaches, directory, onward⟩ :=
            fewer limit (Nat.lt_succ_self _) (lookup_linkStart start target) walked
          refine ⟨n + 1, Nat.succ_le_succ enough, middle, .link step entry reaches, directory, ?_⟩
          rwa [Nat.add_sub_add_right]
    · rw [walk_of_nameTooLong valid other long] at walked
      cases walked

theorem found_inj {location other : Location} (same : tree.found location = tree.found other) : location = other := by
  unfold found at same
  split at same <;> split at same <;> simp_all

/-- Parts lead on from the directory that the first of them lead into. -/
theorem Reaches.split_directory {n : Nat} {place goal : Location} {parts rest : List String} (sound : tree.WellFormed)
    (start : tree.lookup place = some .directory) (filled : rest ≠ []) (reaches : tree.Reaches n place (parts ++ rest) goal) :
    ∃ m k middle, n = m + k ∧ tree.Reaches m place parts middle ∧ tree.lookup middle = some .directory ∧
      tree.Reaches k middle rest goal := by
  have walked := walk_of_reaches sound start reaches (Nat.le_refl n)
  obtain ⟨m, -, middle, before, directory, onward⟩ := exists_of_walk_append sound start filled walked
  obtain ⟨k, -, goal', behind, same⟩ := reaches_of_walk sound directory onward
  obtain rfl := found_inj same
  obtain ⟨sum, -⟩ := reaches.unique (before.append behind directory)
  exact ⟨m, k, middle, sum, before, directory, behind⟩

@[simp] theorem start_under (tree : FileTree) (p : Path) (parts : List String) :
    tree.start (p.under parts) = tree.start p := rfl

/-- A path leads to a directory. -/
structure LeadsInto (tree : FileTree) (root : Path) (base : Location) : Prop where
  reached : ∃ n ≤ linkLimit, tree.Reaches n (tree.start root) root.steps base
  directory : tree.lookup base = some .directory

theorem LeadsInto.unique {path : Path} {base other : Location} (leads : tree.LeadsInto path base)
    (leads' : tree.LeadsInto path other) : base = other := by
  obtain ⟨n, -, reaches⟩ := leads.reached
  obtain ⟨m, -, reaches'⟩ := leads'.reached
  exact (reaches.unique reaches').2

/-- The front of a path that leads somewhere by more names leads into a directory. -/
theorem leadsInto_of_follow (sound : tree.WellFormed) {path : Path} {rest : List String} {goal : Location} (named : AreNames rest)
    (filled : rest ≠ []) (leads : tree.follow (path.under rest) = .ok (tree.found goal)) :
    ∃ base, tree.LeadsInto path base ∧ ∃ n, tree.Reaches n base rest goal := by
  obtain ⟨-, n, enough, goal', reaches, same⟩ := (follow_eq_ok_iff sound).1 leads
  obtain rfl := found_inj same
  rw [start_under, Path.steps_under path named] at reaches
  obtain ⟨m, k, base, sum, before, directory, behind⟩ := reaches.split_directory sound (lookup_start sound path) filled
  exact ⟨base, ⟨⟨m, by omega, before⟩, directory⟩, k, behind⟩

theorem LeadsInto.follow_eq (sound : tree.WellFormed) {path : Path} {base : Location} (leads : tree.LeadsInto path base)
    (fine : pathFault? path = none) : tree.follow path = .ok (.entry base .directory) := by
  obtain ⟨n, enough, reaches⟩ := leads.reached
  exact (follow_eq_ok_iff sound).2 ⟨fine, n, enough, base, reaches, (found_of_directory leads.directory).symm⟩

/-- The front of a path that leads somewhere by more names leads to a directory. -/
theorem exists_base_of_follow_under (sound : tree.WellFormed) {path : Path} {rest : List String} {goal : Location} (named : AreNames rest)
    (filled : rest ≠ []) (leads : tree.follow (path.under rest) = .ok (tree.found goal)) :
    ∃ base n, tree.follow path = .ok (.entry base .directory) ∧ tree.Reaches n base rest goal := by
  obtain ⟨fine, -⟩ := (follow_eq_ok_iff sound).1 leads
  obtain ⟨base, into, n, behind⟩ := leadsInto_of_follow sound named filled leads
  have front := @pathFault?_under path [] rest fine
  rw [Path.under_nil] at front
  exact ⟨base, n, into.follow_eq sound front, behind⟩

theorem lookup_of_follow (sound : tree.WellFormed) {path : Path} {place : Location} {entry : Entry}
    (leads : tree.follow path = .ok (.entry place entry)) : tree.lookup place = some entry := by
  obtain ⟨-, n, -, goal, -, same⟩ := (follow_eq_ok_iff sound).1 leads
  obtain ⟨rfl, there⟩ := found_eq_entry_iff.1 same.symm
  exact there

theorem leadsInto_of_entry (sound : tree.WellFormed) {path : Path} {base : Location} (leads : tree.follow path = .ok (.entry base .directory)) :
    tree.LeadsInto path base := by
  obtain ⟨-, n, enough, goal, reaches, same⟩ := (follow_eq_ok_iff sound).1 leads
  obtain ⟨rfl, directory⟩ := found_eq_entry_iff.1 same.symm
  exact ⟨⟨n, enough, reaches⟩, directory⟩

/-- A path that leads on by names to a directory leads to a directory. -/
theorem asksDirectory_of_under (sound : tree.WellFormed) {path : Path} {names : List String} (named : AreNames names)
    (asked : tree.asksDirectory (path.under names) = .ok true) : tree.asksDirectory path = .ok true := by
  by_cases filled : names = []
  · rwa [filled, Path.under_nil] at asked
  · obtain ⟨place, leads⟩ := asksDirectory_eq_true_iff.1 asked
    rw [← found_of_directory (lookup_of_follow sound leads)] at leads
    obtain ⟨base, -, leads', -⟩ := exists_base_of_follow_under sound named filled leads
    exact asksDirectory_eq_true_iff.2 ⟨base, leads'⟩

/-- Something stands under the first of some names that lead to an entry. -/
theorem Reaches.first_ne_none {n : Nat} {place goal : Location} {name : String} {rest : List String} (valid : IsEntryName name)
    (reaches : tree.Reaches n place (name :: rest) goal) (present : tree.lookup goal ≠ none) : tree.lookup (place ++ [name]) ≠ none := by
  cases reaches with
  | stay blank => simp [valid.1] at blank
  | up => exact absurd rfl valid.2.1
  | down _ entry => simp [entry]
  | last => exact present
  | link _ entry => simp [entry]

/-- What a path names stands under its last name in the directory that its front leads into. -/
theorem locate_under (sound : tree.WellFormed) {path : Path} {name : String} {end_ : Found} (valid : IsEntryName name)
    (located : tree.locate (path.under [name]) = .ok end_) :
    IsStep name ∧ ∃ directory, tree.LeadsInto path directory ∧ end_ = tree.found (directory ++ [name]) := by
  have named : AreNames [name] := by simpa using valid
  have walked := (locate_eq_ok_iff.1 located).2
  rw [start_under, Path.steps_under path named] at walked
  obtain ⟨n, enough, directory, reaches, there, last⟩ :=
    exists_of_walk_append sound (lookup_start sound path) (List.cons_ne_nil name []) walked
  obtain blank | up | step | ⟨-, -, long⟩ := part_cases name
  · simp [valid.1] at blank
  · exact absurd up valid.2.1
  · refine ⟨step, directory, ⟨⟨n, enough, reaches⟩, there⟩, ?_⟩
    rw [walk_step step] at last
    split at last
    · next entry => simpa [found, entry] using last.symm
    · next entry => simpa [found, entry] using last.symm
    · next entry => simpa [found, entry] using last.symm
    · next target entry => simpa [found, entry] using last.symm
  · rw [walk_of_nameTooLong valid.1 valid.2.1 long] at last
    cases last

/-! ## Locations that no link leads away from -/

/-- Names resolve to the place that they spell when no link stands on the way. -/
theorem resolveFrom_names {trail : Trail} {place : Location} {names : List String} (named : AreNames names)
    (unlinked : ∀ front, front <+: names → ∀ target, tree.lookup (place ++ front) ≠ some (.link target)) (tasks : List Task) :
    tree.resolveFrom trail place (names.map .part ++ tasks) = tree.resolveFrom trail (place ++ names) tasks := by
  induction names generalizing place with
  | nil => simp
  | cons name names ih =>
    obtain ⟨valid, named'⟩ := areNames_cons.1 named
    rw [List.map_cons, List.cons_append, resolveFrom_down valid.1 valid.2.1 (unlinked [name] (by simp)), ih named' ?_, List.append_assoc,
      List.singleton_append]
    intro front within
    rw [List.append_assoc]
    exact unlinked (name :: front) (List.cons_prefix_cons.2 ⟨rfl, within⟩)

theorem unlinked_of_directory (sound : tree.WellFormed) {location : Location} (directory : tree.lookup location = some .directory) :
    tree.Unlinked location := by
  rintro place ⟨rest, rfl⟩ target there
  simp [sound.directory_above directory] at there

/-- A path that leads on by names to a directory leads to the one that they spell. -/
theorem eq_of_follow_under (sound : tree.WellFormed) {path : Path} {base place : Location} {names : List String} {entry : Entry}
    (leads : tree.follow path = .ok (.entry base .directory)) (inside : tree.lookup (base ++ names) = some .directory)
    (onward : tree.follow (path.under names) = .ok (.entry place entry)) : place = base ++ names := by
  by_cases filled : names = []
  · subst filled
    rw [Path.under_nil, leads] at onward
    cases onward
    exact (List.append_nil _).symm
  · have named := (areNames_append.1 (sound.areNames (by simp [inside] : tree.lookup (base ++ names) ≠ none))).2
    have whole : tree.found place = .entry place entry := found_eq_entry_iff.2 ⟨rfl, lookup_of_follow sound onward⟩
    obtain ⟨base', n, leads', reaches⟩ := exists_base_of_follow_under sound named filled (whole ▸ onward)
    rw [leads] at leads'
    cases leads'
    refine (reaches_eq_of_unlinked named (fun front within => ?_) reaches).2
    exact (unlinked_of_directory sound inside) _ ((List.prefix_append_right_inj base).2 within)

namespace Unlinked

variable {location : Location} (unlinked : tree.Unlinked location)

include unlinked

section

variable (sound : tree.WellFormed) (named : AreNames location)

include sound named

/-- What the path to a location names stands there. -/
theorem locate_eq {end_ : Found} (located : tree.locate (.ofLocation location) = .ok end_) : end_ = tree.found location := by
  by_cases filled : location = []
  · subst filled
    have walked := (locate_eq_ok_iff.1 located).2
    rw [Path.steps_ofLocation areNames_nil, walk_nil] at walked
    exact (Except.ok.inj walked).symm
  · obtain ⟨outer, name, rfl⟩ : ∃ outer name, location = outer ++ [name] := ⟨_, _, (List.dropLast_concat_getLast filled).symm⟩
    have spelled : Path.ofLocation (outer ++ [name]) = (Path.ofLocation outer).under [name] := rfl
    obtain ⟨named', valid⟩ := areNames_append.1 named
    obtain ⟨-, base, leads, rfl⟩ := locate_under sound (by simpa using valid) (spelled ▸ located)
    obtain ⟨n, -, reaches⟩ := leads.reached
    rw [Path.steps_ofLocation named'] at reaches
    obtain ⟨-, rfl⟩ := @reaches_eq_of_unlinked tree n [] base outer named' (fun front within => unlinked _ (within.trans (List.prefix_append _ _))) reaches
    rfl

theorem erase_of_unlink {after : FileTree} (removed : tree.unlink (.ofLocation location) = .ok after) :
    after = tree.erase location ∧ tree.lookup location ≠ some .directory := by
  unfold unlink at removed
  split at removed
  · cases removed
  · next place entry solid located =>
    obtain ⟨rfl, there⟩ := found_eq_entry_iff.1 (unlinked.locate_eq sound named located).symm
    exact ⟨(Except.ok.inj removed).symm, by rw [there]; simpa using solid⟩
  · cases removed
  · cases removed

end

/-- The real location of the path to a location is the location. -/
theorem resolve_eq (named : AreNames location) {place : Location} (resolved : tree.resolve (.ofLocation location) = .ok place) :
    place = location := by
  have led : tree.resolveFrom [] [] (location.map .part) = location := by
    have whole := @resolveFrom_names tree [] [] location named unlinked []
    rwa [List.append_nil, List.nil_append, resolveFrom] at whole
  have start : tree.start (.ofLocation location) = [] := rfl
  rw [resolve, start, Path.steps_ofLocation named, led] at resolved
  split at resolved
  · cases resolved
  · simp only at resolved
    split at resolved
    · cases resolved
    · exact (Except.ok.inj resolved).symm

end Unlinked

/-! ## Names of real locations -/

/-- Parts without slashes resolve to a location with names that entries can have. -/
theorem areNames_resolveFrom {trail : Trail} {place : Location} {tasks : List Task} (named : AreNames place)
    (known : ∀ link goal, List.lookup link trail = some (some goal) → AreNames goal)
    (plain : ∀ part, .part part ∈ tasks → '/' ∉ part.toList) : AreNames (tree.resolveFrom trail place tasks) := by
  have further (place : Location) {name : String} (named : AreNames place) (valid : ¬(!isPart name) = true) (other : ¬name = parentStep)
      (plain : '/' ∉ name.toList) : AreNames (place ++ [name]) :=
    areNames_append.2 ⟨named, by simpa using ⟨by simpa using valid, other, plain⟩⟩
  fun_induction resolveFrom tree trail place tasks with
  | case1 => exact named
  | case2 trail place link rest ih =>
    refine ih named (fun other goal => ?_) fun part mem => plain part (List.mem_cons_of_mem _ mem)
    rw [List.lookup_cons]
    split
    · rintro ⟨rfl⟩
      exact named
    · exact known other goal
  | case3 trail place name rest _ ih => exact ih named known fun part mem => plain part (List.mem_cons_of_mem _ mem)
  | case4 trail place rest _ ih => exact ih named.dropLast known fun part mem => plain part (List.mem_cons_of_mem _ mem)
  | case5 trail place name rest valid other here target entry met goal found ih =>
    exact ih (known _ _ found) known fun part mem => plain part (List.mem_cons_of_mem _ mem)
  | case6 trail place name rest valid other here target entry met unknown =>
    refine Path.areNames_normalizeFrom (further place named valid other (plain name List.mem_cons_self)) fun part mem => ?_
    obtain ⟨listed, valid'⟩ := List.mem_filter.1 mem
    obtain ⟨task, mem', same⟩ := List.mem_filterMap.1 listed
    rcases task with other | link
    · obtain rfl := Option.some.inj same
      exact ⟨valid', plain _ (List.mem_cons_of_mem _ mem')⟩
    · cases same
  | case7 trail place name rest valid other here target entry unmet ih =>
    refine ih ?_ (fun link goal => ?_) fun part mem => ?_
    · unfold linkStart
      split
      · exact named
      · exact areNames_nil
    · rw [List.lookup_cons]
      split
      · simp
      · exact known link goal
    · obtain inside | later := List.mem_append.1 mem
      · obtain ⟨text, mem', same⟩ := List.mem_map.1 inside
        obtain rfl := Task.part.inj same
        exact not_mem_of_mem_slashed mem'
      · exact plain part (List.mem_cons_of_mem _ ((List.mem_cons.1 later).resolve_left (by simp)))
  | case8 trail place name rest valid other here none_ ih =>
    exact ih (further place named valid other (plain name List.mem_cons_self)) known fun part mem => plain part (List.mem_cons_of_mem _ mem)

theorem areNames_resolve (sound : tree.WellFormed) {path : Path} {location : Location} (resolved : tree.resolve path = .ok location) :
    AreNames location := by
  unfold resolve at resolved
  split at resolved
  · cases resolved
  · simp only at resolved
    split at resolved
    · cases resolved
    · obtain rfl := Except.ok.inj resolved
      refine areNames_resolveFrom (sound.areNames (by simp [lookup_start sound path])) (by simp) fun part mem => ?_
      obtain ⟨name, inside, same⟩ := List.mem_map.1 mem
      obtain rfl := Task.part.inj same
      exact Path.not_mem_of_mem_steps inside

end WasmPackaging.FileTree
