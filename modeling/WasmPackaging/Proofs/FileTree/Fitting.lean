import Mathlib.Data.List.Nodup
import Mathlib.Data.List.Perm.Subperm
import Mathlib.Data.Nat.Digits.Defs
import WasmPackaging.Proofs.FileTree.LinkFree

/-!
Paths to locations. Whether the path to a location can be looked up does not depend on the tree (`Fits`), and there are
finitely many that can (`length_le_of_fine`). Where no link stands on the way down to a location, its path leads there and
nowhere else (`Unlinked.follow_eq`). In a tree without links, what each single operation does then depends on what stands
at the location and in the directory around it (`read_ofLocation_iff`, `write_ofLocation_iff`, `move_ofLocation_iff`).
-/

namespace WasmPackaging.FileTree

open Text

variable {tree after : FileTree} {location outer : Location}

/-! ## Locations that can be looked up -/

/-- A location whose path can be looked up, in a tree that has all that leads there. -/
structure Fits (location : Location) : Prop where
  named : AreNames location
  fine : pathFault? (.ofLocation location) = none
  steps : ∀ name ∈ location, IsStep name

instance : DecidablePred Fits := fun location =>
  decidable_of_iff (AreNames location ∧ pathFault? (.ofLocation location) = none ∧ ∀ name ∈ location, IsStep name)
    ⟨fun ⟨named, fine, steps⟩ => ⟨named, fine, steps⟩, fun fits => ⟨fits.named, fits.fine, fits.steps⟩⟩

theorem utf8ByteSize_intercalate_le (parts rest : List String) :
    ("/".intercalate parts).utf8ByteSize ≤ ("/".intercalate (parts ++ rest)).utf8ByteSize := by
  induction parts with
  | nil => simp
  | cons part parts ih =>
    cases parts with
    | nil =>
      cases rest with
      | nil => simp
      | cons next rest =>
        rw [List.singleton_append, String.intercalate_cons_cons, String.intercalate_singleton, String.utf8ByteSize_append,
          String.utf8ByteSize_append]
        omega
    | cons next parts =>
      rw [List.cons_append, List.cons_append, String.intercalate_cons_cons, String.intercalate_cons_cons]
      simp only [String.utf8ByteSize_append]
      exact Nat.add_le_add_left ih _

theorem toString_under_le (p : Path) (names rest : List String) :
    (p.under names).toString.utf8ByteSize ≤ (p.under (names ++ rest)).toString.utf8ByteSize ∨ (p.under names).toString = "." := by
  by_cases bare : p.anchor = .relative ∧ p.parts ++ names = []
  · right
    simp [Path.toString, Path.under, bare]
  · left
    have bare' : ¬ (p.anchor = .relative ∧ p.parts ++ (names ++ rest) = []) := by
      rintro ⟨relative, empty⟩
      refine bare ⟨relative, ?_⟩
      simp_all
    simp only [Path.toString, Path.under, bare, bare', if_false, String.utf8ByteSize_append]
    have longer := utf8ByteSize_intercalate_le (p.parts ++ names) rest
    rw [← List.append_assoc]
    omega

/-- The front of a path that can be looked up can be looked up. -/
theorem pathFault?_under {p : Path} {names rest : List String} (fine : pathFault? (p.under (names ++ rest)) = none) :
    pathFault? (p.under names) = none := by
  unfold pathFault? at fine ⊢
  split at fine
  · cases fine
  · next zero =>
    split at fine
    · cases fine
    · next short =>
      have zero' : ¬ (p.under names).holdsZero = true := by
        intro held
        refine zero ?_
        simp only [Path.holdsZero, Path.under, List.any_append, Bool.or_eq_true] at held ⊢
        exact held.imp_right .inl
      have short' : ¬ longestPath < (p.under names).toString.utf8ByteSize := by
        obtain shorter | bare := toString_under_le p names rest
        · omega
        · rw [bare]
          decide
      rw [if_neg zero', if_neg short']

theorem Fits.above {rest : List String} (fits : Fits (outer ++ rest)) : Fits outer := by
  refine ⟨(areNames_append.1 fits.named).1, ?_, fun name mem => fits.steps name (List.mem_append_left _ mem)⟩
  exact pathFault?_under (p := .ofLocation []) fits.fine

/-- A path that can be looked up leads where its names do. -/
theorem follow_ofLocation_eq_walk (tree : FileTree) (named : AreNames location) (fine : pathFault? (.ofLocation location) = none) :
    tree.follow (.ofLocation location) = tree.walk true linkLimit [] location := by
  have start : tree.start (.ofLocation location) = [] := rfl
  unfold follow
  rw [fine, start, Path.steps_ofLocation named]

/-! ## How many locations can be looked up -/

/-- A character as a digit. -/
def digit (c : Char) : Nat := c.toNat + 2

/-- A location as digits: the characters of each name behind a sign of its own. -/
def digits (location : Location) : List Nat := location.flatMap fun name => 1 :: name.toList.map digit

theorem digit_injective : Function.Injective digit := fun _ _ same => Char.toNat_inj.1 (Nat.add_right_cancel same)

theorem digits_injective : Function.Injective digits := by
  intro a b same
  have front (name : String) (rest : Location) :
      (name.toList.map digit ++ digits rest).takeWhile (2 ≤ ·) = name.toList.map digit := by
    rw [List.takeWhile_append_of_pos (by simp [digit])]
    cases rest <;> simp [digits]
  induction a generalizing b with
  | nil =>
    cases b with
    | nil => rfl
    | cons name b => simp [digits] at same
  | cons name a ih =>
    cases b with
    | nil => simp [digits] at same
    | cons other b =>
      have tails : name.toList.map digit ++ digits a = other.toList.map digit ++ digits b := List.tail_eq_of_cons_eq same
      have heads : name.toList.map digit = other.toList.map digit := by rw [← front name a, tails, front]
      rw [String.toList_inj.1 (digit_injective.list_map heads), ih (List.append_cancel_left (heads ▸ tails))]

theorem bounds_of_mem_digits {location : Location} : ∀ n ∈ digits location, 0 < n ∧ n < 0x110002 := by
  simp only [digits, List.mem_flatMap, List.mem_cons, List.mem_map]
  rintro _ ⟨name, -, rfl | ⟨c, -, rfl⟩⟩
  · decide
  · have valid : c.toNat.isValidChar := c.valid
    unfold Nat.isValidChar at valid
    unfold digit
    omega

theorem length_toList_le (s : String) : s.toList.length ≤ s.utf8ByteSize := by
  induction s using String.push_induction with
  | empty => simp
  | push s c ih =>
    have := c.utf8Size_pos
    simp at *
    omega

/-- The path to a location has a byte for each digit at least. -/
theorem length_digits_le (location : Location) : (digits location).length ≤ (Path.ofLocation location).toString.utf8ByteSize := by
  have counted (name : String) (names : Location) :
      (digits (name :: names)).length ≤ ("/".intercalate (name :: names)).utf8ByteSize + 1 := by
    induction names generalizing name with
    | nil =>
      have := length_toList_le name
      simp [digits] at *
      omega
    | cons next names ih =>
      have later := ih next
      have := length_toList_le name
      have slash : "/".utf8ByteSize = 1 := rfl
      rw [String.intercalate_cons_cons, String.utf8ByteSize_append, String.utf8ByteSize_append]
      simp [digits] at *
      omega
  cases location with
  | nil => simp [digits]
  | cons name names =>
    have := counted name names
    have slash : "/".utf8ByteSize = 1 := rfl
    simp [Path.toString, Path.ofLocation, Anchor.text, String.utf8ByteSize_append]
    omega

/-- There are no more locations with few digits than numbers with as many. -/
theorem length_le_of_short {places : List Location} {limit : Nat} (distinct : places.Nodup)
    (short : ∀ place ∈ places, (digits place).length ≤ limit) : places.length ≤ pathCount limit := by
  let number (place : Location) : Nat := Nat.ofDigits 0x110002 (digits place)
  have small : ∀ place ∈ places, number place < 0x110002 ^ limit := fun place mem =>
    (Nat.ofDigits_lt_base_pow_length (by decide) fun n mem => (bounds_of_mem_digits n mem).2).trans_le
      (Nat.pow_le_pow_right (by decide) (short place mem))
  have number_injective : Function.Injective number := by
    intro a b same
    have read (place : Location) : Nat.digits 0x110002 (number place) = digits place :=
      Nat.digits_ofDigits _ (by decide) _ (fun n mem => (bounds_of_mem_digits n mem).2)
        fun filled => (bounds_of_mem_digits _ (List.getLast_mem filled)).1.ne'
    exact digits_injective (by rw [← read a, ← read b, same])
  have numbers : (places.map number).Nodup := List.Nodup.map number_injective distinct
  have listed : places.map number ⊆ List.range (0x110002 ^ limit) := by
    intro n numbered
    obtain ⟨place, mem, rfl⟩ := List.mem_map.1 numbered
    exact List.mem_range.2 (small place mem)
  rw [pathCount, Nat.pow_eq]
  simpa using (List.subperm_of_subset numbers listed).length_le

/-- The locations with a path that can be looked up have no more digits than a path has bytes. -/
theorem length_le_of_fine {places : List Location} (distinct : places.Nodup)
    (fine : ∀ place ∈ places, pathFault? (.ofLocation place) = none) : places.length ≤ pathCount longestPath := by
  refine length_le_of_short distinct fun place mem => ?_
  have fits := fine place mem
  unfold pathFault? at fits
  have := length_digits_le place
  split at fits
  · cases fits
  · split at fits
    · cases fits
    · omega

/-! ## Locations that no link leads away from -/

/-- No link stands at a location or on the way down to it. -/
def Unlinked (tree : FileTree) (location : Location) : Prop :=
  ∀ place, place <+: location → ∀ target, tree.lookup place ≠ some (.link target)

/-- Names lead where they spell when no link stands on the way. -/
theorem reaches_eq_of_unlinked {n : Nat} {place goal : Location} {names : List String} (named : AreNames names)
    (unlinked : ∀ front, front <+: names → ∀ target, tree.lookup (place ++ front) ≠ some (.link target))
    (reaches : tree.Reaches n place names goal) : n = 0 ∧ goal = place ++ names := by
  induction names generalizing n place with
  | nil =>
    cases reaches
    simp
  | cons name names ih =>
    obtain ⟨valid, named'⟩ := areNames_cons.1 named
    cases reaches with
    | stay blank => simp [valid.1] at blank
    | up => exact absurd rfl valid.2.1
    | down _ _ onward =>
      have unlinked' : ∀ front, front <+: names → ∀ target, tree.lookup ((place ++ [name]) ++ front) ≠ some (.link target) := by
        intro front within
        rw [List.append_assoc]
        exact unlinked (name :: front) (List.cons_prefix_cons.2 ⟨rfl, within⟩)
      simpa using ih named' unlinked' onward
    | last => simp
    | link _ entry => exact absurd entry (unlinked [name] (by simp) _)

namespace Unlinked

variable (unlinked : tree.Unlinked location)

include unlinked

theorem above {rest : List String} (same : location = outer ++ rest) : tree.Unlinked outer :=
  fun place within => unlinked place (within.trans ⟨rest, same.symm⟩)

theorem ne_link (target : String) : tree.lookup location ≠ some (.link target) := unlinked location (List.prefix_refl location) target

variable (sound : tree.WellFormed) (named : AreNames location)

include sound named

/-- The path to a location leads there and nowhere else. -/
theorem follow_eq {end_ : Found} (leads : tree.follow (.ofLocation location) = .ok end_) : Fits location ∧ end_ = tree.found location := by
  obtain ⟨fine, n, -, goal, reaches, rfl⟩ := (follow_eq_ok_iff sound).1 leads
  rw [Path.steps_ofLocation named] at reaches
  obtain ⟨-, rfl⟩ := @reaches_eq_of_unlinked tree n [] _ location named unlinked reaches
  exact ⟨⟨named, fine, fun name mem => reaches.isStep mem (named name mem)⟩, rfl⟩

theorem follow_entry_iff {place : Location} {entry : Entry} :
    tree.follow (.ofLocation location) = .ok (.entry place entry) ↔ Fits location ∧ place = location ∧ tree.lookup location = some entry := by
  constructor
  · intro leads
    obtain ⟨fits, there⟩ := unlinked.follow_eq sound named leads
    obtain ⟨rfl, present⟩ := found_eq_entry_iff.1 there.symm
    exact ⟨fits, rfl, present⟩
  · rintro ⟨fits, rfl, present⟩
    exact follow_of_steps sound present (fun target same => unlinked.ne_link target (same ▸ present)) fits.fine fits.steps

/-- What the path to a location leads to is what stands there. -/
theorem leads_iff {entry : Entry} :
    (∃ place, tree.follow (.ofLocation location) = .ok (.entry place entry)) ↔ Fits location ∧ tree.lookup location = some entry := by
  constructor
  · rintro ⟨place, leads⟩
    obtain ⟨fits, -, present⟩ := (unlinked.follow_entry_iff sound named).1 leads
    exact ⟨fits, present⟩
  · rintro ⟨fits, present⟩
    exact ⟨location, (unlinked.follow_entry_iff sound named).2 ⟨fits, rfl, present⟩⟩

theorem read_iff {content : Bytes} :
    tree.read (.ofLocation location) = .ok content ↔ Fits location ∧ tree.lookup location = some (.file content) :=
  read_eq_ok_iff.trans (unlinked.leads_iff sound named)

theorem isDirectory_iff : tree.isDirectory (.ofLocation location) = true ↔ Fits location ∧ tree.lookup location = some .directory :=
  isDirectory_eq_true_iff.trans (unlinked.leads_iff sound named)

theorem asks_iff {test : Entry → Bool} :
    tree.asks (.ofLocation location) test = .ok true ↔ Fits location ∧ ∃ entry, tree.lookup location = some entry ∧ test entry = true := by
  rw [asks_eq_true_iff]
  constructor
  · rintro ⟨place, entry, leads, passed⟩
    obtain ⟨fits, present⟩ := (unlinked.leads_iff sound named).1 ⟨place, leads⟩
    exact ⟨fits, entry, present, passed⟩
  · rintro ⟨fits, entry, present, passed⟩
    obtain ⟨place, leads⟩ := (unlinked.leads_iff sound named).2 ⟨fits, present⟩
    exact ⟨place, entry, leads, passed⟩

theorem exists?_iff : tree.exists? (.ofLocation location) = true ↔ Fits location ∧ tree.lookup location ≠ none := by
  rw [exists?_eq_true_iff, exists_comm, Option.ne_none_iff_exists']
  simp only [unlinked.leads_iff sound named, exists_and_left]

end Unlinked

theorem LinkFree.unlinked (free : tree.LinkFree) (location : Location) : tree.Unlinked location := fun place _ target => free place target

/-! ## Where paths lead without links -/

section

variable (sound : tree.WellFormed) (free : tree.LinkFree) (named : AreNames location)

include sound free named

theorem follow_ofLocation_ends {end_ : Found} (leads : tree.follow (.ofLocation location) = .ok end_) :
    Fits location ∧ end_ = tree.found location ∧ (tree.lookup location ≠ none ∨ tree.lookup location.dropLast = some .directory) := by
  have there := free.follow_eq sound leads
  have outer := free.exists_outer sound leads
  rw [straight_ofLocation named] at there outer
  obtain ⟨fine, n, -, goal, reaches, -⟩ := (follow_eq_ok_iff sound).1 leads
  rw [Path.steps_ofLocation named] at reaches
  refine ⟨⟨named, fine, fun name mem => reaches.isStep mem (named name mem)⟩, there, ?_⟩
  by_cases vacant : tree.lookup location = none
  · obtain ⟨outer, name, rfl, directory, -⟩ := outer (by simp [vacant])
    exact .inr (by rwa [List.dropLast_concat])
  · exact .inl vacant

theorem follow_entry_iff {place : Location} {entry : Entry} :
    tree.follow (.ofLocation location) = .ok (.entry place entry) ↔ Fits location ∧ place = location ∧ tree.lookup location = some entry :=
  (free.unlinked location).follow_entry_iff sound named

theorem follow_vacant_iff {place : Location} :
    tree.follow (.ofLocation location) = .ok (.vacant place) ↔
      Fits location ∧ place = location ∧ tree.lookup location = none ∧ tree.lookup location.dropLast = some .directory := by
  constructor
  · intro leads
    obtain ⟨fits, there, around⟩ := follow_ofLocation_ends sound free named leads
    obtain ⟨rfl, vacant⟩ := found_eq_vacant_iff.1 there.symm
    exact ⟨fits, rfl, vacant, around.resolve_left fun present => present vacant⟩
  · rintro ⟨fits, rfl, vacant, directory⟩
    refine (follow_eq_ok_iff sound).2 ⟨fits.fine, 0, Nat.zero_le _, place, ?_, (found_eq_vacant_iff.2 ⟨rfl, vacant⟩).symm⟩
    rw [Path.steps_ofLocation named]
    cases place using List.reverseRecOn with
    | nil => cases vacant
    | append_singleton outer name =>
      rw [List.dropLast_concat] at directory
      have way : tree.Reaches 0 [] outer ([] ++ outer) :=
        reaches_names sound (fun part mem => fits.steps part (List.mem_append_left _ mem)) (by simp [directory]) (by simp [directory])
      have step : tree.Reaches 0 outer [name] (outer ++ [name]) :=
        .last directory (fits.steps name (by simp)) (by simp [IsEnd, vacant])
      exact way.append step directory

/-! ## Single operations -/

theorem read_ofLocation_iff {content : Bytes} :
    tree.read (.ofLocation location) = .ok content ↔ Fits location ∧ tree.lookup location = some (.file content) :=
  (free.unlinked location).read_iff sound named

theorem isDirectory_ofLocation_iff :
    tree.isDirectory (.ofLocation location) = true ↔ Fits location ∧ tree.lookup location = some .directory :=
  (free.unlinked location).isDirectory_iff sound named

theorem exists_ofLocation_iff :
    tree.exists? (.ofLocation location) = true ↔ Fits location ∧ tree.lookup location ≠ none :=
  (free.unlinked location).exists?_iff sound named

theorem asks_ofLocation_true_iff {test : Entry → Bool} :
    tree.asks (.ofLocation location) test = .ok true ↔ Fits location ∧ ∃ entry, tree.lookup location = some entry ∧ test entry = true :=
  (free.unlinked location).asks_iff sound named

/-- A question about what stands at a location that can be looked up is answered. -/
theorem asks_ofLocation_of_present (fits : Fits location) {entry : Entry} (present : tree.lookup location = some entry)
    (test : Entry → Bool) : tree.asks (.ofLocation location) test = .ok (test entry) := by
  unfold asks
  rw [(follow_entry_iff sound free named).2 ⟨fits, rfl, present⟩]

theorem write_ofLocation_iff {content : Bytes} :
    tree.write (.ofLocation location) content = .ok after ↔
      Fits location ∧ tree.lookup location ≠ some .directory ∧ tree.lookup location.dropLast = some .directory ∧
        after = tree.put location (.file content) := by
  constructor
  · intro written
    have fits : Fits location := by
      unfold FileTree.write at written
      cases leads : tree.follow (.ofLocation location) with
      | error fault => simp [leads] at written
      | ok end_ => exact (follow_ofLocation_ends sound free named leads).1
    obtain ⟨same, solid, outer, name, whole, directory, -⟩ := free.write_eq sound written
    rw [straight_ofLocation named] at same solid whole
    exact ⟨fits, solid, by rwa [whole, List.dropLast_concat], same⟩
  · rintro ⟨fits, solid, directory, rfl⟩
    unfold FileTree.write
    rcases there : tree.lookup location with _ | content' | target | _
    · rw [(follow_vacant_iff sound free named).2 ⟨fits, rfl, there, directory⟩]
    · rw [(follow_entry_iff sound free named).2 ⟨fits, rfl, there⟩]
    · exact absurd there (free _ _)
    · exact absurd there solid

theorem makeDirectory_ofLocation_iff :
    tree.makeDirectory (.ofLocation location) = .ok after ↔
      Fits location ∧ tree.lookup location = none ∧ tree.lookup location.dropLast = some .directory ∧
        after = tree.put location .directory := by
  unfold makeDirectory vacancy
  rw [free.locate_eq]
  constructor
  · intro made
    split at made
    · next place leads =>
      obtain ⟨fits, rfl, vacant, directory⟩ := (follow_vacant_iff sound free named).1 leads
      exact ⟨fits, vacant, directory, (Except.ok.inj made).symm⟩
    all_goals cases made
  · rintro ⟨fits, vacant, directory, rfl⟩
    rw [(follow_vacant_iff sound free named).2 ⟨fits, rfl, vacant, directory⟩]
    rfl

theorem unlink_ofLocation_iff :
    tree.unlink (.ofLocation location) = .ok after ↔
      Fits location ∧ (∃ content, tree.lookup location = some (.file content)) ∧ after = tree.erase location := by
  unfold unlink
  rw [free.locate_eq]
  constructor
  · intro gone
    split at gone
    · cases gone
    · next place entry solid leads =>
      obtain ⟨fits, rfl, present⟩ := (follow_entry_iff sound free named).1 leads
      refine ⟨fits, ?_, (Except.ok.inj gone).symm⟩
      cases entry with
      | file content => exact ⟨content, present⟩
      | link target => exact absurd present (free _ _)
      | directory => exact absurd rfl solid
    all_goals cases gone
  · rintro ⟨fits, ⟨content, present⟩, rfl⟩
    rw [(follow_entry_iff sound free named).2 ⟨fits, rfl, present⟩]

end

/-- Moving a file over itself changes nothing; moving it elsewhere takes it from the one location to the other. -/
theorem move_ofLocation_iff (sound : tree.WellFormed) (free : tree.LinkFree) {source target : Location} (named : AreNames source)
    (named' : AreNames target) (apart : source ≠ target) :
    tree.move (.ofLocation source) (.ofLocation target) = .ok after ↔
      Fits source ∧ Fits target ∧ tree.lookup target ≠ some .directory ∧ tree.lookup target.dropLast = some .directory ∧
        ∃ content, tree.lookup source = some (.file content) ∧ after = (tree.erase source).put target (.file content) := by
  constructor
  · intro moved
    obtain ⟨content, from_, solid, ⟨outer, name, whole, directory, -⟩, same⟩ := free.move_eq sound moved
    rw [straight_ofLocation named] at from_ same
    rw [straight_ofLocation named'] at solid whole same
    unfold FileTree.move at moved
    rw [free.locate_eq, free.locate_eq] at moved
    cases leads : tree.follow (.ofLocation source) with
    | error fault => simp [leads] at moved
    | ok end_ =>
      obtain ⟨fits, rfl, -⟩ := follow_ofLocation_ends sound free named leads
      cases leads' : tree.follow (.ofLocation target) with
      | error fault => simp [leads, leads', found, from_] at moved
      | ok end_' =>
        obtain ⟨fits', rfl, -⟩ := follow_ofLocation_ends sound free named' leads'
        refine ⟨fits, fits', solid, by rwa [whole, List.dropLast_concat], content, from_, same.resolve_left ?_⟩
        -- a move that changes nothing would be one of a file over itself
        rintro rfl
        rcases to_ : after.lookup target with _ | content' | link | _ <;>
          simp only [leads, leads', found, from_, to_, Except.ok.injEq, reduceCtorEq] at moved
        · have there := congrArg (·.lookup target) moved
          simp [FileTree.lookup_put _ (whole ▸ List.concat_ne_nil name outer : target ≠ []), to_] at there
        · have gone := congrArg (·.lookup source) moved
          have filled : source ≠ [] := fun root => by simp [root] at from_
          rw [if_neg apart] at gone
          simp [FileTree.lookup_put _ (whole ▸ List.concat_ne_nil name outer : target ≠ []), FileTree.lookup_erase _ filled, apart,
            from_] at gone
        · exact absurd to_ (free _ _)
  · rintro ⟨fits, fits', solid, directory, content, from_, rfl⟩
    unfold FileTree.move
    rw [free.locate_eq, free.locate_eq, (follow_entry_iff sound free named).2 ⟨fits, rfl, from_⟩]
    rcases to_ : tree.lookup target with _ | content' | link | _
    · rw [(follow_vacant_iff sound free named').2 ⟨fits', rfl, to_, directory⟩]
    · rw [(follow_entry_iff sound free named').2 ⟨fits', rfl, to_⟩]
      simp only [if_neg apart]
    · exact absurd to_ (free _ _)
    · exact absurd to_ solid

end WasmPackaging.FileTree
