import WasmPackaging.Proofs.FileTree.CopiedDirectories
import WasmPackaging.Proofs.LikePublishing

/-!
What a publisher copies, in trees with links. Sources and targets are the real locations that the paths of a mapping have when the
copy starts (`copy_ends_iff`). A batch takes nothing away (`extends_copy`), each of its answers leads to something
(`exists?_of_mem_copy`), and a directory that is copied brings every file that can be read below it by names that are not left out
(`copies_land`).
-/

namespace WasmPackaging

open Text FileTree

theorem attemptAll_map_ends_iff {α : Type} {run : α → FileRun Unit} {list : List α} {before after : FileTree} :
    attemptAll (list.map run) before = (.ok (), after) ↔ list.forM run before = (.ok (), after) := by
  rw [attemptAll_ends_iff]
  induction list generalizing before with
  | nil => rfl
  | cons a list ih =>
    have first : ((a :: list).map run).forM id = run a >>= fun _ => (list.map run).forM id := rfl
    have first' : (a :: list).forM run = run a >>= fun _ => list.forM run := rfl
    rw [first, first', bind_ends_iff, bind_ends_iff]
    simp only [ih]

/-- Questions that change nothing can be asked one after another. -/
theorem mapM_apply {σ ε ε' α β γ : Type} {act : α → ExceptT ε (StateM σ) γ} {question : α → Except ε' β} {failure : ε' → ε} {shown : β → γ}
    {state : σ} {list : List α} (each : ∀ a ∈ list, act a state = (((question a).mapError failure).map shown, state)) :
    list.mapM act state = (((list.mapM question).mapError failure).map (List.map shown), state) := by
  induction list with
  | nil => rfl
  | cons a list ih =>
    obtain ⟨first, rest⟩ := List.forall_mem_cons.1 each
    rw [List.mapM_cons, List.mapM_cons, bind_apply, first]
    rcases question a with e | answer
    · rfl
    · change (list.mapM act >>= fun answers => pure (shown answer :: answers)) state = _
      rw [bind_apply, ih rest]
      rcases list.mapM question with e | answers
      · rfl
      · rfl

namespace FileTree

/-- Neither of two locations stands above the other. -/
def Apart (location other : Location) : Prop := ¬ location <+: other ∧ ¬ other <+: location

instance (location other : Location) : Decidable (Apart location other) :=
  inferInstanceAs (Decidable (¬ location <+: other ∧ ¬ other <+: location))

theorem Apart.append {location other : Location} (apart : Apart location other) (rest : List String) : Apart location (other ++ rest) := by
  constructor
  · intro above
    obtain below | above := List.prefix_or_prefix_of_prefix above (List.prefix_append other rest)
    · exact apart.1 below
    · exact apart.2 above
  · intro above
    exact apart.2 ((List.prefix_append other rest).trans above)

end FileTree

namespace Publisher

variable (publisher : Publisher) {tree after : FileTree} {ignored : List String} {mapping : List (Path × Path)}

/-- The real locations of the paths of an entry in a mapping. -/
def placesOf (tree : FileTree) (pair : Path × Path) : Except Unresolvable (Location × Location) := do
  return (← tree.resolve (publisher.root.join pair.1), ← tree.resolve (publisher.root.join pair.2))

/-- Copies an entry of a batch from its real location to the one of its target. -/
def copyPlace (ignored : List String) (pair : Location × Location) : FileRun Unit :=
  copyEntry ignored (.ofLocation pair.1) (.ofLocation pair.2)

theorem place_apply (path : Path) (tree : FileTree) :
    publisher.place path tree = (((tree.resolve (publisher.root.join path)).mapError Failure.unresolvable).map Path.ofLocation, tree) :=
  FileRun.resolve_apply _ tree

theorem placesOf_apply (pair : Path × Path) (tree : FileTree) :
    (do return (← publisher.place pair.1, ← publisher.place pair.2) : FileRun (Path × Path)) tree =
      (((publisher.placesOf tree pair).mapError Failure.unresolvable).map fun pair => (.ofLocation pair.1, .ofLocation pair.2), tree) := by
  unfold placesOf
  rw [bind_apply, place_apply]
  rcases tree.resolve (publisher.root.join pair.1) with e | source
  · rfl
  · change (publisher.place pair.2 >>= fun target => pure (Path.ofLocation source, target)) tree = _
    rw [bind_apply, place_apply]
    rcases tree.resolve (publisher.root.join pair.2) with e | target
    · rfl
    · rfl

/-- A batch is copied from and to the real locations that its paths have at the start; without them nothing is copied. -/
theorem copy_apply (mapping : List (Path × Path)) (ignored : List String) (tree : FileTree) :
    publisher.copy mapping ignored tree =
      match mapping.mapM (publisher.placesOf tree) with
      | .error e => (.error (.unresolvable e), tree)
      | .ok pairs => (do
          attemptAll (pairs.map (copyPlace ignored))
          return pairs.map fun pair => .ofLocation pair.2 : FileRun (List Path)) tree := by
  unfold copy
  rw [bind_apply, mapM_apply fun pair _ => publisher.placesOf_apply pair tree]
  rcases mapping.mapM (publisher.placesOf tree) with e | pairs
  · rfl
  · simp only [Except.mapError, Except.map, List.map_map]
    rfl

/-- A batch that ends well has copied one entry after another. -/
theorem copy_ends_iff {targets : List Path} : publisher.copy mapping ignored tree = (.ok targets, after) ↔
    ∃ pairs, mapping.mapM (publisher.placesOf tree) = .ok pairs ∧ pairs.forM (copyPlace ignored) tree = (.ok (), after) ∧
      targets = pairs.map fun pair => .ofLocation pair.2 := by
  rw [copy_apply]
  constructor
  · intro ended
    split at ended
    · cases (Prod.mk.inj ended).1
    · next pairs placed =>
      obtain ⟨⟨⟩, between, ran, ended⟩ := bind_ends_iff.1 ended
      obtain ⟨same, rfl⟩ := Prod.mk.inj ended
      exact ⟨pairs, placed, attemptAll_map_ends_iff.1 ran, (Except.ok.inj same).symm⟩
  · rintro ⟨pairs, placed, ran, rfl⟩
    rw [placed]
    exact bind_ends_iff.2 ⟨(), after, attemptAll_map_ends_iff.2 ran, rfl⟩

theorem areNames_of_mem_places (sound : tree.WellFormed) {pairs : List (Location × Location)}
    (placed : mapping.mapM (publisher.placesOf tree) = .ok pairs) {pair : Location × Location} (mem : pair ∈ pairs) :
    AreNames pair.1 ∧ AreNames pair.2 := by
  obtain ⟨given, -, named⟩ := exists_of_mapM_eq_ok placed _ mem
  obtain ⟨source, from_, named⟩ := bind_eq_ok_iff.1 named
  obtain ⟨target, to_, named⟩ := bind_eq_ok_iff.1 named
  obtain rfl := Except.ok.inj named
  exact ⟨areNames_resolve sound from_, areNames_resolve sound to_⟩

/-! ## What copies keep -/

theorem ends_of_copyPlace {pair : Location × Location} (ended : copyPlace ignored pair tree = (.ok (), after)) :
    FileTask.copy ignored (.ofLocation pair.1) (.ofLocation pair.2) tree = (.ok (), after) := adapt_ends_iff.1 (adapt_ends_iff.1 ended)

/-- What is copied may land where its target leads, or in the directory there. -/
def Lands (allowed : Location → Prop) (tree : FileTree) (ignored : List String) (pair : Location × Location) : Prop :=
  TakesIn allowed tree ignored (.ofLocation pair.2) ∧
    LandsIn allowed tree ((Path.ofLocation pair.2).child (Path.ofLocation pair.1).name)

theorem lands_anywhere (tree : FileTree) (ignored : List String) (pair : Location × Location) : Lands Anywhere tree ignored pair :=
  ⟨takesIn_anywhere _ _ _, landsIn_anywhere _ _⟩

theorem Lands.keepsAll {allowed : Location → Prop} {pair : Location × Location} (lands : Lands allowed tree ignored pair) :
    KeepsAll allowed tree (copyPlace ignored pair) := .adapt (.adapt (keepsAll_copy lands.1 lands.2))

/-- The copies of a batch take nothing away, and change the places alone where they may land. -/
theorem extends_copy {allowed : Location → Prop} (sound : tree.WellFormed)
    (each : ∀ pairs, mapping.mapM (publisher.placesOf tree) = .ok pairs → ∀ pair ∈ pairs, Lands allowed tree ignored pair) :
    Extends allowed tree (publisher.copy mapping ignored tree).2 := by
  rw [copy_apply]
  split
  · exact .refl sound
  · next pairs placed =>
    have copies : KeepsAll allowed tree (attemptAll (pairs.map (copyPlace ignored))) := by
      refine keeps_attemptAll _ fun run mem => ?_
      obtain ⟨pair, listed, rfl⟩ := List.mem_map.1 mem
      exact (each pairs placed pair listed).keepsAll
    have whole : KeepsAll allowed tree (do
        attemptAll (pairs.map (copyPlace ignored))
        return pairs.map fun pair => .ofLocation pair.2 : FileRun (List Path)) := .bind copies fun _ _ => .pure trivial
    exact whole.after (.refl sound)

/-- Every target that a batch answers with leads to something. -/
theorem exists?_of_mem_copy {targets : List Path} (sound : tree.WellFormed) (ended : publisher.copy mapping ignored tree = (.ok targets, after))
    {target : Path} (mem : target ∈ targets) : after.exists? target = true := by
  obtain ⟨pairs, -, ran, rfl⟩ := publisher.copy_ends_iff.1 ended
  obtain ⟨pair, listed, rfl⟩ := List.mem_map.1 mem
  have onward {now next : FileTree} {other : Location × Location} (sound : now.WellFormed) (ran : copyPlace ignored other now = (.ok (), next)) :
      Extends Anywhere now next := ((lands_anywhere now ignored other).keepsAll.of_ok (.refl sound) ran).2
  refine (forM_settles WellFormed (·.exists? (.ofLocation pair.2) = true) listed ?_ ?_ sound ran).2
  · intro now next sound ran
    exact ⟨(onward sound ran).sound, exists?_of_copy sound (ends_of_copyPlace ran)⟩
  · intro other _ _ now next sound ran
    exact ⟨(onward sound ran).sound, (onward sound ran).exists? sound⟩

/-! ## Copied directories -/

/-- What is copied to a place without links changes nothing apart from it. -/
theorem extends_of_copyPlace {pair : Location × Location} (sound : tree.WellFormed) (named : AreNames pair.1 ∧ AreNames pair.2)
    (bare : tree.Bare pair.2) (ended : copyPlace ignored pair tree = (.ok (), after)) :
    Extends (fun place => ¬ Apart pair.2 place) tree after := by
  have near {place : Location} (spot : Spot ignored pair.2 place) : ¬ Apart pair.2 place := by
    intro apart
    obtain above | ⟨names, -, rfl⟩ := spot
    · exact apart.2 above
    · exact apart.1 (List.prefix_append _ _)
  have lands : Lands (fun place => ¬ Apart pair.2 place) tree ignored pair :=
    ⟨takesIn_bare bare named.2 fun place => near,
      landsIn_bare bare named.2 named.1 (near (.inl (List.prefix_refl _))) fun apart => apart.1 (List.prefix_append _ _)⟩
  exact (lands.keepsAll.of_ok (.refl sound) ended).2

/-- What the copy of a directory keeps of a wanted file: where it stands, and whether a directory has its place. -/
def Awaits (tree : FileTree) (place landing : Location) (now : FileTree) : Prop :=
  Extends Anywhere tree now ∧ now.lookup place = tree.lookup place ∧
    (now.lookup landing = some .directory ↔ tree.lookup landing = some .directory)

section

variable {source place : Location} {outer : List String} {name : String} {content : Bytes} {pair : Location × Location}

theorem Awaits.wanted {now : FileTree} {names : List String} (awaits : Awaits tree place (pair.2 ++ names) now)
    (wanted : Wanted tree ignored (.ofLocation pair.1) pair.2 names place content) : Wanted now ignored (.ofLocation pair.1) pair.2 names place content :=
  wanted.later awaits.1 awaits.2.1

/-- The copy of its directory brings a wanted file, and the file stays where it is. -/
theorem lands_of_copyPlace (named : AreNames pair.1 ∧ AreNames pair.2)
    (wanted : Wanted tree ignored (.ofLocation pair.1) pair.2 (outer ++ [name]) place content) (ended : copyPlace ignored pair tree = (.ok (), after)) :
    Awaits tree place (pair.2 ++ (outer ++ [name])) after ∧
      after.lookup (pair.2 ++ landing tree pair.2 (outer ++ [name]) name) = some (.file content) := by
  have more := extends_of_copyPlace wanted.sound named wanted.bare ended
  have near {location : Location} : ¬ Apart pair.2 location ↔ pair.2 <+: location ∨ location <+: pair.2 := by
    unfold Apart
    rw [not_and_or, not_not, not_not]
  have more' : Extends (fun location => pair.2 <+: location ∨ location <+: pair.2) tree after := more.weaken fun location => near.1
  obtain ⟨base, -, into, -⟩ := wanted.exists_base (List.concat_ne_nil name outer)
  have asked : tree.asksDirectory (.ofLocation pair.1) = .ok true := asksDirectory_eq_true_iff.2 ⟨base, into⟩
  have ended' := ends_of_copyPlace ended
  rw [copy_of_directory asked] at ended'
  have there := isDirectory_of_copyDirectory wanted.sound ended'
  have directory := ((more.bare wanted.bare).way.isDirectory_iff more.sound wanted.named).1 there
  have landed := copyDirectory_lands wanted ended'
  refine ⟨⟨more.weaken fun _ _ => trivial, wanted.still more' (wanted.not_above more' directory.2), fun inside => ?_, more.directory _⟩, landed⟩
  by_contra outside
  rw [landing_of_not_directory outside, inside] at landed
  cases landed

/-- A wanted file stands, once a batch is done, below the target of its directory, unless another entry is copied onto the file or
its place, or above or below them. -/
theorem copies_land {pairs : List (Location × Location)} (named : ∀ pair ∈ pairs, AreNames pair.1 ∧ AreNames pair.2)
    (bare : ∀ pair ∈ pairs, tree.Bare pair.2) (mem : pair ∈ pairs)
    (wanted : Wanted tree ignored (.ofLocation pair.1) pair.2 (outer ++ [name]) place content)
    (alone : ∀ other ∈ pairs, other ≠ pair → Apart other.2 place ∧ Apart other.2 (pair.2 ++ (outer ++ [name])))
    (ran : pairs.forM (copyPlace ignored) tree = (.ok (), after)) :
    after.lookup (pair.2 ++ landing tree pair.2 (outer ++ [name]) name) = some (.file content) := by
  refine (forM_settles (Awaits tree place (pair.2 ++ (outer ++ [name])))
    (·.lookup (pair.2 ++ landing tree pair.2 (outer ++ [name]) name) = some (.file content)) mem ?_ ?_
    ⟨.refl wanted.sound, rfl, Iff.rfl⟩ ran).2
  · intro now next awaits ran
    obtain ⟨awaits', landed⟩ := lands_of_copyPlace (named pair mem) (awaits.wanted wanted) ran
    rw [landing_congr awaits.2.2] at landed
    exact ⟨⟨awaits.1.trans awaits'.1, awaits'.2.1.trans awaits.2.1, awaits'.2.2.trans awaits.2.2⟩, landed⟩
  · intro other listed differs now next awaits ran
    obtain ⟨apart, apart'⟩ := alone other listed differs
    have more := extends_of_copyPlace awaits.1.sound (named other listed) (awaits.1.bare (bare other listed)) ran
    have kept {location : Location} (apart : Apart other.2 location) : next.lookup location = now.lookup location :=
      more.beyond location fun near => near apart
    refine ⟨⟨awaits.1.trans (more.weaken fun _ _ => trivial), (kept apart).trans awaits.2.1, ?_⟩, ?_⟩
    · rw [kept apart']
      exact awaits.2.2
    · have place : pair.2 ++ landing tree pair.2 (outer ++ [name]) name = (pair.2 ++ (outer ++ [name])) ++
          (if tree.lookup (pair.2 ++ (outer ++ [name])) = some .directory then [name] else []) := by
        unfold landing
        split <;> simp
      rw [place, kept (apart'.append _)]
      exact id

end

end Publisher

end WasmPackaging
