import WasmPackaging.Proofs.FileTree.Confinement
import WasmPackaging.Proofs.FileTree.Fitting

/-!
Making a directory with all that leads to it. The tasks that do so differ in what they try first, and in what they do
when that fails. In a tree without links they come to the same: what is missing on the way is filled in, the outermost
first, where nothing but directories stands there already (`ensureDirectory_ends_iff`, `makeDirectories_ends_iff`).
-/

namespace WasmPackaging.FileTree

variable {tree after : FileTree} {location outer : Location}

/-! ## What is missing -/

/-- The tree with a directory at a location where nothing stands. -/
def withDirectory (tree : FileTree) (location : Location) : FileTree :=
  if tree.lookup location = none then tree.put location .directory else tree

/-- The tree with all directories that are missing on the way from a place down some names. -/
def fillFrom (tree : FileTree) (place : Location) : List String → FileTree
  | [] => tree
  | name :: names => fillFrom (tree.withDirectory (place ++ [name])) (place ++ [name]) names

/-- The tree with a location as a directory, and all directories that lead there. -/
def fill (tree : FileTree) (location : Location) : FileTree := tree.fillFrom [] location

/-- Nothing but directories stands on the way to a location, and there. -/
def Clear (tree : FileTree) (location : Location) : Prop :=
  ∀ outer, outer <+: location → tree.lookup outer = none ∨ tree.lookup outer = some .directory

theorem lookup_withDirectory (tree : FileTree) (location other : Location) :
    (tree.withDirectory location).lookup other =
      if other = location ∧ tree.lookup other = none then some .directory else tree.lookup other := by
  unfold withDirectory
  by_cases vacant : tree.lookup location = none
  · have filled : location ≠ [] := by
      rintro rfl
      cases vacant
    rw [if_pos vacant, tree.lookup_put filled]
    by_cases same : other = location
    · simp [same, vacant]
    · simp [same]
  · rw [if_neg vacant]
    split
    · next both => exact absurd (both.1 ▸ both.2) vacant
    · rfl

theorem fillFrom_append (tree : FileTree) (place : Location) (names : List String) (name : String) :
    tree.fillFrom place (names ++ [name]) = (tree.fillFrom place names).withDirectory (place ++ names ++ [name]) := by
  induction names generalizing tree place with
  | nil => simp [fillFrom]
  | cons first names ih => simpa [fillFrom] using ih (tree.withDirectory (place ++ [first])) (place ++ [first])

@[simp] theorem fill_nil (tree : FileTree) : tree.fill [] = tree := rfl

theorem fill_append (tree : FileTree) (outer : Location) (name : String) :
    tree.fill (outer ++ [name]) = (tree.fill outer).withDirectory (outer ++ [name]) := tree.fillFrom_append [] outer name

/-- Filling in directories puts them where nothing stands on the way, and changes nothing else. -/
theorem lookup_fill (tree : FileTree) (location other : Location) :
    (tree.fill location).lookup other =
      if other <+: location ∧ tree.lookup other = none then some .directory else tree.lookup other := by
  induction location using List.reverseRecOn with
  | nil =>
    rw [fill_nil, if_neg]
    rintro ⟨within, vacant⟩
    obtain rfl := List.prefix_nil.1 within
    cases vacant
  | append_singleton outer name ih =>
    rw [fill_append, lookup_withDirectory, ih]
    by_cases vacant : tree.lookup other = none
    · by_cases within : other <+: outer <;> simp [vacant, within, List.prefix_concat_iff]
    · simp [vacant]

/-- Nothing changes where all directories are there. -/
theorem fill_of_directory (sound : tree.WellFormed) (directory : tree.lookup location = some .directory) : tree.fill location = tree := by
  induction location using List.reverseRecOn with
  | nil => rfl
  | append_singleton outer name ih =>
    rw [fill_append, ih (sound.parent outer name (by simp [directory])), withDirectory, if_neg (by simp [directory])]

namespace Clear

theorem above {rest : List String} (clear : tree.Clear (outer ++ rest)) : tree.Clear outer :=
  fun place within => clear place (within.trans (List.prefix_append _ _))

theorem of_directory (sound : tree.WellFormed) (directory : tree.lookup location = some .directory) : tree.Clear location := by
  rintro place ⟨rest, rfl⟩
  exact .inr (sound.directory_above directory)

/-- A location at which nothing stands in a directory is clear. -/
theorem of_vacant (sound : tree.WellFormed) {name : String} (vacant : tree.lookup (outer ++ [name]) = none)
    (directory : tree.lookup outer = some .directory) : tree.Clear (outer ++ [name]) := by
  intro place within
  obtain rfl | within := List.prefix_concat_iff.1 within
  · exact .inl vacant
  · exact of_directory sound directory place within

/-- All that leads to a clear location is there once it is filled in. -/
theorem lookup_fill_self (clear : tree.Clear location) : (tree.fill location).lookup location = some .directory := by
  rw [lookup_fill]
  split
  · rfl
  · next other => exact (clear location (List.prefix_refl _)).resolve_left fun vacant => other ⟨List.prefix_refl _, vacant⟩

theorem sound_fill (clear : tree.Clear location) (named : AreNames location) (sound : tree.WellFormed) : (tree.fill location).WellFormed := by
  induction location using List.reverseRecOn with
  | nil => exact sound
  | append_singleton outer name ih =>
    obtain ⟨named', valid⟩ := areNames_append.1 named
    have inner := ih clear.above named'
    rw [fill_append, withDirectory]
    split
    · exact inner.put clear.above.lookup_fill_self (by simpa using valid) fun _ => rfl
    · exact inner

theorem free_fill (free : tree.LinkFree) : (tree.fill location).LinkFree := by
  intro place target
  rw [lookup_fill]
  split
  · simp
  · exact free place target

end Clear

/-! ## Making directories -/

/-- A walk down a clear way to a place that is missing leads no further. -/
theorem walk_missing {limit : Nat} {place : Location} {names rest : List String} (start : tree.lookup place = some .directory)
    (steps : ∀ name ∈ names, IsStep name)
    (clear : ∀ parts, parts <+: names → tree.lookup (place ++ parts) = none ∨ tree.lookup (place ++ parts) = some .directory)
    (missing : tree.lookup (place ++ names) = none) (more : rest ≠ []) : tree.walk true limit place (names ++ rest) = .error .notFound := by
  induction names generalizing place with
  | nil => simp [start] at missing
  | cons name names ih =>
    obtain ⟨step, others⟩ := List.forall_mem_cons.1 steps
    rw [List.cons_append, walk_step step]
    obtain vacant | directory := clear [name] (by simp)
    · simp [vacant, more]
    · rw [directory]
      exact ih directory others (fun parts within => by simpa using clear (name :: parts) (by simpa using within)) (by simpa using missing)

/-- Making a directory is refused where one is missing on the way, whatever comes after. -/
theorem lacksAround_of_missing {front : Location} {rest : List String} (free : tree.LinkFree) (named : AreNames (front ++ rest))
    (fine : pathFault? (.ofLocation (front ++ rest)) = none) (steps : ∀ name ∈ front, IsStep name) (clear : tree.Clear front)
    (missing : tree.lookup front = none) (more : rest ≠ []) : tree.LacksAround (.ofLocation (front ++ rest)) := by
  have leads : tree.follow (.ofLocation (front ++ rest)) = .error .notFound := by
    rw [follow_ofLocation_eq_walk tree named fine]
    exact walk_missing rfl steps clear missing more
  refine ⟨(Path.ofLocation (front ++ rest)).toString, ?_⟩
  simp only [makeDirectory, vacancy, free.locate_eq, leads, Except.map]

/-- Where the directory around is missing there is none that may stay. -/
theorem LacksAround.isDirectory {path : Path} (lacks : tree.LacksAround path) (free : tree.LinkFree) : tree.isDirectory path = false := by
  obtain ⟨text, refused⟩ := lacks
  refine Bool.eq_false_iff.2 fun there => ?_
  obtain ⟨place, leads⟩ := isDirectory_eq_true_iff.1 there
  unfold makeDirectory vacancy at refused
  rw [free.locate_eq, leads] at refused
  cases refused

/-- Without links it comes to the same whether a missing directory around is told from the other reasons to refuse. -/
theorem makeInside_ends_iff {path : Path} (free : tree.LinkFree) :
    makeInside path tree = (.ok (), after) ↔ makeOrAllow path tree = (.ok (), after) := by
  rw [makeInside, makeOrAllow, get_bind_apply, get_bind_apply]
  cases made : tree.makeDirectory path with
  | ok final => rfl
  | error e =>
    cases e with
    | refused fault text =>
      cases fault with
      | notFound =>
        have stays : FileTask.allowDirectory path (.refused .notFound text) tree = (.error (.refused .notFound text), tree) := by
          rw [FileTask.allowDirectory, get_bind_apply, LacksAround.isDirectory ⟨text, made⟩ free]
          rfl
        simp only [stays]
        rfl
      | _ => rfl
    | _ => rfl

section

variable (sound : tree.WellFormed) (free : tree.LinkFree) (named : AreNames location)

include sound free named

theorem allowDirectory_ends_iff {e : FileError} :
    FileTask.allowDirectory (.ofLocation location) e tree = (.ok (), after) ↔
      Fits location ∧ tree.lookup location = some .directory ∧ after = tree := by
  unfold FileTask.allowDirectory
  rw [get_bind_apply]
  have answer := @isDirectory_ofLocation_iff tree location sound free named
  by_cases there : tree.isDirectory (.ofLocation location) = true
  · rw [if_pos there]
    obtain ⟨fits, directory⟩ := answer.1 there
    constructor
    · intro ended
      exact ⟨fits, directory, (Prod.mk.inj ended).2.symm⟩
    · rintro ⟨-, -, rfl⟩
      rfl
  · rw [if_neg there]
    constructor
    · intro ended
      cases (Prod.mk.inj ended).1
    · rintro ⟨fits, directory, -⟩
      exact absurd (answer.2 ⟨fits, directory⟩) there

/-- The directory is made in the one around it, or it is there already. -/
theorem makeOrAllow_ends_iff :
    makeOrAllow (.ofLocation location) tree = (.ok (), after) ↔
      Fits location ∧ tree.Clear location ∧ tree.lookup location.dropLast = some .directory ∧ after = tree.fill location := by
  unfold makeOrAllow
  rw [get_bind_apply]
  cases made : tree.makeDirectory (.ofLocation location) with
  | ok final =>
    obtain ⟨fits, vacant, around, rfl⟩ := (makeDirectory_ofLocation_iff sound free named).1 made
    obtain ⟨outer, name, rfl⟩ : ∃ outer name, location = outer ++ [name] := by
      rcases List.eq_nil_or_concat location with rfl | ⟨outer, name, rfl⟩
      · cases vacant
      · exact ⟨outer, name, List.concat_eq_append⟩
    rw [List.dropLast_concat] at around ⊢
    have filled : tree.fill (outer ++ [name]) = tree.put (outer ++ [name]) .directory := by
      rw [fill_append, fill_of_directory sound around, withDirectory, if_pos vacant]
    rw [filled]
    constructor
    · intro ended
      exact ⟨fits, .of_vacant sound vacant around, around, (Prod.mk.inj ended).2.symm⟩
    · rintro ⟨-, -, -, rfl⟩
      rfl
  | error e =>
    simp only
    rw [allowDirectory_ends_iff sound free named]
    constructor
    · rintro ⟨fits, directory, rfl⟩
      exact ⟨fits, .of_directory sound directory, sound.directory_dropLast directory, (fill_of_directory sound directory).symm⟩
    · rintro ⟨fits, clear, around, rfl⟩
      have directory : tree.lookup location = some .directory := by
        refine (clear location (List.prefix_refl _)).resolve_left fun vacant => ?_
        rw [(makeDirectory_ofLocation_iff sound free named).2 ⟨fits, vacant, around, rfl⟩] at made
        cases made
      exact ⟨fits, directory, fill_of_directory sound directory⟩

end

theorem fill_fill (tree : FileTree) (clear : tree.Clear outer) (named : AreNames outer) (sound : tree.WellFormed) (name : String) :
    (tree.fill outer).fill (outer ++ [name]) = tree.fill (outer ++ [name]) := by
  rw [fill_append, fill_of_directory (clear.sound_fill named sound) clear.lookup_fill_self, ← fill_append]

theorem Clear.of_fill {name : String} (clear : (tree.fill outer).Clear (outer ++ [name])) : tree.Clear (outer ++ [name]) := by
  intro place within
  have there := clear place within
  rw [lookup_fill] at there
  split at there
  · next both => exact .inl both.2
  · exact there

theorem parent_ofLocation (outer : Location) (name : String) : (Path.ofLocation (outer ++ [name])).parent = .ofLocation outer := by
  simp [Path.parent, Path.ofLocation]

section

variable (sound : tree.WellFormed) (free : tree.LinkFree)

include sound free

/-- The last step of making directories, once those around are there. -/
theorem makeOrAllow_fill_ends_iff {name : String} (named : AreNames (outer ++ [name])) (clear : tree.Clear outer) :
    makeOrAllow (.ofLocation (outer ++ [name])) (tree.fill outer) = (.ok (), after) ↔
      Fits (outer ++ [name]) ∧ tree.Clear (outer ++ [name]) ∧ after = tree.fill (outer ++ [name]) := by
  have named' := (areNames_append.1 named).1
  have around : (tree.fill outer).lookup (outer ++ [name]).dropLast = some .directory := by
    rw [List.dropLast_concat]
    exact clear.lookup_fill_self
  rw [makeOrAllow_ends_iff (clear.sound_fill named' sound) (Clear.free_fill free) named, tree.fill_fill clear named' sound]
  constructor
  · rintro ⟨fits, clear', -, same⟩
    exact ⟨fits, clear'.of_fill, same⟩
  · rintro ⟨fits, clear', same⟩
    refine ⟨fits, fun place within => ?_, around, same⟩
    rw [lookup_fill]
    split
    · exact .inr rfl
    · exact clear' place within

/-- A directory is ensured just where nothing but directories stands on the way. -/
theorem ensureDirectory_ends_iff (named : AreNames location) :
    FileTask.ensureDirectory (.ofLocation location) tree = (.ok (), after) ↔
      Fits location ∧ tree.Clear location ∧ after = tree.fill location := by
  induction location using List.reverseRecOn generalizing after with
  | nil =>
    have around : tree.lookup ([] : Location).dropLast = some .directory := rfl
    rw [ensureDirectory_eq_makeInside (.inl rfl), makeInside_ends_iff free, makeOrAllow_ends_iff sound free areNames_nil]
    simp only [around, true_and]
  | append_singleton outer name ih =>
    have named' := (areNames_append.1 named).1
    by_cases lacks : tree.LacksAround (.ofLocation (outer ++ [name]))
    · rw [ensureDirectory_of_lacksAround (by simp [Path.ofLocation]) lacks, parent_ofLocation, bind_ends_iff]
      constructor
      · rintro ⟨⟨⟩, between, ensured, made⟩
        obtain ⟨-, clear, rfl⟩ := (ih named').1 ensured
        rw [makeInside_ends_iff (Clear.free_fill free)] at made
        exact (makeOrAllow_fill_ends_iff sound free named clear).1 made
      · rintro ⟨fits, clear, same⟩
        refine ⟨(), _, (ih named').2 ⟨fits.above, clear.above, rfl⟩, ?_⟩
        rw [makeInside_ends_iff (Clear.free_fill free)]
        exact (makeOrAllow_fill_ends_iff sound free named clear.above).2 ⟨fits, clear, same⟩
    · rw [ensureDirectory_eq_makeInside (.inr lacks), makeInside_ends_iff free, makeOrAllow_ends_iff sound free named]
      rw [List.dropLast_concat]
      constructor
      · rintro ⟨fits, clear, -, same⟩
        exact ⟨fits, clear, same⟩
      · rintro ⟨fits, clear, same⟩
        -- the directory around is there, for nothing else would have been refused
        refine ⟨fits, clear, (clear.above outer (List.prefix_refl _)).resolve_left fun missing => lacks ?_, same⟩
        exact lacksAround_of_missing free named fits.fine fits.above.steps clear.above missing (List.cons_ne_nil name [])

end

/-- Passes over the failure that something exists already. -/
def allowExists : FileError → FileTask Unit
  | .refused .exists _ => pure ()
  | e => throw e

theorem allowExists_cases (e : FileError) : (∃ text, e = .refused .exists text) ∨ ∀ now, allowExists e now = (.error e, now) := by
  unfold allowExists
  split
  · next text => exact .inl ⟨text, rfl⟩
  · exact .inr fun _ => rfl

theorem makeDirectories_nil : FileTask.makeDirectories (.ofLocation []) = makeOrAllow (.ofLocation []) := by
  have empty : (Path.ofLocation []).parts = [] := rfl
  rw [FileTask.makeDirectories, dif_pos empty]
  rfl

theorem makeDirectories_append (tree : FileTree) (outer : Location) (name : String) :
    FileTask.makeDirectories (.ofLocation (outer ++ [name])) tree =
      (if tree.exists? (.ofLocation outer) then makeOrAllow (.ofLocation (outer ++ [name]))
      else do
        tryCatch (FileTask.makeDirectories (.ofLocation outer)) allowExists
        makeOrAllow (.ofLocation (outer ++ [name])) : FileTask Unit) tree := by
  rw [FileTask.makeDirectories, dif_neg (by simp [Path.ofLocation]), parent_ofLocation]
  rfl

theorem isDirectory_of_makeOrAllow_fails {path : Path} {e : FileError} (failed : makeOrAllow path tree = (.error e, after)) :
    after.isDirectory path = false := by
  unfold makeOrAllow at failed
  rw [get_bind_apply] at failed
  rcases made : tree.makeDirectory path with e' | final
  · simp only [made] at failed
    unfold FileTask.allowDirectory at failed
    rw [get_bind_apply] at failed
    by_cases there : tree.isDirectory path = true
    · rw [if_pos there] at failed
      cases (Prod.mk.inj failed).1
    · rw [if_neg there] at failed
      obtain ⟨-, rfl⟩ := Prod.mk.inj failed
      exact Bool.eq_false_iff.2 there
  · simp only [made] at failed
    cases (Prod.mk.inj failed).1

/-- What exists already is refused only where it is no directory. -/
theorem isDirectory_of_makeDirectories_exists {text : String}
    (failed : FileTask.makeDirectories (.ofLocation location) tree = (.error (.refused .exists text), after)) :
    after.isDirectory (.ofLocation location) = false := by
  rcases List.eq_nil_or_concat location with rfl | ⟨outer, name, rfl⟩
  · rw [makeDirectories_nil] at failed
    exact isDirectory_of_makeOrAllow_fails failed
  · rw [List.concat_eq_append] at failed ⊢
    rw [makeDirectories_append] at failed
    split at failed
    · exact isDirectory_of_makeOrAllow_fails failed
    · rw [bind_apply, tryCatch_apply] at failed
      rcases ran : FileTask.makeDirectories (.ofLocation outer) tree with ⟨e | _, between⟩
      · simp only [ran] at failed
        obtain ⟨text, rfl⟩ | thrown := allowExists_cases e
        · exact isDirectory_of_makeOrAllow_fails failed
        · simp only [thrown] at failed
          obtain ⟨same, rfl⟩ := Prod.mk.inj failed
          obtain rfl := Except.error.inj same
          cases (Prod.mk.inj (thrown between)).1
      · simp only [ran] at failed
        exact isDirectory_of_makeOrAllow_fails failed

/-- The directories that are missing are made just where nothing but directories stands on the way. -/
theorem makeDirectories_ends_iff (sound : tree.WellFormed) (free : tree.LinkFree) (named : AreNames location) :
    FileTask.makeDirectories (.ofLocation location) tree = (.ok (), after) ↔
      Fits location ∧ tree.Clear location ∧ after = tree.fill location := by
  induction location using List.reverseRecOn generalizing after with
  | nil =>
    rw [makeDirectories_nil, makeOrAllow_ends_iff sound free areNames_nil]
    simp
  | append_singleton outer name ih =>
    have named' := (areNames_append.1 named).1
    have there := @exists_ofLocation_iff tree outer sound free named'
    rw [makeDirectories_append]
    by_cases around : tree.exists? (.ofLocation outer) = true
    · rw [if_pos around, makeOrAllow_ends_iff sound free named, List.dropLast_concat]
      refine and_congr_right fun _ => and_congr_right fun clear => and_iff_right ?_
      exact (clear.above outer (List.prefix_refl _)).resolve_left (there.1 around).2
    · rw [if_neg around, bind_ends_iff]
      constructor
      · rintro ⟨⟨⟩, between, tried, ended⟩
        rw [tryCatch_apply] at tried
        rcases ran : FileTask.makeDirectories (.ofLocation outer) tree with ⟨e | _, middle⟩
        · -- the failure that is passed over leaves no directory to go on in
          obtain ⟨text, rfl⟩ | thrown := allowExists_cases e
          · have confined : Confined (.below outer) tree middle := by
              have keeps : KeepsTo (.below outer) tree (FileTask.makeDirectories (.ofLocation outer)) :=
                keeps_makeDirectories (Zone.roams_ofLocation tree named' (List.prefix_refl outer))
              have kept := keeps.after (.startBelow sound free)
              rwa [ran] at kept
            rw [ran] at tried
            obtain ⟨-, rfl⟩ := Prod.mk.inj tried
            obtain ⟨fits, -, directory, -⟩ := (makeOrAllow_ends_iff confined.sound confined.free named).1 ended
            rw [List.dropLast_concat] at directory
            have refused := isDirectory_of_makeDirectories_exists ran
            rw [(isDirectory_ofLocation_iff confined.sound confined.free named').2 ⟨fits.above, directory⟩] at refused
            cases refused
          · simp only [ran, thrown] at tried
            cases (Prod.mk.inj tried).1
        · rw [ran] at tried
          obtain ⟨-, rfl⟩ := Prod.mk.inj tried
          obtain ⟨-, clear, rfl⟩ := (ih named').1 ran
          exact (makeOrAllow_fill_ends_iff sound free named clear).1 ended
      · rintro ⟨fits, clear, rfl⟩
        refine ⟨(), tree.fill outer, ?_, (makeOrAllow_fill_ends_iff sound free named clear.above).2 ⟨fits, clear, rfl⟩⟩
        rw [tryCatch_apply, (ih named').2 ⟨fits.above, clear.above, rfl⟩]

end WasmPackaging.FileTree
