import WasmPackaging.Proofs.FileTree.Growth
import WasmPackaging.Proofs.FileTree.Ways

/-!
Files that are given other names in their directories, one after another. Such moves change no directory, and the links that they
leave lead to no directory to which they did not lead before (`Shuffled`), so the directories in which they go on are those of the
start (`Shuffled.leadsInto`). What stands where in the end is then told by the locations alone, each move carrying what stands at
one to another (`Carries`, `Shuffled.move`). When no place is reached twice and none is left and reached, the order does not matter
(`Carries.lookup_target`, `Carries.lookup_source`, `Carries.lookup_other`).
-/

namespace WasmPackaging.FileTree

open Text

variable {tree now after : FileTree}

/-! ## Ways that stay open -/

/-- A link with a text leads to a directory from the one it stands in. -/
def LinksToDirectory (tree : FileTree) (outer : Location) (target : String) : Prop :=
  ∃ n place, tree.Reaches n (linkStart outer target) (slashed target) place ∧ tree.lookup place = some .directory

/-- A link with a text leads to a file from the directory it stands in. -/
def LinksToFile (tree : FileTree) (outer : Location) (target : String) : Prop :=
  ∃ n place, tree.Reaches n (linkStart outer target) (slashed target) place ∧ tree.HoldsFile place

theorem LinksToFile.not_directory {outer : Location} {target : String} (file : tree.LinksToFile outer target) :
    ¬ tree.LinksToDirectory outer target := by
  rintro ⟨_, place, way, directory⟩
  obtain ⟨_, place', way', content, there⟩ := file
  obtain ⟨-, rfl⟩ := way.unique way'
  simp [directory] at there

/-- Parts lead to the same directory in a tree that keeps the directories, and the links that lead to directories in it. -/
theorem Reaches.carry {n : Nat} {place goal : Location} {parts : List String} (sound : now.WellFormed)
    (directories : ∀ location, tree.lookup location = some .directory → now.lookup location = some .directory)
    (links : ∀ outer name target, tree.lookup (outer ++ [name]) = some (.link target) → now.LinksToDirectory outer target →
      now.lookup (outer ++ [name]) = some (.link target))
    (start : now.lookup place = some .directory) (reaches : tree.Reaches n place parts goal)
    (directory : tree.lookup goal = some .directory) : now.Reaches n place parts goal := by
  induction reaches with
  | here place => exact .here place
  | stay blank _ ih => exact .stay blank (ih start directory)
  | up _ ih => exact .up (ih (sound.directory_dropLast start) directory)
  | down step inner _ ih => exact .down step (directories _ inner) (ih (directories _ inner) directory)
  | last _ _ entry => simp [IsEnd, directory] at entry
  | @link n place goal part target rest step inner _ ih =>
    have onward := ih (lookup_linkStart start target) directory
    refine .link step (links place part target inner ?_) onward
    by_cases last : rest = []
    · rw [last, List.append_nil] at onward
      exact ⟨n, goal, onward, directories _ directory⟩
    · obtain ⟨m, -, middle, -, before, inside, -⟩ := onward.split_directory sound (lookup_linkStart start target) last
      exact ⟨m, middle, before, inside⟩

/-- A tree has the directories of another, and its links stand there too or would lead to files. -/
structure Shuffled (tree now : FileTree) : Prop where
  sound : now.WellFormed
  working : now.workingDirectory = tree.workingDirectory
  directory : ∀ location, now.lookup location = some .directory ↔ tree.lookup location = some .directory
  link : ∀ outer name target, now.lookup (outer ++ [name]) = some (.link target) →
    tree.lookup (outer ++ [name]) = some (.link target) ∨ tree.LinksToFile outer target

namespace Shuffled

theorem refl (sound : tree.WellFormed) : Shuffled tree tree := ⟨sound, rfl, fun _ => Iff.rfl, fun _ _ _ link => .inl link⟩

variable (shuffled : Shuffled tree now)

include shuffled

theorem start_eq (path : Path) : now.start path = tree.start path := by
  unfold FileTree.start
  rw [shuffled.working]

variable (sound : tree.WellFormed)

include sound

/-- What leads to a directory led there before. -/
theorem reaches {n : Nat} {place goal : Location} {parts : List String} (start : tree.lookup place = some .directory)
    (reaches : now.Reaches n place parts goal) (directory : now.lookup goal = some .directory) : tree.Reaches n place parts goal := by
  refine reaches.carry sound (fun location => (shuffled.directory location).1) ?_ start directory
  intro outer name target link way
  obtain same | file := shuffled.link outer name target link
  · exact same
  · exact absurd way file.not_directory

theorem leadsInto {path : Path} {base : Location} (leads : now.LeadsInto path base) : tree.LeadsInto path base := by
  obtain ⟨n, enough, reaches⟩ := leads.reached
  rw [shuffled.start_eq] at reaches
  exact ⟨⟨n, enough, shuffled.reaches sound (lookup_start sound path) reaches leads.directory⟩, (shuffled.directory base).1 leads.directory⟩

/-- A path that led into a directory still does, if the links to directories stand where they stood. -/
theorem leadsInto_of {path : Path} {base : Location}
    (links : ∀ outer name target, tree.lookup (outer ++ [name]) = some (.link target) → tree.LinksToDirectory outer target →
      now.lookup (outer ++ [name]) = some (.link target))
    (leads : tree.LeadsInto path base) : now.LeadsInto path base := by
  obtain ⟨n, enough, reaches⟩ := leads.reached
  have directory := (shuffled.directory base).2 leads.directory
  rw [← shuffled.start_eq] at reaches
  refine ⟨⟨n, enough, reaches.carry shuffled.sound (fun location => (shuffled.directory location).2) ?_ ?_ leads.directory⟩, directory⟩
  · intro outer name target link way
    obtain ⟨m, middle, onward, inside⟩ := way
    have start : tree.lookup (linkStart outer target) = some .directory := lookup_linkStart (sound.parent outer name (by simp [link])) target
    exact links outer name target link ⟨m, middle, shuffled.reaches sound start onward inside, (shuffled.directory middle).1 inside⟩
  · exact lookup_start shuffled.sound path

end Shuffled

/-! ## Places of paths -/

/-- The location that a path names. -/
def site (tree : FileTree) (path : Path) : Location :=
  match tree.locate path with
  | .ok (.entry location _) => location
  | .ok (.vacant location) => location
  | .error _ => []

theorem locate_of_leadsInto {path : Path} {base : Location} {name : String} (leads : tree.LeadsInto path base) (valid : IsEntryName name)
    (step : IsStep name) (fine : pathFault? (path.under [name]) = none) :
    tree.locate (path.under [name]) = .ok (tree.found (base ++ [name])) := by
  obtain ⟨n, enough, reaches⟩ := leads.reached
  unfold locate
  rw [fine, start_under, Path.steps_under path (by simpa using valid)]
  simp only
  rw [walk_append reaches enough false (List.cons_ne_nil name []) leads.directory, walk_step step]
  rcases there : tree.lookup (base ++ [name]) with _ | content | target | _ <;> simp [found, there]

/-- A file in a directory can be read by the path to the directory and its name. -/
theorem read_of_leadsInto {path : Path} {base : Location} {name : String} {content : Bytes} (leads : tree.LeadsInto path base)
    (valid : IsEntryName name) (step : IsStep name) (fine : pathFault? (path.under [name]) = none)
    (file : tree.lookup (base ++ [name]) = some (.file content)) : tree.read (path.under [name]) = .ok content := by
  obtain ⟨n, enough, reaches⟩ := leads.reached
  have followed : tree.follow (path.under [name]) = .ok (.entry (base ++ [name]) (.file content)) := by
    unfold follow
    rw [fine, start_under, Path.steps_under path (by simpa using valid)]
    simp only
    rw [walk_append reaches enough true (List.cons_ne_nil name []) leads.directory, walk_step step, file]
    simp
  exact read_eq_ok_iff.2 ⟨_, followed⟩

theorem site_of_leadsInto {path : Path} {base : Location} {name : String} (leads : tree.LeadsInto path base) (valid : IsEntryName name)
    (step : IsStep name) (fine : pathFault? (path.under [name]) = none) : tree.site (path.under [name]) = base ++ [name] := by
  unfold site
  rw [locate_of_leadsInto leads valid step fine]
  rcases there : tree.lookup (base ++ [name]) with _ | entry <;> simp [found, there]

/-! ## Single moves -/

/-- A file is to have another name in its directory. -/
structure Renames (pair : Path × Path) (directory : Path) (old new : String) : Prop where
  source : pair.1 = directory.under [old]
  target : pair.2 = directory.under [new]
  valid : IsEntryName old
  part : isPart new = true
  plain : '/' ∉ new.toList

/-- A renaming has a place: its directory is there, and its names can be looked up. -/
structure Sited (tree : FileTree) (pair : Path × Path) (directory : Path) (old new : String) (base : Location) : Prop where
  renames : Renames pair directory old new
  leads : tree.LeadsInto directory base
  other : new ≠ parentStep
  steps : IsStep old ∧ IsStep new
  fine : pathFault? pair.1 = none ∧ pathFault? pair.2 = none

namespace Sited

variable {pair : Path × Path} {directory : Path} {old new : String} {base : Location} (sited : tree.Sited pair directory old new base)

include sited

theorem valid : IsEntryName new := ⟨sited.renames.part, sited.other, sited.renames.plain⟩

theorem source : tree.site pair.1 = base ++ [old] := by
  rw [sited.renames.source]
  exact site_of_leadsInto sited.leads sited.renames.valid sited.steps.1 (sited.renames.source ▸ sited.fine.1)

theorem target : tree.site pair.2 = base ++ [new] := by
  rw [sited.renames.target]
  exact site_of_leadsInto sited.leads sited.valid sited.steps.2 (sited.renames.target ▸ sited.fine.2)

end Sited

/-- A step to the parent leads to a directory. -/
theorem directory_of_locate_parentStep (sound : tree.WellFormed) {path : Path} {end_ : Found}
    (located : tree.locate (path.under [parentStep]) = .ok end_) : ∃ location, end_ = .entry location .directory := by
  have steps : (path.under [parentStep]).steps = path.steps ++ [parentStep] := by
    have whole : slashed parentStep = [parentStep] := by decide
    simp [Path.steps, Path.under, whole]
  have walked := (locate_eq_ok_iff.1 located).2
  rw [start_under, steps] at walked
  obtain ⟨_, -, middle, -, -, last⟩ := exists_of_walk_append sound (lookup_start sound path) (List.cons_ne_nil _ []) walked
  rw [walk_up, walk_nil] at last
  exact ⟨_, (Except.ok.inj last).symm⟩

/-- A tree in which an entry has been given another name in its directory. -/
def renamed (tree : FileTree) (base : Location) (old new : String) (entry : Entry) : FileTree :=
  if base ++ [old] = base ++ [new] then tree else (tree.erase (base ++ [old])).put (base ++ [new]) entry

/-- A file or a link that is given another name is taken from one place in its directory to another. -/
theorem exists_of_move {pair : Path × Path} {directory : Path} {old new : String} (sound : tree.WellFormed)
    (renames : Renames pair directory old new) (moved : tree.move pair.1 pair.2 = .ok after) :
    ∃ base entry, tree.Sited pair directory old new base ∧ tree.lookup (base ++ [old]) = some entry ∧ entry ≠ .directory ∧
      tree.lookup (base ++ [new]) ≠ some .directory ∧ after = tree.renamed base old new entry := by
  unfold FileTree.move at moved
  rcases from_ : tree.locate pair.1 with fault | end_
  · simp [from_] at moved
  · rcases to_ : tree.locate pair.2 with fault | end_'
    · rcases end_ with ⟨place, _ | _ | _⟩ | place <;> simp [from_, to_] at moved
    · have fine := (locate_eq_ok_iff.1 from_).1
      have fine' := (locate_eq_ok_iff.1 to_).1
      obtain ⟨step, base, leads, rfl⟩ := locate_under sound renames.valid (renames.source ▸ from_)
      have other : new ≠ parentStep := by
        rintro rfl
        obtain ⟨place, rfl⟩ := directory_of_locate_parentStep sound (renames.target ▸ to_)
        rcases there : tree.found (base ++ [old]) with ⟨place, _ | _ | _⟩ | place <;> simp [from_, to_, there] at moved
      obtain ⟨step', base', leads', rfl⟩ := locate_under sound ⟨renames.part, other, renames.plain⟩ (renames.target ▸ to_)
      obtain rfl := leads.unique leads'
      have sited : tree.Sited pair directory old new base := ⟨renames, leads, other, ⟨step, step'⟩, fine, fine'⟩
      rcases there : tree.lookup (base ++ [old]) with _ | entry
      · simp [from_, to_, found, there] at moved
      · by_cases solid : entry = .directory
        · simp [from_, to_, found, there, solid] at moved
        · refine ⟨base, entry, sited, there, solid, ?_, ?_⟩
          · intro there'
            cases entry <;> simp [from_, to_, found, there, there'] at moved solid
          · unfold renamed
            rcases there' : tree.lookup (base ++ [new]) with _ | entry'
            · have apart : base ++ [old] ≠ base ++ [new] := by
                intro same
                simp [← same, there] at there'
              rw [if_neg apart]
              cases entry <;> simp [from_, to_, found, there, there'] at moved solid <;> exact moved.symm
            · cases entry <;> cases entry' <;> simp [from_, to_, found, there, there'] at moved solid <;> simp [← moved]

/-! ## What is carried -/

/-- What stands at one location is carried to another. -/
def carried (look : Location → Option Entry) (move : Location × Location) : Location → Option Entry :=
  fun location => if location = move.2 then look move.1 else if location = move.1 then none else look location

/-- Something is carried from one location to another, again and again. -/
inductive Carries : (Location → Option Entry) → List (Location × Location) → (Location → Option Entry) → Prop
  | none (look : Location → Option Entry) : Carries look [] look
  | first {look later : Location → Option Entry} {move : Location × Location} {moves : List (Location × Location)} :
      look move.1 ≠ .none → Carries (carried look move) moves later → Carries look (move :: moves) later

namespace Carries

variable {look later : Location → Option Entry} {moves : List (Location × Location)} {location : Location}

/-- What is neither left nor reached is as it was. -/
theorem lookup_other (carries : Carries look moves later) (left : ∀ move ∈ moves, move.1 ≠ location) (free : ∀ move ∈ moves, move.2 ≠ location) :
    later location = look location := by
  induction carries with
  | none => rfl
  | first _ _ ih =>
    obtain ⟨left, lefts⟩ := List.forall_mem_cons.1 left
    obtain ⟨free, frees⟩ := List.forall_mem_cons.1 free
    rw [ih lefts frees, carried, if_neg free.symm, if_neg left.symm]

/-- What is carried from each place to the place itself is as it was. -/
theorem eq_of_still (carries : Carries look moves later) (still : ∀ move ∈ moves, move.1 = move.2) : later = look := by
  induction carries with
  | none => rfl
  | @first look later move moves _ _ ih =>
    obtain ⟨here, rest⟩ := List.forall_mem_cons.1 still
    rw [ih rest]
    funext location
    unfold carried
    rw [here]
    split
    · next same => rw [same]
    · rfl

/-- What stands at a place in the end stood there, or at a place that was left. -/
theorem exists_of_lookup {entry : Entry} (carries : Carries look moves later) (there : later location = some entry) :
    ∃ place, look place = some entry ∧ (place = location ∨ ∃ move ∈ moves, move.1 = place) := by
  induction carries with
  | none => exact ⟨location, there, .inl rfl⟩
  | @first look later move moves _ _ ih =>
    obtain ⟨place, between, from_⟩ := ih there
    unfold carried at between
    split at between
    · exact ⟨move.1, between, .inr ⟨move, List.mem_cons_self, rfl⟩⟩
    · split at between
      · cases between
      · exact ⟨place, between, from_.imp_right fun ⟨other, mem, same⟩ => ⟨other, List.mem_cons_of_mem move mem, same⟩⟩

/-- A place that is free, or that is left, is free in the end unless it is reached. -/
theorem lookup_source (carries : Carries look moves later) (left : look location = .none ∨ ∃ move ∈ moves, move.1 = location)
    (free : ∀ move ∈ moves, move.2 ≠ location) : later location = .none := by
  induction carries with
  | none => simpa using left
  | @first look later move moves _ _ ih =>
    obtain ⟨here, frees⟩ := List.forall_mem_cons.1 free
    refine ih ?_ frees
    rw [carried, if_neg here.symm]
    by_cases same : location = move.1
    · exact .inl (if_pos same)
    · rw [if_neg same]
      refine left.imp_right fun ⟨move', mem, same'⟩ => ⟨move', (List.mem_cons.1 mem).resolve_left ?_, same'⟩
      rintro rfl
      exact same same'.symm

theorem append {before after_ : List (Location × Location)} (carries : Carries look (before ++ after_) later) :
    ∃ between, Carries look before between ∧ Carries between after_ later := by
  induction before generalizing look with
  | nil => exact ⟨look, .none look, carries⟩
  | cons move before ih =>
    cases carries with
    | first there onward =>
      obtain ⟨between, first, second⟩ := ih onward
      exact ⟨between, .first there first, second⟩

/-- Where all places that are reached differ, from each other and from those that are left, what stood at a place stands in the end
where it was carried. -/
theorem lookup_target (carries : Carries look moves later) (apart : moves.Pairwise fun move other => move.2 ≠ other.2)
    (fresh : ∀ move ∈ moves, ∀ other ∈ moves, move.2 ≠ other.1) {move : Location × Location} (mem : move ∈ moves) :
    later move.2 = look move.1 := by
  obtain ⟨before, after_, rfl⟩ := List.append_of_mem mem
  obtain ⟨between, first, second⟩ := carries.append
  cases second with
  | first there onward =>
    obtain ⟨-, apart, -⟩ := List.pairwise_append.1 apart
    have unmoved : ∀ other ∈ before, other.1 ≠ move.1 := by
      intro other mem' same
      refine there (first.lookup_source (.inr ⟨other, mem', same⟩) fun other' mem'' => ?_)
      exact fresh other' (List.mem_append_left _ mem'') move mem
    have kept : between move.1 = look move.1 :=
      first.lookup_other unmoved fun other mem' => fresh other (List.mem_append_left _ mem') move mem
    have later_eq := onward.lookup_other (fun other mem' => (fresh move mem other (by simp [mem'])).symm)
      fun other mem' => ((List.pairwise_cons.1 apart).1 other mem').symm
    rw [later_eq, carried, if_pos rfl, kept]

/-- Something stands in the end where something stood that was not left, and where something was carried that was not left since. -/
theorem present_iff (carries : Carries look moves later) : later location ≠ .none ↔
    (look location ≠ .none ∧ ∀ move ∈ moves, move.1 ≠ location) ∨
      ∃ before move after_, moves = before ++ move :: after_ ∧ move.2 = location ∧ ∀ other ∈ after_, other.1 ≠ location := by
  induction carries with
  | none look => simp
  | @first look later move moves there _ ih =>
    have here : carried look move location ≠ .none ↔ move.2 = location ∨ (look location ≠ .none ∧ move.1 ≠ location) := by
      unfold carried
      by_cases reached : location = move.2
      · simp [reached, there]
      · by_cases left : location = move.1
        · subst left
          simp [reached, Ne.symm reached]
        · simp [reached, left, Ne.symm reached, Ne.symm left]
    rw [ih, here]
    constructor
    · rintro (⟨reached | ⟨present, unmoved⟩, rest⟩ | ⟨before, other, after_, rfl, reached, rest⟩)
      · exact .inr ⟨[], move, moves, rfl, reached, rest⟩
      · exact .inl ⟨present, List.forall_mem_cons.2 ⟨unmoved, rest⟩⟩
      · exact .inr ⟨move :: before, other, after_, rfl, reached, rest⟩
    · rintro (⟨present, unmoved⟩ | ⟨before, other, after_, whole, reached, rest⟩)
      · obtain ⟨first, rest⟩ := List.forall_mem_cons.1 unmoved
        exact .inl ⟨.inr ⟨present, first⟩, rest⟩
      · cases before with
        | nil =>
          obtain ⟨rfl, rfl⟩ := List.cons.inj whole
          exact .inl ⟨.inl reached, rest⟩
        | cons first before =>
          obtain ⟨rfl, rfl⟩ := List.cons.inj whole
          exact .inr ⟨before, other, after_, rfl, reached, rest⟩

end Carries

/-! ## Moves in a shuffled tree -/

/-- A link by which a path leads to a file leads there from its directory. -/
theorem linksToFile_of_follow {path : Path} {base place : Location} {name target : String} {content : Bytes} (sound : tree.WellFormed)
    (valid : IsEntryName name) (leads : tree.LeadsInto path base) (link : tree.lookup (base ++ [name]) = some (.link target))
    (followed : tree.follow (path.under [name]) = .ok (.entry place (.file content))) : tree.LinksToFile base target := by
  have there := lookup_of_follow sound followed
  have followed' : tree.follow (path.under [name]) = .ok (tree.found place) := by rw [followed, found, there]
  obtain ⟨base', into, n, reaches⟩ := leadsInto_of_follow sound (by simpa using valid) (List.cons_ne_nil name []) followed'
  obtain rfl := leads.unique into
  cases reaches with
  | stay blank => simp [valid.1] at blank
  | up => exact absurd rfl valid.2.1
  | down _ directory => simp [link] at directory
  | last _ _ entry => simp [IsEnd, link] at entry
  | link _ same onward =>
    obtain rfl : target = _ := by simpa [link] using same
    rw [List.append_nil] at onward
    exact ⟨_, place, onward, content, there⟩

section renamed

variable {base : Location} {old new : String} {entry : Entry} (there : tree.lookup (base ++ [old]) = some entry)

theorem workingDirectory_renamed : (tree.renamed base old new entry).workingDirectory = tree.workingDirectory := by
  unfold renamed
  split <;> rfl

include there

theorem lookup_renamed : (tree.renamed base old new entry).lookup = carried tree.lookup (base ++ [old], base ++ [new]) := by
  funext location
  unfold carried renamed
  by_cases unmoved : base ++ [old] = base ++ [new]
  · rw [if_pos unmoved, ← unmoved]
    by_cases here : location = base ++ [old] <;> simp [here]
  · rw [if_neg unmoved, lookup_put _ (List.concat_ne_nil new base), lookup_erase _ (List.concat_ne_nil old base), there]

theorem WellFormed.renamed (sound : tree.WellFormed) (directory : tree.lookup base = some .directory) (solid : entry ≠ .directory)
    (free : tree.lookup (base ++ [new]) ≠ some .directory) (valid : IsEntryName new) : (tree.renamed base old new entry).WellFormed := by
  unfold FileTree.renamed
  split
  · exact sound
  · refine (sound.erase (by simpa [there] using solid)).put ?_ valid ?_
    · rw [lookup_erase _ (List.concat_ne_nil old base), if_neg (by simp), directory]
    · intro inside
      rw [lookup_erase _ (List.concat_ne_nil old base)] at inside
      split at inside
      · cases inside
      · exact absurd inside free

end renamed

/-- A file that is given another name leaves the tree shuffled, and is carried from its place to the new one. -/
theorem Shuffled.move {pair : Path × Path} {directory : Path} {old new : String} (sound : tree.WellFormed) (shuffled : Shuffled tree now)
    (renames : Renames pair directory old new) (file : ∃ place content, tree.follow pair.1 = .ok (.entry place (.file content)))
    (moved : now.move pair.1 pair.2 = .ok after) :
    ∃ base, tree.Sited pair directory old new base ∧ tree.lookup (base ++ [new]) ≠ some .directory ∧ Shuffled tree after ∧
      now.lookup (base ++ [old]) ≠ none ∧ after.lookup = carried now.lookup (base ++ [old], base ++ [new]) := by
  obtain ⟨base, entry, sited, there, solid, free, rfl⟩ := exists_of_move shuffled.sound renames moved
  have sited' : tree.Sited pair directory old new base :=
    ⟨renames, shuffled.leadsInto sound sited.leads, sited.other, sited.steps, sited.fine⟩
  have look : (now.renamed base old new entry).lookup = carried now.lookup (base ++ [old], base ++ [new]) := lookup_renamed there
  have sound' := shuffled.sound.renamed there sited.leads.directory solid free sited.valid
  have erased : now.lookup (base ++ [old]) ≠ some .directory := by simpa [there] using solid
  refine ⟨base, sited', fun inside => free ((shuffled.directory _).2 inside), ⟨sound', workingDirectory_renamed.trans shuffled.working,
    fun location => ?_, fun outer name target link => ?_⟩, by simp [there], look⟩
  · rw [look, ← shuffled.directory, carried]
    by_cases new_ : location = base ++ [new]
    · rw [if_pos new_, new_]
      exact iff_of_false erased free
    · rw [if_neg new_]
      by_cases old_ : location = base ++ [old]
      · rw [if_pos old_, old_]
        exact iff_of_false (by simp) erased
      · rw [if_neg old_]
  · rw [look, carried] at link
    by_cases new_ : outer ++ [name] = base ++ [new]
    · rw [if_pos new_] at link
      obtain ⟨rfl, -⟩ := List.append_singleton_inj.1 new_
      obtain here | leads := shuffled.link outer old target link
      · obtain ⟨place, content, followed⟩ := file
        exact .inr (linksToFile_of_follow sound renames.valid sited'.leads here (renames.source ▸ followed))
      · exact .inr leads
    · rw [if_neg new_] at link
      split at link
      · cases link
      · exact shuffled.link outer name target link

end WasmPackaging.FileTree
