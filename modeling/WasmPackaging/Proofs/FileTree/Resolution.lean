import WasmPackaging.FileTree.Change
import WasmPackaging.FileTree.Resolution
import WasmPackaging.Proofs.FileTree.Walk

/-!
Real locations. Resolving the parts of a path leads where walking them does (`resolveFrom_of_reaches`),
so the real location of a path that leads to an entry is the place of that entry
(`resolve_of_follow`).
-/

namespace WasmPackaging.FileTree

variable {tree : FileTree}

/-- The text of a link leads to a location from the directory that the link stands in. -/
def LinkReaches (tree : FileTree) (n : Nat) (link goal : Location) : Prop :=
  ∃ target, tree.lookup link = some (.link target) ∧
    tree.Reaches n (linkStart link.dropLast target) (slashed target) goal

theorem LinkReaches.unique {n m : Nat} {link goal other : Location} (first : tree.LinkReaches n link goal)
    (second : tree.LinkReaches m link other) : n = m ∧ goal = other := by
  obtain ⟨target, entry, reaches⟩ := first
  obtain ⟨target', entry', reaches'⟩ := second
  obtain rfl : target = target' := by simpa [entry] using entry'
  exact reaches.unique reaches'

/-- Every link of a trail with a known end leads there. -/
def Trail.Closed (tree : FileTree) (trail : Trail) : Prop :=
  ∀ link goal, trail.lookup link = some (some goal) → ∃ n, tree.LinkReaches n link goal

/-- Every link of a trail that is still being resolved leads somewhere, over `n` links at least. -/
def Trail.Open (tree : FileTree) (n : Nat) (trail : Trail) : Prop :=
  ∀ link, trail.lookup link = some none → ∃ m goal, n ≤ m ∧ tree.LinkReaches m link goal

theorem Trail.met_iff (trail : Trail) (link : Location) : trail.met link = true ↔ trail.lookup link ≠ none := by
  unfold Trail.met
  induction trail with
  | nil => simp
  | cons e trail ih =>
    rw [List.any_cons, Bool.or_eq_true, ih, List.lookup_cons]
    by_cases same : e.1 = link
    · simp [same]
    · simp [same, beq_eq_false_iff_ne.2 (Ne.symm same)]

namespace Trail

variable {trail later : Trail} {n m : Nat} {link goal : Location}

theorem Closed.meet (closed : trail.Closed tree) (link : Location) : Closed tree ((link, none) :: trail) := by
  intro other goal
  rw [List.lookup_cons]
  split
  · simp
  · exact closed other goal

theorem Closed.know (closed : trail.Closed tree) (leads : tree.LinkReaches n link goal) :
    Closed tree ((link, some goal) :: trail) := by
  intro other end_
  rw [List.lookup_cons]
  split
  · next same =>
    rw [eq_of_beq same]
    rintro ⟨rfl⟩
    exact ⟨n, leads⟩
  · exact closed other end_

/-- A trail on which no more links are being resolved than on an open one is open, for fewer links as well. -/
theorem Open.of_unresolved (opened : trail.Open tree n) (enough : m ≤ n)
    (still : ∀ link, later.lookup link = some none → trail.lookup link = some none) : later.Open tree m := by
  intro link unknown
  obtain ⟨k, goal, more, leads⟩ := opened link (still link unknown)
  exact ⟨k, goal, Nat.le_trans enough more, leads⟩

theorem Open.meet (opened : trail.Open tree n) (enough : m ≤ n) (leads : tree.LinkReaches m link goal) :
    Open tree m ((link, none) :: trail) := by
  intro other
  rw [List.lookup_cons]
  split
  · next same =>
    rw [eq_of_beq same]
    exact fun _ => ⟨m, goal, Nat.le_refl m, leads⟩
  · exact opened.of_unresolved enough (fun _ unknown => unknown) other

/-- Once it is known where a link leads, only those links are being resolved that were before it was met. -/
theorem unresolved_know (still : ∀ other, later.lookup other = some none → List.lookup other ((link, none) :: trail) = some none)
    (other : Location) (unknown : List.lookup other ((link, some goal) :: later) = some none) :
    trail.lookup other = some none := by
  rw [List.lookup_cons] at unknown
  split at unknown
  · simp at unknown
  · next apart =>
    have before := still other unknown
    rwa [List.lookup_cons, apart] at before

end Trail

section resolveFrom

variable {trail : Trail} {place : Location} {part : String} {tasks : List Task}

theorem resolveFrom_stay (blank : isPart part = false) :
    tree.resolveFrom trail place (.part part :: tasks) = tree.resolveFrom trail place tasks := by
  rw [resolveFrom]
  simp [blank]

theorem resolveFrom_up :
    tree.resolveFrom trail place (.part parentStep :: tasks) = tree.resolveFrom trail place.dropLast tasks := by
  rw [resolveFrom]
  simp [isPart_parentStep]

theorem resolveFrom_seal (link : Location) :
    tree.resolveFrom trail place (.seal link :: tasks) =
      tree.resolveFrom ((link, some place) :: trail) place tasks := by rw [resolveFrom]

theorem resolveFrom_down (valid : isPart part = true) (down : part ≠ parentStep)
    (other : ∀ target, tree.lookup (place ++ [part]) ≠ some (.link target)) :
    tree.resolveFrom trail place (.part part :: tasks) = tree.resolveFrom trail (place ++ [part]) tasks := by
  rw [resolveFrom]
  simp only [valid, Bool.not_true, Bool.false_eq_true, if_false, down]

theorem resolveFrom_unmet {target : String} (step : IsStep part)
    (entry : tree.lookup (place ++ [part]) = some (.link target)) (unmet : trail.lookup (place ++ [part]) = none) :
    tree.resolveFrom trail place (.part part :: tasks) =
      tree.resolveFrom ((place ++ [part], none) :: trail) (linkStart place target)
        ((slashed target).map .part ++ .seal (place ++ [part]) :: tasks) := by
  have met : trail.met (place ++ [part]) = false := by
    rw [← Bool.not_eq_true, Trail.met_iff, unmet]
    simp
  rw [resolveFrom]
  simp only [step.1, Bool.not_true, Bool.false_eq_true, if_false, step.2.1]
  split
  · next other =>
    obtain rfl : target = _ := by simpa [entry] using other
    split
    · next other => simp [met] at other
    · rfl
  · next other => exact absurd entry (other _)

theorem resolveFrom_closed {target : String} {goal : Location} (step : IsStep part)
    (entry : tree.lookup (place ++ [part]) = some (.link target))
    (closed : trail.lookup (place ++ [part]) = some (some goal)) :
    tree.resolveFrom trail place (.part part :: tasks) = tree.resolveFrom trail goal tasks := by
  have met : trail.met (place ++ [part]) = true := by
    rw [Trail.met_iff, closed]
    simp
  rw [resolveFrom]
  simp only [step.1, Bool.not_true, Bool.false_eq_true, if_false, step.2.1]
  split
  · split
    · rw [closed]
    · next other => simp [met] at other
  · next other => exact absurd entry (other _)

end resolveFrom

/-- Resolving parts leads where they lead. A link that is met while it is being resolved would have to be
followed over fewer links than it takes, so no trail gets in the way. -/
theorem resolveFrom_of_reaches {n : Nat} {place goal : Location} {parts : List String}
    (reaches : tree.Reaches n place parts goal) (trail : Trail) (tasks : List Task)
    (closed : trail.Closed tree) (opened : trail.Open tree n) :
    ∃ later : Trail, tree.resolveFrom trail place (parts.map .part ++ tasks) = tree.resolveFrom later goal tasks ∧
      later.Closed tree ∧ ∀ link, later.lookup link = some none → trail.lookup link = some none := by
  induction n using Nat.strongRecOn generalizing place goal parts trail tasks with
  | _ n fewer =>
  induction parts generalizing place with
  | nil =>
    cases reaches
    exact ⟨trail, rfl, closed, fun _ h => h⟩
  | cons part rest ih =>
    rw [List.map_cons, List.cons_append]
    cases reaches with
    | stay blank reaches =>
      rw [resolveFrom_stay blank]
      exact ih reaches
    | up reaches =>
      rw [resolveFrom_up]
      exact ih reaches
    | down step entry reaches =>
      rw [resolveFrom_down step.1 step.2.1 (by simp [entry])]
      exact ih reaches
    | last _ step entry =>
      rw [resolveFrom_down step.1 step.2.1 (fun target same => by simp [IsEnd, same] at entry)]
      exact ⟨trail, rfl, closed, fun _ h => h⟩
    | @link n _ _ _ target _ step entry reaches =>
      obtain ⟨m, k, middle, sum, inside, behind⟩ := reaches.split
      have leads : tree.LinkReaches m (place ++ [part]) middle := ⟨target, entry, by simpa using inside⟩
      cases known : trail.lookup (place ++ [part]) with
      | none =>
        rw [resolveFrom_unmet step entry known]
        obtain ⟨trail₁, same₁, closed₁, open₁⟩ :=
          fewer m (by omega) inside _ (.seal (place ++ [part]) :: (rest.map .part ++ tasks)) (closed.meet _)
            (opened.meet (by omega) leads)
        rw [same₁, resolveFrom_seal]
        have still (link : Location) : List.lookup link ((place ++ [part], some middle) :: trail₁) = some none →
            trail.lookup link = some none := Trail.unresolved_know open₁ link
        obtain ⟨trail₂, same₂, closed₂, open₂⟩ :=
          fewer k (by omega) behind _ tasks (closed₁.know leads) (opened.of_unresolved (by omega) still)
        exact ⟨trail₂, same₂, closed₂, fun link unknown => still link (open₂ link unknown)⟩
      | some end? =>
        cases end? with
        | none =>
          obtain ⟨j, end_, enough, other⟩ := opened _ known
          obtain ⟨rfl, -⟩ := leads.unique other
          omega
        | some end_ =>
          obtain ⟨j, other⟩ := closed _ _ known
          obtain ⟨-, rfl⟩ := leads.unique other
          rw [resolveFrom_closed step entry known]
          exact fewer k (by omega) behind trail tasks closed (opened.of_unresolved (by omega) fun _ unknown => unknown)

theorem lookup_start (sound : tree.WellFormed) (path : Path) :
    tree.lookup (tree.start path) = some .directory := by
  unfold start
  split
  · rfl
  · exact sound.working

/-- A path that cannot be looked up holds the zero character, or is too long. -/
theorem pathFault?_eq_some {path : Path} {fault : Fault} (known : pathFault? path = some fault) :
    fault = .zeroCharacter ∨ fault = .nameTooLong := by
  unfold pathFault? at known
  split at known
  · simp_all
  · split at known <;> simp_all

theorem holdsZero_of_pathFault? {path : Path} (known : pathFault? path = none) : path.holdsZero = false := by
  unfold pathFault? at known
  split at known <;> simp_all

/-- What a path leads to is where walking its steps ends. -/
theorem follow_eq_ok_iff (sound : tree.WellFormed) {path : Path} {end_ : Found} :
    tree.follow path = .ok end_ ↔
      pathFault? path = none ∧
        ∃ n ≤ linkLimit, ∃ goal, tree.Reaches n (tree.start path) path.steps goal ∧ end_ = tree.found goal := by
  unfold follow
  cases pathFault? path with
  | some fault => simp
  | none => simp [walk_eq_ok_iff sound (lookup_start sound path)]

/-- What a path names is found by the walk down its steps, if it can be looked up at all. -/
theorem locate_eq_ok_iff {path : Path} {end_ : Found} :
    tree.locate path = .ok end_ ↔ pathFault? path = none ∧ tree.walk false linkLimit (tree.start path) path.steps = .ok end_ := by
  unfold locate
  cases pathFault? path <;> simp

/-- A free place that a path names is where the path leads, every link followed. -/
theorem reaches_of_vacancy (sound : tree.WellFormed) {path : Path} {location : Location}
    (found : tree.vacancy path = .ok location) :
    pathFault? path = none ∧ tree.lookup location = none ∧
      ∃ n ≤ linkLimit, tree.Reaches n (tree.start path) path.steps location := by
  unfold vacancy at found
  split at found
  · next leads =>
    obtain rfl := Except.ok.inj found
    obtain ⟨fine, walked⟩ := locate_eq_ok_iff.1 leads
    obtain same | ⟨place, target, link⟩ := tree.walk_false linkLimit (tree.start path) path.steps
    · rw [same] at walked
      obtain ⟨n, enough, goal, reaches, ends⟩ := reaches_of_walk sound (lookup_start sound path) walked
      obtain ⟨rfl, vacant⟩ := found_eq_vacant_iff.1 ends.symm
      exact ⟨fine, vacant, n, enough, reaches⟩
    · rw [link] at walked
      cases walked
  · cases found
  · cases found

/-- The path to the place of an entry that is no link leads to it, unless it cannot be looked up. -/
theorem follow_ofLocation (sound : tree.WellFormed) {location : Location} {entry : Entry}
    (present : tree.lookup location = some entry) (other : ∀ target, entry ≠ .link target) :
    tree.follow (Path.ofLocation location) = .ok (.entry location entry) ∨
      ∃ fault, tree.follow (Path.ofLocation location) = .error fault ∧ fault ≠ .linkLoop := by
  unfold follow
  split
  · next fault known =>
    refine .inr ⟨fault, rfl, ?_⟩
    obtain rfl | rfl := pathFault?_eq_some known <;> simp
  · rw [Path.steps_ofLocation (sound.areNames (by simp [present]))]
    obtain same | long := walk_down sound true linkLimit (lookup_nil tree) present other
    · exact .inl same
    · exact .inr ⟨_, long, by simp⟩

/-- The path to the place of an entry that is no link leads to it, if it can be looked up and so can each name. -/
theorem follow_of_steps (sound : tree.WellFormed) {location : Location} {entry : Entry}
    (present : tree.lookup location = some entry) (other : ∀ target, entry ≠ .link target)
    (fine : pathFault? (Path.ofLocation location) = none) (steps : ∀ name ∈ location, IsStep name) :
    tree.follow (Path.ofLocation location) = .ok (.entry location entry) := by
  refine (follow_eq_ok_iff sound).2 ⟨fine, 0, Nat.zero_le _, location, ?_, (found_eq_entry_iff.2 ⟨rfl, present⟩).symm⟩
  rw [Path.steps_ofLocation (sound.areNames (by simp [present]))]
  have reaches : tree.Reaches 0 [] location ([] ++ location) :=
    reaches_names sound steps (by simp [present]) (by simpa [present] using other)
  exact reaches

/-- The names of a place that is read can be looked up. -/
theorem isStep_of_read (sound : tree.WellFormed) {location : Location} (named : AreNames location) {content : Text.Bytes}
    (read : tree.read (Path.ofLocation location) = .ok content) : ∀ name ∈ location, IsStep name := by
  intro name mem
  obtain ⟨place, leads⟩ := read_eq_ok_iff.1 read
  obtain ⟨-, n, -, goal, reaches, -⟩ := (follow_eq_ok_iff sound).1 leads
  rw [Path.steps_ofLocation named] at reaches
  exact reaches.isStep mem (named name mem)

/-- The real location of a path is where its steps resolve to, if an entry that is no link stands there. -/
theorem resolve_of_resolveFrom (sound : tree.WellFormed) {path : Path} {goal : Location} {entry : Entry}
    (zero : path.holdsZero = false) (resolved : tree.resolveFrom [] (tree.start path) (path.steps.map .part) = goal)
    (there : tree.lookup goal = some entry) (other : ∀ target, entry ≠ .link target) : tree.resolve path = .ok goal := by
  have straight : tree.follow (Path.ofLocation goal) ≠ .error .linkLoop := by
    obtain same | long := follow_ofLocation sound there other
    · simp [same]
    · obtain ⟨fault, same, known⟩ := long
      simp [same, known]
  rw [resolve, zero, resolved]
  simp only [Bool.false_eq_true, if_false]

/-- The real location of a path whose steps lead to an entry is the place of the entry. -/
theorem resolve_of_reaches (sound : tree.WellFormed) {path : Path} {n : Nat} {goal : Location}
    (zero : path.holdsZero = false) (reaches : tree.Reaches n (tree.start path) path.steps goal)
    (present : tree.lookup goal ≠ none) : tree.resolve path = .ok goal := by
  obtain ⟨entry, there⟩ := Option.ne_none_iff_exists'.1 present
  obtain ⟨trail, resolved, -⟩ :=
    resolveFrom_of_reaches reaches [] [] (by simp [Trail.Closed]) (by simp [Trail.Open])
  rw [List.append_nil, resolveFrom] at resolved
  refine resolve_of_resolveFrom sound zero resolved there ?_
  rintro target rfl
  exact reaches.not_link sound (lookup_start sound path) target there

/-- The real location of a path that leads to an entry is the place of the entry. -/
theorem resolve_of_follow (sound : tree.WellFormed) {path : Path} {location : Location} {entry : Entry}
    (leads : tree.follow path = .ok (.entry location entry)) : tree.resolve path = .ok location := by
  obtain ⟨fault, n, enough, goal, reaches, same⟩ := (follow_eq_ok_iff sound).1 leads
  obtain ⟨rfl, present⟩ := found_eq_entry_iff.1 same.symm
  exact resolve_of_reaches sound (holdsZero_of_pathFault? fault) reaches (by simp [present])

end WasmPackaging.FileTree
