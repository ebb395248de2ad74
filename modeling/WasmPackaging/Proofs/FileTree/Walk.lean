import WasmPackaging.FileTree.Walk
import WasmPackaging.Proofs.FileTree.WellFormed

/-!
Where walks end. `Reaches` says which location some parts lead to without the bound on links; a walk
that follows every link ends there when the bound allows it (`walk_eq_ok_iff`), and the end is the only
one (`Reaches.unique`). A walk over parts that lead on goes on from where the first parts end
(`walk_append`).
-/

namespace WasmPackaging.FileTree

variable {tree : FileTree}

/-- A part that names an entry and is short enough to be looked up. -/
def IsStep (part : String) : Prop :=
  isPart part = true ∧ part ≠ parentStep ∧ part.utf8ByteSize ≤ longestName

instance : DecidablePred IsStep := fun _ => inferInstanceAs (Decidable (_ ∧ _ ∧ _))

/-- An entry that is neither a directory nor a link, or no entry: nothing leads on from there. -/
def IsEnd : Option Entry → Prop
  | some .directory | some (.link _) => False
  | _ => True

/-- Some parts lead from a directory to a location once a number of links are followed. -/
inductive Reaches (tree : FileTree) : Nat → Location → List String → Location → Prop
  | here (place : Location) : Reaches tree 0 place [] place
  | stay {n : Nat} {place goal : Location} {part : String} {rest : List String} :
      isPart part = false → Reaches tree n place rest goal → Reaches tree n place (part :: rest) goal
  | up {n : Nat} {place goal : Location} {rest : List String} :
      Reaches tree n place.dropLast rest goal → Reaches tree n place (parentStep :: rest) goal
  | down {n : Nat} {place goal : Location} {part : String} {rest : List String} :
      IsStep part → tree.lookup (place ++ [part]) = some .directory →
      Reaches tree n (place ++ [part]) rest goal → Reaches tree n place (part :: rest) goal
  | last {place : Location} {part : String} : tree.lookup place = some .directory →
      IsStep part → IsEnd (tree.lookup (place ++ [part])) → Reaches tree 0 place [part] (place ++ [part])
  | link {n : Nat} {place goal : Location} {part target : String} {rest : List String} :
      IsStep part → tree.lookup (place ++ [part]) = some (.link target) →
      Reaches tree n (linkStart place target) (slashed target ++ rest) goal →
      Reaches tree (n + 1) place (part :: rest) goal

/-- What stands at a location, as the end of a walk. -/
def found (tree : FileTree) (location : Location) : Found :=
  match tree.lookup location with
  | some entry => .entry location entry
  | none => .vacant location

theorem found_of_directory {location : Location} (directory : tree.lookup location = some .directory) :
    tree.found location = .entry location .directory := by simp [found, directory]

theorem found_eq_entry_iff {location place : Location} {entry : Entry} :
    tree.found location = .entry place entry ↔ location = place ∧ tree.lookup location = some entry := by
  unfold found
  split <;> simp_all

theorem found_eq_vacant_iff {location place : Location} :
    tree.found location = .vacant place ↔ location = place ∧ tree.lookup location = none := by
  unfold found
  split <;> simp_all

theorem isPart_parentStep : isPart parentStep = true := by decide

/-! ## Single steps -/

section steps

variable {follow : Bool} {limit : Nat} {place : Location} {part : String} {rest : List String}

@[simp] theorem walk_nil (tree : FileTree) (follow : Bool) (limit : Nat) (place : Location) :
    tree.walk follow limit place [] = .ok (.entry place .directory) := by rw [walk]

theorem walk_stay (blank : isPart part = false) :
    tree.walk follow limit place (part :: rest) = tree.walk follow limit place rest := by
  rw [walk]
  simp [blank]

theorem walk_up : tree.walk follow limit place (parentStep :: rest) = tree.walk follow limit place.dropLast rest := by
  rw [walk]
  simp [isPart_parentStep]

theorem walk_step (step : IsStep part) :
    tree.walk follow limit place (part :: rest) =
      match tree.lookup (place ++ [part]) with
      | none => if rest = [] then .ok (.vacant (place ++ [part])) else .error .notFound
      | some .directory => tree.walk follow limit (place ++ [part]) rest
      | some (.file content) =>
        if rest = [] then .ok (.entry (place ++ [part]) (.file content)) else .error .notDirectory
      | some (.link target) =>
        if rest = [] ∧ follow = false then .ok (.entry (place ++ [part]) (.link target))
        else match limit with
          | 0 => .error .linkLoop
          | limit + 1 => tree.walk follow limit (linkStart place target) (slashed target ++ rest) := by
  obtain ⟨valid, other, short⟩ := step
  rw [walk]
  simp only [valid, Bool.not_true, Bool.false_eq_true, if_false, other, Nat.not_lt.2 short]
  cases limit <;> split <;> rename_i entry <;> rw [entry]

theorem walk_of_nameTooLong (valid : isPart part = true) (other : part ≠ parentStep)
    (long : longestName < part.utf8ByteSize) :
    tree.walk follow limit place (part :: rest) = .error .nameTooLong := by
  rw [walk]
  simp [valid, other, long]

/-- A first part stays at the place, leads up, can be looked up, or is too long for it. -/
theorem part_cases (part : String) :
    isPart part = false ∨ part = parentStep ∨ IsStep part ∨
      (isPart part = true ∧ part ≠ parentStep ∧ longestName < part.utf8ByteSize) := by
  unfold IsStep
  cases isPart part <;> by_cases up : part = parentStep <;> simp [up]
  omega

end steps

theorem lookup_linkStart {place : Location} (directory : tree.lookup place = some .directory)
    (target : String) : tree.lookup (linkStart place target) = some .directory := by
  unfold linkStart
  split
  · exact directory
  · rfl

/-! ## Walks that follow every link -/

/-- A walk goes on from where its first parts end, if that is a directory; otherwise it fails. -/
theorem walk_append {n limit : Nat} {place goal : Location} {parts rest : List String}
    (reaches : tree.Reaches n place parts goal) (enough : n ≤ limit) (follow : Bool) (filled : rest ≠ [])
    (directory : tree.lookup goal = some .directory) :
    tree.walk follow limit place (parts ++ rest) = tree.walk follow (limit - n) goal rest := by
  induction reaches generalizing limit with
  | here place => rfl
  | stay blank _ ih => rw [List.cons_append, walk_stay blank, ih enough directory]
  | up _ ih => rw [List.cons_append, walk_up, ih enough directory]
  | down step entry _ ih =>
    rw [List.cons_append, walk_step step, entry]
    exact ih enough directory
  | last _ step entry => simp [IsEnd, directory] at entry
  | @link n place goal part target parts step entry _ ih =>
    obtain ⟨limit, rfl⟩ : ∃ smaller, limit = smaller + 1 := ⟨limit - 1, by omega⟩
    rw [List.cons_append, walk_step step, entry]
    simp only [List.append_eq_nil_iff, filled, and_false, false_and, if_false]
    rw [← List.append_assoc, ih (by omega) directory, Nat.add_sub_add_right]

theorem walk_append_of_isEnd {n limit : Nat} {place goal : Location} {parts rest : List String}
    (reaches : tree.Reaches n place parts goal) (enough : n ≤ limit) (follow : Bool) (filled : rest ≠ [])
    (start : tree.lookup place = some .directory) (sound : tree.WellFormed)
    (entry : IsEnd (tree.lookup goal)) (found : Found) :
    tree.walk follow limit place (parts ++ rest) ≠ .ok found := by
  induction reaches generalizing limit with
  | here place => simp [IsEnd, start] at entry
  | stay blank _ ih =>
    rw [List.cons_append, walk_stay blank]
    exact ih enough start entry
  | up _ ih =>
    rw [List.cons_append, walk_up]
    exact ih enough (sound.directory_dropLast start) entry
  | down step inner _ ih =>
    rw [List.cons_append, walk_step step, inner]
    exact ih enough inner entry
  | @last place part _ step _ =>
    rw [List.cons_append, walk_step step]
    rcases h : tree.lookup (place ++ [part]) with _ | _ | _ | _ <;> simp [filled, h, IsEnd] at entry ⊢
  | @link n place goal part target parts step inner _ ih =>
    obtain ⟨limit, rfl⟩ : ∃ smaller, limit = smaller + 1 := ⟨limit - 1, by omega⟩
    rw [List.cons_append, walk_step step, inner]
    simp only [List.append_eq_nil_iff, filled, and_false, false_and, if_false]
    rw [← List.append_assoc]
    exact ih (by omega) (lookup_linkStart start target) entry

/-- Parts that lead to a location are walked to it, if the bound on links allows it. -/
theorem walk_of_reaches {n limit : Nat} {place goal : Location} {parts : List String}
    (sound : tree.WellFormed) (start : tree.lookup place = some .directory)
    (reaches : tree.Reaches n place parts goal) (enough : n ≤ limit) :
    tree.walk true limit place parts = .ok (tree.found goal) := by
  induction reaches generalizing limit with
  | here place => rw [walk_nil, found_of_directory start]
  | stay blank _ ih => rw [walk_stay blank, ih start enough]
  | up _ ih => rw [walk_up, ih (sound.directory_dropLast start) enough]
  | down step entry _ ih =>
    rw [walk_step step, entry]
    exact ih entry enough
  | @last place part _ step entry =>
    rw [walk_step step, found]
    rcases h : tree.lookup (place ++ [part]) with _ | _ | _ | _ <;> simp_all [IsEnd]
  | @link n place goal part target parts step entry _ ih =>
    obtain ⟨limit, rfl⟩ : ∃ smaller, limit = smaller + 1 := ⟨limit - 1, by omega⟩
    rw [walk_step step, entry]
    simpa using ih (lookup_linkStart start target) (by omega)

/-- A walk that follows every link ends where its parts lead. -/
theorem reaches_of_walk {limit : Nat} {place : Location} {parts : List String} {end_ : Found}
    (sound : tree.WellFormed) (start : tree.lookup place = some .directory)
    (walked : tree.walk true limit place parts = .ok end_) :
    ∃ n ≤ limit, ∃ goal, tree.Reaches n place parts goal ∧ end_ = tree.found goal := by
  induction limit using Nat.strongRecOn generalizing place parts with
  | _ limit fewer =>
  induction parts generalizing place with
  | nil =>
    rw [walk_nil] at walked
    exact ⟨0, Nat.zero_le _, place, .here place, by rw [found_of_directory start, Except.ok.inj walked]⟩
  | cons part rest ih =>
    obtain blank | rfl | step | ⟨valid, other, long⟩ := part_cases part
    · rw [walk_stay blank] at walked
      obtain ⟨n, enough, goal, reaches, same⟩ := ih start walked
      exact ⟨n, enough, goal, .stay blank reaches, same⟩
    · rw [walk_up] at walked
      obtain ⟨n, enough, goal, reaches, same⟩ := ih (sound.directory_dropLast start) walked
      exact ⟨n, enough, goal, .up reaches, same⟩
    · rw [walk_step step] at walked
      have last (ending : IsEnd (tree.lookup (place ++ [part]))) (empty : rest = [])
          (same : end_ = tree.found (place ++ [part])) :
          ∃ n ≤ limit, ∃ goal, tree.Reaches n place (part :: rest) goal ∧ end_ = tree.found goal :=
        ⟨0, Nat.zero_le _, _, empty ▸ .last start step ending, same⟩
      split at walked
      · next entry =>
        split at walked
        · exact last (by simp [IsEnd, entry]) ‹_› (by simp [found, entry, ← Except.ok.inj walked])
        · cases walked
      · next entry =>
        obtain ⟨n, enough, goal, reaches, same⟩ := ih entry walked
        exact ⟨n, enough, goal, .down step entry reaches, same⟩
      · next entry =>
        split at walked
        · exact last (by simp [IsEnd, entry]) ‹_› (by simp [found, entry, ← Except.ok.inj walked])
        · cases walked
      · next target entry =>
        simp only [Bool.true_eq_false, and_false, if_false] at walked
        cases limit with
        | zero => cases walked
        | succ limit =>
          obtain ⟨n, enough, goal, reaches, same⟩ :=
            fewer limit (Nat.lt_succ_self _) (lookup_linkStart start target) walked
          exact ⟨n + 1, Nat.succ_le_succ enough, goal, .link step entry reaches, same⟩
    · rw [walk_of_nameTooLong valid other long] at walked
      cases walked

theorem walk_eq_ok_iff {limit : Nat} {place : Location} {parts : List String} {end_ : Found}
    (sound : tree.WellFormed) (start : tree.lookup place = some .directory) :
    tree.walk true limit place parts = .ok end_ ↔
      ∃ n ≤ limit, ∃ goal, tree.Reaches n place parts goal ∧ end_ = tree.found goal := by
  refine ⟨reaches_of_walk sound start, ?_⟩
  rintro ⟨n, enough, goal, reaches, rfl⟩
  exact walk_of_reaches sound start reaches enough

/-- A walk that leaves the link at its end alone ends there, or is the walk that follows it. -/
theorem walk_false (tree : FileTree) (limit : Nat) (place : Location) (parts : List String) :
    tree.walk false limit place parts = tree.walk true limit place parts ∨
      ∃ location target, tree.walk false limit place parts = .ok (.entry location (.link target)) := by
  induction limit using Nat.strongRecOn generalizing place parts with
  | _ limit fewer =>
  induction parts generalizing place with
  | nil => simp
  | cons part rest ih =>
    obtain blank | rfl | step | ⟨valid, other, long⟩ := part_cases part
    · simpa only [walk_stay blank] using ih place
    · simpa only [walk_up] using ih place.dropLast
    · rw [walk_step step, walk_step step]
      split
      · exact .inl rfl
      · exact ih _
      · exact .inl rfl
      · next target _ =>
        by_cases empty : rest = []
        · exact .inr ⟨place ++ [part], target, by simp [empty]⟩
        · simp only [empty, false_and, if_false]
          cases limit with
          | zero => exact .inl rfl
          | succ limit => exact fewer limit (Nat.lt_succ_self _) _ _
    · simp [walk_of_nameTooLong valid other long]

/-! ## Laws of reaching -/

namespace Reaches

/-- Parts lead on from where their first parts lead. -/
theorem append {n m : Nat} {place middle goal : Location} {parts rest : List String}
    (first : tree.Reaches n place parts middle) (second : tree.Reaches m middle rest goal)
    (directory : tree.lookup middle = some .directory) : tree.Reaches (n + m) place (parts ++ rest) goal := by
  induction first with
  | here place => simpa using second
  | stay blank _ ih => exact .stay blank (ih second directory)
  | up _ ih => exact .up (ih second directory)
  | down step entry _ ih => exact .down step entry (ih second directory)
  | last _ step entry => simp [IsEnd, directory] at entry
  | link step entry _ ih =>
    rw [Nat.add_right_comm]
    exact .link step entry (by simpa using ih second directory)

/-- Parts lead over a location that their first parts lead to. -/
theorem split {n : Nat} {place goal : Location} {parts rest : List String}
    (reaches : tree.Reaches n place (parts ++ rest) goal) :
    ∃ m k middle, n = m + k ∧ tree.Reaches m place parts middle ∧ tree.Reaches k middle rest goal := by
  generalize whole : parts ++ rest = all at reaches
  induction reaches generalizing parts with
  | here place =>
    obtain ⟨rfl, rfl⟩ := List.append_eq_nil_iff.1 whole
    exact ⟨0, 0, place, rfl, .here place, .here place⟩
  | @stay n place goal part others blank later ih =>
    cases parts with
    | nil => exact ⟨0, n, place, by omega, .here place, by rw [← List.nil_append rest, whole]; exact .stay blank later⟩
    | cons first parts =>
      obtain ⟨rfl, behind_eq⟩ := List.cons.inj whole
      obtain ⟨m, k, middle, sum, before, behind⟩ := ih behind_eq
      exact ⟨m, k, middle, sum, .stay blank before, behind⟩
  | @up n place goal others later ih =>
    cases parts with
    | nil => exact ⟨0, n, place, by omega, .here place, by rw [← List.nil_append rest, whole]; exact .up later⟩
    | cons first parts =>
      obtain ⟨rfl, behind_eq⟩ := List.cons.inj whole
      obtain ⟨m, k, middle, sum, before, behind⟩ := ih behind_eq
      exact ⟨m, k, middle, sum, .up before, behind⟩
  | @down n place goal part others step entry later ih =>
    cases parts with
    | nil => exact ⟨0, n, place, by omega, .here place, by rw [← List.nil_append rest, whole]; exact .down step entry later⟩
    | cons first parts =>
      obtain ⟨rfl, behind_eq⟩ := List.cons.inj whole
      obtain ⟨m, k, middle, sum, before, behind⟩ := ih behind_eq
      exact ⟨m, k, middle, sum, .down step entry before, behind⟩
  | @last place part inside step entry =>
    cases parts with
    | nil => exact ⟨0, 0, place, rfl, .here place, by rw [← List.nil_append rest, whole]; exact .last inside step entry⟩
    | cons first parts =>
      obtain ⟨rfl, behind_eq⟩ := List.cons.inj whole
      obtain ⟨rfl, rfl⟩ := List.append_eq_nil_iff.1 behind_eq
      exact ⟨0, 0, _, rfl, .last inside step entry, .here _⟩
  | @link n place goal part target others step entry later ih =>
    cases parts with
    | nil => exact ⟨0, n + 1, place, by omega, .here place, by rw [← List.nil_append rest, whole]; exact .link step entry later⟩
    | cons first parts =>
      obtain ⟨rfl, behind_eq⟩ := List.cons.inj whole
      obtain ⟨m, k, middle, sum, before, behind⟩ := 
        ih (show (slashed target ++ parts) ++ rest = _ by simp [← behind_eq])
      exact ⟨m + 1, k, middle, by omega, .link step entry before, behind⟩

/-- Parts lead to one location, over one number of links. -/
theorem unique {n m : Nat} {place goal other : Location} {parts : List String}
    (first : tree.Reaches n place parts goal) (second : tree.Reaches m place parts other) :
    n = m ∧ goal = other := by
  induction first generalizing m with
  | here place => cases second; exact ⟨rfl, rfl⟩
  | stay blank _ ih =>
    cases second with
    | stay _ later => exact ih later
    | up => simp [isPart_parentStep] at blank
    | down step | link step => simp [step.1] at blank
    | last _ step => simp [step.1] at blank
  | up _ ih =>
    cases second with
    | stay blank => simp [isPart_parentStep] at blank
    | up later => exact ih later
    | down step | link step => exact absurd rfl step.2.1
    | last _ step => exact absurd rfl step.2.1
  | down step entry _ ih =>
    cases second with
    | stay blank => simp [step.1] at blank
    | up => exact absurd rfl step.2.1
    | down _ _ later => exact ih later
    | last _ _ ending => simp [IsEnd, entry] at ending
    | link _ other => simp [entry] at other
  | last _ step entry =>
    cases second with
    | stay blank => simp [step.1] at blank
    | up => exact absurd rfl step.2.1
    | down _ other => simp [IsEnd, other] at entry
    | last => exact ⟨rfl, rfl⟩
    | link _ other => simp [IsEnd, other] at entry
  | link step entry _ ih =>
    cases second with
    | stay blank => simp [step.1] at blank
    | up => exact absurd rfl step.2.1
    | down _ other => simp [entry] at other
    | last _ _ ending => simp [IsEnd, entry] at ending
    | link _ same later =>
      rw [entry] at same
      obtain ⟨rfl⟩ := same
      obtain ⟨rfl, rfl⟩ := ih later
      exact ⟨rfl, rfl⟩

/-- No link stands where parts lead. -/
theorem not_link {n : Nat} {place goal : Location} {parts : List String} (sound : tree.WellFormed)
    (start : tree.lookup place = some .directory) (reaches : tree.Reaches n place parts goal)
    (target : String) : tree.lookup goal ≠ some (.link target) := by
  induction reaches with
  | here place => simp [start]
  | stay _ _ ih => exact ih start
  | up _ ih => exact ih (sound.directory_dropLast start)
  | down _ entry _ ih => exact ih entry
  | last _ _ entry =>
    intro link
    simp [IsEnd, link] at entry
  | link _ _ _ ih => exact ih (lookup_linkStart start _)

/-- A name among parts that lead somewhere can be looked up. -/
theorem isStep {n : Nat} {place goal : Location} {parts : List String} (reaches : tree.Reaches n place parts goal)
    {name : String} (mem : name ∈ parts) (valid : IsEntryName name) : IsStep name := by
  induction reaches with
  | here => simp at mem
  | stay blank _ ih =>
    obtain rfl | later := List.mem_cons.1 mem
    · simp [valid.1] at blank
    · exact ih later
  | up _ ih =>
    obtain rfl | later := List.mem_cons.1 mem
    · exact absurd rfl valid.2.1
    · exact ih later
  | down step _ _ ih =>
    obtain rfl | later := List.mem_cons.1 mem
    · exact step
    · exact ih later
  | last _ step _ =>
    obtain rfl := List.mem_singleton.1 mem
    exact step
  | link step _ _ ih =>
    obtain rfl | later := List.mem_cons.1 mem
    · exact step
    · exact ih (List.mem_append_right _ later)

/-- Parts lead to the same location in a tree that keeps the directories and links on the way, as long as
no link comes to stand at the end. -/
theorem mono {other : FileTree} {n : Nat} {place goal : Location} {parts : List String}
    (reaches : tree.Reaches n place parts goal)
    (kept : ∀ location entry, tree.lookup location = some entry → ¬ IsEnd (some entry) →
      other.lookup location = some entry)
    (unlinked : ∀ target, other.lookup goal ≠ some (.link target)) :
    other.Reaches n place parts goal := by
  induction reaches with
  | here place => exact .here place
  | stay blank _ ih => exact .stay blank (ih unlinked)
  | up _ ih => exact .up (ih unlinked)
  | down step entry _ ih => exact .down step (kept _ _ entry (by simp [IsEnd])) (ih unlinked)
  | @last place part inside step _ =>
    by_cases directory : other.lookup (place ++ [part]) = some .directory
    · exact .down step directory (.here _)
    · refine .last (kept _ _ inside (by simp [IsEnd])) step ?_
      rcases h : other.lookup (place ++ [part]) with _ | _ | target | _ <;> simp_all [IsEnd]
  | link step entry _ ih => exact .link step (kept _ _ entry (by simp [IsEnd])) (ih unlinked)

/-- A free place that parts lead to is named in a directory. -/
theorem vacant {n : Nat} {place goal : Location} {parts : List String} (sound : tree.WellFormed)
    (start : tree.lookup place = some .directory) (reaches : tree.Reaches n place parts goal)
    (plain : ∀ part ∈ parts, '/' ∉ part.toList) (free : tree.lookup goal = none) :
    ∃ outer name, goal = outer ++ [name] ∧ tree.lookup outer = some .directory ∧ IsEntryName name := by
  induction reaches with
  | here place => simp [start] at free
  | stay _ _ ih => exact ih start (fun part mem => plain part (List.mem_cons_of_mem _ mem)) free
  | up _ ih =>
    exact ih (sound.directory_dropLast start) (fun part mem => plain part (List.mem_cons_of_mem _ mem)) free
  | down _ entry _ ih => exact ih entry (fun part mem => plain part (List.mem_cons_of_mem _ mem)) free
  | @last place part inside step _ =>
    exact ⟨place, part, rfl, inside, step.1, step.2.1, plain part List.mem_cons_self⟩
  | link _ _ _ ih =>
    refine ih (lookup_linkStart start _) (fun part mem => ?_) free
    obtain inside | behind := List.mem_append.1 mem
    · exact not_mem_of_mem_slashed inside
    · exact plain part (List.mem_cons_of_mem _ behind)

end Reaches

/-! ## Names on the way down -/

/-- Names walked below a directory under which there is no link lead to the location that they name. -/
theorem walk_names {follow : Bool} {limit : Nat} {place : Location} {names : List String} {end_ : Found}
    (named : AreNames names) (start : tree.lookup place = some .directory)
    (unlinked : ∀ parts target, tree.lookup (place ++ parts) ≠ some (.link target))
    (walked : tree.walk follow limit place names = .ok end_) :
    end_ = tree.found (place ++ names) ∧
      (names ≠ [] → tree.lookup (place ++ names.dropLast) = some .directory) := by
  induction names generalizing place with
  | nil =>
    rw [walk_nil] at walked
    simp [found_of_directory start, ← Except.ok.inj walked]
  | cons name names ih =>
    obtain ⟨⟨valid, other, -⟩, rest⟩ := areNames_cons.1 named
    obtain blank | up | step | ⟨-, -, long⟩ := part_cases name
    · simp [valid] at blank
    · exact absurd up other
    · rw [walk_step step] at walked
      have last (empty : names = []) (same : end_ = tree.found (place ++ [name])) :
          end_ = tree.found (place ++ name :: names) ∧
            (name :: names ≠ [] → tree.lookup (place ++ (name :: names).dropLast) = some .directory) := by
        subst empty
        exact ⟨same, fun _ => by simpa using start⟩
      split at walked
      · next entry =>
        split at walked
        · exact last ‹_› (by simp [found, entry, ← Except.ok.inj walked])
        · cases walked
      · next entry =>
        have inner := ih rest entry (fun parts target => by simpa using unlinked (name :: parts) target) walked
        cases names with
        | nil => exact last rfl (by simpa using inner.1)
        | cons next names => simpa using inner
      · next entry =>
        split at walked
        · exact last ‹_› (by simp [found, entry, ← Except.ok.inj walked])
        · cases walked
      · next target entry => exact absurd entry (unlinked [name] target)
    · rw [walk_of_nameTooLong valid other long] at walked
      cases walked

/-- A walk down to an entry that is no link ends there, unless a name on the way is too long. -/
theorem walk_down {place : Location} {names : List String} {entry : Entry} (sound : tree.WellFormed)
    (follow : Bool) (limit : Nat) (start : tree.lookup place = some .directory)
    (present : tree.lookup (place ++ names) = some entry) (other : ∀ target, entry ≠ .link target) :
    tree.walk follow limit place names = .ok (.entry (place ++ names) entry) ∨
      tree.walk follow limit place names = .error .nameTooLong := by
  induction names generalizing place with
  | nil =>
    rw [List.append_nil, start] at present
    simp [← Option.some.inj present]
  | cons name names ih =>
    have named : AreNames (place ++ name :: names) := sound.areNames (by simp [present])
    obtain ⟨valid, notParent, -⟩ := (areNames_cons.1 (areNames_append.1 named).2).1
    obtain blank | up | step | ⟨-, -, long⟩ := part_cases name
    · simp [valid] at blank
    · exact absurd up notParent
    · rw [walk_step step]
      cases names with
      | nil =>
        rw [present]
        cases entry with
        | link target => exact absurd rfl (other target)
        | file content => simp
        | directory => simp
      | cons next names =>
        have directory : tree.lookup (place ++ [name]) = some .directory :=
          sound.above (List.cons_ne_nil next names) (by simp [present])
        rw [directory]
        simpa using ih directory (by simpa using present)
    · exact .inr (walk_of_nameTooLong valid notParent long)

/-- Names that can be looked up lead down to an entry that is no link. -/
theorem reaches_names {place : Location} {names : List String} (sound : tree.WellFormed)
    (steps : ∀ name ∈ names, IsStep name) (present : tree.lookup (place ++ names) ≠ none)
    (other : ∀ target, tree.lookup (place ++ names) ≠ some (.link target)) :
    tree.Reaches 0 place names (place ++ names) := by
  induction names generalizing place with
  | nil => simpa using Reaches.here place
  | cons name names ih =>
    obtain ⟨step, rest⟩ := List.forall_mem_cons.1 steps
    have later : tree.Reaches 0 (place ++ [name]) names ((place ++ [name]) ++ names) :=
      ih rest (by simpa using present) (by simpa using other)
    rw [List.append_assoc, List.singleton_append] at later
    by_cases directory : tree.lookup (place ++ [name]) = some .directory
    · exact .down step directory later
    · cases names with
      | nil =>
        refine .last (sound.parent _ _ present) step ?_
        rcases h : tree.lookup (place ++ [name]) with _ | _ | _ | _ <;> simp_all [IsEnd]
      | cons next names =>
        exact absurd (sound.above (List.cons_ne_nil next names) (by simpa using present)) directory

/-! ## Questions about what a path leads to -/

/-- A path leads to an entry that passes a test. -/
theorem asks_eq_true_iff {path : Path} {test : Entry → Bool} :
    tree.asks path test = .ok true ↔ ∃ location entry, tree.follow path = .ok (.entry location entry) ∧ test entry = true := by
  unfold asks
  split
  · next place entry leads => simp [leads]
  all_goals simp_all

theorem asksFile_eq_true_iff {path : Path} :
    tree.asksFile path = .ok true ↔ ∃ location content, tree.follow path = .ok (.entry location (.file content)) := by
  refine asks_eq_true_iff.trans ⟨?_, fun ⟨location, content, leads⟩ => ⟨location, _, leads, rfl⟩⟩
  rintro ⟨location, entry, leads, file⟩
  cases entry with
  | file content => exact ⟨location, content, leads⟩
  | link | directory => cases file

theorem asksDirectory_eq_true_iff {path : Path} :
    tree.asksDirectory path = .ok true ↔ ∃ location, tree.follow path = .ok (.entry location .directory) := by
  refine asks_eq_true_iff.trans ⟨?_, fun ⟨location, leads⟩ => ⟨location, _, leads, rfl⟩⟩
  rintro ⟨location, entry, leads, directory⟩
  exact ⟨location, beq_iff_eq.1 directory ▸ leads⟩

theorem isDirectory_eq_true_iff {path : Path} :
    tree.isDirectory path = true ↔ ∃ location, tree.follow path = .ok (.entry location .directory) := by
  unfold isDirectory
  split
  · next place leads => simp [leads]
  · next other => simpa using other

theorem exists?_eq_true_iff {path : Path} :
    tree.exists? path = true ↔ ∃ location entry, tree.follow path = .ok (.entry location entry) := by
  unfold exists?
  split
  · next place entry leads => simp [leads]
  · next other => simpa using other

theorem read_eq_ok_iff {path : Path} {content : Text.Bytes} :
    tree.read path = .ok content ↔ ∃ location, tree.follow path = .ok (.entry location (.file content)) := by
  unfold FileTree.read
  split
  · next place bytes leads => simp [leads]
  all_goals simp_all

end WasmPackaging.FileTree
