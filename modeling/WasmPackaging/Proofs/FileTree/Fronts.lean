import WasmPackaging.Proofs.FileTree.Filling

/-!
What is left behind where a directory cannot be made. The names on the way are taken as far as they can be looked up: these
directories are there afterwards, unless something else stands in their way, and then nothing has changed (`Prepared`). How far that
is depends on the names alone, not on the tree (`prepares_ensureDirectory`, `prepares_makeDirectories`).
-/

namespace WasmPackaging.FileTree

variable {tree after : FileTree} {location outer front : Location} {name : String}

/-- All that leads to a location has been made, where nothing but directories stood there; otherwise nothing has changed. -/
def Prepared (tree : FileTree) (front : Location) (after : FileTree) : Prop :=
  tree.Clear front ∧ after = tree.fill front ∨ ¬ tree.Clear front ∧ after = tree

/-- A task that makes a location a directory, with all that leads there. -/
structure Prepares (task : FileTask Unit) (location : Location) : Prop where
  ends : ∀ tree after : FileTree, tree.WellFormed → tree.LinkFree →
    (task tree = (.ok (), after) ↔ Fits location ∧ tree.Clear location ∧ after = tree.fill location)
  leaves : ∃ front, front <+: location ∧ ∀ tree : FileTree, tree.WellFormed → tree.LinkFree → Prepared tree front (task tree).2

theorem Prepared.of_directory (sound : tree.WellFormed) (directory : tree.lookup front = some .directory) : Prepared tree front tree :=
  .inl ⟨.of_directory sound directory, (fill_of_directory sound directory).symm⟩

/-- What stands in the way at the end of a location alone lets nothing be made before it. -/
theorem Prepared.of_blocked (prepared : Prepared tree outer after) (sound : tree.WellFormed) (blocked : ¬ tree.Clear (outer ++ [name])) :
    after = tree := by
  obtain ⟨clear, rfl⟩ | ⟨-, rfl⟩ := prepared
  · refine fill_of_directory sound (sound.parent outer name fun vacant => blocked fun place within => ?_)
    obtain rfl | within := List.prefix_concat_iff.1 within
    · exact .inl vacant
    · exact clear place within
  · rfl

/-! ## Refused tasks -/

theorem eq_of_allowDirectory (path : Path) (e : FileError) (tree : FileTree) : (FileTask.allowDirectory path e tree).2 = tree := by
  unfold FileTask.allowDirectory
  rw [get_bind_apply]
  split <;> rfl

theorem eq_of_makeOrAllow_fails {path : Path} {e : FileError} (failed : makeOrAllow path tree = (.error e, after)) : after = tree := by
  unfold makeOrAllow at failed
  rw [get_bind_apply] at failed
  rcases made : tree.makeDirectory path with e' | final
  · simp only [made] at failed
    have same := eq_of_allowDirectory path e' tree
    rwa [failed] at same
  · simp only [made] at failed
    cases (Prod.mk.inj failed).1

theorem eq_of_makeInside_fails {path : Path} {e : FileError} (failed : makeInside path tree = (.error e, after)) : after = tree := by
  have leaves : Leaves (makeInside path) tree (fun _ _ => True) (fun after => after = tree) :=
    leaves_makeInside (fun _ _ => trivial) (fun _ => trivial) rfl
  exact leaves.of_error failed

/-- A path that cannot be looked up is not refused for what is missing. -/
theorem LacksAround.fine {path : Path} (lacks : tree.LacksAround path) : pathFault? path = none := by
  obtain ⟨text, refused⟩ := lacks
  rcases fault : pathFault? path with _ | other
  · rfl
  · have locate : tree.locate path = .error other := by
      unfold locate
      rw [fault]
    rw [makeDirectory, vacancy, locate] at refused
    obtain rfl | rfl := pathFault?_eq_some fault <;> cases refused

/-- A directory that cannot be made leaves the tree as it is, or as the attempt to make the one around it does. -/
theorem ensureDirectory_fails {e : FileError} (failed : FileTask.ensureDirectory (.ofLocation (outer ++ [name])) tree = (.error e, after)) :
    after = tree ∧ ¬ tree.LacksAround (.ofLocation (outer ++ [name])) ∨
      pathFault? (.ofLocation (outer ++ [name])) = none ∧ after = (FileTask.ensureDirectory (.ofLocation outer) tree).2 := by
  by_cases lacks : tree.LacksAround (.ofLocation (outer ++ [name]))
  · refine .inr ⟨lacks.fine, ?_⟩
    rw [ensureDirectory_of_lacksAround (by simp [Path.ofLocation]) lacks, parent_ofLocation, bind_apply] at failed
    rcases ran : FileTask.ensureDirectory (.ofLocation outer) tree with ⟨e' | ⟨⟩, between⟩
    · simp only [ran] at failed
      exact (Prod.mk.inj failed).2.symm
    · simp only [ran] at failed
      exact eq_of_makeInside_fails failed
  · rw [ensureDirectory_eq_makeInside (.inr lacks)] at failed
    exact .inl ⟨eq_of_makeInside_fails failed, lacks⟩

/-- Directories that cannot be made leave the tree as it is, or as the attempt to make those around does. -/
theorem makeDirectories_fails {e : FileError} (failed : FileTask.makeDirectories (.ofLocation (outer ++ [name])) tree = (.error e, after)) :
    after = tree ∧ tree.exists? (.ofLocation outer) = true ∨ after = (FileTask.makeDirectories (.ofLocation outer) tree).2 := by
  rw [makeDirectories_append] at failed
  split at failed
  · next there => exact .inl ⟨eq_of_makeOrAllow_fails failed, there⟩
  · right
    rw [bind_apply, tryCatch_apply] at failed
    rcases ran : FileTask.makeDirectories (.ofLocation outer) tree with ⟨e' | ⟨⟩, between⟩
    · obtain ⟨text, rfl⟩ | thrown := allowExists_cases e'
      · simp only [ran] at failed
        exact eq_of_makeOrAllow_fails failed
      · simp only [ran, thrown] at failed
        exact (Prod.mk.inj failed).2.symm
    · simp only [ran] at failed
      exact eq_of_makeOrAllow_fails failed

/-! ## How far directories are made -/

theorem fits_nil : Fits [] := ⟨areNames_nil, by decide, by simp⟩

theorem clear_nil (tree : FileTree) : tree.Clear [] := by
  intro place within
  obtain rfl := List.prefix_nil.1 within
  exact .inr rfl

/-- A task that succeeds has prepared all, and one that fails as much as its front. -/
theorem Prepared.of_outcome {task : FileTask Unit} (whole : Fits location → front = location)
    (ends : ∀ after, task tree = (.ok (), after) ↔ Fits location ∧ tree.Clear location ∧ after = tree.fill location)
    (fails : ∀ e after, task tree = (.error e, after) → Prepared tree front after) : Prepared tree front (task tree).2 := by
  rcases ran : task tree with ⟨e | ⟨⟩, after⟩
  · exact fails e after ran
  · obtain ⟨fits, clear, rfl⟩ := (ends after).1 ran
    rw [whole fits]
    exact .inl ⟨clear, rfl⟩

/-- A task that fails at a location that fits has prepared nothing, for what stands in its way stands at the end. -/
theorem Prepared.of_fits {task : FileTask Unit} (sound : tree.WellFormed) (fits : Fits (outer ++ [name]))
    (ends : ∀ after, task tree = (.ok (), after) ↔ Fits (outer ++ [name]) ∧ tree.Clear (outer ++ [name]) ∧ after = tree.fill (outer ++ [name]))
    (fails : ∀ e after, task tree = (.error e, after) → after = tree ∨ Prepared tree outer after) :
    Prepared tree (outer ++ [name]) (task tree).2 := by
  refine .of_outcome (fun _ => rfl) ends fun e after failed => ?_
  have blocked : ¬ tree.Clear (outer ++ [name]) := by
    intro clear
    rw [(ends _).2 ⟨fits, clear, rfl⟩] at failed
    cases (Prod.mk.inj failed).1
  refine .inr ⟨blocked, ?_⟩
  obtain same | prepared := fails e after failed
  · exact same
  · exact prepared.of_blocked sound blocked

theorem exists_front_ensureDirectory (named : AreNames location) : ∃ front, front <+: location ∧ (∀ name ∈ front, IsStep name) ∧
    (Fits location → front = location) ∧
    ∀ tree : FileTree, tree.WellFormed → tree.LinkFree → Prepared tree front (FileTask.ensureDirectory (.ofLocation location) tree).2 := by
  induction location using List.reverseRecOn with
  | nil =>
    refine ⟨[], List.prefix_refl _, by simp, fun _ => rfl, fun tree sound free => ?_⟩
    rw [(ensureDirectory_ends_iff sound free areNames_nil).2 ⟨fits_nil, clear_nil tree, rfl⟩]
    exact .inl ⟨clear_nil tree, rfl⟩
  | append_singleton outer name ih =>
    obtain ⟨front, within, steps, whole, left⟩ := ih (areNames_append.1 named).1
    have ends (tree : FileTree) (sound : tree.WellFormed) (free : tree.LinkFree) (after : FileTree) :=
      @ensureDirectory_ends_iff tree after (outer ++ [name]) sound free named
    by_cases fits : Fits (outer ++ [name])
    · refine ⟨outer ++ [name], List.prefix_refl _, fits.steps, fun _ => rfl, fun tree sound free => ?_⟩
      refine .of_fits sound fits (ends tree sound free) fun e after failed => ?_
      obtain ⟨same, -⟩ | ⟨-, same⟩ := ensureDirectory_fails failed
      · exact .inl same
      · have prepared := left tree sound free
        rw [whole fits.above, ← same] at prepared
        exact .inr prepared
    · by_cases fine : pathFault? (.ofLocation (outer ++ [name])) = none
      · refine ⟨front, within.trans (List.prefix_append _ _), steps, fun fits' => absurd fits' fits, fun tree sound free => ?_⟩
        refine .of_outcome (fun fits' => absurd fits' fits) (ends tree sound free) fun e after failed => ?_
        obtain ⟨rfl, refused⟩ | ⟨-, same⟩ := ensureDirectory_fails failed
        · -- the refusal is none for a missing directory, so the front is there or cannot be
          by_cases clear : after.Clear front
          · refine .of_directory sound ((clear front (List.prefix_refl _)).resolve_left fun missing => ?_)
            obtain ⟨rest, rfl⟩ := within
            rw [List.append_assoc] at named fine refused
            exact refused (lacksAround_of_missing free named fine steps clear missing (List.concat_ne_nil name rest))
          · exact .inr ⟨clear, rfl⟩
        · rw [same]
          exact left tree sound free
      · refine ⟨[], List.nil_prefix, by simp, fun fits' => absurd fits' fits, fun tree sound free => ?_⟩
        refine .of_outcome (fun fits' => absurd fits' fits) (ends tree sound free) fun e after failed => ?_
        obtain ⟨rfl, -⟩ | ⟨fine', -⟩ := ensureDirectory_fails failed
        · exact .of_directory sound rfl
        · exact absurd fine' fine

theorem exists_front_makeDirectories (named : AreNames location) : ∃ front, front <+: location ∧ (Fits location → front = location) ∧
    ∀ tree : FileTree, tree.WellFormed → tree.LinkFree → Prepared tree front (FileTask.makeDirectories (.ofLocation location) tree).2 := by
  induction location using List.reverseRecOn with
  | nil =>
    refine ⟨[], List.prefix_refl _, fun _ => rfl, fun tree sound free => ?_⟩
    rw [(makeDirectories_ends_iff sound free areNames_nil).2 ⟨fits_nil, clear_nil tree, rfl⟩]
    exact .inl ⟨clear_nil tree, rfl⟩
  | append_singleton outer name ih =>
    have named' := (areNames_append.1 named).1
    obtain ⟨front, within, whole, left⟩ := ih named'
    have ends (tree : FileTree) (sound : tree.WellFormed) (free : tree.LinkFree) (after : FileTree) :=
      @makeDirectories_ends_iff tree after (outer ++ [name]) sound free named
    by_cases fits : Fits (outer ++ [name])
    · refine ⟨outer ++ [name], List.prefix_refl _, fun _ => rfl, fun tree sound free => ?_⟩
      refine .of_fits sound fits (ends tree sound free) fun e after failed => ?_
      obtain ⟨same, -⟩ | same := makeDirectories_fails failed
      · exact .inl same
      · have prepared := left tree sound free
        rw [whole fits.above, ← same] at prepared
        exact .inr prepared
    · refine ⟨front, within.trans (List.prefix_append _ _), fun fits' => absurd fits' fits, fun tree sound free => ?_⟩
      refine .of_outcome (fun fits' => absurd fits' fits) (ends tree sound free) fun e after failed => ?_
      obtain ⟨rfl, there⟩ | same := makeDirectories_fails failed
      · obtain ⟨fits', there⟩ := (exists_ofLocation_iff sound free named').1 there
        obtain rfl := whole fits'
        by_cases clear : after.Clear front
        · exact .of_directory sound ((clear front (List.prefix_refl _)).resolve_left there)
        · exact .inr ⟨clear, rfl⟩
      · rw [same]
        exact left tree sound free

theorem prepares_ensureDirectory (named : AreNames location) : Prepares (FileTask.ensureDirectory (.ofLocation location)) location := by
  obtain ⟨front, within, -, -, left⟩ := exists_front_ensureDirectory named
  exact ⟨fun _ _ sound free => ensureDirectory_ends_iff sound free named, front, within, left⟩

theorem prepares_makeDirectories (named : AreNames location) : Prepares (FileTask.makeDirectories (.ofLocation location)) location := by
  obtain ⟨front, within, -, left⟩ := exists_front_makeDirectories named
  exact ⟨fun _ _ sound free => makeDirectories_ends_iff sound free named, front, within, left⟩

end WasmPackaging.FileTree
