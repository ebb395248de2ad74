import WasmPackaging.Proofs.FileTree.Area

/-!
Growth: the files below a location are those that were there and those at some written places, and the
directories are those that were there and those that were opened. Growth adds up (`Grows.trans`), and it
moves no file that was copied (`Grows.landing_eq`).
-/

namespace WasmPackaging.FileTree

/-- A file stands at a location. -/
def HoldsFile (tree : FileTree) (location : Location) : Prop :=
  ∃ content, tree.lookup location = some (.file content)

theorem HoldsFile.not_directory {tree : FileTree} {location : Location} (file : tree.HoldsFile location) :
    tree.lookup location ≠ some .directory := by
  obtain ⟨content, present⟩ := file
  simp [present]

/-- Below `base`, one tree grew into another by files at the written places and by the opened directories;
a file that stood elsewhere is as it was. -/
structure Grows (base : Location) (written opened : List String → Prop) (now after : FileTree) : Prop where
  file : ∀ parts, after.HoldsFile (base ++ parts) ↔ now.HoldsFile (base ++ parts) ∨ written parts
  directory : ∀ parts, after.lookup (base ++ parts) = some .directory ↔
    now.lookup (base ++ parts) = some .directory ∨ opened parts
  kept : ∀ parts content, now.lookup (base ++ parts) = some (.file content) → ¬ written parts →
    after.lookup (base ++ parts) = some (.file content)

variable {base : Location} {names : List String} {name : String} {content : Text.Bytes}
  {now between after : FileTree} {written opened written' opened' : List String → Prop}

namespace Grows

theorem refl (base : Location) (now : FileTree) : Grows base (fun _ => False) (fun _ => False) now now :=
  ⟨by simp, by simp, fun _ _ present _ => present⟩

theorem trans (first : Grows base written opened now between) (second : Grows base written' opened' between after) :
    Grows base (fun parts => written parts ∨ written' parts) (fun parts => opened parts ∨ opened' parts) now after := by
  refine ⟨fun parts => ?_, fun parts => ?_, fun parts content present beyond => ?_⟩
  · rw [second.file, first.file, or_assoc]
  · rw [second.directory, first.directory, or_assoc]
  · obtain ⟨missed, missed'⟩ := not_or.1 beyond
    exact second.kept parts content (first.kept parts content present missed) missed'

theorem congr (grows : Grows base written opened now after) (same : ∀ parts, written parts ↔ written' parts)
    (same' : ∀ parts, opened parts ↔ opened' parts) : Grows base written' opened' now after := by
  obtain rfl : written = written' := funext fun parts => propext (same parts)
  obtain rfl : opened = opened' := funext fun parts => propext (same' parts)
  exact grows

/-- A copied file stands where it stood, however the tree grows. -/
theorem landing_eq (grows : Grows base written opened now after)
    (copied : now.HoldsFile (base ++ landing now base names name)) :
    landing after base names name = landing now base names name := by
  refine landing_congr ⟨fun inside => ?_, fun inside => (grows.directory names).2 (.inl inside)⟩ name
  by_contra outside
  rw [landing_of_not_directory outside] at copied
  exact ((grows.file names).2 (.inl copied)).not_directory inside

end Grows

/-- A file that is written once directories are opened is growth. -/
theorem WritesTo.grows {outer : List String} (writes : WritesTo base names content between after)
    (opens : OpensTo base outer now between) : Grows base (· = names) (· <+: outer) now after := by
  have file (parts : List String) : between.HoldsFile (base ++ parts) ↔ now.HoldsFile (base ++ parts) := by
    unfold HoldsFile
    rw [opens.lookup]
    split
    · next within => obtain present | vacant := opens.fits parts within <;> simp_all
    · rfl
  refine ⟨fun parts => ?_, fun parts => ?_, fun parts old present beyond => ?_⟩
  · rw [← file]
    unfold HoldsFile
    rw [writes.lookup]
    split <;> simp_all
  · have same : after.lookup (base ++ parts) = some .directory ↔ between.lookup (base ++ parts) = some .directory := by
      rw [writes.lookup]
      split
      · next same => simp [same, writes.fits]
      · rfl
    rw [same, opens.lookup]
    split <;> simp_all
  · obtain ⟨other, here⟩ := (file parts).2 ⟨old, present⟩
    rw [writes.lookup, if_neg beyond]
    rw [opens.lookup] at here ⊢
    split at here
    · cases here
    · next outside => rw [if_neg outside, present]

/-- A file that is copied stands where it was found to come to stand. -/
theorem WritesTo.landing_eq (writes : WritesTo base (landing between base names name) content between after) :
    landing after base names name = landing between base names name := by
  have lookup := writes.lookup
  by_cases inside : between.lookup (base ++ names) = some .directory
  · have place : landing between base names name = names ++ [name] := if_pos inside
    rw [place] at lookup ⊢
    refine if_pos ?_
    rw [lookup, if_neg (by simp), inside]
  · have place : landing between base names name = names := if_neg inside
    rw [place] at lookup ⊢
    refine if_neg ?_
    simp [lookup]

end WasmPackaging.FileTree
