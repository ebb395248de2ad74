import WasmPackaging.Bundling.Staging
import WasmPackaging.Proofs.FileTree.Resolution
import WasmPackaging.Proofs.Outcome

/-!
What the resolution of modules finds. `Chosen` says which candidate is taken: the path itself, the first
ending that makes it a file, or the first index of the directory that it leads to. A path resolves to
the real location of the chosen candidate (`resolveModule_eq_some_iff`), which is a file
(`file_of_resolveModule`).
-/

namespace WasmPackaging.Bundling

open Text FileTree

variable {extensions : List String} {tree : FileTree} {path candidate : Path} {location : Location}

/-- The path with an ending appended to its last name. -/
def withEnding (path : Path) (ending : String) : Except Failure Path :=
  (path.withName (path.name ++ ending)).mapError .name

/-- The index of a directory with an ending. -/
def indexOf (directory : Path) (ending : String) : Path := directory.child s!"index{ending}"

/-- The endings before the chosen one lead to no file. -/
def Passed (tree : FileTree) (candidate : String → Except Failure Path) (endings : List String) : Prop :=
  ∀ ending ∈ endings, ∃ path, candidate ending = .ok path ∧ tree.asksFile path = .ok false

/-- The candidate that is taken for a path. -/
inductive Chosen (extensions : List String) (tree : FileTree) (path : Path) : Path → Prop
  | itself : tree.asksFile path = .ok true → Chosen extensions tree path path
  | ending {before after : List String} {ending : String} {candidate : Path} :
      tree.asksFile path = .ok false → extensions = before ++ ending :: after →
      Passed tree (withEnding path) before → withEnding path ending = .ok candidate →
      tree.asksFile candidate = .ok true → Chosen extensions tree path candidate
  | index {before after : List String} {ending : String} :
      tree.asksFile path = .ok false → Passed tree (withEnding path) extensions →
      tree.asksDirectory path = .ok true → extensions = before ++ ending :: after →
      Passed tree (fun ending => .ok (indexOf path ending)) before →
      tree.asksFile (indexOf path ending) = .ok true → Chosen extensions tree path (indexOf path ending)

section firstFile

variable {choose : String → Except Failure Path} {endings : List String}

/-- The search among endings yields the first that leads to a file. -/
theorem firstFile_eq_some_iff :
    resolveModule.firstFile tree choose endings = .ok (some candidate) ↔
      ∃ before ending after, endings = before ++ ending :: after ∧ Passed tree choose before ∧
        choose ending = .ok candidate ∧ tree.asksFile candidate = .ok true := by
  induction endings with
  | nil => simp [resolveModule.firstFile]
  | cons ending endings ih =>
    simp only [resolveModule.firstFile, bind_eq_ok_iff, mapError_eq_ok_iff]
    constructor
    · rintro ⟨path, chosen, answer, asked, rest⟩
      cases answer with
      | true =>
        obtain rfl : path = candidate := by simpa [pure, Except.pure] using rest
        exact ⟨[], ending, endings, rfl, by simp [Passed], chosen, asked⟩
      | false =>
        obtain ⟨before, later, after, rfl, passed, found⟩ := ih.1 (by simpa using rest)
        exact ⟨ending :: before, later, after, rfl, List.forall_mem_cons.2 ⟨⟨path, chosen, asked⟩, passed⟩, found⟩
    · rintro ⟨before, later, after, whole, passed, chosen, asked⟩
      cases before with
      | nil =>
        obtain ⟨rfl, rfl⟩ := List.cons.inj whole
        exact ⟨candidate, chosen, true, asked, by simp [pure, Except.pure]⟩
      | cons first before =>
        obtain ⟨rfl, rfl⟩ := List.cons.inj whole
        obtain ⟨⟨path, first, missed⟩, passed⟩ := List.forall_mem_cons.1 passed
        refine ⟨path, first, false, missed, ?_⟩
        simpa using ih.2 ⟨before, later, after, rfl, passed, chosen, asked⟩

theorem firstFile_eq_none_iff :
    resolveModule.firstFile tree choose endings = .ok none ↔ Passed tree choose endings := by
  induction endings with
  | nil => simp [resolveModule.firstFile, Passed]
  | cons ending endings ih =>
    simp only [resolveModule.firstFile, bind_eq_ok_iff, mapError_eq_ok_iff]
    rw [Passed, List.forall_mem_cons]
    constructor
    · rintro ⟨path, chosen, answer, asked, rest⟩
      cases answer with
      | true => simp [pure, Except.pure] at rest
      | false => exact ⟨⟨path, chosen, asked⟩, ih.1 (by simpa using rest)⟩
    · rintro ⟨⟨path, chosen, asked⟩, rest⟩
      exact ⟨path, chosen, false, asked, by simpa using ih.2 rest⟩

end firstFile

/-- A path resolves to the real location of the candidate that is chosen. -/
theorem resolveModule_eq_some_iff :
    resolveModule extensions tree path = .ok (some location) ↔
      ∃ candidate, Chosen extensions tree path candidate ∧ tree.resolve candidate = .ok location := by
  have real (candidate : Path) :
      ((tree.resolve candidate).mapError Failure.unresolvable).map some = .ok (some location) ↔
        tree.resolve candidate = .ok location := by
    cases tree.resolve candidate with
    | error e => constructor <;> intro same <;> cases same
    | ok real => exact ⟨fun same => by rw [Option.some.inj (Except.ok.inj same)], fun same => by rw [Except.ok.inj same]; rfl⟩
  simp only [resolveModule, bind_eq_ok_iff, mapError_eq_ok_iff]
  constructor
  · rintro ⟨answer, asked, rest⟩
    cases answer with
    | true => exact ⟨path, .itself asked, (real path).1 (by simpa using rest)⟩
    | false =>
      simp only [Bool.false_eq_true, if_false, bind_eq_ok_iff] at rest
      obtain ⟨file?, searched, rest⟩ := rest
      cases file? with
      | some file =>
        obtain ⟨before, ending, after, whole, passed, chosen, found⟩ := firstFile_eq_some_iff.1 searched
        exact ⟨file, .ending asked whole passed chosen found, (real file).1 rest⟩
      | none =>
        simp only [bind_eq_ok_iff, mapError_eq_ok_iff] at rest
        obtain ⟨directory, inside, rest⟩ := rest
        cases directory with
        | false => simp [pure, Except.pure] at rest
        | true =>
          simp only [if_true, bind_eq_ok_iff] at rest
          obtain ⟨index?, searched', rest⟩ := rest
          cases index? with
          | none => simp [pure, Except.pure] at rest
          | some index =>
            obtain ⟨before, ending, after, whole, passed, chosen, found⟩ := firstFile_eq_some_iff.1 searched'
            obtain rfl : indexOf path ending = index := Except.ok.inj chosen
            exact ⟨_, .index asked (firstFile_eq_none_iff.1 searched) inside whole passed found, (real _).1 rest⟩
  · rintro ⟨candidate, chosen, resolved⟩
    cases chosen with
    | itself asked => exact ⟨true, asked, by simpa using (real path).2 resolved⟩
    | ending asked whole passed chosen found =>
      refine ⟨false, asked, ?_⟩
      simp only [Bool.false_eq_true, if_false, bind_eq_ok_iff]
      exact ⟨some candidate, firstFile_eq_some_iff.2 ⟨_, _, _, whole, passed, chosen, found⟩, (real candidate).2 resolved⟩
    | index asked none inside whole passed found =>
      refine ⟨false, asked, ?_⟩
      simp only [Bool.false_eq_true, if_false, bind_eq_ok_iff]
      refine ⟨Option.none, firstFile_eq_none_iff.2 none, ?_⟩
      simp only [bind_eq_ok_iff, mapError_eq_ok_iff]
      refine ⟨true, inside, ?_⟩
      simp only [if_true, bind_eq_ok_iff]
      exact ⟨some _, firstFile_eq_some_iff.2 ⟨_, _, _, whole, passed, rfl, found⟩, (real _).2 resolved⟩

theorem Chosen.asksFile (chosen : Chosen extensions tree path candidate) :
    tree.asksFile candidate = .ok true := by
  cases chosen <;> assumption

/-- A path that leads to a file resolves to it as a module. -/
theorem resolveModule_of_follow (sound : tree.WellFormed) {content : Bytes}
    (leads : tree.follow path = .ok (.entry location (.file content))) :
    resolveModule extensions tree path = .ok (some location) :=
  resolveModule_eq_some_iff.2
    ⟨path, .itself (asksFile_eq_true_iff.2 ⟨location, content, leads⟩), resolve_of_follow sound leads⟩

/-- What a path resolves to as a module is a file. -/
theorem file_of_resolveModule (sound : tree.WellFormed)
    (resolved : resolveModule extensions tree path = .ok (some location)) :
    ∃ content, tree.lookup location = some (.file content) := by
  obtain ⟨candidate, chosen, real⟩ := resolveModule_eq_some_iff.1 resolved
  obtain ⟨place, content, leads⟩ := asksFile_eq_true_iff.1 chosen.asksFile
  obtain ⟨-, n, enough, goal, reaches, same⟩ := (follow_eq_ok_iff sound).1 leads
  obtain ⟨rfl, present⟩ := found_eq_entry_iff.1 same.symm
  obtain rfl : goal = location := by simpa [resolve_of_follow sound leads] using real
  exact ⟨content, present⟩

end WasmPackaging.Bundling
