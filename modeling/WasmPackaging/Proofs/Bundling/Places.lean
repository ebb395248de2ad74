import WasmPackaging.Bundling.Staging
import WasmPackaging.Proofs.FileTree.WellFormed

/-!
The paths that staging writes to, as names below the stage root: the copy of a module stands where the
module stands in the project (`copyOf_eq_ok_iff`), and a payload file has a name of its own in the
payload directory (`payloadFile_eq`).
-/

namespace WasmPackaging.Bundling

open Text

/-- The name of the payload directory. -/
def payloadName : String := "__payloads__"

theorem isEntryName_payloadName : IsEntryName payloadName := by decide

namespace Stager

variable (s : Stager)

theorem payloadDirectory_eq : s.payloadDirectory = s.root.under [payloadName] :=
  s.root.child_of_name isEntryName_payloadName

theorem copyOf_eq_ok_iff {location : Location} {copy : Path} :
    s.copyOf location = .ok copy ↔ ∃ parts, location = s.project ++ parts ∧ copy = s.root.under parts := by
  unfold copyOf
  split
  · next parts below =>
    obtain rfl := Path.below?_eq_some_iff.1 below
    constructor
    · intro same
      exact ⟨parts, rfl, (Except.ok.inj same).symm⟩
    · rintro ⟨other, same, rfl⟩
      rw [List.append_cancel_left same, Path.join_relative]
  · next beyond =>
    constructor
    · intro same
      cases same
    · rintro ⟨parts, same, -⟩
      exact absurd same (Path.below?_eq_none_iff.1 beyond parts)

theorem copyOf_project (parts : List String) : s.copyOf (s.project ++ parts) = .ok (s.root.under parts) :=
  s.copyOf_eq_ok_iff.2 ⟨parts, rfl, rfl⟩

end Stager

/-- The last name of a location is that of the names it ends with. -/
theorem exists_name_ofLocation (outer : Location) {parts : List String} (filled : parts ≠ []) :
    ∃ name, parts.getLast? = some name ∧ (Path.ofLocation (outer ++ parts)).name = name := by
  refine ⟨parts.getLast filled, List.getLast?_eq_some_getLast filled, ?_⟩
  simp [Path.name, Path.ofLocation, List.getLast?_append, List.getLast?_eq_some_getLast filled]

/-! ## Payload files -/

theorem not_mem_hexDigits {c : Char} (other : ∀ m, m < 16 → (Nat.toDigits 16 m).headD '0' ≠ c) (width n : Nat) :
    c ∉ hexDigits width n := by
  induction width generalizing n with
  | zero => simp [hexDigits]
  | succ width ih =>
    have digit : hexDigit n ≠ c := other (n % 16) (Nat.mod_lt n (by decide))
    simp [hexDigits, ih, digit.symm]

theorem not_mem_sha256 {c : Char} (other : ∀ m, m < 16 → (Nat.toDigits 16 m).headD '0' ≠ c) (message : Bytes) :
    c ∉ (Digest.sha256 message).toList := by
  simp [Digest.sha256, not_mem_hexDigits other]

/-- The name of the file that holds loaded content. -/
def payloadFileName (source : Path) (loaded : Loaded) (suffix : String) : String :=
  source.stem ++ "." ++ String.ofList ((Digest.sha256 loaded.content.toBytes).toList.take 12) ++ suffix

/-- Whether no name of a path can hold a slash. -/
def IsPlain (path : Path) : Prop := ∀ part ∈ path.parts, '/' ∉ part.toList

theorem isPlain_ofString (text : String) : IsPlain (.ofString text) := by
  intro part mem
  exact not_mem_of_mem_slashed (List.mem_filter.1 mem).1

theorem mem_cutSuffix {name : String} {c : Char} (mem : c ∈ (Path.cutSuffix name).1.toList) :
    c ∈ name.toList := by
  unfold Path.cutSuffix at mem
  simp only at mem
  split at mem
  · exact mem
  · rw [String.toList_ofList] at mem
    exact List.mem_of_mem_take (List.dropLast_subset _ mem)

theorem IsPlain.not_mem_stem {path : Path} (plain : IsPlain path) : '/' ∉ path.stem.toList := by
  intro slash
  have inside := mem_cutSuffix slash
  unfold Path.name at inside
  cases last : path.parts.getLast? with
  | none => simp [last] at inside
  | some part =>
    rw [last] at inside
    exact plain part (List.mem_of_getLast? last) inside

/-- Payload files have one of two endings, and each ending is read by one loader. -/
theorem payloadSuffix_cases {loader suffix : String} (known : payloadSuffixes.lookup loader = some suffix) :
    (loader = "binary" ∧ suffix = ".bin") ∨ (loader = "text" ∧ suffix = ".txt") := by
  unfold payloadSuffixes at known
  rw [List.lookup_cons, List.lookup_cons, List.lookup_nil] at known
  split at known
  · simp_all
  · split at known <;> simp_all

theorem isEntryName_payloadFileName {source : Path} (plain : IsPlain source) (loaded : Loaded)
    {loader suffix : String} (known : payloadSuffixes.lookup loader = some suffix) :
    IsEntryName (payloadFileName source loaded suffix) := by
  have ending : suffix = ".bin" ∨ suffix = ".txt" := (payloadSuffix_cases known).imp And.right And.right
  have digest : '/' ∉ (Digest.sha256 loaded.content.toBytes).toList.take 12 :=
    fun slash => not_mem_sha256 (by decide) _ (List.mem_of_mem_take slash)
  have last : (payloadFileName source loaded suffix).toList.getLast? = some 'n' ∨
      (payloadFileName source loaded suffix).toList.getLast? = some 't' := by
    rw [payloadFileName, String.toList_append, List.getLast?_append]
    obtain rfl | rfl := ending <;> simp
  have other (name : String) (ends : name.toList.getLast? ≠ some 'n') (ends' : name.toList.getLast? ≠ some 't') :
      payloadFileName source loaded suffix ≠ name := by
    rintro rfl
    exact last.elim ends ends'
  refine ⟨?_, other _ (by decide) (by decide), ?_⟩
  · simp [isPart, other "" (by decide) (by decide), other "." (by decide) (by decide)]
  · obtain rfl | rfl := ending <;>
      simp [payloadFileName, String.toList_append, plain.not_mem_stem, digest]

/-- The file that holds loaded content, as names below the stage root. -/
def payloadPlace (source : Path) (loaded : Loaded) (suffix : String) : List String :=
  [payloadName, payloadFileName source loaded suffix]

theorem areNames_payloadPlace {source : Path} (plain : IsPlain source) (loaded : Loaded)
    {loader suffix : String} (known : payloadSuffixes.lookup loader = some suffix) :
    AreNames (payloadPlace source loaded suffix) := by
  simp [payloadPlace, isEntryName_payloadName, isEntryName_payloadFileName plain loaded known]

theorem Stager.payloadFile_eq (s : Stager) {source : Path} (plain : IsPlain source) (loaded : Loaded)
    {loader suffix : String} (known : payloadSuffixes.lookup loader = some suffix) :
    s.payloadFile source loaded suffix = s.root.under (payloadPlace source loaded suffix) := by
  have child : s.payloadFile source loaded suffix =
      s.payloadDirectory.child (payloadFileName source loaded suffix) := rfl
  rw [child, Path.child_of_name _ (isEntryName_payloadFileName plain loaded known), s.payloadDirectory_eq,
    Path.under_under]
  rfl

end WasmPackaging.Bundling
