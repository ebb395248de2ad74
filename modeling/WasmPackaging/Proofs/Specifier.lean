import WasmPackaging.Proofs.Path

/-!
Laws of specifiers. What a specifier begins with makes it local or the name of a package, never both, and it is neither only
if it is empty or a backslash stands where that is decided (`namesPackage_eq_not_isLocal_iff`). The specifier that is made to
lead from one place to another is local and leads there (`relative_leads_back`).
-/

namespace WasmPackaging

/-- An absolute path that is normal: all its parts are names, so that no step is left to take. -/
structure Path.IsNormal (p : Path) : Prop where
  absolute : p.isAbsolute = true
  named : AreNames p.parts

theorem Path.IsNormal.normalize {p : Path} (normal : p.IsNormal) (place : Location) : p.normalize place = p.parts := by
  have up : parentStep ∉ p.parts := fun mem => (normal.named _ mem).2.1 rfl
  rw [Path.normalize, if_pos normal.absolute, normalizeFrom_of_names up, List.nil_append]

namespace Specifier

variable {c : Char}

/-! ## Local specifiers and packages -/

theorem isLocal_cons (other : c ≠ '.') (rest : List Char) : isLocal (c :: rest) = (c == '/') := by
  by_cases slash : c = '/'
  · simp [slash, isLocal]
  · simp [slash, other, isLocal]

theorem isLocal_step (other : c ≠ '.') (rest : List Char) : isLocal ('.' :: c :: rest) = (c == '/') := by
  by_cases slash : c = '/'
  · simp [slash, isLocal]
  · simp [slash, other, isLocal]

theorem isLocal_steps (c : Char) (rest : List Char) : isLocal ('.' :: '.' :: c :: rest) = (c == '/') := by
  by_cases slash : c = '/'
  · simp [slash, isLocal]
  · simp [slash, isLocal]

theorem namesPackage_cons (other : c ≠ '.') (rest : List Char) : namesPackage (c :: rest) = (c != '/' && c != '\\') := by
  have undotted : (c != '.') = true := bne_iff_ne.2 other
  cases rest <;> simp [other, undotted, namesPackage]

theorem namesPackage_step (other : c ≠ '.') (rest : List Char) :
    namesPackage ('.' :: c :: rest) = (c != '/' && c != '\\') := by
  have undotted : (c != '.') = true := bne_iff_ne.2 other
  cases rest <;> simp [other, undotted, namesPackage]

/-- A specifier is local just if it does not name a package, unless it is empty or begins with a backslash, at once or behind one
or two dots. -/
theorem namesPackage_eq_not_isLocal_iff (s : List Char) : namesPackage s = !isLocal s ↔
    s ≠ [] ∧ ¬ ['\\'] <+: s ∧ ¬ ['.', '\\'] <+: s ∧ ¬ ['.', '.', '\\'] <+: s := by
  -- both look at the first character behind at most two dots, and differ in what they make of a backslash
  have decided (c : Char) : (c != '/' && c != '\\') = !(c == '/') ↔ '\\' ≠ c := by
    by_cases back : c = '\\'
    · simp [back]
    · simp [back, Ne.symm back, bne]
  rcases s with _ | ⟨a, s⟩
  · decide
  by_cases dot : a = '.'
  · subst dot
    rcases s with _ | ⟨b, s⟩
    · decide
    by_cases dot : b = '.'
    · subst dot
      rcases s with _ | ⟨c, s⟩
      · decide
      · rw [isLocal_steps, namesPackage, decided]
        simp
    · rw [isLocal_step dot, namesPackage_step dot, decided]
      simp [Ne.symm dot]
  · rw [isLocal_cons dot, namesPackage_cons dot, decided]
    simp [Ne.symm dot]

theorem namesPackage_iff_not_isLocal {s : List Char} (filled : s ≠ []) (plain : '\\' ∉ s) :
    namesPackage s = true ↔ isLocal s = false := by
  have outside {front : List Char} (mem : '\\' ∈ front) : ¬ front <+: s := fun front => plain (front.subset mem)
  rw [(namesPackage_eq_not_isLocal_iff s).2 ⟨filled, outside (by simp), outside (by simp), outside (by simp)⟩, Bool.not_eq_true']

/-! ## Specifiers that lead to a place -/

theorem starts_ofRelative (path : Path) :
    "./".toList <+: (ofRelative path).toList ∨ "../".toList <+: (ofRelative path).toList := by
  unfold ofRelative
  simp only
  split
  · next rest starts =>
    rw [starts]
    exact .inr ⟨rest, rfl⟩
  · rw [String.toList_append]
    exact .inl (List.prefix_append _ _)

/-- The specifier that leads to a place is read as the parts that lead there; to the place where one is, none do. -/
theorem ofString_relative {target : Location} (named : AreNames target) (start : Location) :
    Path.ofString (relative target start) = Path.relativeTo target start := by
  rw [relative, Path.relativeTo]
  by_cases filled : Path.relativeParts target start = []
  · rw [filled]
    decide
  · refine Path.ofString_ofRelative filled fun part mem => ?_
    obtain rfl | down := Path.mem_relativeParts mem
    · decide
    · exact ⟨(named part down).1, (named part down).2.2⟩

/-- The specifier that leads to a place from where a path leads is one that leads on from the path to that place. -/
theorem normalize_child_relative (place : Location) (start : Path) {target : Location} (named : AreNames target) :
    (start.child (relative target (start.normalize place))).normalize place = target := by
  have up : parentStep ∉ target := fun mem => (named _ mem).2.1 rfl
  have onward (parts : List String) :
      (start.join ⟨.relative, parts⟩).normalize place = Path.normalizeFrom (start.normalize place) parts := by
    simp [Path.join, Path.normalize, Path.isAbsolute]
  rw [Path.child, ofString_relative named, Path.relativeTo, onward]
  simpa using Path.normalizeFrom_relativeParts up (start.normalize place) []

/-- The specifier that leads to a normal path from any path begins with a step and is local, it leads on from there to the
place of the target, and no target at another place has the same specifier from there. A path that starts with two slashes
names the same place as with one, so of such a path the place comes back and not the second slash. -/
theorem relative_leads_back (place : Location) (start : Path) {target : Path} (normal : target.IsNormal) :
    let specifier := relative (target.normalize place) (start.normalize place)
    ("./".toList <+: specifier.toList ∨ "../".toList <+: specifier.toList) ∧ isLocal specifier.toList = true ∧
      (start.child specifier).normalize place = target.parts ∧
      ∀ other : Path, other.IsNormal → relative (other.normalize place) (start.normalize place) = specifier →
        other.parts = target.parts := by
  have back {other : Path} (normal : other.IsNormal) :
      (start.child (relative (other.normalize place) (start.normalize place))).normalize place = other.parts := by
    rw [normal.normalize]
    exact normalize_child_relative place start normal.named
  refine ⟨starts_ofRelative _, isLocal_relative _ _, back normal, fun other named same => ?_⟩
  rw [← back named, same, back normal]

/-- Names that begin with dots are no steps: to one of them from another, the way is up and down again. -/
theorem relative_leads_back_dots :
    (Path.ofString "/a/...").IsNormal ∧
      relative ((Path.ofString "/a/...").normalize []) ((Path.ofString "/a/..b").normalize []) = "../..." ∧
      isLocal "../...".toList = true ∧ ((Path.ofString "/a/..b").child "../...").normalize [] = ["a", "..."] := by
  have normal : (Path.ofString "/a/...").IsNormal := ⟨by decide, by decide⟩
  have parts : (Path.ofString "/a/...").parts = ["a", "..."] := by decide
  have written : relative ((Path.ofString "/a/...").normalize []) ((Path.ofString "/a/..b").normalize []) = "../..." := by
    decide
  obtain ⟨-, local_, back, -⟩ := relative_leads_back [] (.ofString "/a/..b") normal
  rw [written] at local_ back
  exact ⟨normal, written, local_, back.trans parts⟩

end Specifier

end WasmPackaging
