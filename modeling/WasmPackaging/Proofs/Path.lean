import WasmPackaging.Proofs.FileTree.WellFormed
import WasmPackaging.Specifier

/-!
Laws of paths: what their texts read as, the names that steps lead to, and the parts that lead from one
location to another.
-/

namespace WasmPackaging.Path

open Text

/-! ## Names and texts -/

/-- A name is cut at its last dot, when something stands before and behind it. -/
theorem cutSuffix_of_eq {name : String} {stem ending : List Char} (whole : name.toList = stem ++ '.' :: ending)
    (filled : stem ≠ []) (filled' : ending ≠ []) (last : '.' ∉ ending) :
    Path.cutSuffix name = (String.ofList stem, String.ofList ('.' :: ending)) := by
  have behind : (name.toList.reverse.takeWhile (· != '.')).reverse = ending := by
    have plain : ∀ c ∈ ending.reverse, (c != '.') = true := by
      intro c mem
      rw [bne_iff_ne]
      rintro rfl
      exact last (List.mem_reverse.1 mem)
    rw [whole, List.reverse_append, List.reverse_cons, List.append_assoc, List.takeWhile_append_of_pos plain]
    simp
  have before : (name.toList.take (name.toList.length - ending.length)).dropLast = stem := by
    have cut : stem ++ '.' :: ending = (stem ++ ['.']) ++ ending := by simp
    have enough : ((stem ++ ['.']) ++ ending).length - ending.length = (stem ++ ['.']).length := by
      rw [List.length_append, Nat.add_sub_cancel]
    rw [whole, cut, enough, List.take_left, List.dropLast_concat]
  unfold Path.cutSuffix
  simp only [behind, before, filled, filled', or_self, if_false]

theorem slashed_append {first : String} (plain : '/' ∉ first.toList) (rest : String) :
    slashed (first ++ "/" ++ rest) = first :: slashed rest := by
  simp [slashed, splitAt_append_cons plain]

theorem slashed_intercalate {parts : List String} (filled : parts ≠ [])
    (plain : ∀ part ∈ parts, '/' ∉ part.toList) : slashed ("/".intercalate parts) = parts := by
  induction parts with
  | nil => exact absurd rfl filled
  | cons part parts ih =>
    obtain ⟨first, rest⟩ := List.forall_mem_cons.1 plain
    cases parts with
    | nil => simpa using slashed_of_not_mem first
    | cons next parts =>
      rw [String.intercalate_cons_cons, slashed_append first, ih (List.cons_ne_nil next parts) rest]

/-- The name of a path is among its parts, or it has none. -/
theorem name_mem (p : Path) : p.name = "" ∨ p.name ∈ p.parts := by
  unfold name
  rcases last : p.parts.getLast? with _ | part
  · exact .inl rfl
  · exact .inr (List.mem_of_getLast? last)

theorem isAbsolute_join {p : Path} (absolute : p.isAbsolute = true) (q : Path) : (p.join q).isAbsolute = true := by
  unfold join
  split
  · assumption
  · exact absolute

/-- A path leads on from its parent. -/
theorem exists_under_parent (p : Path) : ∃ extra, p = p.parent.under extra := by
  obtain ⟨anchor, parts⟩ := p
  rcases List.eq_nil_or_concat parts with rfl | ⟨outer, last, rfl⟩
  · exact ⟨[], rfl⟩
  · exact ⟨[last], by simp [parent, under]⟩

/-- A text that holds more than dots is a name. -/
theorem isPart_of_mem {part : String} {c : Char} (mem : c ∈ part.toList) (other : c ≠ '.') :
    isPart part = true ∧ part ≠ parentStep := by
  have filled : part ≠ "" := by
    rintro rfl
    cases mem
  have here : part ≠ "." := by
    rintro rfl
    exact other (List.mem_singleton.1 mem)
  refine ⟨by simp [isPart, filled, here], ?_⟩
  rintro rfl
  have dots : c ∈ ['.', '.'] := mem
  simp [other] at dots

/-- No step of a path holds a slash. -/
theorem not_mem_of_mem_steps {path : Path} {part : String} (mem : part ∈ path.steps) : '/' ∉ part.toList := by
  obtain ⟨_, _, inside⟩ := List.mem_flatMap.1 mem
  exact not_mem_of_mem_slashed inside

/-- Steps from names lead to names. -/
theorem areNames_normalizeFrom {place : Location} {parts : List String} (named : AreNames place)
    (valid : ∀ part ∈ parts, isPart part = true ∧ '/' ∉ part.toList) : AreNames (normalizeFrom place parts) := by
  induction parts generalizing place with
  | nil => exact named
  | cons part parts ih =>
    obtain ⟨⟨first, plain⟩, rest⟩ := List.forall_mem_cons.1 valid
    refine ih ?_ rest
    unfold takePart
    split
    · exact named.dropLast
    · next other => exact areNames_append.2 ⟨named, by simp [IsEntryName, first, other, plain]⟩

theorem filter_isPart_of_areNames {names : List String} (named : AreNames names) : names.filter isPart = names :=
  List.filter_eq_self.2 fun name mem => (named name mem).1

/-- The text of the path to a location is read as that path. -/
theorem ofString_toString_ofLocation {location : Location} (named : AreNames location) :
    ofString (ofLocation location).toString = ofLocation location := by
  have text : (ofLocation location).toString = "/" ++ "/".intercalate location := by
    simp [Path.toString, ofLocation, Anchor.text]
  rw [text]
  cases location with
  | nil => decide
  | cons name names =>
    have slashes := slashed_intercalate (List.cons_ne_nil name names) fun part mem => (named part mem).2.2
    have front : slashed ("/" ++ "/".intercalate (name :: names)) = "" :: slashed ("/".intercalate (name :: names)) :=
      slashed_append (show '/' ∉ "".toList by decide) _
    have parts : (slashed ("/" ++ "/".intercalate (name :: names))).filter isPart = name :: names := by
      rw [front, slashes, List.filter_cons_of_neg (by decide), filter_isPart_of_areNames named]
    have anchor : Anchor.ofText ("/" ++ "/".intercalate (name :: names)).toList = .root := by
      obtain ⟨⟨valid, -, plain⟩, -⟩ := areNames_cons.1 named
      obtain ⟨c, rest, first⟩ : ∃ c rest, name.toList = c :: rest := by
        refine List.exists_cons_of_ne_nil fun empty => ?_
        rw [String.toList_eq_nil_iff.1 empty] at valid
        cases valid
      have other : c ≠ '/' := fun slash => plain (first ▸ slash ▸ List.mem_cons_self)
      obtain ⟨tail, whole⟩ : ∃ tail, ("/".intercalate (name :: names)).toList = c :: tail := by
        cases names with
        | nil => exact ⟨rest, by simpa using first⟩
        | cons next names =>
          rw [String.intercalate_cons_cons, String.toList_append, String.toList_append, first]
          exact ⟨_, rfl⟩
      rw [String.toList_append, whole]
      unfold Anchor.ofText
      split
      · next same => exact absurd (by simpa using same) (by simp [other])
      · next same => exact absurd (by simpa using same) (by simp [other])
      · rfl
      · next same => exact absurd rfl (same _)
    rw [ofString, anchor, parts, ofLocation]

/-! ## Specifiers that lead from one location to another -/

theorem relativeParts_append (outer target start : Location) :
    relativeParts (outer ++ target) (outer ++ start) = relativeParts target start := by
  induction outer with
  | nil => rfl
  | cons name outer ih => simp [relativeParts, ih]

/-- Relative parts are steps to the parent and names of the target. -/
theorem mem_relativeParts {target start : Location} {part : String} (mem : part ∈ relativeParts target start) :
    part = parentStep ∨ part ∈ target := by
  fun_induction relativeParts target start with
  | case1 target s start ih => exact (ih mem).imp_right (List.mem_cons_of_mem _)
  | case2 t target s start _ =>
    obtain up | down := List.mem_append.1 mem
    · exact .inl (List.eq_of_mem_replicate up)
    · exact .inr down
  | case3 target start _ =>
    obtain up | down := List.mem_append.1 mem
    · exact .inl (List.eq_of_mem_replicate up)
    · exact .inr down

/-- The specifier that a relative path is written as reads as the path. -/
theorem ofString_ofRelative {parts : List String} (filled : parts ≠ [])
    (valid : ∀ part ∈ parts, isPart part = true ∧ '/' ∉ part.toList) :
    ofString (Specifier.ofRelative ⟨.relative, parts⟩) = ⟨.relative, parts⟩ := by
  have text : (⟨.relative, parts⟩ : Path).toString = "/".intercalate parts := by
    simp [Path.toString, filled, Anchor.text]
  have slashes := slashed_intercalate filled fun part mem => (valid part mem).2
  have all : parts.filter isPart = parts := List.filter_eq_self.2 fun part mem => (valid part mem).1
  unfold Specifier.ofRelative
  simp only [text]
  split
  · next rest starts =>
    simp [ofString, Anchor.ofText, starts, slashes, all]
  · have plain : slashed ("./" ++ "/".intercalate parts) = "." :: slashed ("/".intercalate parts) :=
      slashed_append (show '/' ∉ ".".toList by decide) _
    have relative : Anchor.ofText ("./" ++ "/".intercalate parts).toList = .relative := by
      rw [String.toList_append]
      rfl
    rw [ofString, relative, plain, slashes, List.filter_cons_of_neg (by decide), all]

theorem normalize_under (p : Path) (workingDirectory : Location) {names : List String} (named : AreNames names) :
    (p.under names).normalize workingDirectory = p.normalize workingDirectory ++ names := by
  have whole : (p.under names).normalize workingDirectory = normalizeFrom (p.normalize workingDirectory) names := by
    simp [normalize, under, isAbsolute]
  rw [whole, normalizeFrom_of_names fun up => (named _ up).2.1 rfl]

theorem steps_under_of_plain (p : Path) {parts : List String} (plain : ∀ part ∈ parts, '/' ∉ part.toList) :
    (p.under parts).steps = p.steps ++ parts := by
  simp [steps, under, flatMap_slashed plain]

end WasmPackaging.Path
