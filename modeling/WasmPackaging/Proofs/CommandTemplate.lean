import Mathlib.Data.List.Induction
import Mathlib.Data.List.Nodup
import WasmPackaging.CommandTemplate
import WasmPackaging.Proofs.Text.Finds
import WasmPackaging.Proofs.Text.Spans

/-!
Command templates filled all at once. `substitute` reads an argument once, from left to right, and sets the value of each name for
its placeholders; what is set in is not read again, and the order of the names does not matter (`substitute_perm`). A template is
filled name after name instead. The two agree at each name just when what has been filled in before brings no placeholder of it
(`Quiet`, `render_eq_substitute_iff`), as where no value has an opening brace and every one in the argument begins a placeholder
(`quiet_of_tidy`). Otherwise a value is filled in turn, and the order of the names shows (`render_fills_values`).
-/

namespace WasmPackaging.CommandTemplate

open Text

/-! ## Placeholders in a text -/

/-- A name without braces. -/
def Braceless (name : String) : Prop := '{' ∉ name.toList ∧ '}' ∉ name.toList

/-- Names without braces, each with one value. -/
structure IsMapping (values : List (String × String)) : Prop where
  braceless : ∀ entry ∈ values, Braceless entry.1
  once : (values.map Prod.fst).Nodup

/-- A placeholder at the front of a text, with the value of its name. -/
def mention (values : List (String × String)) : Recognizer String := fun _ s =>
  values.findSome? fun (name, value) => (after? (placeholder name) s).map (value, ·)

/-- A text cut into the placeholders of some names and the characters between them. -/
def tokens (values : List (String × String)) (s : List Char) : List (Piece String) := pieces (mention values) none s

/-- What is written for a piece: for a placeholder, its value. -/
def written : Piece String → List Char
  | .plain c => [c]
  | .hit value _ => value.toList

/-- A text with the value of each name in place of its placeholders. -/
def filled (values : List (String × String)) (s : List Char) : List Char := (tokens values s).flatMap written

/-- An argument with the value of each name in place of its placeholders, all set in at once. -/
def substitute (values : List (String × String)) (argument : String) : String := String.ofList (filled values argument.toList)

/-- How often the placeholder of a name stands in a text. -/
def times (name : String) (s : List Char) : Nat := ((tokens [(name, "")] s).filterMap Piece.value?).length

variable {values done : List (String × String)} {name value : String} {first : Option Char} {a b s t rest : List Char}

theorem IsMapping.of_subset {others : List (String × String)} (mapping : IsMapping values) (within : others.Sublist values) : IsMapping others :=
  ⟨fun entry mem => mapping.braceless entry (within.subset mem), mapping.once.sublist (within.map Prod.fst)⟩

theorem IsMapping.single (plain : Braceless name) (value : String) : IsMapping [(name, value)] :=
  ⟨fun entry mem => List.mem_singleton.1 mem ▸ plain, by simp⟩

theorem IsMapping.perm {others : List (String × String)} (mapping : IsMapping values) (same : others.Perm values) : IsMapping others :=
  ⟨fun entry mem => mapping.braceless entry (same.mem_iff.1 mem), (same.map Prod.fst).nodup_iff.2 mapping.once⟩

theorem IsMapping.value_unique {value' : String} (mapping : IsMapping values) (mem : (name, value) ∈ values)
    (mem' : (name, value') ∈ values) : value = value' := by
  have same := List.inj_on_of_nodup_map mapping.once mem mem' rfl
  exact (Prod.mk.inj same).2

theorem placeholder_append (name : String) (s : List Char) : placeholder name ++ s = '{' :: (name.toList ++ '}' :: s) := by
  simp [placeholder]

/-- A text begins with one placeholder. -/
theorem placeholder_inj {other : String} {s' : List Char} (plain : Braceless name) (plain' : Braceless other)
    (same : placeholder name ++ s = placeholder other ++ s') : name = other ∧ s = s' := by
  rw [placeholder_append, placeholder_append] at same
  have test {name : String} (plain : Braceless name) : name.toList.all (· != '}') = true :=
    List.all_eq_true.2 fun c mem => by
      have other : c ≠ '}' := fun same => plain.2 (same ▸ mem)
      simpa using other
  have stop (s : List Char) : Stops (· != '}') ('}' :: s) := by simp [Stops]
  obtain ⟨names, behind⟩ := span_inj (List.cons.inj same).2 (test plain) (test plain') (stop s) (stop s')
  exact ⟨String.toList_inj.1 names, (List.cons.inj behind).2⟩

theorem mention_eq_some_iff (mapping : IsMapping values) :
    mention values first s = some (value, rest) ↔ ∃ name, (name, value) ∈ values ∧ s = placeholder name ++ rest := by
  constructor
  · intro found
    obtain ⟨⟨name, value'⟩, mem, here⟩ := List.exists_of_findSome?_eq_some found
    obtain ⟨behind, after, same⟩ := Option.map_eq_some_iff.1 here
    obtain ⟨rfl, rfl⟩ := Prod.mk.inj same
    exact ⟨name, mem, after?_eq_some_iff.1 after⟩
  · rintro ⟨name, mem, rfl⟩
    have here : (after? (placeholder name) (placeholder name ++ rest)).map (value, ·) = some (value, rest) := by
      rw [after?_eq_some_iff.2 rfl]
      rfl
    have some_ : mention values first (placeholder name ++ rest) ≠ none := fun missing => by
      have nothing := List.findSome?_eq_none_iff.1 missing (name, value) mem
      cases here.symm.trans nothing
    obtain ⟨⟨value', rest'⟩, found⟩ := Option.ne_none_iff_exists'.1 some_
    obtain ⟨⟨other, value''⟩, mem', here'⟩ := List.exists_of_findSome?_eq_some found
    obtain ⟨behind, after, same⟩ := Option.map_eq_some_iff.1 here'
    obtain ⟨rfl, rfl⟩ := Prod.mk.inj same
    obtain ⟨rfl, rfl⟩ := placeholder_inj (mapping.braceless _ mem) (mapping.braceless _ mem') (after?_eq_some_iff.1 after)
    obtain rfl := mapping.value_unique mem mem'
    exact found

theorem mention_eq_none_iff (mapping : IsMapping values) :
    mention values first s = none ↔ ∀ entry ∈ values, ∀ rest, s ≠ placeholder entry.1 ++ rest := by
  rw [Option.eq_none_iff_forall_ne_some]
  constructor
  · rintro nothing ⟨name, value⟩ mem rest rfl
    exact nothing (value, rest) ((mention_eq_some_iff mapping).2 ⟨name, mem, rfl⟩)
  · rintro nowhere ⟨value, rest⟩ found
    obtain ⟨name, mem, same⟩ := (mention_eq_some_iff mapping).1 found
    exact nowhere (name, value) mem rest same

theorem mention_cuts (mapping : IsMapping values) : (mention values).Cuts := by
  intro first s value behind found
  obtain ⟨name, -, rfl⟩ := (mention_eq_some_iff mapping).1 found
  exact ⟨placeholder name, by simp [placeholder], rfl⟩

/-- Only at an opening brace a placeholder can stand. -/
theorem mention_of_head (mapping : IsMapping values) {c : Char} (other : c ≠ '{') : mention values first (c :: s) = none := by
  refine (mention_eq_none_iff mapping).2 fun entry _ rest same => ?_
  rw [placeholder_append] at same
  exact other (List.cons.inj same).1

/-! ## Reading a text in parts -/

theorem pieces_mention : pieces (mention values) first s = tokens values s := by
  unfold tokens
  cases s with
  | nil => rw [pieces_nil, pieces_nil]
  | cons c s =>
    rw [pieces, pieces]
    rfl

theorem tokens_plain {c : Char} (missing : mention values none (c :: s) = none) : tokens values (c :: s) = .plain c :: tokens values s := by
  rw [tokens, pieces_plain missing, pieces_mention]

/-- Where no placeholder begins with an opening brace, there is none. -/
theorem tokens_skip (mapping : IsMapping values) (plain : '{' ∉ a) : tokens values (a ++ b) = a.map .plain ++ tokens values b := by
  have nowhere (u v : List Char) (split : a = u ++ v) (filled : v ≠ []) : mention values (charBefore none u) (v ++ b) = none := by
    obtain ⟨c, v, rfl⟩ := List.exists_cons_of_ne_nil filled
    exact mention_of_head mapping fun brace => plain (by simp [split, brace])
  rw [tokens, pieces_skip nowhere, pieces_mention]

/-- No placeholder of a text goes on at an opening brace, so the text can be read up to there and on from there. -/
theorem tokens_opening (mapping : IsMapping values) (a b : List Char) :
    tokens values (a ++ '{' :: b) = tokens values a ++ tokens values ('{' :: b) := by
  have border (u v : List Char) (split : a = u ++ v) (filled : v ≠ []) : mention values (charBefore none u) (v ++ '{' :: b) =
      (mention values (charBefore none u) v).map fun r => (r.1, r.2 ++ '{' :: b) := by
    rcases found : mention values (charBefore none u) v with _ | ⟨value, rest⟩
    · refine (mention_eq_none_iff mapping).2 fun entry mem rest same => ?_
      -- a placeholder that begins before the brace would hold it
      obtain ⟨w, front, -⟩ | ⟨w, front, -⟩ := append_eq_append_cons same.symm
      · obtain ⟨c, v, rfl⟩ := List.exists_cons_of_ne_nil filled
        have inside : entry.1.toList ++ ['}'] = v ++ '{' :: w := (List.cons.inj front).2
        have brace : '{' ∈ entry.1.toList ++ ['}'] := by
          rw [inside]
          simp
        exact (mapping.braceless entry mem).1 (by simpa using brace)
      · exact (mention_eq_none_iff mapping).1 found entry mem w front
    · obtain ⟨name, mem, rfl⟩ := (mention_eq_some_iff mapping).1 found
      exact (mention_eq_some_iff mapping).2 ⟨name, mem, List.append_assoc _ _ _⟩
  rw [tokens, pieces_append (mention_cuts mapping) border, pieces_mention, pieces_mention]

theorem tokens_token (mapping : IsMapping values) (mem : (name, value) ∈ values) (a b : List Char) :
    tokens values (a ++ (placeholder name ++ b)) = tokens values a ++ (.hit value (placeholder name) :: tokens values b) := by
  have here : mention values none (placeholder name ++ b) = some (value, b) := (mention_eq_some_iff mapping).2 ⟨name, mem, rfl⟩
  have first : tokens values (placeholder name ++ b) = .hit value (placeholder name) :: tokens values b := by
    rw [tokens, pieces_hit (by simp [placeholder]) here, pieces_mention]
  rw [← first, placeholder_append, tokens_opening mapping]

theorem tokens_other (mapping : IsMapping values) (plain : Braceless name) (other : name ∉ values.map Prod.fst) (a b : List Char) :
    tokens values (a ++ (placeholder name ++ b)) = tokens values a ++ ((placeholder name).map .plain ++ tokens values b) := by
  have missing : mention values none ('{' :: (name.toList ++ '}' :: b)) = none := by
    refine (mention_eq_none_iff mapping).2 fun entry mem rest same => other ?_
    rw [← placeholder_append] at same
    obtain ⟨rfl, -⟩ := placeholder_inj plain (mapping.braceless entry mem) same
    exact List.mem_map_of_mem mem
  have tail : '{' ∉ name.toList ++ ['}'] := by simpa using plain.1
  have behind : tokens values (name.toList ++ '}' :: b) = (name.toList ++ ['}']).map .plain ++ tokens values b := by
    rw [← tokens_skip mapping tail, List.append_assoc]
    rfl
  rw [placeholder_append, tokens_opening mapping, tokens_plain missing, behind]
  rfl

/-- Induction over a text: one in which the placeholder of a name does not stand, or two around it. -/
theorem token_induction (name : String) {motive : List Char → Prop} (without : ∀ s, ¬ placeholder name <:+: s → motive s)
    (around : ∀ a b, motive a → motive b → motive (a ++ (placeholder name ++ b))) (s : List Char) : motive s := by
  induction size : s.length using Nat.strongRecOn generalizing s with
  | _ n ih =>
    by_cases stands : placeholder name <:+: s
    · obtain ⟨a, b, rfl⟩ := stands
      have longer : a.length < n ∧ b.length < n := by
        simp only [List.length_append, placeholder, List.length_cons, List.length_nil] at size
        omega
      rw [List.append_assoc]
      exact around a b (ih a.length longer.1 a rfl) (ih b.length longer.2 b rfl)
    · exact without s stands

/-! ## Filling in -/

@[simp] theorem filled_nil (values : List (String × String)) : filled values [] = [] := by simp [filled, tokens]

@[simp] theorem times_nil (name : String) : times name [] = 0 := by simp [times, tokens]

theorem filled_token (mapping : IsMapping values) (mem : (name, value) ∈ values) (a b : List Char) :
    filled values (a ++ (placeholder name ++ b)) = filled values a ++ (value.toList ++ filled values b) := by
  unfold filled
  rw [tokens_token mapping mem, List.flatMap_append, List.flatMap_cons]
  rfl

theorem flatMap_written_plain (s : List Char) : (s.map Piece.plain).flatMap written = s := by
  rw [List.flatMap_map]
  exact List.flatMap_singleton' s

theorem filterMap_value?_plain (s : List Char) : (s.map Piece.plain : List (Piece String)).filterMap Piece.value? = [] := by
  simp [List.filterMap_map, Function.comp_def, Piece.value?]

theorem filled_other (mapping : IsMapping values) (plain : Braceless name) (other : name ∉ values.map Prod.fst) (a b : List Char) :
    filled values (a ++ (placeholder name ++ b)) = filled values a ++ (placeholder name ++ filled values b) := by
  unfold filled
  rw [tokens_other mapping plain other, List.flatMap_append, List.flatMap_append, flatMap_written_plain]

theorem times_token (plain : Braceless name) (a b : List Char) : times name (a ++ (placeholder name ++ b)) = times name a + 1 + times name b := by
  unfold times
  rw [tokens_token (.single plain "") (List.mem_singleton.2 rfl), List.filterMap_append, List.length_append, List.filterMap_cons]
  simp only [Piece.value?, List.length_cons]
  omega

/-- Where a name has no placeholder, it makes no difference whether it is read. -/
theorem tokens_of_not_isInfix (mapping : IsMapping (done ++ [(name, value)])) (without : ¬ placeholder name <:+: s) :
    tokens (done ++ [(name, value)]) s = tokens done s := by
  have before : IsMapping done := mapping.of_subset (List.sublist_append_left _ _)
  unfold tokens
  generalize none = first
  induction first, s using search_induction (mention_cuts before) with
  | nil first => rw [pieces_nil, pieces_nil]
  | plain first c s missing ih =>
    have missing' : mention (done ++ [(name, value)]) first (c :: s) = none := by
      refine (mention_eq_none_iff mapping).2 fun entry mem rest same => ?_
      obtain old | new := List.mem_append.1 mem
      · exact (mention_eq_none_iff before).1 missing entry old rest same
      · obtain rfl := List.mem_singleton.1 new
        exact without ⟨[], rest, same.symm⟩
    rw [pieces_plain missing, pieces_plain missing', ih fun stands => without (stands.trans (List.suffix_cons c s).isInfix)]
  | hit first covered behind value' filled found ih =>
    obtain ⟨other, mem, same⟩ := (mention_eq_some_iff before).1 found
    have found' : mention (done ++ [(name, value)]) first (covered ++ behind) = some (value', behind) :=
      (mention_eq_some_iff mapping).2 ⟨other, List.mem_append_left _ mem, same⟩
    rw [pieces_hit filled found, pieces_hit filled found', ih fun stands => without (stands.trans (List.suffix_append _ _).isInfix)]

theorem tokens_nil_values (s : List Char) : tokens [] s = s.map .plain := by
  have read := pieces_skip (fun _ _ _ _ => rfl : ∀ u v, s = u ++ v → v ≠ [] → mention [] (charBefore none u) (v ++ []) = none)
  rwa [List.append_nil, pieces_nil, List.append_nil] at read

theorem tokens_single_of_not_isInfix (plain : Braceless name) (value : String) (without : ¬ placeholder name <:+: s) :
    tokens [(name, value)] s = s.map .plain := by
  have mapping : IsMapping ([] ++ [(name, value)]) := .single plain value
  exact (tokens_of_not_isInfix mapping without).trans (tokens_nil_values s)

theorem filled_single_of_not_isInfix (plain : Braceless name) (value : String) (without : ¬ placeholder name <:+: s) :
    filled [(name, value)] s = s := by
  rw [filled, tokens_single_of_not_isInfix plain value without, flatMap_written_plain]

theorem times_of_not_isInfix (plain : Braceless name) (without : ¬ placeholder name <:+: s) : times name s = 0 := by
  rw [times, tokens_single_of_not_isInfix plain "" without, filterMap_value?_plain, List.length_nil]

theorem times_eq_zero_iff (plain : Braceless name) : times name s = 0 ↔ ¬ placeholder name <:+: s := by
  refine ⟨?_, times_of_not_isInfix plain⟩
  rintro never ⟨a, b, rfl⟩
  rw [List.append_assoc, times_token plain] at never
  omega

/-- One name is filled in all at once. -/
theorem replaceAll_eq_filled (plain : Braceless name) (value : String) (s : List Char) :
    replaceAll (placeholder name) value.toList s = filled [(name, value)] s := by
  have single (first : Option Char) (s : List Char) : mention [(name, value)] first s = (after? (placeholder name) s).map (value, ·) := by
    rcases after : after? (placeholder name) s with _ | rest
    · simp [mention, after]
    · simp [mention, after]
  change replaceFrom (fun _ s => (after? (placeholder name) s).map ((), ·)) (fun _ _ => value.toList) none s =
    (pieces (mention [(name, value)]) none s).flatMap written
  generalize none = first
  induction first, s using search_induction (mention_cuts (.single plain value)) with
  | nil first => simp
  | plain first c s missing ih =>
    have missing' : (after? (placeholder name) (c :: s)).map (((), ·) : List Char → Unit × List Char) = none := by
      rw [single, Option.map_eq_none_iff] at missing
      rw [missing]
      rfl
    rw [replaceFrom_plain missing', pieces_plain missing, ih]
    rfl
  | hit first covered behind value' filled found ih =>
    obtain ⟨rest, after, same⟩ := Option.map_eq_some_iff.1 ((single first (covered ++ behind)).symm.trans found)
    obtain ⟨rfl, rfl⟩ := Prod.mk.inj same
    have found' : (after? (placeholder name) (covered ++ rest)).map (((), ·) : List Char → Unit × List Char) = some ((), rest) := by
      rw [after]
      rfl
    rw [replaceFrom_hit filled found', pieces_hit filled found, ih]
    rfl

/-! ## One name after others -/

/-- Setting in a value changes the length of a text as often as the placeholder of its name stands there. -/
theorem length_filled_single (plain : Braceless name) (value : String) (s : List Char) :
    (filled [(name, value)] s).length + times name s * (placeholder name).length = s.length + times name s * value.toList.length := by
  induction s using token_induction name with
  | without s without => rw [filled_single_of_not_isInfix plain value without, times_of_not_isInfix plain without, Nat.zero_mul, Nat.zero_mul]
  | around a b ih ih' =>
    rw [filled_token (.single plain value) (List.mem_singleton.2 rfl), times_token plain]
    simp only [List.length_append, Nat.add_mul, Nat.one_mul]
    omega

section

variable (mapping : IsMapping (done ++ [(name, value)]))
include mapping

theorem IsMapping.before : IsMapping done := mapping.of_subset (List.sublist_append_left _ _)

theorem IsMapping.last : Braceless name := mapping.braceless (name, value) (by simp)

theorem IsMapping.fresh : name ∉ done.map Prod.fst := by
  have once := mapping.once
  rw [List.map_append, List.nodup_append] at once
  exact fun mem => once.2.2 name mem name (by simp) rfl

theorem filled_next_token (a b : List Char) : filled (done ++ [(name, value)]) (a ++ (placeholder name ++ b)) =
    filled (done ++ [(name, value)]) a ++ (value.toList ++ filled (done ++ [(name, value)]) b) := filled_token mapping (by simp) a b

theorem filled_done_token (a b : List Char) : filled done (a ++ (placeholder name ++ b)) = filled done a ++ (placeholder name ++ filled done b) :=
  filled_other mapping.before mapping.last mapping.fresh a b

theorem filled_next_of_not_isInfix (without : ¬ placeholder name <:+: s) : filled (done ++ [(name, value)]) s = filled done s := by
  rw [filled, tokens_of_not_isInfix mapping without]
  rfl

theorem length_filled_next (s : List Char) :
    (filled (done ++ [(name, value)]) s).length + times name s * (placeholder name).length =
      (filled done s).length + times name s * value.toList.length := by
  induction s using token_induction name with
  | without s without => rw [filled_next_of_not_isInfix mapping without, times_of_not_isInfix mapping.last without, Nat.zero_mul, Nat.zero_mul]
  | around a b ih ih' =>
    rw [filled_next_token mapping, filled_done_token mapping, times_token mapping.last]
    simp only [List.length_append, Nat.add_mul, Nat.one_mul]
    omega

/-- The placeholders of a name stay when others are filled in. -/
theorem times_le_filled (s : List Char) : times name s ≤ times name (filled done s) := by
  induction s using token_induction name with
  | without s without =>
    rw [times_of_not_isInfix mapping.last without]
    exact Nat.zero_le _
  | around a b ih ih' =>
    rw [filled_done_token mapping, times_token mapping.last, times_token mapping.last]
    omega

/-- Where the values that were filled in bring no placeholder of a name, filling it in next is filling it in with them. -/
theorem filled_next_of_times (s : List Char) (same : times name (filled done s) = times name s) :
    filled [(name, value)] (filled done s) = filled (done ++ [(name, value)]) s := by
  induction s using token_induction name with
  | without s without =>
    rw [times_of_not_isInfix mapping.last without, times_eq_zero_iff mapping.last] at same
    rw [filled_single_of_not_isInfix mapping.last value same, filled_next_of_not_isInfix mapping without]
  | around a b ih ih' =>
    rw [filled_done_token mapping, times_token mapping.last, times_token mapping.last] at same
    have least := times_le_filled mapping a
    have least' := times_le_filled mapping b
    rw [filled_done_token mapping, filled_next_token mapping, filled_token (.single mapping.last value) (List.mem_singleton.2 rfl),
      ih (by omega), ih' (by omega)]

/-- A name whose value is its placeholder may be filled in anywhere. -/
theorem filled_next_of_self (self : value.toList = placeholder name) (s : List Char) :
    filled [(name, value)] (filled done s) = filled (done ++ [(name, value)]) s := by
  have alone (t : List Char) : filled [(name, value)] t = t := by
    induction t using token_induction name with
    | without t without => exact filled_single_of_not_isInfix mapping.last value without
    | around a b ih ih' => rw [filled_token (.single mapping.last value) (List.mem_singleton.2 rfl), ih, ih', self]
  rw [alone]
  induction s using token_induction name with
  | without s without => rw [filled_next_of_not_isInfix mapping without]
  | around a b ih ih' => rw [filled_done_token mapping, filled_next_token mapping, ih, ih', self]

/-- A value as long as its placeholder, and not the placeholder itself, tells by where it stands what was filled in. -/
theorem times_of_filled_next (size : value.toList.length = (placeholder name).length) (other : value.toList ≠ placeholder name) (s : List Char)
    (same : filled [(name, value)] (filled done s) = filled (done ++ [(name, value)]) s) : times name (filled done s) = times name s := by
  have lengths (t : List Char) : (filled [(name, value)] t).length = t.length := by
    have grown := length_filled_single mapping.last value t
    rw [size] at grown
    omega
  have lengths' (t : List Char) : (filled (done ++ [(name, value)]) t).length = (filled done t).length := by
    have grown := length_filled_next mapping t
    rw [size] at grown
    omega
  induction s using token_induction name with
  | without s without =>
    rw [times_of_not_isInfix mapping.last without, times_eq_zero_iff mapping.last]
    rw [filled_next_of_not_isInfix mapping without] at same
    rintro ⟨a, b, split⟩
    rw [← split, List.append_assoc, filled_token (.single mapping.last value) (List.mem_singleton.2 rfl)] at same
    obtain ⟨-, behind⟩ := List.append_inj same (lengths a)
    exact other (List.append_inj behind size).1
  | around a b ih ih' =>
    rw [filled_done_token mapping, filled_next_token mapping, filled_token (.single mapping.last value) (List.mem_singleton.2 rfl)] at same
    obtain ⟨front, behind⟩ := List.append_inj same ((lengths _).trans (lengths' a).symm)
    rw [filled_done_token mapping, times_token mapping.last, times_token mapping.last, ih front, ih' (List.append_cancel_left behind)]

/-- Filling in a name after others is filling it in with them just when the others bring no placeholder of it, or it stands for itself. -/
theorem filled_next_iff (s : List Char) : filled [(name, value)] (filled done s) = filled (done ++ [(name, value)]) s ↔
    value.toList = placeholder name ∨ times name (filled done s) = times name s := by
  constructor
  · intro same
    by_cases size : value.toList.length = (placeholder name).length
    · by_cases self : value.toList = placeholder name
      · exact .inl self
      · exact .inr (times_of_filled_next mapping size self s same)
    · right
      have alone := length_filled_single mapping.last value (filled done s)
      have together := length_filled_next mapping s
      rw [same] at alone
      obtain ⟨more, split⟩ := Nat.exists_eq_add_of_le (times_le_filled mapping s)
      rw [split, Nat.add_mul, Nat.add_mul] at alone
      have none_ : more * value.toList.length = more * (placeholder name).length := by omega
      obtain rfl | some_ := Nat.eq_zero_or_pos more
      · rw [split, Nat.add_zero]
      · exact absurd (Nat.eq_of_mul_eq_mul_left some_ none_) size
  · rintro (self | same)
    · exact filled_next_of_self mapping self s
    · exact filled_next_of_times mapping s same

end

/-! ## All names -/

/-- Wherever a name is filled in, the values of the names before it have brought no placeholder of it. A name that stands for its
own placeholder may have any. -/
def Quiet (values : List (String × String)) (argument : String) : Prop :=
  ∀ done name value rest, values = done ++ (name, value) :: rest →
    value.toList = placeholder name ∨ times name (filled done argument.toList) = times name argument.toList

theorem fill_concat (done : List (String × String)) (name value argument : String) :
    fill (done ++ [(name, value)]) argument = String.ofList (replaceAll (placeholder name) value.toList (fill done argument).toList) := by
  simp [fill, List.foldl_append]

theorem fill_eq_substitute_iff (mapping : IsMapping (done ++ [(name, value)])) {argument : String} (before : fill done argument = substitute done argument) :
    fill (done ++ [(name, value)]) argument = substitute (done ++ [(name, value)]) argument ↔
      value.toList = placeholder name ∨ times name (filled done argument.toList) = times name argument.toList := by
  rw [fill_concat, before, substitute, substitute, String.toList_ofList, replaceAll_eq_filled mapping.last, ← filled_next_iff mapping]
  exact String.ofList_inj

theorem quiet_iff (mapping : IsMapping values) {argument : String} :
    Quiet values argument ↔ ∀ done, done <+: values → fill done argument = substitute done argument := by
  constructor
  · intro quiet done within
    induction done using List.reverseRecOn with
    | nil => simp [fill, substitute, filled, tokens_nil_values, flatMap_written_plain]
    | append_singleton done entry ih =>
      obtain ⟨name, value⟩ := entry
      obtain ⟨rest, whole⟩ := id within
      have before := ih ((List.prefix_append done _).trans within)
      refine (fill_eq_substitute_iff (mapping.of_subset within.sublist) before).2 (quiet done name value rest ?_)
      rw [← whole, List.append_assoc]
      rfl
  · rintro same done name value rest rfl
    have within : done ++ [(name, value)] <+: done ++ (name, value) :: rest := ⟨rest, by simp⟩
    have before := same done ((List.prefix_append done _).trans within)
    exact (fill_eq_substitute_iff (mapping.of_subset within.sublist) before).1 (same _ within)

/-- Names filled in all at once may be given in any order. -/
theorem substitute_perm {others : List (String × String)} (mapping : IsMapping values) (same : others.Perm values) (argument : String) :
    substitute others argument = substitute values argument := by
  have read : mention others = mention values := by
    funext first s
    refine Option.ext fun ⟨value, rest⟩ => ?_
    rw [mention_eq_some_iff mapping, mention_eq_some_iff (mapping.perm same)]
    simp only [same.mem_iff]
  simp only [substitute, filled, tokens, read]

/-- A template is filled name after name as if all at once, as far as one goes, just where no value brings a placeholder that is
filled in later; then the order of the names does not matter. -/
theorem render_eq_substitute_iff (mapping : IsMapping values) (template : List String) :
    ((∀ done, done <+: values → render template done = template.map (substitute done)) ↔ ∀ argument ∈ template, Quiet values argument) ∧
    ∀ others, others.Perm values → (∀ argument ∈ template, Quiet values argument ∧ Quiet others argument) →
      render template others = render template values := by
  have stages {values : List (String × String)} (mapping : IsMapping values) :
      (∀ done, done <+: values → render template done = template.map (substitute done)) ↔ ∀ argument ∈ template, Quiet values argument := by
    simp only [quiet_iff mapping, render, List.map_inj_left]
    exact ⟨fun all argument mem done within => all done within argument mem, fun all done within argument mem => all argument mem done within⟩
  refine ⟨stages mapping, fun others same quiet => ?_⟩
  rw [(stages mapping).2 (fun argument mem => (quiet argument mem).1) values (List.prefix_refl _),
    (stages (mapping.perm same)).2 (fun argument mem => (quiet argument mem).2) others (List.prefix_refl _)]
  exact List.map_congr_left fun argument _ => substitute_perm mapping same argument

/-! ## Values without braces -/

/-- Every opening brace of a text begins a placeholder. -/
inductive Tidy : List Char → Prop where
  | nil : Tidy []
  | plain {c : Char} {s : List Char} : c ≠ '{' → Tidy s → Tidy (c :: s)
  | token {name : String} {s : List Char} : Braceless name → Tidy s → Tidy (placeholder name ++ s)

theorem Tidy.skip (tidy : Tidy s) (without : '{' ∉ a) : Tidy (a ++ s) := by
  induction a with
  | nil => exact tidy
  | cons c a ih =>
    have first : c ≠ '{' := fun same => without (same ▸ List.mem_cons_self)
    exact .plain first (ih fun later => without (List.mem_cons_of_mem c later))

theorem filled_skip (mapping : IsMapping values) (without : '{' ∉ a) : filled values (a ++ b) = a ++ filled values b := by
  rw [filled, tokens_skip mapping without, List.flatMap_append, flatMap_written_plain]
  rfl

theorem times_skip (plain : Braceless name) (without : '{' ∉ a) : times name (a ++ b) = times name b := by
  rw [times, tokens_skip (.single plain "") without, List.filterMap_append, filterMap_value?_plain]
  rfl

theorem times_other {other : String} (plain : Braceless name) (plain' : Braceless other) (differs : other ≠ name) (s : List Char) :
    times name (placeholder other ++ s) = times name s := by
  have read := tokens_other (.single plain "") plain' (by simpa using differs) [] s
  rw [List.nil_append] at read
  rw [times, read, List.filterMap_append, List.filterMap_append, filterMap_value?_plain]
  simp [times, tokens]

theorem times_of_tidy (mapping : IsMapping (done ++ [(name, value)])) (plain : ∀ entry ∈ done, '{' ∉ entry.2.toList) (tidy : Tidy s) :
    times name (filled done s) = times name s := by
  induction tidy with
  | nil => rw [filled_nil]
  | @plain c s other _ ih =>
    have without : '{' ∉ [c] := by simpa using other.symm
    have skipped : filled done ([c] ++ s) = [c] ++ filled done s := filled_skip mapping.before without
    rw [← List.singleton_append, skipped, times_skip mapping.last without, times_skip mapping.last without, ih]
  | @token other s plain' _ ih =>
    by_cases same : other = name
    · subst same
      have kept : filled done (placeholder other ++ s) = placeholder other ++ filled done s := by simpa using filled_done_token mapping [] s
      have counted (t : List Char) : times other (placeholder other ++ t) = 1 + times other t := by simpa using times_token mapping.last [] t
      rw [kept, counted, counted, ih]
    · rw [times_other mapping.last plain' same, ← ih]
      by_cases mem : other ∈ done.map Prod.fst
      · obtain ⟨⟨_, value'⟩, listed, rfl⟩ := List.mem_map.1 mem
        have set := filled_token mapping.before listed [] s
        rw [List.nil_append, filled_nil, List.nil_append] at set
        rw [set, times_skip mapping.last (plain _ listed)]
      · have kept := filled_other mapping.before plain' mem [] s
        rw [List.nil_append, filled_nil, List.nil_append] at kept
        rw [kept, times_other mapping.last plain' same]

/-- Values without opening braces bring no placeholders to an argument in which every opening brace begins one. -/
theorem quiet_of_tidy (mapping : IsMapping values) (plain : ∀ entry ∈ values, '{' ∉ entry.2.toList) {argument : String}
    (tidy : Tidy argument.toList) : Quiet values argument := by
  rintro done name value rest rfl
  have within : (done ++ [(name, value)]).Sublist (done ++ (name, value) :: rest) := by simp
  exact .inr (times_of_tidy (mapping.of_subset within) (fun entry mem => plain entry (List.mem_append_left _ mem)) tidy)

/-- What the build of a target fills in. -/
def buildValues : List (String × String) := [("output_dir", "dist/x"), ("project_root", "/p")]

/-- Two arguments with a placeholder each. -/
def buildTemplate : List String := ["--out=\x7boutput_dir\x7d", "\x7bproject_root\x7d"]

/-- Plain values are filled in as if all at once, in either order. -/
theorem render_plain : IsMapping buildValues ∧ (∀ argument ∈ buildTemplate, Quiet buildValues argument) ∧
    render buildTemplate buildValues = buildTemplate.map (substitute buildValues) ∧
    render buildTemplate buildValues.reverse = render buildTemplate buildValues := by
  have braceless : ∀ entry ∈ buildValues, Braceless entry.1 := by simp [buildValues, Braceless]
  have mapping : IsMapping buildValues := ⟨braceless, by decide⟩
  have plain : ∀ entry ∈ buildValues, '{' ∉ entry.2.toList := by simp [buildValues]
  have plain' : ∀ entry ∈ buildValues.reverse, '{' ∉ entry.2.toList := by simp [buildValues]
  have tidy : ∀ argument ∈ buildTemplate, Tidy argument.toList := by
    have names : Braceless "output_dir" ∧ Braceless "project_root" := by simp [Braceless]
    have outer : Tidy ("--out=".toList ++ (placeholder "output_dir" ++ [])) := (Tidy.token names.1 .nil).skip (by simp)
    have root : Tidy (placeholder "project_root" ++ []) := .token names.2 .nil
    simpa [buildTemplate, placeholder] using ⟨outer, root⟩
  obtain ⟨stages, orders⟩ := render_eq_substitute_iff mapping buildTemplate
  have quiet : ∀ argument ∈ buildTemplate, Quiet buildValues argument := fun argument mem => quiet_of_tidy mapping plain (tidy argument mem)
  have quiet' : ∀ argument ∈ buildTemplate, Quiet buildValues.reverse argument := fun argument mem =>
    quiet_of_tidy (mapping.perm (List.reverse_perm _)) plain' (tidy argument mem)
  exact ⟨mapping, quiet, stages.2 quiet _ (List.prefix_refl _),
    orders _ (List.reverse_perm _) fun argument mem => ⟨quiet argument mem, quiet' argument mem⟩⟩

/-- A value that holds a placeholder is filled in where its name comes later, and set in as it is where its name came before. -/
theorem render_fills_values :
    render ["\x7ba\x7d"] [("a", "\x7bb\x7d"), ("b", "x")] = ["x"] ∧
      ["\x7ba\x7d"].map (substitute [("a", "\x7bb\x7d"), ("b", "x")]) = ["\x7bb\x7d"] ∧
      render ["\x7ba\x7d"] [("b", "x"), ("a", "\x7bb\x7d")] = ["\x7bb\x7d"] := by
  decide +kernel

end WasmPackaging.CommandTemplate
