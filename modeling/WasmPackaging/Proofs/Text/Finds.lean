import WasmPackaging.Text.Pieces

/-!
Where the finds of a search lie. A recogniser that takes a stretch from the front of a text
(`Cuts`) is searched for by one induction (`search_induction`). Main facts: a search finds nothing
exactly when the recogniser answers at no place (`locateIn_eq_nil_iff`), each place at which it answers is
the start of a find or lies within one (`exists_located`), and when no find starts within another (`Apart`)
the last find is the last place at which it answers (`getLast?_locateIn_iff`).
-/

namespace WasmPackaging.Text

variable {α : Type}

/-- The character before a place: the last one of the text that leads there, or else `first`. -/
def charBefore (first : Option Char) (u : List Char) : Option Char := u.getLast?.or first

@[simp] theorem charBefore_nil (first : Option Char) : charBefore first [] = first := by
  simp [charBefore]

@[simp] theorem charBefore_cons (first : Option Char) (c : Char) (u : List Char) :
    charBefore first (c :: u) = charBefore (some c) u := by
  cases u with
  | nil => simp [charBefore]
  | cons d u => simp [charBefore, List.getLast?_cons]

@[simp] theorem charBefore_append (first : Option Char) (u v : List Char) :
    charBefore first (u ++ v) = charBefore (charBefore first u) v := by
  induction u generalizing first with
  | nil => simp
  | cons c u ih => simp [ih]

theorem charBefore_eq_getLast? {u : List Char} (h : u ≠ []) (first : Option Char) :
    charBefore first u = u.getLast? := by
  simp [charBefore, List.getLast?_eq_some_getLast h]

/-- A recogniser takes a stretch from the front of a text and leaves what is behind it. -/
def Recognizer.Cuts (find : Recognizer α) : Prop :=
  ∀ first s value behind, find first s = some (value, behind) →
    ∃ covered, covered ≠ [] ∧ s = covered ++ behind

/-- No stretch that a recogniser takes starts within another. -/
def Recognizer.Apart (find : Recognizer α) : Prop :=
  ∀ first value u w behind, find first (u ++ w ++ behind) = some (value, behind) → u ≠ [] → w ≠ [] →
    find (charBefore first u) (w ++ behind) = none

section Search

variable {find : Recognizer α}

@[simp] theorem pieces_nil (first : Option Char) : pieces find first [] = [] := by simp [pieces]

theorem pieces_plain {first : Option Char} {c : Char} {s : List Char} (missing : find first (c :: s) = none) :
    pieces find first (c :: s) = .plain c :: pieces find (some c) s := by
  rw [pieces]
  simp [missing]

theorem pieces_hit {first : Option Char} {covered behind : List Char} {value : α}
    (filled : covered ≠ [])
    (hit : find first (covered ++ behind) = some (value, behind)) :
    pieces find first (covered ++ behind) =
      .hit value covered :: pieces find (charBefore first covered) behind := by
  cases covered with
  | nil => exact absurd rfl filled
  | cons c rest =>
    simp only [List.cons_append] at hit ⊢
    rw [pieces]
    have size : (rest ++ behind).length - behind.length = rest.length := by simp
    have fits : behind.length ≤ (rest ++ behind).length := by simp
    simp only [hit, fits, size, ↓reduceIte, List.take_left, List.drop_left]
    rw [charBefore_eq_getLast? (by simp)]

/-- Induction along a search: a place at which nothing is found passes one character, a find passes
what it covers. -/
@[elab_as_elim]
theorem search_induction (cuts : find.Cuts) {motive : Option Char → List Char → Prop}
    (nil : ∀ first, motive first [])
    (plain : ∀ first c s, find first (c :: s) = none → motive (some c) s → motive first (c :: s))
    (hit : ∀ first covered behind value, covered ≠ [] →
      find first (covered ++ behind) = some (value, behind) →
      motive (charBefore first covered) behind → motive first (covered ++ behind)) :
    ∀ first s, motive first s := by
  intro first s
  induction size : s.length using Nat.strongRecOn generalizing first s with
  | _ n ih =>
    cases s with
    | nil => exact nil first
    | cons c s =>
      cases found : find first (c :: s) with
      | none => exact plain first c s found (ih s.length (by simp [← size]) _ s rfl)
      | some result =>
        obtain ⟨value, behind⟩ := result
        obtain ⟨covered, filled, whole⟩ := cuts _ _ _ _ found
        rw [whole] at found size ⊢
        have shorter : behind.length < n := by
          have := List.length_pos_iff.2 filled
          simp at size
          omega
        exact hit first covered behind value filled found (ih _ shorter _ behind rfl)

/-- A search through a text and then another is a search through both, when the recogniser answers
before their border as it does without the second. -/
theorem pieces_append (cuts : find.Cuts) {b : List Char} {first : Option Char} {a : List Char}
    (border : ∀ u v, a = u ++ v → v ≠ [] →
      find (charBefore first u) (v ++ b) = (find (charBefore first u) v).map fun r => (r.1, r.2 ++ b)) :
    pieces find first (a ++ b) = pieces find first a ++ pieces find (charBefore first a) b := by
  induction first, a using search_induction cuts with
  | nil first => simp
  | plain first c s found ih =>
    have missing : find first (c :: (s ++ b)) = none := by
      simpa [found] using border [] (c :: s) rfl (by simp)
    rw [List.cons_append, pieces_plain missing, pieces_plain found, ih fun u v whole filled => by
      simpa using border (c :: u) v (by simp [whole]) filled]
    simp
  | hit first covered behind value filled found ih =>
    have still : find first (covered ++ (behind ++ b)) = some (value, behind ++ b) := by
      simpa [found] using border [] (covered ++ behind) rfl (by simp [filled])
    rw [List.append_assoc, pieces_hit filled still, pieces_hit filled found, ih fun u v whole more => by
      simpa using border (covered ++ u) v (by simp [whole]) more]
    simp

/-- A text in which the recogniser answers nowhere is searched through character by character. -/
theorem pieces_skip {a b : List Char} {first : Option Char}
    (nowhere : ∀ u v, a = u ++ v → v ≠ [] → find (charBefore first u) (v ++ b) = none) :
    pieces find first (a ++ b) = a.map .plain ++ pieces find (charBefore first a) b := by
  induction a generalizing first with
  | nil => simp
  | cons c a ih =>
    have missing : find first (c :: (a ++ b)) = none := by simpa using nowhere [] (c :: a) rfl (by simp)
    rw [List.cons_append, pieces_plain missing, ih fun u v whole filled => by
      simpa using nowhere (c :: u) v (by simp [whole]) filled]
    simp

/-! ## Places -/

/-- What a search finds, the recogniser answers at some place of the text. -/
theorem exists_suffix_of_mem_pieces {first : Option Char} {s : List Char} {value : α}
    (found : value ∈ (pieces find first s).filterMap Piece.value?) :
    ∃ before t rest, t <:+ s ∧ find before t = some (value, rest) := by
  fun_induction pieces find first s with
  | case1 => simp at found
  | case2 first c rest other behind here fits size covered ih =>
    simp only [List.filterMap_cons, Piece.value?, List.mem_cons] at found
    rcases found with rfl | later
    · exact ⟨first, c :: rest, behind, List.suffix_refl _, here⟩
    · obtain ⟨before, t, rest, inside, answer⟩ := ih later
      exact ⟨before, t, rest, (inside.trans (List.drop_suffix _ _)).trans (List.suffix_cons _ _), answer⟩
  | case3 first c rest other behind here long ih =>
    obtain ⟨before, t, rest, inside, answer⟩ := ih (by simpa [List.filterMap_cons, Piece.value?] using found)
    exact ⟨before, t, rest, inside.trans (List.suffix_cons _ _), answer⟩
  | case4 first c rest missing ih =>
    obtain ⟨before, t, rest, inside, answer⟩ := ih (by simpa [List.filterMap_cons, Piece.value?] using found)
    exact ⟨before, t, rest, inside.trans (List.suffix_cons _ _), answer⟩

/-- A find covers what its recogniser takes. -/
theorem exists_of_hit_mem_pieces (cuts : find.Cuts) {first : Option Char} {s text : List Char} {value : α}
    (mem : .hit value text ∈ pieces find first s) :
    ∃ before behind, find before (text ++ behind) = some (value, behind) := by
  induction first, s using search_induction cuts with
  | nil first => simp at mem
  | plain first c s found ih =>
    rw [pieces_plain found, List.mem_cons] at mem
    exact ih (mem.resolve_left (by simp))
  | hit first covered behind other filled found ih =>
    rw [pieces_hit filled found, List.mem_cons] at mem
    obtain same | later := mem
    · obtain ⟨rfl, rfl⟩ := Piece.hit.inj same
      exact ⟨first, behind, found⟩
    · exact ih later

theorem locate_eq_nil_iff (cuts : find.Cuts) (first : Option Char) (s : List Char) (offset : Nat) :
    locate offset (pieces find first s) = [] ↔
      ∀ u v, s = u ++ v → v ≠ [] → find (charBefore first u) v = none := by
  induction first, s using search_induction cuts generalizing offset with
  | nil first =>
    refine ⟨fun _ u v whole filled => absurd whole ?_, fun _ => by simp [locate]⟩
    simp [filled]
  | plain first c s found ih =>
    rw [pieces_plain found, locate, ih]
    constructor
    · intro later u v whole filled
      cases u with
      | nil =>
        rw [List.nil_append] at whole
        simpa [← whole] using found
      | cons d u =>
        obtain ⟨rfl, rest⟩ := List.cons.inj whole
        simpa using later u v rest filled
    · intro all u v whole filled
      simpa using all (c :: u) v (by simp [whole]) filled
  | hit first covered behind value filled found ih =>
    rw [pieces_hit filled found, locate]
    refine ⟨fun empty => absurd empty (by simp), fun all => ?_⟩
    have none := all [] (covered ++ behind) rfl (by simp [filled])
    simp [found] at none

/-- A search finds nothing exactly when the recogniser answers at no place of the text. -/
theorem locateIn_eq_nil_iff (cuts : find.Cuts) (s : List Char) :
    locateIn find s = [] ↔ ∀ u v, s = u ++ v → v ≠ [] → find (charBefore none u) v = none :=
  locate_eq_nil_iff cuts none s 0

/-- A find lies where the recogniser answers, and covers what it takes there. -/
theorem exists_of_mem_locate (cuts : find.Cuts) {first : Option Char} {s : List Char} {offset start : Nat} {value : α}
    {covered : List Char} (mem : (start, value, covered) ∈ locate offset (pieces find first s)) :
    ∃ u v, s = u ++ (covered ++ v) ∧ start = offset + u.length ∧ covered ≠ [] ∧
      find (charBefore first u) (covered ++ v) = some (value, v) := by
  induction first, s using search_induction cuts generalizing offset with
  | nil first => simp [locate] at mem
  | plain first c s missing ih =>
    rw [pieces_plain missing, locate] at mem
    obtain ⟨u, v, rfl, rfl, filled, found⟩ := ih mem
    exact ⟨c :: u, v, rfl, by rw [List.length_cons]; omega, filled, by simpa using found⟩
  | hit first stretch behind other filled found ih =>
    rw [pieces_hit filled found, locate, List.mem_cons] at mem
    rcases mem with here | later
    · obtain ⟨rfl, rfl, rfl⟩ : start = offset ∧ value = other ∧ covered = stretch := by simpa using here
      exact ⟨[], behind, rfl, rfl, filled, found⟩
    · obtain ⟨u, v, rfl, rfl, filled', found'⟩ := ih later
      refine ⟨stretch ++ u, v, by simp, by rw [List.length_append]; omega, filled', ?_⟩
      simpa using found'

/-- Where the recogniser answers, a find starts, or an earlier one covers the place. -/
theorem exists_located (cuts : find.Cuts) {first : Option Char} {u v behind : List Char} {value : α} (filled : v ≠ [])
    (found : find (charBefore first u) v = some (value, behind)) (offset : Nat) :
    ∃ start other covered, (start, other, covered) ∈ locate offset (pieces find first (u ++ v)) ∧
      start ≤ offset + u.length ∧ offset + u.length < start + covered.length := by
  generalize whole : u ++ v = s
  induction first, s using search_induction cuts generalizing u offset with
  | nil first =>
    rw [List.append_eq_nil_iff] at whole
    exact absurd whole.2 filled
  | plain first c s missing ih =>
    rw [pieces_plain missing, locate]
    cases u with
    | nil =>
      rw [List.nil_append] at whole
      rw [charBefore_nil, whole, missing] at found
      cases found
    | cons d u =>
      obtain ⟨rfl, rfl⟩ := List.cons.inj whole
      obtain ⟨start, other, covered, mem, low, high⟩ := ih (by simpa using found) (offset + 1) rfl
      exact ⟨start, other, covered, mem, by rw [List.length_cons]; omega, by rw [List.length_cons]; omega⟩
  | hit first stretch rest other filled' found' ih =>
    rw [pieces_hit filled' found', locate]
    by_cases inside : u.length < stretch.length
    · exact ⟨offset, other, stretch, .head _, by omega, by omega⟩
    · obtain ⟨w, rfl⟩ : ∃ w, u = stretch ++ w := by
        rcases List.append_eq_append_iff.1 whole with ⟨w, split, -⟩ | ⟨w, split, -⟩
        · have size := congrArg List.length split
          rw [List.length_append] at size
          obtain rfl : w = [] := List.length_eq_zero_iff.1 (by omega)
          exact ⟨[], by simpa using split.symm⟩
        · exact ⟨w, split⟩
      rw [List.append_assoc] at whole
      obtain ⟨start, other, covered, mem, low, high⟩ :=
        ih (by simpa using found) (offset + stretch.length) (List.append_cancel_left whole)
      rw [List.length_append]
      exact ⟨start, other, covered, .tail _ mem, by omega, by omega⟩

/-- Each find ends where the next one starts, or before. -/
theorem pairwise_locate (cuts : find.Cuts) (first : Option Char) (s : List Char) (offset : Nat) :
    (locate offset (pieces find first s)).Pairwise fun a b => a.1 + a.2.2.length ≤ b.1 := by
  induction first, s using search_induction cuts generalizing offset with
  | nil first => simp [locate]
  | plain first c s missing ih =>
    rw [pieces_plain missing, locate]
    exact ih (offset + 1)
  | hit first stretch behind other filled found ih =>
    rw [pieces_hit filled found, locate]
    refine List.pairwise_cons.2 ⟨?_, ih (offset + stretch.length)⟩
    rintro ⟨start, value, covered⟩ later
    obtain ⟨u, v, -, rfl, -⟩ := exists_of_mem_locate cuts later
    show offset + stretch.length ≤ _
    omega

/-- A find that starts in front of another ends in front of it. -/
theorem ends_before_of_mem_locate (cuts : find.Cuts) {first : Option Char} {s : List Char} {offset : Nat}
    {a b : Nat × α × List Char} (mem : a ∈ locate offset (pieces find first s)) (mem' : b ∈ locate offset (pieces find first s))
    (lt : a.1 < b.1) : a.1 + a.2.2.length ≤ b.1 := by
  obtain ⟨front, rest, whole⟩ := List.append_of_mem mem
  have order := pairwise_locate cuts first s offset
  rw [whole] at order mem'
  obtain ⟨-, later, across⟩ := List.pairwise_append.1 order
  rcases List.mem_append.1 mem' with before | behind
  · have := across b before a (.head _)
    omega
  · rcases List.mem_cons.1 behind with rfl | behind
    · omega
    · exact (List.pairwise_cons.1 later).1 b behind

theorem map_locate (offset : Nat) (list : List (Piece α)) :
    (locate offset list).map (·.2.1) = list.filterMap Piece.value? := by
  induction list generalizing offset with
  | nil => rfl
  | cons piece rest ih =>
    cases piece with
    | plain c => exact ih (offset + 1)
    | hit value text => exact congrArg (value :: ·) (ih (offset + text.length))

/-- A stretch that starts behind the front of another starts behind its end. -/
theorem Recognizer.Apart.exists_between (apart : find.Apart) {first : Option Char} {value other : α}
    {covered behind u text v : List Char} (found : find first (covered ++ behind) = some (value, behind))
    (here : find (charBefore first u) (text ++ v) = some (other, v)) (whole : covered ++ behind = u ++ text ++ v)
    (front : u ≠ []) : ∃ w, u = covered ++ w ∧ behind = w ++ text ++ v := by
  rw [List.append_assoc] at whole
  rcases List.append_eq_append_iff.1 whole with ⟨w, split, rest⟩ | ⟨w, split, rest⟩
  · exact ⟨w, split, by simp [rest]⟩
  · by_cases inside : w = []
    · subst inside
      exact ⟨[], by simpa using split.symm, by simpa using rest.symm⟩
    · rw [split] at found
      have none := apart _ _ _ _ _ found front inside
      rw [← rest, here] at none
      simp at none

theorem getLast?_locate_iff (cuts : find.Cuts) (apart : find.Apart) (first : Option Char) (s : List Char)
    (offset start : Nat) (value : α) (text : List Char) :
    (locate offset (pieces find first s)).getLast? = some (start, value, text) ↔
      ∃ u v, s = u ++ text ++ v ∧ start = offset + u.length ∧ text ≠ [] ∧
        find (charBefore first u) (text ++ v) = some (value, v) ∧
        ∀ w x, v = w ++ x → x ≠ [] → find (charBefore first (u ++ text ++ w)) x = none := by
  induction first, s using search_induction cuts generalizing offset with
  | nil first =>
    refine ⟨fun h => by simp [locate] at h, ?_⟩
    rintro ⟨u, v, whole, _, filled, _⟩
    simp [filled] at whole
  | plain first c s found ih =>
    rw [pieces_plain found, locate, ih]
    constructor
    · rintro ⟨u, v, rfl, rfl, filled, here, later⟩
      exact ⟨c :: u, v, by simp, by simp only [List.length_cons]; omega, filled, by simpa using here, by
        simpa using later⟩
    · rintro ⟨u, v, whole, rfl, filled, here, later⟩
      cases u with
      | nil =>
        rw [List.nil_append] at whole
        rw [whole] at found
        simp [found] at here
      | cons d u =>
        simp only [List.cons_append, List.cons.injEq] at whole
        obtain ⟨rfl, rfl⟩ := whole
        exact ⟨u, v, rfl, by simp only [List.length_cons]; omega, filled, by simpa using here, by
          simpa using later⟩
  | hit first covered behind found_ filled found ih =>
    rw [pieces_hit filled found, locate]
    constructor
    · intro last
      cases rest : locate (offset + covered.length) (pieces find (charBefore first covered) behind) with
      | nil =>
        rw [rest] at last
        simp only [List.getLast?_singleton, Option.some.injEq, Prod.mk.injEq] at last
        obtain ⟨rfl, rfl, rfl⟩ := last
        refine ⟨[], behind, by simp, by simp, filled, by simpa using found, fun w x whole more => ?_⟩
        simpa using (locate_eq_nil_iff cuts _ _ _).1 rest w x whole more
      | cons next others =>
        rw [rest, List.getLast?_cons_cons, ← rest, ih] at last
        obtain ⟨u, v, rfl, rfl, here⟩ := last
        exact ⟨covered ++ u, v, by simp, by simp only [List.length_append]; omega, by simpa using here⟩
    · rintro ⟨u, v, whole, rfl, nonempty, here, later⟩
      by_cases front : u = []
      · -- The find at the front is the last one, as nothing is found behind it.
        subst front
        rw [List.nil_append] at whole
        simp only [charBefore_nil, ← whole, found, Option.some.injEq, Prod.mk.injEq] at here
        obtain ⟨rfl, rfl⟩ := here
        obtain rfl : covered = text := List.append_cancel_right whole
        have rest : locate (offset + covered.length) (pieces find (charBefore first covered) behind) = [] :=
          (locate_eq_nil_iff cuts _ _ _).2 fun w x split more => by simpa using later w x split more
        simp [rest]
      · -- The last find starts behind the one at the front, as finds are apart.
        obtain ⟨w, rfl, rfl⟩ := apart.exists_between found here whole front
        have last := (ih (offset + covered.length)).2
          ⟨w, v, rfl, by simp only [List.length_append]; omega, nonempty, by simpa using here, by simpa using later⟩
        rw [List.getLast?_cons, last]
        rfl

/-- The last find of a search is the last place at which the recogniser answers. -/
theorem getLast?_locateIn_iff (cuts : find.Cuts) (apart : find.Apart) (s : List Char) (start : Nat) (value : α)
    (text : List Char) :
    (locateIn find s).getLast? = some (start, value, text) ↔
      ∃ u v, s = u ++ text ++ v ∧ start = u.length ∧ text ≠ [] ∧
        find (charBefore none u) (text ++ v) = some (value, v) ∧
        ∀ w x, v = w ++ x → x ≠ [] → find (charBefore none (u ++ text ++ w)) x = none := by
  rw [locateIn, getLast?_locate_iff cuts apart]
  simp only [Nat.zero_add]

/-! ## Replacing -/

/-- The text from a place behind `first` with every find replaced. -/
def replaceFrom (find : Recognizer α) (new : α → List Char → List Char) (first : Option Char) (s : List Char) :
    List Char :=
  (pieces find first s).flatMap fun
    | .plain c => [c]
    | .hit value text => new value text

variable {new : α → List Char → List Char}

@[simp] theorem replaceFrom_nil (first : Option Char) : replaceFrom find new first [] = [] := by
  simp [replaceFrom]

theorem replaceFrom_plain {first : Option Char} {c : Char} {s : List Char} (missing : find first (c :: s) = none) :
    replaceFrom find new first (c :: s) = c :: replaceFrom find new (some c) s := by
  simp [replaceFrom, pieces_plain missing]

theorem replaceFrom_hit {first : Option Char} {covered behind : List Char} {value : α} (filled : covered ≠ [])
    (hit : find first (covered ++ behind) = some (value, behind)) :
    replaceFrom find new first (covered ++ behind) =
      new value covered ++ replaceFrom find new (charBefore first covered) behind := by
  simp [replaceFrom, pieces_hit filled hit]

theorem replaceFrom_append (cuts : find.Cuts) {b : List Char} {first : Option Char} {a : List Char}
    (border : ∀ u v, a = u ++ v → v ≠ [] →
      find (charBefore first u) (v ++ b) = (find (charBefore first u) v).map fun r => (r.1, r.2 ++ b)) :
    replaceFrom find new first (a ++ b) =
      replaceFrom find new first a ++ replaceFrom find new (charBefore first a) b := by
  simp [replaceFrom, pieces_append cuts border]

/-- A text in which the recogniser answers nowhere stays, whatever is behind it. -/
theorem replaceFrom_skip {a b : List Char} {first : Option Char}
    (nowhere : ∀ u v, a = u ++ v → v ≠ [] → find (charBefore first u) (v ++ b) = none) :
    replaceFrom find new first (a ++ b) = a ++ replaceFrom find new (charBefore first a) b := by
  simp [replaceFrom, pieces_skip nowhere, List.flatMap_map]

end Search

end WasmPackaging.Text
