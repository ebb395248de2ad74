import Mathlib.Data.Nat.Init
import WasmPackaging.Text.Utf8

/-!
Texts and their bytes. A text is read back from the bytes that it is written as (`decode_encode`), so texts
with the same bytes are the same (`encode_inj`), and the bytes that are read as a text are those that it is
written as (`encode_of_decode`).
-/

namespace WasmPackaging.Text

/-- The bytes that were gathered before a place are gathered with those behind it. -/
theorem gathered_eq (bytes : ByteArray) {i : Nat} (within : i ≤ bytes.size) :
    ByteArray.toList.loop bytes i (bytes.data.toList.take i).reverse = bytes.data.toList := by
  induction within using Nat.decreasingInduction with
  | self =>
    rw [ByteArray.toList.loop, if_neg (Nat.lt_irrefl _), List.reverse_reverse]
    exact List.take_length
  | of_succ i inside ih =>
    have next : (bytes.data.toList.take (i + 1)).reverse = bytes.get! i :: (bytes.data.toList.take i).reverse := by
      have byte : bytes.get! i = bytes.data.toList[i] := by simp [ByteArray.get!, inside]
      rw [byte, List.take_succ_eq_append_getElem (by simpa using inside), List.reverse_append, List.reverse_singleton,
        List.singleton_append]
    rw [ByteArray.toList.loop, if_pos inside, ← next, ih]

theorem encode_eq (s : String) : encode s = s.toList.flatMap String.utf8EncodeChar := by
  have bytes : encode s = s.toByteArray.data.toList := gathered_eq _ (Nat.zero_le _)
  have listed : s.toByteArray = s.toList.utf8Encode := by
    rw [← String.toByteArray_ofList, String.ofList_toList]
  rw [bytes, listed, List.utf8Encode, List.data_toByteArray]

namespace Utf8

theorem isTail_of_toNat {b : UInt8} (low : 0x80 ≤ b.toNat) (high : b.toNat ≤ 0xBF) : isTail b = true := by
  simp only [isTail, Bool.and_eq_true, decide_eq_true_eq, UInt8.le_iff_toNat_le]
  exact ⟨low, high⟩

theorem secondOk_of_toNat {a b : UInt8} (low : 0x80 ≤ b.toNat) (high : b.toNat ≤ 0xBF)
    (shorter : a.toNat = 0xE0 → 0xA0 ≤ b.toNat) (surrogate : a.toNat = 0xED → b.toNat < 0xA0)
    (shorter' : a.toNat = 0xF0 → 0x90 ≤ b.toNat) (beyond : a.toNat = 0xF4 → b.toNat < 0x90) : secondOk a b = true := by
  unfold secondOk
  simp only [Bool.and_eq_true, Bool.or_eq_true, bne_iff_ne, ne_eq, decide_eq_true_eq, ← UInt8.toNat_inj,
    UInt8.le_iff_toNat_le, UInt8.lt_iff_toNat_lt, isTail_of_toNat low high, true_and]
  exact ⟨⟨⟨Decidable.imp_iff_not_or.1 shorter, Decidable.imp_iff_not_or.1 surrogate⟩, Decidable.imp_iff_not_or.1 shorter'⟩,
    Decidable.imp_iff_not_or.1 beyond⟩

theorem toNat_ofNat {n : Nat} (small : n < 256) : (UInt8.ofNat n).toNat = n := Nat.mod_eq_of_lt small

/-- A byte behind the first holds six bits of a number. -/
theorem toNat_tail (n : Nat) : (UInt8.ofNat (n % 64 + 128)).toNat = n % 64 + 128 := toNat_ofNat (by omega)

theorem tailBits_tail (n : Nat) : tailBits (UInt8.ofNat (n % 64 + 128)) = n % 64 := by
  rw [tailBits, toNat_tail]
  omega

theorem isTail_tail (n : Nat) : isTail (UInt8.ofNat (n % 64 + 128)) = true :=
  isTail_of_toNat (by rw [toNat_tail]; omega) (by rw [toNat_tail]; omega)

theorem step_one {v : Nat} (high : v ≤ 0x7F) (rest : Bytes) :
    step (UInt8.ofNat v) rest = .char (Char.ofNat v) 0 := by
  have first := toNat_ofNat (show v < 256 by omega)
  rw [step, if_pos (by rw [UInt8.lt_iff_toNat_lt, first]; exact Nat.lt_succ_of_le high), first]

theorem step_two {v : Nat} (low : 0x7F < v) (high : v ≤ 0x7FF) (rest : Bytes) :
    step (UInt8.ofNat (v / 64 % 32 + 192)) (UInt8.ofNat (v % 64 + 128) :: rest) = .char (Char.ofNat v) 1 := by
  have first : (UInt8.ofNat (v / 64 % 32 + 192)).toNat = v / 64 % 32 + 192 := toNat_ofNat (by omega)
  have whole : (v / 64 % 32 + 192) % 32 * 64 + v % 64 = v := by omega
  have second : secondOk (UInt8.ofNat (v / 64 % 32 + 192)) (UInt8.ofNat (v % 64 + 128)) = true := by
    apply secondOk_of_toNat <;> rw [toNat_tail] <;> (try rw [first]) <;> omega
  unfold step
  simp only [UInt8.lt_iff_toNat_lt, first]
  rw [if_neg, if_neg, if_pos]
  · rw [longer, if_pos second, tailBits_tail, whole, tails]
  all_goals simp only [UInt8.reduceToNat]; omega

theorem step_three {v : Nat} (low : 0x7FF < v) (high : v ≤ 0xFFFF) (valid : v < 0xD800 ∨ 0xDFFF < v) (rest : Bytes) :
    step (UInt8.ofNat (v / 4096 % 16 + 224)) (UInt8.ofNat (v / 64 % 64 + 128) :: UInt8.ofNat (v % 64 + 128) :: rest) =
      .char (Char.ofNat v) 2 := by
  have first : (UInt8.ofNat (v / 4096 % 16 + 224)).toNat = v / 4096 % 16 + 224 := toNat_ofNat (by omega)
  have whole : ((v / 4096 % 16 + 224) % 16 * 64 + v / 64 % 64) * 64 + v % 64 = v := by omega
  have second : secondOk (UInt8.ofNat (v / 4096 % 16 + 224)) (UInt8.ofNat (v / 64 % 64 + 128)) = true := by
    apply secondOk_of_toNat <;> rw [toNat_tail] <;> (try rw [first]) <;> omega
  unfold step
  simp only [UInt8.lt_iff_toNat_lt, first]
  rw [if_neg, if_neg, if_neg, if_pos]
  · rw [longer, if_pos second, tailBits_tail, tails, if_pos (isTail_tail v), tailBits_tail, whole, tails]
  all_goals simp only [UInt8.reduceToNat]; omega

theorem step_four {v : Nat} (low : 0xFFFF < v) (high : v < 0x110000) (rest : Bytes) :
    step (UInt8.ofNat (v / 262144 % 8 + 240))
        (UInt8.ofNat (v / 4096 % 64 + 128) :: UInt8.ofNat (v / 64 % 64 + 128) :: UInt8.ofNat (v % 64 + 128) :: rest) =
      .char (Char.ofNat v) 3 := by
  have first : (UInt8.ofNat (v / 262144 % 8 + 240)).toNat = v / 262144 % 8 + 240 := toNat_ofNat (by omega)
  have whole : (((v / 262144 % 8 + 240) % 8 * 64 + v / 4096 % 64) * 64 + v / 64 % 64) * 64 + v % 64 = v := by omega
  have second : secondOk (UInt8.ofNat (v / 262144 % 8 + 240)) (UInt8.ofNat (v / 4096 % 64 + 128)) = true := by
    apply secondOk_of_toNat <;> rw [toNat_tail] <;> (try rw [first]) <;> omega
  unfold step
  simp only [UInt8.lt_iff_toNat_lt, first]
  rw [if_neg, if_neg, if_neg, if_neg, if_pos]
  · rw [longer, if_pos second, tailBits_tail, tails, if_pos (isTail_tail _), tailBits_tail, tails, if_pos (isTail_tail v),
      tailBits_tail, whole, tails]
  all_goals simp only [UInt8.reduceToNat]; omega

/-- The bytes of a character are read as that character, whatever follows. -/
theorem exists_step_utf8EncodeChar (c : Char) : ∃ first tail, String.utf8EncodeChar c = first :: tail ∧
    ∀ rest, step first (tail ++ rest) = .char c tail.length := by
  have valid : c.val.toNat < 0xD800 ∨ 0xDFFF < c.val.toNat ∧ c.val.toNat < 0x110000 := c.valid
  have back : Char.ofNat c.val.toNat = c := c.ofNat_toNat
  unfold String.utf8EncodeChar
  generalize c.val.toNat = v at valid back
  subst back
  simp only
  split
  · next one => exact ⟨_, _, rfl, step_one one⟩
  · next more =>
    split
    · next two => exact ⟨_, _, rfl, step_two (by omega) two⟩
    · next more =>
      split
      · next three => exact ⟨_, _, rfl, step_three (by omega) three (by omega)⟩
      · next more => exact ⟨_, _, rfl, step_four (by omega) (by omega)⟩

/-- The steps of the bytes of some characters are those characters. -/
theorem charsOf_steps (chars : List Char) (offset : Nat) :
    charsOf (steps offset (chars.flatMap String.utf8EncodeChar)) = .ok chars := by
  induction chars generalizing offset with
  | nil => rw [List.flatMap_nil, steps, charsOf]
  | cons c chars ih =>
    obtain ⟨first, tail, bytes, read⟩ := exists_step_utf8EncodeChar c
    have onward : (tail ++ chars.flatMap String.utf8EncodeChar).drop tail.length = chars.flatMap String.utf8EncodeChar :=
      List.drop_left
    rw [List.flatMap_cons, bytes, List.cons_append, steps]
    simp only [read, Step.more, onward]
    rw [charsOf, ih]
    rfl

/-! ## From bytes to characters and back -/

/-- A second byte that may stand behind a first one is in the range for that. -/
theorem toNat_of_secondOk {a b : UInt8} (ok : secondOk a b = true) :
    (0x80 ≤ b.toNat ∧ b.toNat ≤ 0xBF) ∧ (a.toNat = 0xE0 → 0xA0 ≤ b.toNat) ∧ (a.toNat = 0xED → b.toNat < 0xA0) ∧
      (a.toNat = 0xF0 → 0x90 ≤ b.toNat) ∧ (a.toNat = 0xF4 → b.toNat < 0x90) := by
  unfold secondOk isTail at ok
  simp only [Bool.and_eq_true, Bool.or_eq_true, bne_iff_ne, ne_eq, decide_eq_true_eq, ← UInt8.toNat_inj,
    UInt8.le_iff_toNat_le, UInt8.lt_iff_toNat_lt, UInt8.reduceToNat] at ok
  omega

theorem toNat_of_isTail {b : UInt8} (tail : isTail b = true) : 0x80 ≤ b.toNat ∧ b.toNat ≤ 0xBF := by
  simpa [isTail, UInt8.le_iff_toNat_le] using tail

theorem ofNat_eq {n : Nat} {b : UInt8} (same : n = b.toNat) : UInt8.ofNat n = b := same ▸ UInt8.ofNat_toNat

/-- Tails that are read as a character stand at the front of the bytes. -/
theorem tails_eq_char {value taken missing more : Nat} {rest : Bytes} {c : Char}
    (read : tails value taken missing rest = .char c more) :
    ∃ front, front <+: rest ∧ front.length = missing ∧ more = taken + missing ∧ (∀ b ∈ front, isTail b = true) ∧
      c = Char.ofNat (front.foldl (fun value b => value * 64 + tailBits b) value) := by
  induction missing generalizing value taken rest with
  | zero =>
    obtain ⟨rfl, rfl⟩ := Step.char.inj read
    exact ⟨[], List.nil_prefix, rfl, rfl, by simp, rfl⟩
  | succ missing ih =>
    cases rest with
    | nil => cases read
    | cons b rest =>
      rw [tails] at read
      split at read
      · next tail =>
        obtain ⟨front, before, long, same, all, whole⟩ := ih read
        refine ⟨b :: front, List.cons_prefix_cons.2 ⟨rfl, before⟩, by simp [long], by omega, ?_, whole⟩
        exact List.forall_mem_cons.2 ⟨tail, all⟩
      · cases read

theorem longer_eq_char {a : UInt8} {bits missing more : Nat} {rest : Bytes} {c : Char}
    (read : longer a bits (missing + 1) rest = .char c more) :
    ∃ b front, b :: front <+: rest ∧ front.length = missing ∧ more = missing + 1 ∧ secondOk a b = true ∧
      (∀ b ∈ front, isTail b = true) ∧
      c = Char.ofNat (front.foldl (fun value b => value * 64 + tailBits b) (bits * 64 + tailBits b)) := by
  cases rest with
  | nil => cases read
  | cons b rest =>
    rw [longer] at read
    split at read
    · next ok =>
      obtain ⟨front, before, long, same, all, whole⟩ := tails_eq_char read
      exact ⟨b, front, List.cons_prefix_cons.2 ⟨rfl, before⟩, long, by omega, ok, all, whole⟩
    · cases read

/-- The bytes of a character that is given by its number. -/
theorem utf8EncodeChar_ofNat {v : Nat} (valid : v < 0xD800 ∨ 0xDFFF < v ∧ v < 0x110000) :
    String.utf8EncodeChar (Char.ofNat v) =
      if v ≤ 0x7F then [UInt8.ofNat v]
      else if v ≤ 0x7FF then [UInt8.ofNat (v / 64 % 32 + 192), UInt8.ofNat (v % 64 + 128)]
      else if v ≤ 0xFFFF then
        [UInt8.ofNat (v / 4096 % 16 + 224), UInt8.ofNat (v / 64 % 64 + 128), UInt8.ofNat (v % 64 + 128)]
      else
        [UInt8.ofNat (v / 262144 % 8 + 240), UInt8.ofNat (v / 4096 % 64 + 128), UInt8.ofNat (v / 64 % 64 + 128),
          UInt8.ofNat (v % 64 + 128)] := by
  have char : Char.ofNat v = Char.ofNatAux v valid := dif_pos valid
  rw [char]
  rfl

/-- The bytes that a step reads as a character are those of the character. -/
theorem exists_of_step_eq_char {a : UInt8} {rest : Bytes} {c : Char} {more : Nat} (read : step a rest = .char c more) :
    ∃ tail, String.utf8EncodeChar c = a :: tail ∧ tail.length = more ∧ tail <+: rest := by
  unfold step at read
  simp only [UInt8.lt_iff_toNat_lt, UInt8.reduceToNat] at read
  split at read
  · next one =>
    obtain ⟨rfl, rfl⟩ := Step.char.inj read
    refine ⟨[], ?_, rfl, List.nil_prefix⟩
    rw [utf8EncodeChar_ofNat (.inl (by omega)), if_pos (by omega), UInt8.ofNat_toNat]
  split at read
  · cases read
  split at read
  · next two =>
    obtain ⟨b, front, before, long, rfl, ok, -, whole⟩ := longer_eq_char read
    obtain rfl := List.eq_nil_of_length_eq_zero long
    obtain ⟨second, -⟩ := toNat_of_secondOk ok
    have value : c = Char.ofNat (a.toNat % 32 * 64 + b.toNat % 64) := whole
    refine ⟨[b], ?_, rfl, before⟩
    rw [value, utf8EncodeChar_ofNat (.inl (by omega)), if_neg (by omega), if_pos (by omega), ofNat_eq (b := a) (by omega),
      ofNat_eq (b := b) (by omega)]
  split at read
  · next three =>
    obtain ⟨b, front, before, long, rfl, ok, all, whole⟩ := longer_eq_char read
    obtain ⟨d, rfl⟩ := List.length_eq_one_iff.1 long
    obtain ⟨second, shorter, surrogate, -⟩ := toNat_of_secondOk ok
    have third := toNat_of_isTail (all d List.mem_cons_self)
    have value : c = Char.ofNat ((a.toNat % 16 * 64 + b.toNat % 64) * 64 + d.toNat % 64) := whole
    refine ⟨[b, d], ?_, rfl, before⟩
    rw [value, utf8EncodeChar_ofNat (by omega), if_neg (by omega), if_neg (by omega), if_pos (by omega),
      ofNat_eq (b := a) (by omega), ofNat_eq (b := b) (by omega), ofNat_eq (b := d) (by omega)]
  split at read
  · next four =>
    obtain ⟨b, front, before, long, rfl, ok, all, whole⟩ := longer_eq_char read
    obtain ⟨d, e, rfl⟩ : ∃ d e, front = [d, e] := by
      obtain ⟨d, behind, rfl⟩ := List.exists_cons_of_length_eq_add_one long
      obtain ⟨e, rfl⟩ := List.length_eq_one_iff.1 (Nat.succ.inj long)
      exact ⟨d, e, rfl⟩
    obtain ⟨second, -, -, shorter, beyond⟩ := toNat_of_secondOk ok
    have third := toNat_of_isTail (all d List.mem_cons_self)
    have fourth := toNat_of_isTail (all e (List.mem_cons_of_mem _ List.mem_cons_self))
    have value : c = Char.ofNat (((a.toNat % 8 * 64 + b.toNat % 64) * 64 + d.toNat % 64) * 64 + e.toNat % 64) := whole
    refine ⟨[b, d, e], ?_, rfl, before⟩
    rw [value, utf8EncodeChar_ofNat (by omega), if_neg (by omega), if_neg (by omega), if_neg (by omega),
      ofNat_eq (b := a) (by omega), ofNat_eq (b := b) (by omega), ofNat_eq (b := d) (by omega), ofNat_eq (b := e) (by omega)]
  · cases read

/-- Bytes that are read as characters are those of the characters. -/
theorem flatMap_of_charsOf {offset : Nat} {bytes : Bytes} {chars : List Char} (read : charsOf (steps offset bytes) = .ok chars) :
    chars.flatMap String.utf8EncodeChar = bytes := by
  induction offset, bytes using steps.induct generalizing chars with
  | case1 =>
    rw [steps] at read
    obtain rfl := Except.ok.inj read
    rfl
  | case2 offset a rest s =>
    rename_i ih
    rw [steps] at read
    cases known : step a rest with
    | bad fault more =>
      simp only [known, charsOf] at read
      cases read
    | char c more =>
      obtain ⟨tail, bytes, long, before⟩ := exists_of_step_eq_char known
      simp only [s, known, Step.more, charsOf] at read ih
      cases later : charsOf (steps (offset + more + 1) (rest.drop more)) with
      | error e =>
        rw [later] at read
        cases read
      | ok others =>
        rw [later] at read
        obtain rfl := Except.ok.inj read
        obtain ⟨behind, rfl⟩ := before
        rw [List.flatMap_cons, ih later, bytes, ← long, List.drop_left, List.cons_append]

end Utf8

/-- A byte of ASCII stands for a character on its own, and in no other character. -/
theorem mem_encode_iff {b : UInt8} (ascii : b.toNat < 0x80) {s : String} : b ∈ encode s ↔ Char.ofNat b.toNat ∈ s.toList := by
  have one (c : Char) : b ∈ String.utf8EncodeChar c ↔ Char.ofNat b.toNat = c := by
    have whole : Char.ofNat b.toNat = c ↔ c.val.toNat = b.toNat := by
      constructor
      · rintro rfl
        rw [Char.ofNat, dif_pos (.inl (by omega))]
        rfl
      · intro same
        rw [← same]
        exact c.ofNat_toNat
    have other (n : Nat) (high : 128 ≤ n) (fits : n < 256) : b ≠ UInt8.ofNat n := by
      rintro rfl
      rw [Utf8.toNat_ofNat fits] at ascii
      omega
    rw [whole]
    unfold String.utf8EncodeChar
    generalize c.val.toNat = v
    simp only
    split
    · next small => rw [List.mem_singleton, ← UInt8.toNat_inj, Utf8.toNat_ofNat (by omega), eq_comm]
    · next large =>
      refine iff_of_false ?_ (by omega)
      split
      · simp only [List.mem_cons, List.not_mem_nil, or_false, not_or]
        exact ⟨other _ (by omega) (by omega), other _ (by omega) (by omega)⟩
      split
      · simp only [List.mem_cons, List.not_mem_nil, or_false, not_or]
        exact ⟨other _ (by omega) (by omega), other _ (by omega) (by omega), other _ (by omega) (by omega)⟩
      · simp only [List.mem_cons, List.not_mem_nil, or_false, not_or]
        exact ⟨other _ (by omega) (by omega), other _ (by omega) (by omega), other _ (by omega) (by omega),
          other _ (by omega) (by omega)⟩
  rw [encode_eq, List.mem_flatMap]
  simp [one]

/-- A text is read back from its bytes. -/
theorem decode_encode (s : String) : decode (encode s) = .ok s.toList := by
  rw [decode, encode_eq]
  exact Utf8.charsOf_steps s.toList 0

/-- Texts with the same bytes are the same. -/
theorem encode_inj {a b : String} : encode a = encode b ↔ a = b := by
  refine ⟨fun same => ?_, fun same => same ▸ rfl⟩
  have read : Except.ok a.toList = decode (encode b) := same ▸ (decode_encode a).symm
  rw [decode_encode] at read
  exact String.toList_inj.1 (Except.ok.inj read)

/-- Bytes that are read as a text are those of the text. -/
theorem encode_of_decode {bytes : Bytes} {text : List Char} (read : decode bytes = .ok text) : encode (String.ofList text) = bytes := by
  rw [encode_eq, String.toList_ofList]
  exact Utf8.flatMap_of_charsOf read

/-- A text keeps its line ends exactly if it holds no carriage return. -/
theorem plainNewlines_eq_self_iff {s : List Char} : plainNewlines s = s ↔ '\r' ∉ s :=
  ⟨fun same => same ▸ not_mem_plainNewlines s, plainNewlines_eq_self⟩

/-- A text without carriage returns stays, whatever is behind it. -/
theorem plainNewlines_append {front : List Char} (plain : '\r' ∉ front) (rest : List Char) :
    plainNewlines (front ++ rest) = front ++ plainNewlines rest := by
  induction front with
  | nil => rfl
  | cons c front ih =>
    rw [List.mem_cons, not_or] at plain
    have other : c ≠ '\r' := Ne.symm plain.1
    have onward : plainNewlines (c :: (front ++ rest)) = c :: plainNewlines (front ++ rest) := by
      simp [plainNewlines, other]
    rw [List.cons_append, onward, ih plain.2, List.cons_append]

end WasmPackaging.Text
