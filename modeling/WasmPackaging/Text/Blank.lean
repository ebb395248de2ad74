/-!
Blank characters, line breaks and the trims and cuts that rest on them. A text is a list of
characters.
-/

namespace WasmPackaging.Text

/-- Whether a character's code point lies in one of the inclusive ranges. -/
def inRanges (ranges : List (Nat × Nat)) (c : Char) : Bool :=
  ranges.any fun range => range.1 ≤ c.toNat && c.toNat ≤ range.2

/-- Unicode white space, together with the four information separators. -/
def blankRanges : List (Nat × Nat) :=
  [(0x09, 0x0D), (0x1C, 0x20), (0x85, 0x85), (0xA0, 0xA0), (0x1680, 0x1680), (0x2000, 0x200A),
   (0x2028, 0x2029), (0x202F, 0x202F), (0x205F, 0x205F), (0x3000, 0x3000)]

/-- Whether a character is blank. -/
def isBlank (c : Char) : Bool := inRanges blankRanges c

/-- The blanks that keep a statement on its line: space and tab. -/
def isIndent (c : Char) : Bool := c == ' ' || c == '\t'

/-- Whether a character ends a line of a text that is read line by line. -/
def isLineBreak (c : Char) : Bool :=
  inRanges [(0x0A, 0x0D), (0x1C, 0x1E), (0x85, 0x85), (0x2028, 0x2029)] c

/-- The text without its leading blanks. -/
def trimStart (s : List Char) : List Char := s.dropWhile isBlank

/-- The text without its trailing blanks. -/
def trimEnd (s : List Char) : List Char := (s.reverse.dropWhile isBlank).reverse

/-- The text without blanks at either end. -/
def trim (s : List Char) : List Char := trimEnd (trimStart s)

/-- The text up to its first line break. -/
def firstLine (s : List Char) : List Char := s.takeWhile fun c => !isLineBreak c

/-- A text without a line end at its end. -/
def withoutLineEnd (s : List Char) : List Char := if s.getLast? == some '\n' then s.dropLast else s

/-- The stretches between the characters that a test picks out; at least one, possibly empty. -/
def splitWhere (test : Char → Bool) : List Char → List (List Char)
  | [] => [[]]
  | c :: rest =>
    if test c then [] :: splitWhere test rest
    else match splitWhere test rest with
      | first :: others => (c :: first) :: others
      | [] => [[c]]

/-- The stretches between the occurrences of a character. -/
def splitAt (mark : Char) (s : List Char) : List (List Char) := splitWhere (· == mark) s

/-- The maximal stretches without blanks. -/
def words (s : List Char) : List (List Char) := (splitWhere isBlank s).filter (· ≠ [])

/-- Texts written one after another with a separator between neighbours. -/
def joinWith (separator : List Char) : List (List Char) → List Char
  | [] => []
  | [s] => s
  | s :: rest => s ++ separator ++ joinWith separator rest

/-- Strings written one after another with a comma and a space between neighbours. -/
def commaList (items : List String) : String := ", ".intercalate items

theorem splitWhere_ne_nil (test : Char → Bool) (s : List Char) : splitWhere test s ≠ [] := by
  cases s with
  | nil => simp [splitWhere]
  | cons c rest => simp only [splitWhere]; split <;> (try split) <;> simp

/-- No stretch holds a character that the text was cut at. -/
theorem test_eq_false_of_mem_splitWhere {test : Char → Bool} {s part : List Char}
    (h : part ∈ splitWhere test s) : ∀ c ∈ part, test c = false := by
  induction s generalizing part with
  | nil => simp [splitWhere] at h; simp [h]
  | cons c rest ih =>
    simp only [splitWhere] at h
    split at h
    · rcases List.mem_cons.1 h with rfl | h
      · simp
      · exact ih h
    · rename_i hc
      split at h
      · rename_i first others hs
        rcases List.mem_cons.1 h with rfl | h
        · intro d hd
          rcases List.mem_cons.1 hd with rfl | hd
          · simpa using hc
          · exact ih (hs ▸ List.mem_cons_self) d hd
        · exact ih (hs ▸ List.mem_cons_of_mem _ h)
      · rename_i hs
        exact absurd hs (splitWhere_ne_nil test rest)

end WasmPackaging.Text
