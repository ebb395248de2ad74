import WasmPackaging.Document.Value
import WasmPackaging.Proofs.Outcome
import WasmPackaging.Proofs.Text.Utf8

/-!
Laws of documents: what counts as a text, and what a mapping whose keys are texts holds under each of them.
-/

namespace WasmPackaging.Document

/-! ## Values with texts for keys -/

/-- The texts among the keys of some entries, in their order. -/
def textKeys (entries : List (Value × Value)) : List String := entries.filterMap fun entry => entry.1.text?

/-- A value whose mappings, at every level, have texts for keys, and none of them twice. -/
inductive Value.TextKeyed : Value → Prop
  | single {value : Value} (noList : ∀ items, value ≠ .list items) (noMapping : ∀ entries, value ≠ .mapping entries) :
      TextKeyed value
  | list {items : List Value} (each : ∀ item ∈ items, TextKeyed item) : TextKeyed (.list items)
  | mapping {entries : List (Value × Value)} (keys : ∀ entry ∈ entries, ∃ key, entry.1 = .text key)
      (distinct : (textKeys entries).Nodup) (each : ∀ entry ∈ entries, TextKeyed entry.2) : TextKeyed (.mapping entries)

/-- Some entries with a value under a text: in the place of what they have there, or after them all. -/
def setEntry (key : String) (value : Value) : List (Value × Value) → List (Value × Value)
  | [] => [(.text key, value)]
  | entry :: rest => if entry.1.text? = some key then (entry.1, value) :: rest else entry :: setEntry key value rest

/-- A mapping with a value under a text. -/
def Value.withEntry : Value → String → Value → Value
  | .mapping entries, key, value => .mapping (setEntry key value entries)
  | other, _, _ => other

/-- A value counts as a text: it is one, or it is the bytes of one. -/
inductive Value.Reads : Value → String → Prop
  | text (s : String) : Reads (.text s) s
  | bytes (s : String) : Reads (.bytes (Text.encode s)) s

namespace Value

variable {entries : List (Value × Value)} {key s : String} {value : Value}

theorem text?_eq_some_iff : value.text? = some s ↔ value = .text s := by
  cases value <;> simp [text?]

theorem asText?_eq_some_iff : value.asText? = some s ↔ value.Reads s := by
  constructor
  · intro read
    cases value with
    | text t =>
      obtain rfl := Option.some.inj read
      exact .text t
    | bytes bytes =>
      obtain ⟨chars, decoded, rfl⟩ := Option.map_eq_some_iff.1 read
      rw [← Text.encode_of_decode (eq_ok_of_toOption decoded)]
      exact .bytes _
    | _ => cases read
  · rintro (s | s)
    · rfl
    · simp [asText?, Text.decode_encode, Except.toOption]

theorem mem_textKeys_iff : key ∈ textKeys entries ↔ ∃ value, (.text key, value) ∈ entries := by
  simp only [textKeys, List.mem_filterMap, text?_eq_some_iff]
  constructor
  · rintro ⟨⟨_, value⟩, mem, rfl⟩
    exact ⟨value, mem⟩
  · rintro ⟨value, mem⟩
    exact ⟨_, mem, rfl⟩

theorem TextKeyed.parts (keyed : (Value.mapping entries).TextKeyed) :
    (∀ entry ∈ entries, ∃ key, entry.1 = .text key) ∧ (textKeys entries).Nodup ∧ ∀ entry ∈ entries, entry.2.TextKeyed := by
  cases keyed with
  | single _ noMapping => exact absurd rfl (noMapping entries)
  | mapping keys distinct each => exact ⟨keys, distinct, each⟩

/-- Under a text that is a key just once, a mapping holds the value of the entry with that key. -/
theorem member?_eq_some_iff (distinct : (textKeys entries).Nodup) :
    (Value.mapping entries).member? key = some value ↔ (.text key, value) ∈ entries := by
  constructor
  · intro found
    obtain ⟨⟨_, _⟩, located, rfl⟩ := Option.map_eq_some_iff.1 found
    have named := List.find?_some located
    obtain rfl := text?_eq_some_iff.1 (eq_of_beq named)
    exact List.mem_of_find?_eq_some located
  · intro mem
    obtain ⟨before, after, rfl⟩ := List.append_of_mem mem
    simp only [textKeys, List.filterMap_append, List.nodup_append] at distinct
    obtain ⟨-, -, apart⟩ := distinct
    refine Option.map_eq_some_iff.2 ⟨_, List.find?_eq_some_iff_append.2 ⟨by simp [text?], before, after, rfl, ?_⟩, rfl⟩
    intro entry mem
    simp only [Bool.not_eq_true', beq_eq_false_iff_ne]
    intro same
    exact apart key (List.mem_filterMap.2 ⟨entry, mem, same⟩) key (by simp [text?]) rfl

theorem TextKeyed.member?_eq_some_iff (keyed : (Value.mapping entries).TextKeyed) :
    (Value.mapping entries).member? key = some value ↔ (.text key, value) ∈ entries :=
  Value.member?_eq_some_iff keyed.parts.2.1

theorem member?_setEntry (name : String) : (Value.mapping (setEntry key value entries)).member? name =
    if name = key then some value else (Value.mapping entries).member? name := by
  induction entries with
  | nil =>
    by_cases same : name = key
    · simp [setEntry, member?, text?, same]
    · simp [setEntry, member?, text?, same, Ne.symm same]
  | cons entry entries ih =>
    by_cases here : entry.1.text? = some key
    · by_cases same : name = key
      · simp [setEntry, member?, here, same]
      · simp [setEntry, member?, here, same, Ne.symm same]
    · by_cases named : entry.1.text? = some name
      · have other : name ≠ key := fun same => here (same ▸ named)
        simp [setEntry, member?, named, other]
      · simpa [setEntry, member?, here, named] using ih

theorem TextKeyed.member (keyed : value.TextKeyed) {member : Value} (found : value.member? key = some member) :
    member.TextKeyed := by
  cases value with
  | mapping entries => exact keyed.parts.2.2 _ (keyed.member?_eq_some_iff.1 found)
  | _ => cases found

end Value

end WasmPackaging.Document
