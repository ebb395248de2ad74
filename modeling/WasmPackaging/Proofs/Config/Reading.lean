import WasmPackaging.Config.Loading
import WasmPackaging.Proofs.Config.Violations

/-!
The reading of settings. Each declared setting has its own place in the settings, so that giving one of them leaves the others as
they are (`Apart`). Hence the settings that are read from a document carry it: they have, at every place, what the document has
there, and elsewhere the default (`carries_assign`). A mapping whose keys are texts is taken just if it has the shape of the
settings; otherwise every wrong place is reported, once and in order. A root that is given along with a settings file counts as if
the file named it: in place of the root that it names, if it names one (`read_exact`).
-/

namespace WasmPackaging

open Document

/-- What a value has at the end of some keys that lead inwards. -/
def Document.Value.at? : List String → Value → Option Value
  | [], value => some value
  | key :: rest, value => (value.member? key).bind (at? rest)

namespace Config

namespace Shape

mutual

/-- The single settings in a shape, with the keys that lead to them. -/
def leaves : Shape → List (List String × Shape)
  | .group _ members => memberLeaves members
  | shape => [([], shape)]

/-- The single settings among those that are declared. -/
def memberLeaves : List (String × Shape) → List (List String × Shape)
  | [] => []
  | (name, shape) :: rest => shape.leaves.map (fun leaf => (name :: leaf.1, leaf.2)) ++ memberLeaves rest

end

/-- What a single setting is shown as when a value of its shape is given: the texts that the value holds. -/
inductive Shows : Shape → Value → Value → Prop
  | text {value : Value} {s : String} (reads : value.Reads s) : Shows .text value (.text s)
  | null : Shows .optionalText .null .null
  | optionalText {value : Value} {s : String} (reads : value.Reads s) : Shows .optionalText value (.text s)
  | path (s : String) : Shows .path (.text s) (.text (Path.ofString s).toString)
  | texts {items : List Value} {texts : List String} (reads : List.Forall₂ Value.Reads items texts) :
      Shows .texts (.list items) (.list (texts.map .text))
  | textTable {entries : List (Value × Value)} {table : List (String × String)}
      (reads : List.Forall₂ (fun entry pair => entry.1.Reads pair.1 ∧ entry.2.Reads pair.2) entries table) :
      Shows .textTable (.mapping entries) (.mapping (table.map fun pair => (.text pair.1, .text pair.2)))

/-- A value in full carries a given one: each single setting is shown as it is given, or it is the default where nothing is given. -/
def Carries (shape : Shape) (default given full : Value) : Prop :=
  ∀ leaf ∈ shape.leaves, match given.at? leaf.1 with
    | some value => ∃ shown, full.at? leaf.1 = some shown ∧ leaf.2.Shows value shown
    | none => full.at? leaf.1 = default.at? leaf.1

theorem carries_of_shows {shape : Shape} (single : shape.leaves = [([], shape)]) {default given full : Value}
    (shown : shape.Shows given full) : shape.Carries default given full := by
  intro leaf mem
  rw [single, List.mem_singleton] at mem
  subst mem
  exact ⟨full, rfl, shown⟩

theorem memberLeaves_eq (members : List (String × Shape)) : memberLeaves members =
    members.flatMap fun member => member.2.leaves.map fun leaf => (member.1 :: leaf.1, leaf.2) := by
  induction members with
  | nil => rfl
  | cons member members ih => rw [memberLeaves, ih, List.flatMap_cons]

end Shape

namespace Field

variable {σ α β : Type}

/-! ## Settings with places of their own -/

/-- Giving a setting does not change a view of the settings. -/
def Keeps (field : Field σ) (view : σ → β) : Prop := ∀ value s, view (field.set value s) = view s

/-- Each of some settings, given one after the other, keeps the others and those that come before all of them. -/
inductive Apart : List (Field σ) → List (Field σ) → Prop
  | nil (before : List (Field σ)) : Apart before []
  | cons {before after : List (Field σ)} {field : Field σ} (keeps : field.Keeps fun s => (before ++ after).map (·.get s))
      (rest : Apart (before ++ [field]) after) : Apart before (field :: after)

/-- The settings after one more was given, if it is. -/
def take (field : Field σ) (value : Value) (s : σ) : σ :=
  match value.member? field.name with
  | some member => field.set member s
  | none => s

theorem assign_cons (field : Field σ) (fields : List (Field σ)) (value : Value) (s : σ) :
    assign (field :: fields) value s = assign fields value (field.take value s) := rfl

theorem Keeps.take {field : Field σ} {view : σ → β} (keeps : field.Keeps view) (value : Value) (s : σ) :
    view (field.take value s) = view s := by
  unfold Field.take
  split
  · exact keeps _ s
  · rfl

theorem Apart.assign_keeps {before fields : List (Field σ)} (apart : Apart before fields) {field : Field σ} (mem : field ∈ before)
    (value : Value) (s : σ) : field.get (assign fields value s) = field.get s := by
  induction apart generalizing s with
  | nil => rfl
  | cons keeps _ ih =>
    rw [assign_cons, ih (List.mem_append_left _ mem)]
    exact List.map_inj_left.1 (keeps.take value s) field (List.mem_append_left _ mem)

/-- A setting is what was given for it, or what it was before. -/
theorem Apart.get_assign {before fields : List (Field σ)} (apart : Apart before fields) {field : Field σ} (mem : field ∈ fields)
    (value : Value) (s : σ) : ∃ s', field.get s' = field.get s ∧ field.get (assign fields value s) = field.get (field.take value s') := by
  induction apart generalizing s with
  | nil => cases mem
  | @cons before after first keeps rest ih =>
    rw [assign_cons]
    rcases List.mem_cons.1 mem with rfl | mem
    · exact ⟨s, rfl, rest.assign_keeps (by simp) value _⟩
    · obtain ⟨s', same, given⟩ := ih mem (first.take value s)
      exact ⟨s', same.trans (List.map_inj_left.1 (keeps.take value s) field (List.mem_append_right _ mem)), given⟩

/-! ## The kinds of settings -/

section kinds

variable {name : String} {get : σ → α} {set : α → σ → σ} {view : σ → β}

/-- A setting shows what is given for it, whatever the other settings are. -/
structure Lawful (default : σ) (field : Field σ) : Prop where
  distinct : field.shape.Distinct
  carries : ∀ value s, field.shape.Fits value → value.TextKeyed →
    field.shape.Carries (field.get default) value (field.get (field.set value s))

theorem keeps_text {get : σ → String} {set : String → σ → σ} (keeps : ∀ a s, view (set a s) = view s) :
    (Field.text name get set).Keeps view := by
  intro value s
  change view (((value.asText?).map (set · s)).getD s) = view s
  cases value.asText? with
  | none => rfl
  | some a => exact keeps a s

theorem set_optionalText {get : σ → Option String} {set : Option String → σ → σ} {value : Value} (given : value ≠ .null) (s : σ) :
    (Field.optionalText name get set).set value s = ((value.asText?).map fun text => set (some text) s).getD s := by
  cases value with
  | null => exact absurd rfl given
  | _ => rfl

theorem keeps_optionalText {get : σ → Option String} {set : Option String → σ → σ} (keeps : ∀ a s, view (set a s) = view s) :
    (Field.optionalText name get set).Keeps view := by
  intro value s
  by_cases given : value = .null
  · exact given ▸ keeps none s
  · rw [set_optionalText given]
    cases value.asText? with
    | none => rfl
    | some a => exact keeps _ s

theorem keeps_path {get : σ → Path} {set : Path → σ → σ} (keeps : ∀ a s, view (set a s) = view s) :
    (Field.path name get set).Keeps view := by
  intro value s
  cases value with
  | text a => exact keeps _ s
  | _ => rfl

theorem keeps_texts {get : σ → List String} {set : List String → σ → σ} (keeps : ∀ a s, view (set a s) = view s) :
    (Field.texts name get set).Keeps view := by
  intro value s
  cases value with
  | list items => exact keeps _ s
  | _ => rfl

theorem keeps_textTable {get : σ → List (String × String)} {set : List (String × String) → σ → σ}
    (keeps : ∀ a s, view (set a s) = view s) : (Field.textTable name get set).Keeps view := by
  intro value s
  cases value with
  | mapping entries => exact keeps _ s
  | _ => rfl

theorem keeps_group {τ : Type} {group : Section} {fields : List (Field τ)} {default : τ} {get : σ → τ} {set : τ → σ → σ}
    (keeps : ∀ a s, view (set a s) = view s) : (Field.group name group fields default get set).Keeps view :=
  fun _ s => keeps _ s

theorem lawful_text {default : σ} {get : σ → String} {set : String → σ → σ} (own : ∀ a s, get (set a s) = a) :
    (Field.text name get set).Lawful default where
  distinct := .single (by simp [Field.text])
  carries := by
    rintro value s ⟨reads⟩ -
    refine Shape.carries_of_shows rfl ?_
    change Shape.text.Shows value (.text (get (((value.asText?).map (set · s)).getD s)))
    rw [Value.asText?_eq_some_iff.2 reads, Option.map_some, Option.getD_some, own]
    exact .text reads

theorem lawful_optionalText {default : σ} {get : σ → Option String} {set : Option String → σ → σ} (own : ∀ a s, get (set a s) = a) :
    (Field.optionalText name get set).Lawful default where
  distinct := .single (by simp [Field.optionalText])
  carries := by
    rintro value s fits -
    refine Shape.carries_of_shows rfl ?_
    cases fits with
    | null =>
      change Shape.optionalText.Shows .null (((get (set none s)).map Value.text).getD .null)
      rw [own]
      exact .null
    | @optionalText value a reads =>
      have given : value ≠ .null := by rintro rfl; cases reads
      change Shape.optionalText.Shows value (((get ((Field.optionalText name get set).set value s)).map Value.text).getD .null)
      rw [set_optionalText given, Value.asText?_eq_some_iff.2 reads, Option.map_some, Option.getD_some, own]
      exact .optionalText reads

theorem lawful_path {default : σ} {get : σ → Path} {set : Path → σ → σ} (own : ∀ a s, get (set a s) = a) :
    (Field.path name get set).Lawful default where
  distinct := .single (by simp [Field.path])
  carries := by
    rintro value s fits -
    refine Shape.carries_of_shows rfl ?_
    cases fits with
    | path a =>
      change Shape.path.Shows (.text a) (.text (get (set (.ofString a) s)).toString)
      rw [own]
      exact .path a

theorem reads_filterMap {items : List Value} (each : ∀ item ∈ items, ∃ s, item.Reads s) :
    List.Forall₂ Value.Reads items (items.filterMap Value.asText?) := by
  induction items with
  | nil => exact .nil
  | cons item items ih =>
    obtain ⟨⟨s, reads⟩, each⟩ := List.forall_mem_cons.1 each
    rw [List.filterMap_cons_some (Value.asText?_eq_some_iff.2 reads)]
    exact .cons reads (ih each)

theorem lawful_texts {default : σ} {get : σ → List String} {set : List String → σ → σ} (own : ∀ a s, get (set a s) = a) :
    (Field.texts name get set).Lawful default where
  distinct := .single (by simp [Field.texts])
  carries := by
    rintro value s fits -
    refine Shape.carries_of_shows rfl ?_
    cases fits with
    | @texts items each =>
      change Shape.texts.Shows (.list items) (.list ((get (set (items.filterMap Value.asText?) s)).map Value.text))
      rw [own]
      exact .texts (reads_filterMap each)

theorem addEntry_fresh {table : List (String × String)} {key s : String} {value : Value} (fresh : key ∉ table.map Prod.fst)
    (reads : value.Reads s) : addEntry table (.text key, value) = table ++ [(key, s)] := by
  have unknown : table.lookup key = none := by
    rw [List.lookup_eq_none_iff]
    intro pair mem
    simp only [bne_iff_ne]
    rintro rfl
    exact fresh (List.mem_map_of_mem mem)
  simp [addEntry, Value.asText?_eq_some_iff.2 reads, Value.asText?_eq_some_iff.2 (.text key), unknown]

/-- Entries with new keys are added as they come. -/
theorem foldl_addEntry {entries : List (Value × Value)} (table : List (String × String))
    (keys : ∀ entry ∈ entries, ∃ key, entry.1 = .text key) (distinct : (table.map Prod.fst ++ textKeys entries).Nodup)
    (each : ∀ entry ∈ entries, ∃ s, entry.2.Reads s) :
    ∃ added, List.Forall₂ (fun entry pair => entry.1.Reads pair.1 ∧ entry.2.Reads pair.2) entries added ∧
      entries.foldl addEntry table = table ++ added := by
  induction entries generalizing table with
  | nil => exact ⟨[], .nil, by simp⟩
  | cons entry entries ih =>
    obtain ⟨first, given⟩ := entry
    obtain ⟨⟨key, rfl⟩, others⟩ := List.forall_mem_cons.1 keys
    obtain ⟨⟨s, reads⟩, each⟩ := List.forall_mem_cons.1 each
    have here : table.map Prod.fst ++ textKeys ((.text key, given) :: entries) =
        (table ++ [(key, s)]).map Prod.fst ++ textKeys entries := by
      simp [textKeys, Value.text?]
    have fresh : key ∉ table.map Prod.fst := fun mem =>
      (List.nodup_append.1 distinct).2.2 key mem key (by simp [textKeys, Value.text?]) rfl
    obtain ⟨added, all, folds⟩ := ih _ others (here ▸ distinct) each
    refine ⟨(key, s) :: added, .cons ⟨.text key, reads⟩ all, ?_⟩
    rw [List.foldl_cons, addEntry_fresh fresh reads, folds, List.append_assoc, List.singleton_append]

theorem lawful_textTable {default : σ} {get : σ → List (String × String)} {set : List (String × String) → σ → σ}
    (own : ∀ a s, get (set a s) = a) : (Field.textTable name get set).Lawful default where
  distinct := .single (by simp [Field.textTable])
  carries := by
    intro value s fits keyed
    refine Shape.carries_of_shows rfl ?_
    cases fits with
    | @textTable entries each =>
      obtain ⟨table, reads, folds⟩ := foldl_addEntry [] keyed.parts.1 keyed.parts.2.1 fun entry mem => (each entry mem).2
      change Shape.textTable.Shows (.mapping entries)
        (.mapping ((get (set (entries.foldl addEntry []) s)).map fun pair => (.text pair.1, .text pair.2)))
      rw [own, folds, List.nil_append]
      exact .textTable reads

end kinds

/-! ## Groups of settings -/

/-- The settings of a group have names of their own and places of their own, and each shows what is given for it. -/
structure Independent (default : σ) (fields : List (Field σ)) : Prop where
  names : (fields.map Field.name).Nodup
  apart : Apart [] fields
  lawful : ∀ field ∈ fields, field.Lawful default

variable {default : σ} {fields : List (Field σ)} {group : Section} {value : Value}

theorem Independent.distinct (independent : Independent default fields) : (shapeOf group fields).Distinct := by
  refine .group ?_ ?_
  · simpa [Function.comp_def] using independent.names
  · simp only [List.forall_mem_map]
    exact fun field mem => (independent.lawful field mem).distinct

theorem member?_document {field : Field σ} (names : (fields.map Field.name).Nodup) (mem : field ∈ fields) (s : σ) :
    (document fields s).member? field.name = some (field.get s) := by
  refine (Value.member?_eq_some_iff ?_).2 (List.mem_map.2 ⟨field, mem, rfl⟩)
  simpa [textKeys, List.filterMap_map, Function.comp_def, Value.text?] using names

/-- Settings that are read from a value of their shape carry it. -/
theorem Independent.carries_assign (independent : Independent default fields) (fits : (shapeOf group fields).Fits value)
    (keyed : value.TextKeyed) :
    (shapeOf group fields).Carries (document fields default) value (document fields (assign fields value default)) := by
  intro leaf mem
  simp only [shapeOf, Shape.leaves, Shape.memberLeaves_eq, List.mem_flatMap, List.mem_map] at mem
  obtain ⟨-, ⟨field, known, rfl⟩, inner, mem, rfl⟩ := mem
  obtain ⟨s, same, given⟩ := independent.apart.get_assign known value default
  simp only [Value.at?, member?_document independent.names known, Option.bind_some]
  cases fits with
  | @group _ _ entries _ each =>
    cases found : (Value.mapping entries).member? field.name with
    | none =>
      rw [given, Field.take, found]
      exact congrArg _ same
    | some member =>
      rw [given, Field.take, found]
      exact (independent.lawful field known).carries member s
        (each _ (List.mem_map_of_mem known) _ (keyed.member?_eq_some_iff.1 found)) (keyed.member found) inner mem

theorem lawful_group {τ : Type} {name : String} {get : σ → τ} {set : τ → σ → σ} {inner : List (Field τ)} {start : τ}
    (independent : Independent start inner) (starts : get default = start) (own : ∀ a s, get (set a s) = a) :
    (Field.group name group inner start get set).Lawful default where
  distinct := independent.distinct
  carries := by
    intro value s fits keyed
    change (shapeOf group inner).Carries (document inner (get default)) value
      (document inner (get (set (assign inner value start) s)))
    rw [starts, own]
    exact independent.carries_assign fits keyed

end Field

/-! ## The settings of a run -/

open Config.Field

theorem WorkerHooks.independent : Independent ({} : WorkerHooks) WorkerHooks.fields where
  names := by decide
  apart := .cons (keeps_text fun _ _ => rfl) <| .cons (keeps_texts fun _ _ => rfl) <| .nil _
  lawful := by
    simp only [WorkerHooks.fields, List.forall_mem_cons]
    exact ⟨lawful_text fun _ _ => rfl, lawful_texts fun _ _ => rfl, by simp⟩

theorem EdgeSettings.independent : Independent ({} : EdgeSettings) EdgeSettings.fields where
  names := by decide
  apart :=
    .cons (keeps_path fun _ _ => rfl) <| .cons (keeps_path fun _ _ => rfl) <| .cons (keeps_text fun _ _ => rfl) <|
    .cons (keeps_text fun _ _ => rfl) <| .cons (keeps_text fun _ _ => rfl) <| .cons (keeps_text fun _ _ => rfl) <|
    .cons (keeps_text fun _ _ => rfl) <| .cons (keeps_group fun _ _ => rfl) <| .cons (keeps_texts fun _ _ => rfl) <|
    .cons (keeps_textTable fun _ _ => rfl) <| .cons (keeps_texts fun _ _ => rfl) <| .cons (keeps_text fun _ _ => rfl) <|
    .cons (keeps_text fun _ _ => rfl) <| .cons (keeps_texts fun _ _ => rfl) <| .cons (keeps_texts fun _ _ => rfl) <|
    .cons (keeps_texts fun _ _ => rfl) <| .cons (keeps_text fun _ _ => rfl) <| .cons (keeps_text fun _ _ => rfl) <| .nil _
  lawful := by
    simp only [EdgeSettings.fields, List.forall_mem_cons]
    exact ⟨lawful_path fun _ _ => rfl, lawful_path fun _ _ => rfl, lawful_text fun _ _ => rfl, lawful_text fun _ _ => rfl,
      lawful_text fun _ _ => rfl, lawful_text fun _ _ => rfl, lawful_text fun _ _ => rfl,
      lawful_group WorkerHooks.independent rfl fun _ _ => rfl, lawful_texts fun _ _ => rfl, lawful_textTable fun _ _ => rfl,
      lawful_texts fun _ _ => rfl, lawful_text fun _ _ => rfl, lawful_text fun _ _ => rfl, lawful_texts fun _ _ => rfl,
      lawful_texts fun _ _ => rfl, lawful_texts fun _ _ => rfl, lawful_text fun _ _ => rfl, lawful_text fun _ _ => rfl, by simp⟩

theorem ServerSettings.independent : Independent ({} : ServerSettings) ServerSettings.fields where
  names := by decide
  apart :=
    .cons (keeps_path fun _ _ => rfl) <| .cons (keeps_path fun _ _ => rfl) <| .cons (keeps_text fun _ _ => rfl) <|
    .cons (keeps_texts fun _ _ => rfl) <| .cons (keeps_texts fun _ _ => rfl) <| .cons (keeps_text fun _ _ => rfl) <|
    .cons (keeps_texts fun _ _ => rfl) <| .cons (keeps_texts fun _ _ => rfl) <| .cons (keeps_texts fun _ _ => rfl) <|
    .cons (keeps_optionalText fun _ _ => rfl) <| .nil _
  lawful := by
    simp only [ServerSettings.fields, List.forall_mem_cons]
    exact ⟨lawful_path fun _ _ => rfl, lawful_path fun _ _ => rfl, lawful_text fun _ _ => rfl, lawful_texts fun _ _ => rfl,
      lawful_texts fun _ _ => rfl, lawful_text fun _ _ => rfl, lawful_texts fun _ _ => rfl, lawful_texts fun _ _ => rfl,
      lawful_texts fun _ _ => rfl, lawful_optionalText fun _ _ => rfl, by simp⟩

theorem Settings.independent : Independent ({} : Settings) Settings.fields where
  names := by decide
  apart :=
    .cons (keeps_path fun _ _ => rfl) <| .cons (keeps_path fun _ _ => rfl) <| .cons (keeps_texts fun _ _ => rfl) <|
    .cons (keeps_text fun _ _ => rfl) <| .cons (keeps_group fun _ _ => rfl) <| .cons (keeps_group fun _ _ => rfl) <| .nil _
  lawful := by
    simp only [Settings.fields, List.forall_mem_cons]
    exact ⟨lawful_path fun _ _ => rfl, lawful_path fun _ _ => rfl, lawful_texts fun _ _ => rfl, lawful_text fun _ _ => rfl,
      lawful_group EdgeSettings.independent rfl fun _ _ => rfl, lawful_group ServerSettings.independent rfl fun _ _ => rfl, by simp⟩

/-! ## Documents that give the same settings -/

variable {value other : Value} {entries : List (Value × Value)}

theorem memberViolations_congr (same : ∀ name, value.member? name = other.member? name) (members : List (String × Shape)) :
    memberViolations value members = memberViolations other members := by
  simp only [memberViolations_eq, same]

theorem Field.assign_congr {σ : Type} (same : ∀ name, value.member? name = other.member? name) (fields : List (Field σ)) (s : σ) :
    assign fields value s = assign fields other s := by
  simp only [assign, same]

/-- Only what a mapping has under each text, and which other keys it has, counts for the settings that it gives. -/
theorem Settings.read_congr {others : List (Value × Value)}
    (same : ∀ name, (Value.mapping entries).member? name = (Value.mapping others).member? name)
    (keys : entries.filterMap (fun entry => keyViolation? (fields.map Field.name) entry.1) =
      others.filterMap (fun entry => keyViolation? (fields.map Field.name) entry.1)) :
    read (.mapping entries) = read (.mapping others) := by
  have declared : (fields.map fun field => (field.name, field.shape)).map Prod.fst = fields.map Field.name := by
    rw [List.map_map]; rfl
  have complaints : shape.violations (.mapping entries) = shape.violations (.mapping others) := by
    rw [shape, Field.shapeOf, Shape.violations, Shape.violations, declared, memberViolations_congr same, keys]
  rw [read, read, complaints, ofDocument, ofDocument, Field.assign_congr same]

/-! ## A root for the project -/

theorem member?_moved (key name : String) :
    (Value.mapping ((entries.filter fun entry => entry.1.text? != some key) ++ [(.text key, value)])).member? name =
      if name = key then some value else (Value.mapping entries).member? name := by
  induction entries with
  | nil =>
    by_cases same : name = key
    · simp [Value.member?, Value.text?, same]
    · simp [Value.member?, Value.text?, same, Ne.symm same]
  | cons entry entries ih =>
    by_cases removed : entry.1.text? = some key
    · by_cases same : name = key
      · simpa [Value.member?, removed, same] using ih
      · simpa [Value.member?, removed, same, Ne.symm same] using ih
    · by_cases named : entry.1.text? = some name
      · have other : name ≠ key := fun same => removed (same ▸ named)
        simp [Value.member?, named, other]
      · simpa [Value.member?, removed, named] using ih

/-- No complaint is about a declared key. -/
theorem keyViolation?_declared {declared : List String} {key : String} (known : key ∈ declared) (named : value.text? = some key) :
    keyViolation? declared value = none := by
  rw [Value.text?_eq_some_iff.1 named]
  simp [keyViolation?, known]

theorem filterMap_keyViolation?_setEntry {declared : List String} {key : String} (known : key ∈ declared) :
    (setEntry key value entries).filterMap (fun entry => keyViolation? declared entry.1) =
      entries.filterMap fun entry => keyViolation? declared entry.1 := by
  induction entries with
  | nil => simp [setEntry, keyViolation?, known]
  | cons entry entries ih =>
    by_cases named : entry.1.text? = some key
    · simp [setEntry, named, List.filterMap_cons]
    · simp [setEntry, named, List.filterMap_cons, ih]

theorem filterMap_keyViolation?_filter {declared : List String} {key : String} (known : key ∈ declared) :
    (entries.filter fun entry => entry.1.text? != some key).filterMap (fun entry => keyViolation? declared entry.1) =
      entries.filterMap fun entry => keyViolation? declared entry.1 := by
  induction entries with
  | nil => rfl
  | cons entry entries ih =>
    by_cases named : entry.1.text? = some key
    · simp [named, keyViolation?_declared known named, ih]
    · simp [named, List.filterMap_cons, ih]

/-- For the settings it makes no difference where in a mapping a declared key stands. -/
theorem Settings.read_withText {key : String} (known : key ∈ fields.map Field.name) (text : String) (document : Value) :
    read (withText key text document) = read (document.withEntry key (.text text)) := by
  cases document with
  | mapping entries =>
    change read (.mapping ((entries.filter fun entry => entry.1.text? != some key) ++ [(.text key, .text text)])) =
      read (.mapping (setEntry key (.text text) entries))
    refine read_congr (fun name => ?_) ?_
    · rw [member?_moved, Value.member?_setEntry]
    · have added : keyViolation? (fields.map Field.name) (.text key) = none := keyViolation?_declared known rfl
      rw [filterMap_keyViolation?_setEntry known, List.filterMap_append, filterMap_keyViolation?_filter known]
      simp [added]
  | _ => rfl

/-- A root that is given counts as if the settings file named it. -/
theorem load_rooted (file : Option Path) (root : Path) (nesting : Nat) : load file (some root) nesting = (do
    let document ← match file with
      | none => pure (.mapping [])
      | some file => readDocument file nesting
    match Settings.read (document.withEntry "project_root" (.text root.toString)) with
    | .ok settings => return settings
    | .error violations => throw (.settings (.invalid violations))) := by
  have known : "project_root" ∈ Settings.fields.map Field.name := by decide
  simp only [← Settings.read_withText known]
  cases file <;> rfl

/-! ## What is read -/

theorem Settings.read_error_iff {violations : List Violation} : read value = .error violations ↔
    violations ≠ [] ∧ shape.violations value = violations := by
  unfold read
  split
  · next clean =>
    simp only [reduceCtorEq, false_iff, clean]
    exact fun both => both.1 both.2.symm
  · next found =>
    simp only [Except.error.injEq]
    exact ⟨fun same => same ▸ ⟨found, rfl⟩, And.right⟩

/-- A mapping whose keys are texts, at every level, is taken just if it has the shape of the settings; those that are read carry
it, and have the defaults elsewhere. If it is not taken, all places that are wrong are reported, each of them once, in order. A
root that is given counts as if the settings file named it, whatever it names. -/
theorem read_exact (keyed : (Value.mapping entries).TextKeyed) :
    ((∃ settings, Settings.read (.mapping entries) = .ok settings) ↔ Settings.shape.Fits (.mapping entries)) ∧
    (∀ settings, Settings.read (.mapping entries) = .ok settings →
      Settings.shape.Carries (Settings.document {}) (.mapping entries) settings.document) ∧
    (∀ violations, Settings.read (.mapping entries) = .error violations →
      (∀ v, v ∈ violations ↔ Settings.shape.Wrong (.mapping entries) v) ∧ (violations.map Violation.place).Nodup ∧
        violations.Pairwise fun v w => Settings.shape.Before (.mapping entries) v.place w.place) ∧
    ∀ (file : Option Path) (root : Path) (nesting : Nat), load file (some root) nesting = (do
      let document ← match file with
        | none => pure (.mapping [])
        | some file => readDocument file nesting
      match Settings.read (document.withEntry "project_root" (.text root.toString)) with
      | .ok settings => return settings
      | .error violations => throw (.settings (.invalid violations))) := by
  have silent := violations_eq_nil_iff Settings.shape keyed
  refine ⟨?accepted, ?carried, ?reported, load_rooted⟩
  case accepted =>
    simp only [Settings.read_eq_ok_iff, silent]
    exact ⟨fun ⟨_, fits, _⟩ => fits, fun fits => ⟨_, fits, rfl⟩⟩
  case carried =>
    intro settings accepted
    obtain ⟨clean, rfl⟩ := Settings.read_eq_ok_iff.1 accepted
    exact Settings.independent.carries_assign (silent.1 clean) keyed
  case reported =>
    intro violations refused
    obtain ⟨-, rfl⟩ := Settings.read_error_iff.1 refused
    exact ⟨fun v => mem_violations_iff Settings.shape keyed, nodup_places Settings.independent.distinct keyed,
      pairwise_violations Settings.shape keyed⟩

theorem read_exact_misspelt :
    let hooks : Value := .mapping [(.text "nmaes", .null), (.text "names", .list [.text "start", .null])]
    let entries := [(.text "target", .integer 1), (.text "edge", .mapping [(.text "worker_hooks", hooks)]), (.text "extra", .null)]
    let reported : List Violation := [⟨["target"], .notText⟩, ⟨["edge", "worker_hooks", "names", "1"], .notText⟩,
      ⟨["edge", "worker_hooks", "nmaes"], .undeclared⟩, ⟨["extra"], .undeclared⟩]
    (Value.mapping entries).TextKeyed ∧ Settings.read (.mapping entries) = .error reported ∧
      ∀ v, v ∈ reported ↔ Settings.shape.Wrong (.mapping entries) v := by
  intro hooks entries reported
  have single {value : Value} (noList : ∀ items, value ≠ .list items) (noMapping : ∀ entries, value ≠ .mapping entries) :
      value.TextKeyed := .single noList noMapping
  have names : (Value.list [.text "start", .null]).TextKeyed := .list (by simp [single])
  have keyedHooks : hooks.TextKeyed := .mapping (by simp) (by decide) (by simp [single, names])
  have keyedEdge : (Value.mapping [(.text "worker_hooks", hooks)]).TextKeyed :=
    .mapping (by simp) (by decide) (by simpa using keyedHooks)
  have keyed : (Value.mapping entries).TextKeyed := .mapping (by simp [entries]) (by decide) (by simp [entries, single, keyedEdge])
  have refused : Settings.read (.mapping entries) = .error reported := rfl
  exact ⟨keyed, refused, ((read_exact keyed).2.2.1 reported refused).1⟩

/-- A setting that is declared to be a text takes the bytes of one, which are no text. -/
theorem read_bytes :
    let entries := [(Value.text "target", Value.bytes (Text.encode "es2022"))]
    (["target"], Shape.text) ∈ Settings.shape.leaves ∧ (Value.mapping entries).TextKeyed ∧
      (∀ s, Value.bytes (Text.encode "es2022") ≠ .text s) ∧ Settings.read (.mapping entries) = .ok { target := "es2022" } :=
  ⟨.tail _ (.tail _ (.tail _ (.head _))), .mapping (by simp) (by decide) (by simp [Value.TextKeyed.single]), by simp,
    by decide +kernel⟩

end Config

end WasmPackaging
