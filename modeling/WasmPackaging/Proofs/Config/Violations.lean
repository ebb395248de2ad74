import Mathlib.Data.List.Basic
import WasmPackaging.Config.Settings
import WasmPackaging.Proofs.Document

/-!
What is wrong with a value that should have a shape. `Shape.Fits` says which values have it, and `Shape.Wrong` which places
within the others are wrong and in which way, both without the search for complaints. The search finds just the wrong places
(`mem_violations_iff`), each of them once (`nodup_places`), and in order: at every level the declared settings as they are
declared, then the other keys as they are given (`pairwise_violations`).
-/

namespace WasmPackaging.Config

open Document

/-! ## Shapes and wrong places -/

/-- A value is no text, and what is to be said of it. -/
inductive NotText : Value → Complaint → Prop
  | undecodable {bytes : Text.Bytes} (other : ∀ s, bytes ≠ Text.encode s) : NotText (.bytes bytes) .undecodable
  | other {value : Value} (noText : ∀ s, value ≠ .text s) (noBytes : ∀ bytes, value ≠ .bytes bytes) : NotText value .notText

namespace Shape

/-- A value has a shape. -/
inductive Fits : Shape → Value → Prop
  | text {value : Value} {s : String} (reads : value.Reads s) : Fits .text value
  | null : Fits .optionalText .null
  | optionalText {value : Value} {s : String} (reads : value.Reads s) : Fits .optionalText value
  | path (s : String) : Fits .path (.text s)
  | texts {items : List Value} (each : ∀ item ∈ items, ∃ s, item.Reads s) : Fits .texts (.list items)
  | textTable {entries : List (Value × Value)} (each : ∀ entry ∈ entries, (∃ key, entry.1.Reads key) ∧ ∃ s, entry.2.Reads s) :
      Fits .textTable (.mapping entries)
  | group {name : Section} {members : List (String × Shape)} {entries : List (Value × Value)}
      (declared : ∀ entry ∈ entries, ∃ key ∈ members.map Prod.fst, entry.1 = .text key)
      (each : ∀ member ∈ members, ∀ value, (.text member.1, value) ∈ entries → Fits member.2 value) :
      Fits (.group name members) (.mapping entries)

/-- A place in a value is wrong for a shape, and in which way. The place itself is at fault where it has another kind of value
than the shape asks for; within a group, so is every key that is not declared. -/
inductive Wrong : Shape → Value → Violation → Prop
  | text {value : Value} {complaint : Complaint} (other : NotText value complaint) : Wrong .text value ⟨[], complaint⟩
  | optionalText {value : Value} {complaint : Complaint} (given : value ≠ .null) (other : NotText value complaint) :
      Wrong .optionalText value ⟨[], complaint⟩
  | path {value : Value} (other : ∀ s, value ≠ .text s) : Wrong .path value ⟨[], .notPath⟩
  | notList {value : Value} (other : ∀ items, value ≠ .list items) : Wrong .texts value ⟨[], .notList⟩
  | item {items : List Value} {n : Nat} {item : Value} {complaint : Complaint} (there : items[n]? = some item)
      (other : NotText item complaint) : Wrong .texts (.list items) ⟨[toString n], complaint⟩
  | notMapping {value : Value} (other : ∀ entries, value ≠ .mapping entries) : Wrong .textTable value ⟨[], .notMapping⟩
  | entry {entries : List (Value × Value)} {key : String} {value : Value} {complaint : Complaint}
      (there : (.text key, value) ∈ entries) (other : NotText value complaint) :
      Wrong .textTable (.mapping entries) ⟨[key], complaint⟩
  | notSection {name : Section} {members : List (String × Shape)} {value : Value} (other : ∀ entries, value ≠ .mapping entries) :
      Wrong (.group name members) value ⟨[], .notSection name⟩
  | member {name : Section} {members : List (String × Shape)} {entries : List (Value × Value)} {key : String} {shape : Shape}
      {value : Value} {place : List String} {complaint : Complaint} (declared : (key, shape) ∈ members)
      (there : (.text key, value) ∈ entries) (wrong : Wrong shape value ⟨place, complaint⟩) :
      Wrong (.group name members) (.mapping entries) ⟨key :: place, complaint⟩
  | undeclared {name : Section} {members : List (String × Shape)} {entries : List (Value × Value)} {key : String} {value : Value}
      (there : (.text key, value) ∈ entries) (other : key ∉ members.map Prod.fst) :
      Wrong (.group name members) (.mapping entries) ⟨[key], .undeclared⟩

/-- The keys of a level in the order in which they are spoken of: those that are declared, then the others that are given. -/
def keyOrder (members : List (String × Shape)) (entries : List (Value × Value)) : List String :=
  members.map Prod.fst ++ (textKeys entries).filter (· ∉ members.map Prod.fst)

/-- A place in a value comes before another. -/
inductive Before : Shape → Value → List String → List String → Prop
  | items {items : List Value} {m n : Nat} (less : m < n) : Before .texts (.list items) [toString m] [toString n]
  | entries {entries : List (Value × Value)} {k l : String} (order : [k, l].Sublist (textKeys entries)) :
      Before .textTable (.mapping entries) [k] [l]
  | keys {name : Section} {members : List (String × Shape)} {entries : List (Value × Value)} {k l : String} {p q : List String}
      (order : [k, l].Sublist (keyOrder members entries)) : Before (.group name members) (.mapping entries) (k :: p) (l :: q)
  | within {name : Section} {members : List (String × Shape)} {entries : List (Value × Value)} {key : String} {shape : Shape}
      {value : Value} {p q : List String} (declared : (key, shape) ∈ members) (there : (.text key, value) ∈ entries)
      (before : Before shape value p q) : Before (.group name members) (.mapping entries) (key :: p) (key :: q)

/-- No group in a shape declares a name twice. -/
inductive Distinct : Shape → Prop
  | single {shape : Shape} (noGroup : ∀ name members, shape ≠ .group name members) : Distinct shape
  | group {name : Section} {members : List (String × Shape)} (names : (members.map Prod.fst).Nodup)
      (each : ∀ member ∈ members, member.2.Distinct) : Distinct (.group name members)

@[elab_as_elim]
theorem induction {P : Shape → Prop} (text : P .text) (optionalText : P .optionalText) (path : P .path) (texts : P .texts)
    (textTable : P .textTable) (group : ∀ name members, (∀ member ∈ members, P member.2) → P (.group name members)) :
    ∀ shape, P shape :=
  @Shape.rec P (fun members => ∀ member ∈ members, P member.2) (fun member => P member.2) text optionalText path texts textTable
    group (by simp) (fun _ _ first rest => List.forall_mem_cons.2 ⟨first, rest⟩) (fun _ _ shape => shape)

end Shape

/-! ## The search for complaints -/

variable {value : Value} {complaint : Complaint} {v : Violation}

theorem textViolations_of_reads {s : String} (reads : value.Reads s) : textViolations value = [] := by
  unfold textViolations
  rw [Value.asText?_eq_some_iff.2 reads]

theorem NotText.asText? (other : NotText value complaint) : value.asText? = none := by
  rw [← Option.not_isSome_iff_eq_none, Option.isSome_iff_exists]
  rintro ⟨s, read⟩
  cases other with
  | undecodable other =>
    cases Value.asText?_eq_some_iff.1 read with
    | bytes => exact other s rfl
  | other noText noBytes =>
    cases Value.asText?_eq_some_iff.1 read with
    | text => exact noText s rfl
    | bytes => exact noBytes _ rfl

theorem textViolations_of_notText (other : NotText value complaint) : textViolations value = [⟨[], complaint⟩] := by
  unfold textViolations
  rw [other.asText?]
  cases other with
  | undecodable => rfl
  | other _ noBytes =>
    cases value with
    | bytes bytes => exact absurd rfl (noBytes bytes)
    | _ => rfl

theorem reads_or_notText (value : Value) : (∃ s, value.Reads s) ∨ ∃ complaint, NotText value complaint := by
  rcases read : value.asText? with _ | s
  · have other (s : String) : ¬ value.Reads s := fun reads => by
      rw [Value.asText?_eq_some_iff.2 reads] at read
      cases read
    refine .inr ?_
    cases value with
    | text s => exact absurd (.text s) (other s)
    | bytes bytes => exact ⟨_, .undecodable fun s same => other s (same ▸ .bytes s)⟩
    | _ => exact ⟨_, .other (by simp) (by simp)⟩
  · exact .inl ⟨s, Value.asText?_eq_some_iff.1 read⟩

/-- There is at most one complaint about a value that must be a text, and it is about the value itself. -/
theorem mem_textViolations_iff : v ∈ textViolations value ↔ ∃ complaint, NotText value complaint ∧ v = ⟨[], complaint⟩ := by
  constructor
  · intro mem
    obtain ⟨s, reads⟩ | ⟨complaint, other⟩ := reads_or_notText value
    · rw [textViolations_of_reads reads] at mem
      cases mem
    · rw [textViolations_of_notText other, List.mem_singleton] at mem
      exact ⟨complaint, other, mem⟩
  · rintro ⟨complaint, other, rfl⟩
    rw [textViolations_of_notText other]
    exact List.mem_singleton_self _

theorem memberViolations_eq (value : Value) (members : List (String × Shape)) :
    memberViolations value members = members.flatMap fun member =>
      ((value.member? member.1).map fun given => (member.2.violations given).map (.within member.1)).getD [] := by
  induction members with
  | nil => rfl
  | cons member members ih =>
    rw [memberViolations, ih, List.flatMap_cons]
    cases value.member? member.1 <;> rfl

/-- The complaints within the declared settings of a group are those about what it has under their names. -/
theorem mem_memberViolations_iff {entries : List (Value × Value)} {members : List (String × Shape)}
    (keyed : (Value.mapping entries).TextKeyed) : v ∈ memberViolations (.mapping entries) members ↔
      ∃ key shape given w, (key, shape) ∈ members ∧ (.text key, given) ∈ entries ∧ w ∈ shape.violations given ∧ v = w.within key := by
  rw [memberViolations_eq, List.mem_flatMap]
  constructor
  · rintro ⟨⟨key, shape⟩, declared, mem⟩
    cases found : (Value.mapping entries).member? key with
    | none => simp [found] at mem
    | some given =>
      rw [found, Option.map_some, Option.getD_some, List.mem_map] at mem
      obtain ⟨w, mem, rfl⟩ := mem
      exact ⟨key, shape, given, w, declared, keyed.member?_eq_some_iff.1 found, mem, rfl⟩
  · rintro ⟨key, shape, given, w, declared, there, mem, rfl⟩
    refine ⟨(key, shape), declared, ?_⟩
    rw [keyed.member?_eq_some_iff.2 there]
    exact List.mem_map_of_mem mem

/-- The complaints about the keys of a group are those about the texts that are not declared. -/
theorem mem_keyViolations_iff {entries : List (Value × Value)} {declared : List String}
    (keys : ∀ entry ∈ entries, ∃ key, entry.1 = .text key) :
    v ∈ entries.filterMap (fun entry => keyViolation? declared entry.1) ↔
      ∃ key given, (.text key, given) ∈ entries ∧ key ∉ declared ∧ v = ⟨[key], .undeclared⟩ := by
  rw [List.mem_filterMap]
  constructor
  · rintro ⟨⟨_, given⟩, mem, complains⟩
    obtain ⟨key, rfl⟩ := keys _ mem
    simp only [keyViolation?, List.contains_eq_mem, decide_eq_true_eq, Option.ite_none_left_eq_some, Option.some.injEq] at complains
    exact ⟨key, given, mem, complains.1, complains.2.symm⟩
  · rintro ⟨key, given, mem, other, rfl⟩
    exact ⟨_, mem, by simp [keyViolation?, other]⟩

theorem mem_optionalViolations_iff : v ∈ Shape.optionalText.violations value ↔ Shape.optionalText.Wrong value v := by
  by_cases given : value = .null
  · subst given
    rw [Shape.violations]
    constructor
    · rintro ⟨⟩
    · intro wrong
      cases wrong with
      | optionalText given => exact absurd rfl given
  · rw [Shape.violations, mem_textViolations_iff]
    · constructor
      · rintro ⟨complaint, other, rfl⟩
        exact .optionalText given other
      · intro wrong
        cases wrong with
        | optionalText _ other => exact ⟨_, other, rfl⟩
    · exact given

theorem mem_pathViolations_iff : v ∈ Shape.path.violations value ↔ Shape.path.Wrong value v := by
  cases value with
  | text s =>
    rw [Shape.violations]
    constructor
    · rintro ⟨⟩
    · intro wrong
      cases wrong with
      | path other => exact absurd rfl (other s)
  | _ =>
    rw [Shape.violations, List.mem_singleton]
    · constructor
      · rintro rfl
        exact .path (by simp)
      · rintro ⟨⟩
        rfl
    · simp

/-- The complaints about a list of texts are those about its items. -/
theorem mem_listViolations_iff : v ∈ listViolations value ↔ Shape.texts.Wrong value v := by
  cases value with
  | list items =>
    simp only [listViolations, List.mem_flatMap, List.mem_map, mem_textViolations_iff]
    constructor
    · rintro ⟨⟨item, n⟩, mem, _, ⟨complaint, other, rfl⟩, rfl⟩
      exact .item (List.mk_mem_zipIdx_iff_getElem?.1 mem) other
    · intro wrong
      cases wrong with
      | notList other => exact absurd rfl (other items)
      | item there other => exact ⟨_, List.mk_mem_zipIdx_iff_getElem?.2 there, _, ⟨_, other, rfl⟩, rfl⟩
  | _ =>
    rw [listViolations, List.mem_singleton]
    · constructor
      · rintro rfl
        exact .notList (by simp)
      · rintro ⟨⟩
        rfl
    · simp

/-- The complaints about a mapping whose keys are texts are those about its values. -/
theorem tableViolations_eq {entries : List (Value × Value)} (keys : ∀ entry ∈ entries, ∃ key, entry.1 = .text key) :
    tableViolations (.mapping entries) = entries.flatMap fun entry => (textViolations entry.2).map (.within (shownKey entry.1)) := by
  refine List.flatMap_congr fun entry mem => ?_
  obtain ⟨key, same⟩ := keys entry mem
  have silent : textViolations entry.1 = [] := by
    rw [same]
    exact textViolations_of_reads (.text key)
  simp only [silent, List.map_nil, List.nil_append]

theorem mem_tableViolations_iff (keyed : value.TextKeyed) : v ∈ tableViolations value ↔ Shape.textTable.Wrong value v := by
  cases value with
  | mapping entries =>
    simp only [tableViolations_eq keyed.parts.1, List.mem_flatMap, List.mem_map, mem_textViolations_iff]
    constructor
    · rintro ⟨⟨_, given⟩, mem, _, ⟨complaint, other, rfl⟩, rfl⟩
      obtain ⟨key, rfl⟩ := keyed.parts.1 _ mem
      exact .entry mem other
    · intro wrong
      cases wrong with
      | notMapping other => exact absurd rfl (other entries)
      | entry there other => exact ⟨_, there, _, ⟨_, other, rfl⟩, rfl⟩
  | _ =>
    rw [tableViolations, List.mem_singleton]
    · constructor
      · rintro rfl
        exact .notMapping (by simp)
      · rintro ⟨⟩
        rfl
    · simp

/-- The search finds just the wrong places. -/
theorem mem_violations_iff (shape : Shape) (keyed : value.TextKeyed) : v ∈ shape.violations value ↔ shape.Wrong value v := by
  induction shape using Shape.induction generalizing value v with
  | text =>
    rw [Shape.violations, mem_textViolations_iff]
    constructor
    · rintro ⟨complaint, other, rfl⟩
      exact .text other
    · rintro ⟨other⟩
      exact ⟨_, other, rfl⟩
  | optionalText => exact mem_optionalViolations_iff
  | path => exact mem_pathViolations_iff
  | texts =>
    rw [Shape.violations]
    exact mem_listViolations_iff
  | textTable =>
    rw [Shape.violations]
    exact mem_tableViolations_iff keyed
  | group name members ih =>
    cases value with
    | mapping entries =>
      obtain ⟨keys, -, each⟩ := keyed.parts
      rw [Shape.violations, List.mem_append, mem_memberViolations_iff keyed, mem_keyViolations_iff keys]
      constructor
      · rintro (⟨key, shape, given, w, declared, there, mem, rfl⟩ | ⟨key, given, there, other, rfl⟩)
        · exact .member declared there ((ih _ declared (each _ there)).1 mem)
        · exact .undeclared there other
      · intro wrong
        cases wrong with
        | notSection other => exact absurd rfl (other entries)
        | member declared there wrong =>
          exact .inl ⟨_, _, _, ⟨_, _⟩, declared, there, (ih _ declared (each _ there)).2 wrong, rfl⟩
        | undeclared there other => exact .inr ⟨_, _, there, other, rfl⟩
    | _ =>
      rw [Shape.violations, List.mem_singleton]
      · constructor
        · rintro rfl
          exact .notSection (by simp)
        · rintro ⟨⟩
          rfl
      · simp

/-! ## The order of the complaints -/

theorem pairwise_textViolations {R : Violation → Violation → Prop} (value : Value) : (textViolations value).Pairwise R := by
  obtain ⟨s, reads⟩ | ⟨complaint, other⟩ := reads_or_notText value
  · rw [textViolations_of_reads reads]
    exact .nil
  · rw [textViolations_of_notText other]
    exact List.pairwise_singleton ..

theorem pairwise_listViolations (items : List Value) :
    (listViolations (.list items)).Pairwise fun v w => Shape.texts.Before (.list items) v.place w.place := by
  rw [listViolations, List.pairwise_flatMap]
  constructor
  · exact fun item _ => List.pairwise_map.2 (pairwise_textViolations _)
  · have less : items.zipIdx.Pairwise fun a b => a.2 < b.2 := by
      rw [← List.pairwise_map (f := Prod.snd), List.zipIdx_map_snd]
      exact List.pairwise_lt_range' 1
    refine less.imp fun {a b} less v mem w mem' => ?_
    simp only [List.mem_map, mem_textViolations_iff] at mem mem'
    obtain ⟨_, ⟨_, -, rfl⟩, rfl⟩ := mem
    obtain ⟨_, ⟨_, -, rfl⟩, rfl⟩ := mem'
    exact .items less

theorem sublist_textKeys {entries : List (Value × Value)} {k l : String} {a b : Value × Value}
    (order : [a, b].Sublist entries) (first : a.1 = .text k) (second : b.1 = .text l) : [k, l].Sublist (textKeys entries) := by
  have keys : ([a, b].filterMap fun entry => entry.1.text?).Sublist (textKeys entries) := order.filterMap _
  simpa [Value.text?_eq_some_iff.2 first, Value.text?_eq_some_iff.2 second] using keys

theorem pairwise_tableViolations {entries : List (Value × Value)} (keys : ∀ entry ∈ entries, ∃ key, entry.1 = .text key) :
    (tableViolations (.mapping entries)).Pairwise fun v w => Shape.textTable.Before (.mapping entries) v.place w.place := by
  rw [tableViolations_eq keys, List.pairwise_flatMap]
  constructor
  · exact fun entry _ => List.pairwise_map.2 (pairwise_textViolations entry.2)
  · refine List.pairwise_iff_forall_sublist.2 fun {a b} order v mem w mem' => ?_
    obtain ⟨k, first⟩ := keys a (order.subset (by simp))
    obtain ⟨l, second⟩ := keys b (order.subset (by simp))
    simp only [List.mem_map, mem_textViolations_iff] at mem mem'
    obtain ⟨_, ⟨_, -, rfl⟩, rfl⟩ := mem
    obtain ⟨_, ⟨_, -, rfl⟩, rfl⟩ := mem'
    rw [first, second]
    exact .entries (sublist_textKeys order first second)

theorem pairwise_memberViolations {name : Section} {members : List (String × Shape)} {entries : List (Value × Value)}
    (keyed : (Value.mapping entries).TextKeyed) (each : ∀ member ∈ members, ∀ given, given.TextKeyed →
      (member.2.violations given).Pairwise fun v w => member.2.Before given v.place w.place) :
    (memberViolations (.mapping entries) members).Pairwise fun v w =>
      (Shape.group name members).Before (.mapping entries) v.place w.place := by
  rw [memberViolations_eq, List.pairwise_flatMap]
  constructor
  · intro member declared
    cases found : (Value.mapping entries).member? member.1 with
    | none => exact .nil
    | some given =>
      have there := keyed.member?_eq_some_iff.1 found
      refine List.pairwise_map.2 ((each member declared given (keyed.member found)).imp fun before => ?_)
      exact .within declared there before
  · refine List.pairwise_iff_forall_sublist.2 fun {a b} order v mem w mem' => ?_
    have within {member : String × Shape} {v : Violation} (mem : v ∈ (((Value.mapping entries).member? member.1).map
        fun given => (member.2.violations given).map (.within member.1)).getD []) : ∃ p, v.place = member.1 :: p := by
      cases found : (Value.mapping entries).member? member.1 with
      | none => simp [found] at mem
      | some given =>
        rw [found, Option.map_some, Option.getD_some, List.mem_map] at mem
        obtain ⟨w, -, rfl⟩ := mem
        exact ⟨w.place, rfl⟩
    obtain ⟨p, place⟩ := within mem
    obtain ⟨q, place'⟩ := within mem'
    rw [place, place']
    exact .keys ((order.map Prod.fst).trans (List.sublist_append_left _ _))

theorem pairwise_keyViolations {name : Section} {members : List (String × Shape)} {entries : List (Value × Value)}
    (keys : ∀ entry ∈ entries, ∃ key, entry.1 = .text key) :
    (entries.filterMap fun entry => keyViolation? (members.map Prod.fst) entry.1).Pairwise fun v w =>
      (Shape.group name members).Before (.mapping entries) v.place w.place := by
  rw [List.pairwise_filterMap]
  refine List.pairwise_iff_forall_sublist.2 fun {a b} order v complains w complains' => ?_
  obtain ⟨k, first⟩ := keys a (order.subset (by simp))
  obtain ⟨l, second⟩ := keys b (order.subset (by simp))
  rw [first] at complains
  rw [second] at complains'
  simp only [keyViolation?, List.contains_eq_mem, decide_eq_true_eq, Option.ite_none_left_eq_some, Option.some.injEq]
    at complains complains'
  obtain ⟨other, rfl⟩ := complains
  obtain ⟨other', rfl⟩ := complains'
  have undeclared := (sublist_textKeys order first second).filter (· ∉ members.map Prod.fst)
  rw [List.filter_cons_of_pos (by simpa using other), List.filter_cons_of_pos (by simpa using other')] at undeclared
  exact .keys (undeclared.trans (List.sublist_append_right _ _))

/-- The complaints stand in the order of their places. -/
theorem pairwise_violations (shape : Shape) (keyed : value.TextKeyed) :
    (shape.violations value).Pairwise fun v w => shape.Before value v.place w.place := by
  induction shape using Shape.induction generalizing value with
  | text =>
    rw [Shape.violations]
    exact pairwise_textViolations value
  | optionalText =>
    cases value with
    | null => exact .nil
    | _ =>
      rw [Shape.violations]
      · exact pairwise_textViolations _
      · simp
  | path => cases value <;> first | exact .nil | exact List.pairwise_singleton ..
  | texts =>
    rw [Shape.violations]
    cases value with
    | list items => exact pairwise_listViolations items
    | _ => exact List.pairwise_singleton ..
  | textTable =>
    rw [Shape.violations]
    cases value with
    | mapping entries => exact pairwise_tableViolations keyed.parts.1
    | _ => exact List.pairwise_singleton ..
  | group name members ih =>
    cases value with
    | mapping entries =>
      obtain ⟨keys, -, -⟩ := keyed.parts
      rw [Shape.violations, List.pairwise_append]
      refine ⟨pairwise_memberViolations keyed fun member declared given => ih member declared, pairwise_keyViolations keys, ?_⟩
      intro v mem w mem'
      obtain ⟨key, shape, given, v, declared, -, -, rfl⟩ := (mem_memberViolations_iff keyed).1 mem
      obtain ⟨key', given', there, other, rfl⟩ := (mem_keyViolations_iff keys).1 mem'
      have first : [key].Sublist (members.map Prod.fst) := List.singleton_sublist.2 (List.mem_map_of_mem declared)
      have second : [key'].Sublist ((textKeys entries).filter (· ∉ members.map Prod.fst)) :=
        List.singleton_sublist.2 (List.mem_filter.2 ⟨Value.mem_textKeys_iff.2 ⟨given', there⟩, by simpa using other⟩)
      exact .keys (first.append second)
    | _ =>
      rw [Shape.violations]
      · exact List.pairwise_singleton ..
      · simp

/-! ## Each wrong place once -/

theorem nodup_keyOrder {members : List (String × Shape)} {entries : List (Value × Value)} (names : (members.map Prod.fst).Nodup)
    (distinct : (textKeys entries).Nodup) : (Shape.keyOrder members entries).Nodup := by
  refine List.nodup_append.2 ⟨names, distinct.filter _, ?_⟩
  rintro a mem _ mem' rfl
  simpa [mem] using (List.mem_filter.1 mem').2

theorem ne_of_sublist {k l : String} {keys : List String} (order : [k, l].Sublist keys) (distinct : keys.Nodup) : k ≠ l := by
  rintro rfl
  simpa using distinct.sublist order

theorem eq_of_toString_eq {m n : Nat} (same : toString m = toString n) : m = n := by
  have read (n : Nat) : Nat.ofDigitChars 10 (toString n).toList 0 = n := by
    rw [Nat.toString_eq_repr, Nat.toList_repr, Nat.ofDigitChars_ten_toDigits]
  rw [← read m, same, read n]

/-- Where no name is declared twice and no key given twice, a place does not come before itself. -/
theorem Shape.Before.ne {shape : Shape} {p q : List String} (before : shape.Before value p q) (names : shape.Distinct)
    (keyed : value.TextKeyed) : p ≠ q := by
  induction before with
  | items less =>
    intro same
    exact Nat.ne_of_lt less (eq_of_toString_eq (List.cons.inj same).1)
  | entries order =>
    intro same
    exact ne_of_sublist order keyed.parts.2.1 (List.cons.inj same).1
  | keys order =>
    intro same
    cases names with
    | single noGroup => exact noGroup _ _ rfl
    | group names => exact ne_of_sublist order (nodup_keyOrder names keyed.parts.2.1) (List.cons.inj same).1
  | within declared there before ih =>
    intro same
    cases names with
    | single noGroup => exact noGroup _ _ rfl
    | group names each => exact ih (each _ declared) (keyed.parts.2.2 _ there) (List.cons.inj same).2

/-- No place is complained about twice. -/
theorem nodup_places {shape : Shape} (names : shape.Distinct) (keyed : value.TextKeyed) :
    ((shape.violations value).map Violation.place).Nodup :=
  List.pairwise_map.2 ((pairwise_violations shape keyed).imp fun before => before.ne names keyed)

/-! ## Values without complaints -/

theorem NotText.not_reads (other : NotText value complaint) (s : String) : ¬ value.Reads s := fun reads => by
  have silent := textViolations_of_reads reads
  rw [textViolations_of_notText other] at silent
  cases silent

/-- A value that has a shape is wrong nowhere. -/
theorem Shape.Fits.not_wrong {shape : Shape} (fits : shape.Fits value) (keyed : value.TextKeyed) : ¬ shape.Wrong value v := by
  induction fits generalizing v with
  | text reads =>
    rintro ⟨other⟩
    exact other.not_reads _ reads
  | null =>
    intro wrong
    cases wrong with
    | optionalText given => exact given rfl
  | optionalText reads =>
    intro wrong
    cases wrong with
    | optionalText _ other => exact other.not_reads _ reads
  | path s =>
    intro wrong
    cases wrong with
    | path other => exact other s rfl
  | texts each =>
    intro wrong
    cases wrong with
    | notList other => exact other _ rfl
    | item there other =>
      obtain ⟨s, reads⟩ := each _ (List.mem_of_getElem? there)
      exact other.not_reads s reads
  | textTable each =>
    intro wrong
    cases wrong with
    | notMapping other => exact other _ rfl
    | entry there other =>
      obtain ⟨-, s, reads⟩ := each _ there
      exact other.not_reads s reads
  | group declared each ih =>
    intro wrong
    cases wrong with
    | notSection other => exact other _ rfl
    | member known there wrong => exact ih _ known _ there (keyed.parts.2.2 _ there) wrong
    | undeclared there other =>
      obtain ⟨key, known, same⟩ := declared _ there
      exact other (Value.text.inj same ▸ known)

/-- A value that is wrong nowhere has the shape. -/
theorem Shape.fits_of_not_wrong (shape : Shape) (keyed : value.TextKeyed) (right : ∀ v, ¬ shape.Wrong value v) :
    shape.Fits value := by
  induction shape using Shape.induction generalizing value with
  | text =>
    obtain ⟨s, reads⟩ | ⟨complaint, other⟩ := reads_or_notText value
    · exact .text reads
    · exact absurd (.text other) (right _)
  | optionalText =>
    by_cases given : value = .null
    · exact given ▸ .null
    · obtain ⟨s, reads⟩ | ⟨complaint, other⟩ := reads_or_notText value
      · exact .optionalText reads
      · exact absurd (.optionalText given other) (right _)
  | path =>
    cases value with
    | text s => exact .path s
    | _ => exact absurd (.path (by simp)) (right _)
  | texts =>
    cases value with
    | list items =>
      refine .texts fun item mem => ?_
      obtain ⟨n, there⟩ := List.mem_iff_getElem?.1 mem
      exact (reads_or_notText item).resolve_right fun ⟨complaint, other⟩ => right _ (.item there other)
    | _ => exact absurd (.notList (by simp)) (right _)
  | textTable =>
    cases value with
    | mapping entries =>
      refine .textTable ?_
      rintro ⟨_, given⟩ there
      obtain ⟨key, rfl⟩ := keyed.parts.1 _ there
      exact ⟨⟨key, .text key⟩, (reads_or_notText given).resolve_right fun ⟨complaint, other⟩ => right _ (.entry there other)⟩
    | _ => exact absurd (.notMapping (by simp)) (right _)
  | group name members ih =>
    cases value with
    | mapping entries =>
      obtain ⟨keys, -, each⟩ := keyed.parts
      refine .group ?_ fun member declared given there => ?_
      · rintro ⟨_, given⟩ there
        obtain ⟨key, rfl⟩ := keys _ there
        by_cases declared : key ∈ members.map Prod.fst
        · exact ⟨key, declared, rfl⟩
        · exact absurd (.undeclared there declared) (right _)
      · exact ih member declared (each _ there) fun v wrong => right _ (.member declared there wrong)
    | _ => exact absurd (.notSection (by simp)) (right _)

/-- The search complains about nothing just if the value has the shape. -/
theorem violations_eq_nil_iff (shape : Shape) (keyed : value.TextKeyed) : shape.violations value = [] ↔ shape.Fits value := by
  rw [List.eq_nil_iff_forall_not_mem]
  simp only [mem_violations_iff shape keyed]
  exact ⟨shape.fits_of_not_wrong keyed, fun fits v => fits.not_wrong keyed⟩

end WasmPackaging.Config
