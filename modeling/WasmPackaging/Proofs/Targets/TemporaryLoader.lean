import WasmPackaging.Config.Settings
import WasmPackaging.Proofs.FileTree.LinkFree

/-!
The name of the temporary loader. It stands in a directory that the path of the loader module passes, and never in
the place of the loader module itself (`exists_beside`), whatever the name of the module is: one without a dot, with
steps to a parent, or the path of something else altogether.
-/

namespace WasmPackaging

open Text

/-! ## Parts of texts -/

theorem subset_of_mem_splitWhere {test : Char → Bool} {s stretch : List Char} (mem : stretch ∈ splitWhere test s) : stretch ⊆ s := by
  induction s generalizing stretch with
  | nil =>
    obtain rfl := List.mem_singleton.1 mem
    exact List.nil_subset []
  | cons c s ih =>
    rw [splitWhere] at mem
    split at mem
    · obtain rfl | later := List.mem_cons.1 mem
      · exact List.nil_subset _
      · exact List.Subset.trans (ih later) (List.subset_cons_self c s)
    · split at mem
      · next first others whole =>
        rw [whole] at ih
        obtain rfl | later := List.mem_cons.1 mem
        · exact List.cons_subset_cons c (ih List.mem_cons_self)
        · exact List.Subset.trans (ih (List.mem_cons_of_mem _ later)) (List.subset_cons_self c s)
      · next none => exact absurd none (splitWhere_ne_nil test s)

/-- What is added to a text changes no stretch of it but the last. -/
theorem exists_splitWhere_append (test : Char → Bool) (s : List Char) :
    ∃ outer last, (∀ c ∈ last, test c = false) ∧ ∀ more, splitWhere test (s ++ more) = outer ++ splitWhere test (last ++ more) := by
  induction s with
  | nil => exact ⟨[], [], by simp, fun more => rfl⟩
  | cons c s ih =>
    obtain ⟨outer, last, plain, added⟩ := ih
    by_cases mark : test c = true
    · refine ⟨[] :: outer, last, plain, fun more => ?_⟩
      rw [List.cons_append, splitWhere, if_pos mark, added, List.cons_append]
    · cases outer with
      | nil =>
        refine ⟨[], c :: last, List.forall_mem_cons.2 ⟨by simpa using mark, plain⟩, fun more => ?_⟩
        rw [List.cons_append, splitWhere, added, List.cons_append, List.nil_append, List.nil_append, splitWhere]
      | cons first outer =>
        refine ⟨(c :: first) :: outer, last, plain, fun more => ?_⟩
        rw [List.cons_append, splitWhere, if_neg mark, added, List.cons_append, List.cons_append]

theorem splitWhere_append_of_plain {test : Char → Bool} {s more first : List Char} {others : List (List Char)}
    (plain : ∀ c ∈ s, test c = false) (split : splitWhere test more = first :: others) :
    splitWhere test (s ++ more) = (s ++ first) :: others := by
  induction s with
  | nil => exact split
  | cons c s ih =>
    obtain ⟨here, later⟩ := List.forall_mem_cons.1 plain
    rw [List.cons_append, splitWhere, if_neg (by simp [here]), ih later, List.cons_append]

/-- A dot ends the slashes that a text starts with. -/
theorem Anchor.ofText_append_dot (s rest : List Char) : Anchor.ofText (s ++ '.' :: rest) = Anchor.ofText s := by
  match s with
  | [] => rfl
  | c :: s =>
    by_cases first : c = '/'
    · subst first
      match s with
      | [] => rfl
      | d :: s =>
        by_cases second : d = '/'
        · subst second
          match s with
          | [] => rfl
          | e :: s =>
            by_cases third : e = '/'
            · subst third
              rfl
            · simp [Anchor.ofText, third]
        · simp [Anchor.ofText, second]
    · simp [Anchor.ofText, first]

theorem Path.join_under (p q : Path) (names : List String) : p.join (q.under names) = (p.join q).under names := by
  have same : (q.under names).isAbsolute = q.isAbsolute := rfl
  unfold Path.join
  rw [same]
  split <;> simp [Path.under]

namespace Config

/-! ## The name of the temporary loader -/

/-- A text is cut at its last dot. -/
theorem beforeLastDot_cases (s : String) :
    (∃ tail, '.' ∉ tail ∧ s.toList = (beforeLastDot s).toList ++ '.' :: tail) ∨ beforeLastDot s = s ∧ '.' ∉ s.toList := by
  have whole : s.toList.reverse.takeWhile (· != '.') ++ s.toList.reverse.dropWhile (· != '.') = s.toList.reverse :=
    List.takeWhile_append_dropWhile
  have plain : '.' ∉ s.toList.reverse.takeWhile (· != '.') := by
    intro dot
    simpa using List.all_eq_true.1 List.all_takeWhile '.' dot
  unfold beforeLastDot
  simp only
  rcases cut : s.toList.reverse.dropWhile (· != '.') with _ | ⟨c, before⟩
  · right
    rw [cut, List.append_nil] at whole
    refine ⟨if_pos rfl, fun dot => plain ?_⟩
    rw [whole]
    exact List.mem_reverse.2 dot
  · left
    have stop := List.head?_dropWhile_not (· != '.') s.toList.reverse
    rw [cut] at stop whole
    obtain rfl : c = '.' := by simpa using stop
    refine ⟨(s.toList.reverse.takeWhile (· != '.')).reverse, by simpa using plain, ?_⟩
    have turned := congrArg List.reverse whole
    simp only [List.reverse_append, List.reverse_cons, List.reverse_reverse, List.append_assoc, List.singleton_append] at turned
    rw [if_neg (List.cons_ne_nil _ _), String.toList_ofList, List.drop_one, List.tail_cons]
    exact turned.symm

/-- The texts of the loader module and of the temporary loader have their first parts in common, and part ways in the
last part of the latter. -/
theorem exists_slashed_beside (s : String) :
    ∃ (outer : List String) (name first : String) (more : List String),
      slashed s = outer ++ first :: more ∧ slashed (beforeLastDot s ++ ".tmp.js") = outer ++ [name] ∧
      IsEntryName name ∧ '.' ∈ name.toList ∧ first ≠ name ∧ ∀ part ∈ more, '.' ∉ part.toList := by
  obtain ⟨outer, last, plain, added⟩ := exists_splitWhere_append (· == '/') (beforeLastDot s).toList
  have ending : splitWhere (· == '/') ".tmp.js".toList = [".tmp.js".toList] := by decide
  have temporary : slashed (beforeLastDot s ++ ".tmp.js") = outer.map String.ofList ++ [String.ofList (last ++ ".tmp.js".toList)] := by
    rw [slashed, splitAt, String.toList_append, added, splitWhere_append_of_plain plain ending, List.map_append]
    rfl
  have script : 'j' ∈ (String.ofList (last ++ ".tmp.js".toList)).toList := by simp
  have named : IsEntryName (String.ofList (last ++ ".tmp.js".toList)) := by
    obtain ⟨valid, other⟩ := Path.isPart_of_mem script (by decide)
    refine ⟨valid, other, fun slash => ?_⟩
    obtain inside | inside := List.mem_append.1 (String.toList_ofList ▸ slash)
    · simpa using plain '/' inside
    · exact absurd inside (by decide)
  have dotted : '.' ∈ (String.ofList (last ++ ".tmp.js".toList)).toList := by simp
  obtain ⟨tail, dotless, whole⟩ | ⟨same, dotless⟩ := beforeLastDot_cases s
  · obtain ⟨first, more, cut⟩ := List.exists_cons_of_ne_nil (splitWhere_ne_nil (· == '/') tail)
    have within : ∀ stretch ∈ first :: more, '.' ∉ stretch := fun stretch mem dot =>
      dotless (subset_of_mem_splitWhere (cut ▸ mem) dot)
    have ahead : splitWhere (· == '/') ('.' :: tail) = ('.' :: first) :: more := by
      rw [splitWhere, if_neg (by decide), cut]
    refine ⟨outer.map String.ofList, _, String.ofList (last ++ '.' :: first), more.map String.ofList, ?_, temporary, named,
      dotted, ?_, ?_⟩
    · rw [slashed, splitAt, whole, added, splitWhere_append_of_plain plain ahead, List.map_append, List.map_cons]
    · intro equal
      have first_ : '.' :: first = ".tmp.js".toList := List.append_cancel_left (String.ofList_inj.1 equal)
      obtain rfl : first = "tmp.js".toList := (List.cons.inj first_).2
      exact within _ List.mem_cons_self (by decide)
    · intro part mem
      obtain ⟨stretch, inside, rfl⟩ := List.mem_map.1 mem
      rw [String.toList_ofList]
      exact within stretch (List.mem_cons_of_mem _ inside)
  · refine ⟨outer.map String.ofList, _, String.ofList last, [], ?_, temporary, named, dotted, ?_, by simp⟩
    · have end_ := added []
      rw [List.append_nil, List.append_nil, same] at end_
      have one : splitWhere (· == '/') (last ++ []) = [last ++ []] := splitWhere_append_of_plain plain rfl
      rw [List.append_nil] at one
      rw [slashed, splitAt, end_, one, List.map_append]
      rfl
    · intro equal
      have longer := congrArg List.length (String.ofList_inj.1 equal)
      simp at longer

/-- The paths of the loader module and of the temporary loader: one leads on from where the other stands, but never to the
same place. -/
theorem exists_beside (s : String) :
    ∃ (base : Path) (extra : List String) (name : String), Path.ofString s = base.under extra ∧
      Path.ofString (beforeLastDot s ++ ".tmp.js") = base.under [name] ∧ IsEntryName name ∧
      (∀ part ∈ extra, isPart part = true ∧ '/' ∉ part.toList) ∧
      ∀ place, Path.normalizeFrom place extra ≠ place ++ [name] := by
  obtain ⟨outer, name, first, more, source, temporary, named, dotted, other, dotless⟩ := exists_slashed_beside s
  have anchor : Anchor.ofText (beforeLastDot s ++ ".tmp.js").toList = Anchor.ofText s.toList := by
    have added : Anchor.ofText (beforeLastDot s ++ ".tmp.js").toList = Anchor.ofText (beforeLastDot s).toList := by
      rw [String.toList_append]
      exact Anchor.ofText_append_dot _ _
    obtain ⟨tail, -, whole⟩ | ⟨same, -⟩ := beforeLastDot_cases s
    · rw [added, whole, Anchor.ofText_append_dot]
    · rw [added, same]
  refine ⟨⟨Anchor.ofText s.toList, outer.filter isPart⟩, (first :: more).filter isPart, name, ?_, ?_, named, ?_, ?_⟩
  · rw [Path.ofString, source, List.filter_append]
    rfl
  · rw [Path.ofString, anchor, temporary, List.filter_append, List.filter_cons_of_pos named.1]
    rfl
  · intro part mem
    obtain ⟨inside, valid⟩ := List.mem_filter.1 mem
    have within : part ∈ slashed s := source ▸ List.mem_append_right _ inside
    exact ⟨valid, not_mem_of_mem_slashed within⟩
  · intro place same
    have names : parentStep ∉ more.filter isPart := fun up => dotless _ (List.mem_filter.1 up).1 (by decide)
    have whole : Path.normalizeFrom place ((first :: more).filter isPart) =
        Path.normalizeFrom place ([first].filter isPart) ++ more.filter isPart := by
      rw [show first :: more = [first] ++ more from rfl, List.filter_append, Path.normalizeFrom_append,
        Path.normalizeFrom_of_names names]
    rw [whole] at same
    rcases List.eq_nil_or_concat (more.filter isPart) with empty | ⟨front, last, last_⟩
    · rw [empty, List.append_nil] at same
      by_cases valid : isPart first = true
      · rw [List.filter_cons_of_pos valid] at same
        by_cases up : first = parentStep
        · have shorter := congrArg List.length same
          simp [Path.normalizeFrom, Path.takePart, up] at shorter
        · simp [Path.normalizeFrom, Path.takePart, up, other] at same
      · rw [List.filter_cons_of_neg valid] at same
        simp [Path.normalizeFrom] at same
    · -- a part behind a slash holds no dot, so it is not the name of the temporary loader
      have inside : last ∈ more.filter isPart := by simp [last_]
      rw [last_, List.concat_eq_append, ← List.append_assoc] at same
      obtain ⟨-, rfl⟩ := List.append_singleton_inj.1 same
      exact dotless last (List.mem_filter.1 inside).1 dotted

/-- In a project, the temporary loader stands in a directory that the path of the loader module passes, but not in its
place. -/
theorem EdgeSettings.temporary_beside (tree : FileTree) (edge : EdgeSettings) (root : Path) :
    ∃ extra, root.join edge.loaderPath = (root.join edge.temporaryLoaderPath).parent.under extra ∧
      tree.straight (root.join edge.loaderPath) ≠ tree.straight (root.join edge.temporaryLoaderPath) := by
  obtain ⟨base, extra, name, source, temporary, named, valid, apart⟩ := exists_beside edge.loaderModule
  have within (names : List String) : root.join (edge.bindingsDirectory.join (base.under names)) =
      (root.join (edge.bindingsDirectory.join base)).under names := by rw [Path.join_under, Path.join_under]
  generalize root.join (edge.bindingsDirectory.join base) = place at within
  have loader : root.join edge.loaderPath = place.under extra := by
    rw [EdgeSettings.loaderPath, Path.child, source, within]
  have beside : root.join edge.temporaryLoaderPath = place.under [name] := by
    rw [EdgeSettings.temporaryLoaderPath, Path.child, temporary, within]
  refine ⟨extra, ?_, ?_⟩
  · rw [loader, beside, Path.parent_under place (List.cons_ne_nil name []), List.dropLast_singleton, Path.under_nil]
  · rw [loader, beside, tree.straight_under place fun part mem => (valid part mem).2,
      tree.straight_under place fun part mem => (List.mem_singleton.1 mem) ▸ named.2.2,
      List.filter_eq_self.2 fun part mem => (valid part mem).1, List.filter_cons_of_pos named.1]
    have down : Path.normalizeFrom (tree.straight place) [name] = tree.straight place ++ [name] :=
      Path.normalizeFrom_of_names (by simpa using named.2.1.symm)
    rw [List.filter_nil, down]
    exact apart _

end Config

end WasmPackaging
