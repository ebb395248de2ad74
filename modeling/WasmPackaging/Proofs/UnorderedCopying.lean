import WasmPackaging.Proofs.FileTree.TwinCopies

/-!
Batches whose entries may come in any order. No target equals, lies in or lies above another one or a source, so all that two entries can
both change is which directories lead to their targets, and neither changes what the other asks about. After any of them, each place is as it
was, unless the copy of one of them alone changes it, and then it is as that copy leaves it (`Composed`). So the order makes no difference,
also to which entries fail (`copy_in_any_order`), unless the path of a source has a name that is too long: whether a directory can stand there
is known once the one around it is there (`copy_order_shows`).
-/

namespace WasmPackaging

open Text FileTree

/-- The first of some runs is followed by the others in either case. -/
theorem after_attemptAll_cons (run : FileRun Unit) (runs : List (FileRun Unit)) (before : FileTree) :
    (attemptAll (run :: runs) before).2 = (attemptAll runs (run before).2).2 := by
  rw [attemptAll_apply]
  rcases run before with ⟨_ | _, between⟩ <;> rfl

theorem after_attemptAll_nil (before : FileTree) : (attemptAll [] before).2 = before := rfl

theorem fails_attemptAll_cons {run : FileRun Unit} {runs : List (FileRun Unit)} {before : FileTree} :
    Fails (attemptAll (run :: runs)) before ↔ Fails run before ∨ Fails (attemptAll runs) (run before).2 := by
  unfold Fails
  rw [attemptAll_apply]
  rcases run before with ⟨e | ⟨⟩, between⟩ <;> simp

theorem not_fails_attemptAll_nil (before : FileTree) : ¬ Fails (attemptAll []) before := fun ⟨_, failed⟩ => nomatch failed

/-- Where a question is asked of all of a list, each has an answer. -/
theorem exists_answer_of_mapM {ε α β : Type} {f : α → Except ε β} {list : List α} {answers : List β} (ran : list.mapM f = .ok answers) :
    ∀ a ∈ list, ∃ b, f a = .ok b := by
  induction list generalizing answers with
  | nil => simp
  | cons a list ih =>
    rw [List.mapM_cons] at ran
    obtain ⟨first, here, ran⟩ := bind_eq_ok_iff.1 ran
    obtain ⟨rest, onward, -⟩ := bind_eq_ok_iff.1 ran
    exact List.forall_mem_cons.2 ⟨⟨first, here⟩, ih onward⟩

theorem FileTree.holdsZero_of_resolve {tree : FileTree} {path : Path} {location : Location} (resolved : tree.resolve path = .ok location) :
    path.holdsZero = false := by
  cases held : path.holdsZero with
  | false => rfl
  | true =>
    rw [FileTree.resolve, held] at resolved
    cases resolved

namespace Publisher

variable {tree now after : FileTree} {ignored : List String} {pair : Location × Location} {done rest pairs pairs' : List (Location × Location)}

/-- Targets that lie apart from each other and from all sources. -/
structure Separate (pairs : List (Location × Location)) : Prop where
  targets : pairs.Pairwise fun pair other => Apart pair.2 other.2
  sources : ∀ pair ∈ pairs, ∀ other ∈ pairs, Apart pair.2 other.1

/-- Entries that can be copied in a tree in any order. -/
structure Ready (tree : FileTree) (pairs : List (Location × Location)) : Prop where
  sound : tree.WellFormed
  free : tree.LinkFree
  named : ∀ pair ∈ pairs, AreNames pair.1 ∧ AreNames pair.2
  separate : Separate pairs
  decided : ∀ pair ∈ pairs, tree.Decided pair.1

theorem Separate.perm (separate : Separate pairs) (order : pairs'.Perm pairs) : Separate pairs' :=
  ⟨(order.pairwise_iff fun apart => apart.symm).2 separate.targets,
    fun pair mem other mem' => separate.sources pair (order.mem_iff.1 mem) other (order.mem_iff.1 mem')⟩

namespace Ready

variable (ready : Ready tree pairs)

include ready

theorem perm (order : pairs'.Perm pairs) : Ready tree pairs' :=
  ⟨ready.sound, ready.free, fun pair mem => ready.named pair (order.mem_iff.1 mem), ready.separate.perm order,
    fun pair mem => ready.decided pair (order.mem_iff.1 mem)⟩

theorem sublist (within : pairs'.Sublist pairs) : Ready tree pairs' :=
  ⟨ready.sound, ready.free, fun pair mem => ready.named pair (within.subset mem),
    ⟨ready.separate.targets.sublist within, fun pair mem other mem' => ready.separate.sources pair (within.subset mem) other (within.subset mem')⟩,
    fun pair mem => ready.decided pair (within.subset mem)⟩

/-- An entry is copied alike in a tree that is alike in all that it asks about. -/
theorem agree (mem : pair ∈ pairs) (level : Level pair.1 pair.2 tree now) (sound : now.WellFormed) (free : now.LinkFree)
    (kept : ∀ outer, outer <+: pair.1 → tree.lookup outer ≠ none → now.lookup outer = tree.lookup outer) :
    Agree (Twins pair.2 tree now) (fun _ _ => True) (copyPlace ignored pair tree) (copyPlace ignored pair now) := by
  obtain ⟨named, named'⟩ := ready.named pair mem
  have same : now.lookup pair.1 = tree.lookup pair.1 := by simpa using lookup_of_entriesFrom level.source []
  have asked := asks_congr ready.sound ready.free sound free named (ready.decided pair mem) same kept (· == .directory)
  have copies := @Twins.copy tree now pair.1 pair.2 ignored level (ready.separate.sources pair mem pair mem) ready.sound ready.free sound free
    named named' asked
  exact copies.adapt.adapt

theorem kept (mem : pair ∈ pairs) : Kept pair.2 tree (copyPlace ignored pair tree).2 :=
  (ready.agree mem ⟨rfl, fun _ => rfl, fun _ _ => Iff.rfl⟩ ready.sound ready.free fun _ _ _ => rfl).after.first

end Ready

/-! ## What entries come to together -/

/-- A tree in which some entries have been copied: each place is as it was, unless the copy of one of them alone changes it, and then it is as
that copy leaves it. -/
structure Composed (tree : FileTree) (ignored : List String) (done : List (Location × Location)) (now : FileTree) : Prop where
  sound : now.WellFormed
  free : now.LinkFree
  working : now.workingDirectory = tree.workingDirectory
  entries : ∀ place, (∀ pair ∈ done, Apart pair.2 place) → now.entriesFrom place = tree.entriesFrom place
  still : ∀ place, (∀ pair ∈ done, (copyPlace ignored pair tree).2.lookup place = tree.lookup place) → now.lookup place = tree.lookup place
  changed : ∀ pair ∈ done, ∀ place, (copyPlace ignored pair tree).2.lookup place ≠ tree.lookup place →
    now.lookup place = (copyPlace ignored pair tree).2.lookup place

namespace Composed

theorem start (sound : tree.WellFormed) (free : tree.LinkFree) : Composed tree ignored [] tree :=
  ⟨sound, free, rfl, fun _ _ => rfl, fun _ _ => rfl, fun _ mem => (nomatch mem)⟩

/-- The copies of the same entries come to the same in any order. -/
theorem unique {done' : List (Location × Location)} (composed : Composed tree ignored done now) (composed' : Composed tree ignored done' after)
    (same : ∀ pair, pair ∈ done ↔ pair ∈ done') (place : Location) : now.lookup place = after.lookup place := by
  by_cases untouched : ∀ pair ∈ done, (copyPlace ignored pair tree).2.lookup place = tree.lookup place
  · rw [composed.still place untouched, composed'.still place fun pair mem => untouched pair ((same pair).2 mem)]
  · push Not at untouched
    obtain ⟨pair, mem, changes⟩ := untouched
    rw [composed.changed pair mem place changes, composed'.changed pair ((same pair).1 mem) place changes]

variable (composed : Composed tree ignored done now) (kept : ∀ other ∈ done, Kept other.2 tree (copyPlace ignored other tree).2)
  (apart : ∀ other ∈ done, Apart other.2 pair.2)

include composed kept

/-- What lies apart from all targets is as it was. -/
theorem lookup_apart {place : Location} (apart : ∀ other ∈ done, Apart other.2 place) : now.lookup place = tree.lookup place :=
  composed.still place fun other mem => (kept other mem).lookup_apart (apart other mem)

/-- What is there and does not lie in a target is as it was. -/
theorem lookup_present {place : Location} (outside : ∀ other ∈ done, ¬ other.2 <+: place) (there : tree.lookup place ≠ none) :
    now.lookup place = tree.lookup place :=
  composed.still place fun other mem => (kept other mem).present (by simpa using outside other mem) there

include apart

/-- The copies that are done change nothing that another entry asks about. -/
theorem level (apart' : ∀ other ∈ done, Apart other.2 pair.1) : Level pair.1 pair.2 tree now := by
  refine ⟨composed.entries _ apart', fun names => composed.lookup_apart kept fun other mem => (apart other mem).append names, fun place above => ?_⟩
  by_cases untouched : ∀ other ∈ done, (copyPlace ignored other tree).2.lookup place = tree.lookup place
  · unfold Open
    rw [composed.still place untouched]
  · push Not at untouched
    obtain ⟨other, mem, changes⟩ := untouched
    obtain ⟨-, vacant, directory⟩ := (kept other mem).directory_of_changed (fun below => (apart other mem).1 (below.trans above)) changes
    have made := (composed.changed other mem place changes).trans directory
    exact ⟨fun _ => .inl vacant, fun _ => .inr made⟩

/-- One more entry is copied. -/
theorem step (twins : Twins pair.2 tree now (copyPlace ignored pair tree).2 after) : Composed tree ignored (done ++ [pair]) after := by
  -- a place in the target is as the copy leaves it, one on the way there may have become a directory
  have place_cases (place : Location) :
      after.lookup place = (copyPlace ignored pair tree).2.lookup place ∧
        (∀ other ∈ done, (copyPlace ignored other tree).2.lookup place = tree.lookup place) ∨
      after.lookup place = now.lookup place ∧ (copyPlace ignored pair tree).2.lookup place = tree.lookup place ∨
      place <+: pair.2 ∧ after.lookup place = some .directory ∧ (copyPlace ignored pair tree).2.lookup place = some .directory := by
    by_cases below : pair.2 <+: place
    · obtain ⟨names, rfl⟩ := below
      exact .inl ⟨twins.inside names, fun other mem => (kept other mem).lookup_apart ((apart other mem).append names)⟩
    · by_cases above : place <+: pair.2
      · obtain ⟨same, same'⟩ | ⟨directory, directory'⟩ := twins.way place above fun same => below (same ▸ List.prefix_refl _)
        · exact .inr (.inl ⟨same', same⟩)
        · exact .inr (.inr ⟨above, directory', directory⟩)
      · exact .inr (.inl ⟨twins.second.lookup_apart ⟨below, above⟩, twins.first.lookup_apart ⟨below, above⟩⟩)
  refine ⟨twins.second.sound, twins.second.free, twins.second.working.trans composed.working, fun place aside => ?_, fun place untouched => ?_,
    fun other mem place changes => ?_⟩
  · rw [twins.second.entries place (aside pair (by simp)), composed.entries place fun other mem => aside other (List.mem_append_left _ mem)]
  · have alone := untouched pair (by simp)
    obtain ⟨same, -⟩ | ⟨same, -⟩ | ⟨-, directory, directory'⟩ := place_cases place
    · rw [same, alone]
    · rw [same, composed.still place fun other mem => untouched other (List.mem_append_left _ mem)]
    · rw [directory, ← alone, directory']
  · obtain listed | last := List.mem_append.1 mem
    · obtain ⟨-, untouched⟩ | ⟨same, -⟩ | ⟨above, directory, -⟩ := place_cases place
      · exact absurd (untouched other listed) changes
      · rw [same, composed.changed other listed place changes]
      · obtain ⟨-, -, there⟩ := (kept other listed).directory_of_changed (fun below => (apart other listed).1 (below.trans above)) changes
        rw [directory, there]
    · obtain rfl := List.mem_singleton.1 last
      obtain ⟨same, -⟩ | ⟨-, same⟩ | ⟨-, directory, directory'⟩ := place_cases place
      · exact same
      · exact absurd same changes
      · rw [directory, directory']

end Composed

/-- All entries of a batch are attempted, and each fails just when it does alone. -/
theorem Composed.attempts (ready : Ready tree (done ++ rest)) (composed : Composed tree ignored done now) :
    Composed tree ignored (done ++ rest) (attemptAll (rest.map (copyPlace ignored)) now).2 ∧
      (Fails (attemptAll (rest.map (copyPlace ignored))) now ↔ ∃ pair ∈ rest, Fails (copyPlace ignored pair) tree) := by
  induction rest generalizing done now with
  | nil =>
    rw [List.append_nil]
    exact ⟨composed, fun failed => absurd failed (not_fails_attemptAll_nil now), fun ⟨_, mem, _⟩ => (nomatch mem)⟩
  | cons pair rest ih =>
    have kept (other : Location × Location) (mem : other ∈ done) : Kept other.2 tree (copyPlace ignored other tree).2 :=
      ready.kept (List.mem_append_left _ mem)
    have apart (other : Location × Location) (mem : other ∈ done) : Apart other.2 pair.2 :=
      (List.pairwise_append.1 ready.separate.targets).2.2 other mem pair (by simp)
    have apart' (other : Location × Location) (mem : other ∈ done) : Apart other.2 pair.1 :=
      ready.separate.sources other (List.mem_append_left _ mem) pair (by simp)
    have agree := @Ready.agree tree now ignored pair _ ready (by simp) (composed.level kept apart apart') composed.sound composed.free
      fun outer within there => composed.lookup_present kept (fun other mem below => (apart' other mem).1 (below.trans within)) there
    have composed' := composed.step kept apart agree.after
    rw [List.append_cons] at ready ⊢
    obtain ⟨all, fails⟩ := ih ready composed'
    rw [List.exists_mem_cons_iff, List.map_cons, after_attemptAll_cons, fails_attemptAll_cons, agree.fails_iff, fails]
    exact ⟨all, Iff.rfl⟩

/-! ## Where a copy stops -/

/-- A copy changes nothing where it cannot be asked whether the source is a directory. -/
theorem copyPlace_of_unasked {e : FileError} (asked : tree.asksDirectory (.ofLocation pair.1) = .error e) :
    (copyPlace ignored pair tree).2 = tree := by
  change (FileTask.copy ignored (.ofLocation pair.1) (.ofLocation pair.2) tree).2 = tree
  rw [copy_of_unasked asked]

/-- What a copy makes on the way to its target stays, whether the source can be read or not. -/
theorem directory_of_copyPlace (sound : tree.WellFormed) (free : tree.LinkFree) (named : AreNames pair.2.dropLast)
    (solid : tree.asksDirectory (.ofLocation pair.1) = .ok false)
    (made : FileTask.ensureDirectory (.ofLocation pair.2.dropLast) tree = (.ok (), now)) :
    (copyPlace ignored pair tree).2.lookup pair.2.dropLast = some .directory := by
  have parent : Path.parent (.ofLocation pair.2) = .ofLocation pair.2.dropLast := rfl
  have whole : (copyPlace ignored pair tree).2 = (FileTask.copyFile false (.ofLocation pair.1) (.ofLocation pair.2) now).2 := by
    change (FileTask.copy ignored (.ofLocation pair.1) (.ofLocation pair.2) tree).2 = _
    rw [copy_of_file solid, parent, bind_apply, made]
  obtain ⟨-, clear, rfl⟩ := (ensureDirectory_ends_iff sound free named).1 made
  have copies : KeepsAll Anywhere (tree.fill pair.2.dropLast) (FileTask.copyFile false (.ofLocation pair.1) (.ofLocation pair.2)) :=
    keepsAll_copyFile (landsIn_anywhere _ _) (landsIn_anywhere _ _)
  rw [whole]
  exact (copies.after (.refl (clear.sound_fill named sound))).directory _ clear.lookup_fill_self

theorem extends_copyPlace (sound : tree.WellFormed) : Extends Anywhere tree (copyPlace ignored pair tree).2 :=
  (lands_anywhere tree ignored pair).keepsAll.after (.refl sound)

/-! ## Mappings -/

variable (publisher : Publisher) {mapping order earlier : List (Path × Path)} {entry : Path × Path}

/-- The locations that the paths of an entry in a mapping spell. -/
def spelled (tree : FileTree) (entry : Path × Path) : Location × Location :=
  (tree.straight (publisher.root.join entry.1), tree.straight (publisher.root.join entry.2))

/-- Both paths of an entry have real locations. -/
def Resolvable (entry : Path × Path) : Prop :=
  (publisher.root.join entry.1).holdsZero = false ∧ (publisher.root.join entry.2).holdsZero = false

variable {publisher}

theorem Resolvable.placesOf_eq (resolvable : publisher.Resolvable entry) (free : tree.LinkFree) :
    publisher.placesOf tree entry = .ok (publisher.spelled tree entry) := by
  unfold placesOf
  rw [free.resolve_eq resolvable.1, free.resolve_eq resolvable.2]
  rfl

theorem resolvable_of_placesOf {places : Location × Location} (placed : publisher.placesOf tree entry = .ok places) :
    publisher.Resolvable entry := by
  obtain ⟨source, from_, placed⟩ := bind_eq_ok_iff.1 placed
  obtain ⟨target, to_, -⟩ := bind_eq_ok_iff.1 placed
  exact ⟨holdsZero_of_resolve from_, holdsZero_of_resolve to_⟩

theorem mapM_placesOf (free : tree.LinkFree) (resolvable : ∀ entry ∈ mapping, publisher.Resolvable entry) :
    mapping.mapM (publisher.placesOf tree) = .ok (mapping.map (publisher.spelled tree)) := by
  induction mapping with
  | nil => rfl
  | cons entry mapping ih =>
    obtain ⟨first, rest⟩ := List.forall_mem_cons.1 resolvable
    rw [List.mapM_cons, first.placesOf_eq free, ih rest]
    rfl

/-- A batch is the attempt to copy each entry, where all paths have real locations. -/
theorem copy_of_resolvable (free : tree.LinkFree) (resolvable : ∀ entry ∈ mapping, publisher.Resolvable entry) :
    (publisher.copy mapping ignored tree).2 = (attemptAll ((mapping.map (publisher.spelled tree)).map (copyPlace ignored)) tree).2 ∧
      (Fails (publisher.copy mapping ignored) tree ↔ Fails (attemptAll ((mapping.map (publisher.spelled tree)).map (copyPlace ignored))) tree) := by
  unfold Fails
  rw [publisher.copy_apply, mapM_placesOf free resolvable]
  simp only
  rw [bind_apply]
  rcases attemptAll ((mapping.map (publisher.spelled tree)).map (copyPlace ignored)) tree with ⟨e | ⟨⟩, between⟩
  · simp
  · exact ⟨rfl, by constructor <;> rintro ⟨_, failed⟩ <;> cases failed⟩

/-- Two entries are copied one after the other. -/
theorem after_copy_pair {first second : Path × Path} (free : tree.LinkFree) (resolvable : ∀ entry ∈ [first, second], publisher.Resolvable entry) :
    (publisher.copy [first, second] ignored tree).2 =
      (copyPlace ignored (publisher.spelled tree second) (copyPlace ignored (publisher.spelled tree first) tree).2).2 := by
  have places : ([first, second].map (publisher.spelled tree)).map (copyPlace ignored) =
      [copyPlace ignored (publisher.spelled tree first), copyPlace ignored (publisher.spelled tree second)] := rfl
  rw [(copy_of_resolvable free resolvable).1, places, after_attemptAll_cons, after_attemptAll_cons, after_attemptAll_nil]

/-- Nothing is copied where a path has no real location. -/
theorem copy_of_unresolvable (mem : entry ∈ mapping) (unresolvable : ¬ publisher.Resolvable entry) :
    (publisher.copy mapping ignored tree).2 = tree ∧ Fails (publisher.copy mapping ignored) tree := by
  unfold Fails
  rw [publisher.copy_apply]
  rcases placed : mapping.mapM (publisher.placesOf tree) with e | places
  · exact ⟨rfl, _, rfl⟩
  · obtain ⟨places, found⟩ := exists_answer_of_mapM placed entry mem
    exact absurd (resolvable_of_placesOf found) unresolvable

/-! ## Any order -/

/-- What a batch comes to after other entries have been copied. -/
theorem Composed.copy (ready : Ready tree (done ++ mapping.map (publisher.spelled tree))) (composed : Composed tree ignored done now)
    (resolvable : ∀ entry ∈ mapping, publisher.Resolvable entry) :
    Composed tree ignored (done ++ mapping.map (publisher.spelled tree)) (publisher.copy mapping ignored now).2 ∧
      (Fails (publisher.copy mapping ignored) now ↔ ∃ entry ∈ mapping, Fails (copyPlace ignored (publisher.spelled tree entry)) tree) := by
  have spelled : publisher.spelled now = publisher.spelled tree := by
    funext entry
    rw [Publisher.spelled, Publisher.spelled, straight_congr composed.working, straight_congr composed.working]
  obtain ⟨same, fails⟩ := @copy_of_resolvable now ignored publisher mapping composed.free resolvable
  rw [spelled] at same fails
  obtain ⟨all, attempted⟩ := composed.attempts ready
  rw [same, fails, attempted]
  refine ⟨all, ?_, fun ⟨entry, mem, failed⟩ => ⟨_, List.mem_map_of_mem mem, failed⟩⟩
  rintro ⟨pair, mem, failed⟩
  obtain ⟨entry, listed, rfl⟩ := List.mem_map.1 mem
  exact ⟨entry, listed, failed⟩

/-- An entry fails after others just when it fails alone. -/
theorem fails_after (ready : Ready tree ((earlier ++ [entry]).map (publisher.spelled tree))) :
    Fails (publisher.copy [entry] ignored) (publisher.copy earlier ignored tree).2 ↔ Fails (publisher.copy [entry] ignored) tree := by
  by_cases resolvable : ∀ other ∈ [entry], publisher.Resolvable other
  · by_cases others : ∀ other ∈ earlier, publisher.Resolvable other
    · rw [List.map_append] at ready
      have start : Composed tree ignored [] tree := .start ready.sound ready.free
      have before := (start.copy (ready.sublist (List.sublist_append_left _ _)) others).1
      rw [(before.copy ready resolvable).2, (start.copy (ready.sublist (List.sublist_append_right _ _)) resolvable).2]
    · push Not at others
      obtain ⟨other, mem, unresolvable⟩ := others
      rw [(copy_of_unresolvable mem unresolvable).1]
  · push Not at resolvable
    obtain ⟨other, mem, unresolvable⟩ := resolvable
    exact iff_of_true (copy_of_unresolvable mem unresolvable).2 (copy_of_unresolvable mem unresolvable).2

/-- A batch over entries whose targets lie apart from each other and from all sources comes to the same in any order, in a tree without links:
each entry fails after those before it just when it fails alone, and the call fails just when an entry does. -/
theorem copy_in_any_order (publisher : Publisher) (sound : tree.WellFormed) (free : tree.LinkFree)
    (separate : Separate (mapping.map (publisher.spelled tree))) (decided : ∀ entry ∈ mapping, tree.Decided (publisher.spelled tree entry).1)
    (ordered : order.Perm mapping) :
    (∀ place, (publisher.copy order ignored tree).2.lookup place = (publisher.copy mapping ignored tree).2.lookup place) ∧
      (∀ earlier entry later, order = earlier ++ entry :: later →
        (Fails (publisher.copy [entry] ignored) (publisher.copy earlier ignored tree).2 ↔ Fails (publisher.copy [entry] ignored) tree)) ∧
      (Fails (publisher.copy order ignored) tree ↔ ∃ entry ∈ mapping, Fails (publisher.copy [entry] ignored) tree) := by
  have ready : Ready tree (mapping.map (publisher.spelled tree)) := by
    refine ⟨sound, free, fun pair mem => ?_, separate, fun pair mem => ?_⟩ <;> obtain ⟨entry, listed, rfl⟩ := List.mem_map.1 mem
    · exact ⟨areNames_straight sound _, areNames_straight sound _⟩
    · exact decided entry listed
  have ready' : Ready tree (order.map (publisher.spelled tree)) := ready.perm (ordered.map _)
  have start : Composed tree ignored [] tree := .start sound free
  refine ⟨?_, fun earlier entry later whole => ?_, ?_⟩
  · by_cases resolvable : ∀ entry ∈ mapping, publisher.Resolvable entry
    · have composed := (start.copy ready resolvable).1
      have composed' := (start.copy ready' fun entry mem => resolvable entry (ordered.mem_iff.1 mem)).1
      exact composed'.unique composed fun pair => (ordered.map _).mem_iff
    · push Not at resolvable
      obtain ⟨entry, mem, unresolvable⟩ := resolvable
      rw [(copy_of_unresolvable mem unresolvable).1, (copy_of_unresolvable (ordered.mem_iff.2 mem) unresolvable).1]
      exact fun _ => rfl
  · refine fails_after (ready'.sublist ?_)
    rw [whole]
    exact (List.Sublist.append_left (List.singleton_sublist.2 (by simp)) earlier).map _
  · by_cases resolvable : ∀ entry ∈ mapping, publisher.Resolvable entry
    · rw [(start.copy ready' fun entry mem => resolvable entry (ordered.mem_iff.1 mem)).2]
      have alone (entry : Path × Path) (mem : entry ∈ mapping) :
          Fails (publisher.copy [entry] ignored) tree ↔ Fails (copyPlace ignored (publisher.spelled tree entry)) tree := by
        have single : Ready tree ([] ++ [entry].map (publisher.spelled tree)) :=
          ready.sublist ((List.singleton_sublist.2 mem).map _)
        rw [(start.copy single (by simpa using resolvable entry mem)).2]
        simp
      constructor
      · rintro ⟨entry, mem, failed⟩
        have mem' := ordered.mem_iff.1 mem
        exact ⟨entry, mem', (alone entry mem').2 failed⟩
      · rintro ⟨entry, mem, failed⟩
        exact ⟨entry, ordered.mem_iff.2 mem, (alone entry mem).1 failed⟩
    · push Not at resolvable
      obtain ⟨entry, mem, unresolvable⟩ := resolvable
      exact iff_of_true (copy_of_unresolvable (ordered.mem_iff.2 mem) unresolvable).2
        ⟨entry, mem, (copy_of_unresolvable (List.mem_singleton.2 rfl) unresolvable).2⟩

/-- A project with a directory and two files. -/
def unorderedProject : FileTree where
  entries := [(["p"], .directory), (["p", "src"], .directory), (["p", "src", "a.js"], .file (encode "1")), (["p", "b.js"], .file (encode "2"))]
  workingDirectory := ["p"]

/-- The publisher of the project. -/
def unorderedPublisher : Publisher := ⟨.ofLocation ["p"]⟩

/-- A directory whose target lies in one that is not there yet. -/
def directoryEntry : Path × Path := (.ofString "src", .ofString "out/lib")

/-- A file whose target lies there too. -/
def fileEntry : Path × Path := (.ofString "b.js", .ofString "out/b/main.js")

/-- A source that is missing. -/
def missingEntry : Path × Path := (.ofString "gone.js", .ofString "out/gone.js")

theorem wellFormed_unorderedProject : unorderedProject.WellFormed := wellFormed_of_entries (by decide) (by decide)

theorem linkFree_unorderedProject : unorderedProject.LinkFree := linkFree_of_entries (by simp [unorderedProject])

/-- Entries that make a directory together, of which one fails. -/
theorem copy_in_any_order_together :
    (∀ place, (unorderedPublisher.copy [missingEntry, fileEntry, directoryEntry] [] unorderedProject).2.lookup place =
      (unorderedPublisher.copy [directoryEntry, fileEntry, missingEntry] [] unorderedProject).2.lookup place) ∧
      (Fails (unorderedPublisher.copy [fileEntry] []) (unorderedPublisher.copy [missingEntry] [] unorderedProject).2 ↔
        Fails (unorderedPublisher.copy [fileEntry] []) unorderedProject) ∧
      Fails (unorderedPublisher.copy [missingEntry, fileEntry, directoryEntry] []) unorderedProject ∧
      (unorderedPublisher.copy [directoryEntry, fileEntry, missingEntry] [] unorderedProject).2.lookup ["p", "out", "b", "main.js"] =
        some (.file (encode "2")) := by
  have separate : Separate ([directoryEntry, fileEntry, missingEntry].map (unorderedPublisher.spelled unorderedProject)) :=
    ⟨by decide, by decide⟩
  have short : ∀ entry ∈ [directoryEntry, fileEntry, missingEntry],
      ∀ name ∈ (unorderedPublisher.spelled unorderedProject entry).1, name.utf8ByteSize ≤ longestName := by decide
  have ordered : [missingEntry, fileEntry, directoryEntry].Perm [directoryEntry, fileEntry, missingEntry] :=
    List.reverse_perm [directoryEntry, fileEntry, missingEntry]
  obtain ⟨same, alone, fails⟩ := @copy_in_any_order unorderedProject [] [directoryEntry, fileEntry, missingEntry]
    [missingEntry, fileEntry, directoryEntry] unorderedPublisher wellFormed_unorderedProject linkFree_unorderedProject separate
    (fun entry mem => decided_of_short (short entry mem)) ordered
  refine ⟨same, alone [missingEntry] fileEntry [directoryEntry] rfl, fails.2 ⟨missingEntry, by simp, ?_⟩, by decide +kernel⟩
  exact fails_of_isNone (by decide +kernel)

/-- One letter, written a number of times. -/
def letters (count : Nat) : String := String.ofList (List.replicate count 'n')

theorem eq_of_mem_letters {count : Nat} {c : Char} (mem : c ∈ (letters count).toList) : c = 'n' := by
  rw [letters, String.toList_ofList] at mem
  exact List.eq_of_mem_replicate mem

/-- A name that is one byte too long. -/
def longName : String := letters 256

/-- An entry whose source has a name that is too long, in a directory that is missing until the target of another is made. -/
def longEntry : Path × Path := (.ofLocation ["p", "out", longName], .ofString "new/t")

theorem spelled_fileEntry : unorderedPublisher.spelled unorderedProject fileEntry = (["p", "b.js"], ["p", "out", "b", "main.js"]) := by
  decide

theorem areNames_longEntry : AreNames ["p", "out", longName] := by
  have valid : IsEntryName longName := ⟨by decide +kernel, by decide +kernel, fun slash => absurd (eq_of_mem_letters slash) (by decide)⟩
  exact areNames_cons.2 ⟨by decide, areNames_cons.2 ⟨by decide, areNames_cons.2 ⟨valid, areNames_nil⟩⟩⟩

theorem spelled_longEntry : unorderedPublisher.spelled unorderedProject longEntry = (["p", "out", longName], ["p", "new", "t"]) := by
  have source := straight_join_ofLocation unorderedProject unorderedPublisher.root areNames_longEntry
  have target : unorderedProject.straight (unorderedPublisher.root.join (.ofString "new/t")) = ["p", "new", "t"] := by decide
  unfold spelled longEntry
  rw [source, target]

theorem holdsZero_longEntry : (Path.ofLocation ["p", "out", longName]).holdsZero = false := by
  refine List.any_eq_false.2 fun part mem held => ?_
  have zero : '\x00' ∈ part.toList := List.contains_iff_mem.1 held
  obtain rfl | rfl | last : part = "p" ∨ part = "out" ∨ part = longName := by simpa [Path.ofLocation] using mem
  · exact absurd zero (by decide)
  · exact absurd zero (by decide)
  · rw [last] at zero
    exact absurd (eq_of_mem_letters zero) (by decide)

theorem resolvable_longEntry : unorderedPublisher.Resolvable longEntry := ⟨holdsZero_longEntry, by decide⟩

theorem fine_longEntry : pathFault? (.ofLocation ["p", "out", longName]) = none := by
  have short : ¬ longestPath < (Path.ofLocation ["p", "out", longName]).toString.utf8ByteSize := by decide +kernel
  simp [pathFault?, holdsZero_longEntry, short]

/-- Whether the source is a directory cannot be asked once the directory around it is there, so nothing is made for its target then. -/
theorem copy_order_shows : unorderedProject.WellFormed ∧ unorderedProject.LinkFree ∧
    Separate ([fileEntry, longEntry].map (unorderedPublisher.spelled unorderedProject)) ∧
    (unorderedPublisher.copy [fileEntry, longEntry] [] unorderedProject).2.lookup ["p", "new"] = none ∧
    (unorderedPublisher.copy [longEntry, fileEntry] [] unorderedProject).2.lookup ["p", "new"] = some .directory := by
  have sound := wellFormed_unorderedProject
  have free := linkFree_unorderedProject
  have resolvable : ∀ entry ∈ [fileEntry, longEntry], unorderedPublisher.Resolvable entry :=
    List.forall_mem_cons.2 ⟨⟨by decide, by decide⟩, List.forall_mem_cons.2 ⟨resolvable_longEntry, by simp⟩⟩
  have resolvable' : ∀ entry ∈ [longEntry, fileEntry], unorderedPublisher.Resolvable entry := by
    intro entry mem
    exact resolvable entry (by simpa [or_comm] using mem)
  have places : [fileEntry, longEntry].map (unorderedPublisher.spelled unorderedProject) =
      [(["p", "b.js"], ["p", "out", "b", "main.js"]), (["p", "out", longName], ["p", "new", "t"])] := by
    rw [List.map_cons, List.map_cons, List.map_nil, spelled_fileEntry, spelled_longEntry]
  rw [after_copy_pair free resolvable, after_copy_pair free resolvable', places, spelled_fileEntry, spelled_longEntry]
  refine ⟨sound, free, ⟨by decide, by decide +kernel⟩, ?_, ?_⟩
  · -- the directory around the name that is too long has been made for the file
    have leads : (copyPlace [] (["p", "b.js"], ["p", "out", "b", "main.js"]) unorderedProject).2.walk true linkLimit [] ["p", "out", longName] =
        .error .nameTooLong := by decide +kernel
    have unasked := asks_of_nameTooLong ((follow_ofLocation_eq_walk _ areNames_longEntry fine_longEntry).trans leads) (· == .directory)
    have same := @copyPlace_of_unasked _ [] (["p", "out", longName], ["p", "new", "t"]) _ unasked
    rw [same]
    decide +kernel
  · have leads : unorderedProject.walk true linkLimit [] ["p", "out", longName] = .error .notFound := by decide +kernel
    have solid := asks_of_notFound ((follow_ofLocation_eq_walk _ areNames_longEntry fine_longEntry).trans leads) (· == .directory)
    have made := @directory_of_copyPlace unorderedProject _ [] (["p", "out", longName], ["p", "new", "t"]) sound free (by decide) solid
      (Prod.ext (eq_ok_of_toOption (by decide +kernel)) rfl)
    exact (extends_copyPlace (extends_copyPlace sound).sound).directory _ made

end Publisher

end WasmPackaging
