import WasmPackaging.Proofs.Renaming
import WasmPackaging.Proofs.LikePublishing
import WasmPackaging.Proofs.Targets.PublishedLoader

/-!
What is left under names with a suffix, once the suffix has been taken out of the names of the scripts. Only files are renamed,
and the suffix is taken out once, so what is found again is what was no file, and the files whose new names still have the
suffix (`Publisher.Remains`), in whatever order the files are renamed. The check of an output complains about just these
(`verifyOutput_after_renameInOrder`), a directory among them (`verifyOutput_rejects_directory`).
-/

namespace WasmPackaging

open Text FileTree

/-! ## Names that lose a text -/

theorem length_replaceFirst_nil {old s : List Char} (within : old <:+: s) : (replaceFirst old [] s).length + old.length = s.length := by
  induction s with
  | nil =>
    obtain rfl := List.infix_nil.1 within
    simp [replaceFirst]
  | cons c s ih =>
    rw [replaceFirst]
    split
    · next here =>
      have shorter := (List.isPrefixOf_iff_prefix.1 here).length_le
      rw [List.nil_append, List.length_drop]
      omega
    · next elsewhere =>
      rw [List.isPrefixOf_iff_prefix] at elsewhere
      have later := ih ((List.infix_cons_iff.1 within).resolve_left elsewhere)
      rw [List.length_cons, List.length_cons]
      omega

/-- A name that loses a text is another name. -/
theorem ne_of_withoutLast? {part name rest : List Char} (filled : part ≠ []) (cut : withoutLast? part name = some rest) : rest ≠ name := by
  unfold withoutLast? at cut
  split at cut
  · next stands =>
    obtain rfl := Option.some.inj cut
    have shorter := length_replaceFirst_nil (List.reverse_infix.2 (standsIn_iff_isInfix.1 stands))
    rintro same
    have length := congrArg List.length same
    rw [List.length_reverse] at length
    rw [List.length_reverse, List.length_reverse] at shorter
    have some_ := List.length_pos_iff.2 filled
    omega
  · cases cut

theorem PathPattern.onlyDirectories_of_suffix {suffix : String} {pattern : PathPattern}
    (parsed : ofString ("**/*" ++ suffix ++ ".js") = .ok pattern) : pattern.onlyDirectories = false := by
  have ending : ("**/*" ++ suffix ++ ".js").toList.getLast? = some 's' := by
    rw [String.toList_append, List.getLast?_append_of_ne_nil _ (by decide)]
    decide
  simp only [ofString, ending] at parsed
  split at parsed
  · cases parsed
  · split at parsed
    · cases parsed
    · split at parsed
      · cases parsed
      · obtain ⟨parts, -, parsed⟩ := bind_eq_ok_iff.1 parsed
        obtain rfl := Except.ok.inj parsed
        rfl

/-- A search from the path of a directory that finds something starts there. -/
theorem FileTree.follow_of_mem_search {tree : FileTree} (sound : tree.WellFormed) {location : Location}
    (directory : tree.lookup location = some .directory) {pattern : PathPattern} {found : List Path} {path : Path}
    (searched : tree.search (.ofLocation location) pattern = .ok found) (mem : path ∈ found) :
    tree.follow (.ofLocation location) = .ok (.entry location .directory) := by
  have named := sound.areNames (by simp [directory] : tree.lookup location ≠ none)
  obtain ⟨place, leads⟩ := asksDirectory_eq_true_iff.1 (asksDirectory_of_mem_search searched mem)
  obtain ⟨-, rfl, -⟩ := ((unlinked_of_directory sound directory).follow_entry_iff sound named).1 leads
  exact leads

namespace Publisher

variable {tree now after : FileTree} {suffix : String} {pattern : PathPattern} {location : Location} {found : List Path} {pairs : List (Path × Path)}

/-! ## What is taken away and what remains -/

/-- A path was found at a file, which is renamed. -/
def Taken (tree : FileTree) (found : List Path) (path : Path) : Prop := path ∈ found ∧ tree.asksFile path = .ok true

/-- Something is at a location when a suffix has been taken out of the names of the files that were found, which lose it in some order:
it was there and was no such file, or it is a file that got its name, and was not renamed once more, which happens when a file
with that name was found as well and comes later. -/
def Remains (tree : FileTree) (suffix : String) (found sources : List Path) (location : Location) : Prop :=
  (tree.lookup location ≠ none ∧ ¬ Taken tree found (.ofLocation location)) ∨
    ∃ front source back, sources = front ++ source :: back ∧ renamed? suffix source = .ok (some (source, .ofLocation location)) ∧
      .ofLocation location ∉ back

/-- A file that was found and whose name holds the suffix is renamed, if all are. -/
theorem exists_mem_moves_of_taken (moved : moves tree suffix found = .ok pairs) {path : Path} (taken : Taken tree found path)
    (holds : suffix.toList <:+: path.name.toList) : ∃ pair ∈ pairs, pair.1 = path := by
  obtain ⟨pair, renamed⟩ : ∃ pair, renamed? suffix path = .ok (some pair) := by
    obtain ⟨mem, file⟩ := taken
    obtain ⟨answer, here⟩ : ∃ answer, moveOf tree suffix path = .ok answer := by
      induction found generalizing pairs with
      | nil => cases mem
      | cons first found ih =>
        rw [moves_cons] at moved
        obtain ⟨answer, here, moved⟩ := bind_eq_ok_iff.1 moved
        obtain ⟨rest, later, -⟩ := bind_eq_ok_iff.1 moved
        obtain rfl | mem := List.mem_cons.1 mem
        · exact ⟨answer, here⟩
        · exact ih later mem
    unfold moveOf at here
    rw [file] at here
    have renamed : renamed? suffix path = .ok answer := mapError_eq_ok_iff.1 here
    have cut : withoutLast? suffix.toList path.name.toList ≠ none := by simp [withoutLast?, standsIn_iff_isInfix.2 holds]
    obtain ⟨rest, cut⟩ := Option.ne_none_iff_exists'.1 cut
    unfold renamed? at renamed ⊢
    rw [cut] at renamed ⊢
    rcases given : path.withName (String.ofList rest) with e | target
    · simp [given, Except.map] at renamed
    · exact ⟨(path, target), by simp [given, Except.map]⟩
  have same := fst_of_renamed? renamed
  exact ⟨pair, (mem_moves_iff moved).2 ⟨same ▸ taken.1, same ▸ taken.2, same ▸ renamed⟩, same⟩

/-- The scripts below a directory are found by a suffix and are to lose it. -/
structure Batch (tree : FileTree) (location : Location) (suffix : String) (pattern : PathPattern) (found : List Path)
    (pairs : List (Path × Path)) : Prop where
  sound : tree.WellFormed
  once : tree.ListedOnce
  directory : tree.lookup location = some .directory
  filled : suffix ≠ ""
  plain : ∀ c ∈ suffix.toList, c ∉ ['*', '?', '[', '/']
  parsed : PathPattern.ofString ("**/*" ++ suffix ++ ".js") = .ok pattern
  searched : tree.search (.ofLocation location) pattern = .ok found
  moved : moves tree suffix found = .ok pairs

namespace Batch

variable (batch : Batch tree location suffix pattern found pairs)

include batch

theorem parts : pattern.parts = [.anyDepth, .wildcard ("*" ++ suffix ++ ".js")] :=
  PathPattern.parts_of_suffix (fun slash => batch.plain '/' slash (by decide)) batch.parsed

/-- The files that are renamed have their old and their new places in one directory, below the one that was searched. -/
theorem exists_sites_of_mem_moves {pair : Path × Path} (mem : pair ∈ pairs) {outer_ : Path} {old new : String} {base : Location}
    (sited : tree.Sited pair outer_ old new base) :
    ∃ outer name renamed, pair = (.ofLocation (location ++ outer ++ [name]), .ofLocation (location ++ outer ++ [String.ofList renamed])) ∧
      withoutLast? suffix.toList name.toList = some renamed ∧ Wildcard.matchesName ("*" ++ suffix ++ ".js") name = true ∧
      sites tree pair = (location ++ outer ++ [name], location ++ outer ++ [String.ofList renamed]) := by
  have named := batch.sound.areNames (by simp [batch.directory] : tree.lookup location ≠ none)
  obtain ⟨outer, name, renamed, rfl, -, -, matched, cut, -⟩ := exists_of_mem_moves batch.sound named batch.parsed batch.searched batch.moved mem
  refine ⟨outer, name, renamed, rfl, cut, matched, ?_⟩
  have within := ((mem_moves_iff batch.moved).1 mem).1
  have leads := follow_of_mem_search batch.sound batch.directory batch.searched within
  obtain ⟨outer', name', same, asked, there, -⟩ := (mem_search_scripts_iff batch.once batch.sound batch.parts
    (PathPattern.onlyDirectories_of_suffix batch.parsed) leads batch.searched).1 within
  have spelled : Path.ofLocation (location ++ outer ++ [name]) = (Path.ofLocation (location ++ outer)).under [name] := rfl
  obtain ⟨front, rfl⟩ := Path.under_inj.1 (spelled.symm.trans (same.trans (Path.under_under _ _ _).symm))
  obtain rfl := List.append_cancel_left (congrArg Path.parts front)
  obtain ⟨place, onward⟩ := asksDirectory_eq_true_iff.1 asked
  obtain rfl := eq_of_follow_under batch.sound leads (batch.sound.parent _ _ there) onward
  exact sites_ofLocation (leadsInto_of_entry batch.sound onward) sited

variable (sited : ∀ pair ∈ pairs, ∃ outer old new base, tree.Sited pair outer old new base)

include sited

/-- Each move is from the path of a place to the path of another. -/
theorem eq_ofLocation_of_mem_moves {pair : Path × Path} (mem : pair ∈ pairs) :
    pair = (.ofLocation (tree.site pair.1), .ofLocation (tree.site pair.2)) ∧ pair.2 ≠ pair.1 := by
  obtain ⟨_, _, _, _, placed⟩ := sited pair mem
  obtain ⟨front, old, new, rfl, cut, -, same⟩ := batch.exists_sites_of_mem_moves mem placed
  obtain ⟨source, target⟩ := Prod.mk.inj same
  refine ⟨by rw [source, target], fun unchanged => ?_⟩
  have lost := ne_of_withoutLast? (by simpa using batch.filled) cut
  obtain ⟨-, same⟩ := List.append_singleton_inj.1 (congrArg Path.parts unchanged)
  exact lost (by simpa using congrArg String.toList same)

theorem site_eq_iff {pair : Path × Path} (mem : pair ∈ pairs) {place : Location} : tree.site pair.1 = place ↔ pair.1 = .ofLocation place := by
  have first := congrArg Prod.fst (batch.eq_ofLocation_of_mem_moves sited mem).1
  constructor
  · intro same
    rw [first, same]
  · intro same
    exact congrArg Path.parts (first.symm.trans same)

/-- The described places of files that were found are those that a move leaves. -/
theorem taken_iff {outer : List String} {name : String} (matched : Wildcard.matchesName ("*" ++ suffix ++ ".js") name = true) :
    Taken tree found (.ofLocation (location ++ outer ++ [name])) ↔ ∃ pair ∈ pairs, tree.site pair.1 = location ++ outer ++ [name] := by
  constructor
  · intro taken
    have unlisted (c : Char) (mem : c ∈ suffix.toList) : c ∉ ['*', '?', '['] := by
      have plain := batch.plain c mem
      simp only [List.mem_cons, not_or] at plain ⊢
      exact ⟨plain.1, plain.2.1, plain.2.2.1, List.not_mem_nil⟩
    obtain ⟨stem, ending⟩ := exists_stem_of_matchesName unlisted matched
    have last : (Path.ofLocation (location ++ outer ++ [name])).name = name := by simp [Path.name, Path.ofLocation]
    have holds : suffix.toList <:+: (Path.ofLocation (location ++ outer ++ [name])).name.toList := by
      rw [last, ending, ← List.append_assoc]
      exact ⟨stem, _, rfl⟩
    obtain ⟨pair, mem, same⟩ := exists_mem_moves_of_taken batch.moved taken holds
    exact ⟨pair, mem, (batch.site_eq_iff sited mem).2 same⟩
  · rintro ⟨pair, mem, same⟩
    obtain ⟨within, file, -⟩ := (mem_moves_iff batch.moved).1 mem
    rw [(batch.site_eq_iff sited mem).1 same] at within file
    exact ⟨within, file⟩

/-- When the suffix has been taken out of the names, in some order, there is something at a described place just when something remains
there. -/
theorem lookup_ne_none_iff_remains {ordered : List (Path × Path)} (permuted : ordered.Perm pairs)
    (carries : Carries tree.lookup (ordered.map (sites tree)) after.lookup) {outer : List String} {name : String}
    (matched : Wildcard.matchesName ("*" ++ suffix ++ ".js") name = true) :
    after.lookup (location ++ outer ++ [name]) ≠ none ↔
      Remains tree suffix found (ordered.map Prod.fst) (location ++ outer ++ [name]) := by
  have site_iff {pair : Path × Path} (mem : pair ∈ ordered) (place : Location) : tree.site pair.1 = place ↔ pair.1 = .ofLocation place :=
    batch.site_eq_iff sited (permuted.mem_iff.1 mem)
  have taken_iff : Taken tree found (.ofLocation (location ++ outer ++ [name])) ↔ ∃ pair ∈ pairs, tree.site pair.1 = location ++ outer ++ [name] :=
    batch.taken_iff sited matched
  generalize location ++ outer ++ [name] = place at taken_iff ⊢
  rw [carries.present_iff]
  refine or_congr (and_congr_right fun _ => ?_) ⟨?_, ?_⟩
  · rw [taken_iff]
    constructor
    · rintro unmoved ⟨pair, mem, same⟩
      exact unmoved _ (List.mem_map_of_mem (permuted.mem_iff.2 mem)) same
    · intro still move mem same
      obtain ⟨pair, listed, rfl⟩ := List.mem_map.1 mem
      exact still ⟨pair, permuted.mem_iff.1 listed, same⟩
  · rintro ⟨before, move, later, split, reached, rest⟩
    obtain ⟨front, behind, rfl, rfl, joined⟩ := List.map_eq_append_iff.1 split
    obtain ⟨pair, back, rfl, rfl, rfl⟩ := List.map_eq_cons_iff.1 joined
    have mem : pair ∈ pairs := permuted.mem_iff.1 (by simp)
    obtain ⟨-, -, renamed⟩ := (mem_moves_iff batch.moved).1 mem
    have spelled := congrArg Prod.snd (batch.eq_ofLocation_of_mem_moves sited mem).1
    have target : pair.2 = .ofLocation place := spelled.trans (congrArg Path.ofLocation reached)
    refine ⟨front.map Prod.fst, pair.1, back.map Prod.fst, by simp, target ▸ renamed, fun again => ?_⟩
    obtain ⟨other, late, same⟩ := List.mem_map.1 again
    exact rest _ (List.mem_map_of_mem late) ((site_iff (by simp [late]) place).2 same)
  · rintro ⟨before, source, later, split, renamed, rest⟩
    obtain ⟨front, behind, rfl, rfl, joined⟩ := List.map_eq_append_iff.1 split
    obtain ⟨pair, back, rfl, rfl, rfl⟩ := List.map_eq_cons_iff.1 joined
    have mem : pair ∈ pairs := permuted.mem_iff.1 (by simp)
    obtain ⟨-, -, renamed'⟩ := (mem_moves_iff batch.moved).1 mem
    have target : pair.2 = .ofLocation place :=
      congrArg Prod.snd (Option.some.inj (Except.ok.inj (renamed'.symm.trans renamed)))
    have spelled := congrArg Prod.snd (batch.eq_ofLocation_of_mem_moves sited mem).1
    have reached : tree.site pair.2 = place := congrArg Path.parts (spelled.symm.trans target)
    refine ⟨front.map (sites tree), sites tree pair, back.map (sites tree), by simp, reached, ?_⟩
    intro move mem' same
    obtain ⟨other, late, rfl⟩ := List.mem_map.1 mem'
    exact rest (((site_iff (by simp [late]) place).1 same) ▸ List.mem_map_of_mem late)

/-- In the order in which they are found, a file that has its name from another stays there if its name comes before that of the other. -/
theorem remains_in_order_iff {outer : List String} {name : String} (matched : Wildcard.matchesName ("*" ++ suffix ++ ".js") name = true) :
    Remains tree suffix found (pairs.map Prod.fst) (location ++ outer ++ [name]) ↔
      (tree.lookup (location ++ outer ++ [name]) ≠ none ∧ ¬ Taken tree found (.ofLocation (location ++ outer ++ [name]))) ∨
        ∃ source, Taken tree found source ∧ renamed? suffix source = .ok (some (source, .ofLocation (location ++ outer ++ [name]))) ∧
          (Taken tree found (.ofLocation (location ++ outer ++ [name])) → isBefore (.ofLocation (location ++ outer ++ [name])) source = true) := by
  have ordered : (pairs.map Prod.fst).Pairwise fun a b => isBefore a b = true := (pairwise_of_search batch.searched).sublist (sublist_of_moves batch.moved)
  have taken_iff : Taken tree found (.ofLocation (location ++ outer ++ [name])) ↔ .ofLocation (location ++ outer ++ [name]) ∈ pairs.map Prod.fst := by
    rw [batch.taken_iff sited matched, List.mem_map]
    exact exists_congr fun pair => and_congr_right fun mem => batch.site_eq_iff sited mem
  generalize location ++ outer ++ [name] = place at taken_iff ⊢
  refine or_congr_right ⟨?_, ?_⟩
  · rintro ⟨front, source, back, split, renamed, rest⟩
    have mem : source ∈ pairs.map Prod.fst := by simp [split]
    obtain ⟨pair, listed, rfl⟩ := List.mem_map.1 mem
    obtain ⟨within, file, -⟩ := (mem_moves_iff batch.moved).1 listed
    refine ⟨pair.1, ⟨within, file⟩, renamed, fun taken => ?_⟩
    rw [split, List.pairwise_append] at ordered
    obtain early | late := List.mem_append.1 (split ▸ taken_iff.1 taken)
    · exact ordered.2.2 _ early _ (by simp)
    · obtain same | late := List.mem_cons.1 late
      · rw [same]
        simp [isBefore]
      · exact absurd late rest
  · rintro ⟨source, ⟨within, file⟩, renamed, early⟩
    have mem : (source, Path.ofLocation place) ∈ pairs := (mem_moves_iff batch.moved).2 ⟨within, file, renamed⟩
    obtain ⟨spelled, differs⟩ := batch.eq_ofLocation_of_mem_moves sited mem
    obtain ⟨front, back, split⟩ := List.append_of_mem (List.mem_map_of_mem mem : source ∈ pairs.map Prod.fst)
    refine ⟨front, source, back, split, renamed, fun late => ?_⟩
    rw [split, List.pairwise_append, List.pairwise_cons] at ordered
    have rooted : source.anchor = .root := congrArg (Path.anchor ∘ Prod.fst) spelled
    have second := ordered.2.1.1 _ late
    exact differs (eq_of_isBefore rfl rooted (early (taken_iff.2 (by simp [split, late]))) second)

end Batch

/-- Where something remains, each name is one of an entry. -/
theorem areNames_of_remains (sound : tree.WellFormed) (named : AreNames location)
    (parsed : PathPattern.ofString ("**/*" ++ suffix ++ ".js") = .ok pattern) (searched : tree.search (.ofLocation location) pattern = .ok found)
    (moved : moves tree suffix found = .ok pairs) {outer : List String} {name : String}
    {ordered : List (Path × Path)} (permuted : ordered.Perm pairs)
    (remains : Remains tree suffix found (ordered.map Prod.fst) (location ++ outer ++ [name])) : AreNames outer := by
  obtain ⟨there, -⟩ | ⟨front, source, back, split, renamed, -⟩ := remains
  · exact (areNames_append.1 (areNames_append.1 (sound.areNames there)).1).2
  · obtain ⟨pair, listed, rfl⟩ := List.mem_map.1 (by simp [split] : source ∈ ordered.map Prod.fst)
    obtain ⟨within, file, -⟩ := (mem_moves_iff moved).1 (permuted.mem_iff.1 listed)
    have mem : (pair.1, Path.ofLocation (location ++ outer ++ [name])) ∈ pairs := (mem_moves_iff moved).2 ⟨within, file, renamed⟩
    obtain ⟨outer', name', rest, same, named', -⟩ := exists_of_mem_moves sound named parsed searched moved mem
    have front := (List.append_singleton_inj.1 (congrArg (Path.parts ∘ Prod.snd) same)).1
    exact List.append_cancel_left front ▸ named'

theorem listedOnce_of_moves (once : now.ListedOnce) (ran : pairs.forM (fun pair => moveEntry pair.1 pair.2) now = (.ok (), after)) :
    after.ListedOnce := by
  induction pairs generalizing now with
  | nil =>
    obtain ⟨-, rfl⟩ := Prod.mk.inj ran
    exact once
  | cons pair pairs ih =>
    have parts : (pair :: pairs).forM (fun pair => moveEntry pair.1 pair.2) = (do
        moveEntry pair.1 pair.2
        pairs.forM fun pair => moveEntry pair.1 pair.2) := rfl
    rw [parts] at ran
    obtain ⟨⟨⟩, between, first, ran⟩ := bind_ends_iff.1 ran
    exact ih (once.move (moveEntry_ends_iff.1 first)) ran

end Publisher

namespace Targets

open Publisher

variable {tree after : FileTree} {publisher : Publisher} {suffix : String} {base : Path} {targets : List Path}

/-- An output whose entry is there is complained about just when a script is found by the suffix. -/
theorem verifyOutput_apply {output entry : Path} {pattern : PathPattern} {left : List Path} (filled : suffix ≠ "")
    (parsed : PathPattern.ofString ("**/*" ++ suffix ++ ".js") = .ok pattern) (there : after.asksFile entry = .ok true)
    (searched : after.search output pattern = .ok left) :
    verifyOutput output entry (some suffix) after =
      (if left = [] then .ok entry else .error (.build (.suffixLeft (left.map Path.toString))), after) := by
  have named : (some suffix).filter (· != "") = some suffix := by simp [filled]
  have parsed' : PathPattern.ofString s!"**/*{suffix}.js" = .ok pattern := parsed
  have asked {α ε : Type} {failure : ε → Failure} {question : FileTree → Except ε α} {answer : α} (answered : question after = .ok answer) :
      FileRun.askFor failure question after = (.ok answer, after) := FileRun.askFor_ends_iff.2 ⟨answered, rfl⟩
  rw [verifyOutput_eq, bind_apply, asked there]
  unfold verifyNames
  rw [named]
  simp only [if_true, parsed']
  rw [bind_apply, asked searched]
  cases left <;> rfl

/-- What a check finds below an output after the suffix has been taken out of the names there, in any order, is what remains, and it
complains about that and about nothing else. In the order in which the files are found, `remains_in_order_iff` tells what that is. -/
theorem verifyOutput_after_renameInOrder (sound : tree.WellFormed) (once : tree.ListedOnce) (filled : suffix ≠ "")
    (plain : ∀ c ∈ suffix.toList, c ∉ ['*', '?', '[', '/']) {order : List (Path × Path) → List (Path × Path)}
    (permutes : ∀ list, (order list).Perm list)
    (ended : publisher.renameInOrder order ("**/*" ++ suffix ++ ".js") suffix (some base) tree = (.ok targets, after)) :
    ∃ location pattern found pairs, tree.resolve (publisher.root.join base) = .ok location ∧
      PathPattern.ofString ("**/*" ++ suffix ++ ".js") = .ok pattern ∧ tree.search (.ofLocation location) pattern = .ok found ∧
      moves tree suffix found = .ok pairs ∧
      ∀ output reached, tree.resolve output = .ok location → after.asksDirectory output = .ok reached →
        ∃ left, after.search output pattern = .ok left ∧
          (∀ path, path ∈ left ↔ ∃ outer name, path = output.under (outer ++ [name]) ∧ after.asksDirectory (output.under outer) = .ok true ∧
            Wildcard.matchesName ("*" ++ suffix ++ ".js") name = true ∧ Remains tree suffix found ((order pairs).map Prod.fst) (location ++ outer ++ [name])) ∧
          ∀ entry, after.asksFile entry = .ok true → verifyOutput output entry (some suffix) after =
            (if left = [] then .ok entry else .error (.build (.suffixLeft (left.map Path.toString))), after) := by
  obtain ⟨start, pattern, found, pairs, started, parsed, searched, moved, ran, rfl⟩ := publisher.renameInOrder_ends_iff.1 ended
  obtain ⟨location, resolved, rfl⟩ : ∃ location, tree.resolve (publisher.root.join base) = .ok location ∧ start = .ofLocation location := by
    rcases at_ : tree.resolve (publisher.root.join base) with e | location
    · simp [startOf, at_, Except.map] at started
    · exact ⟨location, rfl, by simpa [startOf, at_, Except.map] using started.symm⟩
  refine ⟨location, pattern, found, pairs, resolved, parsed, searched, moved, fun output reached same asked => ?_⟩
  have permuted := permutes pairs
  have each (pair : Path × Path) (mem : pair ∈ order pairs) := exists_renames sound parsed searched moved (permuted.mem_iff.1 mem)
  obtain ⟨shuffled, carries, sited⟩ := carries_of_moves sound (.refl sound) each ran
  cases reached with
  | false =>
    have searched' : after.search output pattern = .ok [] := by
      unfold search
      rw [asked]
      rfl
    refine ⟨[], searched', fun path => iff_of_false List.not_mem_nil ?_, fun entry there => verifyOutput_apply filled parsed there searched'⟩
    rintro ⟨outer, name, -, asked', -, remains⟩
    have named := areNames_of_remains sound (areNames_resolve sound resolved) parsed searched moved permuted remains
    simp [asksDirectory_of_under shuffled.sound named asked'] at asked
  | true =>
    obtain ⟨place, leads⟩ := asksDirectory_eq_true_iff.1 asked
    have into := shuffled.leadsInto sound (leadsInto_of_entry shuffled.sound leads)
    have whole := into.follow_eq sound ((follow_eq_ok_iff shuffled.sound).1 leads).1
    obtain rfl := Except.ok.inj ((resolve_of_follow sound whole).symm.trans same)
    have batch : Batch tree place suffix pattern found pairs := ⟨sound, once, into.directory, filled, plain, parsed, searched, moved⟩
    have searched' := search_scripts batch.parts (PathPattern.onlyDirectories_of_suffix parsed) asked
    refine ⟨_, searched', fun path => ?_, fun entry there => verifyOutput_apply filled parsed there searched'⟩
    rw [mem_search_scripts_iff (listedOnce_of_moves once ran) shuffled.sound batch.parts (PathPattern.onlyDirectories_of_suffix parsed) leads searched']
    have remains {outer : List String} {name : String} (matched : Wildcard.matchesName ("*" ++ suffix ++ ".js") name = true) :
        after.lookup (place ++ outer ++ [name]) ≠ none ↔ Remains tree suffix found ((order pairs).map Prod.fst) (place ++ outer ++ [name]) := by
      refine batch.lookup_ne_none_iff_remains (fun pair mem => ?_) permuted carries matched
      obtain ⟨directory, old, new, base, placed, -⟩ := sited pair (permuted.mem_iff.2 mem)
      exact ⟨directory, old, new, base, placed⟩
    constructor
    · rintro ⟨outer, name, rfl, asked', there, matched⟩
      exact ⟨outer, name, rfl, asked', matched, (remains matched).1 there⟩
    · rintro ⟨outer, name, rfl, asked', matched, rest⟩
      exact ⟨outer, name, rfl, asked', (remains matched).2 rest, matched⟩

/-- An output with an entry and more. -/
def outputWith (more : List (Location × Entry)) : FileTree where
  entries := [(["p"], .directory), (["p", "out"], .directory), (["p", "out", "index.js"], .file (encode "e"))] ++ more
  workingDirectory := ["p"]

theorem renameInOrder_outputWith_ends {more : List (Location × Entry)} {found : List Path} {pairs : List (Path × Path)}
    {order : List (Path × Path) → List (Path × Path)} (resolved : (outputWith more).resolve (.ofLocation ["p", "out"]) = .ok ["p", "out"])
    (searched : (outputWith more).search (.ofLocation ["p", "out"]) ⟨[.anyDepth, .wildcard ("*" ++ ".web" ++ ".js")], false⟩ = .ok found)
    (moved : moves (outputWith more) ".web" found = .ok pairs)
    (ran : (order pairs).forM (fun pair => moveEntry pair.1 pair.2) (outputWith more) = (.ok (), after)) :
    scriptsPublisher.renameInOrder order ("**/*" ++ ".web" ++ ".js") ".web" (some ⟨.relative, ["out"]⟩) (outputWith more) =
      (.ok (pairs.map Prod.snd), after) := by
  refine renameInOrder_ends_iff _ |>.2 ⟨.ofLocation ["p", "out"], _, _, pairs, ?_, FileTree.Plan.ofString_scripts, searched, moved, ran, rfl⟩
  exact congrArg (Except.map Path.ofLocation) resolved

/-- A script that has the suffix twice loses it for good when the other one, whose name it gets, is renamed after it. -/
theorem verifyOutput_after_renameInOrder_reversed :
    let tree := outputWith [(["p", "out", "a.web.js"], .file (encode "1")), (["p", "out", "a.web.web.js"], .file (encode "2"))]
    tree.WellFormed ∧ tree.ListedOnce ∧ ∃ after,
      scriptsPublisher.renameInOrder List.reverse ("**/*" ++ ".web" ++ ".js") ".web" (some ⟨.relative, ["out"]⟩) tree =
        (.ok [.ofLocation ["p", "out", "a.js"], .ofLocation ["p", "out", "a.web.js"]], after) ∧
      verifyOutput (.ofLocation ["p", "out"]) (.ofLocation ["p", "out", "index.js"]) (some ".web") after =
        (.ok (.ofLocation ["p", "out", "index.js"]), after) := by
  intro tree
  have sound : tree.WellFormed := wellFormed_of_entries (by decide) (by decide)
  have once : tree.ListedOnce := (by decide : (tree.entries.map Prod.fst).Nodup)
  have resolved : tree.resolve (.ofLocation ["p", "out"]) = .ok ["p", "out"] := eq_ok_of_toOption (by decide +kernel)
  have searched : tree.search (.ofLocation ["p", "out"]) ⟨[.anyDepth, .wildcard ("*" ++ ".web" ++ ".js")], false⟩ =
      .ok [.ofLocation ["p", "out", "a.web.js"], .ofLocation ["p", "out", "a.web.web.js"]] :=
    search_of_sorted (eq_ok_of_toOption (by decide +kernel)) (eq_ok_of_toOption (by decide +kernel)) (by decide)
  have moved : moves tree ".web" [.ofLocation ["p", "out", "a.web.js"], .ofLocation ["p", "out", "a.web.web.js"]] =
      .ok [(.ofLocation ["p", "out", "a.web.js"], .ofLocation ["p", "out", "a.js"]),
        (.ofLocation ["p", "out", "a.web.web.js"], .ofLocation ["p", "out", "a.web.js"])] :=
    eq_ok_of_toOption (by decide +kernel)
  have ended := @renameInOrder_outputWith_ends _ _ _ _ List.reverse resolved searched moved (Prod.ext (eq_ok_of_toOption (by decide +kernel)) rfl)
  obtain ⟨location, pattern, found, pairs, resolved', parsed, -, -, checked⟩ :=
    verifyOutput_after_renameInOrder sound once (by decide) (by simp) (fun list => list.reverse_perm) ended
  obtain rfl := Except.ok.inj (resolved.symm.trans resolved')
  obtain rfl := Except.ok.inj (FileTree.Plan.ofString_scripts.symm.trans parsed)
  obtain ⟨left, searched', -, verified⟩ := checked (.ofLocation ["p", "out"]) true resolved (eq_ok_of_toOption (by decide +kernel))
  obtain rfl := Except.ok.inj ((search_of_sorted (eq_ok_of_toOption (by decide +kernel)) (eq_ok_of_toOption (by decide +kernel)) List.Pairwise.nil).symm.trans
    searched')
  exact ⟨sound, once, _, ended, verified _ (eq_ok_of_toOption (by decide +kernel))⟩

/-- A directory is not renamed, and is complained about. -/
theorem verifyOutput_rejects_directory :
    let tree := outputWith [(["p", "out", "lib.web.js"], .directory), (["p", "out", "lib.web.js", "x.js"], .file (encode "x"))]
    scriptsPublisher.moveAndRename ("**/*" ++ ".web" ++ ".js") ".web" (some ⟨.relative, ["out"]⟩) tree = (.ok [], tree) ∧
      tree.asksFile (.ofLocation ["p", "out", "index.js"]) = .ok true ∧
      verifyOutput (.ofLocation ["p", "out"]) (.ofLocation ["p", "out", "index.js"]) (some ".web") tree =
        (.error (.build (.suffixLeft ["/p/out/lib.web.js"])), tree) := by
  intro tree
  have resolved : tree.resolve (.ofLocation ["p", "out"]) = .ok ["p", "out"] := eq_ok_of_toOption (by decide +kernel)
  have searched : tree.search (.ofLocation ["p", "out"]) ⟨[.anyDepth, .wildcard ("*" ++ ".web" ++ ".js")], false⟩ =
      .ok [.ofLocation ["p", "out", "lib.web.js"]] :=
    search_of_sorted (eq_ok_of_toOption (by decide +kernel)) (eq_ok_of_toOption (by decide +kernel)) (by decide)
  have moved : moves tree ".web" [.ofLocation ["p", "out", "lib.web.js"]] = .ok [] := eq_ok_of_toOption (by decide +kernel)
  have there : tree.asksFile (.ofLocation ["p", "out", "index.js"]) = .ok true := eq_ok_of_toOption (by decide +kernel)
  exact ⟨renameInOrder_outputWith_ends resolved searched moved rfl, there, verifyOutput_apply (by decide) FileTree.Plan.ofString_scripts there searched⟩

end Targets

end WasmPackaging
