import WasmPackaging.Proofs.FileTree.LikeCopies
import WasmPackaging.Proofs.FileTree.ScriptSearch
import WasmPackaging.Proofs.Targets.PublishedLoader

/-!
Publishing that two runs do alike. Questions that depend on the working directory alone have one answer in all trees of a
plan (`Plan.Asks`), so the places of a batch are the same in both runs; then each copy is repeated (`repeats_copies`), and so
is each move of a script, since no script that is moved away stood there before (`repeats_renameScripts`).
-/

namespace WasmPackaging

open Text FileTree

/-! ## Batches -/

theorem attemptAll_ends_iff {runs : List (FileRun Unit)} {before after : FileTree} :
    attemptAll runs before = (.ok (), after) ↔ runs.forM id before = (.ok (), after) := by
  induction runs generalizing before with
  | nil => rfl
  | cons run runs ih =>
    rw [attemptAll_apply]
    have next : (run :: runs).forM id = run >>= fun _ => runs.forM id := rfl
    rw [next, bind_apply]
    rcases run before with ⟨failure | _, between⟩
    · constructor <;> intro same <;> cases (Prod.mk.inj same).1
    · exact ih

namespace FileTree.Plan

variable {plan : Plan} {α β : Type}

theorem repeats_attemptAll {runs : List (FileRun Unit)} (each : ∀ run ∈ runs, plan.Repeats run run) :
    plan.Repeats (attemptAll runs) (attemptAll runs) := by
  have all : plan.Repeats (runs.forM id) (runs.forM id) := .forM runs each
  rintro before after ⟨⟩ holds ended
  obtain ⟨held, carried⟩ := all holds (attemptAll_ends_iff.1 ended)
  refine ⟨held, fun leads => ?_⟩
  obtain ⟨leads, now⟩ := carried leads
  refine ⟨leads, fun before' related => ?_⟩
  obtain ⟨after', ended', related'⟩ := now before' related
  exact ⟨after', attemptAll_ends_iff.2 ended', related'⟩

/-! ## Questions with one answer -/

/-- An action changes no tree of the plan, and it succeeds in all of them or in none, always with one answer. -/
def Asks (plan : Plan) (act : FileRun α) (value : α) : Prop :=
  ∃ succeeds : Prop, ∀ tree, plan.Holds tree → ∀ answer after, act tree = (.ok answer, after) ↔ succeeds ∧ answer = value ∧ after = tree

namespace Asks

variable {act : FileRun α} {value : α} {other : β}

theorem pure (value : α) : plan.Asks (Pure.pure value) value := by
  refine ⟨True, fun tree _ answer after => ?_⟩
  constructor
  · intro ended
    obtain ⟨same, rfl⟩ := Prod.mk.inj ended
    exact ⟨trivial, (Except.ok.inj same).symm, rfl⟩
  · rintro ⟨-, rfl, rfl⟩
    rfl

theorem bind {next : α → FileRun β} (first : plan.Asks act value) (second : plan.Asks (next value) other) : plan.Asks (act >>= next) other := by
  obtain ⟨succeeds, first⟩ := first
  obtain ⟨succeeds', second⟩ := second
  refine ⟨succeeds ∧ succeeds', fun tree holds answer after => ?_⟩
  rw [bind_ends_iff]
  constructor
  · rintro ⟨a, between, asked, ended⟩
    obtain ⟨holds', rfl, rfl⟩ := (first tree holds a between).1 asked
    obtain ⟨holds'', rfl, rfl⟩ := (second between holds answer after).1 ended
    exact ⟨⟨holds', holds''⟩, rfl, rfl⟩
  · rintro ⟨⟨holds', holds''⟩, rfl, rfl⟩
    exact ⟨value, after, (first after holds value after).2 ⟨holds', rfl, rfl⟩, (second after holds answer after).2 ⟨holds'', rfl, rfl⟩⟩

/-- A question for the tree that has one answer in all trees of the plan. -/
theorem get {question : FileTree → β} {next : β → FileRun α} (known : ∀ tree, plan.Holds tree → question tree = other)
    (rest : plan.Asks (next other) value) : plan.Asks (MonadState.get >>= fun tree => next (question tree)) value := by
  obtain ⟨succeeds, rest⟩ := rest
  refine ⟨succeeds, fun tree holds answer after => ?_⟩
  have ran : ((MonadState.get : FileRun FileTree) >>= fun tree => next (question tree)) tree = next other tree := known tree holds ▸ rfl
  exact ran ▸ rest tree holds answer after

theorem mapM {f : α → FileRun β} {value : α → β} (list : List α) (each : ∀ a ∈ list, plan.Asks (f a) (value a)) :
    plan.Asks (list.mapM f) (list.map value) := by
  induction list with
  | nil =>
    rw [List.mapM_nil]
    exact pure []
  | cons a list ih =>
    obtain ⟨first, rest⟩ := List.forall_mem_cons.1 each
    rw [List.mapM_cons]
    exact bind first (bind (ih rest) (pure _))

/-- What follows a question goes on from its one answer. -/
theorem onwardGiven {next next' : α → FileRun β} {fact : FileTree → Prop} {p : Pairing FileTree} (asks : plan.Asks act value)
    (rest : Simulates (plan.pairing.given fact) p (next value) (next' value)) :
    Simulates (plan.pairing.given fact) p (act >>= next) (act >>= next') := by
  obtain ⟨succeeds, asks⟩ := asks
  intro before after answer holds ran
  obtain ⟨a, between, asked, ended⟩ := bind_ends_iff.1 ran
  obtain ⟨succeeded, rfl, rfl⟩ := (asks before holds.1 a between).1 asked
  obtain ⟨held, carried⟩ := rest holds ended
  refine ⟨held, fun leads => ?_⟩
  obtain ⟨leads, now⟩ := carried leads
  refine ⟨leads, fun before' related => ?_⟩
  obtain ⟨after', ended', related'⟩ := now before' related
  exact ⟨after', bind_ends_iff.2 ⟨a, before', (asks before' related.holds a before').2 ⟨succeeded, rfl, rfl⟩, ended'⟩, related'⟩

theorem onward {next next' : α → FileRun β} {p : Pairing FileTree} (asks : plan.Asks act value)
    (rest : Simulates plan.pairing p (next value) (next' value)) : Simulates plan.pairing p (act >>= next) (act >>= next') := by
  have whole : Simulates (plan.pairing.given fun _ => True) p (act >>= next) (act >>= next') := asks.onwardGiven rest.given
  exact fun _ _ _ holds ended => whole ⟨holds, trivial⟩ ended

theorem simulates (asks : plan.Asks act value) : plan.Repeats act act := by
  rw [← bind_pure act]
  exact asks.onward (.pure _ _)

theorem resolve (path : Path) : plan.Asks (FileRun.resolve path) (.ofLocation (plan.base.straight path)) := by
  refine ⟨path.holdsZero = false, fun tree holds answer after => ?_⟩
  have spelled : tree.straight path = plan.base.straight path := straight_congr holds.working path
  rw [FileRun.resolve_apply]
  constructor
  · intro ended
    obtain ⟨answered, rfl⟩ := Prod.mk.inj ended
    rcases resolved : tree.resolve path with e | location
    · rw [resolved] at answered
      cases answered
    · obtain ⟨zero, rfl⟩ := holds.free.straight_of_resolve resolved
      rw [resolved] at answered
      exact ⟨zero, by rw [← spelled]; exact (Except.ok.inj answered).symm, rfl⟩
  · rintro ⟨zero, rfl, rfl⟩
    rw [holds.free.resolve_eq zero, spelled]
    rfl

theorem place (publisher : Publisher) (path : Path) :
    plan.Asks (publisher.place path) (.ofLocation (plan.base.straight (publisher.root.join path))) := resolve _

/-- The places of a batch. -/
theorem places (publisher : Publisher) (mapping : List (Path × Path)) :
    plan.Asks (mapping.mapM fun (source, target) => do return (← publisher.place source, ← publisher.place target))
      (mapping.map fun pair => (Path.ofLocation (plan.base.straight (publisher.root.join pair.1)),
        Path.ofLocation (plan.base.straight (publisher.root.join pair.2)))) :=
  mapM mapping fun pair _ => (place publisher pair.1).bind ((place publisher pair.2).bind (pure _))

end Asks

/-! ## Copies -/

/-- The entries of a batch are copied by both runs. -/
theorem repeats_copies (publisher : Publisher) (mapping : List (Path × Path)) (ignored : List String)
    (each : ∀ pair ∈ mapping, plan.Repeats
      (FileTask.copy ignored (.ofLocation (plan.base.straight (publisher.root.join pair.1))) (.ofLocation (plan.base.straight (publisher.root.join pair.2))))
      (FileTask.copy ignored (.ofLocation (plan.base.straight (publisher.root.join pair.1))) (.ofLocation (plan.base.straight (publisher.root.join pair.2))))) :
    plan.Repeats (publisher.copy mapping ignored) (publisher.copy mapping ignored) := by
  refine (Asks.places publisher mapping).onward ?_
  refine (repeats_attemptAll fun run mem => ?_).bind fun _ => .pure _ _
  obtain ⟨_, listed, rfl⟩ := List.mem_map.1 mem
  obtain ⟨pair, given, rfl⟩ := List.mem_map.1 listed
  exact (each pair given).adapt.adapt

/-! ## Scripts that are renamed -/

theorem ofString_scripts : PathPattern.ofString ("**/*" ++ ".web" ++ ".js") = .ok ⟨[.anyDepth, .wildcard ("*" ++ ".web" ++ ".js")], false⟩ :=
  eq_ok_of_toOption (by decide)

theorem mapM_eq_of_forall {ε : Type} {f g : α → Except ε β} {list : List α} (same : ∀ a ∈ list, f a = g a) : list.mapM f = list.mapM g := by
  induction list with
  | nil => rfl
  | cons a list ih =>
    obtain ⟨first, rest⟩ := List.forall_mem_cons.1 same
    rw [List.mapM_cons, List.mapM_cons, first, ih rest]

/-- A directory in which the second run finds the same scripts: what it has from before is no script with the suffix of the
platform. -/
structure Tidy (plan : Plan) (location : Location) : Prop where
  lays : plan.Lays location
  scripts : ∀ outer name, Wildcard.matchesName ("*" ++ ".web" ++ ".js") name = true → plan.spare (location ++ outer ++ [name]) = none

variable {location : Location} {tree other : FileTree}

theorem Tidy.known (tidy : plan.Tidy location) (rest : List String) : plan.Known (location ++ rest) := (tidy.lays.writes rest).known

theorem Tidy.search (tidy : plan.Tidy location) (holds : plan.Holds tree) (related : plan.Relates tree other)
    (directory : tree.lookup location = some .directory) {found : List Path}
    (searched : tree.search (.ofLocation location) ⟨[.anyDepth, .wildcard ("*" ++ ".web" ++ ".js")], false⟩ = .ok found) :
    other.search (.ofLocation location) ⟨[.anyDepth, .wildcard ("*" ++ ".web" ++ ".js")], false⟩ = .ok found := by
  refine search_scripts_congr rfl rfl holds.sound holds.free related.holds.sound related.holds.free directory
    (related.present (by simpa using tidy.known []) directory) (fun rest entry => related.present (tidy.known rest)) ?_ searched
  intro outer name vacant there
  have known := tidy.known (outer ++ [name])
  rw [← List.append_assoc] at known
  rw [related.lookup known, vacant, Option.none_or] at there
  exact Bool.eq_false_iff.2 fun matched => there (tidy.scripts outer name matched)

theorem Tidy.moves (tidy : plan.Tidy location) (holds : plan.Holds tree) (related : plan.Relates tree other) {found : List Path}
    (searched : tree.search (.ofLocation location) ⟨[.anyDepth, .wildcard ("*" ++ ".web" ++ ".js")], false⟩ = .ok found) (suffix : String) :
    Publisher.moves other suffix found = Publisher.moves tree suffix found := by
  unfold Publisher.moves
  rw [mapM_eq_of_forall fun path mem => ?_]
  obtain ⟨outer, name, entry, rfl, present⟩ := exists_entry_of_mem_search rfl rfl holds.sound holds.free tidy.lays.reaches.named searched mem
  have known := tidy.known (outer ++ [name])
  rw [← List.append_assoc] at known
  unfold asksFile asks
  rw [follow_eq_of_present holds.sound holds.free related.holds.sound related.holds.free present (related.present known present)]

/-- A script is renamed by both runs. -/
theorem Tidy.moveEntry (tidy : plan.Tidy location) {outer : List String} {name : String} {renamed : List Char} (valid : AreNames outer)
    (valid' : IsEntryName name) (matched : Wildcard.matchesName ("*" ++ ".web" ++ ".js") name = true)
    (cut : withoutLast? ".web".toList name.toList = some renamed) :
    plan.Repeats (Publisher.moveEntry (.ofLocation (location ++ outer ++ [name])) (.ofLocation (location ++ outer ++ [String.ofList renamed])))
      (Publisher.moveEntry (.ofLocation (location ++ outer ++ [name])) (.ofLocation (location ++ outer ++ [String.ofList renamed]))) := by
  obtain ⟨stem, ending, same, renamed'⟩ := exists_stem_of_renamed valid' matched cut
  have inner : plan.Lays (location ++ outer) := tidy.lays.below valid
  have apart : location ++ outer ++ [name] ≠ location ++ outer ++ [String.ofList renamed] := by
    intro whole
    obtain rfl := (List.append_singleton_inj.1 whole).2
    rw [String.toList_ofList, same] at ending
    have ends := List.append_cancel_left ending
    exact absurd ends (by decide)
  exact (repeats_move (inner.child valid').takes.named (inner.child valid').takes.files (tidy.scripts outer name matched)
    (inner.child renamed').takes apart).adapt.adapt

/-- Scripts are renamed alike in a directory that is there. -/
theorem repeats_renameScripts (publisher : Publisher) (tidy : plan.Tidy location) :
    Simulates (plan.pairing.given fun tree => tree.lookup location = some .directory) plan.pairing
      (publisher.moveAndRename ("**/*" ++ ".web" ++ ".js") ".web" (some (.ofLocation location)))
      (publisher.moveAndRename ("**/*" ++ ".web" ++ ".js") ".web" (some (.ofLocation location))) := by
  have named := tidy.lays.reaches.named
  have spelled : plan.base.straight (publisher.root.join (.ofLocation location)) = location := straight_join_ofLocation _ _ named
  have start : plan.Asks (publisher.place (.ofLocation location)) (.ofLocation location) := by
    have placed := @Asks.place plan publisher (.ofLocation location)
    rwa [spelled] at placed
  -- what was found, and what is to be moved, is known of the tree in which it was asked for
  have searches (before after : FileTree) (found : List Path) (_ : (plan.pairing.given fun tree => tree.lookup location = some .directory).holds before)
      (ended : FileRun.askFor .refused (·.search (.ofLocation location) ⟨[.anyDepth, .wildcard ("*" ++ ".web" ++ ".js")], false⟩) before =
        (.ok found, after)) : after.search (.ofLocation location) ⟨[.anyDepth, .wildcard ("*" ++ ".web" ++ ".js")], false⟩ = .ok found := by
    obtain ⟨searched, rfl⟩ := FileRun.askFor_ends_iff.1 ended
    exact searched
  have moves (found : List Path) (before after : FileTree) (pairs : List (Path × Path))
      (holds : ((plan.pairing.given fun tree => tree.lookup location = some .directory).given fun tree =>
        tree.search (.ofLocation location) ⟨[.anyDepth, .wildcard ("*" ++ ".web" ++ ".js")], false⟩ = .ok found).holds before)
      (ended : FileRun.askFor id (Publisher.moves · ".web" found) before = (.ok pairs, after)) :
      ∀ pair ∈ pairs, plan.Repeats (Publisher.moveEntry pair.1 pair.2) (Publisher.moveEntry pair.1 pair.2) := by
    intro pair mem
    obtain ⟨moved, rfl⟩ := FileRun.askFor_ends_iff.1 ended
    obtain ⟨outer, name, renamed, rfl, valid, valid', matched, cut, -⟩ :=
      Publisher.exists_of_mem_moves holds.1.1.sound named ofString_scripts holds.2 moved mem
    exact tidy.moveEntry valid valid' matched cut
  unfold Publisher.moveAndRename
  rw [ofString_scripts]
  refine start.onwardGiven ?_
  refine Simulates.bindWith (.askFor fun tree other found holds related searched => tidy.search holds.1 related holds.2 searched) searches
    fun found => ?_
  refine Simulates.bindWith (.askFor fun tree other pairs holds related moved => ?_) (moves found) fun pairs => ?_
  · exact (tidy.moves holds.1.1 related holds.2 ".web").trans moved
  · refine .assume (fun _ holds => holds.2) fun each => ?_
    refine .given (.given (.given ((repeats_attemptAll fun run mem => ?_).bind fun _ => .pure _ _)))
    obtain ⟨pair, listed, rfl⟩ := List.mem_map.1 mem
    exact each pair listed

/-! ## Temporary files -/

/-- A file that can be deleted, and is gone. -/
def Gone (location : Location) (tree : FileTree) : Prop := Fits location ∧ tree.lookup location = none

theorem simulates_deleteTemporary (publisher : Publisher) (named : AreNames location) (files : plan.Files location)
    (vacant : plan.spare location = none) :
    Simulates plan.pairing (plan.pairing.given (Gone location)) (publisher.deleteTemporary (.ofLocation location))
      (publisher.deleteTemporary (.ofLocation location)) := by
  have placed : plan.Asks (publisher.place (.ofLocation location)) (.ofLocation location) := by
    have placed := @Asks.place plan publisher (.ofLocation location)
    rwa [straight_join_ofLocation _ _ named] at placed
  refine placed.onward (.adapt (.adapt ((repeats_unlink named files vacant).known fun before after answer holds ended => ?_)))
  obtain ⟨fits, ⟨content, file⟩, rfl⟩ := (unlink_ofLocation_iff holds.sound holds.free named).1 (FileTask.change_ends_iff.1 ended)
  have filled : location ≠ [] := @ne_nil_of_lookup before location (by simp [file])
  exact ⟨fits, by rw [before.lookup_erase filled, if_pos rfl]⟩

end FileTree.Plan

open FileTree.Plan

theorem discard_of_gone {tree : FileTree} (sound : tree.WellFormed) (free : tree.LinkFree) {location : Location} (named : AreNames location)
    (gone : Gone location tree) (inside : tree.lookup location.dropLast = some .directory) :
    Publisher.discard (.ofLocation location) tree = (.ok (), tree) := by
  have asked : tree.asksEntry (.ofLocation location) = .ok false := by
    unfold asksEntry asks
    rw [(follow_vacant_iff sound free named).2 ⟨gone.1, rfl, gone.2, inside⟩]
  unfold Publisher.discard
  rw [bind_apply, FileRun.askFor_apply, asked]
  rfl

/-- An action with a temporary file succeeds when the file has a place, the action succeeds, and the file can be discarded. -/
theorem Publisher.withTemporary_ends_iff {τ α : Type} {publisher : Publisher} {path : Path} {act : Path → Run τ α} {world after : World τ}
    {answer : α} : publisher.withTemporary path act world = (.ok answer, after) ↔
      ∃ target between files, publisher.place path world.files = (.ok target, world.files) ∧ act target world = (.ok answer, between) ∧
        discard target between.files = (.ok (), files) ∧ after = { between with files } := by
  have still : (publisher.place path world.files).2 = world.files := by
    unfold place FileRun.resolveIn
    rw [FileRun.resolve_apply]
  unfold withTemporary
  rcases placed : publisher.place path world.files with ⟨_ | target, files⟩ <;> rw [placed] at still
  · rw [bind_apply]
    simp only [liftM, Run.onFiles_apply, placed]
    constructor
    · intro ended
      cases (Prod.mk.inj ended).1
    · rintro ⟨_, _, _, found, -⟩
      cases (Prod.mk.inj found).1
  · obtain rfl : files = world.files := still
    rw [bind_apply]
    simp only [liftM, tryFinally_apply, Run.onFiles_apply, placed]
    rcases ran : act target world with ⟨result, last⟩
    rcases gone : discard target last.files with ⟨_ | _, final⟩
    · simp only
      constructor
      · intro ended
        cases (Prod.mk.inj ended).1
      · rintro ⟨target, between, files, same, ended, gone', -⟩
        obtain rfl := Except.ok.inj (Prod.mk.inj same).1
        obtain ⟨-, rfl⟩ := Prod.mk.inj (ran.symm.trans ended)
        rw [gone] at gone'
        cases (Prod.mk.inj gone').1
    · simp only
      constructor
      · intro ended
        obtain ⟨rfl, rfl⟩ := Prod.mk.inj ended
        exact ⟨target, last, final, rfl, ran, gone, rfl⟩
      · rintro ⟨target, between, files, same, ended, gone', rfl⟩
        obtain rfl := Except.ok.inj (Prod.mk.inj same).1
        obtain ⟨rfl, rfl⟩ := Prod.mk.inj (ran.symm.trans ended)
        obtain ⟨-, rfl⟩ := Prod.mk.inj (gone.symm.trans gone')
        rfl

end WasmPackaging
