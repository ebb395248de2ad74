import WasmPackaging.Proofs.Targets.CompleteResults
import WasmPackaging.Proofs.Targets.Independence
import WasmPackaging.Proofs.Targets.Leftovers

/-!
The files that a result lists. With tools that delete nothing, those of the server target are there at the end. The edge target
lists its assets and its loader under the names to which they were copied, and then renames all scripts with the platform's suffix:
what is listed is there at the end unless it has such a name, or is the temporary loader (`listed_files_exist`). An asset with such a
name is listed and is not there (`buildEdge_lists_missing`).
-/

namespace WasmPackaging

open Text FileTree Bundling

/-! ## Scripts of a directory without links -/

namespace FileTree

variable {tree now after : FileTree}

/-- Every link of a tree was there before, with the same target. -/
def NoNewLinks (tree now : FileTree) : Prop := ∀ place target, now.lookup place = some (.link target) → tree.lookup place = some (.link target)

theorem Extends.noNewLinks {allowed : Location → Prop} (more : Extends allowed tree now) : NoNewLinks tree now :=
  fun place target there => (more.link place target).1 there

theorem NoNewLinks.trans (first : NoNewLinks tree now) (second : NoNewLinks now after) : NoNewLinks tree after :=
  fun place target there => first place target (second place target there)

theorem Unlinked.of_noNewLinks {location : Location} (unlinked : tree.Unlinked location) (links : NoNewLinks tree now) :
    now.Unlinked location :=
  fun place within target there => unlinked place within target (links place target there)

theorem Bare.of_noNewLinks {location : Location} (bare : tree.Bare location) (links : NoNewLinks tree now) : now.Bare location :=
  ⟨bare.way.of_noNewLinks links, fun parts target there => bare.below parts target (links _ target there)⟩

end FileTree

namespace Publisher

variable {publisher : Publisher} {tree after : FileTree} {suffix : String} {location : Location}

/-- A place that no link leads away from is resolved to itself, wherever the project is. -/
theorem eq_of_resolve_join (publisher : Publisher) (unlinked : tree.Unlinked location) (named : AreNames location) {place : Location}
    (resolved : tree.resolve (publisher.root.join (.ofLocation location)) = .ok place) : place = location := by
  rw [Path.join_of_isAbsolute _ rfl] at resolved
  exact unlinked.resolve_eq named resolved

/-- A place below a directory has the name of a script with a suffix. -/
def Suffixed (suffix : String) (location place : Location) : Prop :=
  suffix ≠ "" ∧ '/' ∉ suffix.toList ∧
    ∃ outer name, place = location ++ outer ++ [name] ∧ Wildcard.matchesName ("*" ++ suffix ++ ".js") name = true

theorem Suffixed.matched {front : Location} {name : String} (suffixed : Suffixed suffix location (front ++ [name])) :
    Wildcard.matchesName ("*" ++ suffix ++ ".js") name = true := by
  obtain ⟨-, -, outer, name', same, matched⟩ := suffixed
  obtain ⟨-, last⟩ := List.append_inj' same rfl
  rwa [List.singleton_inj.1 last]

/-- What the renaming of the scripts below a directory comes to: no link is made, and all that has no name of such a script is kept. -/
structure Tidied (tree : FileTree) (suffix : String) (location : Location) (targets : List Path) (after : FileTree) : Prop where
  sound : after.WellFormed
  links : NoNewLinks tree after
  present : ∀ place, ¬ Suffixed suffix location place → tree.lookup place ≠ none ∨ .ofLocation place ∈ targets → after.lookup place ≠ none
  fits : ∀ place, .ofLocation place ∈ targets → Fits place

/-- A file in a directory, with the name of a script, is given another name there. -/
structure MovesScript (tree : FileTree) (suffix : String) (directory : Location) (name renamed : String) (pair : Path × Path) : Prop where
  spelled : pair = (.ofLocation (directory ++ [name]), .ofLocation (directory ++ [renamed]))
  sites : sites tree pair = (directory ++ [name], directory ++ [renamed])
  file : tree.HoldsFile (directory ++ [name])
  fits : Fits (directory ++ [renamed])
  plain : '/' ∉ suffix.toList
  matched : Wildcard.matchesName ("*" ++ suffix ++ ".js") name = true
  still : suffix = "" → renamed = name

theorem withoutLast?_nil (name : List Char) : withoutLast? [] name = some name := by
  have still (s : List Char) : replaceFirst [] [] s = s := by cases s <;> simp [replaceFirst]
  have stands : standsIn [] name = true := standsIn_iff_isInfix.2 List.nil_infix
  simp [withoutLast?, stands, still]

/-- The files that are renamed below a directory without links are scripts in it and in the directories below. -/
theorem exists_movesScript {pattern : PathPattern} {found : List Path} {pairs : List (Path × Path)} (sound : tree.WellFormed)
    (bare : tree.Bare location) (named : AreNames location) (parsed : PathPattern.ofString ("**/*" ++ suffix ++ ".js") = .ok pattern)
    (searched : tree.search (.ofLocation location) pattern = .ok found) (moved : moves tree suffix found = .ok pairs) {pair : Path × Path}
    (mem : pair ∈ pairs) {directory : Path} {old new : String} {base : Location} (sited : tree.Sited pair directory old new base) :
    ∃ outer name renamed, MovesScript tree suffix (location ++ outer) name renamed pair := by
  obtain ⟨outer, name, renamed, rfl, named', valid, matched, cut, asked⟩ := exists_of_mem_moves sound named parsed searched moved mem
  obtain ⟨place, content, leads⟩ := asksFile_eq_true_iff.1 asked
  have whole : AreNames (location ++ outer ++ [name]) := areNames_append.2 ⟨areNames_append.2 ⟨named, named'⟩, by simpa using valid⟩
  obtain ⟨fits, rfl, there⟩ := (((bare.append outer).unlinked [name]).follow_entry_iff sound whole).1 leads
  have inside : tree.lookup (location ++ outer) = some .directory := sound.parent _ _ (by rw [there]; exact Option.some_ne_none _)
  have into := leadsInto_of_entry sound
    (((unlinked_of_directory sound inside).follow_entry_iff sound fits.above.named).2 ⟨fits.above, rfl, inside⟩)
  have spelled : Path.ofLocation (location ++ outer ++ [String.ofList renamed]) = (Path.ofLocation (location ++ outer)).under [String.ofList renamed] := rfl
  refine ⟨outer, name, String.ofList renamed, rfl, sites_ofLocation into sited, ⟨content, there⟩, ?_, ?_, matched, ?_⟩
  · obtain ⟨-, rfl⟩ := Path.under_inj.1 (spelled.symm.trans sited.renames.target)
    refine ⟨areNames_append.2 ⟨fits.above.named, by simpa using sited.valid⟩, sited.fine.2, fun step mem => ?_⟩
    obtain above | last := List.mem_append.1 mem
    · exact fits.above.steps step above
    · exact List.mem_singleton.1 last ▸ sited.steps.2
  · exact fun slash => valid.2.2 ((subset_of_withoutLast? cut).1 slash)
  · rintro rfl
    obtain rfl := Option.some.inj ((withoutLast?_nil _).symm.trans cut)
    exact String.ofList_toList

section

variable {pairs : List (Path × Path)} {place : Location} (carries : Carries tree.lookup (pairs.map (sites tree)) after.lookup)
  (scripts : ∀ pair ∈ pairs, ∃ outer name renamed, MovesScript tree suffix (location ++ outer) name renamed pair)

include scripts

theorem exists_movesScript_of_site {move : Location × Location} (mem : move ∈ pairs.map (sites tree)) :
    ∃ outer name renamed pair, MovesScript tree suffix (location ++ outer) name renamed pair ∧
      move = (location ++ outer ++ [name], location ++ outer ++ [renamed]) := by
  obtain ⟨pair, listed, rfl⟩ := List.mem_map.1 mem
  obtain ⟨outer, name, renamed, moves⟩ := scripts pair listed
  exact ⟨outer, name, renamed, pair, moves, moves.sites⟩

theorem exists_movesScript_of_target (listed : .ofLocation place ∈ pairs.map Prod.snd) :
    ∃ pair ∈ pairs, ∃ outer name renamed, MovesScript tree suffix (location ++ outer) name renamed pair ∧
      location ++ outer ++ [renamed] = place := by
  obtain ⟨pair, mem, same⟩ := List.mem_map.1 listed
  obtain ⟨outer, name, renamed, moves⟩ := scripts pair mem
  rw [moves.spelled] at same
  exact ⟨pair, mem, outer, name, renamed, moves, congrArg Path.parts same⟩

include carries

theorem noNewLinks_of_scripts : NoNewLinks tree after := by
  intro place target there
  obtain ⟨other, link, rfl | ⟨move, mem, rfl⟩⟩ := carries.exists_of_lookup there
  · exact link
  · obtain ⟨outer, name, renamed, pair, moves, rfl⟩ := exists_movesScript_of_site scripts mem
    obtain ⟨content, file⟩ := moves.file
    rw [file] at link
    cases link

/-- Without a suffix every file keeps its name. -/
theorem lookup_eq_of_noSuffix (blank : suffix = "") : after.lookup = tree.lookup := by
  refine carries.eq_of_still fun move mem => ?_
  obtain ⟨outer, name, renamed, pair, moves, rfl⟩ := exists_movesScript_of_site scripts mem
  rw [moves.still blank]

/-- What has no name of a script with the suffix is still there, and what is reached by a move is there then. -/
theorem lookup_ne_none_of_scripts (free : ¬ Suffixed suffix location place)
    (there : tree.lookup place ≠ none ∨ .ofLocation place ∈ pairs.map Prod.snd) : after.lookup place ≠ none := by
  by_cases blank : suffix = ""
  · rw [lookup_eq_of_noSuffix carries scripts blank]
    obtain there | listed := there
    · exact there
    · obtain ⟨pair, mem, outer, name, renamed, moves, rfl⟩ := exists_movesScript_of_target scripts listed
      obtain ⟨content, file⟩ := moves.file
      rw [moves.still blank, file]
      exact Option.some_ne_none _
  · have unmoved : ∀ move ∈ pairs.map (sites tree), move.1 ≠ place := by
      rintro move mem rfl
      obtain ⟨outer, name, renamed, pair, moves, rfl⟩ := exists_movesScript_of_site scripts mem
      exact free ⟨blank, moves.plain, outer, name, rfl, moves.matched⟩
    rw [carries.present_iff]
    refine there.imp (fun there => ⟨there, unmoved⟩) fun listed => ?_
    obtain ⟨pair, mem, outer, name, renamed, moves, rfl⟩ := exists_movesScript_of_target scripts listed
    obtain ⟨front, back, rfl⟩ := List.append_of_mem mem
    refine ⟨front.map (sites tree), sites tree pair, back.map (sites tree), by simp, by rw [moves.sites], fun move later => unmoved move ?_⟩
    simp only [List.map_append, List.map_cons, List.mem_append, List.mem_cons]
    exact .inr (.inr later)

end

/-- The scripts below a directory without links are renamed without loss of anything else. -/
theorem tidied_of_moveAndRename {targets : List Path} (sound : tree.WellFormed) (bare : tree.Bare location) (named : AreNames location)
    (ended : publisher.moveAndRename ("**/*" ++ suffix ++ ".js") suffix (some (.ofLocation location)) tree = (.ok targets, after)) :
    Tidied tree suffix location targets after := by
  rw [moveAndRename_eq, renameInOrder_ends_iff] at ended
  obtain ⟨start, pattern, found, pairs, started, parsed, searched, moved, ran, rfl⟩ := ended
  obtain rfl : start = .ofLocation location := by
    simp only [startOf] at started
    rcases resolved : tree.resolve (publisher.root.join (.ofLocation location)) with e | place <;> rw [resolved] at started
    · cases started
    · obtain rfl := publisher.eq_of_resolve_join bare.way named resolved
      exact (Except.ok.inj started).symm
  have each (pair : Path × Path) (mem : pair ∈ pairs) := exists_renames sound parsed searched moved mem
  obtain ⟨shuffled, carries, sited⟩ := carries_of_moves sound (.refl sound) each ran
  have scripts : ∀ pair ∈ pairs, ∃ outer name renamed, MovesScript tree suffix (location ++ outer) name renamed pair := by
    intro pair mem
    obtain ⟨directory, old, new, base, placed, -⟩ := sited pair mem
    exact exists_movesScript sound bare named parsed searched moved mem placed
  refine ⟨shuffled.sound, noNewLinks_of_scripts carries scripts, fun place => lookup_ne_none_of_scripts carries scripts, ?_⟩
  intro place listed
  obtain ⟨pair, mem, outer, name, renamed, moves, rfl⟩ := exists_movesScript_of_target scripts listed
  exact moves.fits

end Publisher

namespace Targets

open Publisher

namespace Context

variable {τ : Type} {context : Context τ} {tree : FileTree}

/-- The tools of a build delete nothing: what a path leads to may change, but it leads to something. -/
structure DeletesNothing (context : Context τ) : Prop where
  sound : context.ToolsKeep WellFormed
  paths : ∀ path, context.ToolsKeep fun now => now.WellFormed ∧ now.exists? path = true

/-- The tools of a build write files and make directories, and do nothing else to the files. -/
def OnlyAdds (context : Context τ) : Prop := ∀ tree, context.ToolsKeep (Extends Anywhere tree)

theorem OnlyAdds.deletesNothing (tools : context.OnlyAdds) : context.DeletesNothing := by
  have keeps {invariant : FileTree → Prop} (sound : ∀ now, invariant now → now.WellFormed)
      (grows : ∀ now after, invariant now → Extends Anywhere now after → invariant after) : context.ToolsKeep invariant :=
    have each {α : Type} {run : Run τ α} (keeps : ∀ tree, RunKeeps (Extends Anywhere tree) run) : RunKeeps invariant run :=
      .of_after fun world holds => grows world.files _ holds ((keeps world.files).after (.refl (sound _ holds)))
    ⟨fun options => each fun tree => (tools tree).build options, fun code options => each fun tree => (tools tree).transform code options,
      fun command => each fun tree => (tools tree).run command⟩
  refine ⟨keeps (fun _ sound => sound) fun _ _ _ more => more.sound, fun path => keeps (fun _ both => both.1) ?_⟩
  exact fun now after both more => ⟨more.sound, more.exists? both.1 both.2⟩

/-- The output directory of the edge target and its temporary loader are in places that no link leads away from. -/
structure EdgePlaces (context : Context τ) (tree : FileTree) (output temporary : Location) : Prop where
  placed : context.path context.settings.edge.outputDirectory tree = (.ok (.ofLocation output), tree)
  placed' : context.path context.settings.edge.temporaryLoaderPath tree = (.ok (.ofLocation temporary), tree)
  named : AreNames output
  named' : AreNames temporary
  bare : tree.Bare output
  unlinked : tree.Unlinked temporary

/-! ## Steps that take nothing away -/

theorem keepsAll_writeScript (path : Path) (content : String) : KeepsAll Anywhere tree (writeScript path content) :=
  .adapt (.adapt (keepsAll_writeBytes (opensIn_anywhere _ _) _))

theorem keeps_files_reach {invariant : FileTree → Prop} (result : TargetResult) (next : Stage) :
    Keeps invariant (fun answer => answer.files = result.files) (reach result next) := by
  unfold reach
  split
  · next advanced =>
    obtain ⟨-, rfl⟩ := TargetResult.advance_eq_ok_iff.1 advanced
    exact .pure rfl
  · exact .throw

theorem files_of_entryScript {name : String} {world after : World τ}
    (ended : (monadLift (entryScript context.settings) : Run τ String) world = (.ok name, after)) : after.files = world.files :=
  ((@keeps_entryScript (· = world.files) context.settings).onFiles.of_ok rfl ended).2

theorem keeps_any_checkTypes {invariant : FileTree → Prop} (tools : context.ToolsKeep invariant) (template : List String) (output : Path) :
    RunKeeps invariant (context.checkTypes template output) := by
  refine Keeps.bind (.onFiles (context.keeps_any_placeholders output)) fun _ _ => ?_
  refine Keeps.bind (.onFiles context.keeps_any_root) fun directory _ => ?_
  exact Keeps.bind (tools.run _) fun _ _ => .pure trivial

section

variable (tools : context.ToolsKeep (Extends Anywhere tree))

include tools

theorem keepsAll_minify (path : Path) : RunKeeps (Extends Anywhere tree) (context.minify path) := by
  refine Keeps.bind (.onFiles (keeps_readScript _)) fun _ _ => ?_
  exact Keeps.bind (tools.transform _ _) fun _ _ => .onFiles (keepsAll_writeScript _ _)

theorem keepsAll_prepareLoader (result : TargetResult) (loader temporary : Path) :
    Keeps (fun world : World τ => Extends Anywhere tree world.files) (fun answer => answer.files = result.files)
      (context.prepareLoader result loader temporary) := by
  unfold prepareLoader
  refine Keeps.bind (.onFiles (keeps_readScript _)) fun source _ => ?_
  refine Keeps.bind (.onFiles (keeps_inlined _ source)) fun rewritten _ => ?_
  refine Keeps.bind (.onFiles (keepsAll_writeScript _ rewritten)) fun _ _ => ?_
  refine Keeps.bind (.onFiles (keeps_files_reach _ _)) fun first same => ?_
  refine Keeps.bind (tools.build _) fun _ _ => ?_
  refine Keeps.bind (.onFiles (keeps_files_reach _ _)) fun second same' => ?_
  refine Keeps.bind (.onFiles (keeps_readScript _)) fun bundled _ => ?_
  refine Keeps.bind (.onFiles (keeps_asFactory _ bundled)) fun factory _ => ?_
  refine Keeps.bind (.onFiles (keepsAll_writeScript _ factory)) fun _ _ => ?_
  exact (Keeps.onFiles (keeps_files_reach _ _)).mono fun _ last => last.trans (same'.trans same)

end

theorem extends_of_copy {publisher : Publisher} {mapping : List (Path × Path)} {ignored : List String} {targets : List Path} {now : FileTree}
    (sound : tree.WellFormed) (ended : publisher.copy mapping ignored tree = (.ok targets, now)) : Extends Anywhere tree now := by
  have more := @extends_copy publisher tree ignored mapping Anywhere sound fun _ _ pair _ => lands_anywhere _ _ pair
  rwa [ended] at more

/-- A place that no link leads away from is there once something was copied to it. -/
theorem exists?_of_copy_single {publisher : Publisher} {source : Path} {place : Location} {targets : List Path} {now : FileTree}
    (sound : tree.WellFormed) (named : AreNames place) (unlinked : tree.Unlinked place)
    (ended : publisher.copy [(source, .ofLocation place)] [] tree = (.ok targets, now)) : now.exists? (.ofLocation place) = true := by
  refine publisher.exists?_of_mem_copy sound ended ?_
  obtain ⟨pairs, placed, -, rfl⟩ := publisher.copy_ends_iff.1 ended
  obtain ⟨pair, found, placed⟩ := bind_eq_ok_iff.1 placed
  obtain rfl := Except.ok.inj placed
  obtain ⟨from_, -, found⟩ := bind_eq_ok_iff.1 found
  obtain ⟨to_, resolved, found⟩ := bind_eq_ok_iff.1 found
  obtain rfl := Except.ok.inj found
  obtain rfl := publisher.eq_of_resolve_join unlinked named resolved
  exact List.mem_singleton_self _

/-- What is published is there before scripts are renamed, or is a script that was renamed. -/
theorem publishEdge_ends (tools : context.OnlyAdds) {result published : TargetResult} {output : Path} {temporary : Path}
    {world after : World τ} (sound : world.files.WellFormed)
    (ended : context.publishEdge result output temporary world = (.ok published, after)) :
    ∃ now renamed, Extends Anywhere world.files now ∧
      context.publisher.moveAndRename ("**/*" ++ context.settings.edge.platformSuffix ++ ".js") context.settings.edge.platformSuffix (some output) now =
        (.ok renamed, after.files) ∧
      ∀ place, AreNames place → world.files.Unlinked place → .ofLocation place ∈ published.files →
        .ofLocation place ∈ result.files ∨ now.exists? (.ofLocation place) = true ∨ .ofLocation place ∈ renamed := by
  unfold publishEdge at ended
  obtain ⟨values, first, filled, rest⟩ := bind_ends_iff.1 ended
  obtain ⟨assets, second, copied, rest⟩ := bind_ends_iff.1 rest
  obtain ⟨⟨⟩, third, minified, rest⟩ := bind_ends_iff.1 rest
  obtain ⟨targets, fourth, loader, rest⟩ := bind_ends_iff.1 rest
  obtain ⟨renamed, last, moved, rest⟩ := bind_ends_iff.1 rest
  obtain ⟨same, rfl⟩ := Prod.mk.inj rest
  obtain rfl := Except.ok.inj same
  have still : first.files = world.files := by
    rw [← context.placeholders_files output world.files, (Run.onFiles_ends filled).1]
  have copied := (Run.onFiles_ends copied).1
  have loader := (Run.onFiles_ends loader).1
  rw [still] at copied
  have once := extends_of_copy sound copied
  have minify := (Keeps.forM _ fun script _ => keepsAll_minify (tools second.files) (output.child script)).of_ok (.refl once.sound) minified
  have twice := once.trans minify.2
  have thrice := extends_of_copy twice.sound loader
  refine ⟨fourth.files, renamed, twice.trans thrice, (Run.onFiles_ends moved).1, fun place named unlinked mem => ?_⟩
  obtain listed | listed := List.mem_append.1 mem
  · exact .inl listed
  · obtain asset | listed := List.mem_append.1 listed
    · exact .inr (.inl ((minify.2.trans thrice).exists? once.sound (context.publisher.exists?_of_mem_copy sound copied asset)))
    · obtain spelled | listed := List.mem_cons.1 listed
      · rw [← spelled] at loader
        exact .inr (.inl (exists?_of_copy_single twice.sound named (twice.unlinked unlinked) loader))
      · exact .inr (.inr listed)

/-- The end of a build changes no file, and adds none to those that are listed. -/
theorem finish_files {output entry : Path} {suffix : Option String} {result finished : TargetResult} {world after : World τ}
    (ended : finish output entry suffix result world = (.ok finished, after)) :
    finished.files = result.files ∧ after.files = world.files ∧ ∀ left ∈ suffix, left ≠ "" → NoneLeft after.files output left := by
  obtain ⟨found, between, verified, rest⟩ := bind_ends_iff.1 ended
  obtain ⟨rfl, same, -, clean⟩ := verifyOutput_ends (Run.onFiles_ends verified).1
  obtain ⟨published, later, first, second⟩ := bind_ends_iff.1 rest
  have listed {result reached : TargetResult} {next : Stage} {before after : World τ}
      (ended : (monadLift (reach result next) : Run τ TargetResult) before = (.ok reached, after)) : reached.files = result.files :=
    ((@keeps_files_reach (fun _ => True) result next).onFiles.of_ok trivial ended).1
  have lists := (listed second).trans (listed first)
  obtain rfl := reach_ends first
  obtain rfl := reach_ends second
  rw [same]
  exact ⟨lists, rfl, clean⟩

/-! ## The temporary loader -/

theorem place_ofLocation_ends {publisher : Publisher} {location : Location} {target : Path} {now after : FileTree} (unlinked : now.Unlinked location)
    (named : AreNames location) (placed : publisher.place (.ofLocation location) now = (.ok target, after)) :
    target = .ofLocation location ∧ after = now := by
  rw [place_apply] at placed
  rcases resolved : now.resolve (publisher.root.join (.ofLocation location)) with e | place <;> rw [resolved] at placed
  · cases (Prod.mk.inj placed).1
  · obtain rfl := publisher.eq_of_resolve_join unlinked named resolved
    obtain ⟨same, rfl⟩ := Prod.mk.inj placed
    exact ⟨(Except.ok.inj same).symm, rfl⟩

/-- When the temporary loader is deleted, nothing else is. -/
theorem lookup_of_deleteTemporary {publisher : Publisher} {temporary : Location} {now between after : FileTree} (sound : now.WellFormed)
    (unlinked : now.Unlinked temporary) (named : AreNames temporary)
    (deleted : publisher.deleteTemporary (.ofLocation temporary) now = (.ok (), between))
    (discarded : discard (.ofLocation temporary) between = (.ok (), after)) :
    after.WellFormed ∧ ∀ place, after.lookup place = if place = temporary then none else now.lookup place := by
  obtain ⟨target, middle, placed, removed⟩ := bind_ends_iff.1 deleted
  obtain ⟨rfl, rfl⟩ := place_ofLocation_ends unlinked named placed
  obtain ⟨rfl, solid⟩ := unlinked.erase_of_unlink sound named (FileTask.change_ends_iff.1 (adapt_ends_iff.1 (adapt_ends_iff.1 removed)))
  have filled : temporary ≠ [] := by
    rintro rfl
    exact solid rfl
  have look := middle.lookup_erase filled
  have sound' := sound.erase solid
  obtain ⟨there, between, asked, ended⟩ := bind_ends_iff.1 discarded
  obtain ⟨-, rfl⟩ := askFor_ends asked
  cases there with
  | false =>
    obtain ⟨-, rfl⟩ := Prod.mk.inj ended
    exact ⟨sound', look⟩
  | true =>
    have unlinked' : (middle.erase temporary).Unlinked temporary := by
      intro place within target link
      rw [look] at link
      split at link
      · cases link
      · exact unlinked place within target link
    rw [if_pos rfl] at ended
    obtain ⟨rfl, solid'⟩ := unlinked'.erase_of_unlink sound' named (FileTask.change_ends_iff.1 (adapt_ends_iff.1 ended))
    refine ⟨sound'.erase solid', fun place => ?_⟩
    rw [lookup_erase _ filled, look]
    split <;> rfl

/-- Where nothing is found by a suffix, nothing has the name of a script with it. -/
theorem not_exists_of_noneLeft {suffix : String} {output place : Location} {now : FileTree} (sound : now.WellFormed) (bare : now.Bare output)
    (named : AreNames place) (clean : NoneLeft now (.ofLocation output) suffix) (suffixed : Suffixed suffix output place) :
    now.exists? (.ofLocation place) = false := by
  obtain ⟨filled, slashless, outer, name, rfl, matched⟩ := suffixed
  obtain ⟨pattern, parsed, searched⟩ := clean
  rw [← Bool.not_eq_true]
  intro there
  obtain ⟨fits, present⟩ := (((bare.append outer).unlinked [name]).exists?_iff sound named).1 there
  have leads {location : Location} (fits : Fits location) (inside : now.lookup location = some .directory) :
      now.follow (.ofLocation location) = .ok (.entry location .directory) :=
    ((unlinked_of_directory sound inside).follow_entry_iff sound fits.named).2 ⟨fits, rfl, inside⟩
  have inside := sound.parent _ _ present
  have into := leads fits.above.above (sound.directory_above inside)
  have onward := asksDirectory_eq_true_iff.2 ⟨_, leads fits.above inside⟩
  have visited : now.Visits (.ofLocation output) outer name := visits_of_lookup sound into onward present
  have asked := asksDirectory_eq_true_iff.2 ⟨_, into⟩
  have searched' := search_scripts (PathPattern.parts_of_suffix slashless parsed) (PathPattern.onlyDirectories_of_suffix parsed) asked
  have nothing := Except.ok.inj (searched'.symm.trans searched)
  have found : ((Path.ofLocation output).under outer).under [name] ∈ ([] : List Path) := by
    rw [← nothing, List.mem_mergeSort]
    exact mem_scriptsBelow_iff.2 ⟨outer, name, visited, matched, rfl⟩
  cases found

/-! ## The builds -/

/-- While the temporary loader is there, all that is listed comes to be there before scripts are renamed, or is such a script. -/
theorem edgeSteps_ends (tools : context.OnlyAdds) {world after : World τ} {built : TargetResult × Path} {output : Location}
    {loader temporary : Path} (sound : world.files.WellFormed) (named : AreNames output) (bare : world.files.Bare output)
    (ended : context.edgeSteps (.ofLocation output) loader temporary world = (.ok built, after)) :
    ∃ now renamed tidy later, Extends Anywhere world.files now ∧
      Tidied now context.settings.edge.platformSuffix output renamed tidy ∧ Extends Anywhere tidy later ∧
      context.publisher.deleteTemporary temporary later = (.ok (), after.files) ∧
      ∀ place, AreNames place → world.files.Unlinked place → .ofLocation place ∈ built.1.files →
        now.exists? (.ofLocation place) = true ∨ .ofLocation place ∈ renamed := by
  unfold edgeSteps at ended
  obtain ⟨loaded, first, prepared, rest⟩ := bind_ends_iff.1 ended
  obtain ⟨⟨⟩, second, checked, rest⟩ := bind_ends_iff.1 rest
  obtain ⟨published, third, publishing, rest⟩ := bind_ends_iff.1 rest
  obtain ⟨name, fourth, called, rest⟩ := bind_ends_iff.1 rest
  obtain ⟨⟨⟩, fifth, bundled, rest⟩ := bind_ends_iff.1 rest
  obtain ⟨reached, _, onward, rest⟩ := bind_ends_iff.1 rest
  obtain ⟨⟨⟩, last, deleted, rest⟩ := bind_ends_iff.1 rest
  obtain ⟨same, rfl⟩ := Prod.mk.inj rest
  obtain rfl := Except.ok.inj same
  obtain ⟨empty, once⟩ := (keepsAll_prepareLoader (tools world.files) _ _ _).of_ok (.refl sound) prepared
  have twice := ((keeps_any_checkTypes (tools world.files) _ _).of_ok once checked).2
  obtain ⟨now, renamed, thrice, moved, lists⟩ := publishEdge_ends tools twice.sound publishing
  have grown := twice.trans thrice
  have tidied := tidied_of_moveAndRename grown.sound (grown.bare bare) named moved
  rw [← files_of_entryScript called] at tidied
  have built := ((tools fourth.files).build _).of_ok (.refl tidied.sound) bundled
  have added := ((@keeps_files_reach (fun _ => True) published .repackagedBundled).onFiles.of_ok trivial onward).1
  obtain rfl := reach_ends onward
  refine ⟨now, renamed, fourth.files, _, grown, tidied, built.2, (Run.onFiles_ends deleted).1, fun place named' straight mem => ?_⟩
  obtain listed | found := lists place named' (twice.unlinked straight) (added ▸ mem)
  · rw [empty] at listed
    cases listed
  · exact found

/-- A build of the edge target takes its steps, discards its temporary loader and comes to its end. -/
theorem buildEdge_ends {world after : World τ} {result : TargetResult} {output temporary : Location}
    (places : context.EdgePlaces world.files output temporary) (ended : context.buildEdge world = (.ok result, after)) :
    ∃ loader built inner between, context.edgeSteps (.ofLocation output) loader (.ofLocation temporary) world = (.ok built, inner) ∧
      discard (.ofLocation temporary) inner.files = (.ok (), between.files) ∧
      finish (.ofLocation output) built.2 (some context.settings.edge.platformSuffix) built.1 between = (.ok result, after) := by
  obtain ⟨_, _, first, onward⟩ := bind_ends_iff.1 ended
  obtain ⟨found, rfl⟩ := path_ends first
  obtain rfl := Except.ok.inj (Prod.mk.inj (places.placed.symm.trans found)).1
  obtain ⟨loader, _, second, building⟩ := bind_ends_iff.1 onward
  obtain ⟨-, rfl⟩ := path_ends second
  obtain ⟨_, _, third, wrapping⟩ := bind_ends_iff.1 building
  obtain ⟨found', rfl⟩ := path_ends third
  obtain rfl := Except.ok.inj (Prod.mk.inj (places.placed'.symm.trans found')).1
  obtain ⟨built, between, wrapped, finishes⟩ := bind_ends_iff.1 wrapping
  obtain ⟨target, inner, files, opened, steps, discarded, rfl⟩ := withTemporary_ends_iff.1 wrapped
  obtain ⟨rfl, -⟩ := place_ofLocation_ends places.unlinked places.named' opened
  exact ⟨loader, built, inner, _, steps, discarded, finishes⟩

/-- The edge target lists what is there, but for the temporary loader and what has the name of a script with the suffix. -/
theorem exists?_of_buildEdge (tools : context.OnlyAdds) {world after : World τ} {result : TargetResult} {output temporary place : Location}
    (sound : world.files.WellFormed) (places : context.EdgePlaces world.files output temporary)
    (ended : context.buildEdge world = (.ok result, after)) (valid : AreNames place) (straight : world.files.Unlinked place)
    (listed : .ofLocation place ∈ result.files) :
    after.files.exists? (.ofLocation place) = true ↔
      place ≠ temporary ∧ ¬ Suffixed context.settings.edge.platformSuffix output place := by
  obtain ⟨loader, built, inner, between, steps, discarded, finishes⟩ := buildEdge_ends places ended
  obtain ⟨now, renamed, tidy, later, grown, tidied, added, deleted, origins⟩ := edgeSteps_ends tools sound places.named places.bare steps
  obtain ⟨lists, same, clean⟩ := finish_files finishes
  have links := (grown.noNewLinks.trans tidied.links).trans added.noNewLinks
  obtain ⟨sound', look⟩ := lookup_of_deleteTemporary added.sound (places.unlinked.of_noNewLinks links) places.named' deleted discarded
  have links' : NoNewLinks later between.files := by
    intro place target there
    rw [look] at there
    split at there
    · cases there
    · exact there
  rw [same] at clean ⊢
  have final := (straight.of_noNewLinks (links.trans links')).exists?_iff sound' valid
  constructor
  · refine fun there => ⟨?_, fun suffixed => ?_⟩
    · rintro rfl
      exact (final.1 there).2 (by rw [look, if_pos rfl])
    · have absent := not_exists_of_noneLeft sound' (places.bare.of_noNewLinks (links.trans links')) valid (clean _ rfl suffixed.1) suffixed
      rw [absent] at there
      cases there
  · rintro ⟨apart, free⟩
    have shown : Fits place ∧ tidy.lookup place ≠ none := by
      obtain there | moved := origins place valid straight (lists ▸ listed)
      · obtain ⟨fits, present⟩ := ((grown.unlinked straight).exists?_iff grown.sound valid).1 there
        exact ⟨fits, tidied.present place free (.inl present)⟩
      · exact ⟨tidied.fits place moved, tidied.present place free (.inr moved)⟩
    exact final.2 ⟨shown.1, by rw [look, if_neg apart]; exact added.present shown.2⟩

/-- The bindings are staged by a copy, which breaks no tree. -/
theorem keeps_wellFormed_stageBindings (bindings : Path) : Keeps WellFormed (fun _ => True) (context.stageBindings bindings) := by
  unfold stageBindings
  split
  · exact .throw
  · next staged _ =>
    have copies : Keeps WellFormed (fun _ => True) (context.publisher.copy [(bindings, staged)] []) :=
      .of_after fun before sound => (extends_copy context.publisher sound fun _ _ pair _ => lands_anywhere _ _ pair).sound
    exact Keeps.bind copies fun _ _ => .pure trivial

theorem exists?_of_mem_copySwapped {publisher : Publisher} {paths targets : List Path} {old new : String} {now : FileTree}
    (sound : tree.WellFormed) (ended : publisher.copySwapped paths old new tree = (.ok targets, now)) :
    now.WellFormed ∧ ∀ target ∈ targets, now.exists? target = true := by
  unfold copySwapped at ended
  rcases mapped : paths.eraseDups.mapM (swapped old new) with fault | mapping <;> rw [mapped] at ended
  · cases (Prod.mk.inj ended).1
  · exact ⟨(extends_of_copy sound ended).sound, fun target mem => publisher.exists?_of_mem_copy sound ended mem⟩

/-- What the server target lists is there. -/
theorem exists?_of_buildServer (tools : context.DeletesNothing) {world after : World τ} {result : TargetResult} (sound : world.files.WellFormed)
    (ended : context.buildServer world = (.ok result, after)) {path : Path} (listed : path ∈ result.files) :
    after.files.exists? path = true := by
  obtain ⟨output, _, first, locating⟩ := bind_ends_iff.1 ended
  obtain ⟨-, rfl⟩ := path_ends first
  obtain ⟨bindings, _, second, staging⟩ := bind_ends_iff.1 locating
  obtain ⟨-, rfl⟩ := path_ends second
  obtain ⟨⟨⟩, _, staged, checking⟩ := bind_ends_iff.1 staging
  obtain ⟨-, sound⟩ := (keeps_wellFormed_stageBindings bindings).onFiles.of_ok sound staged
  obtain ⟨⟨⟩, _, checked, relating⟩ := bind_ends_iff.1 checking
  obtain ⟨-, sound⟩ := (keeps_any_checkTypes tools.sound _ output).of_ok sound checked
  obtain ⟨place, _, related, copying⟩ := bind_ends_iff.1 relating
  obtain ⟨-, sound⟩ := (context.keeps_any_relativeText output).onFiles.of_ok sound related
  obtain ⟨files, copied, swapped, naming⟩ := bind_ends_iff.1 copying
  have kept := exists?_of_mem_copySwapped sound (Run.onFiles_ends swapped).1
  obtain ⟨name, _, named, reading⟩ := bind_ends_iff.1 naming
  rw [← files_of_entryScript named] at kept
  obtain ⟨tree, _, read, matching⟩ := bind_ends_iff.1 reading
  obtain ⟨-, rfl⟩ := Prod.mk.inj read
  rcases made : Plugin.forCompanions tree output context.settings.server.companionSuffixes with failure | companions <;>
    rw [made] at matching <;> simp only at matching
  · cases (Prod.mk.inj matching).1
  obtain ⟨⟨⟩, _, bundled, reaching⟩ := bind_ends_iff.1 matching
  obtain ⟨reached, _, advanced, finishing⟩ := bind_ends_iff.1 reaching
  have finishes : finish output (output.child name) none reached _ = (.ok result, after) := finishing
  obtain ⟨lists, same, -⟩ := finish_files finishes
  have listing := ((@keeps_files_reach (fun _ => True) _ .bundled).onFiles.of_ok trivial advanced).1
  obtain rfl := reach_ends advanced
  have mem : path ∈ files := by simpa [lists, listing, TargetResult.publish] using listed
  rw [same]
  exact (((tools.paths path).build _).of_ok ⟨kept.1, kept.2 path mem⟩ bundled).2.2

/-- What a result lists. With tools that delete nothing, the server target lists what is there. With tools that add files alone, the
edge target does but for the temporary loader and for what has the name of a script with the suffix. -/
theorem listed_files_exist (context : Context τ) :
    (∀ world after result, context.DeletesNothing → world.files.WellFormed → context.buildServer world = (.ok result, after) →
      ∀ path ∈ result.files, after.files.exists? path = true) ∧
    ∀ world after result output temporary, context.OnlyAdds → world.files.WellFormed → context.EdgePlaces world.files output temporary →
      context.buildEdge world = (.ok result, after) → ∀ place, AreNames place → world.files.Unlinked place → .ofLocation place ∈ result.files →
        (after.files.exists? (.ofLocation place) = true ↔
          place ≠ temporary ∧ ¬ Suffixed context.settings.edge.platformSuffix output place) := by
  constructor
  · intro world after result tools sound ended path listed
    exact exists?_of_buildServer tools sound ended listed
  · intro world after result output temporary tools sound places ended place valid straight listed
    exact exists?_of_buildEdge tools sound places ended valid straight listed

/-! ## A project of both targets -/

/-- Tools that write where they are told delete nothing, whatever the settings are. -/
theorem onlyAdds_determined (settings : Config.Settings) : { determinedContext with settings }.OnlyAdds := by
  intro tree
  refine ⟨fun options => ?_, fun code options => .pure trivial, fun command => ?_⟩
  · refine .onFiles (.bind (FileRun.keeps_askFor fun _ _ _ _ => trivial) fun content _ => ?_)
    exact .adapt (keepsAll_write (landsIn_anywhere _ _) (smallOutput options content))
  · have writes : KeepsAll Anywhere tree (writeBelow (outputNamed command) [(["index.js"], encode "i")]) :=
      Keeps.forM _ fun file _ => keepsAll_writeBytes (opensIn_anywhere _ _) file.2
    exact .onFiles (.bind (.adapt writes) fun _ _ => .pure trivial)

theorem edgePlaces_both : determinedContext.EdgePlaces bothProject (edgeDirectory ["p"]) (loaderPlace ["p"]) := by
  have free : bothProject.LinkFree := linkFree_of_entries (by simp [bothProject, smallProject])
  have rooted : determinedContext.Rooted bothProject := ⟨["p"], eq_ok_of_toOption (by decide +kernel), rfl⟩
  have start : determinedContext.publisher.root = .ofLocation ["p"] := rfl
  obtain ⟨output, -, temporary⟩ := paths_default rfl start
  rw [edgeOutput] at output
  rw [edgeTemporary] at temporary
  exact ⟨by rw [path_apply rooted, output], by rw [path_apply rooted, temporary]; rfl, by decide, by decide,
    ⟨fun place _ => free place, fun parts => free _⟩, fun place _ => free place⟩

/-- Both targets of a small project list what is there. -/
theorem listed_files_exist_both : bothProject.WellFormed ∧ determinedContext.OnlyAdds ∧
    (∃ result after, determinedContext.buildServer ⟨bothProject, ()⟩ = (.ok result, after) ∧
      .ofLocation ["p", "dist", "cloudflare-node", "snarky.d.ts"] ∈ result.files ∧
      after.files.exists? (.ofLocation ["p", "dist", "cloudflare-node", "snarky.d.ts"]) = true) ∧
    ∃ result after, determinedContext.buildEdge ⟨bothProject, ()⟩ = (.ok result, after) ∧
      .ofLocation ["p", "dist", "cloudflare", "snarky.js"] ∈ result.files ∧
      after.files.exists? (.ofLocation ["p", "dist", "cloudflare", "snarky.js"]) = true := by
  have sound : bothProject.WellFormed := wellFormed_of_entries (by decide +kernel) (by decide +kernel)
  have free : bothProject.LinkFree := linkFree_of_entries (by simp [bothProject, smallProject])
  have tools : determinedContext.OnlyAdds := onlyAdds_determined determinedContext.settings
  have plain : ¬ Suffixed determinedContext.settings.edge.platformSuffix (edgeDirectory ["p"]) (["p", "dist", "cloudflare"] ++ ["snarky.js"]) :=
    fun suffixed => absurd suffixed.matched (by decide +kernel)
  obtain ⟨server, edge⟩ := listed_files_exist determinedContext
  refine ⟨sound, tools, ?_, ?_⟩
  · obtain ⟨result, ended, listed⟩ := exists_of_lists buildServer_lists_both
    have there := server ⟨bothProject, ()⟩ _ result tools.deletesNothing sound ended _ listed
    exact ⟨result, _, ended, listed, there⟩
  · obtain ⟨result, ended, listed⟩ := exists_of_lists buildEdge_lists_both
    have there := edge ⟨bothProject, ()⟩ _ result _ _ tools sound edgePlaces_both ended _ (by decide) (fun place _ => free place) listed
    exact ⟨result, _, ended, listed, there.2 ⟨by decide, plain⟩⟩

/-- A project with a script of its own. -/
def extraProject : FileTree := smallProject [(["p", "extra.js"], .file (encode "y"))]

/-- The script is published under a name with the suffix. -/
def extraContext : Context Unit :=
  { determinedContext with
    settings := { projectRoot := .ofString "/p", edge := { assets := [("src/bindings/compiled/web_bindings", "\x7boutput_dir\x7d/web_bindings"),
                                                                     ("extra.js", "\x7boutput_dir\x7d/extra.web.js")] } } }

/-- An asset whose name has the suffix is listed and is not there. -/
theorem buildEdge_lists_missing : extraProject.WellFormed ∧ extraProject.LinkFree ∧ extraContext.DeletesNothing ∧
    ∃ result after, extraContext.buildEdge ⟨extraProject, ()⟩ = (.ok result, after) ∧
      .ofLocation ["p", "dist", "cloudflare", "extra.web.js"] ∈ result.files ∧
      after.files.exists? (.ofLocation ["p", "dist", "cloudflare", "extra.web.js"]) = false := by
  have missing : lists (extraContext.buildEdge ⟨extraProject, ()⟩) (.ofLocation ["p", "dist", "cloudflare", "extra.web.js"]) = true ∧
      (extraContext.buildEdge ⟨extraProject, ()⟩).2.files.exists? (.ofLocation ["p", "dist", "cloudflare", "extra.web.js"]) = false := by
    decide +kernel
  obtain ⟨result, ended, listed⟩ := exists_of_lists missing.1
  refine ⟨wellFormed_of_entries (by decide +kernel) (by decide +kernel), linkFree_of_entries (by simp [extraProject, smallProject]),
    (onlyAdds_determined _).deletesNothing, result, _, ended, listed, missing.2⟩

end Context

end Targets

end WasmPackaging
