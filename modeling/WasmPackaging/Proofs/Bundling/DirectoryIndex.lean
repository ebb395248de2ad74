import WasmPackaging.Proofs.Bundling.Routes
import WasmPackaging.Proofs.Path

/-!
Where the specifiers that denote directories lead. The path of such a specifier is that of the directory, with nothing
left of the slash at its end (`child_of_denotes`), so it is looked up like any other: a file beside the directory that is
named as the directory with an ending comes before the index in it. A specifier of a directory leads to the first index
in it exactly if no such file stands beside it (`route_directory_iff`).
-/

namespace WasmPackaging.Bundling

open Text FileTree

/-! ## The directory of a specifier -/

/-- A specifier is a step, or is local and ends with a slash, or with a slash and a step. -/
def NamesDirectory (specifier : String) : Prop :=
  specifier = "." ∨ specifier = ".." ∨ Specifier.isLocal specifier.toList = true ∧
    ∃ text, ∃ ending ∈ ["/", "/.", "/.."], specifier = text ++ ending

/-- The path of the directory that a specifier denotes in a module of a given directory: that one, the one around it,
the one that the text in front of the last slash leads to, the one around that, or the root. -/
inductive Denotes (base : Path) : String → Path → Prop
  | here : Denotes base "." base
  | above : Denotes base parentStep (base.under [parentStep])
  | slash {text ending : String} : (∃ c ∈ text.toList, c ≠ '/') → ending ∈ ["/", "/."] →
      Denotes base (text ++ ending) (base.child text)
  | up {text : String} : (∃ c ∈ text.toList, c ≠ '/') →
      Denotes base (text ++ "/..") ((base.child text).under [parentStep])
  | root {text ending : String} : (∀ c ∈ text.toList, c = '/') → ending ∈ ["/", "/.", "/.."] →
      Denotes base (text ++ ending) (.ofString (text ++ ending))

theorem exists_denotes (base : Path) {specifier : String} (names : NamesDirectory specifier) :
    ∃ directory, Denotes base specifier directory := by
  obtain rfl | rfl | ⟨-, text, ending, mem, rfl⟩ := names
  · exact ⟨base, .here⟩
  · exact ⟨_, .above⟩
  · by_cases solid : ∃ c ∈ text.toList, c ≠ '/'
    · simp only [List.mem_cons, List.not_mem_nil, or_false] at mem
      obtain rfl | rfl | rfl := mem
      · exact ⟨_, .slash solid (by simp)⟩
      · exact ⟨_, .slash solid (by simp)⟩
      · exact ⟨_, .up solid⟩
    · push Not at solid
      exact ⟨_, .root solid mem⟩

theorem NamesDirectory.isLocal {specifier : String} (names : NamesDirectory specifier) :
    Specifier.isLocal specifier.toList = true := by
  obtain rfl | rfl | ⟨here, -⟩ := names
  · rfl
  · rfl
  · exact here

theorem splitAt_append (mark : Char) (a b : List Char) : splitAt mark (a ++ mark :: b) = splitAt mark a ++ splitAt mark b := by
  induction a with
  | nil => simp [splitAt, splitWhere]
  | cons c a ih =>
    unfold splitAt at ih ⊢
    obtain ⟨first, others, cut⟩ := List.exists_cons_of_ne_nil (splitWhere_ne_nil (· == mark) a)
    rw [cut] at ih
    rw [List.cons_append, splitWhere, splitWhere, ih, cut]
    split <;> rfl

section slash

variable {text behind : String} (rest : String)

theorem slashed_append_slash (text : String) (starts : behind.toList = '/' :: rest.toList) :
    slashed (text ++ behind) = slashed text ++ slashed rest := by
  simp [slashed, starts, splitAt_append]

/-- What is behind a text that holds more than slashes does not change where its path starts. -/
theorem ofText_append {a : List Char} (solid : ∃ c ∈ a, c ≠ '/') (b : List Char) :
    Anchor.ofText (a ++ '/' :: b) = Anchor.ofText a := by
  obtain ⟨c, mem, other⟩ := solid
  rcases a with _ | ⟨first, _ | ⟨second, _ | ⟨third, a⟩⟩⟩
  · cases mem
  · obtain rfl := List.mem_singleton.1 mem
    simp [Anchor.ofText, other]
  · by_cases slash : first = '/'
    · subst slash
      obtain rfl : c = second := by simpa [other] using mem
      simp [Anchor.ofText, other]
    · simp [Anchor.ofText, slash]
  · by_cases slash : first = '/'
    · subst slash
      by_cases slash : second = '/'
      · subst slash
        by_cases slash : third = '/'
        · subst slash
          rfl
        · simp [Anchor.ofText, slash]
      · simp [Anchor.ofText, slash]
    · simp [Anchor.ofText, slash]

theorem isAbsolute_ofString {s : List Char} (starts : text.toList = '/' :: s) : (Path.ofString text).isAbsolute = true := by
  rw [Path.ofString, Path.isAbsolute, starts, bne_iff_ne]
  unfold Anchor.ofText
  split <;> simp_all

variable (solid : ∃ c ∈ text.toList, c ≠ '/') (starts : behind.toList = '/' :: rest.toList)

include solid starts

theorem ofString_append_slash : Path.ofString (text ++ behind) = (Path.ofString text).under ((slashed rest).filter isPart) := by
  have anchor : Anchor.ofText (text ++ behind).toList = Anchor.ofText text.toList := by
    rw [String.toList_append, starts, ofText_append solid]
  rw [Path.ofString, Path.ofString, Path.under, anchor, slashed_append_slash rest text starts, List.filter_append]

theorem child_append_slash (base : Path) :
    base.child (text ++ behind) = (base.child text).under ((slashed rest).filter isPart) := by
  rw [Path.child, Path.child, ofString_append_slash rest solid starts, Path.join, Path.join,
    show ((Path.ofString text).under _).isAbsolute = (Path.ofString text).isAbsolute from rfl]
  split
  · rfl
  · simp [Path.under]

end slash

/-- A specifier leads to the directory that it denotes. -/
theorem child_of_denotes {base directory : Path} {specifier : String} (denotes : Denotes base specifier directory) :
    base.child specifier = directory := by
  cases denotes with
  | here => exact Path.under_nil base
  | above => rfl
  | slash solid mem =>
    simp only [List.mem_cons, List.not_mem_nil, or_false] at mem
    obtain rfl | rfl := mem
    · exact (child_append_slash "" solid rfl base).trans (Path.under_nil _)
    · exact (child_append_slash "." solid rfl base).trans (Path.under_nil _)
  | up solid => exact child_append_slash ".." solid rfl base
  | @root text ending slashes mem =>
    obtain ⟨s, starts⟩ : ∃ s, (text ++ ending).toList = '/' :: s := by
      rw [String.toList_append]
      cases whole : text.toList with
      | nil =>
        simp only [List.mem_cons, List.not_mem_nil, or_false] at mem
        obtain rfl | rfl | rfl := mem <;> exact ⟨_, rfl⟩
      | cons c rest => exact ⟨rest ++ ending.toList, by rw [slashes c (by simp [whole]), List.cons_append]⟩
    rw [Path.child, Path.join, if_pos (isAbsolute_ofString starts)]

/-! ## Candidates -/

/-- The path beside another whose name has an ending. -/
def beside (directory : Path) (ending : String) : Path :=
  { directory with parts := directory.parts.dropLast ++ [directory.name ++ ending] }

theorem withEnding_eq {directory candidate : Path} {ending : String} (named : withEnding directory ending = .ok candidate) :
    candidate = beside directory ending := by
  rw [withEnding, mapError_eq_ok_iff, Path.withName] at named
  split at named
  · cases named
  · split at named
    · split at named
      · cases named
      · exact (Except.ok.inj named).symm
    · cases named

/-- A file comes before the index of a directory: one at the path of the directory, or the first beside it that has its
name with an ending. -/
inductive Shadows (extensions : List String) (tree : FileTree) (directory : Path) : Path → Prop
  | itself : tree.asksFile directory = .ok true → Shadows extensions tree directory directory
  | beside {before after : List String} {ending : String} : tree.asksFile directory = .ok false →
      extensions = before ++ ending :: after → Passed tree (withEnding directory) before →
      withEnding directory ending = .ok (beside directory ending) → tree.asksFile (beside directory ending) = .ok true →
      Shadows extensions tree directory (beside directory ending)

/-- No file stands at the path of a directory, nor beside it with its name and an ending. -/
def IsUnshadowed (extensions : List String) (tree : FileTree) (directory : Path) : Prop :=
  tree.asksFile directory = .ok false ∧ Passed tree (withEnding directory) extensions

theorem IsUnshadowed.not_shadows {extensions : List String} {tree : FileTree} {directory file : Path}
    (unshadowed : IsUnshadowed extensions tree directory) : ¬ Shadows extensions tree directory file := by
  intro shadows
  cases shadows with
  | itself asked => cases asked.symm.trans unshadowed.1
  | @beside before after ending _ whole passed named found =>
    obtain ⟨path, named', missed⟩ := unshadowed.2 ending (by simp [whole])
    obtain rfl := Except.ok.inj (named'.symm.trans named)
    cases found.symm.trans missed

/-- A path leads to a directory, and a location is where its first index leads. -/
def HasIndex (extensions : List String) (tree : FileTree) (directory : Path) (target : Location) : Prop :=
  ∃ place before ending after, tree.follow directory = .ok (.entry place .directory) ∧
    extensions = before ++ ending :: after ∧ Passed tree (fun other => .ok (indexOf directory other)) before ∧
    tree.asksFile (indexOf directory ending) = .ok true ∧
    ∃ n, tree.Reaches n place (Path.ofString s!"index{ending}").parts target

section resolve

variable {extensions : List String} {tree : FileTree} {directory : Path} {target : Location}

theorem indexOf_eq (directory : Path) (ending : String) :
    indexOf directory ending = directory.under (Path.ofString s!"index{ending}").parts := by
  have starts : (s!"index{ending}").toList = 'i' :: "ndex".toList ++ ending.toList := by simp [toString]
  have relative : (Path.ofString s!"index{ending}").isAbsolute = false := by
    rw [Path.ofString, Path.isAbsolute, starts]
    rfl
  rw [indexOf, Path.child, Path.join, relative]
  rfl

theorem steps_indexOf (directory : Path) (ending : String) :
    (indexOf directory ending).steps = directory.steps ++ (Path.ofString s!"index{ending}").parts := by
  rw [indexOf_eq]
  apply Path.steps_under_of_plain
  intro part mem
  exact not_mem_of_mem_slashed (List.mem_filter.1 mem).1

/-- The real location of an index is where its name leads in the directory. -/
theorem resolve_indexOf_iff (sound : tree.WellFormed) {place : Location}
    (leads : tree.follow directory = .ok (.entry place .directory)) {ending : String}
    (asked : tree.asksFile (indexOf directory ending) = .ok true) :
    tree.resolve (indexOf directory ending) = .ok target ↔
      ∃ n, tree.Reaches n place (Path.ofString s!"index{ending}").parts target := by
  obtain ⟨location, content, follows⟩ := asksFile_eq_true_iff.1 asked
  obtain ⟨-, n, -, goal, reaches, same⟩ := (follow_eq_ok_iff sound).1 follows
  obtain ⟨rfl, -⟩ := found_eq_entry_iff.1 same.symm
  obtain ⟨-, m, -, goal', reaches', same'⟩ := (follow_eq_ok_iff sound).1 leads
  obtain ⟨rfl, -⟩ := found_eq_entry_iff.1 same'.symm
  have start : tree.start (indexOf directory ending) = tree.start directory := by
    rw [indexOf_eq]
    rfl
  rw [steps_indexOf, start] at reaches
  obtain ⟨k, j, middle, -, first, second⟩ := reaches.split
  obtain ⟨-, rfl⟩ := first.unique reaches'
  rw [resolve_of_follow sound follows, Except.ok.injEq]
  constructor
  · rintro rfl
    exact ⟨j, second⟩
  · rintro ⟨n, other⟩
    exact (second.unique other).2

/-- A path resolves to a file that comes before its index, or to the index if there is none. -/
theorem resolveModule_directory_iff (sound : tree.WellFormed) :
    resolveModule extensions tree directory = .ok (some target) ↔
      (∃ file, Shadows extensions tree directory file ∧ tree.resolve file = .ok target) ∨
        IsUnshadowed extensions tree directory ∧ HasIndex extensions tree directory target := by
  rw [resolveModule_eq_some_iff]
  constructor
  · rintro ⟨candidate, chosen, resolved⟩
    cases chosen with
    | itself asked => exact .inl ⟨_, .itself asked, resolved⟩
    | ending asked whole passed named found =>
      obtain rfl := withEnding_eq named
      exact .inl ⟨_, .beside asked whole passed named found, resolved⟩
    | index asked passed inside whole passed' found =>
      obtain ⟨place, leads⟩ := asksDirectory_eq_true_iff.1 inside
      exact .inr ⟨⟨asked, passed⟩, place, _, _, _, leads, whole, passed', found,
        (resolve_indexOf_iff sound leads found).1 resolved⟩
  · rintro (⟨file, shadows, resolved⟩ | ⟨⟨asked, passed⟩, place, _, _, _, leads, whole, passed', found, there⟩)
    · cases shadows with
      | itself asked => exact ⟨_, .itself asked, resolved⟩
      | beside asked whole passed named found => exact ⟨_, .ending asked whole passed named found, resolved⟩
    · refine ⟨_, .index asked passed (asksDirectory_eq_true_iff.2 ⟨place, leads⟩) whole passed' found, ?_⟩
      exact (resolve_indexOf_iff sound leads found).2 there

end resolve

namespace Stager

/-- An ordinary specifier that denotes a directory goes the way to a module exactly if it is a file that comes before the
index of the directory, or if there is none, the first index in the directory. -/
theorem route_directory_iff (s : Stager) {tree : FileTree} (sound : tree.WellFormed) {module : Location} {specifier : String}
    (names : NamesDirectory specifier) (included : s.isExcluded specifier = false)
    (ordinary : s.IsOrdinary tree module specifier) {importClass : Option ImportClass} {way : Route}
    (routed : s.route tree module specifier = .ok (importClass, way)) :
    ∃ directory, Denotes (directoryOf module) specifier directory ∧ ∀ target, (∃ text, way = .module target text) ↔
      (∃ file, Shadows s.options.extensions tree directory file ∧ tree.resolve file = .ok target) ∨
        IsUnshadowed s.options.extensions tree directory ∧ HasIndex s.options.extensions tree directory target := by
  obtain ⟨directory, denotes⟩ := exists_denotes (directoryOf module) names
  refine ⟨directory, denotes, fun target => ?_⟩
  obtain ⟨copy, copied⟩ : ∃ copy, s.copyOf module = .ok copy := by
    rw [route, included, if_neg (by simp)] at routed
    obtain ⟨copy, copied, -⟩ := bind_eq_ok_iff.1 routed
    exact ⟨copy, copied⟩
  rw [(goes_of_route copied routed).module_iff, Leads.ordinary_iff ordinary, child_of_denotes denotes,
    ← resolveModule_directory_iff sound]
  simp only [included, true_and]
  exact and_iff_right names.isLocal

/-- A module that imports a directory with an index. -/
def indexedFiles : FileTree where
  entries := [(["p"], .directory), (["p", "main.js"], .file (encode "import './lib/';\n")), (["p", "lib"], .directory),
    (["p", "lib", "index.js"], .file (encode "export {};\n"))]
  workingDirectory := ["p"]

/-- The same project with a file beside the directory. -/
def shadowedFiles : FileTree :=
  { indexedFiles with entries := indexedFiles.entries ++ [(["p", "lib.js"], .file (encode "export {};\n"))] }

/-- The staging of these projects. -/
def directoryStager : Stager :=
  ⟨["p"], .ofString "/p/stage", { entryPoint := .ofString "/p/main.js", outputFile := .ofString "/p/out.js" }⟩

/-- The module that a specifier of the first module goes the way to. -/
def ledTo? (tree : FileTree) (specifier : String) : Option Location :=
  match directoryStager.route tree ["p", "main.js"] specifier with
  | .ok (_, .module location _) => some location
  | _ => none

theorem route_of_ledTo? {tree : FileTree} {specifier : String} {target : Location} (known : ledTo? tree specifier = some target) :
    ∃ importClass text, directoryStager.route tree ["p", "main.js"] specifier = .ok (importClass, .module target text) := by
  unfold ledTo? at known
  split at known
  · next importClass location text routed =>
    obtain rfl := Option.some.inj known
    exact ⟨importClass, text, routed⟩
  · cases known

theorem namesDirectory_lib : NamesDirectory "./lib/" := .inr (.inr ⟨rfl, "./lib", "/", by simp, rfl⟩)

theorem isUnshadowed_indexed :
    IsUnshadowed directoryStager.options.extensions indexedFiles ((directoryOf ["p", "main.js"]).child "./lib/") := by
  constructor
  · apply eq_ok_of_toOption
    decide +kernel
  · apply firstFile_eq_none_iff.1
    apply eq_ok_of_toOption
    decide +kernel

theorem route_directory_indexed :
    indexedFiles.WellFormed ∧ NamesDirectory "./lib/" ∧ directoryStager.isExcluded "./lib/" = false ∧
      directoryStager.IsOrdinary indexedFiles ["p", "main.js"] "./lib/" ∧
      ∃ importClass text, directoryStager.route indexedFiles ["p", "main.js"] "./lib/" =
          .ok (importClass, .module ["p", "lib", "index.js"] text) ∧
        HasIndex directoryStager.options.extensions indexedFiles ((directoryOf ["p", "main.js"]).child "./lib/")
          ["p", "lib", "index.js"] := by
  have sound : indexedFiles.WellFormed := wellFormed_of_entries (by decide) rfl
  have ordinary : directoryStager.IsOrdinary indexedFiles ["p", "main.js"] "./lib/" := ⟨_, rfl, by simp⟩
  obtain ⟨importClass, text, routed⟩ := route_of_ledTo?
    (show ledTo? indexedFiles "./lib/" = some ["p", "lib", "index.js"] by decide +kernel)
  refine ⟨sound, namesDirectory_lib, rfl, ordinary, importClass, text, routed, ?_⟩
  obtain ⟨directory, denotes, leads⟩ :=
    route_directory_iff directoryStager sound namesDirectory_lib rfl ordinary routed
  obtain rfl := child_of_denotes denotes
  rcases (leads _).1 ⟨text, rfl⟩ with ⟨file, shadows, -⟩ | ⟨-, index⟩
  · exact absurd shadows isUnshadowed_indexed.not_shadows
  · exact index

/-- The specifier denotes a directory with an index, and goes the way to the file beside it; the index is not staged. -/
theorem route_beside_directory :
    NamesDirectory "./lib/" ∧ directoryStager.isExcluded "./lib/" = false ∧
      directoryStager.IsOrdinary shadowedFiles ["p", "main.js"] "./lib/" ∧
      Denotes (directoryOf ["p", "main.js"]) "./lib/" (.ofString "/p/lib") ∧
      HasIndex directoryStager.options.extensions shadowedFiles (.ofString "/p/lib") ["p", "lib", "index.js"] ∧
      (∃ importClass text, directoryStager.route shadowedFiles ["p", "main.js"] "./lib/" =
        .ok (importClass, .module ["p", "lib.js"] text)) ∧
      (directoryStager.stage shadowedFiles).2.lookup ["p", "stage", "lib.js"] = some (.file (encode "export {};\n")) ∧
      (directoryStager.stage shadowedFiles).2.lookup ["p", "stage", "lib", "index.js"] = none := by
  have denotes : Denotes (directoryOf ["p", "main.js"]) ("./lib" ++ "/") ((directoryOf ["p", "main.js"]).child "./lib") :=
    .slash ⟨'l', by simp⟩ (by simp)
  have sound : shadowedFiles.WellFormed := wellFormed_of_entries (by decide) rfl
  have leads : shadowedFiles.follow (.ofString "/p/lib") = .ok (.entry ["p", "lib"] .directory) := by decide +kernel
  have passed : Passed shadowedFiles (fun other => .ok (indexOf (.ofString "/p/lib") other)) [".tsx", ".ts", ".jsx"] := by
    apply firstFile_eq_none_iff.1
    apply eq_ok_of_toOption
    decide +kernel
  have asked : shadowedFiles.asksFile (indexOf (.ofString "/p/lib") ".js") = .ok true := eq_ok_of_toOption (by decide +kernel)
  have index : HasIndex directoryStager.options.extensions shadowedFiles (.ofString "/p/lib") ["p", "lib", "index.js"] :=
    ⟨_, _, _, [".css", ".json"], leads, rfl, passed, asked,
      (resolve_indexOf_iff sound leads asked).1 (eq_ok_of_toOption (by decide +kernel))⟩
  exact ⟨namesDirectory_lib, rfl, ⟨_, rfl, by simp⟩, denotes, index, route_of_ledTo? (by decide +kernel), by decide +kernel,
    by decide +kernel⟩

end Stager

end WasmPackaging.Bundling
