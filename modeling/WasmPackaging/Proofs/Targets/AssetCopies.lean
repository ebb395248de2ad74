import WasmPackaging.Proofs.Copying
import WasmPackaging.Proofs.Targets.PublishedLoader

/-!
What the assets of the edge target leave out. The name of the temporary loader is taken for a pattern, so all names that it
describes are left out of the directories that are copied, and all others are copied (`copy_assets`). A name without an opening
bracket describes itself (`matchesName_self`); one with a bracket may not, and then the temporary loader is copied
(`copy_assets_brackets`).
-/

namespace WasmPackaging

open Text FileTree

namespace Text.Wildcard

theorem matches_tokens_self {s : List Char} (plain : '[' ∉ s) : Matches (tokens s) s := by
  induction s with
  | nil =>
    rw [tokens]
    exact .nil
  | cons c s ih =>
    have rest : '[' ∉ s := fun mem => plain (List.mem_cons_of_mem c mem)
    have first : c ≠ '[' := fun same => plain (same ▸ List.mem_cons_self)
    by_cases star : c = '*'
    · subst star
      rw [tokens]
      exact .star ['*'] (ih rest)
    · by_cases any : c = '?'
      · subst any
        rw [tokens]
        exact .one rfl (ih rest)
      · rw [tokens.eq_5 _ _ star any first]
        exact .one (by simp [Token.admits]) (ih rest)

/-- A name without an opening bracket describes itself. -/
theorem matchesName_self {name : String} (plain : '[' ∉ name.toList) : matchesName name name = true :=
  accepts_iff.2 (matches_tokens_self plain)

end Text.Wildcard

/-- What is left out of a copy stays out of its target, at any depth. -/
theorem FileTree.not_spot_of_ignored {ignored : List String} {name : String} {target outer rest : Location}
    (left : FileTask.isIgnored ignored name = true) (loose : ¬ outer ++ [name] <+: target) :
    ¬ Spot ignored target (outer ++ name :: rest) := by
  have whole : outer ++ name :: rest = (outer ++ [name]) ++ rest := by simp
  rintro (above | ⟨names, copied, same⟩)
  · rw [whole] at above
    exact loose ((List.prefix_append _ _).trans above)
  · -- the target ends in front of the name, so the name is one of those below it
    have within : target <+: (outer ++ [name]) ++ rest := whole ▸ ⟨names, same.symm⟩
    obtain inner | outside := List.prefix_or_prefix_of_prefix within (List.prefix_append _ rest)
    · obtain rfl | inner := List.prefix_concat_iff.1 inner
      · exact loose (List.prefix_refl _)
      · obtain ⟨between, rfl⟩ := inner
        rw [List.append_assoc] at same
        obtain rfl := List.append_cancel_left same
        simp [copied name (by simp)] at left
    · exact loose outside

namespace Targets

open Config

variable {τ : Type} {context : Context τ} {tree : FileTree}

/-- The assets are copied without the names that the name of the temporary loader describes, and with all others. A name without an
opening bracket describes itself. -/
theorem copy_assets (sound : tree.WellFormed) (values : List (String × String)) {pairs : List (Location × Location)}
    (placed : (edgeAssets context.settings.edge values).mapM (context.publisher.placesOf tree) = .ok pairs)
    (bare : ∀ pair ∈ pairs, tree.Bare pair.2) {result : Except Failure (List Path)} {after : FileTree}
    (copied : context.publisher.copy (edgeAssets context.settings.edge values) [context.edgeTemporary.name] tree = (result, after)) :
    ('[' ∉ context.edgeTemporary.name.toList → Wildcard.matchesName context.edgeTemporary.name context.edgeTemporary.name = true) ∧
    (∀ outer name rest, Wildcard.matchesName context.edgeTemporary.name name = true →
      (∀ pair ∈ pairs, ¬ outer ++ [name] <+: pair.2 ∧ outer ++ [name] ≠ pair.2 ++ [(Path.ofLocation pair.1).name]) →
      after.lookup (outer ++ name :: rest) = tree.lookup (outer ++ name :: rest)) ∧
    (∀ targets, result = .ok targets → ∀ pair ∈ pairs, ∀ outer name place content, AreNames (outer ++ [name]) →
      (∀ part ∈ outer ++ [name], Wildcard.matchesName context.edgeTemporary.name part = false) →
      tree.follow ((Path.ofLocation pair.1).under (outer ++ [name])) = .ok (.entry place (.file content)) → ¬ pair.2 <+: place →
      (∀ other ∈ pairs, other ≠ pair → Apart other.2 place ∧ Apart other.2 (pair.2 ++ (outer ++ [name]))) →
      after.lookup (pair.2 ++ landing tree pair.2 (outer ++ [name]) name) = some (.file content)) := by
  have named {pair : Location × Location} (mem : pair ∈ pairs) := context.publisher.areNames_of_mem_places sound placed mem
  refine ⟨Wildcard.matchesName_self, fun outer name rest described loose => ?_, ?_⟩
  · have lands (pairs' : List (Location × Location))
        (placed' : (edgeAssets context.settings.edge values).mapM (context.publisher.placesOf tree) = .ok pairs') (pair : Location × Location)
        (mem : pair ∈ pairs') : Publisher.Lands (fun place => place ≠ outer ++ name :: rest) tree [context.edgeTemporary.name] pair := by
      obtain rfl := Except.ok.inj (placed.symm.trans placed')
      obtain ⟨apart, other⟩ := loose pair mem
      have left : FileTask.isIgnored [context.edgeTemporary.name] name = true := by simp [FileTask.isIgnored, described]
      have elsewhere {place : Location} (spot : Spot [context.edgeTemporary.name] pair.2 place) : place ≠ outer ++ name :: rest := by
        rintro rfl
        exact not_spot_of_ignored left apart spot
      refine ⟨takesIn_bare (bare pair mem) (named mem).2 fun place => elsewhere,
        landsIn_bare (bare pair mem) (named mem).2 (named mem).1 (elsewhere (.inl (List.prefix_refl _))) fun same => ?_⟩
      cases rest using List.reverseRecOn with
      | nil => exact other same.symm
      | append_singleton rest last =>
        have whole : outer ++ name :: (rest ++ [last]) = (outer ++ name :: rest) ++ [last] := by simp
        rw [whole] at same
        exact apart ⟨rest, by simp [(List.append_singleton_inj.1 same).1]⟩
    have more := context.publisher.extends_copy sound lands
    rw [copied] at more
    exact more.beyond _ fun other => other rfl
  · rintro targets rfl pair mem outer name place content valid plain leads apart alone
    obtain ⟨pairs', placed', ran, -⟩ := context.publisher.copy_ends_iff.1 copied
    obtain rfl := Except.ok.inj (placed.symm.trans placed')
    have wanted : Wanted tree [context.edgeTemporary.name] (.ofLocation pair.1) pair.2 (outer ++ [name]) place content := by
      refine ⟨sound, bare pair mem, (named mem).2, valid, fun part mem => ?_, leads, apart⟩
      simp [FileTask.isIgnored, plain part mem]
    exact Publisher.copies_land (fun pair mem => named mem) bare mem wanted alone ran

/-! ## A project with bindings alone -/

/-- A directory of bindings in which the loader is being prepared. -/
def preparedProject (temporary : String) : FileTree where
  entries := [(["p"], .directory), (["p", "web"], .directory), (["p", "web", temporary], .file (encode "t")),
    (["p", "web", "a.js"], .file (encode "a"))]
  workingDirectory := ["p"]

/-- The bindings are published as they are. -/
def bindingsContext (loaderModule : String) : Context Unit :=
  { Context.smallContext with
    settings := { projectRoot := .ofString "/p", edge := { bindingsDirectory := .ofString "web", loaderModule,
                                                           assets := [("web", "\x7boutput_dir\x7d/web")] } } }

theorem copy_assets_plain : (preparedProject "plonk.tmp.js").WellFormed ∧ (preparedProject "plonk.tmp.js").Bare ["p", "out", "web"] ∧
    ∃ targets after, (bindingsContext "plonk.js").publisher.copy (edgeAssets (bindingsContext "plonk.js").settings.edge [("output_dir", "out")])
        [(bindingsContext "plonk.js").edgeTemporary.name] (preparedProject "plonk.tmp.js") = (.ok targets, after) ∧
      after.lookup ["p", "out", "web", "plonk.tmp.js"] = none ∧ after.lookup ["p", "out", "web", "a.js"] = some (.file (encode "a")) := by
  have sound : (preparedProject "plonk.tmp.js").WellFormed := wellFormed_of_entries (by decide) (by decide)
  have free : (preparedProject "plonk.tmp.js").LinkFree := linkFree_of_entries (by simp [preparedProject])
  have bare : (preparedProject "plonk.tmp.js").Bare ["p", "out", "web"] := ⟨fun place _ => free place, fun parts => free _⟩
  have placed : (edgeAssets (bindingsContext "plonk.js").settings.edge [("output_dir", "out")]).mapM
      ((bindingsContext "plonk.js").publisher.placesOf (preparedProject "plonk.tmp.js")) = .ok [(["p", "web"], ["p", "out", "web"])] :=
    eq_ok_of_toOption (by decide +kernel)
  have returns : ((bindingsContext "plonk.js").publisher.copy (edgeAssets (bindingsContext "plonk.js").settings.edge [("output_dir", "out")])
      [(bindingsContext "plonk.js").edgeTemporary.name] (preparedProject "plonk.tmp.js")).1.toOption.isSome = true := by decide +kernel
  obtain ⟨targets, ended⟩ := exists_of_isSome returns
  obtain ⟨-, left, brought⟩ := copy_assets sound [("output_dir", "out")] placed (by simpa using bare) ended
  refine ⟨sound, bare, targets, _, ended, ?_, ?_⟩
  · exact left ["p", "out", "web"] "plonk.tmp.js" [] (by decide +kernel) (by decide)
  · exact brought targets rfl (["p", "web"], ["p", "out", "web"]) (by decide) [] "a.js" ["p", "web", "a.js"] (encode "a") (by decide)
      (by decide +kernel) (eq_ok_of_toOption (by decide +kernel)) (by decide) (by decide)

/-- A temporary loader whose name does not describe itself is copied. -/
theorem copy_assets_brackets : (bindingsContext "plonk[1].js").edgeTemporary = .ofLocation ["p", "web", "plonk[1].tmp.js"] ∧
    (preparedProject "plonk[1].tmp.js").lookup ["p", "out", "web", "plonk[1].tmp.js"] = none ∧
    ∃ targets after, (bindingsContext "plonk[1].js").publisher.copy
        (edgeAssets (bindingsContext "plonk[1].js").settings.edge [("output_dir", "out")])
        [(bindingsContext "plonk[1].js").edgeTemporary.name] (preparedProject "plonk[1].tmp.js") = (.ok targets, after) ∧
      after.lookup ["p", "out", "web", "plonk[1].tmp.js"] = some (.file (encode "t")) := by
  have copied : ((bindingsContext "plonk[1].js").publisher.copy
      (edgeAssets (bindingsContext "plonk[1].js").settings.edge [("output_dir", "out")])
      [(bindingsContext "plonk[1].js").edgeTemporary.name] (preparedProject "plonk[1].tmp.js")).1.toOption.isSome = true ∧
    ((bindingsContext "plonk[1].js").publisher.copy
      (edgeAssets (bindingsContext "plonk[1].js").settings.edge [("output_dir", "out")])
      [(bindingsContext "plonk[1].js").edgeTemporary.name] (preparedProject "plonk[1].tmp.js")).2.lookup
        ["p", "out", "web", "plonk[1].tmp.js"] = some (.file (encode "t")) := by decide +kernel
  obtain ⟨targets, ended⟩ := exists_of_isSome copied.1
  exact ⟨by decide +kernel, by decide, targets, _, ended, copied.2⟩

end Targets

end WasmPackaging
