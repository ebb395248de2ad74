import WasmPackaging.FileTree.Walk

/-!
The real location of a path: every link on the way is replaced by where it leads, whether or not the
path exists. A link is resolved once and remembered, so the search ends; one that is met again while
it is being resolved leads in a circle.
-/

namespace WasmPackaging

open Text

/-- Why a path has no real location: it leads in a circle, or no name can be what it holds. -/
inductive Unresolvable where
  | linkCycle (path : String)
  | zeroCharacter
  deriving DecidableEq

/-- The wording of the error. -/
def Unresolvable.message : Unresolvable → String
  | .linkCycle path => s!"Symlink loop from {quoted path}"
  | .zeroCharacter => Fault.zeroCharacter.text

namespace FileTree

/-- What is left to do: a part of a path to take, or the end of a link's own path to remember. -/
inductive Task where
  | part (name : String)
  | seal (link : Location)

/-- The part that a task takes. -/
def Task.part? : Task → Option String
  | .part name => some name
  | .seal _ => none

/-- The links met so far, each with where it leads once that is known. -/
abbrev Trail := List (Location × Option Location)

/-- Whether a link was met. -/
def Trail.met (trail : Trail) (link : Location) : Bool := trail.any fun e => e.1 = link

/-- The work that the links among some entries can still cause: a link that was not met can bring in its
parts and the end of its path. -/
def unmetWork (trail : Trail) : List (Location × Entry) → Nat
  | [] => 0
  | (link, .link target) :: rest =>
    (if trail.met link then 0 else (slashed target).length + 2) + unmetWork trail rest
  | _ :: rest => unmetWork trail rest

theorem unmetWork_le (trail : Trail) (link : Location) (end? : Option Location)
    (entries : List (Location × Entry)) :
    unmetWork ((link, end?) :: trail) entries ≤ unmetWork trail entries := by
  induction entries with
  | nil => simp [unmetWork]
  | cons e rest ih =>
    obtain ⟨place, entry⟩ := e
    cases entry with
    | link target =>
      have still : trail.met place = true → Trail.met ((link, end?) :: trail) place = true := by
        intro met
        simp_all [Trail.met]
      simp only [unmetWork]
      cases met : trail.met place with
      | true => simpa [still met] using ih
      | false =>
        simp only [Bool.false_eq_true, if_false]
        split <;> omega
    | file | directory => exact ih

theorem unmetWork_lt {trail : Trail} {link : Location} {target : String} {entries : List (Location × Entry)}
    (hlink : find? link entries = some (.link target)) (hmet : trail.met link = false)
    (end? : Option Location) :
    unmetWork ((link, end?) :: trail) entries + (slashed target).length + 2 ≤ unmetWork trail entries := by
  induction entries with
  | nil => simp [find?] at hlink
  | cons e rest ih =>
    obtain ⟨place, entry⟩ := e
    by_cases same : place = link
    · subst same
      obtain rfl : entry = .link target := by simpa [find?] using hlink
      have later := unmetWork_le trail place end? rest
      have newly : Trail.met ((place, end?) :: trail) place = true := by simp [Trail.met]
      simp only [unmetWork, newly, hmet, if_true]
      simp only [Bool.false_eq_true, if_false]
      omega
    · have later := ih (by simpa [find?, same] using hlink)
      cases entry with
      | link other =>
        have still : Trail.met ((link, end?) :: trail) place = trail.met place := by
          simp [Trail.met, Ne.symm same]
        simp only [unmetWork, still]
        omega
      | file | directory => exact later

theorem unmetWork_lt_of_link {tree : FileTree} {trail : Trail} {link : Location} {target : String}
    (hlink : tree.lookup link = some (.link target)) (hmet : trail.met link = false)
    (end? : Option Location) :
    unmetWork ((link, end?) :: trail) tree.entries + (slashed target).length + 2 ≤
      unmetWork trail tree.entries := by
  cases link with
  | nil => simp [lookup] at hlink
  | cons name names => exact unmetWork_lt hlink hmet end?

/-- Resolves the tasks from a resolved place on; the first location is where they lead, or, when a
link was met inside itself, where its unresolved text does. -/
def resolveFrom (tree : FileTree) (trail : Trail) (place : Location) : List Task → Location
  | [] => place
  | .seal link :: rest => tree.resolveFrom ((link, some place) :: trail) place rest
  | .part name :: rest =>
    if !isPart name then tree.resolveFrom trail place rest
    else if name = parentStep then tree.resolveFrom trail place.dropLast rest
    else
      let here := place ++ [name]
      match _hentry : tree.lookup here with
      | some (.link target) =>
        match _hmet : trail.met here with
        | true =>
          match trail.lookup here with
          | some (some goal) => tree.resolveFrom trail goal rest
          | _ => Path.normalizeFrom here ((rest.filterMap Task.part?).filter isPart)
        | false =>
          tree.resolveFrom ((here, none) :: trail) (linkStart place target)
            ((slashed target).map .part ++ .seal here :: rest)
      | _ => tree.resolveFrom trail here rest
termination_by tasks => unmetWork trail tree.entries + tasks.length
decreasing_by
  · have := unmetWork_le trail link (some place) tree.entries
    simp
    omega
  · simp
  · simp
  · simp
  · have less : unmetWork ((place ++ [name], none) :: trail) tree.entries + (slashed target).length + 2 ≤
        unmetWork trail tree.entries := unmetWork_lt_of_link _hentry _hmet none
    simp
    omega
  · simp

/-- The real location of a path. -/
def resolve (tree : FileTree) (path : Path) : Except Unresolvable Location :=
  if path.holdsZero then .error .zeroCharacter
  else
    let location := tree.resolveFrom [] (tree.start path) (path.steps.map .part)
    match tree.follow (Path.ofLocation location) with
    | .error .linkLoop => .error (.linkCycle (Path.ofLocation location).toString)
    | _ => .ok location

end FileTree

end WasmPackaging
