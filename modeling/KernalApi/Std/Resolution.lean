import Mathlib.Logic.Relation
import Mathlib.Data.List.Basic

/-!
# Path resolution in a tree with symbolic links

A position is the list of names from the top of the tree. Resolution walks a list of
moves; a link that is entered puts its own moves in front of those that remain. A
place that is missing or a file can end a walk but not be walked on from.

Resolution is a partial function on cursors, so two walks from one place meet; most
of what follows rests on that.
-/

namespace KernalApi.Std.Resolution

open Relation

variable {ν φ : Type}

inductive Move (ν : Type)
  | stay
  | up
  | enter (name : ν)
deriving DecidableEq

/-- Where a link leads: moves from a fixed position, or from the directory the link is in. -/
structure Route (ν : Type) where
  start : Option (List ν)
  moves : List (Move ν)
deriving DecidableEq

inductive Entry (ν φ : Type)
  | directory
  | file (file : φ)
  | link (route : Route ν)
deriving DecidableEq

structure Cursor (ν : Type) where
  position : List ν
  moves : List (Move ν)
deriving DecidableEq

def step (look : List ν → Option (Entry ν φ)) (cursor : Cursor ν) : Option (Cursor ν) :=
  match cursor.moves with
  | [] => none
  | move :: rest =>
    match look cursor.position with
    | some .directory =>
      match move with
      | .stay => some ⟨cursor.position, rest⟩
      | .up => some ⟨cursor.position.dropLast, rest⟩
      | .enter name =>
        match look (cursor.position ++ [name]) with
        | some (.link route) => some ⟨route.start.getD cursor.position, route.moves ++ rest⟩
        | _ => some ⟨cursor.position ++ [name], rest⟩
    | _ => none

/-- A step that stays in the subtree below `top`. -/
def Within (look : List ν → Option (Entry ν φ)) (top : List ν) (before after : Cursor ν) : Prop :=
  step look before = some after ∧ top <+: after.position

/-- A walk inside the subtree below `top`. -/
abbrev Runs (look : List ν → Option (Entry ν φ)) (top : List ν) : Cursor ν → Cursor ν → Prop :=
  ReflTransGen (Within look top)

variable {look : List ν → Option (Entry ν φ)} {top : List ν}

@[simp] theorem step_nil (position : List ν) : step look ⟨position, []⟩ = none := rfl

variable {position : List ν}

theorem step_none (closed : look position ≠ some .directory) (moves : List (Move ν)) :
    step look ⟨position, moves⟩ = none := by
  cases moves with
  | nil => rfl
  | cons =>
    simp [step]

theorem step_stay (dir : look position = some .directory) (rest : List (Move ν)) :
    step look ⟨position, .stay :: rest⟩ = some ⟨position, rest⟩ := by
  simp [step, dir]

theorem step_up (dir : look position = some .directory) (rest : List (Move ν)) :
    step look ⟨position, .up :: rest⟩ = some ⟨position.dropLast, rest⟩ := by
  simp [step, dir]

theorem step_enter {name : ν} (dir : look position = some .directory)
    (plain : ∀ route, look (position ++ [name]) ≠ some (.link route)) (rest : List (Move ν)) :
    step look ⟨position, .enter name :: rest⟩ = some ⟨position ++ [name], rest⟩ := by
  simp [step, dir]

theorem step_follow {name : ν} {route : Route ν} (dir : look position = some .directory)
    (link : look (position ++ [name]) = some (.link route)) (rest : List (Move ν)) :
    step look ⟨position, .enter name :: rest⟩ = some
      ⟨route.start.getD position, route.moves ++ rest⟩ := by
  simp [step, dir, link]

variable {before after : Cursor ν}

/-- A step looks at the first move only. -/
theorem step_append (taken : step look before = some after) (rest : List (Move ν)) :
    step look ⟨before.position, before.moves ++ rest⟩ =
      some ⟨after.position, after.moves ++ rest⟩ := by
  obtain ⟨position, moves⟩ := before
  cases moves with
  | nil => cases taken
  | cons move later =>
    simp only [step, List.cons_append] at taken ⊢
    split at taken
    · rename_i dir
      cases move with
      | stay => cases taken; rfl
      | up => cases taken; rfl
      | enter name =>
        simp only at taken ⊢
        split at taken
        · cases taken
          simp
        cases taken
        rfl
    · cases taken

theorem Within.rightUnique : Relator.RightUnique (Within look top) := by
  intro before first second one two
  exact Option.some.inj (one.1.symm.trans two.1)

/-- More moves behind those of a walk are left to be made. -/
theorem Runs.append (runs : Runs look top before after) (rest : List (Move ν)) :
    Runs look top ⟨before.position, before.moves ++ rest⟩
      ⟨after.position, after.moves ++ rest⟩ := by
  induction runs with
  | refl => exact .refl
  | tail _ taken ih =>
    exact ih.tail ⟨step_append taken.1 rest, taken.2⟩

theorem Runs.eq_of_stuck (runs : Runs look top before after)
    (stuck : step look before = none) : after = before := by
  cases runs.cases_head with
  | inl same => exact same.symm
  | inr onward =>
    obtain ⟨next, taken, _⟩ := onward
    rw [taken.1] at stuck
    cases stuck

/-- A walk that is under way ends where the finished one did. -/
theorem Runs.onward {start middle final : Cursor ν} (whole : Runs look top start final)
    (stuck : step look final = none) (part : Runs look top start middle) :
    Runs look top middle final := by
  rcases ReflTransGen.total_of_right_unique Within.rightUnique whole part with back | forth
  · rw [Runs.eq_of_stuck back stuck]
  · exact forth

/-- Whatever a resolution visits lies below `top`, when one walk from the same start ends there. -/
theorem Runs.confines {start final : Cursor ν} (inside : top <+: start.position)
    (runs : Runs look top start final) (stuck : step look final = none) {cursor : Cursor ν}
    (visited : ReflTransGen (fun before after => step look before = some after) start cursor) :
    top <+: cursor.position ∧ Runs look top cursor final := by
  induction visited with
  | refl => exact ⟨inside, runs⟩
  | tail _ taken ih =>
    rcases ih.2.cases_head with same | ⟨next, within, rest⟩
    · rw [same, stuck] at taken
      cases taken
    · have equal := Option.some.inj (taken.symm.trans within.1)
      exact ⟨equal ▸ within.2, equal ▸ rest⟩

/-- Names of directories are walked through one by one. -/
theorem Runs.descend {position names : List ν} (inside : top <+: position)
    (dirs : ∀ count ≤ names.length, look (position ++ names.take count) = some .directory)
    (rest : List (Move ν)) :
    Runs look top ⟨position, names.map .enter ++ rest⟩ ⟨position ++ names, rest⟩ := by
  induction names generalizing position with
  | nil => simpa using ReflTransGen.refl
  | cons name names ih =>
    have here : look position = some .directory := by simpa using dirs 0 (Nat.zero_le _)
    have next : look (position ++ [name]) = some .directory := dirs 1 (by simp)
    have within : Within look top ⟨position, .enter name :: (names.map .enter ++ rest)⟩
        ⟨position ++ [name], names.map .enter ++ rest⟩ :=
      ⟨step_enter here (by simp [next]) _, inside.trans (List.prefix_append _ _)⟩
    have onward := ih (inside.trans (List.prefix_append position [name])) fun count few => by
      simpa using dirs (count + 1) (by simpa using few)
    simpa using ReflTransGen.head within onward

/-- Of two trees, the second has files where the first has links that end at those files. -/
def Materializes (links files : List ν → Option (Entry ν φ)) (top : List ν) : Prop :=
  ∀ place : List ν, files place = links place ∨
    ∃ route start final file, route.start = some start ∧ links place = some (.link route) ∧
      files place = some (.file file) ∧ links final = some (.file file) ∧
      Runs links top ⟨start, route.moves⟩ ⟨final, []⟩

/-- A walk in the tree with links has a counterpart in the one with files. -/
theorem Runs.materialize {links files : List ν → Option (Entry ν φ)}
    (same : Materializes links files top)
    {cursor : Cursor ν} {final : List ν} (inside : top <+: cursor.position)
    (runs : Runs links top cursor ⟨final, []⟩) :
    ∃ reached, Runs files top cursor ⟨reached, []⟩ ∧
      (reached = final ∨ ∃ file, files reached = some (.file file) ∧
        links final = some (.file file)) := by
  have directory {place : List ν} (dir : links place = some .directory) : files place =
      some .directory := by
    rcases same place with equal | ⟨route, _, _, _, _, link, _⟩
    · rw [equal, dir]
    · rw [dir] at link
      cases link
  induction runs using ReflTransGen.head_induction_on with
  | refl => exact ⟨final, .refl, .inl rfl⟩
  | @head before after within rest ih =>
    obtain ⟨reached, onward, agrees⟩ := ih within.2
    obtain ⟨position, moves⟩ := before
    have taken := within.1
    cases moves with
    | nil => cases taken
    | cons move later =>
      by_cases dir : links position = some .directory
      · have here := directory dir
        cases move with
        | stay =>
          rw [step_stay dir] at taken
          cases taken
          exact ⟨reached, .head ⟨step_stay here later, within.2⟩ onward, agrees⟩
        | up =>
          rw [step_up dir] at taken
          cases taken
          exact ⟨reached, .head ⟨step_up here later, within.2⟩ onward, agrees⟩
        | enter name =>
          rcases same (position ++ [name]) with equal | ⟨route, start, target, file, fixed, link,
            isFile, ends, leads⟩
          · have stepped : step files ⟨position, .enter name :: later⟩ = some after := by
              rw [← taken]
              simp only [step, dir, here, equal]
            exact ⟨reached, .head ⟨stepped, within.2⟩ onward, agrees⟩
          · -- the link is walked to its file, and a file ends the walk
            rw [step_follow dir link, fixed] at taken
            cases taken
            have partway := Runs.append leads later
            have finish := Runs.onward rest (step_nil _) partway
            have closed : step links ⟨target, later⟩ = none := step_none (by simp [ends]) later
            have past := Runs.eq_of_stuck finish closed
            cases past
            have stepped : step files ⟨position, [.enter name]⟩ = some ⟨position ++ [name], []⟩ :=
              step_enter here (by simp [isFile]) []
            exact ⟨position ++ [name],
              .single ⟨stepped, inside.trans (List.prefix_append _ _)⟩, .inr ⟨file, isFile, ends⟩⟩
      · rw [step_none dir] at taken
        cases taken

end KernalApi.Std.Resolution
