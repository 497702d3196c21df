import Mathlib.Data.List.Basic

/-!
# Walks over named trees

A tree has leaves of a value and branches of named children. A walk goes down
from a path, asks about every branch before it reads it, and leaves out the ones
refused with everything below.
-/

namespace KernalApi.Std

/-- A leaf, or a branch of named children. -/
inductive Tree (ν α : Type)
  | leaf (value : α)
  | branch (children : List (ν × Tree ν α))

namespace Tree

variable {ν α : Type}

mutual

/-- Every leaf with its path from the root. -/
def leaves : Tree ν α → List (List ν × α)
  | .leaf value => [([], value)]
  | .branch children => leavesBelow children

def leavesBelow : List (ν × Tree ν α) → List (List ν × α)
  | [] => []
  | (name, child) :: rest =>
    child.leaves.map (fun leaf => (name :: leaf.1, leaf.2)) ++ leavesBelow rest

end

mutual

/-- The entries a walk yields, in the order of the children; a branch has no value. -/
def walk (keep : List ν → Bool) (path : List ν) : Tree ν α → List (List ν × Option α)
  | .leaf value => [(path, some value)]
  | .branch children => if keep path then (path, none) :: walkBelow keep path children else []

def walkBelow (keep : List ν → Bool) (path : List ν) :
    List (ν × Tree ν α) → List (List ν × Option α)
  | [] => []
  | (name, child) :: rest => child.walk keep (path ++ [name]) ++ walkBelow keep path rest

end

/-- Whether every branch from a path down to the parent of a leaf is kept. -/
def keeps (keep : List ν → Bool) (path : List ν) : List ν → Bool
  | [] => true
  | name :: rest => keep path && keeps keep (path ++ [name]) rest

/-- The leaves among the entries of a walk. -/
def reached (entries : List (List ν × Option α)) : List (List ν × α) :=
  entries.filterMap fun entry => entry.2.map fun value => (entry.1, value)

/-- Leaves at which a walk from a path arrives. -/
def arrived (keep : List ν → Bool) (path : List ν) (leaves : List (List ν × α)) :
    List (List ν × α) :=
  (leaves.filter fun leaf => keeps keep path leaf.1).map fun leaf => (path ++ leaf.1, leaf.2)

theorem arrived_append (keep : List ν → Bool) (path : List ν) (first second : List (List ν × α)) :
    arrived keep path (first ++ second) = arrived keep path first ++ arrived keep path second := by
  simp only [arrived, List.filter_append, List.map_append]

/-- One child's leaves, seen from the parent. -/
theorem arrived_cons {keep : List ν → Bool} {path : List ν} (kept : keep path = true) (name : ν)
    (leaves : List (List ν × α)) :
    arrived keep path (leaves.map fun leaf => (name :: leaf.1, leaf.2)) =
      arrived keep (path ++ [name]) leaves := by
  simp only [arrived, List.filter_map, List.map_map]
  have same : ((fun leaf : List ν × α => keeps keep path leaf.1) ∘
        fun leaf : List ν × α => (name :: leaf.1, leaf.2))
      = fun leaf : List ν × α => keeps keep (path ++ [name]) leaf.1 := by
    funext leaf
    simp only [Function.comp_apply, keeps, kept, Bool.true_and]
  rw [same]
  apply List.map_congr_left
  intro leaf _
  simp

mutual

/-- A walk arrives at exactly the leaves whose branches are all kept. -/
theorem reached_walk (keep : List ν → Bool) (path : List ν) (tree : Tree ν α) :
    reached (tree.walk keep path) = arrived keep path tree.leaves := by
  cases tree with
  | leaf =>
    rw [leaves, arrived, List.filter_cons_of_pos rfl]
    simp [walk, reached]
  | branch children =>
    by_cases kept : keep path = true
    · rw [walk, if_pos kept, leaves, ← reached_walkBelow keep path children kept]
      rfl
    · rw [walk, if_neg kept, leaves, arrived_leavesBelow_refused keep path children
        (by simpa using kept)]
      rfl
termination_by sizeOf tree

theorem reached_walkBelow (keep : List ν → Bool) (path : List ν) (children : List (ν × Tree ν α))
    (kept : keep path = true) : reached (walkBelow keep path children) =
    arrived keep path (leavesBelow children) := by
  cases children with
  | nil => rfl
  | cons first rest =>
    obtain ⟨name, child⟩ := first
    rw [walkBelow, leavesBelow, reached, List.filterMap_append, ← reached, ← reached,
      arrived_append, arrived_cons kept,
      reached_walk keep (path ++ [name]) child, reached_walkBelow keep path rest kept]
termination_by sizeOf children

theorem arrived_leavesBelow_refused (keep : List ν → Bool) (path : List ν)
    (children : List (ν × Tree ν α))
    (refused : keep path = false) : arrived keep path (leavesBelow children) = [] := by
  cases children with
  | nil => rfl
  | cons first rest =>
    obtain ⟨name, child⟩ := first
    rw [leavesBelow, arrived_append, arrived_leavesBelow_refused keep path rest refused]
    simp [arrived, List.filter_map, Function.comp_def, keeps, refused]
termination_by sizeOf children

end

end Tree

end KernalApi.Std
