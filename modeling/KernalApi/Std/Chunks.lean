import Mathlib.Tactic.Common

/-!
# Cutting a list into chunks

A list cut into pieces of one size, of which only the last may be shorter. The
pieces put together are the list, and there are no more of them than items. A
list may also be split at a mark.
-/

namespace KernalApi.Std

open List

variable {α : Type}

/-- The pieces of a list, in their order. -/
def chunks (size : Nat) (positive : 0 < size) (items : List α) : List (List α) :=
  if items = [] then [] else items.take size :: chunks size positive (items.drop size)
termination_by items.length
decreasing_by
  rename_i nonempty
  have filled := List.length_pos_iff.mpr nonempty
  rw [List.length_drop]
  omega

section Pieces

variable (size : Nat) (positive : 0 < size) (items : List α)

theorem flatten_chunks : (chunks size positive items).flatten = items := by
  fun_induction chunks size positive items with
  | case1 => rfl
  | case2 items nonempty rest =>
    rw [flatten_cons, rest]
    exact take_append_drop size items

/-- No piece is empty or longer than the size. -/
theorem length_of_mem_chunks : ∀ piece ∈ chunks size positive items, piece.length ≤ size := by
  fun_induction chunks size positive items with
  | case1 => nofun
  | case2 items nonempty rest =>
    intro piece member
    rcases mem_cons.mp member with rfl | later
    · exact length_take_le _ _
    · exact rest piece later

theorem length_chunks_le : (chunks size positive items).length ≤ items.length := by
  fun_induction chunks size positive items with
  | case1 => exact Nat.le_refl 0
  | case2 items nonempty rest =>
    have filled := length_pos_iff.mpr nonempty
    rw [length_drop] at rest
    rw [length_cons]
    omega

end Pieces

/-- The parts of a list that is split at a mark do not hold the mark. -/
theorem not_mem_of_mem_splitOn [BEq α] [LawfulBEq α] {items part : List α} {mark : α}
    (member : part ∈ items.splitOn mark) : mark ∉ part := by
  by_cases marked : mark ∈ items
  · obtain ⟨first, rest, rfl, before⟩ := eq_append_cons_of_mem marked
    rw [splitOn_append_cons_self_of_not_mem before, mem_cons] at member
    rcases member with rfl | later
    · exact before
    · exact not_mem_of_mem_splitOn later
  · rw [splitOn_eq_singleton marked, mem_singleton] at member
    rwa [member]
termination_by items.length

end KernalApi.Std
