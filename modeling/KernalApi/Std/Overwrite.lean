import Mathlib.Tactic.Common

/-!
# Overwriting a part of a list
-/

namespace KernalApi.Std

variable {α : Type}

/-- Replace the elements from a position on, within the length of the list. -/
def overwriteAt (list : List α) (position : Nat) (elements : List α) : List α :=
  list.take position ++
    (elements.take (list.length - position) ++ list.drop (position + elements.length))

theorem length_overwriteAt (list : List α) (position : Nat) (elements : List α) :
    (overwriteAt list position elements).length = list.length := by
  simp only [overwriteAt, List.length_append, List.length_take, List.length_drop]
  omega

end KernalApi.Std
