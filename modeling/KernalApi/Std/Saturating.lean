import Mathlib.Algebra.GroupWithZero.Nat
import Mathlib.Algebra.Order.Group.Nat
import Mathlib.Tactic.Common

/-!
# Machine-word addition that stops at the largest value

`saturatingAdd` is addition on 64-bit words that sticks at the top. A fold of
saturating additions is the saturated total, so comparisons against a limit can
be carried out on ordinary sums.
-/

namespace KernalApi.Std

/-- The largest 64-bit word. -/
def usizeMax : Nat := 2 ^ 64 - 1

/-- Addition that sticks at the largest word. -/
def saturatingAdd (left right : Nat) : Nat := min (left + right) usizeMax

/-- Saturating the left operand first does not change the result. -/
theorem saturatingAdd_min (left right : Nat) :
    saturatingAdd (min left usizeMax) right = min (left + right) usizeMax := by
  unfold saturatingAdd
  omega

/-- Saturating the right operand first does not change the result. -/
theorem saturatingAdd_min_right (left right : Nat) :
    saturatingAdd left (min right usizeMax) = saturatingAdd left right := by
  unfold saturatingAdd
  omega

/-- Saturating addition is monotone in both operands. -/
theorem saturatingAdd_mono {left left' right right' : Nat} (leftLe : left ≤ left')
    (rightLe : right ≤ right') : saturatingAdd left right ≤ saturatingAdd left' right' := by
  unfold saturatingAdd
  omega

/-- Folding saturating additions yields the saturated total. -/
theorem foldl_saturatingAdd (terms : List Nat) (start : Nat) :
    terms.foldl saturatingAdd (min start usizeMax) = min (start + terms.sum) usizeMax := by
  induction terms generalizing start with
  | nil => simp
  | cons term rest ih =>
    rw [List.foldl_cons, saturatingAdd_min, ih, List.sum_cons, Nat.add_assoc]

end KernalApi.Std
