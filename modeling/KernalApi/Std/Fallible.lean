/-!
# Computations that stop at the first error

A computation came to its end exactly when each of its parts did.
-/

namespace KernalApi.Std.Fallible

universe u v

variable {ε : Type u} {σ β : Type v} {first : Except ε σ} {next : σ → Except ε β} {value : β}

theorem bind_ok_iff :
    first >>= next = .ok value ↔ ∃ middle, first = .ok middle ∧ next middle = .ok value := by
  cases first with
  | error error => exact ⟨fun failed => (by cases failed), fun ⟨_, failed, _⟩ => (by cases failed)⟩
  | ok middle =>
    exact ⟨fun rest => ⟨middle, rfl, rest⟩, fun ⟨_, same, rest⟩ => (by cases same; exact rest)⟩

theorem bind_ok (succeeded : first >>= next = .ok value) :
    ∃ middle, first = .ok middle ∧ next middle = .ok value := bind_ok_iff.mp succeeded

end KernalApi.Std.Fallible
