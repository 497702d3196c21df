import Mathlib.Tactic.Common

/-!
# Histories whose events are justified

An event log is justified when each event stands for a reason that the events
before it give. Appending to a justified log only asks for the reasons of the
new events.
-/

namespace KernalApi.Std

variable {ε : Type} {reason : List ε → ε → Prop} {history events : List ε}

/-- Every event has its reason in the events before it. -/
def Justified (reason : List ε → ε → Prop) (history : List ε) : Prop :=
  ∀ earlier event later, history = earlier ++ event :: later → reason earlier event

namespace Justified

theorem nil : Justified reason [] := by
  intro earlier event later split
  simp at split

/-- New events are justified over the whole log before them. -/
theorem append (old : Justified reason history)
    (new : ∀ earlier event later, events = earlier ++ event :: later →
      reason (history ++ earlier) event) : Justified reason (history ++ events) := by
  intro earlier event later split
  rcases List.append_eq_append_iff.mp split with
    ⟨middle, rfl, rest⟩ | ⟨middle, inside, rest⟩
  · exact new middle event later rest
  cases middle with
  | nil =>
    rw [List.append_nil] at inside
    subst inside
    have fresh := new [] event later rest.symm
    rwa [List.append_nil] at fresh
  | cons first middle =>
    cases rest
    exact old earlier event middle inside

theorem concat {event : ε} (old : Justified reason history) (new : reason history event) :
    Justified reason (history ++ [event]) := by
  refine old.append fun earlier current later split => ?_
  cases earlier with
  | nil =>
    cases split
    rwa [List.append_nil]
  | cons => simp at split

end Justified

end KernalApi.Std
