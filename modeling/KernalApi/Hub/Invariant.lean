import KernalApi.Hub.Footprint.Section
import KernalApi.Hub.Machine

/-!
# From effects to runs

A property that every elementary effect preserves holds in every reachable
state, and a relation that every effect respects relates the ends of every run.
A condition on the sections of a run restricts the effects that have to be
considered.
-/

namespace KernalApi.Hub

open Semantics

variable {thread thread' : Thread} {state state' : State} {launched : Option Thread}
  {permitted : Change → Prop}
  {hub : OperationHub} {allowed : Thread → Move → State → Prop} {pool pool' : Pool State Thread}

/-- A step of a thread is work outside the lock or one critical section. -/
theorem Thread.step_cases {choice : Choice}
    (step : thread.step hub choice state = some (thread', state', launched)) :
    (thread.move hub choice = some .outside ∧ state' = state ∧
        thread.resumeOutside hub choice = (thread', launched)) ∨
      ∃ section', thread.move hub choice = some (.locked section') ∧
        state' = (section'.run hub state).1 ∧
        thread.resumeLocked hub choice (section'.run hub state).2 = (thread', launched) := by
  unfold Thread.step at step
  split at step
  · cases step
  next outside =>
    cases step
    exact .inl ⟨outside, rfl, rfl⟩
  next section' locked =>
    cases step
    exact .inr ⟨section', locked, rfl, rfl⟩

/-- The effects that the allowed sections of a run may have are all permitted. -/
def Licensed (hub : OperationHub) (allowed : Thread → Move → State → Prop)
    (permitted : Change → Prop) : Prop :=
  permitted .draw ∧ ∀ {thread choice section' state change},
    allowed thread (.locked section') state →
    thread.move hub choice = some (.locked section') → section'.writes state change →
    permitted change

/-- Without a restriction everything is permitted. -/
theorem licensed_true : Licensed hub allowed fun _ => True := ⟨trivial, fun _ _ _ => trivial⟩

/-- A token drawn elsewhere is a drawing effect. -/
theorem drift_effects (name : permitted .draw) (state : State) :
    Effects hub permitted state state.drift :=
  nextToken_effects name

/-- A step of the machine is a chain of permitted effects. -/
theorem step_effects (licensed : Licensed hub allowed permitted) {move : Move}
    (permission : allowed thread move state)
    (step : (machine hub).Step thread move state thread' state' launched) :
    Effects hub permitted state state' := by
  obtain ⟨choice, moves, step⟩ := step
  rcases Thread.step_cases step with ⟨_, same, _⟩ | ⟨section', locked, after, _⟩
  · rw [same]
    exact .refl
  · rw [after]
    cases moves.symm.trans locked
    exact (section'.run_effects state).weaken fun _ name => licensed.2 permission locked name

/-- A relation that permitted effects respect relates the ends of every run. -/
theorem runs_relate (relation : State → State → Prop)
    (licensed : Licensed hub allowed permitted) (reflexive : ∀ state, relation state state)
    (transitive : ∀ {a b c}, relation a b → relation b c → relation a c)
    (effect : ∀ {change before after}, permitted change → Effect hub change before after →
      relation before after)
    (runs : (machine hub).Runs allowed pool pool') : relation pool.shared pool'.shared := by
  refine runs.relates reflexive transitive ?_ ?_
  · intro shared shared' moved
    rw [moved]
    exact (drift_effects licensed.1 shared).relates relation reflexive transitive effect
  · intro thread move shared thread' shared' launched permission step
    exact (step_effects licensed permission step).relates relation reflexive transitive effect

/-- A property that permitted effects preserve holds in every reachable state. -/
theorem reachable_preserves (holds : State → Prop) (licensed : Licensed hub allowed permitted)
    (initial : ∀ drawn, 1 ≤ drawn → holds { nextOpaqueToken := drawn })
    (effect : ∀ {change before after}, permitted change → Effect hub change before after →
      holds before → holds after)
    (reachable : (machine hub).Reachable allowed pool) : holds pool.shared := by
  obtain ⟨_, ⟨drawn, positive, rfl⟩, runs⟩ := reachable
  exact runs_relate (fun before after => holds before → holds after) licensed (fun _ => id)
    (fun earlier later => later ∘ earlier) effect runs (initial drawn positive)

end KernalApi.Hub
