import Mathlib.Logic.Relation
import Mathlib.Tactic.Common

/-!
# Handing the pending sink to the sampler

Dropping the runtime stops the sampler, and then either joins it and removes the pending
sink, or leaves both to a sampler in the middle of a capture. The two threads meet in a
`done` flag, a `sampling` flag and an optional path under the `handoff` lock. A step is one
atomic load or store, or one section under a lock that no other access can tell apart.
-/

namespace KernalApi.Crash

/-- Where `sampler_loop` stands. Captures are numbered in the order they begin. -/
inductive SamplerPoint
  | checking
  | waiting
  | ready
  | capturing (capture : Nat)
  | publishing
  | exiting
  | leaving
  | releasing
  | removing
  | ended
deriving DecidableEq

/-- Where the drop of the runtime stands; `current` is the capture that was in progress
when it took the `handoff` lock. -/
inductive TeardownPoint
  | alive
  | requested
  | locked (current : Option Nat)
  | joining (current : Option Nat)
  | removing
  | detached
  | finished
deriving DecidableEq

inductive Party
  | sampler
  | teardown
deriving DecidableEq

/-- What the two threads share, with the removals of the sink so far. -/
structure Handoff where
  stop : Bool
  sampling : Bool
  done : Bool
  sink : Bool
  captures : Nat
  /-- Whether the sampler has dropped its reference to the shared state. -/
  released : Bool
  removals : List Party
  sampler : SamplerPoint
  teardown : TeardownPoint

namespace SamplerPoint

@[grind] def capture? : SamplerPoint → Option Nat
  | .capturing capture => some capture
  | _ => none

/-- Past the last section under the `handoff` lock. -/
@[grind] def past : SamplerPoint → Bool
  | .leaving | .releasing | .removing | .ended => true
  | _ => false

@[grind] def holdsNothing : SamplerPoint → Bool
  | .removing | .ended => true
  | _ => false

@[grind →] theorem capture?_of_past {point : SamplerPoint} (past : point.past = true) :
    point.capture? = none := by
  cases point <;> first | rfl | cases past

/-- After a stop is requested every step brings a thread closer to its end. -/
@[grind] def rank : SamplerPoint → Nat
  | .ready => 7
  | .capturing _ => 6
  | .publishing => 5
  | .checking | .waiting => 4
  | .exiting => 3
  | .releasing => 2
  | .removing | .leaving => 1
  | .ended => 0

end SamplerPoint

@[grind] def TeardownPoint.rank : TeardownPoint → Nat
  | .alive => 5
  | .requested => 4
  | .locked _ => 3
  | .joining _ => 2
  | .removing => 1
  | .detached | .finished => 0

namespace Handoff

def initial : Handoff := ⟨false, false, false, false, 0, false, [], .checking, .alive⟩

variable (state : Handoff)

/-- A step of the sampler. `reading` is what the loop loads of the fatal callback's flag. -/
def samplerStep (reading : Bool) : Option Handoff :=
  match state.sampler with
  | .checking => some { state with sampler := if state.stop then .exiting else .waiting }
  | .waiting => some { state with sampler := if state.stop then .exiting else .ready }
  | .ready =>
    if reading then some { state with sampler := .checking }
    else some { state with
      sampler := .capturing state.captures, sampling := true, captures := state.captures + 1 }
  | .capturing _ => some { state with sampler := .publishing, sampling := false }
  | .publishing => some { state with sampler := .checking }
  | .exiting =>
    match state.teardown with
    | .locked _ => none
    | _ => some { state with
      done := true, sink := false, sampler := if state.sink then .releasing else .leaving }
  | .leaving => some { state with released := true, sampler := .ended }
  | .releasing => some { state with released := true, sampler := .removing }
  | .removing => some { state with removals := state.removals ++ [.sampler], sampler := .ended }
  | .ended => none

/-- A step of the drop of the runtime. -/
def teardownStep : Option Handoff :=
  match state.teardown with
  | .alive => some { state with stop := true, teardown := .requested }
  | .requested => some { state with teardown := .locked state.sampler.capture? }
  | .locked current =>
    if !state.done && state.sampling then some { state with sink := true, teardown := .detached }
    else some { state with teardown := .joining current }
  | .joining _ => if state.sampler = .ended then some { state with teardown := .removing } else none
  | .removing =>
    some { state with removals := state.removals ++ [.teardown], teardown := .finished }
  | .detached | .finished => none

/-- One thread takes a step. -/
inductive Step : Handoff → Handoff → Prop
  | sampler {before after : Handoff} (reading : Bool)
    (step : before.samplerStep reading = some after) : Step before after
  | teardown {before after : Handoff} (step : before.teardownStep = some after) : Step before after

/-- Both threads have come to their end. -/
def Complete : Prop :=
  state.sampler = .ended ∧ (state.teardown = .detached ∨ state.teardown = .finished)

def rank : Nat := state.sampler.rank + state.teardown.rank

/-- The removals that are due at two points. -/
@[grind] def due : SamplerPoint → TeardownPoint → List Party
  | .ended, .detached => [.sampler]
  | _, .finished => [.teardown]
  | _, _ => []

/-- The flags and the removals are determined by where the threads stand. -/
structure Consistent : Prop where
  stop : state.stop = decide (state.teardown ≠ .alive)
  sampling : state.sampling = state.sampler.capture?.isSome
  done : state.done = state.sampler.past
  sink : state.sink = decide (state.teardown = .detached ∧ state.sampler.past = false)
  released : state.released = state.sampler.holdsNothing
  removals : state.removals = due state.sampler state.teardown
  handed : state.sampler = .releasing ∨ state.sampler = .removing → state.teardown = .detached
  kept : state.sampler = .leaving → state.teardown ≠ .detached
  joined : state.teardown = .removing ∨ state.teardown = .finished → state.sampler = .ended
  begun : ∀ capture, state.sampler.capture? = some capture → capture < state.captures
  seen : ∀ capture, state.teardown = .locked (some capture) → capture < state.captures
  spared : ∀ capture, state.teardown = .joining (some capture) →
    capture < state.captures ∧ state.sampler.capture? ≠ some capture

variable {state} {after : Handoff}

theorem Consistent.samplerStep {reading : Bool} (consistent : state.Consistent)
    (step : state.samplerStep reading = some after) : after.Consistent := by
  obtain ⟨stop, sampling, done, sink, captures, released, removals, sampler, teardown⟩ := state
  cases sampler <;> simp only [Handoff.samplerStep] at step <;> constructor <;> grind -ring
    -linarith [Consistent]

theorem Consistent.teardownStep (consistent : state.Consistent)
    (step : state.teardownStep = some after) : after.Consistent := by
  obtain ⟨stop, sampling, done, sink, captures, released, removals, sampler, teardown⟩ := state
  cases teardown <;> simp only [Handoff.teardownStep] at step <;> constructor <;> grind -ring
    -linarith [Consistent]

theorem consistent_of_reachable (reached : Relation.ReflTransGen Step initial state) :
    state.Consistent := by
  induction reached with
  | refl => constructor <;> grind [initial]
  | tail _ step ih =>
    cases step with
    | sampler reading step => exact ih.samplerStep step
    | teardown step => exact ih.teardownStep step

/-- The pending sink is removed at most once, and once when both threads have come to
their end, which they do once a stop is requested. The sampler removes it only where the drop
has detached, after releasing the shared state. The drop does not wait for the capture it found in
progress, and does not detach from a sampler past its last look at the handoff. -/
theorem sink_removed_once (reached : Relation.ReflTransGen Step initial state) :
    state.removals.length ≤ 1 ∧ (state.Complete → state.removals.length = 1) ∧
    (∀ after, Step state after → after.removals = state.removals ++ [.sampler] →
      state.teardown = .detached ∧ state.released = true) ∧
    (∀ capture, state.teardown = .joining (some capture) → state.sampler ≠ .capturing capture) ∧
    (∀ after, Step state after → state.teardown ≠ .detached → after.teardown = .detached →
      state.done = false ∧ state.sampler ≠ .ended) ∧
    (state.stop = true → (∀ after, Step state after → after.rank < state.rank) ∧
      (¬ state.Complete → ∃ after, Step state after)) := by
  have consistent := consistent_of_reachable reached
  refine ⟨?_, ?_, ?_, ?_, ?_, fun stopped => ⟨fun after step => ?_, fun incomplete => ?_⟩⟩
  · rw [consistent.removals]
    unfold due
    split <;> decide
  · rintro ⟨ended, detached | finished⟩
    · rw [consistent.removals, ended, detached]
      rfl
    · rw [consistent.removals, ended, finished]
      rfl
  · intro after step removed
    cases step with
    | sampler reading step => unfold Handoff.samplerStep at step; grind [Consistent]
    | teardown step => unfold Handoff.teardownStep at step; grind [Consistent]
  · intro capture joining capturing
    exact (consistent.spared capture joining).2 (by rw [capturing]; rfl)
  · intro after step before detached
    cases step with
    | sampler reading step => unfold Handoff.samplerStep at step; grind
    | teardown step => unfold Handoff.teardownStep at step; grind [Consistent]
  · -- After a stop request no thread can go on for ever.
    obtain ⟨stop, sampling, done, sink, captures, released, removals, sampler, teardown⟩ := state
    cases step with
    | sampler reading step =>
      cases sampler <;> simp only [Handoff.samplerStep] at step <;> grind [rank]
    | teardown step =>
      cases teardown <;> simp only [Handoff.teardownStep] at step <;> grind [rank]
  -- The sampler waits only for the lock, and the drop only for the end of the sampler.
  · by_cases free : state.sampler ≠ .ended ∧ ∀ current, state.teardown ≠ .locked current
    · have next : (state.samplerStep true).isSome := by grind [Handoff.samplerStep]
      exact (Option.isSome_iff_exists.mp next).imp fun _ step => .sampler true step
    · have next : (state.teardownStep).isSome := by grind [Handoff.teardownStep, Complete]
      exact (Option.isSome_iff_exists.mp next).imp fun _ step => .teardown step

/-- The drop finds the first capture in progress and detaches. -/
theorem sink_removed_once_midCapture :
    (⟨true, true, false, true, 1, false, [], .capturing 0, .detached⟩ : Handoff).removals.length ≤
    1 := by
  have capturing : Relation.ReflTransGen Step initial
      ⟨false, true, false, false, 1, false, [], .capturing 0, .alive⟩ :=
    ((Relation.ReflTransGen.single (.sampler true rfl)).tail (.sampler true rfl)).tail
    (.sampler false rfl)
  exact (sink_removed_once
    (((capturing.tail (.teardown rfl)).tail (.teardown rfl)).tail (.teardown rfl))).1

end Handoff

end KernalApi.Crash
