import KernalApi.Std.SortedMap
import Mathlib.Data.List.Induction
import Mathlib.Data.String.Basic

/-!
# Folded stacks of a profiling session

`folded` counts how often each call stack was sampled. All exports of a session
are built from it.
-/

namespace KernalApi.Profile

open KernalApi.Std List

variable {stack : List String} {count : Nat}

/-- One sample after name resolution: its function names, leaf first, and whether
the captured stack was cut short. -/
structure ResolvedSample where
  frames : List String
  truncated : Bool
deriving DecidableEq

structure SessionResult where
  samples : List ResolvedSample
  startUnixNanos : Int
  durationNanos : Nat
  periodNanos : Nat

namespace SessionResult

/-- The stack of a sample, root first. -/
def stackOf (sample : ResolvedSample) : List String := sample.frames.reverse

/-- The counts of the stacks; samples without frames are left out. -/
def counts (samples : List ResolvedSample) : SortedMap (List String) Nat :=
  samples.foldl (fun counts sample =>
    let stack := stackOf sample
    if stack.isEmpty then counts
    else counts.insert stack ((counts.get? stack).getD 0 + 1)) .empty

/-- Hottest first, then by the stack. -/
def hotter (first second : List String × Nat) : Bool :=
  decide (second.2 < first.2) || (decide (first.2 = second.2) && decide (first.1 ≤ second.1))

def folded (result : SessionResult) : List (List String × Nat) :=
  (counts result.samples).entries.insertionSort fun first second => hotter first second

/-- The samples that have at least one frame. -/
def sampled (samples : List ResolvedSample) : List ResolvedSample :=
  samples.filter fun sample => !sample.frames.isEmpty

theorem counts_concat (samples : List ResolvedSample) (sample : ResolvedSample) :
    counts (samples ++ [sample]) =
      if (stackOf sample).isEmpty then counts samples
      else (counts samples).insert (stackOf sample)
        (((counts samples).get? (stackOf sample)).getD 0 + 1) := by
  simp [counts]

/-- Every counted stack has a frame. -/
theorem counts_nonempty (samples : List ResolvedSample)
    (counted : (counts samples).get? stack = some count) : stack ≠ [] := by
  induction samples using reverseRecOn generalizing count with
  | nil => simp [counts] at counted
  | append_singleton samples sample ih =>
    rw [counts_concat] at counted
    split at counted
    · exact ih counted
    rename_i some_
    rw [SortedMap.get?_insert] at counted
    split at counted
    · rename_i same
      subst same
      simpa using some_
    exact ih counted

/-- The counts add up to the number of samples with a frame. -/
theorem counts_sum (samples : List ResolvedSample) :
    (counts samples).sum id = (sampled samples).length := by
  induction samples using reverseRecOn with
  | nil => rfl
  | append_singleton samples sample ih =>
    rw [counts_concat, sampled, filter_append, length_append, ← sampled, ← ih]
    by_cases none : sample.frames = []
    · simp [stackOf, none]
    have exchange := (counts samples).sum_insert_exchange (stackOf sample)
      (((counts samples).get? (stackOf sample)).getD 0 + 1) id
    have apart : (stackOf sample).isEmpty = false := by simpa [stackOf] using none
    have kept : (!sample.frames.isEmpty) = true := by simpa using none
    have before : ((counts samples).get? (stackOf sample)).elim 0 id =
        ((counts samples).get? (stackOf sample)).getD 0 := by
      cases (counts samples).get? (stackOf sample) <;> rfl
    rw [apart, if_neg (by simp), filter_singleton, kept, cond_true, length_singleton]
    simp only [id_eq] at exchange
    omega

theorem folded_perm (result : SessionResult) : result.folded.Perm (counts result.samples).entries :=
  perm_insertionSort _ _

theorem folded_nonempty (result : SessionResult)
    (member : (stack, count) ∈ result.folded) : stack ≠ [] := by
  rw [result.folded_perm.mem_iff, SortedMap.mem_entries_iff] at member
  exact counts_nonempty result.samples member

theorem folded_sum (result : SessionResult) :
    (result.folded.map Prod.snd).sum = (sampled result.samples).length := by
  rw [← counts_sum, SortedMap.sum, SortedMap.values, map_map,
    (result.folded_perm.map Prod.snd).sum_eq]
  rfl

end SessionResult

end KernalApi.Profile
