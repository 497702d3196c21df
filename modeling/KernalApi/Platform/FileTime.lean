import KernalApi.Std.Checked

/-!
# File times

Instants are counted in nanoseconds after the Unix epoch. The Windows clock counts ticks of
100 nanoseconds after its own epoch, so a time set through it is cut to a tick.
-/

namespace KernalApi.Platform

open KernalApi.Std

/-- The order is that of the fields. -/
structure FileTime where
  secondsSinceUnixEpoch : Int
  nanoseconds : Nat
deriving DecidableEq

namespace FileTime

def fromUnixTime (secondsSinceUnixEpoch : Int) (nanoseconds : Nat) : FileTime :=
  ⟨secondsSinceUnixEpoch, nanoseconds⟩

/-- The distance of a time from the epoch is positive either way; `checks` tells whether the
build checks for overflow. -/
def fromSystemTime (checks : Bool) (time : Int) : Option FileTime :=
  let duration := time.natAbs
  let seconds := asI64 (duration / 10 ^ 9 : Nat)
  let subsec := duration % 10 ^ 9
  if 0 ≤ time then some ⟨seconds, subsec⟩
  else if subsec = 0 then do return ⟨← i64 checks (-seconds), 0⟩
  else do return ⟨← i64 checks ((← i64 checks (-seconds)) - 1), 10 ^ 9 - subsec⟩

/-- The ticks between the Windows epoch and the Unix epoch. -/
def windowsToUnixEpochTicks : Int := 116444736000000000

def windowsFileTimeToUnix (ticks : Nat) : FileTime :=
  let ticks := asI64 ticks - windowsToUnixEpochTicks
  ⟨ticks / 10000000, (ticks % 10000000 * 100).toNat⟩

/-- The ticks of a duration. -/
def intervals (duration : Nat) : Option Int :=
  i64 true ((duration / 10 ^ 9) * 10000000 + duration % 10 ^ 9 / 100)

def unixTimeToSystemTime (secondsSinceUnixEpoch : Int) (nanoseconds : Nat) : Option Int :=
  if 0 ≤ secondsSinceUnixEpoch then do
    let shift ← intervals (secondsSinceUnixEpoch.toNat * 10 ^ 9 + nanoseconds)
    i64 true (windowsToUnixEpochTicks + shift)
  else do
    let magnitude ← i64 true (-secondsSinceUnixEpoch)
    let time ← i64 true (windowsToUnixEpochTicks - (← intervals (magnitude.toNat * 10 ^ 9)))
    i64 true (time + (← intervals nanoseconds))

/-- The instant a tick of the Windows clock stands for. -/
def tickInstant (ticks : Int) : Int := (ticks - windowsToUnixEpochTicks) * 100

/-- The instant a file time stands for. -/
def instant (time : FileTime) : Int := time.secondsSinceUnixEpoch * 10 ^ 9 + time.nanoseconds

/-- Fields compare as the derived order does. -/
def Before (first second : FileTime) : Prop :=
  toLex (first.secondsSinceUnixEpoch, first.nanoseconds) <
    toLex (second.secondsSinceUnixEpoch, second.nanoseconds)

/-- The nanoseconds of the time with the earlier second do not reach the other time. -/
def Apart (first second : FileTime) : Prop :=
  first.secondsSinceUnixEpoch < second.secondsSinceUnixEpoch →
    first.nanoseconds < second.nanoseconds +
      (second.secondsSinceUnixEpoch - first.secondsSinceUnixEpoch) * 10 ^ 9

theorem before_iff (first second : FileTime) :
    ((first.Before second ↔ first.instant < second.instant) ∧
      (first = second ↔ first.instant = second.instant)) ↔
        first.Apart second ∧ second.Apart first := by
  obtain ⟨seconds, nanoseconds⟩ := first
  obtain ⟨seconds', nanoseconds'⟩ := second
  simp only [Before, Apart, instant, Prod.Lex.toLex_lt_toLex, mk.injEq]
  omega

theorem eq_of_instant {first second : FileTime} (normal : first.nanoseconds < 10 ^ 9)
    (normal' : second.nanoseconds < 10 ^ 9) (same : first.instant = second.instant) :
    first = second := by
  refine ((before_iff first second).mpr ⟨fun _ => ?_, fun _ => ?_⟩).2.mpr same <;> omega

theorem asI64_of_lt {value : Nat} (small : value < 2 ^ 63) : asI64 value = value := by
  apply Int.bmod_eq_of_le <;> omega

/-- A time is read exactly unless it has no negation and overflow is checked. -/
theorem fromSystemTime_iff (checks : Bool) {time : Int} (low : -2 ^ 63 * 10 ^ 9 ≤ time)
    (high : time < 2 ^ 63 * 10 ^ 9) :
    (∃ result, fromSystemTime checks time = some result ∧ result.nanoseconds < 10 ^ 9 ∧
      result.instant = time) ↔ ¬ (checks = true ∧ time = -2 ^ 63 * 10 ^ 9) := by
  by_cases edge : time = -2 ^ 63 * 10 ^ 9
  · subst edge
    cases checks <;> decide
  refine iff_of_true ?_ fun both => edge both.2
  have few : time.natAbs / 10 ^ 9 < 2 ^ 63 := by omega
  simp only [fromSystemTime, asI64_of_lt few]
  generalize split : (time.natAbs / 10 ^ 9 : Nat) = seconds at few
  split_ifs with late whole
  · refine ⟨_, rfl, Nat.mod_lt _ (by decide), ?_⟩
    simp only [instant]
    omega
  · rw [i64_of_fits ⟨by omega, by omega⟩]
    refine ⟨_, rfl, Nat.zero_lt_succ _, ?_⟩
    simp only [instant]
    omega
  · rw [i64_of_fits ⟨by omega, by omega⟩]
    simp only [Option.bind_eq_bind, Option.bind_some]
    rw [i64_of_fits ⟨by omega, by omega⟩]
    refine ⟨_, rfl, ?_, ?_⟩
    all_goals
      simp only [instant]
      omega

/-- What is set lies less than a tick before the time. -/
theorem unixTimeToSystemTime_eq {seconds : Int} {nanoseconds : Nat} {ticks : Int}
    (set : unixTimeToSystemTime seconds nanoseconds = some ticks) :
    tickInstant ticks + nanoseconds % 100 = seconds * 10 ^ 9 + nanoseconds ∧
      -2 ^ 63 ≤ ticks ∧ ticks < 2 ^ 63 := by
  simp only [unixTimeToSystemTime, intervals, Option.bind_eq_bind] at set
  split_ifs at set with late
  · simp only [Option.bind_eq_some_iff] at set
    obtain ⟨shift, shifted, added⟩ := set
    have shift_eq := i64_eq_some shifted
    obtain ⟨last, within⟩ := i64_eq_some added
    refine ⟨?_, within⟩
    simp only [tickInstant]
    omega
  · simp only [Option.bind_eq_some_iff] at set
    obtain ⟨magnitude, negated, back, backward, time, subtracted, shift, shifted, added⟩ := set
    have magnitude_eq := i64_eq_some negated
    have back_eq := i64_eq_some backward
    have time_eq := i64_eq_some subtracted
    have shift_eq := i64_eq_some shifted
    obtain ⟨last, within⟩ := i64_eq_some added
    refine ⟨?_, within⟩
    simp only [tickInstant]
    omega

end FileTime

end KernalApi.Platform
