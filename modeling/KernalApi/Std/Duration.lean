import Mathlib.Tactic.Common

/-!
# Durations

A span of time as whole seconds in 64 bits and the nanoseconds below one second.
Every duration is determined by its nanoseconds; counting it in milliseconds
rounds down, and a count of milliseconds is a duration again.
-/

namespace KernalApi.Std

structure Duration where
  secs : UInt64
  nanos : UInt32
  subsecond : nanos.toNat < 1000000000
  deriving DecidableEq

namespace Duration

/-- The whole span, counted in nanoseconds. -/
def asNanos (span : Duration) : Nat := span.secs.toNat * 1000000000 + span.nanos.toNat

/-- The whole span, counted in milliseconds and rounded down. -/
def asMillis (span : Duration) : Nat := span.secs.toNat * 1000 + span.nanos.toNat / 1000000

def fromSecs (secs : UInt64) : Duration := ⟨secs, 0, by decide⟩

theorem subsecond_of_millis (millis : UInt64) :
    ((millis % 1000).toUInt32 * 1000000).toNat = millis.toNat % 1000 * 1000000 := by
  have small : millis.toNat % 1000 < 1000 := Nat.mod_lt _ (by decide)
  have reduced : (millis % 1000).toUInt32.toNat = millis.toNat % 1000 := by
    exact Nat.mod_eq_of_lt (Nat.lt_trans small (by decide))
  rw [UInt32.toNat_mul, reduced]
  exact Nat.mod_eq_of_lt (by show _ * 1000000 < 2 ^ 32; omega)

def fromMillis (millis : UInt64) : Duration where
  secs := millis / 1000
  nanos := (millis % 1000).toUInt32 * 1000000
  subsecond := by
    rw [subsecond_of_millis]
    omega

def isZero (span : Duration) : Bool := span.secs == 0 && span.nanos == 0

def lt (first second : Duration) : Bool :=
  first.secs < second.secs || (first.secs == second.secs && first.nanos < second.nanos)

def max (first second : Duration) : Duration := if second.lt first then first else second

@[ext] theorem ext_asNanos {first second : Duration} (same : first.asNanos = second.asNanos) :
    first = second := by
  obtain ⟨secs, nanos, subsecond⟩ := first
  obtain ⟨secs', nanos', subsecond'⟩ := second
  simp only [asNanos] at same
  have seconds : secs = secs' := UInt64.toNat_inj.mp (by omega)
  subst seconds
  have fractions : nanos = nanos' := UInt32.toNat_inj.mp (by omega)
  subst fractions
  rfl

theorem asMillis_eq (span : Duration) : span.asMillis = span.asNanos / 1000000 := by
  unfold asMillis asNanos
  omega

@[simp] theorem asNanos_fromMillis (millis : UInt64) :
    (fromMillis millis).asNanos = millis.toNat * 1000000 := by
  show (millis / 1000).toNat * 1000000000 + ((millis % 1000).toUInt32 * 1000000).toNat = _
  rw [subsecond_of_millis]
  show millis.toNat / 1000 * 1000000000 + _ = _
  omega

theorem isZero_iff (span : Duration) : span.isZero = true ↔ span.asNanos = 0 := by
  unfold isZero asNanos
  rw [Bool.and_eq_true, beq_iff_eq, beq_iff_eq, ← UInt64.toNat_inj, ← UInt32.toNat_inj]
  show span.secs.toNat = 0 ∧ span.nanos.toNat = 0 ↔ _
  omega

theorem lt_iff (first second : Duration) :
    first.lt second = true ↔ first.asNanos < second.asNanos := by
  have below := first.subsecond
  have below' := second.subsecond
  unfold lt asNanos
  simp only [Bool.or_eq_true, Bool.and_eq_true, decide_eq_true_eq, beq_iff_eq,
    UInt64.lt_iff_toNat_lt, UInt32.lt_iff_toNat_lt, ← UInt64.toNat_inj]
  omega

theorem asNanos_max (first second : Duration) :
    (first.max second).asNanos = Max.max first.asNanos second.asNanos := by
  unfold max
  by_cases later : second.lt first = true
  · rw [if_pos later]
    have before := (lt_iff second first).mp later
    omega
  · rw [if_neg later]
    rw [lt_iff] at later
    omega

end Duration

end KernalApi.Std
