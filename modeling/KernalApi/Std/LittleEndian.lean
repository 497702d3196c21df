import Mathlib.Algebra.GroupWithZero.Nat
import Mathlib.Tactic.Common

/-!
# Little-endian words

A natural number below `256 ^ width` and its `width` bytes, least significant
byte first, determine each other.
-/

namespace KernalApi.Std

/-- The lowest `width` bytes of a number, least significant byte first. -/
def leBytes : Nat → Nat → List UInt8
  | 0, _ => []
  | width + 1, value => UInt8.ofNat value :: leBytes width (value / 256)

/-- The number a list of bytes stands for. -/
def leValue : List UInt8 → Nat
  | [] => 0
  | byte :: bytes => byte.toNat + 256 * leValue bytes

@[simp] theorem length_leBytes (width value : Nat) : (leBytes width value).length = width := by
  induction width generalizing value with
  | zero => rfl
  | succ width ih => simp [leBytes, ih]

theorem leValue_lt (bytes : List UInt8) : leValue bytes < 256 ^ bytes.length := by
  induction bytes with
  | nil => simp [leValue]
  | cons byte bytes ih =>
    have small := byte.toNat_lt
    simp only [leValue, List.length_cons]
    omega

/-- Reading a written number gives it back when it fits. -/
theorem leValue_leBytes {width value : Nat} (fits : value < 256 ^ width) :
    leValue (leBytes width value) = value := by
  induction width generalizing value with
  | zero =>
    simp only [leBytes, leValue]
    omega
  | succ width ih =>
    have quotient : value / 256 < 256 ^ width := by
      omega
    have low : (UInt8.ofNat value).toNat = value % 256 := by simp
    simp only [leBytes, leValue, ih quotient]
    omega

/-- Writing a read number gives its bytes back. -/
theorem leBytes_leValue (bytes : List UInt8) : leBytes bytes.length (leValue bytes) = bytes := by
  induction bytes with
  | nil => rfl
  | cons byte bytes ih =>
    have small := byte.toNat_lt
    have quotient : (byte.toNat + 256 * leValue bytes) / 256 = leValue bytes := by omega
    have low : UInt8.ofNat (byte.toNat + 256 * leValue bytes) = byte := by
      apply UInt8.toNat_inj.mp
      rw [UInt8.toNat_ofNat']
      omega
    simp only [leValue, List.length_cons, leBytes, quotient, low, ih]

end KernalApi.Std
