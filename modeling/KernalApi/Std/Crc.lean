import Mathlib.Data.BitVec

/-!
# Cyclic redundancy checks

The register of a reflected check moves towards its lowest bit, one bit of the
message at a time. Feeding is linear in the register and the message, and a
register that is fed its own bits only moves: a table of bytes rests on the two.
Messages that differ only within as many bits as the register has are told apart.
-/

namespace KernalApi.Std.Crc

variable {width : Nat} {polynomial : BitVec width}

/-- One bit of the message: the polynomial is added when the bit that leaves the
register differs from it. -/
def feed (polynomial register : BitVec width) (bit : Bool) : BitVec width :=
  (register >>> 1) ^^^ if register.getLsbD 0 ^^ bit then polynomial else 0

/-- The register after the first bits of a message. -/
def run (polynomial : BitVec width) (count : Nat) (register : BitVec width) (message : Nat → Bool) :
    BitVec width :=
  (List.range count).foldl (fun register bit => feed polynomial register (message bit)) register

theorem feed_xor (left right : BitVec width) (first second : Bool) :
    feed polynomial (left ^^^ right) (first ^^ second)
      = feed polynomial left first ^^^ feed polynomial right second := by
  have both : ∀ one other : Bool, (if one ^^ other then polynomial else 0)
      = (if one then polynomial else 0) ^^^ if other then polynomial else 0 := by
    intro one other
    cases one <;> cases other <;> simp
  simp only [feed, BitVec.getLsbD_xor, BitVec.ushiftRight_xor_distrib, both]
  ac_rfl

theorem run_succ (count : Nat) (register : BitVec width) (message : Nat → Bool) :
    run polynomial (count + 1) register message
      = feed polynomial (run polynomial count register message) (message count) := by
  simp [run, List.range_succ]

theorem run_xor (count : Nat) (left right : BitVec width) (first second : Nat → Bool) :
    run polynomial count (left ^^^ right) (fun bit => first bit ^^ second bit)
      = run polynomial count left first ^^^ run polynomial count right second := by
  induction count with
  | zero => rfl
  | succ count ih => rw [run_succ, run_succ, run_succ, ih, feed_xor]

/-- A register that is fed its own bits only moves. -/
theorem run_own (count : Nat) (register : BitVec width) :
    run polynomial count register register.getLsbD = register >>> count := by
  induction count with
  | zero => simp [run]
  | succ count ih => simp [run_succ, ih, feed, BitVec.shiftRight_add]

/-- The bits that leave a register may as well be added to the message. -/
theorem run_eq (count : Nat) (register : BitVec width) (message : Nat → Bool) :
    run polynomial count register message = (register >>> count)
      ^^^ run polynomial count 0 (fun bit => register.getLsbD bit ^^ message bit) := by
  rw [← run_own, ← run_xor]
  simp

section Bursts

variable {register left right : BitVec width} {bit : Bool} {first second : List Bool}
  (top : polynomial.msb = true)
include top

/-- The highest bit tells whether the polynomial was added. -/
theorem feed_msb : (feed polynomial register bit).msb = (register.getLsbD 0 ^^ bit) := by
  simp only [feed, BitVec.msb_xor, BitVec.msb_ushiftRight]
  split <;> simp_all

/-- A bit moves the highest set bit down by one place, or sets the highest of all. -/
theorem feed_above {count : Nat} (high : 2 ^ (count + 1) ≤ register.toNat) :
    2 ^ count ≤ (feed polynomial register bit).toNat := by
  cases leaves : register.getLsbD 0 ^^ bit with
  | true =>
    have set := BitVec.toNat_ge_of_msb_true ((feed_msb top).trans leaves)
    have small : count + 1 < width :=
      (Nat.pow_lt_pow_iff_right (by decide)).mp (high.trans_lt register.isLt)
    exact (Nat.pow_le_pow_right (by decide) (by omega)).trans set
  | false =>
    rw [feed, leaves, if_neg (by decide)]
    simp only [BitVec.ofNat_eq_ofNat, BitVec.xor_zero, BitVec.toNat_ushiftRight, Nat.shiftRight_one]
    omega

theorem feed_injective (bit : Bool) : Function.Injective (feed polynomial · bit) := by
  intro left right same
  have zero : feed polynomial (left ^^^ right) false = 0 := by
    rw [← Bool.xor_self bit, feed_xor, show feed polynomial left bit = _ from same]
    exact BitVec.xor_self
  have low : (left ^^^ right).getLsbD 0 = false := by
    have set : (feed polynomial (left ^^^ right) false).msb = _ := feed_msb top
    simpa [zero] using set.symm
  apply BitVec.xor_eq_zero_iff.mp
  apply BitVec.eq_of_getLsbD_eq
  intro place _
  cases place with
  | zero => simpa using low
  | succ place =>
    have moved := congrArg (BitVec.getLsbD · place) zero
    simpa [feed, low, Nat.add_comm] using moved

theorem foldl_feed_injective (bits : List Bool) :
    Function.Injective (fun register => bits.foldl (feed polynomial) register) := by
  induction bits with
  | nil => exact Function.injective_id
  | cons bit bits ih => exact ih.comp (feed_injective top bit)

/-- Registers stay apart for as many bits as there are below the highest in which they differ. -/
theorem foldl_feed_ne (length : first.length = second.length)
    (apart : 2 ^ first.length ≤ (left ^^^ right).toNat) :
    first.foldl (feed polynomial) left ≠ second.foldl (feed polynomial) right := by
  induction first generalizing second left right with
  | nil =>
    intro same
    obtain rfl := List.length_eq_zero_iff.mp length.symm
    rw [show left = right from same] at apart
    simp at apart
  | cons bit first ih =>
    obtain _ | ⟨other, second⟩ := second
    · cases length
    have shorter : first.length = second.length := Nat.succ.inj length
    show first.foldl _ (feed polynomial left bit) ≠ second.foldl _ (feed polynomial right other)
    apply ih shorter
    rw [← feed_xor]
    exact feed_above top apart

/-- Messages no longer than the register are told apart. -/
theorem eq_of_foldl_feed_eq (length : first.length = second.length) (short : first.length ≤ width)
    (same : first.foldl (feed polynomial) register = second.foldl (feed polynomial) register) :
    first = second := by
  induction first generalizing second register with
  | nil => exact (List.length_eq_zero_iff.mp length.symm).symm
  | cons bit first ih =>
    obtain _ | ⟨other, second⟩ := second
    · cases length
    have shorter : first.length = second.length := Nat.succ.inj length
    obtain rfl | differ := eq_or_ne bit other
    · rw [ih shorter (Nat.le_of_succ_le short) same]
    -- Registers after different bits differ at the top, too high for the bits that are left.
    · have set : (feed polynomial register bit ^^^ feed polynomial register other).msb = true := by
        rw [← feed_xor, feed_msb top]
        simpa using differ
      have room : 2 ^ first.length ≤ 2 ^ (width - 1) :=
        Nat.pow_le_pow_right (by decide) (Nat.le_sub_one_of_lt short)
      have apart := foldl_feed_ne top shorter (room.trans (BitVec.toNat_ge_of_msb_true set))
      exact absurd same apart

end Bursts

end KernalApi.Std.Crc
