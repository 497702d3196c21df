import KernalApi.Snapshot.Attribute
import KernalApi.Snapshot.Resolver
import KernalApi.Std.LittleEndian
import Mathlib.Data.List.TakeWhile

/-!
# Callers of a captured thread

`unwindSample` on x86_64 Linux and macOS keeps what the metadata unwinder yields
for as long as its callers lie in executable mappings, and extends it with the
chain of frame pointers in the copied stack. The metadata unwinder is a
parameter: the list of addresses it yields.
-/

namespace KernalApi.Snapshot

open KernalApi.Std List

variable {low : Nat} {addresses : List UInt64}

/-- What unwinding reads of a loaded module. -/
structure ExecutableModule where
  executableRanges : List AddressRange

def ExecutableModule.containsExecutable (module : ExecutableModule) (address : UInt64) : Bool :=
  module.executableRanges.any fun range => range.contains address

def anyExecutable (modules : List ExecutableModule) (address : UInt64) : Bool :=
  modules.any fun module => module.containsExecutable address

/-- The word of the stack copy from an address on. -/
def wordAt (context : ThreadContext) (address : Nat) : UInt64 :=
  .ofNat (leValue ((context.stackBytes.drop (address - context.stackPointer.toNat)).take 8))

def readWord (context : ThreadContext) (address : Nat) : Option UInt64 :=
  if ¬ 8 ∣ address ∨ address < context.stackPointer.toNat then none
  else if address - context.stackPointer.toNat + 8 ≤ context.stackBytes.length then
    some (wordAt context address)
  else none

/-- The loop of `frame_pointer_fallback`, for at most so many frames. -/
def walkFrames (context : ThreadContext) (isReturnAddress : UInt64 → Bool) :
    Nat → UInt64 → List UInt64
  | 0, _ => []
  | fuel + 1, framePointer =>
    let stackEnd := context.stackPointer.toNat + context.stackBytes.length
    if framePointer < context.stackPointer ∨ 2 ^ 64 ≤ framePointer.toNat + 16 ∨
        stackEnd < framePointer.toNat + 16 then []
    else
      match readWord context framePointer.toNat, readWord context (framePointer.toNat + 8) with
      | some previous, some returnAddress =>
        if returnAddress = 0 ∨ ¬ isReturnAddress returnAddress then []
        else returnAddress ::
          if previous ≤ framePointer then [] else walkFrames context isReturnAddress fuel previous
      | _, _ => []

def maxFrames : Nat := 256

def framePointerFallback (context : ThreadContext) (isReturnAddress : UInt64 → Bool) :
    List UInt64 :=
  -- `checked_add` of the length of the copy
  if 2 ^ 64 ≤ context.stackPointer.toNat + context.stackBytes.length then []
  else walkFrames context isReturnAddress maxFrames context.framePointer

/-- The greatest length, of callers and of recovered addresses, at which the end of the
valid part equals the start of the recovered chain, or zero. -/
def overlap (valid recovered : List UInt64) : Nat :=
  Nat.findGreatest (fun length => valid.drop (valid.length - length) = recovered.take length)
    (min (valid.length - 1) recovered.length)

def replaceSuspectCallers (frames : List UInt64) (suspectFrom : Nat) (recovered : List UInt64) :
    List UInt64 :=
  let valid := frames.take suspectFrom
  valid ++ if valid.length - 1 = 0 ∨ overlap valid recovered ≠ 0 then
    recovered.drop (overlap valid recovered) else []

/-- The place of the first caller outside every executable range, or the end of a
list without callers. -/
def suspectFrom (executable : UInt64 → Bool) (frames : List UInt64) : Option Nat :=
  match (frames.drop 1).findIdx? fun address => !executable address with
  | some index => some (index + 1)
  | none => if frames.length ≤ 1 then some frames.length else none

def unwindSample (yielded : List UInt64) (context : ThreadContext)
    (modules : List ExecutableModule) : List UInt64 :=
  match suspectFrom (anyExecutable modules) yielded with
  | some place =>
    replaceSuspectCallers yielded place (framePointerFallback context (anyExecutable modules))
  | none => yielded

/-! ### What is kept and what is added -/

variable {context : ThreadContext} {executable : UInt64 → Bool} {frames : List UInt64}

/-- An address lies in an executable range of some module. -/
def Executable (modules : List ExecutableModule) (address : UInt64) : Prop :=
  ∃ module ∈ modules, ∃ range ∈ module.executableRanges, range.start ≤ address ∧
    address < range.stop

/-- A return address and the pointer of its frame: aligned, wholly inside the copy,
with the address in the word above the saved pointer. -/
structure ReturnWord (context : ThreadContext) (pointer address : UInt64) : Prop where
  aligned : 8 ∣ pointer.toNat
  above : context.stackPointer.toNat ≤ pointer.toNat
  within : pointer.toNat + 16 ≤ context.stackPointer.toNat + context.stackBytes.length
  word : address = wordAt context (pointer.toNat + 8)

/-- Addresses read at strictly increasing frame pointers, the first not below `low`. -/
inductive ReadUpwards (context : ThreadContext) : (low : Nat) → List UInt64 → Prop where
  | nil {low : Nat} : ReadUpwards context low []
  | cons {low : Nat} {pointer address : UInt64} {rest : List UInt64} (least : low ≤ pointer.toNat)
      (word : ReturnWord context pointer address)
      (above : ReadUpwards context (pointer.toNat + 1) rest) :
      ReadUpwards context low (address :: rest)

/-- The longest initial part of a list whose callers are all executable. -/
structure Kept (executable : UInt64 → Prop) (yielded kept : List UInt64) : Prop where
  initial : kept <+: yielded
  callers : ∀ address ∈ kept.tail, executable address
  longest : ∀ other, other <+: yielded → (∀ address ∈ other.tail, executable address) →
    other.length ≤ kept.length

/-- The recovered chain goes on after its greatest overlap with the callers: the longest list
that ends the callers and starts the chain. -/
def ExtendsOverlap (callers recovered added : List UInt64) : Prop :=
  ∃ common, common ≠ [] ∧ common <:+ callers ∧ recovered = common ++ added ∧
    ∀ other, other <:+ callers → other <+: recovered → other.length ≤ common.length

theorem anyExecutable_iff {modules : List ExecutableModule} {address : UInt64} :
    anyExecutable modules address = true ↔ Executable modules address := by
  simp [anyExecutable, Executable, ExecutableModule.containsExecutable, AddressRange.contains]

/-! ### The chain of frame pointers -/

theorem ReadUpwards.weaken {lower : Nat} (le : lower ≤ low)
    (read : ReadUpwards context low addresses) : ReadUpwards context lower addresses := by
  cases read with
  | nil => exact .nil
  | cons least word above => exact .cons (le.trans least) word above

theorem ReadUpwards.drop (read : ReadUpwards context low addresses)
    (count : Nat) : ReadUpwards context low (addresses.drop count) := by
  induction read generalizing count with
  | nil => simpa using .nil
  | cons least word above ih =>
    cases count with
    | zero => exact .cons least word above
    | succ count => exact (ih count).weaken (by omega)

theorem readWord_eq_some {address : Nat} {word : UInt64}
    (read : readWord context address = some word) :
    8 ∣ address ∧ context.stackPointer.toNat ≤ address ∧
      address + 8 ≤ context.stackPointer.toNat + context.stackBytes.length ∧
      word = wordAt context address := by
  unfold readWord at read
  split at read
  · cases read
  split at read
  · cases read
    exact ⟨by tauto, by omega, by omega, rfl⟩
  · cases read

/-- Every round of the walk reads a return address at a greater pointer, or ends it. -/
theorem walkFrames_reads (context : ThreadContext) (executable : UInt64 → Bool) (fuel : Nat)
    (pointer : UInt64) :
    ReadUpwards context pointer.toNat (walkFrames context executable fuel pointer) ∧
    (∀ address ∈ walkFrames context executable fuel pointer, executable address = true) ∧
    (walkFrames context executable fuel pointer).length ≤ fuel := by
  induction fuel generalizing pointer with
  | zero => exact ⟨.nil, by simp [walkFrames], by simp [walkFrames]⟩
  | succ fuel ih =>
    rw [walkFrames]
    split
    · exact ⟨.nil, by simp, by simp⟩
    split
    · rename_i previous address lower upper
      split
      · exact ⟨.nil, by simp, by simp⟩
      obtain ⟨aligned, above, -, -⟩ := readWord_eq_some lower
      obtain ⟨-, -, -, word⟩ := readWord_eq_some upper
      have here : ReturnWord context pointer address := ⟨aligned, above, by omega, word⟩
      have attributed : executable address = true := by tauto
      split
      · exact ⟨.cons le_rfl here .nil, by simpa using attributed, by simp⟩
      rename_i greater
      obtain ⟨read, rest, short⟩ := ih previous
      have higher : pointer.toNat < previous.toNat := by
        simpa [UInt64.le_iff_toNat_le] using greater
      exact ⟨.cons le_rfl here (read.weaken higher), forall_mem_cons.mpr ⟨attributed, rest⟩,
        by simpa using short⟩
    · exact ⟨.nil, by simp, by simp⟩

theorem framePointerFallback_reads (context : ThreadContext) (executable : UInt64 → Bool) :
    ReadUpwards context 0 (framePointerFallback context executable) ∧
    (∀ address ∈ framePointerFallback context executable, executable address = true) ∧
    (framePointerFallback context executable).length ≤ maxFrames := by
  unfold framePointerFallback
  split
  · exact ⟨.nil, by simp, by simp⟩
  obtain ⟨read, attributed, short⟩ :=
    walkFrames_reads context executable maxFrames context.framePointer
  exact ⟨read.weaken (Nat.zero_le _), attributed, short⟩

/-! ### Merging the two lists -/

/-- The first address and the callers up to the first that is not executable. -/
def keptFrames (executable : UInt64 → Bool) : List UInt64 → List UInt64
  | [] => []
  | first :: callers => first :: callers.takeWhile executable

theorem keptFrames_kept (executable : UInt64 → Bool) (frames : List UInt64) :
    Kept (executable · = true) frames (keptFrames executable frames) := by
  cases frames with
  | nil => exact ⟨prefix_rfl, by simp [keptFrames], by simp⟩
  | cons first =>
    refine ⟨?_, fun address member => mem_takeWhile_imp member, ?_⟩
    · exact prefix_cons_inj first |>.mpr (List.takeWhile_prefix executable)
    rintro (_ | ⟨_, rest⟩) initial attributed
    · exact Nat.zero_le _
    obtain ⟨-, rfl⟩ := (cons_prefix_cons.mp initial).2
    simp only [tail_cons] at attributed
    simp [keptFrames, takeWhile_append_of_pos attributed]

theorem take_suspectFrom {place : Nat} (suspect : suspectFrom executable frames = some place) :
    frames.take place = keptFrames executable frames := by
  unfold suspectFrom at suspect
  cases frames with
  | nil => simp [keptFrames]
  | cons first callers =>
    simp only [drop_one, tail_cons] at suspect
    split at suspect
    · rename_i index found
      cases suspect
      simp only [take_succ_cons, keptFrames, takeWhile_eq_take_findIdx_not]
      rw [(findIdx?_eq_some_iff_findIdx_eq.mp found).2]
    · split at suspect
      · cases suspect
        rename_i short
        have alone : callers = [] := length_eq_zero_iff.mp (by simpa using short)
        simp [keptFrames, alone]
      · cases suspect

theorem keptFrames_of_unsuspected (unsuspected : suspectFrom executable frames = none) :
    keptFrames executable frames = frames := by
  unfold suspectFrom at unsuspected
  split at unsuspected
  · cases unsuspected
  rename_i attributed
  split_ifs at unsuspected with long
  obtain _ | ⟨first, callers⟩ := frames
  · simp at long
  rw [findIdx?_eq_none_iff] at attributed
  have whole : callers.takeWhile executable = callers :=
    takeWhile_eq_self_iff.mpr fun address member => by simpa using attributed address member
  simp [keptFrames, whole]

theorem extendsOverlap {kept recovered : List UInt64} (positive : overlap kept recovered ≠ 0) :
    ExtendsOverlap kept.tail recovered (recovered.drop (overlap kept recovered)) := by
  have most : overlap kept recovered ≤ min (kept.length - 1) recovered.length :=
    Nat.findGreatest_le _
  have equal : kept.drop (kept.length - overlap kept recovered) =
      recovered.take (overlap kept recovered) := Nat.findGreatest_of_ne_zero rfl positive
  refine ⟨recovered.take (overlap kept recovered), ?_, ?_, (take_append_drop _ _).symm, ?_⟩
  · rw [← length_pos_iff, length_take]
    omega
  · rw [← equal]
    obtain ⟨before, split⟩ : ∃ before, kept.length - overlap kept recovered = before + 1 :=
      ⟨kept.length - overlap kept recovered - 1, by omega⟩
    rw [split, ← drop_tail]
    exact drop_suffix before kept.tail
  · intro other ending start
    rw [length_take, Nat.min_eq_left (by omega)]
    have inner := ending.length_le
    have bound := start.length_le
    rw [length_tail] at inner
    refine Nat.le_findGreatest (by omega) ?_
    rw [← suffix_iff_eq_drop.mp (ending.trans (tail_suffix kept)),
      ← prefix_iff_eq_take.mp start]

/-- The unwound addresses are the kept ones and an end of the recovered chain. -/
theorem unwindSample_eq (yielded : List UInt64) (context : ThreadContext)
    (modules : List ExecutableModule) :
    ∃ count, let kept := keptFrames (anyExecutable modules) yielded
      let recovered := framePointerFallback context (anyExecutable modules)
      unwindSample yielded context modules = kept ++ recovered.drop count ∧
      (kept.tail ≠ [] → recovered.drop count = [] ∨
        ExtendsOverlap kept.tail recovered (recovered.drop count)) := by
  unfold unwindSample
  split
  · rename_i place suspect
    rw [← take_suspectFrom suspect]
    unfold replaceSuspectCallers
    generalize yielded.take place = kept
    generalize framePointerFallback context (anyExecutable modules) = recovered
    simp only
    split
    · refine ⟨overlap kept recovered, rfl, fun callers => .inr ?_⟩
      have some : 0 < kept.tail.length := length_pos_iff.mpr callers
      rw [length_tail] at some
      exact extendsOverlap (by omega)
    · exact ⟨recovered.length, by simp, by simp⟩
  · rename_i unsuspected
    refine ⟨(framePointerFallback context (anyExecutable modules)).length, ?_, by simp⟩
    simp [keptFrames_of_unsuspected unsuspected]

/-- No caller is invented: every later address is executable, the longest attributed
part of what the unwinder yields is kept, and what is added is read from the stack copy,
after the greatest overlap with the kept callers if there are any. -/
theorem unwindSample_callers (yielded : List UInt64) (context : ThreadContext)
    (modules : List ExecutableModule) :
    (∀ address ∈ (unwindSample yielded context modules).tail, Executable modules address) ∧
    ∃ kept added, unwindSample yielded context modules = kept ++ added ∧
      Kept (Executable modules) yielded kept ∧
      ReadUpwards context 0 added ∧ added.length ≤ 256 ∧
      (kept.tail ≠ [] → added = [] ∨
        ExtendsOverlap kept.tail (framePointerFallback context (anyExecutable modules)) added) := by
  obtain ⟨count, equal, after⟩ := unwindSample_eq yielded context modules
  have kept := keptFrames_kept (anyExecutable modules) yielded
  obtain ⟨read, attributed, short⟩ := framePointerFallback_reads context (anyExecutable modules)
  simp only [anyExecutable_iff] at kept attributed
  refine ⟨?_, _, _, equal, kept, read.drop count, ?_, after⟩
  · intro address member
    rw [equal, ← drop_one, drop_append, drop_one] at member
    obtain caller | added := mem_append.mp member
    · exact kept.callers address caller
    · exact attributed address (mem_of_mem_drop (mem_of_mem_drop added))
  · exact (drop_sublist count _).length_le.trans short

/-- A thread at the return address of a recursive call. -/
def recursing : ThreadContext where
  instructionPointer := 16
  stackPointer := 0
  framePointer := 0
  linkRegister := none
  truncated := false
  stackBytes := [16, 16, 32, 16, 0, 32].flatMap (leBytes 8)

/-- The instruction pointer is no caller: it takes no part in the overlap, though with it
a longer end of the kept addresses would start the recovered chain. -/
theorem unwindSample_overlap_callersOnly :
    let modules := [⟨[⟨16, 64⟩]⟩]
    let kept := keptFrames (anyExecutable modules) [16, 16, 8]
    let recovered := framePointerFallback recursing (anyExecutable modules)
    unwindSample [16, 16, 8] recursing modules = kept ++ [16, 32] ∧ recovered = [16] ++ [16, 32] ∧
      [16, 16] <:+ kept ∧ [16, 16] <+: recovered := by
  decide +kernel

end KernalApi.Snapshot
