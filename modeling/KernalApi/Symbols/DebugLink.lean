import KernalApi.Std.Crc
import KernalApi.Std.Utf8

/-!
# The checksum of a debug link

`crc32` takes a byte at a time from a table. It is the reflected CRC-32 of the
message's bits, so the inspection of a split accepts the links that a debugger accepts,
and a change of up to four consecutive bytes is always noticed.
-/

namespace KernalApi.Symbols.DebugLink

open KernalApi.Std Crc

/-- The loop over the bits of an entry of `TABLE`. -/
def tableEntry (index : Nat) : BitVec 32 :=
  (List.range 8).foldl
    (fun value _ => if value &&& 1 = 1 then 0xedb88320 ^^^ (value >>> 1) else value >>> 1)
    (BitVec.ofNat 32 index)

def table : Vector (BitVec 32) 256 := .ofFn fun index => tableEntry index

/-- No index is outside the table. -/
theorem masked_lt (word : BitVec 32) : (word &&& 0xff).toNat < 256 := by
  rw [BitVec.toNat_and]
  exact Nat.lt_succ_of_le Nat.and_le_right

/-- One turn of the loop over the bytes. -/
def update (crc : BitVec 32) (byte : UInt8) : BitVec 32 :=
  table.get ⟨((crc ^^^ byte.toBitVec.setWidth 32) &&& 0xff).toNat, masked_lt _⟩ ^^^ (crc >>> 8)

def crc32 (bytes : List UInt8) : BitVec 32 := bytes.foldl update 0xffffffff ^^^ 0xffffffff

/-- What the object reader reports of a file: whether it has DWARF, its build
identity, and the name and the checksum of its debug link. -/
structure ObjectFile where
  debugInfo : Bool
  identity : Option String
  debugLink : Option (List UInt8 × BitVec 32)

/-- The inspection of a stripped binary beside its symbol file, of the identity and
the file name that the split has for it. -/
def inspectGnuDebuglink (binary symbols : ObjectFile) (symbolBytes : List UInt8)
    (identity expectedName : String) : Except String Unit :=
  if binary.debugInfo then
    .error "the stripped binary still carries DWARF; the debug info was duplicated, not moved"
  else if ¬ symbols.debugInfo then
    .error "the symbol file carries no DWARF, so it can resolve nothing"
  else if symbols.identity ≠ some identity then
    .error "the symbol file's build identity does not match the binary"
  else match binary.debugLink with
    | none => .error "the stripped binary has no .gnu_debuglink section"
    | some (name, crc) =>
      if String.ofList (Utf8.lossy name) ≠ expectedName then
        .error "the .gnu_debuglink names a different file than the symbol file produced"
      else if crc ≠ crc32 symbolBytes then
        .error "the .gnu_debuglink CRC-32 does not match the symbol file's bytes"
      else .ok ()

/-- The checksum bit by bit, of each byte the lowest bit first. -/
def reflectedCrc32 (bytes : List UInt8) : BitVec 32 :=
  (bytes.flatMap fun byte => (List.range 8).map byte.toBitVec.getLsbD).foldl
    (feed 0xEDB88320) 0xFFFFFFFF ^^^ 0xFFFFFFFF

example : reflectedCrc32 "123456789".toUTF8.toList = 0xcbf43926 := by decide +kernel

/-- An entry is what eight bits of zeros make of its index. -/
theorem tableEntry_eq (index : BitVec 32) :
    tableEntry index.toNat = run 0xEDB88320 8 index fun _ => false := by
  have step : ∀ value : BitVec 32,
    (if value &&& 1 = 1 then 0xedb88320 ^^^ (value >>> 1) else value >>> 1)
      = feed 0xEDB88320 value false := by
    intro value
    have low : value &&& 1 = 1 ↔ value.getLsbD 0 = true := by
      rw [show (1 : BitVec 32) = 1#32 from rfl, BitVec.and_one_eq_setWidth_ofBool_getLsbD]
      cases value.getLsbD 0 <;> decide
    unfold feed
    simp only [low, Bool.xor_false]
    split <;> simp [BitVec.xor_comm]
  simp only [tableEntry, run, step, BitVec.ofNat_toNat, BitVec.setWidth_eq]

/-- A byte from the table is eight bits: the index has the bits that leave the
register, added to the byte's. -/
theorem update_eq (crc : BitVec 32) (byte : UInt8) :
    update crc byte = run 0xEDB88320 8 crc byte.toBitVec.getLsbD := by
  let index := (crc ^^^ byte.toBitVec.setWidth 32) &&& 0xff
  have entry : table.get ⟨index.toNat, masked_lt _⟩ = run 0xEDB88320 8 index fun _ => false := by
    rw [← tableEntry_eq]
    exact Vector.getElem_ofFn _
  have moved : index >>> 8 = 0#32 := by
    apply BitVec.eq_of_toNat_eq
    rw [BitVec.toNat_ushiftRight, Nat.shiftRight_eq_div_pow, Nat.div_eq_of_lt (masked_lt _)]
    rfl
  have bits : run 0xEDB88320 8 (0 : BitVec 32) (fun bit => index.getLsbD bit ^^ false)
      = run 0xEDB88320 8 0 fun bit => crc.getLsbD bit ^^ byte.toBitVec.getLsbD bit := by
    refine List.foldl_ext _ _ _ fun register bit member => congrArg (feed _ register) ?_
    have low : ∀ bit < 8, (0xff#32).getLsbD bit = true := by decide
    have small := List.mem_range.mp member
    have inside : bit < 32 := by omega
    simp [index, low bit small, inside, -BitVec.getLsbD_eq_getElem]
  show table.get ⟨index.toNat, masked_lt _⟩ ^^^ (crc >>> 8) = _
  rw [entry, run_eq 8 crc, run_eq 8 index, moved, bits, BitVec.zero_xor, BitVec.xor_comm]

theorem crc32_eq (bytes : List UInt8) : crc32 bytes = reflectedCrc32 bytes := by
  have bytewise : update = fun crc byte =>
      ((List.range 8).map byte.toBitVec.getLsbD).foldl (feed 0xEDB88320) crc := by
    funext crc byte
    rw [update_eq, List.foldl_map]
    rfl
  rw [crc32, reflectedCrc32, List.foldl_flatMap, bytewise]

/-- The checksum of every byte string is that of its bits, and a split whose other
checks pass is refused exactly when its link has not the debugger's checksum. -/
theorem crc32_exact :
    (∀ bytes, crc32 bytes = reflectedCrc32 bytes) ∧
      ∀ binary symbols symbolBytes identity expectedName,
        inspectGnuDebuglink binary symbols symbolBytes identity expectedName = .ok () ↔
          binary.debugInfo = false ∧ symbols.debugInfo = true ∧ symbols.identity = some identity ∧
            ∃ name, binary.debugLink = some (name, reflectedCrc32 symbolBytes) ∧
              String.ofList (Utf8.lossy name) = expectedName := by
  refine ⟨crc32_eq, fun binary symbols symbolBytes identity expectedName => ?_⟩
  obtain ⟨stayed, _, link⟩ := binary
  obtain ⟨moved, own, _⟩ := symbols
  simp only [inspectGnuDebuglink, crc32_eq]
  rcases link with _ | ⟨name, crc⟩ <;> cases stayed <;> cases moved <;> simp
  all_goals split_ifs <;> simp_all

section Bursts

variable {binary symbols other : ObjectFile} {head first second tail : List UInt8}
  {identity expectedName : String}

/-- Messages of one length have the same bits only if they are the same. -/
theorem bits_inj (length : first.length = second.length)
    (same : (first.flatMap fun byte => (List.range 8).map byte.toBitVec.getLsbD)
      = second.flatMap fun byte => (List.range 8).map byte.toBitVec.getLsbD) : first = second := by
  have bits : Function.Injective fun byte : UInt8 => (List.range 8).map byte.toBitVec.getLsbD := by
    intro byte other here
    refine UInt8.toBitVec_inj.mp (BitVec.eq_of_getLsbD_eq fun place inside => ?_)
    exact List.map_inj_left.mp here place (List.mem_range.mpr inside)
  refine List.map_injective_iff.mpr bits (List.eq_iff_flatten_eq.mpr ⟨?_, ?_⟩)
  · simpa only [List.flatMap_def] using same
  · simp [Function.comp_def, length]

theorem link_of_inspect {bytes : List UInt8}
    (accepted : inspectGnuDebuglink binary symbols bytes identity expectedName = .ok ()) :
    ∃ name, binary.debugLink = some (name, crc32 bytes) := by
  unfold inspectGnuDebuglink at accepted
  split_ifs at accepted
  split at accepted
  next => cases accepted
  next name crc link =>
    split_ifs at accepted with _ differs
    exact ⟨name, by rw [link, not_not.mp differs]⟩

/-- A link that fits a symbol file fits no other that differs from it in four consecutive
bytes at most. -/
theorem inspectGnuDebuglink_burst (length : first.length = second.length) (short : first.length ≤ 4)
    (accepted : inspectGnuDebuglink binary symbols (head ++ first ++ tail) identity expectedName =
      .ok ())
    (again : inspectGnuDebuglink binary other (head ++ second ++ tail) identity expectedName =
      .ok ()) :
    first = second := by
  have top : (0xEDB88320 : BitVec 32).msb = true := by decide
  obtain ⟨name, link⟩ := link_of_inspect accepted
  obtain ⟨_, twin⟩ := link_of_inspect again
  have checksum : crc32 (head ++ first ++ tail) = crc32 (head ++ second ++ tail) :=
    (Prod.mk.inj (Option.some.inj (link.symm.trans twin))).2
  rw [crc32_eq, crc32_eq, reflectedCrc32, reflectedCrc32, BitVec.xor_left_inj] at checksum
  simp only [List.flatMap_append, List.foldl_append] at checksum
  have middle := foldl_feed_injective top _ checksum
  refine bits_inj length (eq_of_foldl_feed_eq top ?_ ?_ middle)
  · simp [length]
  · simp
    omega

/-- A byte of an accepted symbol file is changed. -/
theorem inspectGnuDebuglink_burst_changedByte :
    ∃ binary symbols, inspectGnuDebuglink binary symbols ([1] ++ [2, 3] ++ [4]) "id" "a" = .ok () ∧
      inspectGnuDebuglink binary symbols ([1] ++ [2, 7] ++ [4]) "id" "a" ≠ .ok () := by
  let binary : ObjectFile := ⟨false, none, some ([97], crc32 [1, 2, 3, 4])⟩
  let symbols : ObjectFile := ⟨true, some "id", none⟩
  have accepted : inspectGnuDebuglink binary symbols ([1] ++ [2, 3] ++ [4]) "id" "a" = .ok () := by
    decide +kernel
  refine ⟨binary, symbols, accepted, fun again => ?_⟩
  have same := inspectGnuDebuglink_burst (by decide) (by decide) accepted again
  exact absurd same (by decide)

end Bursts

end KernalApi.Symbols.DebugLink
