import KernalApi.Platform.Icon

/-!
# The access list of a private file

The bytes of an access list are compared with the two entries a private file may have.
Each read carries the proof that it lies within the bytes.
-/

namespace KernalApi.Platform.PrivateFile

open KernalApi.Std List WindowIcon

def systemSid : List UInt8 := [1, 1, 0, 0, 0, 0, 0, 5, 18, 0, 0, 0]

def fullControl : Nat := 0x001f01ff

/-- The flags of an entry that is direct, inherited, or inherited with both inherit bits. -/
def aceFlags : List UInt8 := [0, 0x10, 0x13]

/-- The bytes of a range that lies within the data. -/
def bytesAt (bytes : List UInt8) (start count : Nat) (_ : start + count ≤ bytes.length) :
    List UInt8 :=
  (bytes.drop start).take count

/-- Where the entry at an offset ends, if it gives full control to a principal. -/
def exactFullControlAce (dacl : List UInt8) (offset : Nat) (principal : List UInt8) : Option Nat :=
  if short : dacl.length < offset + 8 then none
  else if dacl[offset] ≠ 0 then none
  else if dacl[offset + 1] ∉ aceFlags then none
  else
    let aceSize := wordAt 2 dacl (offset + 2) (by omega)
    if other : aceSize ≠ 8 + principal.length then none
    else if beyond : dacl.length < offset + aceSize then none
    else if wordAt 4 dacl (offset + 4) (by omega) ≠ fullControl then none
    else if bytesAt dacl (offset + 8) (aceSize - 8) (by omega) ≠ principal then none
    else some (offset + aceSize)

def daclIsExactUserSystemFilePolicy (dacl currentSid : List UInt8) : Bool :=
  if short : dacl.length < 8 then false
  else if dacl[0] ≠ 2 ∨ wordAt 2 dacl 2 (by omega) ≠ dacl.length ∨
      wordAt 2 dacl 4 (by omega) ≠ 2 then false
  else (exactFullControlAce dacl 8 currentSid).any fun next =>
    exactFullControlAce dacl next systemSid = some dacl.length

/-- An access-allowed entry of full control. -/
def ace (flags : UInt8) (principal : List UInt8) : List UInt8 :=
  [0] ++ ([flags] ++ (leBytes 2 (8 + principal.length) ++ (leBytes 4 fullControl ++ principal)))

/-- An access list of one entry for a user and one for the system. -/
def accessList (reserved : UInt8 × List UInt8) (first second : UInt8) (user : List UInt8) :
    List UInt8 :=
  [2] ++ ([reserved.1] ++ (leBytes 2 (36 + user.length) ++ (leBytes 2 2 ++ (reserved.2 ++
    (ace first user ++ ace second systemSid)))))

theorem append_isPrefix {front back list : List UInt8} :
    front ++ back <+: list ↔ front <+: list ∧ back <+: list.drop front.length := by
  constructor
  · rintro ⟨rest, rfl⟩
    simp
  · rintro ⟨⟨rest, rfl⟩, later⟩
    rw [drop_left] at later
    exact (prefix_append_right_inj front).mpr later

theorem byte_iff {index : Nat} {bytes : List UInt8} {value : UInt8} (fits : index < bytes.length) :
    bytes[index] = value ↔ [value] <+: bytes.drop index := by
  rw [drop_eq_getElem_cons fits, cons_prefix_cons, eq_comm]
  simp

theorem wordAt_iff {width start value : Nat} {bytes : List UInt8}
    (fits : start + width ≤ bytes.length) (small : value < 256 ^ width) :
    wordAt width bytes start fits = value ↔ leBytes width value <+: bytes.drop start := by
  have full : ((bytes.drop start).take width).length = width := by
    rw [length_take, length_drop]
    omega
  rw [prefix_iff_eq_take, length_leBytes, wordAt]
  constructor
  · rintro rfl
    have back := leBytes_leValue ((bytes.drop start).take width)
    rwa [full] at back
  · intro same
    rw [← same, leValue_leBytes small]

theorem exactFullControlAce_iff {dacl principal : List UInt8} {offset last : Nat}
    (small : principal.length ≤ 1024) : exactFullControlAce dacl offset principal = some last ↔
      offset + (8 + principal.length) = last ∧
        ∃ flags ∈ aceFlags, ace flags principal <+: dacl.drop offset := by
  have size : 8 + principal.length < 256 ^ 2 := by omega
  simp only [exactFullControlAce, Option.dite_none_left_eq_some, Option.ite_none_left_eq_some,
    not_not, Option.some.injEq, ace, append_isPrefix, drop_drop, length_leBytes, length_singleton,
    Nat.add_assoc, Nat.reduceAdd]
  constructor
  · rintro ⟨short, type, flags, sized, _, mask, rest, rfl⟩
    refine ⟨by rw [sized], _, flags, (byte_iff _).mp type, (byte_iff _).mp rfl,
      (wordAt_iff _ size).mp sized, (wordAt_iff _ (by decide)).mp mask, ?_⟩
    rw [← rest]
    exact List.take_prefix ..
  · rintro ⟨rfl, flags, member, type, flag, sized, mask, rest⟩
    have long := mask.length_le
    have whole := rest.length_le
    rw [length_drop] at long whole
    rw [length_leBytes] at long
    have declared := (wordAt_iff (by omega) size).mpr sized
    obtain rfl := (byte_iff (by omega)).mpr flag
    refine ⟨by omega, (byte_iff (by omega)).mpr type, member, declared,
      by omega, (wordAt_iff _ (by decide)).mpr mask, ?_, by rw [declared]⟩
    rw [bytesAt, declared, Nat.add_sub_cancel_left]
    exact (prefix_iff_eq_take.mp rest).symm

theorem length_ace (flags : UInt8) (principal : List UInt8) :
    (ace flags principal).length = 8 + principal.length := by
  simp [ace]
  omega

theorem length_accessList {user : List UInt8} {reserved : UInt8 × List UInt8} {first second : UInt8}
    (two : reserved.2.length = 2) :
    (accessList reserved first second user).length = 36 + user.length := by
  simp [accessList, length_ace, systemSid, two]
  omega

/-- An access list is accepted exactly when it consists of an entry for the user and one for
the system. -/
theorem daclIsExactUserSystemFilePolicy_iff {dacl currentSid : List UInt8}
    (small : currentSid.length ≤ 1024) : daclIsExactUserSystemFilePolicy dacl currentSid ↔
      ∃ reserved, reserved.2.length = 2 ∧ ∃ first ∈ aceFlags, ∃ second ∈ aceFlags,
        dacl = accessList reserved first second currentSid := by
  have declared : 36 + currentSid.length < 256 ^ 2 := by omega
  have parts {reserved : UInt8 × List UInt8} {first second} (two : reserved.2.length = 2) :
      accessList reserved first second currentSid <+: dacl ↔
      [2] <+: dacl ∧ [reserved.1] <+: dacl.drop 1 ∧
        leBytes 2 (36 + currentSid.length) <+: dacl.drop 2 ∧ leBytes 2 2 <+: dacl.drop 4 ∧
        reserved.2 <+: dacl.drop 6 ∧ ace first currentSid <+: dacl.drop 8 ∧
        ace second systemSid <+: dacl.drop (8 + (8 + currentSid.length)) := by
    simp only [accessList, append_isPrefix, drop_drop, length_leBytes, length_singleton, two,
      length_ace, Nat.reduceAdd]
  unfold daclIsExactUserSystemFilePolicy
  by_cases short : dacl.length < 8
  · simp only [short, dite_true, Bool.false_eq_true, false_iff]
    rintro ⟨reserved, two, first, -, second, -, rfl⟩
    rw [length_accessList two] at short
    omega
  simp only [short, dite_false, Bool.if_false_left, Bool.and_eq_true, Option.any_eq_true, not_or,
    not_not,
    Bool.not_eq_true', decide_eq_false_iff_not, decide_eq_true_eq, exactFullControlAce_iff small,
    exactFullControlAce_iff (show systemSid.length ≤ 1024 by decide)]
  constructor
  · rintro ⟨⟨revision, sized, count⟩, _, ⟨rfl, first, member, user⟩, total, second, member', system⟩
    replace total : 36 + currentSid.length = dacl.length := by
      rw [← total]
      simp [systemSid]
      omega
    have two : ((dacl.drop 6).take 2).length = 2 := by simp; omega
    have whole := (@parts (dacl[1], (dacl.drop 6).take 2) first second two).mpr
      ⟨(byte_iff _).mp revision, (byte_iff _).mp rfl,
        (wordAt_iff (by omega) declared).mp (sized.trans total.symm),
        (wordAt_iff _ (by decide)).mp count,
        List.take_prefix .., user, system⟩
    exact ⟨_, two, first, member, second, member',
      (whole.eq_of_length ((length_accessList two).trans total)).symm⟩
  · rintro ⟨reserved, two, first, member, second, member', rfl⟩
    have total := @length_accessList currentSid reserved first second two
    obtain ⟨revision, -, sized, count, -, user, system⟩ := (parts two).mp prefix_rfl
    refine ⟨⟨(byte_iff (by omega)).mpr revision,
      ((wordAt_iff _ declared).mpr sized).trans total.symm,
      (wordAt_iff _ (by decide)).mpr count⟩, _, ⟨rfl, first, member, user⟩, ?_, second, member',
      system⟩
    rw [total]
    simp [systemSid]
    omega

theorem accessList_accepted : daclIsExactUserSystemFilePolicy (accessList (0, [0, 0]) 0 0x13 [1])
    [1] :=
  (daclIsExactUserSystemFilePolicy_iff (by decide)).mpr
    ⟨_, rfl, 0, by decide, 0x13, by decide, rfl⟩

end KernalApi.Platform.PrivateFile
