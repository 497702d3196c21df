import Mathlib.Tactic.Common
import Mathlib.Data.List.Basic
import Mathlib.Data.List.TakeWhile

/-!
# Text cut at a byte

A text is written as UTF-8, cut at a number of bytes, and read back by a lossy
decoder that stops at the first zero byte. The text read is the longest prefix
of whole characters exactly when that prefix has no NUL character and the cut
fell between two characters.
-/

namespace KernalApi.Std.Utf8

open List

variable {bytes : List UInt8} {character : Char} {budget : Nat} {α : Type} {text : List Char}

/-- The bytes of a text. -/
def encode (text : List Char) : List UInt8 := text.flatMap String.utf8EncodeChar

@[simp] theorem encode_nil : encode [] = [] := rfl

@[simp] theorem encode_cons (character : Char) (text : List Char) :
    encode (character :: text) = String.utf8EncodeChar character ++ encode text := rfl

@[simp] theorem encode_append (first second : List Char) :
    encode (first ++ second) = encode first ++ encode second := flatMap_append

/-- Bytes are read as a text exactly when they are its encoding. -/
theorem fromUTF8?_eq_some {text : String} :
    String.fromUTF8? bytes.toByteArray = some text ↔ bytes = encode text.toList := by
  have same : (encode text.toList).toByteArray = text.toByteArray :=
    String.toByteArray_ofList.symm.trans (congrArg _ String.ofList_toList)
  unfold String.fromUTF8?
  rw [← toByteArray_inj, same]
  split
  · rw [Option.some.injEq, ← String.toByteArray_inj]
    rfl
  next invalid =>
  constructor
  · intro equal
    cases equal
  · intro equal
    exact absurd (equal ▸ text.isValidUTF8) invalid

/-- The character a list of bytes starts with. -/
def decodeChar? (bytes : List UInt8) : Option Char := bytes.toByteArray.utf8DecodeChar? 0

theorem decodeChar?_encode (character : Char) (rest : List UInt8) :
    decodeChar? (String.utf8EncodeChar character ++ rest) = some character := by
  unfold decodeChar?
  rw [toByteArray_append]
  exact ByteArray.utf8DecodeChar?_utf8EncodeChar_append

/-- A byte that continues a character. -/
def isContinuation (byte : UInt8) : Bool := 0x80 ≤ byte && byte ≤ 0xBF

/-- Whether a byte may follow the first byte of a character of three bytes. -/
def secondOfThree (lead second : UInt8) : Bool :=
  (lead == 0xE0 && 0xA0 ≤ second && second ≤ 0xBF)
    || (0xE1 ≤ lead && lead ≤ 0xEC && isContinuation second)
    || (lead == 0xED && 0x80 ≤ second && second ≤ 0x9F)
    || (0xEE ≤ lead && lead ≤ 0xEF && isContinuation second)

/-- Whether a byte may follow the first byte of a character of four bytes. -/
def secondOfFour (lead second : UInt8) : Bool :=
  (lead == 0xF0 && 0x90 ≤ second && second ≤ 0xBF)
    || (0xF1 ≤ lead && lead ≤ 0xF3 && isContinuation second)
    || (lead == 0xF4 && 0x80 ≤ second && second ≤ 0x8F)

/-- How many bytes one replacement character stands for: the bytes at the
front that still could have started a character, and at least one. -/
def brokenWidth : List UInt8 → Nat
  | lead :: second :: rest =>
    if secondOfThree lead second then 2
    else if secondOfFour lead second then
      if rest.head?.any isContinuation then 3 else 2
    else 1
  | _ => 1

theorem brokenWidth_pos (bytes : List UInt8) : 0 < brokenWidth bytes := by
  unfold brokenWidth
  split
  · split
    · omega
    · split
      · split <;> omega
      · omega
  · omega

/-- The character that stands for bytes that are none. -/
def replacement : Char := '�'

/-- Reads bytes as text, replacing what is no text. -/
def lossy (bytes : List UInt8) : List Char :=
  match bytes with
  | [] => []
  | byte :: rest =>
    match decodeChar? (byte :: rest) with
    | some character => character :: lossy ((byte :: rest).drop character.utf8Size)
    | none => replacement :: lossy ((byte :: rest).drop (brokenWidth (byte :: rest)))
termination_by bytes.length
decreasing_by
  · have positive := character.utf8Size_pos
    simp only [List.length_drop, List.length_cons]
    omega
  · have positive := brokenWidth_pos (byte :: rest)
    simp only [List.length_drop, List.length_cons]
    omega

@[simp] theorem lossy_nil : lossy [] = [] := by simp [lossy]

theorem lossy_encodeChar (character : Char) (rest : List UInt8) :
    lossy (String.utf8EncodeChar character ++ rest) = character :: lossy rest := by
  have decoded := decodeChar?_encode character rest
  have width := String.length_utf8EncodeChar character
  have positive := character.utf8Size_pos
  cases front : String.utf8EncodeChar character ++ rest with
  | nil =>
    have empty := congrArg length front
    simp only [length_append, length_nil] at empty
    omega
  | cons =>
    rw [front] at decoded
    rw [lossy, decoded]
    simp only
    rw [← front, drop_left' width]

/-- The characters of a text are read back, whatever follows them. -/
theorem lossy_encode_append (text : List Char) (rest : List UInt8) :
    lossy (encode text ++ rest) = text ++ lossy rest := by
  induction text with
  | nil => rfl
  | cons character text ih =>
    rw [encode_cons, append_assoc, lossy_encodeChar, ih, cons_append]

theorem lossy_encode (text : List Char) : lossy (encode text) = text := by
  have read := lossy_encode_append text []
  simpa using read

theorem lossy_ne_nil (present : bytes ≠ []) : lossy bytes ≠ [] := by
  cases bytes with
  | nil => exact absurd rfl present
  | cons =>
    rw [lossy]
    split <;> exact cons_ne_nil _ _

/-! ## NUL characters -/

/-- The character of one zero byte. -/
def nul : Char := '\x00'

/-- Only the NUL character is written with a zero byte. -/
theorem zero_mem_encodeChar : 0 ∈ String.utf8EncodeChar character ↔ character = nul := by
  constructor
  · intro member
    have zero : character.val.toNat = 0 → character = nul :=
      fun zero => Char.ext (UInt32.toNat_inj.mp zero)
    -- The bytes of a longer character are marked, so each of them is positive.
    have apart {value : Nat} (small : value < 256) (positive : 0 < value) : (0 : UInt8) ≠
        UInt8.ofNat value := by
      intro same
      have equal := congrArg UInt8.toNat same
      rw [UInt8.toNat_ofNat_of_lt' small] at equal
      exact positive.ne equal
    unfold String.utf8EncodeChar at member
    grind
  · rintro rfl
    decide

theorem zero_mem_encode : 0 ∈ encode text ↔ nul ∈ text := by
  simp [encode, zero_mem_encodeChar]

/-- The bytes before the first zero. -/
def untilZero (bytes : List UInt8) : List UInt8 := bytes.takeWhile (· != 0)

theorem untilZero_append (clean : 0 ∉ bytes) (rest : List UInt8) :
    untilZero (bytes ++ 0 :: rest) = bytes := by
  rw [untilZero, takeWhile_append_of_pos (by grind)]
  simp

/-! ## Cuts -/

/-- The longest prefix of whole characters that fits a number of bytes. -/
def wholePrefix : Nat → List Char → List Char
  | _, [] => []
  | budget, character :: text =>
    if character.utf8Size ≤ budget then
      character :: wholePrefix (budget - character.utf8Size) text
    else []

/-- A text cut to the longest prefix of whole characters that fits a number of
bytes. -/
structure LongestFitting (budget : Nat) (text cut : List Char) : Prop where
  starts : cut <+: text
  fits : (encode cut).length ≤ budget
  longest : ∀ other, other <+: text → (encode other).length ≤ budget → other <+: cut

theorem wholePrefix_longestFitting (budget : Nat) (text : List Char) :
    LongestFitting budget text (wholePrefix budget text) := by
  induction text generalizing budget with
  | nil => exact ⟨prefix_rfl, Nat.zero_le _, fun other starts _ => starts⟩
  | cons character text ih =>
    unfold wholePrefix
    by_cases room : character.utf8Size ≤ budget
    · rw [if_pos room]
      have rest := ih (budget - character.utf8Size)
      refine ⟨(prefix_cons_inj _).mpr rest.starts, ?_, ?_⟩
      · have fits := rest.fits
        rw [encode_cons, length_append, String.length_utf8EncodeChar]
        omega
      intro other starts fits
      cases other with
      | nil => exact nil_prefix
      | cons head other =>
        obtain ⟨same, tail⟩ := cons_prefix_cons.mp starts
        subst same
        rw [encode_cons, length_append, String.length_utf8EncodeChar] at fits
        exact (prefix_cons_inj _).mpr (rest.longest other tail (by omega))
    · rw [if_neg room]
      refine ⟨List.nil_prefix, Nat.zero_le _, ?_⟩
      intro other starts fits
      cases other with
      | nil => exact nil_prefix
      | cons head other =>
        obtain ⟨same, -⟩ := cons_prefix_cons.mp starts
        subst same
        rw [encode_cons, length_append, String.length_utf8EncodeChar] at fits
        omega

/-- There is one longest prefix. -/
theorem longestFitting_iff {cut : List Char} :
    LongestFitting budget text cut ↔ cut = wholePrefix budget text := by
  have whole := wholePrefix_longestFitting budget text
  constructor
  · intro longest
    have below := whole.longest cut longest.starts longest.fits
    have above := longest.longest _ whole.starts whole.fits
    exact below.eq_of_length_le above.length_le
  · rintro rfl
    exact whole

/-- A text that fits is not cut. -/
theorem wholePrefix_of_fits (fits : (encode text).length ≤ budget) :
    wholePrefix budget text = text := by
  have whole := wholePrefix_longestFitting budget text
  have above := whole.longest text prefix_rfl fits
  exact whole.starts.eq_of_length_le above.length_le

theorem wholePrefix_eq_self : wholePrefix budget text = text ↔ (encode text).length ≤ budget := by
  constructor
  · intro same
    have fits := (wholePrefix_longestFitting budget text).fits
    rwa [same] at fits
  · exact wholePrefix_of_fits

/-- The cut at a number of bytes falls between two characters. -/
def Whole (budget : Nat) (text : List Char) : Prop :=
  (encode text).take budget = encode (wholePrefix budget text)

instance (budget : Nat) (text : List Char) : Decidable (Whole budget text) :=
  inferInstanceAs (Decidable (_ = _))

theorem Whole.of_fits (fits : (encode text).length ≤ budget) : Whole budget text := by
  unfold Whole
  rw [wholePrefix_of_fits fits, take_of_length_le fits]

/-- Some bytes of a character, but not all. -/
structure Broken (character : Char) (part : List UInt8) : Prop where
  present : part ≠ []
  starts : part <+: String.utf8EncodeChar character
  short : part.length < (String.utf8EncodeChar character).length

/-- A cut leaves whole characters, and perhaps a part of the next. -/
theorem take_encode (budget : Nat) (text : List Char) :
    ∃ part, (part = [] ∨ ∃ character, Broken character part) ∧
      (encode text).take budget = encode (wholePrefix budget text) ++ part := by
  induction text generalizing budget with
  | nil => exact ⟨[], .inl rfl, by simp [wholePrefix]⟩
  | cons character text ih =>
    have width := String.length_utf8EncodeChar character
    unfold wholePrefix
    by_cases room : character.utf8Size ≤ budget
    · obtain ⟨part, leaves, cut⟩ := ih (budget - character.utf8Size)
      refine ⟨part, leaves, ?_⟩
      rw [if_pos room, encode_cons, encode_cons, take_append, width, cut,
        take_of_length_le (by omega), append_assoc]
    · rw [if_neg room, encode_cons, take_append, Nat.sub_eq_zero_of_le (by omega),
        take_zero, append_nil]
      by_cases empty : budget = 0
      · exact ⟨[], .inl rfl, by simp [empty]⟩
      refine ⟨_, .inr ⟨character, ?_, take_prefix budget _, ?_⟩, rfl⟩
      · apply ne_nil_of_length_pos
        rw [length_take]
        omega
      · rw [length_take]
        omega

theorem Broken.zero_not_mem {part : List UInt8} (broken : Broken character part) : 0 ∉ part := by
  intro member
  have nulCharacter := zero_mem_encodeChar.mp (broken.starts.subset member)
  have short := broken.short
  have present := length_pos_iff.mpr broken.present
  subst nulCharacter
  have one : (String.utf8EncodeChar nul).length = 1 := by decide
  omega

/-- A text read back from a slot is the longest prefix of whole characters
exactly when that prefix has no NUL and the cut falls between characters. -/
theorem lossy_cut_iff (budget : Nat) (text : List Char) (rest : List UInt8) :
    lossy (untilZero ((encode text).take budget ++ 0 :: rest)) = wholePrefix budget text ↔
      nul ∉ wholePrefix budget text ∧ Whole budget text := by
  obtain ⟨part, leaves, cut⟩ := take_encode budget text
  by_cases stops : nul ∈ wholePrefix budget text
  · -- The reader stops at the NUL, which is in the prefix.
    refine iff_of_false ?_ (fun clean => clean.1 stops)
    obtain ⟨before, after, split, first⟩ := eq_append_cons_of_mem stops
    have zero : String.utf8EncodeChar nul = [0] := by decide
    have bytes : (encode text).take budget ++ 0 :: rest
        = encode before ++ 0 :: (encode after ++ part ++ 0 :: rest) := by
      rw [cut, split, encode_append, encode_cons, zero]
      simp
    rw [bytes, untilZero_append (mt zero_mem_encode.mp first), lossy_encode, split]
    exact mt self_eq_append_right.mp (cons_ne_nil _ _)
  · have clean : 0 ∉ encode (wholePrefix budget text) := mt zero_mem_encode.mp stops
    unfold Whole
    rw [cut]
    rcases leaves with rfl | ⟨character, broken⟩
    · rw [append_nil, untilZero_append clean, lossy_encode]
      exact iff_of_true rfl ⟨stops, rfl⟩
    have none : 0 ∉ encode (wholePrefix budget text) ++ part := by
      rw [mem_append, not_or]
      exact ⟨clean, broken.zero_not_mem⟩
    rw [untilZero_append none, lossy_encode_append]
    apply iff_of_false (mt append_right_eq_self.mp (lossy_ne_nil broken.present))
    rintro ⟨-, whole⟩
    exact broken.present (append_right_eq_self.mp whole)

end KernalApi.Std.Utf8
