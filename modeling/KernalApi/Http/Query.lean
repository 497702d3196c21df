import KernalApi.Std.Chunks
import KernalApi.Std.Fallible
import KernalApi.Std.Utf8
import Mathlib.Data.List.Forall2

/-!
# Query pairs

The fields of a query are split at `&`, each field at its first `=`, and both
parts are decoded from their percent escapes. A spelling of a text leaves the
choice between a byte and its escape, in either case of the digits; whatever the
choices, the pairs come back, and a field that spells nothing costs no other one.
-/

namespace KernalApi.Http

open KernalApi.Std List

variable {inName : Bool} {input bytes : List UInt8}

inductive ErrorKind
  | invalidData

structure IoError where
  kind : ErrorKind
  message : String

def invalid : IoError := ⟨.invalidData, "invalid UTF-8 percent-encoded target component"⟩

def hex (byte : UInt8) : Option UInt8 :=
  if 0x30 ≤ byte ∧ byte ≤ 0x39 then some (byte - 0x30)
  else if 0x61 ≤ byte ∧ byte ≤ 0x66 then some (byte - 0x61 + 10)
  else if 0x41 ≤ byte ∧ byte ≤ 0x46 then some (byte - 0x41 + 10)
  else none

/-- The loop of `decode`: `%` starts an escape, and `+` may stand for a space. -/
def decodeBytes (plusSpace : Bool) : List UInt8 → Option (List UInt8)
  | [] => some []
  | byte :: rest =>
    if byte = 0x25 then
      match rest with
      | high :: low :: rest =>
        match hex high, hex low with
        | some high, some low => (decodeBytes plusSpace rest).map ((high <<< 4 ||| low) :: ·)
        | _, _ => none
      | _ => none
    else (decodeBytes plusSpace rest).map ((if byte = 0x2B ∧ plusSpace then 0x20 else byte) :: ·)

def decode (input : List UInt8) (plusSpace : Bool) : Except IoError String :=
  match (decodeBytes plusSpace input).bind fun output => String.fromUTF8? output.toByteArray with
  | some text => .ok text
  | none => .error invalid

/-- `field.split_once('=')`, or the field and an empty value. -/
def splitOnce (field : List UInt8) : List UInt8 × List UInt8 :=
  match field.dropWhile (· ≠ 0x3D) with
  | [] => (field, [])
  | _ :: value => (field.takeWhile (· ≠ 0x3D), value)

/-- The item of a field. -/
def item (field : List UInt8) : Except IoError (String × String) := do
  let name ← decode (splitOnce field).1 true
  let value ← decode (splitOnce field).2 true
  return (name, value)

/-- What `next` yields until it ends, from the fields that remain: it skips the
empty ones. -/
def items : List (List UInt8) → List (Except IoError (String × String))
  | [] => []
  | field :: rest => if field = [] then items rest else item field :: items rest

/-- All items of a query, given by its bytes. -/
def queryPairs (query : List UInt8) : List (Except IoError (String × String)) :=
  items (query.splitOn 0x26)

/-! ## Spellings -/

/-- A hexadecimal digit and its value. -/
def Digit (digit value : UInt8) : Prop :=
  value < 10 ∧ digit = 0x30 + value ∨
    10 ≤ value ∧ value < 16 ∧ (digit = 0x61 + (value - 10) ∨ digit = 0x41 + (value - 10))

/-- The bytes that are never written as they are. -/
def Reserved (inName : Bool) (byte : UInt8) : Prop :=
  byte = 0x25 ∨ byte = 0x26 ∨ byte = 0x2B ∨ inName = true ∧ byte = 0x3D

/-- The spellings of some bytes, in a name or in a value. -/
inductive Spells (inName : Bool) : List UInt8 → List UInt8 → Prop
  | nil : Spells inName [] []
  | literal {byte : UInt8} {input bytes : List UInt8} (plain : ¬ Reserved inName byte)
      (rest : Spells inName input bytes) : Spells inName (byte :: input) (byte :: bytes)
  | space {input bytes : List UInt8} (rest : Spells inName input bytes) :
      Spells inName (0x2B :: input) (0x20 :: bytes)
  | escape {first second high low : UInt8} {input bytes : List UInt8} (upper : Digit first high)
      (lower : Digit second low) (rest : Spells inName input bytes) :
      Spells inName (0x25 :: first :: second :: input) ((16 * high + low) :: bytes)

/-- The spellings of a text. -/
def SpellsText (inName : Bool) (input : List UInt8) (text : String) : Prop :=
  Spells inName input (Utf8.encode text.toList)

/-- The spellings of a pair: `=` is left out only after a name and before nothing. -/
inductive SpellsPair : List UInt8 → String × String → Prop
  | pair {first second : List UInt8} {name value : String} (left : SpellsText true first name)
      (right : SpellsText false second value) : SpellsPair (first ++ 0x3D :: second) (name, value)
  | bare {first : List UInt8} {name : String} (left : SpellsText true first name)
      (named : name ≠ "") : SpellsPair first (name, "")

variable {digit value : UInt8}

theorem hex_eq_some : hex digit = some value ↔ Digit digit value := by
  unfold hex Digit
  split_ifs
  all_goals
    simp only [Option.some.injEq, false_iff, ← UInt8.toNat_inj, UInt8.le_iff_toNat_le,
      UInt8.lt_iff_toNat_lt, UInt8.toNat_sub, UInt8.toNat_add, UInt8.reduceToNat] at *
    omega

theorem Digit.small (is : Digit digit value) : value.toNat < 16 := by
  rcases is with ⟨less, -⟩ | ⟨-, less, -⟩
  · exact (UInt8.lt_iff_toNat_lt.mp less).trans (by decide)
  · exact UInt8.lt_iff_toNat_lt.mp less

theorem Digit.apart (is : Digit digit value) : digit ≠ 0x26 ∧ digit ≠ 0x3D := by
  constructor <;>
  · rintro rfl
    cases hex_eq_some.mpr is

/-- Two digits make a byte. -/
theorem or_eq_add {high low : UInt8} (upper : high.toNat < 16) (lower : low.toNat < 16) :
    high <<< 4 ||| low = 16 * high + low := by
  have joined := Nat.shiftLeft_add_eq_or_of_lt (show low.toNat < 2 ^ 4 from lower) high.toNat
  have shifted : (high <<< 4).toNat = high.toNat <<< 4 := by
    simp only [UInt8.toNat_shiftLeft, UInt8.reduceToNat, Nat.reduceMod]
    omega
  rw [← UInt8.toNat_inj, UInt8.toNat_or, shifted]
  simp only [UInt8.toNat_add, UInt8.toNat_mul, UInt8.reduceToNat]
  omega

theorem decodeBytes_cons {byte : UInt8} (plain : byte ≠ 0x25) (rest : List UInt8) :
    decodeBytes true (byte :: rest) =
      (decodeBytes true rest).map ((if byte = 0x2B then 0x20 else byte) :: ·) := by
  rw [decodeBytes.eq_def]
  simp [plain]

/-- The decoder reads exactly the spellings. -/
theorem decodeBytes_iff : decodeBytes true input = some bytes ∧
    (∀ byte ∈ input, byte ≠ 0x26 ∧ (inName = true → byte ≠ 0x3D)) ↔ Spells inName input bytes := by
  constructor
  · rintro ⟨decoded, clean⟩
    fun_induction decodeBytes true input generalizing bytes with
    | case1 =>
      cases decoded
      exact .nil
    | case2 first second rest high low lower upper ih =>
      obtain ⟨output, found, rfl⟩ := Option.map_eq_some_iff.mp decoded
      have upper := hex_eq_some.mp upper
      have lower := hex_eq_some.mp lower
      rw [or_eq_add upper.small lower.small]
      exact .escape upper lower (ih found fun byte member => clean byte (by simp [member]))
    | case3 | case4 => cases decoded
    | case5 byte rest plain ih =>
      obtain ⟨output, found, rfl⟩ := Option.map_eq_some_iff.mp decoded
      have rest := ih found fun byte member => clean byte (by simp [member])
      have first := clean byte mem_cons_self
      by_cases plus : byte = 0x2B
      · simpa [plus] using Spells.space rest
      · have unreserved : ¬ Reserved inName byte := by
          simpa [Reserved, plain, plus, first.1] using first.2
        simpa [plus] using Spells.literal unreserved rest
  · intro spelled
    induction spelled with
    | nil => simp [decodeBytes]
    | literal plain _ ih =>
      obtain ⟨percent, ampersand, plus, equals⟩ : _ ∧ _ ∧ _ ∧ _ := by simpa [Reserved] using plain
      rw [decodeBytes_cons percent, ih.1]
      simpa [plus, ampersand] using ⟨equals, ih.2⟩
    | space _ ih =>
      rw [decodeBytes_cons (by decide), ih.1]
      simpa using ih.2
    | escape upper lower _ ih =>
      simp only [decodeBytes, hex_eq_some.mpr upper, hex_eq_some.mpr lower, ih.1,
        or_eq_add upper.small lower.small]
      simpa [upper.apart, lower.apart] using ih.2

theorem decode_iff {text : String} : decode input true = .ok text ∧
    (∀ byte ∈ input, byte ≠ 0x26 ∧ (inName = true → byte ≠ 0x3D)) ↔
    SpellsText inName input text := by
  rw [SpellsText, ← decodeBytes_iff]
  refine and_congr_left fun _ => ?_
  unfold decode
  cases decodeBytes true input with
  | none => simp
  | some output =>
    rw [Option.bind_some, Option.some_inj, ← Utf8.fromUTF8?_eq_some]
    cases String.fromUTF8? output.toByteArray <;> simp

theorem splitOnce_pair {first : List UInt8} (before : (0x3D : UInt8) ∉ first)
    (second : List UInt8) :
    splitOnce (first ++ 0x3D :: second) = (first, second) := by
  have plain : ∀ byte ∈ first, decide (byte ≠ 0x3D) = true := by
    intro byte member
    exact decide_eq_true fun equals => before (equals ▸ member)
  rw [splitOnce, dropWhile_append_of_pos plain, takeWhile_append_of_pos plain]
  simp

variable {field : List UInt8}

theorem splitOnce_bare (bare : (0x3D : UInt8) ∉ field) : splitOnce field = (field, []) := by
  have none : field.dropWhile (· ≠ 0x3D) = [] := by
    rw [dropWhile_eq_nil_iff]
    exact fun byte member => decide_eq_true fun equals => bare (equals ▸ member)
  rw [splitOnce, none]

theorem item_ok_iff {name value : String} : item field = .ok (name, value) ↔
    decode (splitOnce field).1 true = .ok name ∧ decode (splitOnce field).2 true = .ok value := by
  simp [item, Fallible.bind_ok_iff, pure, Except.pure]

variable {pair : String × String}

/-- A spelling of a pair is one field, and gives the pair. -/
theorem SpellsPair.item (spelled : SpellsPair field pair) :
    (0x26 : UInt8) ∉ field ∧ item field = .ok pair := by
  rcases spelled with ⟨left, right⟩ | ⟨left, _⟩
  · obtain ⟨named, plain⟩ := decode_iff.mpr left
    obtain ⟨valued, single⟩ := decode_iff.mpr right
    rw [item_ok_iff, splitOnce_pair (fun member => (plain _ member).2 rfl rfl)]
    exact ⟨by grind, named, valued⟩
  · obtain ⟨named, plain⟩ := decode_iff.mpr left
    rw [item_ok_iff, splitOnce_bare (fun member => (plain _ member).2 rfl rfl)]
    exact ⟨fun member => (plain _ member).1 rfl, named, rfl⟩

/-- A field that gives a pair spells it. -/
theorem spellsPair_of_item (some_ : field ≠ []) (single : (0x26 : UInt8) ∉ field)
    (yielded : item field = .ok pair) : SpellsPair field pair := by
  obtain ⟨name, value⟩ := pair
  obtain ⟨left, right⟩ := item_ok_iff.mp yielded
  by_cases equals : (0x3D : UInt8) ∈ field
  · obtain ⟨first, second, rfl, before⟩ := eq_append_cons_of_mem equals
    rw [splitOnce_pair before] at left right
    exact .pair (decode_iff.mp ⟨left, by grind⟩) (decode_iff.mp ⟨right, by grind⟩)
  · rw [splitOnce_bare equals] at left right
    cases right
    have spelled : SpellsText true field name := decode_iff.mp ⟨left, by grind⟩
    refine .bare spelled ?_
    rintro rfl
    cases spelled
    contradiction

theorem item_cases (field : List UInt8) : item field = .error invalid ∨ ∃ pair,
    item field = .ok pair := by
  unfold item decode
  split
  · split
    · exact .inr ⟨_, rfl⟩
    · exact .inl rfl
  · exact .inl rfl

theorem items_eq (fields : List (List UInt8)) :
    items fields = (fields.filter (· ≠ [])).map item := by
  induction fields with
  | nil => rfl
  | cons field rest ih =>
    by_cases empty : field = []
    · simp [items, empty, ih]
    · simp [items, empty, ih]

/-- Every spelling of a list of pairs is read as that list, and in every query
each field that is not empty yields one result of its own: the pair it spells, or
an error when it spells none. -/
theorem queryPairs_inverts :
    (∀ (fields : List (List UInt8)) (pairs : List (String × String)),
      List.Forall₂ SpellsPair (fields.filter (· ≠ [])) pairs →
        queryPairs ([0x26].intercalate fields) = pairs.map .ok) ∧
    ∀ query : List UInt8, List.Forall₂ (fun field result =>
        (∃ pair, SpellsPair field pair ∧ result = .ok pair) ∨
          (∀ pair, ¬ SpellsPair field pair) ∧ result = .error invalid)
      ((query.splitOn 0x26).filter (· ≠ [])) (queryPairs query) := by
  constructor
  · intro fields pairs spelled
    have read := (forall₂_and_left _ _).mp (spelled.imp fun _ _ => SpellsPair.item)
    have single : ∀ field ∈ fields, (0x26 : UInt8) ∉ field := by
      intro field member
      by_cases empty : field = []
      · simp [empty]
      · exact read.1 field (by simp [member, empty])
    have pairs : (fields.filter (· ≠ [])).map item = pairs.map .ok := by
      rw [← forall₂_eq_eq_eq, forall₂_map_left_iff, forall₂_map_right_iff]
      exact read.2
    rw [← pairs, ← items_eq, queryPairs]
    cases fields with
    | nil => rfl
    | cons => rw [splitOn_intercalate _ single (by simp)]
  · intro query
    rw [queryPairs, items_eq, forall₂_map_right_iff, forall₂_same]
    intro field member
    obtain ⟨part, some_⟩ := mem_filter.mp member
    rcases item_cases field with failed | ⟨pair, yielded⟩
    · refine .inr ⟨fun pair spelled => ?_, failed⟩
      cases failed.symm.trans spelled.item.2
    · exact .inl ⟨pair, spellsPair_of_item (of_decide_eq_true some_)
        (not_mem_of_mem_splitOn part) yielded, yielded⟩

/-- `&%41` holds one pair, with an empty value. -/
theorem queryPairs_inverts_escaped : queryPairs [0x26, 0x25, 0x34, 0x31] = [.ok ("A", "")] := by
  have spelled : SpellsText true [0x25, 0x34, 0x31] "A" :=
    @Spells.escape true 0x34 0x31 4 1 [] [] (.inl (by decide)) (.inl (by decide)) .nil
  exact queryPairs_inverts.1 [[], [0x25, 0x34, 0x31]] [("A", "")]
    (.cons (.bare spelled (by decide)) .nil)

end KernalApi.Http

