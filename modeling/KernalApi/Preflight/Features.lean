import KernalApi.Std.Fallible
import KernalApi.Std.Utf8
import Mathlib

/-!
# The target-feature section

A threaded guest names its target features in a custom section: a LEB128 count and as
many entries, each a sign, a LEB128 length and a name of that many bytes. The reader
accepts exactly this grammar, except that it keeps only the low 32 bits of a number
whose fifth byte carries more.
-/

namespace KernalApi.Preflight

open KernalApi.Std List Nat

variable {data rest : List UInt8} {value count : Nat}

/-- The refusal of a section. -/
inductive SketchModuleError
  | targetFeaturesMismatch
deriving DecidableEq

/-- The loop of `read_leb` over its shifts. What is left of the data stands for the offset
into it; the seven low bits of a byte are shifted into a 32-bit word. -/
def readLebFrom : List Nat → Nat → List UInt8 → Except SketchModuleError (Nat × List UInt8)
  | [], _, _ => .error .targetFeaturesMismatch
  | _ :: _, _, [] => .error .targetFeaturesMismatch
  | shift :: shifts, value, byte :: rest =>
    let value := value ||| (byte.toNat % 128) <<< shift % 2 ^ 32
    if byte.toNat < 128 then .ok (value, rest) else readLebFrom shifts value rest

/-- Reads a `u32` in LEB128, of at most five bytes. -/
def readLeb (data : List UInt8) : Except SketchModuleError (Nat × List UInt8) :=
  readLebFrom (List.range' 0 5 7) 0 data

/-- At most 96 characters of a text. -/
def bounded (value : String) : String := String.ofList (value.toList.take 96)

def require (condition : Prop) [Decidable condition] : Except SketchModuleError Unit :=
  if condition then .ok () else .error .targetFeaturesMismatch

def fromUtf8 (bytes : List UInt8) : Except SketchModuleError String :=
  (String.fromUTF8? bytes.toByteArray).elim (.error .targetFeaturesMismatch) .ok

/-- One turn of the loop over the entries, up to the insertion of the name. An end past
the address space and an end past the data are the same refusal. -/
def readFeature : List UInt8 → Except SketchModuleError (String × List UInt8)
  | [] => .error .targetFeaturesMismatch
  | sign :: data => do
    require (sign = 43)
    let (length, rest) ← readLeb data
    require (length ≤ rest.length)
    let name ← fromUtf8 (rest.take length)
    .ok (name, rest.drop length)

/-- The loop over the entries. -/
def readFeatures : Nat → List UInt8 → Finset String →
    Except SketchModuleError (List UInt8 × Finset String)
  | 0, data, result => .ok (data, result)
  | count + 1, data, result => do
    let (name, rest) ← readFeature data
    require (bounded name ∉ result)
    readFeatures count rest (insert (bounded name) result)

/-- Reads a whole section. -/
def parseTargetFeatures (data : List UInt8) : Except SketchModuleError (Finset String) := do
  let (count, rest) ← readLeb data
  let (rest, result) ← readFeatures count rest ∅
  require (rest = [])
  .ok result

/-! ## The grammar -/

/-- The number a field spells, seven bits a byte from the lowest. -/
def lebValue : List UInt8 → Nat
  | [] => 0
  | byte :: field => byte.toNat % 128 + 128 * lebValue field

/-- The first byte without the continuation bit is the last of the field. -/
def Terminated : List UInt8 → Prop
  | [] => False
  | byte :: field => if byte.toNat < 128 then field = [] else Terminated field

/-- A `u32` in LEB128: at most five bytes that spell a number below `2 ^ 32`. -/
structure Denotes (field : List UInt8) (value : Nat) : Prop where
  terminated : Terminated field
  short : field.length ≤ 5
  spells : lebValue field = value
  fits : value < 2 ^ 32

/-- What the reader takes a field for: the low 32 bits of the number it spells. -/
structure Wraps (field : List UInt8) (value : Nat) : Prop where
  terminated : Terminated field
  short : field.length ≤ 5
  spells : lebValue field % 2 ^ 32 = value

/-- The length field and the name of an entry. -/
structure Entry where
  length : List UInt8
  name : String

/-- The bytes of an entry. -/
def Entry.bytes (entry : Entry) : List UInt8 := 43 :: entry.length ++ Utf8.encode entry.name.toList

/-- A section cut into its fields. -/
structure Layout where
  count : List UInt8
  entries : List Entry

namespace Layout

variable (layout : Layout)

def bytes : List UInt8 := layout.count ++ layout.entries.flatMap Entry.bytes

def fields : List (List UInt8) := layout.count :: layout.entries.map Entry.length

def names : List String := layout.entries.map fun entry => bounded entry.name

/-- The fields denote the number of entries and the sizes of the names, and no name
occurs twice. -/
structure WellFormed (denotes : List UInt8 → Nat → Prop) : Prop where
  count : denotes layout.count layout.entries.length
  length : ∀ entry ∈ layout.entries, denotes entry.length (Utf8.encode entry.name.toList).length
  distinct : layout.names.Nodup

end Layout

/-- The number at the front of some data, up to the first byte without the continuation bit. -/
def frontField : List UInt8 → List UInt8
  | [] => []
  | byte :: data => if byte.toNat < 128 then [byte] else byte :: frontField data

/-- The lengths that are met on a walk over so many entries; each is followed by as many bytes
as its low 32 bits tell. -/
def entryFields : Nat → List UInt8 → List (List UInt8)
  | 0, _ | _ + 1, [] => []
  | count + 1, _ :: data =>
    let field := frontField data
    field :: entryFields count ((data.drop field.length).drop (lebValue field % 2 ^ 32))

/-- The numbers that are met on a walk over the data. -/
def fields (data : List UInt8) : List (List UInt8) :=
  let field := frontField data
  field :: entryFields (lebValue field % 2 ^ 32) (data.drop field.length)

/-! ## The reader of a number -/

/-- The field at the front of some data is its first byte, or starts with it. -/
theorem exists_field_cons_iff {byte : UInt8} {property : List UInt8 → Prop} :
    (∃ field, byte :: data = field ++ rest ∧ Terminated field ∧ property field) ↔
      if byte.toNat < 128 then data = rest ∧ property [byte]
      else ∃ field, data = field ++ rest ∧ Terminated field ∧ property (byte :: field) := by
  constructor
  · rintro ⟨_ | ⟨first, field⟩, equal, terminated, holds⟩
    · cases terminated
    obtain ⟨rfl, rfl⟩ := cons.inj equal
    unfold Terminated at terminated
    split at terminated
    · next last => rw [if_pos last, terminated]; exact ⟨rfl, terminated ▸ holds⟩
    · next continued => rw [if_neg continued]; exact ⟨field, rfl, terminated, holds⟩
  · split
    · next last =>
      rintro ⟨rfl, holds⟩
      exact ⟨[byte], rfl, by simp [Terminated, last], holds⟩
    · next continued =>
      rintro ⟨field, rfl, terminated, holds⟩
      exact ⟨byte :: field, rfl, by simpa [Terminated, continued] using terminated, holds⟩

/-- A group shifted into a word of 32 bits is added above the bits already there. -/
theorem or_shiftLeft_mod {shift : Nat} (small : value < 2 ^ shift) (fits : shift ≤ 32)
    (group : Nat) : value ||| group <<< shift % 2 ^ 32 = (value + 2 ^ shift * group) % 2 ^ 32 := by
  have word : 2 ^ 32 = 2 ^ shift * 2 ^ (32 - shift) := by
    rw [← pow_add, Nat.add_sub_cancel' fits]
  have kept : group <<< shift % 2 ^ 32 = 2 ^ shift * (group % 2 ^ (32 - shift)) := by
    rw [shiftLeft_eq, mul_comm, word, mul_mod_mul_left]
  rw [kept, Nat.or_comm, ← two_pow_add_eq_or_of_lt small, add_comm value, word, mod_mul,
    mul_add_mod, mod_eq_of_lt small, mul_add_div (Nat.two_pow_pos shift),
    div_eq_of_lt small, add_zero, add_comm]

theorem readLebFrom_iff {shift left read : Nat} (ends : shift + 7 * left = 35)
    (small : value < 2 ^ shift) :
    readLebFrom (List.range' shift left 7) value data = .ok (read, rest) ↔
      ∃ field, data = field ++ rest ∧ Terminated field ∧ field.length ≤ left ∧
        (value + 2 ^ shift * lebValue field) % 2 ^ 32 = read := by
  induction left generalizing shift value data with
  | zero =>
    refine ⟨(by intro equal; cases equal), ?_⟩
    rintro ⟨_ | _, _, terminated, empty, _⟩
    · cases terminated
    · cases empty
  | succ left ih =>
    rw [range'_succ]
    cases data with
    | nil =>
      refine ⟨(by intro equal; cases equal), ?_⟩
      rintro ⟨_ | _, equal, terminated, _⟩
      · cases terminated
      · cases equal
    | cons byte data =>
      have grown : value + 2 ^ shift * (byte.toNat % 128) < 2 ^ (shift + 7) :=
        calc value + 2 ^ shift * (byte.toNat % 128)
            < 2 ^ shift + 2 ^ shift * (byte.toNat % 128) := Nat.add_lt_add_right small _
          _ = 2 ^ shift * (byte.toNat % 128 + 1) := by rw [mul_succ, add_comm]
          _ ≤ 2 ^ shift * 2 ^ 7 := mul_le_mul_left _ (mod_lt _ (by decide))
          _ = 2 ^ (shift + 7) := (pow_add ..).symm
      simp only [exists_field_cons_iff, readLebFrom, or_shiftLeft_mod small (by omega)]
      split
      · simp [lebValue, and_comm]
      · rw [ih (by omega) (lt_of_le_of_lt (mod_le _ _) grown)]
        simp only [lebValue, mod_add_mod, Nat.pow_add, mul_add, mul_assoc,
          add_assoc, length_cons, add_le_add_iff_right]

/-- The reader accepts a field for its low 32 bits. -/
theorem readLeb_iff : readLeb data = .ok (value, rest) ↔
    ∃ field, data = field ++ rest ∧ Wraps field value := by
  rw [readLeb, readLebFrom_iff (by decide) (by decide)]
  simp only [pow_zero, one_mul, zero_add]
  exact exists_congr fun field => and_congr_right fun _ =>
    ⟨fun ⟨terminated, short, spells⟩ => ⟨terminated, short, spells⟩,
      fun wraps => ⟨wraps.terminated, wraps.short, wraps.spells⟩⟩

/-! ## The reader of a section -/

@[simp] theorem require_ok {condition : Prop} [Decidable condition] {done : Unit} :
    require condition = .ok done ↔ condition := by
  unfold require
  split <;> simp [*]

@[simp] theorem fromUtf8_ok {bytes : List UInt8} {text : String} :
    fromUtf8 bytes = .ok text ↔ bytes = Utf8.encode text.toList := by
  rw [← Utf8.fromUTF8?_eq_some, fromUtf8]
  cases String.fromUTF8? bytes.toByteArray <;> simp

theorem readFeature_iff {name : String} :
    readFeature data = .ok (name, rest) ↔
      ∃ length, data = (Entry.mk length name).bytes ++ rest ∧
        Wraps length (Utf8.encode name.toList).length := by
  cases data with
  | nil => simp [readFeature, Entry.bytes]
  | cons =>
    simp only [readFeature, Fallible.bind_ok_iff, require_ok, fromUtf8_ok, readLeb_iff,
      Prod.exists, Entry.bytes]
    constructor
    · rintro ⟨_, rfl, size, _, ⟨length, rfl, wraps⟩, _, fits, _, spelled, rfl, rfl⟩
      rw [← spelled, length_take, min_eq_left fits]
      exact ⟨length, by simp, wraps⟩
    rintro ⟨length, equal, wraps⟩
    obtain ⟨rfl, rfl⟩ := cons.inj equal
    refine ⟨(), rfl, _, _, ⟨length, append_assoc .., wraps⟩, (), by simp, name, ?_⟩
    simp

theorem readFeatures_iff {result all : Finset String} :
    readFeatures count data result = .ok (rest, all) ↔
      ∃ entries : List Entry, entries.length = count ∧ data = entries.flatMap Entry.bytes ++ rest ∧
        (∀ entry ∈ entries, Wraps entry.length (Utf8.encode entry.name.toList).length) ∧
        (entries.map fun entry => bounded entry.name).Nodup ∧
        (∀ entry ∈ entries, bounded entry.name ∉ result) ∧
        all = result ∪ (entries.map fun entry => bounded entry.name).toFinset := by
  induction count generalizing data result with
  | zero => simp [readFeatures, eq_comm]
  | succ count ih =>
    simp only [readFeatures, Fallible.bind_ok_iff, require_ok, Prod.exists, readFeature_iff, ih]
    constructor
    · rintro ⟨name, _, ⟨length, rfl, wraps⟩, _, fresh, entries, rfl, rfl, sizes, distinct, apart,
        rfl⟩
      refine ⟨⟨length, name⟩ :: entries, rfl, by simp, ?_, ?_, ?_, ?_⟩
      · simpa using ⟨wraps, sizes⟩
      · simp_all
      · simp_all
      · simp
    · rintro ⟨_ | ⟨⟨length, name⟩, entries⟩, counted, rfl, sizes, distinct, apart, rfl⟩
      · cases counted
      rw [map_cons, nodup_cons] at distinct
      rw [forall_mem_cons] at sizes apart
      refine ⟨name, _, ⟨length, by simp, sizes.1⟩, (), apart.1, entries,
        succ.inj counted, rfl, sizes.2, distinct.2, ?_, by simp⟩
      intro entry present known
      rcases Finset.mem_insert.mp known with same | known
      · exact distinct.1 (same ▸ mem_map_of_mem present)
      · exact apart.2 entry present known

/-- The section is accepted exactly when it can be cut into fields that the reader takes
for the number of the entries and the sizes of the names. -/
theorem parseTargetFeatures_wraps {features : Finset String} :
    parseTargetFeatures data = .ok features ↔
      ∃ layout : Layout, data = layout.bytes ∧ layout.WellFormed Wraps ∧
        features = layout.names.toFinset := by
  simp only [parseTargetFeatures, Fallible.bind_ok_iff, require_ok, Prod.exists, readLeb_iff,
    readFeatures_iff, Except.ok.injEq]
  constructor
  · rintro ⟨_, _, ⟨field, rfl, counts⟩, _, _, ⟨entries, rfl, rfl, sizes, distinct, _, rfl⟩, _, rfl,
      rfl⟩
    exact ⟨⟨field, entries⟩, by simp [Layout.bytes], ⟨counts, sizes, distinct⟩,
      Finset.empty_union _⟩
  · rintro ⟨⟨field, entries⟩, rfl, ⟨counts, sizes, distinct⟩, rfl⟩
    exact ⟨_, _, ⟨field, rfl, counts⟩, [], _, ⟨entries, rfl, (append_nil _).symm, sizes, distinct,
      fun _ _ => Finset.notMem_empty _, rfl⟩, (), rfl, Finset.empty_union _⟩

theorem denotes_iff {field : List UInt8} : Denotes field value ↔
    Wraps field value ∧ lebValue field < 2 ^ 32 := by
  constructor
  · rintro ⟨terminated, short, rfl, fits⟩
    exact ⟨⟨terminated, short, mod_eq_of_lt fits⟩, fits⟩
  · rintro ⟨⟨terminated, short, spells⟩, fits⟩
    rw [mod_eq_of_lt fits] at spells
    exact ⟨terminated, short, spells, spells ▸ fits⟩

theorem Layout.wellFormed_denotes {layout : Layout} :
    layout.WellFormed Denotes ↔
      layout.WellFormed Wraps ∧ ∀ field ∈ layout.fields, lebValue field < 2 ^ 32 := by
  simp only [Layout.fields, forall_mem_cons, forall_mem_map]
  constructor
  · rintro ⟨counts, sizes, distinct⟩
    exact ⟨⟨(denotes_iff.mp counts).1, fun entry present =>
      (denotes_iff.mp (sizes entry present)).1,
      distinct⟩, (denotes_iff.mp counts).2, fun entry present =>
        (denotes_iff.mp (sizes entry present)).2⟩
  · rintro ⟨⟨counts, sizes, distinct⟩, fits, allFit⟩
    exact ⟨denotes_iff.mpr ⟨counts, fits⟩,
      fun entry present => denotes_iff.mpr ⟨sizes entry present, allFit entry present⟩, distinct⟩

theorem frontField_append {field : List UInt8} (terminated : Terminated field) :
    frontField (field ++ rest) = field := by
  induction field with
  | nil => cases terminated
  | cons byte field ih =>
    unfold Terminated at terminated
    split at terminated
    · next last => simp [frontField, last, terminated]
    · next continued => simp [frontField, continued, ih terminated]

/-- The walk meets the fields of a section that the reader accepts. -/
theorem Layout.fields_bytes {layout : Layout} (wellFormed : layout.WellFormed Wraps) :
    Preflight.fields layout.bytes = layout.fields := by
  have entries (entries : List Entry)
      (sizes : ∀ entry ∈ entries, Wraps entry.length (Utf8.encode entry.name.toList).length) :
      entryFields entries.length (entries.flatMap Entry.bytes) = entries.map Entry.length := by
    induction entries with
    | nil => rfl
    | cons entry entries ih =>
      obtain ⟨size, sizes⟩ := forall_mem_cons.mp sizes
      simp [-Nat.reducePow, entryFields, Entry.bytes, frontField_append size.terminated,
        size.spells, ih sizes]
  simp [-Nat.reducePow, Preflight.fields, Layout.bytes,
    frontField_append wellFormed.count.terminated,
    wellFormed.count.spells, entries _ wellFormed.length, Layout.fields]

end KernalApi.Preflight
