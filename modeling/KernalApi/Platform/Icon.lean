import KernalApi.Std.Fallible
import KernalApi.Std.LittleEndian
import Mathlib

/-!
# The best image of an icon

`bestImage` walks the directory of an icon and keeps the largest image seen so far. Each
read of the data carries the proof that it lies within.
-/

namespace KernalApi.Platform.WindowIcon

open KernalApi.Std List

inductive IcoError where
  | truncated
  | notAnIcon
  | noImages
  | entryOutOfBounds

structure ImageSpan where
  offset : Nat
  len : Nat

variable {bytes : List UInt8}

/-- A little-endian word of the data: a byte, `u16_at` or `u32_at`. -/
def wordAt (width : Nat) (bytes : List UInt8) (start : Nat) (_ : start + width ≤ bytes.length) :
    Nat :=
  leValue ((bytes.drop start).take width)

/-- What the walk reads of an entry. -/
structure Entry where
  pixels : Nat
  depth : Nat
  span : ImageSpan

/-- A side of 256 is written as zero. -/
def side (byte : Nat) : Nat := if byte = 0 then 256 else byte

def entryAt {count : Nat} (whole : 6 + count * 16 ≤ bytes.length) (index : Fin count) : Entry :=
  let entry := 6 + index.val * 16
  let width := wordAt 1 bytes entry (by omega)
  let height := wordAt 1 bytes (entry + 1) (by omega)
  let depth := wordAt 2 bytes (entry + 6) (by omega)
  let len := wordAt 4 bytes (entry + 8) (by omega)
  let offset := wordAt 4 bytes (entry + 12) (by omega)
  ⟨side width * side height, depth, offset, len⟩

/-- Images are compared by their pixels, then by their depth. -/
def Entry.rank (entry : Entry) : ℕ ×ₗ ℕ := toLex (entry.pixels, entry.depth)

/-- The image lies behind the directory and within the data. -/
def Entry.Within (directoryEnd size : Nat) (entry : Entry) : Prop :=
  entry.span.len ≠ 0 ∧ entry.span.offset + entry.span.len ≤ size ∧ directoryEnd ≤ entry.span.offset
deriving Decidable

/-- The loop over the remaining entries. -/
def walk (directoryEnd size : Nat) : List Entry → Option Entry → Except IcoError (Option Entry)
  | [], best => .ok best
  | entry :: rest, best =>
    if entry.Within directoryEnd size then
      walk directoryEnd size rest (if best.any (entry.rank ≤ ·.rank) then best else some entry)
    else .error .entryOutOfBounds

def bestImage (bytes : List UInt8) : Except IcoError ImageSpan :=
  if long : bytes.length < 6 then .error .truncated
  else if wordAt 2 bytes 0 (by omega) ≠ 0 ∨ wordAt 2 bytes 2 (by omega) ≠ 1 then .error .notAnIcon
  else
    let count := wordAt 2 bytes 4 (by omega)
    if count = 0 then .error .noImages
    else if cut : bytes.length < 6 + count * 16 then .error .truncated
    else do
      let entries := (finRange count).map (@entryAt bytes count (by omega))
      match ← walk (6 + count * 16) bytes.length entries none with
      | some best => .ok best.span
      | none => .error .noImages

/-- An icon header and a whole directory. -/
@[ext] structure Directory (bytes : List UInt8) where
  count : Nat
  filled : count ≠ 0
  whole : 6 + count * 16 ≤ bytes.length
  reserved : wordAt 2 bytes 0 (by omega) = 0
  icon : wordAt 2 bytes 2 (by omega) = 1
  counted : wordAt 2 bytes 4 (by omega) = count

def Directory.entries (directory : Directory bytes) : List Entry :=
  (finRange directory.count).map (entryAt directory.whole)

/-- The walk keeps the first of the largest images, if each is in its place. -/
theorem walk_ok_iff {directoryEnd size : Nat} {entries : List Entry} {best result : Option Entry} :
    walk directoryEnd size entries best = .ok result ↔
      (∀ entry ∈ entries, entry.Within directoryEnd size) ∧
        entries.foldl (argAux fun later held => held.rank < later.rank) best = result := by
  induction entries generalizing best with
  | nil => simp [walk]
  | cons entry entries ih =>
    have kept : (if best.any (entry.rank ≤ ·.rank) then best else some entry) =
        argAux (fun later held => held.rank < later.rank) best entry := by
      cases best with
      | none => rfl
      | some held => simp [argAux, ← not_lt]
    by_cases placed : entry.Within directoryEnd size <;> simp [walk, placed, kept, ih]

/-- An image is chosen exactly from a directory whose images are all in their place, and it is
the first of the largest. -/
theorem bestImage_ok_iff (bytes : List UInt8) (span : ImageSpan) :
    bestImage bytes = .ok span ↔ ∃ directory : Directory bytes,
      (∀ entry ∈ directory.entries, entry.Within (6 + directory.count * 16) bytes.length) ∧
        ∃ best ∈ directory.entries.argmax Entry.rank, best.span = span := by
  simp only [bestImage]
  split_ifs with short header empty cut
  · exact ⟨nofun, fun ⟨directory, _⟩ => absurd directory.whole (by omega)⟩
  · refine ⟨nofun, fun ⟨directory, _⟩ => ?_⟩
    simp [directory.reserved, directory.icon] at header
  · exact ⟨nofun, fun ⟨directory, _⟩ => absurd (directory.counted.symm.trans empty)
      directory.filled⟩
  · exact ⟨nofun, fun ⟨directory, _⟩ => absurd directory.whole
      (by rwa [← directory.counted, not_le])⟩
  let found : Directory bytes := ⟨_, empty, not_lt.mp cut, by tauto, by tauto, rfl⟩
  have only (other : Directory bytes) : other = found := Directory.ext other.counted.symm
  rw [Fallible.bind_ok_iff]
  constructor
  · rintro ⟨_ | best, walked, answer⟩
    · cases answer
    · cases answer
      obtain ⟨within, largest⟩ := walk_ok_iff.mp walked
      exact ⟨found, within, best, largest, rfl⟩
  · rintro ⟨directory, within, best, largest, rfl⟩
    obtain rfl := only directory
    exact ⟨_, walk_ok_iff.mpr ⟨within, largest⟩, rfl⟩

end KernalApi.Platform.WindowIcon
