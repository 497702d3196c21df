import Mathlib.Data.Set.Basic
import Mathlib.Tactic.Common

/-!
# Writers of a fixed buffer

A buffer is a list that keeps its length. A writer is confined to a region when
it neither changes nor reads a position outside it, and it stamps the region
when what it leaves there does not depend on the buffer at all. Stamps of apart
regions commute, and a stamp forgets an earlier stamp of its region.
-/

namespace KernalApi.Std

open List

variable {offset position length inner start index : Nat} {region other : Set Nat} {α β : Type}

/-- Writes data from a position on; what lies beyond the end is dropped. -/
def overwrite : List α → Nat → List α → List α
  | [], _, _ => []
  | value :: buffer, 0, [] => value :: buffer
  | _ :: buffer, 0, item :: data => item :: overwrite buffer 0 data
  | value :: buffer, offset + 1, data => value :: overwrite buffer offset data

/-- The items at a range of positions. -/
def slice (buffer : List α) (offset length : Nat) : List α := (buffer.drop offset).take length

@[simp] theorem length_overwrite (buffer : List α) (offset : Nat) (data : List α) :
    (overwrite buffer offset data).length = buffer.length := by
  fun_induction overwrite buffer offset data with
  | case1 => rfl
  | case2 => rfl
  | case3 _ _ _ _ ih => simp [ih]
  | case4 _ _ _ _ ih => simp [ih]

variable {buffer : List α} {data : List α}

theorem getElem?_overwrite_apart (apart : position < offset ∨ offset + data.length ≤ position) :
    (overwrite buffer offset data)[position]? = buffer[position]? := by
  fun_induction overwrite buffer offset data generalizing position with
  | case1 => rfl
  | case2 => rfl
  | case3 _ buffer item data ih =>
    simp only [length_cons] at apart
    cases position with
    | zero => omega
    | succ position =>
      exact ih (by omega)
  | case4 _ buffer offset data ih =>
    cases position with
    | zero => rfl
    | succ position =>
      exact ih (by omega)

theorem getElem?_overwrite_within
    (room : offset + position < buffer.length) (within : position < data.length) :
    (overwrite buffer offset data)[offset + position]? = data[position]? := by
  fun_induction overwrite buffer offset data generalizing position with
  | case1 => simp at room
  | case2 => simp at within
  | case3 _ buffer item data ih =>
    simp only [length_cons] at room within
    cases position with
    | zero => rfl
    | succ position =>
      exact ih (by omega) (by omega)
  | case4 _ buffer offset data ih =>
    simp only [length_cons] at room
    rw [Nat.succ_add]
    exact ih (by omega) within

@[simp] theorem length_slice (buffer : List α) (offset length : Nat) :
    (slice buffer offset length).length = min length (buffer.length - offset) := by
  simp [slice]

theorem getElem?_slice (within : position < length) :
    (slice buffer offset length)[position]? = buffer[offset + position]? := by
  unfold slice
  rw [getElem?_take_of_lt within, getElem?_drop]

/-- A slice is what its positions hold. -/
theorem slice_eq {other : List α} (fits : other.length ≤ length)
    (same : ∀ position, position < length → buffer[offset + position]? = other[position]?) :
    slice buffer offset length = other := by
  apply ext_getElem?
  intro position
  by_cases within : position < length
  · rw [getElem?_slice within, same position within]
  rw [getElem?_eq_none, getElem?_eq_none]
  · omega
  · rw [length_slice]
    omega

theorem slice_congr {first second : List α}
    (same : ∀ position, offset ≤ position → position < offset + length →
      first[position]? = second[position]?) :
    slice first offset length = slice second offset length := by
  apply slice_eq (by simp)
  intro position within
  rw [getElem?_slice within]
  exact same _ (by omega) (by omega)

theorem slice_overwrite (room : offset + data.length ≤ buffer.length) :
    slice (overwrite buffer offset data) offset data.length = data :=
  slice_eq le_rfl fun _ within => getElem?_overwrite_within (by omega) within

/-- Data written at the front of a range leaves the rest of the range. -/
theorem slice_overwrite_front (room : offset + length ≤ buffer.length)
    (within : data.length ≤ length) : slice (overwrite buffer offset data) offset length
      = data ++ (slice buffer offset length).drop data.length := by
  refine slice_eq (by simp; omega) fun position inside => ?_
  by_cases front : position < data.length
  · rw [getElem?_overwrite_within (by omega) front, getElem?_append_left front]
  · rw [getElem?_overwrite_apart (by omega), getElem?_append_right (by omega),
      getElem?_drop, Nat.add_sub_cancel' (by omega), getElem?_slice inside]

/-! ## Regions -/

/-- The positions of a range. -/
def range (offset length : Nat) : Set Nat :=
  {position | offset ≤ position ∧ position < offset + length}

@[simp] theorem mem_range :
    position ∈ range offset length ↔ offset ≤ position ∧ position < offset + length := Iff.rfl

/-- A writer that changes and reads only the positions of a region. -/
structure Confined (write : List α → List α) (region : Set Nat) : Prop where
  length : ∀ buffer, (write buffer).length = buffer.length
  outside : ∀ buffer position, position ∉ region → (write buffer)[position]? = buffer[position]?
  inside : ∀ first second : List α, first.length = second.length →
    (∀ position ∈ region, first[position]? = second[position]?) →
    ∀ position ∈ region, (write first)[position]? = (write second)[position]?

/-- A writer that leaves the same in a region whatever was in the buffer. -/
structure Stamps (write : List α → List α) (region : Set Nat) : Prop where
  length : ∀ buffer, (write buffer).length = buffer.length
  outside : ∀ buffer position, position ∉ region → (write buffer)[position]? = buffer[position]?
  inside : ∀ first second : List α, first.length = second.length →
    ∀ position ∈ region, (write first)[position]? = (write second)[position]?

variable {write : List α → List α}

theorem Stamps.confined (stamps : Stamps write region) :
    Confined write region :=
  ⟨stamps.length, stamps.outside, fun first second same _ => stamps.inside first second same⟩

theorem stamps_overwrite (offset : Nat) (data : List α) :
    Stamps (fun buffer => overwrite buffer offset data) (range offset data.length) where
  length := fun buffer => length_overwrite buffer offset data
  outside := by
    intro buffer position outside
    apply getElem?_overwrite_apart
    rw [mem_range] at outside
    omega
  inside := by
    rintro first second same position ⟨above, below⟩
    obtain ⟨index, rfl⟩ := Nat.exists_eq_add_of_le above
    by_cases room : offset + index < first.length
    · rw [getElem?_overwrite_within room (by omega),
        getElem?_overwrite_within (same ▸ room) (by omega)]
    rw [getElem?_eq_none, getElem?_eq_none]
    all_goals
      rw [length_overwrite]
      omega

theorem Confined.mono {wider : Set Nat} (confined : Confined write region)
    (within : region ⊆ wider) : Confined write wider where
  length := confined.length
  outside := fun buffer position outside =>
    confined.outside buffer position (fun member => outside (within member))
  inside := by
    intro first second same agree position member
    by_cases touched : position ∈ region
    · exact confined.inside first second same (fun other inner => agree other (within inner))
        position touched
    · rw [confined.outside first position touched, confined.outside second position touched]
      exact agree position member

variable {first second : List α → List α}

theorem Confined.comp (before : Confined first region) (after : Confined second region) :
    Confined (fun buffer => second (first buffer)) region where
  length := fun _ => (after.length _).trans (before.length _)
  outside := fun _ position outside =>
    (after.outside _ position outside).trans (before.outside _ position outside)
  inside := fun one other same agree =>
    after.inside _ _ ((before.length one).trans (same.trans (before.length other).symm))
      (before.inside one other same agree)

theorem Confined.rfl : Confined (fun buffer : List α => buffer) region :=
  ⟨fun _ => Eq.refl _, fun _ _ _ => Eq.refl _, fun _ _ _ agree => agree⟩

/-- A loop of confined writers is confined. -/
theorem Confined.foldl {write : β → List α → List α} {items : List β}
    (confined : ∀ item ∈ items, Confined (write item) region) :
    Confined (fun buffer => items.foldl (fun buffer item => write item buffer) buffer) region := by
  induction items with
  | nil => exact Confined.rfl
  | cons item items ih =>
    have rest := ih (fun other member => confined other (mem_cons_of_mem _ member))
    exact (confined item mem_cons_self).comp rest

/-- Writing within a stamped region leaves it stamped. -/
theorem Stamps.andThen (stamps : Stamps first region) (confined : Confined second region) :
    Stamps (fun buffer => second (first buffer)) region where
  length := fun _ => (confined.length _).trans (stamps.length _)
  outside := fun _ position outside =>
    (confined.outside _ position outside).trans (stamps.outside _ position outside)
  inside := fun one other same =>
    confined.inside _ _ ((stamps.length one).trans (same.trans (stamps.length other).symm))
      (stamps.inside one other same)

theorem Stamps.comp (before : Stamps first region) (after : Stamps second other) :
    Stamps (fun buffer => second (first buffer)) (region ∪ other) where
  length := fun _ => (after.length _).trans (before.length _)
  outside := by
    intro buffer position outside
    rw [Set.mem_union, not_or] at outside
    rw [after.outside _ position outside.2, before.outside _ position outside.1]
  inside := by
    intro one another same position member
    by_cases touched : position ∈ other
    · exact after.inside _ _ ((before.length one).trans (same.trans (before.length another).symm))
        position touched
    · rw [after.outside _ position touched, after.outside _ position touched]
      exact before.inside one another same position (member.resolve_right touched)

/-- What lies apart from the region is read as before. -/
theorem Confined.slice_eq (confined : Confined write region) (buffer : List α)
    (apart : ∀ position, offset ≤ position → position < offset + length → position ∉ region) :
    slice (write buffer) offset length = slice buffer offset length :=
  slice_congr fun position above below => confined.outside buffer position
    (apart position above below)

/-- A stamp forgets an earlier writer of its region. -/
theorem Stamps.absorbs
    (stamps : Stamps second region) (confined : Confined first region) (buffer : List α) :
    second (first buffer) = second buffer := by
  apply ext_getElem?
  intro position
  by_cases member : position ∈ region
  · exact stamps.inside _ _ (confined.length buffer) position member
  · rw [stamps.outside _ position member, stamps.outside _ position member,
      confined.outside _ position member]

/-- Stamps of apart regions commute. -/
theorem Stamps.comm (one : Stamps first region) (another : Stamps second other)
    (apart : ∀ position, position ∈ region → position ∉ other) (buffer : List α) :
    first (second buffer) = second (first buffer) := by
  apply ext_getElem?
  intro position
  by_cases member : position ∈ region
  · rw [another.outside _ position (apart position member)]
    exact one.inside _ _ (another.length buffer) position member
  rw [one.outside _ position member]
  by_cases touched : position ∈ other
  · exact another.inside _ _ (one.length buffer).symm position touched
  · rw [another.outside _ position touched, another.outside _ position touched,
      one.outside _ position member]

/-! ## Loops over cells -/

section Cells

variable {γ : Type} {write : List α → β × Nat → List α} (size limit : Nat) (read : Nat → List α → γ)
  (settle : β → γ → γ) {items : List β}
  (keeps : ∀ buffer entry, (write buffer entry).length = buffer.length)
  (own : ∀ (buffer : List α), ∀ item ∈ items, ∀ index, buffer.length = size → index < limit →
    read index (write buffer (item, index)) = settle item (read index buffer))
  (others : ∀ (buffer : List α) item index cell, index < limit → cell < limit → cell ≠ index →
    read cell (write buffer (item, index)) = read cell buffer)

include others

/-- The cells before the first index of a loop are not touched. -/
theorem foldl_zipIdx_before {items : List β} {cell : Nat} {buffer : List α}
    (bound : start + items.length ≤ limit) (before : cell < start) (inside : cell < limit) :
    read cell ((items.zipIdx start).foldl write buffer) = read cell buffer := by
  induction items generalizing start buffer with
  | nil => rfl
  | cons first items ih =>
    simp only [length_cons] at bound
    rw [zipIdx_cons, foldl_cons, ih (by omega) (by omega)]
    exact others buffer first start cell (by omega) inside (by omega)

include keeps own

/-- A loop that writes one cell per item leaves in each cell what its own item
settled there: the other items do not touch it. -/
theorem foldl_zipIdx_cell {start index : Nat} {item : β} {buffer : List α}
    (sized : buffer.length = size) (bound : start + items.length ≤ limit)
    (found : items[index]? = some item) :
    read (start + index) ((items.zipIdx start).foldl write buffer)
      = settle item (read (start + index) buffer) := by
  induction items generalizing start index buffer with
  | nil => simp at found
  | cons first items ih =>
    have short := (List.getElem?_eq_some_iff.mp found).1
    simp only [length_cons] at bound short
    rw [zipIdx_cons, foldl_cons]
    cases index with
    | zero =>
      rw [getElem?_cons_zero, Option.some.injEq] at found
      subst found
      rw [Nat.add_zero, foldl_zipIdx_before limit read others (by omega) (by omega) (by omega),
        own buffer first mem_cons_self start sized (by omega)]
    | succ index =>
      have rest := @ih
        (fun buffer item member => own buffer item (mem_cons_of_mem _ member))
        (start + 1) index (write buffer (first, start)) ((keeps _ _).trans sized) (by omega) found
      rw [Nat.add_right_comm] at rest
      rw [← Nat.add_assoc, rest, others buffer first start _ (by omega) (by omega) (by omega)]

/-- The same for a loop that starts at the first cell. -/
theorem foldl_cell {index : Nat} {item : β} {buffer : List α} (sized : buffer.length = size)
    (bound : items.length ≤ limit) (found : items[index]? = some item) :
    read index (items.zipIdx.foldl write buffer) = settle item (read index buffer) := by
  have cell := foldl_zipIdx_cell size limit read settle keeps own others sized
    ((Nat.zero_add _).trans_le bound) found
  rwa [Nat.zero_add] at cell

end Cells

end KernalApi.Std
