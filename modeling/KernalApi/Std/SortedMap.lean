import Mathlib.Algebra.GroupWithZero.Nat
import Mathlib.Algebra.Order.BigOperators.Group.List
import Mathlib.Algebra.Order.Group.Nat
import Mathlib.Data.List.Sort
import Mathlib.Tactic.Common

/-!
# Finite maps iterated in key order

A `SortedMap` is an association list whose keys increase strictly. The ordering
proof is a field, so a duplicate or misplaced key cannot be represented, and
iteration order is the key order by construction. Additive accounting over the
values (`sum`) is related to every update, which is what quota arguments use.
-/

namespace KernalApi.Std

open List

universe u v w

/-- A finite map stored as entries with strictly increasing keys. -/
structure SortedMap (κ : Type u) [LinearOrder κ] (α : Type v) where
  entries : List (κ × α)
  sorted : entries.Pairwise fun left right => left.1 < right.1

namespace SortedMap

variable {κ : Type u} [LinearOrder κ] {α : Type v} {β : Type w}

/-- The map without entries. -/
def empty : SortedMap κ α := ⟨[], .nil⟩

/-- The value stored under a key. -/
def get? (map : SortedMap κ α) (key : κ) : Option α :=
  (map.entries.find? fun entry => entry.1 = key).map Prod.snd

/-- Store a value, replacing an earlier one under the same key. -/
def insert (map : SortedMap κ α) (key : κ) (value : α) : SortedMap κ α where
  entries := map.entries.filter (fun entry => entry.1 < key) ++
    (key, value) :: map.entries.filter (fun entry => key < entry.1)
  sorted := by
    refine List.pairwise_append.mpr ⟨map.sorted.filter _, ?_, ?_⟩
    · refine List.pairwise_cons.mpr ⟨?_, map.sorted.filter _⟩
      intro entry member
      simpa using (List.mem_filter.mp member).2
    intro left leftMember right rightMember
    have below : left.1 < key := by simpa using (List.mem_filter.mp leftMember).2
    rcases List.mem_cons.mp rightMember with rfl | rightMember
    · exact below
    · have above : key < right.1 := by simpa using (List.mem_filter.mp rightMember).2
      exact below.trans above

/-- Remove a key. -/
def erase (map : SortedMap κ α) (key : κ) : SortedMap κ α where
  entries := map.entries.filter fun entry => entry.1 ≠ key
  sorted := map.sorted.filter _

/-- Apply a function to every stored value. -/
def mapValues (map : SortedMap κ α) (update : κ → α → β) : SortedMap κ β where
  entries := map.entries.map fun entry => (entry.1, update entry.1 entry.2)
  sorted := List.pairwise_map.mpr map.sorted

/-- Apply a function to the value under one key. -/
def modify (map : SortedMap κ α) (key : κ) (update : α → α) : SortedMap κ α :=
  map.mapValues fun current value => if current = key then update value else value

/-- The stored values in key order. -/
def values (map : SortedMap κ α) : List α := map.entries.map Prod.snd

/-- The number of entries. -/
def size (map : SortedMap κ α) : Nat := map.entries.length

/-- The keys, in order, whose values satisfy a test. -/
def keysWhere (map : SortedMap κ α) (test : α → Bool) : List κ :=
  (map.entries.filter fun entry => test entry.2).map Prod.fst

/-- The total of a measure over all values. -/
def sum (map : SortedMap κ α) (measure : α → Nat) : Nat := (map.values.map measure).sum

variable {map : SortedMap κ α} {key other : κ} {value : α} {update : α → α} {measure : α → Nat}

/-- An entry is stored exactly when lookup of its key returns its value. -/
theorem mem_entries_iff : (key, value) ∈ map.entries ↔ map.get? key = some value := by
  obtain ⟨entries, sorted⟩ := map
  simp only [get?]
  induction entries with
  | nil => simp
  | cons entry rest ih =>
    obtain ⟨headKey, headValue⟩ := entry
    obtain ⟨above, restSorted⟩ := pairwise_cons.mp sorted
    by_cases same : headKey = key
    · subst same
      have absent : ∀ other, (headKey, other) ∉ rest := fun other member =>
        lt_irrefl headKey (above _ member)
      simp [absent, eq_comm]
    · have tail := ih restSorted
      simp only [mem_cons, Prod.mk.injEq, find?_cons, same]
      constructor
      · rintro (⟨equal, _⟩ | member)
        · exact absurd equal.symm same
        · exact tail.mp member
      · exact fun found => Or.inr (tail.mpr found)

/-- Maps with the same lookups have the same entries. -/
theorem ext {left right : SortedMap κ α}
    (same : ∀ key, left.get? key = right.get? key) : left = right := by
  have members : ∀ entry, entry ∈ left.entries ↔ entry ∈ right.entries := by
    rintro ⟨key, -⟩
    rw [mem_entries_iff, mem_entries_iff, same key]
  have nodup : ∀ map : SortedMap κ α, map.entries.Nodup := by
    intro map
    refine List.Pairwise.imp ?_ map.sorted
    rintro first _ less rfl
    exact lt_irrefl first.1 less
  have permuted : left.entries.Perm right.entries :=
    (perm_ext_iff_of_nodup (nodup left) (nodup right)).mpr members
  have equal : left.entries = right.entries :=
    permuted.eq_of_pairwise
      (fun _ _ _ _ forward backward => absurd (forward.trans backward) (lt_irrefl _))
      left.sorted right.sorted
  cases left
  cases equal
  rfl

@[simp] theorem get?_empty (key : κ) : (empty : SortedMap κ α).get? key = none := rfl

/-- Lookup after storing a value. -/
@[simp] theorem get?_insert (map : SortedMap κ α) (key other : κ) (value : α) :
    (map.insert key value).get? other = if other = key then some value else map.get? other := by
  ext candidate
  rw [← mem_entries_iff]
  by_cases same : other = key
  · subst same
    simp [insert, eq_comm]
  have apart := lt_or_gt_of_ne same
  have reverse : other < key ∨ key < other ↔ True := by simpa using apart
  simp only [insert, mem_append, mem_cons, mem_filter, Prod.mk.injEq, same,
    false_and, false_or, decide_eq_true_eq, ← and_or_left, reverse, and_true, if_false,
    mem_entries_iff]

/-- Lookup after removing a key. -/
@[simp] theorem get?_erase (map : SortedMap κ α) (key other : κ) :
    (map.erase key).get? other = if other = key then none else map.get? other := by
  ext candidate
  rw [← mem_entries_iff]
  by_cases same : other = key
  · simp [erase, same]
  · simp [erase, same, mem_entries_iff]

/-- Lookup after a pointwise update. -/
@[simp] theorem get?_mapValues (map : SortedMap κ α) (update : κ → α → β) (key : κ) :
    (map.mapValues update).get? key = (map.get? key).map (update key) := by
  ext candidate
  simp only [mapValues, mem_map, Prod.mk.injEq, Prod.exists, Option.map_eq_some_iff,
    ← mem_entries_iff]
  constructor
  · rintro ⟨_, value, member, rfl, equal⟩
    exact ⟨value, member, equal⟩
  · rintro ⟨value, member, equal⟩
    exact ⟨key, value, member, rfl, equal⟩

/-- Lookup after updating one key. -/
@[simp] theorem get?_modify (map : SortedMap κ α) (key other : κ) (update : α → α) :
    (map.modify key update).get? other =
      if other = key then (map.get? other).map update else map.get? other := by
  rw [modify]
  by_cases same : other = key
  · simp [same]
  · simp [same]

/-- What an update of one key makes of the place of each key. -/
theorem modify_relates
    {relates : κ → Option α → Option α → Prop} (same : ∀ place, relates other place place)
    (step : ∀ value, map.get? key = some value → relates key (some value) (some (update value))) :
    relates other (map.get? other) ((map.modify key update).get? other) := by
  rw [get?_modify]
  split
  next here =>
    subst here
    cases stored : map.get? other with
    | none => exact same none
    | some value => exact step value stored
  next => exact same _

/-- A value found after an update of one key is the updated one or was there
under another key. -/
theorem modify_before {new : α} (found : (map.modify key update).get? other = some new) :
    (other = key ∧ ∃ old, map.get? key = some old ∧ new = update old) ∨
      other ≠ key ∧ map.get? other = some new := by
  rw [get?_modify] at found
  by_cases same : other = key
  · subst same
    simp only [if_true, Option.map_eq_some_iff] at found
    obtain ⟨old, oldFound, rfl⟩ := found
    exact .inl ⟨rfl, old, oldFound, rfl⟩
  · rw [if_neg same] at found
    exact .inr ⟨same, found⟩

/-- A value found after removing a key was there under another one. -/
theorem erase_before (found : (map.erase key).get? other = some value) :
    map.get? other = some value := by
  rw [get?_erase] at found
  split_ifs at found
  · exact found

/-- A value found after storing one is the stored value or was there before. -/
theorem insert_before {value found : α} (present : (map.insert key value).get? other = some found) :
    other = key ∧ found = value ∨ other ≠ key ∧ map.get? other = some found := by
  rw [get?_insert] at present
  by_cases same : other = key
  · rw [if_pos same] at present
    exact .inl ⟨same, (Option.some.inj present).symm⟩
  · rw [if_neg same] at present
    exact .inr ⟨same, present⟩

/-- Removing an absent key changes nothing. -/
theorem erase_of_absent (absent : map.get? key = none) : map.erase key = map := by
  apply ext
  intro other
  by_cases same : other = key
  · simp [same, absent]
  · simp [same]

/-- Updating an absent key changes nothing. -/
theorem modify_of_absent (absent : map.get? key = none) (update : α → α) :
    map.modify key update = map := by
  apply ext
  intro other
  by_cases same : other = key
  · simp [same, absent]
  · simp [same]

/-- A stored value is among the values. -/
theorem mem_values : value ∈ map.values ↔ ∃ key, map.get? key = some value := by
  simp [values, ← mem_entries_iff]

/-- The selected keys are those whose stored value passes the test. -/
@[simp] theorem mem_keysWhere {test : α → Bool} :
    key ∈ map.keysWhere test ↔ ∃ value, map.get? key = some value ∧ test value = true := by
  simp [keysWhere, ← mem_entries_iff]

/-- No key is selected twice. -/
theorem keysWhere_nodup (map : SortedMap κ α) (test : α → Bool) : (map.keysWhere test).Nodup :=
  pairwise_map.mpr ((map.sorted.filter _).imp fun less => less.ne)

/-- Removing a stored key removes exactly its contribution. -/
theorem sum_erase (found : map.get? key = some value) (measure : α → Nat) :
    map.sum measure = measure value + (map.erase key).sum measure := by
  obtain ⟨before, after, split⟩ := append_of_mem (mem_entries_iff.mpr found)
  have ordered := map.sorted
  rw [split] at ordered
  obtain ⟨_, tailSorted, across⟩ := pairwise_append.mp ordered
  have keepBefore : before.filter (fun entry => entry.1 ≠ key) = before := by
    apply filter_eq_self.mpr
    intro entry member
    simpa using (across entry member (key, value) (by simp)).ne
  have keepAfter : after.filter (fun entry => entry.1 ≠ key) = after := by
    apply filter_eq_self.mpr
    intro entry member
    simpa using ((pairwise_cons.mp tailSorted).1 entry member).ne'
  simp only [sum, values, erase, split, filter_append, filter_cons, keepBefore, keepAfter]
  simp
  omega

/-- Storing a value exchanges the contribution of its key. -/
theorem sum_insert_exchange (map : SortedMap κ α) (key : κ) (value : α) (measure : α → Nat) :
    (map.insert key value).sum measure + (map.get? key).elim 0 measure =
      map.sum measure + measure value := by
  have found : (map.insert key value).get? key = some value := by simp
  have rest : (map.insert key value).erase key = map.erase key := by
    apply ext
    intro other
    by_cases same : other = key
    · simp [same]
    · simp [same]
  rw [sum_erase found, rest]
  cases stored : map.get? key with
  | none =>
    rw [erase_of_absent stored, Option.elim_none]
    omega
  | some =>
    rw [sum_erase stored, Option.elim_some]
    omega

/-- Storing a fresh key adds exactly its contribution. -/
theorem sum_insert (absent : map.get? key = none) (value : α) (measure : α → Nat) :
    (map.insert key value).sum measure = map.sum measure + measure value := by
  simpa [absent] using sum_insert_exchange map key value measure

/-- Storing a key adds at most its contribution. -/
theorem sum_insert_le (map : SortedMap κ α) (key : κ) (value : α) (measure : α → Nat) :
    (map.insert key value).sum measure ≤ map.sum measure + measure value :=
  (sum_insert_exchange map key value measure).le.trans' (Nat.le_add_right _ _)

/-- Removing a key never raises the total. -/
theorem sum_erase_le (map : SortedMap κ α) (key : κ) (measure : α → Nat) :
    (map.erase key).sum measure ≤ map.sum measure := by
  cases stored : map.get? key with
  | none => rw [erase_of_absent stored]
  | some =>
    rw [sum_erase stored]
    exact Nat.le_add_left _ _

/-- Updating a stored key is storing the updated value. -/
theorem modify_eq_insert (found : map.get? key = some value) (update : α → α) :
    map.modify key update = map.insert key (update value) := by
  apply ext
  intro other
  by_cases same : other = key
  · simp [same, found]
  · simp [same]

/-- Updating a stored key exchanges its contribution. -/
theorem sum_modify (found : map.get? key = some value) (update : α → α) (measure : α → Nat) :
    (map.modify key update).sum measure + measure value =
      map.sum measure + measure (update value) := by
  rw [modify_eq_insert found]
  simpa [found] using sum_insert_exchange map key (update value) measure

/-- An update that keeps the measure keeps the total. -/
theorem sum_modify_eq
    (keeps : ∀ value, map.get? key = some value → measure (update value) = measure value) :
    (map.modify key update).sum measure = map.sum measure := by
  cases stored : map.get? key with
  | none => rw [modify_of_absent stored]
  | some value =>
    have exchange := sum_modify stored update measure
    have same := keeps value stored
    omega

/-- An update that shrinks the measure shrinks the total. -/
theorem sum_modify_le
    (shrinks : ∀ value, map.get? key = some value → measure (update value) ≤ measure value) :
    (map.modify key update).sum measure ≤ map.sum measure := by
  cases stored : map.get? key with
  | none => rw [modify_of_absent stored]
  | some value =>
    have exchange := sum_modify stored update measure
    have less := shrinks value stored
    omega

/-- One stored contribution never exceeds the total. -/
theorem le_sum (found : map.get? key = some value) (measure : α → Nat) :
    measure value ≤ map.sum measure := by
  rw [sum_erase found]
  exact Nat.le_add_right _ _

/-- A total without contributions. -/
theorem sum_eq_zero (nothing : ∀ key value, map.get? key = some value → measure value = 0) :
    map.sum measure = 0 := by
  refine List.sum_eq_zero fun part member => ?_
  obtain ⟨value, stored, rfl⟩ := mem_map.mp member
  obtain ⟨key, found⟩ := mem_values.mp stored
  exact nothing key value found

/-- A pointwise update that shrinks the measure shrinks the total. -/
theorem sum_mapValues_le (update : κ → α → β) (before : α → Nat)
    (after : β → Nat) (shrinks : ∀ key value, after (update key value) ≤ before value) :
    (map.mapValues update).sum after ≤ map.sum before := by
  simp only [sum, values, mapValues, map_map]
  apply sum_le_sum
  intro entry _
  exact shrinks entry.1 entry.2

@[simp] theorem sum_empty (measure : α → Nat) : (empty : SortedMap κ α).sum measure = 0 := rfl

end SortedMap

end KernalApi.Std
