import Mathlib.Data.List.Induction
import Mathlib.Data.List.Nodup

/-!
# Interning

A table of pairwise distinct keys in the order they were first met, with a map
from each key to its place. `Indexes` says that the map is exactly the one of
the table.
-/

namespace KernalApi.Std

open List

variable {κ ν : Type} [DecidableEq κ]

/-- Adding one more element keeps the first occurrences and adds the element if it is new. -/
theorem eraseDups_concat (keys : List κ) (key : κ) :
    (keys ++ [key]).eraseDups = if key ∈ keys then keys.eraseDups else keys.eraseDups ++ [key] := by
  rw [eraseDups_append]
  by_cases known : key ∈ keys
  · simp [removeAll, known]
  · simp [removeAll, known, eraseDups_cons]

variable {key : κ}

variable {keys : List κ}

/-- The table after a key was looked up: it is added at the end if it is new. -/
def extend (keys : List κ) (key : κ) : List κ := if key ∈ keys then keys else keys ++ [key]

theorem extend_known (known : key ∈ keys) : extend keys key = keys := if_pos known

theorem extend_fresh (fresh : key ∉ keys) : extend keys key = keys ++ [key] :=
  if_neg fresh

theorem mem_extend {key other : κ} : other ∈ extend keys key ↔ other ∈ keys ∨ other = key := by
  by_cases known : key ∈ keys
  · rw [extend_known known]
    exact ⟨.inl, fun cases => cases.elim (fun member => member) fun same => same ▸ known⟩
  · simp [extend_fresh known]

theorem mem_foldl_extend {names keys : List κ} :
    key ∈ names.foldl extend keys ↔ key ∈ keys ∨ key ∈ names := by
  induction names generalizing keys with
  | nil => simp
  | cons name rest ih => rw [foldl_cons, ih, mem_extend, mem_cons, or_assoc]

theorem isPrefix_extend (keys : List κ) (key : κ) : keys <+: extend keys key := by
  unfold extend
  split
  · exact prefix_refl _
  exact prefix_append _ _

/-- Rows that are numbered from 1 in their order are found by their numbers. -/
theorem find?_numbered {α : Type} {rows : List α} {number : α → Nat}
    (numbered : ∀ (place : Nat) (row : α), rows[place]? = some row → number row = place + 1)
    (place : Nat) :
    rows.find? (fun row => number row = place + 1) = rows[place]? := by
  cases here : rows[place]? with
  | some row =>
    obtain ⟨inside, found⟩ := List.getElem?_eq_some_iff.1 here
    rw [find?_eq_some_iff_getElem]
    refine ⟨by simpa using numbered place row here, place, inside, found, fun earlier before => ?_⟩
    have other := numbered earlier _ (getElem?_eq_getElem (Nat.lt_trans before inside))
    simp only [Bool.not_eq_true', decide_eq_false_iff_not]
    omega
  | none =>
    rw [find?_eq_none]
    intro row member
    obtain ⟨earlier, inside, found⟩ := getElem_of_mem member
    have other := numbered earlier row (by rw [getElem?_eq_getElem inside, found])
    rw [getElem?_eq_none_iff] at here
    simp only [decide_eq_true_eq]
    omega

/-- A map from the keys of a table to their places, as `place` writes places down. -/
structure Indexes (place : Nat → ν) (keys : List κ) (index : List (κ × ν)) : Prop where
  nodup : keys.Nodup
  lookup : ∀ key, index.lookup key = if key ∈ keys then some (place (keys.idxOf key)) else none

namespace Indexes

variable {place : Nat → ν} {keys : List κ} {index : List (κ × ν)} {key : κ}

theorem empty (place : Nat → ν) : Indexes place ([] : List κ) [] where
  nodup := nodup_nil
  lookup key := by simp

theorem known (indexes : Indexes place keys index) {found : ν}
    (hit : index.lookup key = some found) : key ∈ keys ∧ found = place (keys.idxOf key) := by
  rw [indexes.lookup key] at hit
  by_cases member : key ∈ keys
  · rw [if_pos member] at hit
    exact ⟨member, (Option.some.inj hit).symm⟩
  · rw [if_neg member] at hit
    contradiction

theorem fresh (indexes : Indexes place keys index) (miss : index.lookup key = none) :
    key ∉ keys := by
  intro member
  rw [indexes.lookup key, if_pos member] at miss
  contradiction

/-- A key that is not in the table is added at its end. -/
theorem push (indexes : Indexes place keys index) (new : key ∉ keys) :
    Indexes place (keys ++ [key]) ((key, place keys.length) :: index) where
  nodup := nodup_append.2 ⟨indexes.nodup, nodup_singleton key, by grind⟩
  lookup other := by
    by_cases same : other = key
    · subst same
      simp [idxOf_append_of_notMem new]
    have unequal : (other == key) = false := by simpa using same
    rw [lookup_cons, unequal, indexes.lookup other]
    by_cases member : other ∈ keys
    · simp [member, idxOf_append_of_mem member]
    · simp [member, same]

/-- A key that is looked up: its place is known, or it is added at the end. -/
theorem extend_of_miss (indexes : Indexes place keys index) (miss : index.lookup key = none) :
    Indexes place (extend keys key) ((key, place keys.length) :: index) := by
  have new := indexes.fresh miss
  rw [extend_fresh new]
  exact indexes.push new

end Indexes

/-- A table whose keys are its rows, with the map from each row to its place. -/
structure Interner (κ : Type) [DecidableEq κ] where
  rows : List κ
  index : List (κ × Nat)
  indexes : Indexes id rows index

namespace Interner

def empty : Interner κ := ⟨[], [], Indexes.empty id⟩

/-- The place of a key: the one it has, or a new one at the end. -/
def intern (table : Interner κ) (key : κ) : Nat × Interner κ :=
  match hit : table.index.lookup key with
  | some existing => (existing, table)
  | none =>
    let position := table.rows.length
    (position, ⟨table.rows ++ [key], (key, position) :: table.index,
      table.indexes.push (table.indexes.fresh hit)⟩)

/-- Interning finds the key at its place and keeps the rows there were. -/
structure Interned (table : Interner κ) (key : κ) (result : Nat × Interner κ) : Prop where
  grown : table.rows <+: result.2.rows
  found : result.2.rows[result.1]? = some key
  places : ∀ (place : Nat) (row : κ), result.2.rows[place]? = some row →
    table.rows[place]? = some row ∨ place = table.rows.length ∧ row = key

theorem Interned.origin {table : Interner κ} {key : κ} {result : Nat × Interner κ}
    (interned : Interned table key result) (row : κ) (member : row ∈ result.2.rows) :
    row ∈ table.rows ∨ row = key := by
  obtain ⟨place, found⟩ := mem_iff_getElem?.1 member
  rcases interned.places place row found with old | ⟨-, same⟩
  · exact .inl (mem_of_getElem? old)
  · exact .inr same

theorem intern_interned (table : Interner κ) (key : κ) : Interned table key (table.intern key) := by
  unfold intern
  split
  · rename_i existing hit
    obtain ⟨member, rfl⟩ := table.indexes.known hit
    exact ⟨prefix_refl _, getElem?_idxOf member, fun place row => .inl⟩
  refine ⟨prefix_append _ _, by simp, fun place row found => ?_⟩
  rw [getElem?_append] at found
  split at found
  · exact .inl found
  rw [getElem?_singleton] at found
  split at found
  · exact .inr ⟨by omega, (Option.some.inj found).symm⟩
  contradiction

theorem nodup (table : Interner κ) : table.rows.Nodup := table.indexes.nodup

end Interner

end KernalApi.Std
