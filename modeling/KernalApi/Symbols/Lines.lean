import Mathlib

/-!
# Looking up the line of an address

The table keeps the first of the sorted ranges of each start, and a look-up asks
only the range with the nearest start at or below the address. A shorter range
that starts inside a longer one hides the rest of it, and a range that starts
below the base is moved up to it.
-/

namespace KernalApi.Symbols.Lines

open List

/-- A range as the object's line program delivers it. -/
structure LocationRange where
  start : Nat
  length : Nat
  file : Option String
  line : Option Nat

/-- A row of the table: the first address, the one after the last, and the line. -/
structure LineEntry where
  start : Nat
  stop : Nat
  file : String
  line : Nat
deriving DecidableEq

/-- The entry of a range; ranges without file or line are skipped. The end wraps
around, as 64-bit addition does. -/
def LocationRange.entry? (base : Nat) (range : LocationRange) : Option LineEntry := do
  let file ← range.file
  let line ← range.line
  let relative := range.start - base
  return ⟨relative, (relative + max range.length 1) % 2 ^ 64, file, line⟩

/-- A sort by the start that may leave equal starts in any order. -/
structure UnstableSort where
  sort : List LineEntry → List LineEntry
  perm : ∀ entries, (sort entries).Perm entries
  sorted : ∀ entries, (sort entries).Pairwise fun first second => first.start ≤ second.start

def dedupByStart (entries : List LineEntry) : List LineEntry :=
  entries.destutter fun first second => first.start ≠ second.start

/-- The entries of `LineTable::from_path`. -/
def fromPath (order : UnstableSort) (base : Nat) (ranges : List LocationRange) :
    Option (List LineEntry) :=
  let entries := ranges.filterMap (LocationRange.entry? base)
  if entries.isEmpty then none else some (dedupByStart (order.sort entries))

/-- `binary_search_by_key` over increasing starts: where the address is, or where it would be. -/
def binarySearch (entries : List LineEntry) (address : Nat) : Except Nat Nat :=
  let next := (entries.takeWhile fun entry => entry.start < address).length
  if (entries[next]?).any fun entry => entry.start = address then .ok next else .error next

/-- The entry at the address, or else the one before where it would be. -/
def nearest (entries : List LineEntry) (address : Nat) : Option LineEntry :=
  match binarySearch entries address with
  | .ok exact => entries[exact]?
  | .error 0 => none
  | .error (next + 1) => entries[next]?

def lookup (entries : List LineEntry) (address : Nat) : Option (String × Nat) := do
  let entry ← nearest entries address
  if entry.start ≤ address ∧ address < entry.stop then some (entry.file, entry.line) else none

section Search

variable {entries : List LineEntry} {address : Nat} {entry : LineEntry}

theorem mem_of_nearest (found : nearest entries address = some entry) : entry ∈ entries := by
  unfold nearest at found
  split at found
  · exact mem_of_getElem? found
  · cases found
  · exact mem_of_getElem? found

/-- No start at or below the address is nearer than the one that is found. -/
theorem nearest_of_below
    (sorted : entries.Pairwise fun first second => first.start ≤ second.start)
    (member : entry ∈ entries) (below : entry.start ≤ address) :
    ∃ found, nearest entries address = some found ∧ entry.start ≤ found.start ∧
      found.start ≤ address := by
  have parts := takeWhile_append_dropWhile (p := fun entry => entry.start < address) (l := entries)
  have lower {earlier} := @mem_takeWhile_imp _ (fun entry => entry.start < address) entries earlier
  have higher := head?_dropWhile_not (fun entry => entry.start < address) entries
  unfold nearest binarySearch
  generalize entries.takeWhile (fun entry => entry.start < address) = front at parts lower ⊢
  generalize entries.dropWhile (fun entry => entry.start < address) = rest at parts higher
  subst parts
  obtain ⟨within, tail, -⟩ := pairwise_append.mp sorted
  by_cases exact : ∃ first, rest.head? = some first ∧ first.start = address
  · obtain ⟨first, here, rfl⟩ := exact
    obtain ⟨-, rfl⟩ := head?_eq_some_iff.mp here
    exact ⟨first, by simp, below, Nat.le_refl _⟩
  · have inFront : entry ∈ front := by
      refine (mem_append.mp member).resolve_right fun inRest => exact ?_
      cases rest with
      | nil => cases inRest
      | cons first rest =>
        refine ⟨first, rfl, ?_⟩
        have least : first.start ≤ entry.start := by
          rcases mem_cons.mp inRest with rfl | later
          · exact Nat.le_refl _
          · exact rel_of_pairwise_cons tail later
        simp at higher
        omega
    obtain ⟨init, last, rfl⟩ := (eq_nil_or_concat' front).resolve_left (ne_nil_of_mem inFront)
    have missed : ¬ ((init ++ [last] ++ rest)[(init ++ [last]).length]?.any
        fun entry => entry.start = address) = true := by
      rw [getElem?_append_right (Nat.le_refl _), Nat.sub_self, ← head?_eq_getElem?]
      simpa [Option.any_eq_true] using exact
    rw [if_neg missed]
    refine ⟨last, by simp, ?_, Nat.le_of_lt (by simpa using @lower last (by simp))⟩
    rcases mem_append.mp inFront with earlier | here
    · exact (pairwise_append.mp within).2.2 _ earlier _ (mem_singleton_self _)
    · exact Nat.le_of_eq (congrArg _ (mem_singleton.mp here))

end Search

section Table

variable {order : UnstableSort} {base address : Nat} {ranges : List LocationRange}

/-- The look-up in the table of the ranges; without a table there is no line. -/
def lineOf (order : UnstableSort) (base : Nat) (ranges : List LocationRange) (address : Nat) :
    Option (String × Nat) :=
  (fromPath order base ranges).bind (lookup · address)

/-- The range contains the address, an empty range as one byte, and has the line. -/
def LocationRange.Covers (base address : Nat) (line : String × Nat) (range : LocationRange) :
    Prop :=
  (range.file, range.line) = (some line.1, some line.2) ∧ range.start ≤ base + address ∧
    base + address < range.start + max range.length 1

/-- The entry's start is the nearest at or below the address. -/
def Nearest (entries : List LineEntry) (address : Nat) (entry : LineEntry) : Prop :=
  entry ∈ entries ∧ entry.start ≤ address ∧
    ∀ other ∈ entries, other.start ≤ address → other.start ≤ entry.start

theorem exists_mem_destutter' (entries : List LineEntry) (head : LineEntry) {entry : LineEntry}
    (member : entry ∈ head :: entries) :
    ∃ kept ∈ entries.destutter' (fun first second => first.start ≠ second.start) head,
      kept.start = entry.start := by
  induction entries generalizing head with
  | nil => exact ⟨head, by simp, by simp_all⟩
  | cons next entries ih =>
    by_cases same : head.start = next.start
    · rw [destutter'_cons_neg _ (not_not.mpr same)]
      rcases mem_cons.mp member with rfl | later
      · exact ih _ mem_cons_self
      rcases mem_cons.mp later with rfl | rest
      · exact ⟨head, mem_destutter' _ _ _, same⟩
      · exact ih _ (mem_cons_of_mem _ rest)
    · rw [destutter'_cons_pos _ same]
      rcases mem_cons.mp member with rfl | later
      · exact ⟨entry, mem_cons_self, rfl⟩
      · obtain ⟨kept, present, starts⟩ := ih _ later
        exact ⟨kept, mem_cons_of_mem _ present, starts⟩

/-- Of every start the table keeps an entry. -/
theorem exists_mem_dedupByStart {entries : List LineEntry} {entry : LineEntry}
    (member : entry ∈ entries) : ∃ kept ∈ dedupByStart entries, kept.start = entry.start := by
  cases entries with
  | nil => cases member
  | cons head entries => exact exists_mem_destutter' entries head member

/-- Sorted by the start, one entry before all others of its start. -/
def Before (entry first second : LineEntry) : Prop :=
  first.start < second.start ∨ first.start = second.start ∧ (second = entry → first = entry)

instance (entry : LineEntry) : DecidableRel (Before entry) :=
  fun _ _ => inferInstanceAs (Decidable (_ ∨ _))

instance (entry : LineEntry) : Std.Total (Before entry) := ⟨fun _ _ => by unfold Before; grind⟩

instance (entry : LineEntry) : IsTrans LineEntry (Before entry) :=
  ⟨fun _ _ _ => by unfold Before; grind⟩

/-- Of the entries of one start the table keeps the first. -/
theorem eq_of_mem_dedupByStart {entries : List LineEntry} {kept entry : LineEntry}
    (sorted : entries.Pairwise (Before entry)) (present : kept ∈ dedupByStart entries)
    (member : entry ∈ entries) (same : entry.start = kept.start) : kept = entry := by
  cases entries with
  | nil => cases member
  | cons head entries =>
    rw [dedupByStart, destutter] at present
    induction entries generalizing head with
    | nil => simp_all
    | cons next entries ih =>
      obtain ⟨front, rest⟩ := pairwise_cons.mp sorted
      by_cases equal : head.start = next.start
      · rw [destutter'_cons_neg _ (not_not.mpr equal)] at present
        refine ih head (pairwise_cons.mpr ⟨fun later inside =>
          front later (mem_cons_of_mem _ inside), (pairwise_cons.mp rest).2⟩) present ?_
        rcases mem_cons.mp member with rfl | later
        · exact mem_cons_self
        rcases mem_cons.mp later with rfl | deeper
        · obtain less | ⟨-, first⟩ := front entry mem_cons_self
          · exact absurd equal less.ne
          · exact first rfl ▸ mem_cons_self
        · exact mem_cons_of_mem _ deeper
      · rw [destutter'_cons_pos _ equal] at present
        rcases mem_cons.mp present with rfl | kept_
        · rcases mem_cons.mp member with rfl | later
          · rfl
          · obtain less | ⟨-, first⟩ := front entry later
            · exact absurd same less.ne'
            · exact first rfl
        rcases mem_cons.mp member with rfl | later
        · -- The next start is higher already, and the starts do not fall.
          have inside := (destutter'_sublist _ _ _).subset kept_
          have low := front next mem_cons_self
          have high := fun here => (pairwise_cons.mp rest).1 kept here
          unfold Before at low high
          grind
        · exact ih next rest kept_ later

theorem entry?_eq_some {range : LocationRange} {entry : LineEntry} :
    range.entry? base = some entry ↔ (range.file, range.line) = (some entry.file, some entry.line) ∧
      entry.start = range.start - base ∧
      entry.stop = (range.start - base + max range.length 1) % 2 ^ 64 := by
  obtain ⟨-, stop, file, line⟩ := entry
  simp [LocationRange.entry?, Option.bind_eq_some_iff]
  grind

/-- What a look-up in the table of the ranges answers. -/
theorem lineOf_eq_some {line : String × Nat} :
    lineOf order base ranges address = some line ↔
      ∃ found, nearest (dedupByStart (order.sort (ranges.filterMap (LocationRange.entry? base))))
        address = some found ∧ found.start ≤ address ∧ address < found.stop ∧
        (found.file, found.line) = line := by
  unfold lineOf fromPath lookup
  dsimp only
  split
  case isTrue empty =>
    simp only [isEmpty_iff.mp empty, (order.perm []).eq_nil]
    simp [dedupByStart, nearest, binarySearch]
  case isFalse => simp [Option.bind_eq_some_iff, and_assoc]

/-- The search finds the nearest start, if one is at or below the address. -/
theorem nearest_dedup {entries : List LineEntry} {entry : LineEntry} (member : entry ∈ entries)
    (below : entry.start ≤ address) :
    ∃ found, nearest (dedupByStart (order.sort entries)) address = some found ∧
      Nearest entries address found := by
  have near {other} (known : other ∈ entries) (lower : other.start ≤ address) :
      ∃ found, nearest (dedupByStart (order.sort entries)) address = some found ∧
        other.start ≤ found.start ∧ found.start ≤ address := by
    obtain ⟨kept, present, starts⟩ := exists_mem_dedupByStart ((order.perm _).mem_iff.mpr known)
    rw [← starts] at lower ⊢
    exact nearest_of_below ((order.sorted _).sublist (destutter_sublist _ _)) present lower
  obtain ⟨found, asked, -, lower⟩ := near member below
  refine ⟨found, asked, ?_, lower, fun other known lower => ?_⟩
  · exact (order.perm _).mem_iff.mp ((destutter_sublist _ _).subset (mem_of_nearest asked))
  · obtain ⟨_, again, higher, -⟩ := near known lower
    rwa [Option.some.inj (again.symm.trans asked)] at higher

/-- Sorts by the start, with one entry before all others of its start. -/
def favouring (entry : LineEntry) : UnstableSort where
  sort := List.insertionSort (Before entry)
  perm := List.perm_insertionSort _
  sorted entries :=
    (List.pairwise_insertionSort _ entries).imp fun ordered => by unfold Before at ordered; omega

theorem nearest_favouring {entries : List LineEntry} {entry : LineEntry}
    (near : Nearest entries address entry) :
    nearest (dedupByStart ((favouring entry).sort entries)) address = some entry := by
  obtain ⟨member, below, highest⟩ := near
  obtain ⟨found, asked, known, lower, higher⟩ :=
    @nearest_dedup (favouring entry) _ _ _ member below
  have same : entry.start = found.start :=
    Nat.le_antisymm (higher entry member below) (highest found known lower)
  rw [asked, eq_of_mem_dedupByStart (List.pairwise_insertionSort _ entries) (mem_of_nearest asked)
    ((List.perm_insertionSort _ _).mem_iff.mpr member) same]

end Table

end KernalApi.Symbols.Lines
