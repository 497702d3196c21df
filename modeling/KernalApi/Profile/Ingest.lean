import KernalApi.Profile.Collapsed
import KernalApi.Profile.Firefox

/-!
# From the sample ring to the folded rows

A sample carries whether its stack was cut short. The ring and the resolution
keep the mark; `folded` counts by the names alone, so a cut stack and a complete
one with the same names share a row, and no export shows a mark.
-/

namespace KernalApi.Profile

open List SessionResult

/-- One captured stack before name resolution, leaf first. -/
structure RawSample where
  stack : List UInt64
  truncated : Bool

/-- A fixed-capacity sink for raw samples. -/
structure SampleRing where
  samples : List RawSample
  capacity : Nat
  dropped : Nat
  accepted : Nat

namespace SampleRing

def withCapacity (capacity : Nat) : SampleRing := ⟨[], capacity, 0, 0⟩

/-- Whether the sample was kept, and the ring afterwards. -/
def push (ring : SampleRing) (sample : RawSample) : Bool × SampleRing :=
  if ring.capacity ≤ ring.samples.length then (false, { ring with dropped := ring.dropped + 1 })
  else (true, { ring with
    samples := ring.samples ++ [sample]
    accepted := ring.accepted + 1 })

def drain (ring : SampleRing) : List RawSample × SampleRing :=
  (ring.samples, { ring with samples := [] })

/-- The ring after a sequence of offers. -/
def offered (ring : SampleRing) (offers : List RawSample) : SampleRing :=
  offers.foldl (fun ring sample => (ring.push sample).2) ring

/-- The ring keeps the first offers, up to its capacity. -/
theorem offered_samples (capacity : Nat) (offers : List RawSample) :
    ((withCapacity capacity).offered offers).samples = offers.take capacity ∧
      ((withCapacity capacity).offered offers).capacity = capacity := by
  induction offers using reverseRecOn with
  | nil => simp [offered, withCapacity]
  | append_singleton offers sample ih =>
    obtain ⟨kept, bound⟩ := ih
    rw [offered, foldl_concat, ← offered, push, bound, kept, length_take]
    refine ⟨?_, by split <;> rfl⟩
    split
    · rename_i full
      exact (take_append_of_le_length (by omega)).symm
    · rename_i free
      have within : offers.length < capacity := by omega
      rw [take_of_length_le within.le, take_of_length_le]
      rw [length_append]
      exact within

end SampleRing

/-- A resolver names an address and may remember what it looked up. -/
abbrev FrameResolver (σ : Type) := UInt64 → StateM σ String

section Resolve

variable {σ : Type}

def ResolvedSample.ofRaw (resolver : FrameResolver σ) (sample : RawSample) :
    StateM σ ResolvedSample := do
  let frames ← sample.stack.mapM resolver
  return { frames, truncated := sample.truncated }

/-- Drains the ring and attaches names. The clock and the request's period are
the caller's. -/
def resolve (resolver : FrameResolver σ) (ring : SampleRing) (startUnixNanos : Int)
    (durationNanos periodNanos : Nat) : StateM σ (SessionResult × SampleRing) := do
  let (raw, ring) := ring.drain
  let samples ← raw.mapM (ResolvedSample.ofRaw resolver)
  return ({ samples, startUnixNanos, durationNanos, periodNanos }, ring)

/-- The names of the frames of stacks, one stack after the other. -/
def namesOf (resolver : FrameResolver σ) (raw : List RawSample) : StateM σ (List (List String)) :=
  raw.mapM fun sample => sample.stack.mapM resolver

/-- Resolution gives every sample its names and keeps its mark. -/
theorem mapM_ofRaw (resolver : FrameResolver σ) (raw : List RawSample) (memory : σ) :
    ((raw.mapM (ResolvedSample.ofRaw resolver)).run memory).1 =
      (raw.zip ((namesOf resolver raw).run memory).1).map fun each =>
        ⟨each.2, each.1.truncated⟩ := by
  induction raw generalizing memory with
  | nil => rfl
  | cons sample raw ih =>
    rw [mapM_cons, namesOf, mapM_cons, ← namesOf]
    exact congrArg₂ cons rfl (ih _)

end Resolve

namespace SessionResult

variable {stack : List String} {count : Nat}

/-- How many samples of a kind have a stack. -/
def countOf (samples : List ResolvedSample) (stack : List String) (truncated : Bool) : Nat :=
  samples.countP fun sample => decide (stackOf sample = stack ∧ sample.truncated = truncated)

/-- A stack is counted once for each sample that has it. -/
theorem counts_getD (samples : List ResolvedSample) (some_ : stack ≠ []) :
    ((counts samples).get? stack).getD 0 =
      samples.countP fun sample => decide (stackOf sample = stack) := by
  induction samples using reverseRecOn with
  | nil => rfl
  | append_singleton samples sample ih =>
    rw [counts_concat, countP_append, ← ih]
    by_cases same : stackOf sample = stack
    · simp [same, some_]
    · split
      · simp [same]
      · simp [same, Ne.symm same]

theorem count_of_folded {result : SessionResult} (member : (stack, count) ∈ result.folded) :
    count = result.samples.countP fun sample => decide (stackOf sample = stack) := by
  have some_ := result.folded_nonempty member
  rw [result.folded_perm.mem_iff, Std.SortedMap.mem_entries_iff] at member
  rw [← counts_getD _ some_, member]
  rfl

/-- No cut stack has the names of a complete one. -/
def MarksApart (samples : List ResolvedSample) : Prop :=
  ∀ first ∈ samples, ∀ second ∈ samples, first.frames ≠ [] →
    first.frames = second.frames → first.truncated = second.truncated

/-- Every row counts samples of one mark exactly if the marks go with the names. -/
theorem folded_apart_iff (result : SessionResult) :
    (∀ row ∈ result.folded, ∃ truncated, row.2 = countOf result.samples row.1 truncated ∧
      countOf result.samples row.1 (!truncated) = 0) ↔ MarksApart result.samples := by
  constructor
  · intro rows first here second there some_ same
    have counted : 0 < result.samples.countP fun sample =>
        decide (stackOf sample = stackOf first) :=
      countP_pos_iff.mpr ⟨first, here, by simp⟩
    have nonempty : stackOf first ≠ [] := by simpa [stackOf] using some_
    rw [← counts_getD _ nonempty] at counted
    obtain ⟨count, found⟩ : ∃ count, (counts result.samples).get? (stackOf first) = some count := by
      cases got : (counts result.samples).get? (stackOf first) with
      | none => simp [got] at counted
      | some count => exact ⟨count, rfl⟩
    have row := result.folded_perm.mem_iff.mpr (Std.SortedMap.mem_entries_iff.mpr found)
    obtain ⟨truncated, -, none⟩ := rows _ row
    have marked {sample : ResolvedSample} (member : sample ∈ result.samples)
        (alike : stackOf sample = stackOf first) : sample.truncated = truncated := by
      by_contra differs
      refine countP_eq_zero.mp none sample member ?_
      simpa [alike] using Bool.eq_not.mpr differs
    rw [marked here rfl, marked there (congrArg reverse same.symm)]
  · rintro apart ⟨stack, count⟩ member
    have some_ := result.folded_nonempty member
    obtain ⟨truncated, uniform⟩ : ∃ truncated, ∀ sample ∈ result.samples,
        stackOf sample = stack → sample.truncated = truncated := by
      by_cases present : ∃ sample ∈ result.samples, stackOf sample = stack
      · obtain ⟨first, known, rfl⟩ := present
        refine ⟨first.truncated, fun second member same => ?_⟩
        refine (apart first known second member ?_ ?_).symm
        · simpa [stackOf] using some_
        · exact reverse_injective same.symm
      · exact ⟨false, fun sample member same => (present ⟨sample, member, same⟩).elim⟩
    refine ⟨truncated, ?_, ?_⟩
    · rw [count_of_folded member]
      refine countP_congr fun sample member => ?_
      simpa using uniform sample member
    · refine countP_eq_zero.mpr fun sample member => ?_
      simpa using uniform sample member

/-- The same samples with other marks. -/
def remarked (result : SessionResult) (mark : ResolvedSample → Bool) : SessionResult :=
  { result with samples := result.samples.map fun sample =>
    { sample with truncated := mark sample } }

theorem remarked_folded (result : SessionResult) (mark : ResolvedSample → Bool) :
    (result.remarked mark).folded = result.folded := by
  have same : counts (result.remarked mark).samples = counts result.samples := foldl_map
  rw [folded, folded, same]

end SessionResult

/-- A session: what its ring is offered and what resolves the samples. -/
structure Recording (σ : Type) where
  resolver : FrameResolver σ
  memory : σ
  capacity : Nat
  offers : List RawSample
  startUnixNanos : Int
  durationNanos : Nat
  periodNanos : Nat

section Recorded

variable {σ : Type} (session : Recording σ)

def Recording.result : SessionResult :=
  ((resolve session.resolver ((SampleRing.withCapacity session.capacity).offered session.offers)
    session.startUnixNanos session.durationNanos session.periodNanos).run session.memory).1.1

/-- The accepted samples with the names that the resolver gives them in turn. -/
def Recording.named : List (RawSample × List String) :=
  (session.offers.take session.capacity).zip
    ((namesOf session.resolver (session.offers.take session.capacity)).run session.memory).1

/-- The names and the mark of every accepted sample reach the result. A row counts samples of
one mark exactly if no cut stack and no complete one are given the same names; and whatever the
marks are, the exports are the same. -/
theorem folded_keeps_truncated_apart :
    session.result.samples = session.named.map (fun each => ⟨each.2, each.1.truncated⟩) ∧
      ((∀ row ∈ session.result.folded, ∃ truncated,
          row.2 = countOf session.result.samples row.1 truncated ∧
          countOf session.result.samples row.1 (!truncated) = 0) ↔
        ∀ first ∈ session.named, ∀ second ∈ session.named, first.2 ≠ [] → first.2 = second.2 →
          first.1.truncated = second.1.truncated) ∧
      ∀ mark, (session.result.remarked mark).toCollapsed = session.result.toCollapsed ∧
        Pprof.build (session.result.remarked mark) = Pprof.build session.result ∧
        Firefox.toFirefoxValue (session.result.remarked mark) =
          Firefox.toFirefoxValue session.result := by
  have samples : session.result.samples =
      session.named.map fun each => ⟨each.2, each.1.truncated⟩ := by
    refine (mapM_ofRaw session.resolver _ session.memory).trans ?_
    rw [(SampleRing.offered_samples session.capacity session.offers).1]
    rfl
  refine ⟨samples, ?_, fun mark => ?_⟩
  · rw [folded_apart_iff, samples]
    simp only [MarksApart, forall_mem_map]
  · have same := session.result.remarked_folded mark
    refine ⟨?_, ?_, ?_⟩
    · rw [toCollapsed, same, toCollapsed]
    · rw [Pprof.build, same, Pprof.build]
      rfl
    · rw [Firefox.toFirefoxValue, same, Firefox.toFirefoxValue]

end Recorded

/-- Names an address by its last digit. -/
def byDigit : FrameResolver Unit :=
  fun address => pure (String.singleton (Nat.digitChar address.toNat))

/-- A cut stack and a complete one with the same address become one row. -/
theorem folded_mixes_truncated :
    let result := Recording.result ⟨byDigit, (), 4, [⟨[1], true⟩, ⟨[1], false⟩], 0, 0, 0⟩
    result.folded = [(["1"], 2)] ∧ countOf result.samples ["1"] true = 1 ∧
      countOf result.samples ["1"] false = 1 := by
  decide +kernel

end KernalApi.Profile
