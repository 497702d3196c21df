import KernalApi.Archive.Path

/-!
# Copying under a byte budget

A decoder is what its reads answer, one after another: some bytes, at most a buffer
full, an interruption or an error. A writer takes all bytes of a call or fails after
some of them.
-/

namespace KernalApi.Archive

def bufferBytes : Nat := 64 * 1024

/-- What one read can deliver. -/
structure Chunk where
  bytes : List UInt8
  present : bytes ≠ []
  fits : bytes.length ≤ bufferBytes

inductive Reading
  | chunk (chunk : Chunk)
  | interrupted
  | failed (kind : IoKind)

/-- What `write_all` does with its bytes. -/
inductive Writing
  | complete
  | partway (count : Nat) (kind : IoKind)

/-- The end of a copy: its error, what is left of the budget, and the bytes the writer has got. -/
structure Copied where
  failure : Option Failure
  remaining : Nat
  output : List UInt8

/-- The copy loop. A writer that has no more answers takes everything. -/
def copyBounded : List Reading → List Writing → Nat → List UInt8 → Copied
  | [], _, remaining, output => ⟨none, remaining, output⟩
  | .interrupted :: reads, writes, remaining, output => copyBounded reads writes remaining output
  | .failed kind :: _, _, remaining, output => ⟨some (.io kind), remaining, output⟩
  | .chunk chunk :: reads, writes, remaining, output =>
    -- a read is asked for one byte more than may be written; 2 ^ 64 - 1 is where the sum saturates
    let capacity := min (min (remaining + 1) (2 ^ 64 - 1)) bufferBytes
    let delivered := chunk.bytes.take capacity
    if remaining < delivered.length then
      ⟨some (.invalid "archive output exceeds byte limit"), remaining, output⟩
    else
      match writes with
      | .partway count kind :: _ => ⟨some (.io kind), remaining, output ++ delivered.take count⟩
      | .complete :: writes =>
        copyBounded reads writes (remaining - delivered.length) (output ++ delivered)
      | [] => copyBounded reads [] (remaining - delivered.length) (output ++ delivered)

/-- A copy under the smaller of the budget and the limit of one entry. -/
def copyEntryBounded (reads : List Reading) (writes : List Writing)
    (remaining maxEntryBytes : Nat) : Copied :=
  let before := min remaining maxEntryBytes
  let copied := copyBounded reads writes before []
  { copied with remaining := remaining - (before - copied.remaining) }

/-- What a copy did with a budget: `counted` bytes are taken from it, `uncounted` ones are not. -/
structure Copied.Accounts (copied : Copied) (writes : List Writing) (budget : Nat)
    (counted uncounted : List UInt8) : Prop where
  output : copied.output = counted ++ uncounted
  balance : counted.length + copied.remaining = budget
  within : uncounted.length ≤ copied.remaining
  stopped : uncounted ≠ [] → ∃ count kind, Writing.partway count kind ∈ writes ∧
    copied.failure = some (.io kind)

theorem copyBounded_accounts (reads : List Reading) (writes : List Writing) (remaining : Nat)
    (output : List UInt8) :
    ∃ counted uncounted, (copyBounded reads writes remaining output).Accounts writes
      (output.length + remaining) counted uncounted := by
  induction reads generalizing writes remaining output with
  | nil => exact ⟨output, [], by simp [copyBounded], rfl, Nat.zero_le _, by simp⟩
  | cons reading reads ih =>
    cases reading with
    | interrupted => exact ih writes remaining output
    | failed => exact ⟨output, [], by simp [copyBounded], rfl, Nat.zero_le _, by simp⟩
    | chunk chunk =>
      simp only [copyBounded]
      split
      · exact ⟨output, [], by simp, rfl, Nat.zero_le _, by simp⟩
      rename_i allowed
      generalize chunk.bytes.take (min (min (remaining + 1) (2 ^ 64 - 1)) bufferBytes) =
        delivered at allowed ⊢
      have enough := Nat.le_of_not_lt allowed
      have budget : (output ++ delivered).length + (remaining - delivered.length) =
          output.length + remaining := by
        rw [List.length_append]
        omega
      -- the writer's answer: everything, or only a part
      split
      · rename_i count kind later
        refine ⟨output, delivered.take count, rfl, rfl, ?_,
          fun _ => ⟨count, kind, List.mem_cons_self, rfl⟩⟩
        exact (List.length_take_le' count delivered).trans enough
      · rename_i later
        obtain ⟨counted, uncounted, accounts⟩ :=
          ih later (remaining - delivered.length) (output ++ delivered)
        rw [budget] at accounts
        refine ⟨counted, uncounted, accounts.output, accounts.balance, accounts.within,
          fun some => ?_⟩
        obtain ⟨count, kind, member, failed⟩ := accounts.stopped some
        exact ⟨count, kind, List.mem_cons_of_mem _ member, failed⟩
      · have rest := ih [] (remaining - delivered.length) (output ++ delivered)
        rwa [budget] at rest

theorem copyEntryBounded_accounts (reads : List Reading) (writes : List Writing)
    (remaining maxEntryBytes : Nat) :
    ∃ counted uncounted, (copyEntryBounded reads writes remaining maxEntryBytes).Accounts writes
      remaining
      counted uncounted ∧ (counted ++ uncounted).length ≤ min remaining maxEntryBytes := by
  obtain ⟨counted, uncounted, accounts⟩ :=
    copyBounded_accounts reads writes (min remaining maxEntryBytes) []
  have balance := accounts.balance
  have within := accounts.within
  simp only [List.length_nil] at balance
  refine ⟨counted, uncounted, ⟨accounts.output, ?_, ?_, accounts.stopped⟩, ?_⟩
  · simp only [copyEntryBounded]
    omega
  · simp only [copyEntryBounded]
    omega
  · rw [List.length_append]
    omega

end KernalApi.Archive
