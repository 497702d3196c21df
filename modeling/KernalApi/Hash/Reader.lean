import Mathlib

/-!
# Bounded hashing of a stream

The readers of BLAKE3 and of SHA-256 share their loop: fill at most one byte more
than the limit still allows, stop at the end, refuse what exceeds the limit. They
differ in what an interrupted read does. The digests are parameters, as functions
of all the bytes a hasher was given.
-/

namespace KernalApi.Hash.Stream

/-- A reader: what it has not delivered yet, and how its next reads go. `none` is an
interrupted read, `some more` one that delivers at most `more + 1` bytes; after the
plan every read delivers what fits. -/
structure Reader where
  content : List UInt8
  plan : List (Option Nat)

inductive Failure where
  | read
  | sizeLimitExceeded (maximumBytes : Nat)
deriving DecidableEq

/-- One `read` into a buffer; `none` for `ErrorKind::Interrupted`. -/
def Reader.read (reader : Reader) (capacity : Nat) : Option (List UInt8) × Reader :=
  match reader.plan with
  | [] => (reader.content.take capacity, ⟨reader.content.drop capacity, []⟩)
  | none :: plan => (none, ⟨reader.content, plan⟩)
  | some more :: plan =>
    (reader.content.take (min (more + 1) capacity),
      ⟨reader.content.drop (min (more + 1) capacity), plan⟩)

def readBufferLength : Nat := 64 * 1024

/-- How a reader asks for bytes after `hashed` of them, and whether it repeats an
interrupted read. -/
structure Policy where
  limit : Option Nat
  capacity (hashed : Nat) : Nat
  retries : Bool

def Policy.exceeds (policy : Policy) (hashed count : Nat) : Option Nat :=
  policy.limit.filter fun maximum => maximum - hashed < count

variable {δ : Type} (digest : List UInt8 → δ)

/-- The loop, with the bytes hashed so far; `fuel` bounds the number of reads. -/
def Policy.hash (policy : Policy) : Nat → List UInt8 → Reader → Except Failure δ × Reader
  | 0, _, reader => (.error .read, reader)
  | fuel + 1, hashed, reader =>
    match reader.read (policy.capacity hashed.length) with
    | (none, reader) =>
      if policy.retries then policy.hash fuel hashed reader else (.error .read, reader)
    | (some bytes, reader) =>
      if bytes = [] then (.ok (digest hashed), reader)
      else match policy.exceeds hashed.length bytes.length with
        | some maximum => (.error (.sizeLimitExceeded maximum), reader)
        | none => policy.hash fuel (hashed ++ bytes) reader

def nextReadLength (maximumBytes : Option Nat) (bytesHashed : Nat) : Nat :=
  maximumBytes.elim readBufferLength fun maximum =>
    min (maximum - bytesHashed) (readBufferLength - 1) + 1

/-- Every read consumes a step of the plan, a byte, or finds the end. -/
def Reader.reads (reader : Reader) : Nat := reader.content.length + reader.plan.length + 1

def blake3Policy (maximumBytes : Option Nat) : Policy :=
  ⟨maximumBytes, nextReadLength maximumBytes, false⟩

/-- What is left of `max_bytes` is what has not been hashed. -/
def sha256Policy (maxBytes : Nat) : Policy :=
  ⟨maxBytes, fun hashed => min (min (maxBytes - hashed + 1) (2 ^ 64 - 1)) readBufferLength, true⟩

def blake3Reader (reader : Reader) (maximumBytes : Option Nat) : Except Failure δ × Reader :=
  (blake3Policy maximumBytes).hash digest reader.reads [] reader

def sha256Reader (reader : Reader) (maxBytes : Nat) : Except Failure δ × Reader :=
  (sha256Policy maxBytes).hash digest reader.reads [] reader

/-- `blake3_file_memory_mapped`; `mapped` is the operating system's answer. -/
def blake3FileMemoryMapped (content : List UInt8) (mapped : Bool) (maximumBytes : Option Nat) :
    Except Failure (Option δ) :=
  if content.length = 0 then .ok none
  else match maximumBytes.filter (· < content.length) with
    | some maximum => .error (.sizeLimitExceeded maximum)
    | none => .ok (if mapped then some (digest content) else none)

def blake3File (file : Reader) (memoryMap mapped : Bool) (maximumBytes : Option Nat) :
    Except Failure δ :=
  match if memoryMap then blake3FileMemoryMapped digest file.content mapped maximumBytes
    else .ok none with
  | .error failure => .error failure
  | .ok (some digest) => .ok digest
  | .ok none => (blake3Reader digest file maximumBytes).1

/-- What a bounded hash of `content` is to return. -/
def bounded (limit : Option Nat) (content : List UInt8) : Except Failure δ :=
  match limit.filter (· < content.length) with
  | some maximum => .error (.sizeLimitExceeded maximum)
  | none => .ok (digest content)

variable {policy : Policy}

/-- Every request leaves room for one byte more than the limit, and for no other. -/
structure Policy.Sound (policy : Policy) : Prop where
  positive : ∀ hashed, 0 < policy.capacity hashed
  capped : ∀ maximum ∈ policy.limit, ∀ hashed, policy.capacity hashed ≤ maximum - hashed + 1

/-- A read is interrupted and changes nothing but the plan, or delivers the next bytes. -/
theorem Reader.read_cases (reader : Reader) {capacity : Nat} (positive : 0 < capacity) :
    (∃ later, reader.read capacity = (none, later) ∧ later.content = reader.content ∧
        reader.plan = none :: later.plan) ∨
      ∃ bytes later step, reader.read capacity = (some bytes, later) ∧
        reader.content = bytes ++ later.content ∧ bytes.length ≤ capacity ∧
        (bytes = [] → reader.content = []) ∧ reader.plan = step ++ later.plan ∧ none ∉ step := by
  obtain ⟨content, plan⟩ := reader
  have delivered (count : Nat) (some_ : 0 < count) : content.take count = [] → content = [] := by
    simp [Nat.ne_of_gt some_]
  match plan with
  | [] =>
    exact .inr ⟨_, _, [], rfl, by simp, List.length_take_le _ _, delivered _ positive, rfl, by simp⟩
  | none :: plan => exact .inl ⟨_, rfl, rfl, rfl⟩
  | some more :: plan =>
    exact .inr ⟨_, _, [some more], rfl, by simp,
      Nat.le_trans (List.length_take_le _ _) (Nat.min_le_right _ _), delivered _ (by omega), rfl,
      by simp⟩

/-- The loop reads at most one byte more than the limit, and returns the bounded digest of
everything, unless one of the reads it makes is interrupted and not repeated. -/
theorem Policy.hash_exact (sound : policy.Sound) {fuel : Nat} {hashed : List UInt8}
    {reader : Reader}
    (enough : reader.reads ≤ fuel) (within : ∀ maximum ∈ policy.limit, hashed.length ≤ maximum) :
    (∀ maximum ∈ policy.limit, (hashed ++ reader.content).length ≤
        maximum + 1 + (policy.hash digest fuel hashed reader).2.content.length) ∧
      ∃ made, reader.plan = made ++ (policy.hash digest fuel hashed reader).2.plan ∧
        (policy.hash digest fuel hashed reader).1 =
          if policy.retries = false ∧ none ∈ made then .error .read
          else bounded digest policy.limit (hashed ++ reader.content) := by
  -- The induction is on the reads that are left; the bytes hashed and the bytes to come
  -- are together the whole content throughout.
  induction fuel generalizing hashed reader with
  | zero => simp [Reader.reads] at enough
  | succ fuel ih =>
    unfold hash
    obtain ⟨later, read, same, planned⟩ | ⟨bytes, later, step, read, split, small, ended, planned,
      calm⟩ :=
      reader.read_cases (sound.positive hashed.length)
    · simp only [read, planned, ← same]
      cases retries : policy.retries with
      | false =>
        refine ⟨fun maximum limited => ?_, [none], rfl, by simp⟩
        have := within maximum limited
        simp only [List.length_append, Bool.false_eq_true, if_false]
        omega
      | true =>
        have enough : later.reads ≤ fuel := by
          simp only [Reader.reads, planned, List.length_cons, same] at enough ⊢
          omega
        obtain ⟨bounds, made, left, result⟩ := ih enough within
        refine ⟨bounds, none :: made, congrArg _ left, ?_⟩
        simpa [retries] using result
    · simp only [read]
      by_cases empty : bytes = []
      · simp only [if_pos empty]
        have nothing := ended empty
        rw [nothing, List.append_nil, bounded, Option.filter_eq_none_iff.mpr]
        · refine ⟨fun maximum limited => ?_, step, planned, by simp [calm]⟩
          have := within maximum limited
          omega
        · simpa using within
      · rw [if_neg empty]
        have positive := List.length_pos_iff.mpr empty
        have enough : later.reads ≤ fuel := by
          simp only [Reader.reads, planned, split, List.length_append] at enough ⊢
          omega
        rw [split, ← List.append_assoc]
        cases beyond : policy.exceeds hashed.length bytes.length with
        | some maximum =>
          obtain ⟨limited, more⟩ := Option.filter_eq_some_iff.mp beyond
          have capped := sound.capped maximum limited hashed.length
          have := within maximum limited
          simp only [decide_eq_true_eq] at more
          simp only [bounded, limited, Option.filter]
          refine ⟨?_, step, planned, ?_⟩
          · simp
            omega
          · rw [if_neg fun met => calm met.2, if_pos (by simp; omega)]
        | none =>
          have fits : ∀ maximum ∈ policy.limit, (hashed ++ bytes).length ≤ maximum := by
            intro maximum limited
            have := Option.filter_eq_none_iff.mp beyond maximum limited
            simp only [decide_eq_true_eq] at this
            rw [List.length_append]
            omega
          obtain ⟨bounds, made, left, result⟩ := ih enough fits
          refine ⟨bounds, step ++ made, by rw [planned, left, List.append_assoc], ?_⟩
          simpa [calm] using result

theorem blake3Policy_sound (limit : Option Nat) : (blake3Policy limit).Sound where
  positive hashed := by cases limit <;> simp [blake3Policy, nextReadLength, readBufferLength]
  capped := by
    rintro maximum ⟨⟩ hashed
    simp only [blake3Policy, nextReadLength, Option.elim_some]
    omega

theorem sha256Policy_sound (maximum : Nat) : (sha256Policy maximum).Sound where
  positive hashed := by simp [sha256Policy, readBufferLength]
  capped := by
    rintro _ ⟨⟩ hashed
    simp only [sha256Policy]
    omega

theorem bounded_ne_read (limit : Option Nat) (content : List UInt8) :
    bounded digest limit content ≠ .error .read := by
  unfold bounded
  split <;> simp

end KernalApi.Hash.Stream
