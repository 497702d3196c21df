import KernalApi.Std.Fallible
import KernalApi.Std.LittleEndian

/-!
# Writers, readers and when they agree

A writer appends to the bytes written so far, a reader consumes the front of
its input, and both may fail. `Codec` relates the two on the values a reader can
return: what the writer appends is read back, and what the reader consumes is
exactly what the writer would have appended. The rules below build the codec of
a record field by field, along the code of its writer and its reader.
-/

namespace KernalApi.Std

open List

variable {σ : Type}

/-- A computation that appends to the bytes written so far. -/
abbrev Put (ε α : Type) := StateT (List UInt8) (Except ε) α

/-- A computation that consumes the front of its input. -/
abbrev Take (ε α : Type) := StateT (List UInt8) (Except ε) α

variable {ε α β ρ : Type}

/-- Append fixed bytes. -/
def putBytes (bytes : List UInt8) : Put ε Unit := fun out => .ok ((), out ++ bytes)

/-- Consume a number of bytes, or fail when there are fewer. -/
def takeBytes (short : ε) (count : Nat) : Take ε (List UInt8) := fun input =>
  if input.length < count then .error short else .ok (input.take count, input.drop count)

/-- Consume all that is left. -/
def takeRest : Take ε (List UInt8) := fun input => .ok (input, [])

/-- The writer succeeds and appends the bytes. -/
def Emits (write : Put ε Unit) (bytes : List UInt8) : Prop :=
  ∀ out, write out = .ok ((), out ++ bytes)

/-- The writer and the reader agree on the accepted values, as long as what
follows them in the input is as described. -/
structure Codec (follows : List UInt8 → Prop) (accepts : α → Prop) (put : α → Put ε Unit)
    (take : Take ε α) : Prop where
  forth : ∀ {value out out'}, accepts value → put value out = .ok ((), out') →
    ∃ bytes, out' = out ++ bytes ∧ ∀ rest, follows rest → take (bytes ++ rest) = .ok (value, rest)
  back : ∀ {input value rest}, follows rest → take input = .ok (value, rest) →
    accepts value ∧ ∃ bytes, input = bytes ++ rest ∧ Emits (put value) bytes

theorem emits_putBytes (bytes : List UInt8) : Emits (putBytes bytes : Put ε Unit) bytes :=
  fun _ => rfl

/-- A sequence of two stateful steps succeeds when both do. -/
theorem stateT_bind_ok {first : StateT σ (Except ε) α} {second : α → StateT σ (Except ε) β}
    {before after : σ} {result : β} :
    (first >>= second) before = .ok (result, after) ↔
      ∃ value middle, first before = .ok (value, middle) ∧
        second value middle = .ok (result, after) :=
  Fallible.bind_ok_iff.trans Prod.exists

/-- A fallible value without state. -/
theorem liftM_ok {result : Except ε α} {before after : σ} {value : α} :
    (liftM result : StateT σ (Except ε) α) before = .ok (value, after) ↔
      result = .ok value ∧ before = after := by
  cases result with
  | error error =>
    constructor
    · intro ran
      cases ran
    · rintro ⟨failed, _⟩
      cases failed
  | ok found =>
    constructor
    · intro ran
      cases ran
      exact ⟨rfl, rfl⟩
    · rintro ⟨same, rfl⟩
      cases same
      rfl

/-- Writers in sequence emit their bytes in sequence. -/
theorem Emits.seq {first second : Put ε Unit} {front back : List UInt8} (head : Emits first front)
    (tail : Emits second back) : Emits (do first; second) (front ++ back) := by
  intro out
  rw [← append_assoc]
  exact stateT_bind_ok.mpr ⟨(), _, head out, tail _⟩

namespace Codec

variable {follows : List UInt8 → Prop} {accepts : ρ → Prop} {put : ρ → Put ε Unit} {take : Take ε ρ}

/-- What an accepted value emits is read back. -/
theorem reads (codec : Codec follows accepts put take) (value : ρ) {bytes rest : List UInt8}
    (accepted : accepts value) (emits : Emits (put value) bytes) (following : follows rest) :
    take (bytes ++ rest) = .ok (value, rest) := by
  obtain ⟨_, split, taken⟩ := codec.forth accepted (emits [])
  rw [nil_append] at split
  rw [split]
  exact taken rest following

/-- All fields are known; nothing is written and nothing is read. -/
theorem done {value : ρ} (only : ∀ record, accepts record ↔ record = value) :
    Codec follows accepts (fun _ => (pure () : Put ε Unit)) (pure value) := by
  constructor
  · intro record out out' accepted written
    cases (only record).mp accepted
    cases written
    exact ⟨[], (append_nil _).symm, fun rest _ => rfl⟩
  · intro input record rest _ read
    cases read
    refine ⟨(only value).mpr rfl, [], rfl, ?_⟩
    intro out
    rw [append_nil]
    rfl

section Fields

variable (project : ρ → α) {fieldAccepts : α → Prop} {putField : α → Put ε Unit}
  {takeField : Take ε α} {takeOthers : α → Take ε ρ}
  (head : Codec (fun _ => True) fieldAccepts putField takeField)

include head

/-- One field, then the rest of the record. -/
theorem field {putOthers : ρ → Put ε Unit}
    (tail : ∀ value, fieldAccepts value →
      Codec follows (fun record => accepts record ∧ project record = value) putOthers
        (takeOthers value))
    (implied : ∀ record, accepts record → fieldAccepts
      (project record) := by exact fun _ _ => trivial) :
    Codec follows accepts (fun record => do putField (project record); putOthers record)
      (do let value ← takeField; takeOthers value) := by
  constructor
  · intro record out out' accepted written
    obtain ⟨_, middle, headWritten, tailWritten⟩ := stateT_bind_ok.mp written
    obtain ⟨first, rfl, headReads⟩ := head.forth (implied record accepted) headWritten
    obtain ⟨second, rfl, tailReads⟩ :=
      (tail _ (implied record accepted)).forth ⟨accepted, rfl⟩ tailWritten
    refine ⟨first ++ second, append_assoc _ _ _, ?_⟩
    intro rest following
    rw [append_assoc]
    exact stateT_bind_ok.mpr ⟨_, _, headReads _ trivial, tailReads rest following⟩
  · intro input record rest following read
    obtain ⟨value, middle, headRead, tailRead⟩ := stateT_bind_ok.mp read
    obtain ⟨fieldAccepted, first, rfl, headEmits⟩ := head.back trivial headRead
    obtain ⟨⟨accepted, rfl⟩, second, rfl, tailEmits⟩ :=
      (tail value fieldAccepted).back following tailRead
    exact ⟨accepted, first ++ second, (append_assoc _ _ _).symm, headEmits.seq tailEmits⟩

/-- The last field of a record. -/
theorem lastField
    (tail : ∀ value, fieldAccepts value →
      Codec follows (fun record => accepts record ∧ project record = value) (fun _ => pure ())
        (takeOthers value))
    (implied : ∀ record, accepts record → fieldAccepts
      (project record) := by exact fun _ _ => trivial) :
    Codec follows accepts (fun record => putField (project record))
      (do let value ← takeField; takeOthers value) := by
  have sequenced := field project head tail implied
  simp only [bind_pure_unit] at sequenced
  exact sequenced

end Fields

/-- The writer tests the record first. -/
theorem demand {refused : ρ → Prop} [DecidablePred refused] {error : ε}
    (codec : Codec follows (fun record => accepts record ∧ ¬ refused record) put take) :
    Codec follows accepts
      (fun record => if refused record then throw error else put record) take := by
  constructor
  · intro record out out' accepted written
    by_cases refusal : refused record
    · rw [if_pos refusal] at written
      cases written
    · rw [if_neg refusal] at written
      exact codec.forth ⟨accepted, refusal⟩ written
  · intro input record rest following read
    obtain ⟨⟨accepted, admitted⟩, bytes, split, emits⟩ := codec.back following read
    refine ⟨accepted, bytes, split, ?_⟩
    rw [if_neg admitted]
    exact emits

/-- The reader tests what it has read so far. -/
theorem refuse {refused : Prop} [Decidable refused] {error : ε}
    (codec : ¬ refused → Codec follows accepts put take)
    (implied : ∀ record, accepts record → ¬ refused) :
    Codec follows accepts put (if refused then throw error else take) := by
  by_cases refusal : refused
  · rw [if_pos refusal]
    exact ⟨fun accepted _ => absurd refusal (implied _ accepted), fun _ read => nomatch read⟩
  · rw [if_neg refusal]
    exact codec refusal

/-- The writer runs a test that may fail. -/
theorem assure {check : ρ → Except ε Unit}
    (codec : Codec follows (fun record => accepts record ∧ check record = .ok ()) put take) :
    Codec follows accepts (fun record => do liftM (check record); put record) take := by
  constructor
  · intro record out out' accepted written
    obtain ⟨_, middle, checked, rest⟩ := stateT_bind_ok.mp written
    obtain ⟨passed, rfl⟩ := liftM_ok.mp checked
    exact codec.forth ⟨accepted, passed⟩ rest
  · intro input record rest following read
    obtain ⟨⟨accepted, passed⟩, bytes, split, emits⟩ := codec.back following read
    refine ⟨accepted, bytes, split, ?_⟩
    intro out
    exact stateT_bind_ok.mpr ⟨(), out, liftM_ok.mpr ⟨passed, rfl⟩, emits out⟩

/-- The reader runs a test that may fail. -/
theorem verify {check : Except ε Unit} (codec : check = .ok () → Codec follows accepts put take)
    (implied : ∀ record, accepts record → check = .ok ()) :
    Codec follows accepts put (do liftM check; take) := by
  cases check with
  | error => exact ⟨fun accepted _ => (nomatch implied _ accepted), fun _ read => nomatch read⟩
  | ok => exact codec rfl

/-- The reader parses a raw value, the writer writes the raw form. -/
theorem parsed {raw : ρ → Prop} {unparse : β → ρ} {parse : ρ → Except ε β} {described : β → Prop}
    (codec : Codec follows raw put take)
    (reads : ∀ value, described value → raw (unparse value) ∧ parse (unparse value) = .ok value)
    (writes : ∀ value form, raw form → parse form = .ok value →
      described value ∧ unparse value = form) :
    Codec follows described (fun value => put (unparse value))
      (do let form ← take; liftM (parse form)) := by
  constructor
  · intro value out out' accepted written
    obtain ⟨fits, parses⟩ := reads value accepted
    obtain ⟨bytes, split, taken⟩ := codec.forth fits written
    refine ⟨bytes, split, ?_⟩
    intro rest following
    exact stateT_bind_ok.mpr ⟨_, _, taken rest following, liftM_ok.mpr ⟨parses, rfl⟩⟩
  · intro input value rest following read
    obtain ⟨form, middle, taken, parsed⟩ := stateT_bind_ok.mp read
    obtain ⟨parses, rfl⟩ := liftM_ok.mp parsed
    obtain ⟨fits, bytes, split, emits⟩ := codec.back following taken
    obtain ⟨accepted, rfl⟩ := writes value form fits parses
    exact ⟨accepted, bytes, split, emits⟩

/-- A record whose fields are written and read as another value. -/
theorem view {inner : σ → Prop} {putInner : σ → Put ε Unit} {takeInner : Take ε σ}
    (build : σ → ρ) (codec : Codec follows inner putInner takeInner)
    (accepted : ∀ record, accepts record ↔ ∃ fields, inner fields ∧ record = build fields)
    (writes : ∀ fields, put (build fields) = putInner fields)
    (reads : take = do let fields ← takeInner; pure (build fields)) :
    Codec follows accepts put take := by
  subst reads
  constructor
  · intro record out out' described written
    obtain ⟨fields, held, rfl⟩ := (accepted record).mp described
    rw [writes] at written
    obtain ⟨bytes, split, taken⟩ := codec.forth held written
    refine ⟨bytes, split, ?_⟩
    intro rest following
    exact stateT_bind_ok.mpr ⟨fields, rest, taken rest following, rfl⟩
  · intro input record rest following read
    obtain ⟨fields, middle, taken, ended⟩ := stateT_bind_ok.mp read
    cases ended
    obtain ⟨held, bytes, split, emits⟩ := codec.back following taken
    refine ⟨(accepted _).mpr ⟨fields, held, rfl⟩, bytes, split, ?_⟩
    rw [writes]
    exact emits

/-- An optional value behind its length, which is zero for an absent one. The
writer may refuse a value. -/
theorem optional [DecidableEq α] {zero : α} {length : β → α} {refused : β → Prop}
    [DecidablePred refused] {error : ε} {putLength : α → Put ε Unit} {takeLength : Take ε α}
    {putValue : β → Put ε Unit} {takeValue : α → Take ε β}
    (head : Codec (fun _ => True) (fun _ => True) putLength takeLength)
    (nonzero : ∀ value, ¬ refused value → length value ≠ zero)
    (tail : ∀ size, size ≠ zero →
      Codec follows (fun value => ¬ refused value ∧ length value = size) putValue
        (takeValue size)) :
    Codec follows (fun _ => True)
      (fun option => option.elim (putLength zero) fun value =>
        if refused value then throw error
        else do
          putLength (length value)
          putValue value)
      (do
        let size ← takeLength
        if size = zero then pure none
        else do
          let value ← takeValue size
          pure (some value)) := by
  classical
  have fields : Codec follows (fun option : Option β => True ∧ ¬ option.elim False refused)
      (fun option => do putLength (option.elim zero length); option.elim (pure ()) putValue)
      (do
        let size ← takeLength
        if size = zero then pure none
        else do
          let value ← takeValue size
          pure (some value)) := by
    refine .field _ head fun size _ => ?_
    by_cases absent : size = zero
    · rw [if_pos absent]
      refine .view (fun _ => none) (@done _ Unit _ _ () fun _ => .rfl) (fun option => ?_)
        (fun _ => rfl) rfl
      cases option with
      | none => simp [absent]
      | some value => simpa [absent] using nonzero value
    · rw [if_neg absent]
      refine .view some (tail size absent) (fun option => ?_) (fun _ => rfl) rfl
      cases option with
      | none => simpa using Ne.symm absent
      | some => simp
  convert @demand _ _ _ _ _ _ _ _ error fields using 2 with option
  cases option with
  | none => simp
  | some => simp only [Option.elim_some]; congr

/-- The accepted values may be described in another way. -/
theorem describe {described : ρ → Prop} (same : ∀ record, described record ↔ accepts record)
    (codec : Codec follows accepts put take) : Codec follows described put take := by
  obtain rfl : described = accepts := funext fun record => propext (same record)
  exact codec

/-- Everything that is left. -/
theorem remainder :
    Codec (· = []) (fun _ => True) (fun bytes => (putBytes bytes : Put ε Unit)) takeRest := by
  constructor
  · intro bytes out out' _ written
    cases written
    refine ⟨bytes, rfl, ?_⟩
    rintro rest rfl
    rw [append_nil]
    rfl
  · rintro input bytes rest rfl read
    cases read
    exact ⟨trivial, input, (append_nil input).symm, emits_putBytes input⟩

/-- A known number of bytes. -/
theorem exactly (short : ε) (count : Nat) :
    Codec follows (fun bytes => bytes.length = count) (fun bytes => (putBytes bytes : Put ε Unit))
      (takeBytes short count) := by
  constructor
  · intro bytes out out' counted written
    cases written
    refine ⟨bytes, rfl, ?_⟩
    intro rest _
    have enough : ¬ (bytes ++ rest).length < count := by simp [← counted]
    unfold takeBytes
    rw [if_neg enough, ← counted, take_left, drop_left]
  · intro input bytes rest _ read
    unfold takeBytes at read
    split_ifs at read
    cases read
    refine ⟨?_, input.take count, (take_append_drop count input).symm, emits_putBytes _⟩
    rw [length_take]
    omega

/-- A word of a fixed width. -/
theorem word {width : Nat} {toNat : α → Nat} {ofNat : Nat → α} {get : List UInt8 → Except ε α}
    (short : ε) (fits : ∀ value, toNat value < 256 ^ width)
    (ofNat_toNat : ∀ value, ofNat (toNat value) = value)
    (toNat_ofNat : ∀ number, number < 256 ^ width → toNat (ofNat number) = number)
    (get_eq : ∀ bytes, bytes.length = width → get bytes = .ok (ofNat (leValue bytes))) :
    Codec follows (fun _ => True) (fun value =>
      (putBytes (leBytes width (toNat value)) : Put ε Unit))
      (do let bytes ← takeBytes short width; liftM (get bytes)) := by
  refine .parsed (exactly short width) ?_ ?_
  · intro value _
    have counted := length_leBytes width (toNat value)
    rw [get_eq _ counted, leValue_leBytes (fits value), ofNat_toNat]
    exact ⟨counted, rfl⟩
  · intro value bytes counted gotten
    have small : leValue bytes < 256 ^ width := counted ▸ leValue_lt bytes
    rw [get_eq bytes counted] at gotten
    cases gotten
    rw [toNat_ofNat _ small, ← counted, leBytes_leValue]
    exact ⟨trivial, rfl⟩

end Codec

end KernalApi.Std
