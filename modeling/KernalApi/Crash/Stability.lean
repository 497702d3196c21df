import KernalApi.Crash.Shared
import KernalApi.Semantics.Interleaving

/-!
# A crash while records are published

One crash handler runs among any number of publishers. The handler loads the
active index once and then reads and stamps that buffer. As long as no publisher
loads the index again after it has moved away from the handler's buffer, nobody
writes to that buffer, and what is emitted is one published snapshot with the
crash's own fields.
-/

namespace KernalApi.Crash

open Semantics List Shared

/-- Where the handler stands in `handle_crash`. -/
inductive Handler
  | armed
  | entered
  | reading
  | holding (index : Fin 2)
  | stamped (index : Fin 2)
  | written (index : Fin 2)
  | leaving
  | returned
  deriving DecidableEq

/-- The buffer whose index the handler has loaded and not yet let go. -/
def Handler.holds : Handler → Option (Fin 2)
  | holding index | stamped index | written index => some index
  | armed | entered | reading | leaving | returned => none

/-- The identity and the sample of a template. -/
structure Snapshot where
  metadata : CrashMetadata
  sample : Option Sample

def Snapshot.record (snapshot : Snapshot) (processId : UInt32) : List UInt8 :=
  Crash.snapshot processId snapshot.metadata snapshot.sample

/-- The shared record with the handler and what it has written to the sink.
`current` and `published` are read by nobody: the snapshot the template holds,
and the snapshots whose publication is complete. -/
structure Situation where
  shared : Shared
  handler : Handler
  emitted : Option (List UInt8)
  current : Snapshot
  published : List Snapshot

/-- What a publisher's next step makes of the template's snapshot. -/
def Publisher.stamps (publisher : Publisher) (current : Snapshot) : Snapshot :=
  match publisher with
  | .stampMetadata _ metadata => { current with metadata := metadata }
  | .stampSample sample => { current with sample := some sample }
  | _ => current

/-- Whether a publisher's next step completes its publication. -/
def Publisher.publishes : Publisher → Bool
  | .storeActive _ => true
  | _ => false

section Machine

variable (processId : UInt32) (unixMs : UInt64) (fields : CrashFields)

/-- The next step of the handler in its own process. -/
def Handler.step (handler : Handler) (shared : Shared) :
    Option (Handler × Shared × Option (List UInt8)) :=
  match handler with
  | .armed =>
    if shared.inHandler then some (.returned, shared, none)
    else some (.entered, { shared with inHandler := true }, none)
  | .entered => some (.reading, { shared with reading := true }, none)
  | .reading => some (.holding shared.active, shared, none)
  | .holding index =>
    some (.stamped index, shared.setBuffer index (putCrash (shared.buffers index) unixMs fields),
      none)
  | .stamped index => some (.written index, shared, some (shared.buffers index))
  | .written _ => some (.leaving, { shared with reading := false }, none)
  | .leaving => some (.returned, { shared with inHandler := false }, none)
  | .returned => none

/-- A step of a publisher, with what it publishes kept on record. -/
inductive Publisher.Moves : Publisher → Situation → Publisher → Situation → Prop
  | step {publisher publisher' : Publisher} {situation : Situation} {shared' : Shared}
      (taken : publisher.step situation.shared = some (publisher', shared')) :
      Moves publisher situation publisher' { situation with
        shared := shared'
        current := publisher.stamps situation.current
        published := if publisher.publishes then situation.current :: situation.published
          else situation.published }

/-- A step of the handler. -/
inductive Handler.Moves : Situation → Situation → Prop
  | step {situation : Situation} {handler' : Handler} {shared' : Shared}
      {sink : Option (List UInt8)}
      (taken : situation.handler.step unixMs fields situation.shared =
        some (handler', shared', sink)) :
      Moves situation { situation with
        shared := shared'
        handler := handler'
        emitted := sink.or situation.emitted }

/-- One handler among publishers, on a record that was just armed. -/
def crashMachine : Machine Situation Publisher Unit where
  Initial := fun situation => ∃ metadata, situation =
    { shared := Shared.new (initializeRecord processId metadata), handler := .armed, emitted := none
      current := ⟨metadata, none⟩, published := [⟨metadata, none⟩] }
  Entry := fun publisher => (∃ generation metadata, publisher = .setMetadata generation metadata) ∨
    ∃ sample, publisher = .beforeCapture sample
  Step := fun publisher _ situation publisher' situation' launched =>
    launched = none ∧ Publisher.Moves publisher situation publisher' situation'
  Drift := Handler.Moves unixMs fields

end Machine

/-- While the handler has a buffer, no publisher loads another index. -/
def Steady (publisher : Publisher) (_ : Unit) (situation : Situation) : Prop :=
  ∀ {generation index}, publisher = .loadActive generation → situation.handler.holds = some index →
    situation.shared.active = index

/-- A buffer holds a snapshot that was published whole. -/
def Situation.Whole (processId : UInt32) (situation : Situation) (record : List UInt8) : Prop :=
  ∃ snapshot ∈ situation.published, record = snapshot.record processId

/-- A record is a published snapshot with the crash's own fields. -/
def Situation.Crashed (processId : UInt32) (unixMs : UInt64) (fields : CrashFields)
    (situation : Situation) (record : List UInt8) : Prop :=
  ∃ snapshot ∈ situation.published, record = putCrash (snapshot.record processId) unixMs fields

/-! ## What holds in every run -/

/-- Whether the handler has yet to load the index. -/
def Handler.waits : Handler → Bool
  | armed | entered | reading => true
  | holding _ | stamped _ | written _ | leaving | returned => false

/-- The template holds the current snapshot, and the buffer a crash would emit
or is emitting holds a published one. -/
structure Situation.Sound (processId : UInt32) (unixMs : UInt64) (fields : CrashFields)
    (situation : Situation) : Prop where
  template : situation.shared.template = situation.current.record processId
  sized : ∀ index, (situation.shared.buffers index).length = recordSize
  fresh : situation.handler.waits →
    situation.Whole processId (situation.shared.buffers situation.shared.active)
  held : ∀ {index}, situation.handler = .holding index →
    situation.Whole processId (situation.shared.buffers index)
  stamped : ∀ {index}, situation.handler = .stamped index →
    situation.Crashed processId unixMs fields (situation.shared.buffers index)
  emitted : ∀ {record}, situation.emitted = some record →
    situation.Crashed processId unixMs fields record

/-- The buffer a publisher fills and has not yet made active. -/
def Publisher.target : Publisher → Option (Fin 2)
  | copy _ inactive _ | storeGeneration _ inactive | storeActive inactive => some inactive
  | _ => none

/-- How many bytes of its buffer a publisher has filled. -/
def Publisher.filled : Publisher → Nat
  | copy _ _ copied => copied
  | _ => recordSize

/-- What a publisher relies on: its lock, and that its buffer is neither the
active one nor the handler's. -/
structure Publisher.Placed (publisher : Publisher) (situation : Situation) : Prop where
  lock : publisher.locked → situation.shared.publish = true
  inactive : ∀ {index}, publisher.target = some index → index ≠ situation.shared.active
  unheld : ∀ {index}, publisher.target = some index → situation.handler.holds ≠ some index
  filled : ∀ {index position}, publisher.target = some index → position < publisher.filled →
    (situation.shared.buffers index)[position]? = situation.shared.template[position]?

section Steps

variable {processId : UInt32} {unixMs : UInt64} {fields : CrashFields} {situation : Situation}
  {publisher publisher' : Publisher} {shared' : Shared}

theorem Publisher.target_locked {index : Fin 2} (target : publisher.target = some index) :
    publisher.locked = true := by
  cases publisher <;> first | rfl | cases target

/-- A publisher without the lock relies on nothing. -/
theorem Publisher.Placed.of_unlocked (unlocked : publisher.locked = false) :
    publisher.Placed situation where
  lock := fun locked => absurd locked (by rw [unlocked]; decide)
  inactive := fun target => absurd (target_locked target) (by rw [unlocked]; decide)
  unheld := fun target => absurd (target_locked target) (by rw [unlocked]; decide)
  filled := fun target => absurd (target_locked target) (by rw [unlocked]; decide)

theorem Publisher.Placed.of_untargeted (lock : publisher.locked → situation.shared.publish = true)
    (untargeted : publisher.target = none) : publisher.Placed situation := by
  refine ⟨lock, ?_, ?_, ?_⟩ <;> simp [untargeted]

/-- While the lock is held elsewhere a publisher changes nothing. -/
theorem Publisher.step_unlocked {shared : Shared} (unlocked : publisher.locked = false)
    (held : shared.publish = true) (taken : publisher.step shared = some (publisher', shared')) :
    shared' = shared ∧ publisher'.locked = false := by
  cases publisher with
  | setMetadata | publishSample => simp [Publisher.step, held] at taken
  | beforeCapture | afterCapture =>
    simp only [Publisher.step] at taken
    split at taken <;> cases taken <;> exact ⟨rfl, rfl⟩
  | finished => cases taken
  | _ => cases unlocked

/-- A whole snapshot stays one when more is published. -/
theorem Situation.Whole.mono {after : Situation} {record : List UInt8}
    (whole : situation.Whole processId record) (grows : situation.published ⊆ after.published) :
    after.Whole processId record := by
  obtain ⟨snapshot, member, same⟩ := whole
  exact ⟨snapshot, grows member, same⟩

theorem Situation.Crashed.mono {after : Situation} {record : List UInt8}
    (crashed : situation.Crashed processId unixMs fields record)
    (grows : situation.published ⊆ after.published) :
    after.Crashed processId unixMs fields record := by
  obtain ⟨snapshot, member, same⟩ := crashed
  exact ⟨snapshot, grows member, same⟩

theorem length_record (snapshot : Snapshot) : (snapshot.record processId).length = recordSize := by
  obtain ⟨-, sample⟩ := snapshot
  cases sample with
  | none => exact length_initializeRecord
  | some sample =>
    exact ((stamps_putSample sample.1 sample.2).length _).trans length_initializeRecord

/-- Only the active buffer and the handler's matter to the invariant. -/
theorem Situation.Sound.of_agree (sound : situation.Sound processId unixMs fields)
    (template : shared'.template = situation.shared.template)
    (active : shared'.active = situation.shared.active)
    (sized : ∀ index, (shared'.buffers index).length = recordSize)
    (same : ∀ index, index = situation.shared.active ∨ situation.handler.holds = some index →
      shared'.buffers index = situation.shared.buffers index) :
    { situation with shared := shared' }.Sound processId unixMs fields where
  template := template.trans sound.template
  sized := sized
  fresh := by
    intro waits
    simp only [active, same _ (.inl rfl)]
    exact sound.fresh waits
  held := by
    intro index holding
    simp only [same index (.inr (congrArg Handler.holds holding))]
    exact sound.held holding
  stamped := by
    intro index stamped
    simp only [same index (.inr (congrArg Handler.holds stamped))]
    exact sound.stamped stamped
  emitted := sound.emitted

theorem Situation.Sound.of_same (sound : situation.Sound processId unixMs fields)
    (template : shared'.template = situation.shared.template)
    (buffers : shared'.buffers = situation.shared.buffers)
    (active : shared'.active = situation.shared.active) :
    { situation with shared := shared' }.Sound processId unixMs fields := by
  refine sound.of_agree template active ?_ ?_ <;> simp [buffers, sound.sized]

theorem other_ne (index : Fin 2) : 1 - index ≠ index := by
  revert index
  decide

section

variable (sound : situation.Sound processId unixMs fields)

include sound

/-- Filling a buffer that is neither active nor the handler's changes nothing
the invariant speaks about. -/
theorem Situation.Sound.setBuffer {index : Fin 2}
    {record : List UInt8} (apart : index ≠ situation.shared.active)
    (unheld : situation.handler.holds ≠ some index) (sized : record.length = recordSize) :
    { situation with shared := situation.shared.setBuffer index record }.Sound processId unixMs
    fields := by
  refine sound.of_agree rfl rfl (fun other => ?_) fun other reads => setBuffer_other ?_
  · by_cases same : other = index
    · subst same
      simp only [setBuffer_buffers, sized]
    · simp only [setBuffer_other same]
      exact sound.sized other
  · rintro rfl
    exact reads.elim apart unheld

/-- Making a filled buffer active publishes the current snapshot. -/
theorem Situation.Sound.publish {index : Fin 2}
    (filled : situation.shared.buffers index = situation.shared.template) :
    { situation with
      shared := { situation.shared with active := index }
      published := situation.current :: situation.published }.Sound processId unixMs fields where
  template := sound.template
  sized := sound.sized
  fresh := fun _ => ⟨situation.current, mem_cons_self, filled.trans sound.template⟩
  held := fun holding => (sound.held holding).mono (subset_cons_self _ _)
  stamped := fun stamped => (sound.stamped stamped).mono (subset_cons_self _ _)
  emitted := fun emitted => (sound.emitted emitted).mono (subset_cons_self _ _)

/-- A publisher's own step keeps the record sound and the publisher placed. -/
theorem Publisher.Moves.keeps {situation' : Situation}
    (placed : publisher.Placed situation) (steady : Steady publisher () situation)
    (moves : Publisher.Moves publisher situation publisher' situation') :
    situation'.Sound processId unixMs fields ∧ publisher'.Placed situation' := by
  obtain ⟨taken⟩ := moves
  cases publisher with
  | setMetadata generation metadata | publishSample sample =>
    simp only [Publisher.step] at taken
    split at taken <;> cases taken
    exact ⟨sound.of_same rfl rfl rfl, .of_untargeted (fun _ => rfl) rfl⟩
  | compareGeneration generation metadata =>
    have held := placed.lock rfl
    simp only [Publisher.step] at taken
    split at taken <;> cases taken <;>
      exact ⟨sound.of_same rfl rfl rfl, .of_untargeted (fun _ => held) rfl⟩
  | stampMetadata generation metadata =>
    have held := placed.lock rfl
    cases taken
    refine ⟨⟨?_, sound.sized, sound.fresh, sound.held, sound.stamped, sound.emitted⟩,
      .of_untargeted (fun _ => held) rfl⟩
    simp only
    rw [sound.template]
    exact putMetadata_snapshot
  | beforeCapture sample | afterCapture sample =>
    simp only [Publisher.step] at taken
    split at taken <;> cases taken <;> exact ⟨sound.of_same rfl rfl rfl, .of_unlocked rfl⟩
  | stampSample sample =>
    have held := placed.lock rfl
    cases taken
    refine ⟨⟨?_, sound.sized, sound.fresh, sound.held, sound.stamped, sound.emitted⟩,
      .of_untargeted (fun _ => held) rfl⟩
    rw [sound.template]
    exact putSample_snapshot
  | loadActive generation =>
    have held := placed.lock rfl
    cases taken
    refine ⟨sound.of_same rfl rfl rfl, fun _ => held, ?_, ?_,
      fun _ small => absurd small (Nat.not_lt_zero _)⟩
    · rintro index target
      cases target
      exact other_ne _
    · rintro index target holds
      cases target
      exact other_ne _ (steady rfl holds).symm
  | copy generation inactive copied =>
    have held := placed.lock rfl
    have apart := @Publisher.Placed.inactive _ _ placed inactive rfl
    have unheld := @Publisher.Placed.unheld _ _ placed inactive rfl
    simp only [Publisher.step] at taken
    split at taken
    · rename_i more
      cases taken
      have short : copied < situation.shared.template.length := by
        rw [sound.template, length_record]
        exact more
      refine ⟨sound.setBuffer apart unheld (by rw [length_set]; exact sound.sized inactive),
        fun _ => held, placed.inactive, placed.unheld, ?_⟩
      rintro index position target small
      cases target
      simp only [setBuffer_buffers]
      by_cases last : position = copied
      · subst last
        rw [getElem?_set_self (by rw [sound.sized]; exact more), getD_eq_getElem?_getD,
          getElem?_eq_getElem short]
        exact (getElem?_eq_getElem short).symm
      · rw [getElem?_set_ne (Ne.symm last)]
        exact placed.filled rfl (by simp only [Publisher.filled] at small ⊢; omega)
    · rename_i done
      cases generation
      all_goals
        cases taken
        refine ⟨sound.of_same rfl rfl rfl, fun _ => held, placed.inactive, placed.unheld, ?_⟩
        rintro index position target small
        cases target
        exact placed.filled rfl (by simp only [Publisher.filled] at small ⊢; omega)
  | storeGeneration generation inactive =>
    have held := placed.lock rfl
    cases taken
    exact ⟨sound.of_same rfl rfl rfl, fun _ => held, placed.inactive, placed.unheld, placed.filled⟩
  | storeActive inactive =>
    have held := placed.lock rfl
    cases taken
    have filled : situation.shared.buffers inactive = situation.shared.template := by
      apply ext_getElem?
      intro position
      by_cases inside : position < recordSize
      · exact placed.filled rfl inside
      rw [getElem?_eq_none, getElem?_eq_none]
      · rw [sound.template, length_record]
        omega
      · rw [sound.sized]
        omega
    exact ⟨sound.publish filled, .of_untargeted (fun _ => held) rfl⟩
  | release =>
    cases taken
    exact ⟨sound.of_same rfl rfl rfl, .of_unlocked rfl⟩
  | finished => cases taken

/-- The handler's step keeps the record sound. -/
theorem Handler.Moves.keeps {situation' : Situation}
    (moves : Handler.Moves unixMs fields situation situation') :
    situation'.Sound processId unixMs fields := by
  obtain ⟨taken⟩ := moves
  obtain ⟨shared, handler, emitted, current, published⟩ := situation
  cases handler with
  | armed =>
    simp only [Handler.step] at taken
    split at taken <;> cases taken
    · exact ⟨sound.template, sound.sized, nofun, nofun, nofun, sound.emitted⟩
    exact ⟨sound.template, sound.sized, fun _ => sound.fresh rfl, nofun, nofun, sound.emitted⟩
  | entered =>
    cases taken
    exact ⟨sound.template, sound.sized, fun _ => sound.fresh rfl, nofun, nofun, sound.emitted⟩
  | reading =>
    cases taken
    refine ⟨sound.template, sound.sized, nofun, ?_, nofun, sound.emitted⟩
    rintro index holding
    cases holding
    exact sound.fresh rfl
  | holding index =>
    cases taken
    refine ⟨sound.template, ?_, nofun, nofun, ?_, sound.emitted⟩
    · intro other
      by_cases same : other = index
      · subst same
        simp only [setBuffer_buffers, (confined_putCrash unixMs fields).length]
        exact sound.sized other
      · simp only [setBuffer_other same]
        exact sound.sized other
    · rintro other stamped
      cases stamped
      obtain ⟨snapshot, member, same⟩ := sound.held rfl
      refine ⟨snapshot, member, ?_⟩
      simp only [setBuffer_buffers]
      exact congrArg (fun record => putCrash record unixMs fields) same
  | stamped index =>
    cases taken
    refine ⟨sound.template, sound.sized, nofun, nofun, nofun, ?_⟩
    rintro record emitted
    cases emitted
    exact sound.stamped rfl
  | written index | leaving =>
    cases taken
    exact ⟨sound.template, sound.sized, nofun, nofun, nofun, sound.emitted⟩
  | returned => cases taken

end

/-- The handler's step takes nothing from a publisher. -/
theorem Handler.Moves.leaves {situation' : Situation} (placed : publisher.Placed situation)
    (moves : Handler.Moves unixMs fields situation situation') : publisher.Placed situation' := by
  obtain ⟨taken⟩ := moves
  obtain ⟨shared, handler, emitted, current, published⟩ := situation
  cases handler with
  | armed =>
    simp only [Handler.step] at taken
    split at taken <;> cases taken <;> exact ⟨placed.lock, placed.inactive, nofun, placed.filled⟩
  | entered | written _ | leaving =>
    cases taken
    exact ⟨placed.lock, placed.inactive, nofun, placed.filled⟩
  | reading =>
    cases taken
    refine ⟨placed.lock, placed.inactive, ?_, placed.filled⟩
    rintro index target holds
    exact placed.inactive target (Option.some.inj holds).symm
  | holding index =>
    cases taken
    refine ⟨placed.lock, placed.inactive, placed.unheld, ?_⟩
    rintro other position target small
    have distinct : other ≠ index := by
      rintro rfl
      exact placed.unheld target rfl
    simp only [setBuffer_other distinct]
    exact placed.filled target small
  | stamped index =>
    cases taken
    exact ⟨placed.lock, placed.inactive, placed.unheld, placed.filled⟩
  | returned => cases taken

end Steps

/-- The publishers exclude each other, and the record stays sound, along every
run in which no publisher loads an index the handler has left behind. -/
def crashOutline (processId : UInt32) (unixMs : UInt64) (fields : CrashFields) :
    (crashMachine processId unixMs fields).Outline Steady where
  Shared := Situation.Sound processId unixMs fields
  Local := Publisher.Placed
  Apart := fun first second _ => ¬ (first.locked = true ∧ second.locked = true)
  symmetric := fun apart both => apart ⟨both.2, both.1⟩
  initial := by
    rintro situation ⟨metadata, rfl⟩
    refine ⟨rfl, fun _ => length_initializeRecord, fun _ => ⟨_, List.mem_singleton_self _, rfl⟩,
      nofun, nofun, nofun⟩
  entryLocal := by
    rintro publisher situation (⟨_, _, rfl⟩ | ⟨_, rfl⟩) _
    all_goals exact .of_unlocked rfl
  entryApart := by
    rintro publisher other situation (⟨_, _, rfl⟩ | ⟨_, rfl⟩) _ _ ⟨locked, _⟩
    · cases locked
    · cases locked
  driftShared := fun sound moves => moves.keeps sound
  driftLocal := fun _ placed moves => moves.leaves placed
  driftApart := fun _ apart _ => apart
  own := by
    rintro publisher _ situation publisher' situation' launched sound placed steady ⟨rfl, moves⟩
    obtain ⟨sound, placed⟩ := moves.keeps sound placed steady
    exact ⟨sound, placed, nofun⟩
  frame := by
    rintro publisher _ situation publisher' situation' launched other sound placed present apart
      steady ⟨rfl, ⟨taken⟩⟩
    by_cases locked : other.locked = true
    · -- The lock is held elsewhere, so the step changed nothing.
      have unlocked : publisher.locked = false := by
        cases holds : publisher.locked with
        | false => rfl
        | true => exact absurd ⟨holds, locked⟩ apart
      obtain ⟨same, still⟩ := Publisher.step_unlocked unlocked (present.lock locked) taken
      subst same
      refine ⟨⟨present.lock, present.inactive, present.unheld, present.filled⟩, ?_, nofun⟩
      rintro ⟨now, _⟩
      rw [still] at now
      cases now
    · exact ⟨.of_unlocked (Bool.eq_false_iff.mpr locked), fun both => locked both.2, nofun⟩
  frameApart := fun _ _ _ _ _ _ apart _ _ => apart

/-- In every run in which no publisher loads the active index while the handler
has another one, no publisher writes to the handler's buffer, and what is emitted
is one published snapshot with the crash's own fields. -/
theorem crash_undisturbed {processId : UInt32} {unixMs : UInt64} {fields : CrashFields}
    {pool : Pool Situation Publisher}
    (reachable : (crashMachine processId unixMs fields).Reachable Steady pool) :
    (∀ {index id publisher}, pool.shared.handler.holds = some index →
      pool.threads id = some publisher → publisher.writes ≠ some index) ∧
    (∀ {record}, pool.shared.emitted = some record →
      ∃ snapshot ∈ pool.shared.published,
        record = putCrash (snapshot.record processId) unixMs fields) := by
  have valid := (crashOutline processId unixMs fields).valid_of_reachable reachable
  refine ⟨?_, fun emitted => valid.shared.emitted emitted⟩
  intro index id publisher holds running writes
  have target : publisher.target = some index := by
    cases publisher <;> first | exact writes | cases writes
  exact (valid.threads running).unheld target holds

/-! ## Publications during a crash -/

section Runs

variable {processId : UInt32} {unixMs : UInt64} {fields : CrashFields}
  {allowed : Publisher → Unit → Situation → Prop}

/-- A publisher that nothing interrupts is a run of the machine, and the handler
stays where it is. -/
theorem runs_of_solo {handler : Handler}
    (every : ∀ publisher situation, situation.handler = handler → allowed publisher () situation)
    {id : Nat} {first last : Publisher} {before after : Shared}
    (solo : Publisher.Solo first before last after) {pool : Pool Situation Publisher}
    (stays : pool.shared.handler = handler) (running : pool.threads id = some first)
    (starts : pool.shared.shared = before) :
    ∃ pool', (crashMachine processId unixMs fields).Runs allowed pool pool' ∧
      pool'.threads id = some last ∧ pool'.shared.shared = after ∧ pool'.shared.handler = handler ∧
      ∀ other, other ≠ id → pool'.threads other = pool.threads other := by
  induction solo with
  | refl => exact ⟨pool, .refl, running, starts, stays, fun _ _ => rfl⟩
  | tail _ step ih =>
    obtain ⟨middle, runs, stands, between, still, others⟩ := ih starts
    rw [← between] at step
    refine ⟨_, runs.tail (.advance id stands (every _ _ still) ⟨rfl, .step step⟩), ?_, rfl, still,
      ?_⟩
    · simp [Pool.put]
    · intro other distinct
      simp only [Pool.put, Function.update_of_ne distinct]
      exact others other distinct

/-- The handler gets as far as the index. -/
theorem handler_loads {pool : Pool Situation Publisher} (armed : pool.shared.handler = .armed)
    (alone : pool.shared.shared.inHandler = false) :
    ∃ pool', (crashMachine processId unixMs fields).Runs allowed pool pool' ∧
      pool'.threads = pool.threads ∧
      pool'.shared.shared = { pool.shared.shared with inHandler := true, reading := true } ∧
      pool'.shared.handler = .holding pool.shared.shared.active := by
  obtain ⟨⟨shared, handler, emitted, current, published⟩, threads⟩ := pool
  cases armed
  have entered : (crashMachine processId unixMs fields).Drift
    ⟨shared, .armed, emitted, current, published⟩
      ⟨{ shared with inHandler := true }, .entered, emitted, current, published⟩ := by
    have taken : Handler.step unixMs fields .armed shared
        = some (.entered, { shared with inHandler := true }, none) := by
      simp only [Handler.step]
      rw [if_neg (by rw [alone]; decide)]
    exact @Handler.Moves.step unixMs fields ⟨shared, .armed, emitted, current, published⟩ _ _ none
      taken
  refine ⟨_, ((Relation.ReflTransGen.single (.drift entered)).tail
    (.drift (.step rfl))).tail (.drift (.step rfl)), rfl, rfl, rfl⟩

end Runs

/-- The metadata of the examples below. -/
def plainMetadata : CrashMetadata :=
  { appClass := "", appName := "", appVersion := "", instanceName := "", creationTimeMs := 0,
    cwd := "" }

def plainFields : CrashFields := { tid := 1, faultCode := 11, faultAddress := 0, rawContext := [] }

/-- The record as it is armed. -/
def plainSituation : Situation :=
  { shared := Shared.new (initializeRecord 7 plainMetadata), handler := .armed, emitted := none
    current := ⟨plainMetadata, none⟩, published := [⟨plainMetadata, none⟩] }

theorem plainSituation_initial : (crashMachine 7 1 plainFields).Initial plainSituation :=
  ⟨plainMetadata, rfl⟩

/-- A crash after one publication emits what was published; a sampler that comes while the handler
has its buffer goes away again. -/
theorem crash_undisturbed_published :
    ∃ pool record, (crashMachine 7 1 plainFields).Reachable Steady pool ∧
      pool.shared.emitted = some record ∧
      ∃ snapshot ∈ pool.shared.published, record = putCrash (snapshot.record 7) 1 plainFields := by
  have sized : (initializeRecord 7 plainMetadata).length = recordSize := length_initializeRecord
  have calm (publisher : Publisher) (situation : Situation) (armed : situation.handler = .armed) :
      Steady publisher () situation := by
    intro generation index _ holds
    rw [armed] at holds
    cases holds
  obtain ⟨moved, moves, _, after, still, others⟩ :=
    @runs_of_solo 7 1 plainFields Steady .armed calm 0 _ _ _ _
    (@Publisher.Solo.setMetadata plainSituation.shared plainMetadata 2 rfl sized (fun _ => sized))
    ((Pool.start plainSituation).put plainSituation 0 (.setMetadata 2 plainMetadata)) rfl
    (by simp [Pool.put]) rfl
  obtain ⟨loaded, loads, same, reading, holding⟩ :=
    @handler_loads 7 1 plainFields Steady moved still (by rw [after]; rfl)
  have reached : (crashMachine 7 1 plainFields).Reachable Steady loaded :=
    ⟨_, plainSituation_initial, (Relation.ReflTransGen.single
      (.enter 0 rfl (.inl ⟨2, plainMetadata, rfl⟩))).trans (moves.trans loads)⟩
  have vacant : loaded.threads 1 = none := by
    rw [same, others 1 (by decide)]
    rfl
  obtain ⟨⟨shared, handler, emitted, current, published⟩, threads⟩ := loaded
  cases holding
  have goes : (Publisher.beforeCapture ([], [])).step shared = some (.finished, shared) :=
    if_pos (congrArg Shared.reading reading)
  have sampled := reached.runs ((Relation.ReflTransGen.single
    (.enter 1 vacant (.inr ⟨_, rfl⟩))).tail
    (@Machine.Next.advance _ _ _ _ _ _ _ _ () _ 1 Pool.put_self (fun loading => by cases loading)
      ⟨rfl, .step goes⟩))
  have emits := sampled.runs ((Relation.ReflTransGen.single (.drift (.step rfl))).tail
    (.drift (.step rfl)))
  exact ⟨_, _, emits, rfl, (crash_undisturbed emits).2 rfl⟩

/-- A first publication during a crash moves the index away from the handler's
buffer, and a second one copies over that buffer while the handler has it. -/
theorem crash_disturbed :
    ∃ pool, (crashMachine 7 1 plainFields).Reachable (fun _ _ _ => True) pool ∧
      pool.shared.handler.holds = some 0 ∧
      ∃ id publisher, pool.threads id = some publisher ∧ publisher.writes = some 0 := by
  obtain ⟨loaded, loads, nobody, shared, holding⟩ :=
    @handler_loads 7 1 plainFields (fun _ _ _ => True) (.start plainSituation) rfl rfl
  have reached : (crashMachine 7 1 plainFields).Reachable (fun _ _ _ => True) loaded :=
    ⟨_, plainSituation_initial, loads⟩
  have sized : (initializeRecord 7 plainMetadata).length = recordSize := length_initializeRecord
  -- The first call runs to its end, and buffer 1 is active.
  have vacant (id : Nat) : loaded.threads id = none := by
    rw [nobody]
    rfl
  obtain ⟨moved, moves, _, after, still, others⟩ :=
    @runs_of_solo 7 1 plainFields (fun _ _ _ => True) (.holding 0) (fun _ _ _ => trivial) 0 _ _ _ _
    (@Publisher.Solo.setMetadata loaded.shared.shared plainMetadata 2 (by rw [shared]; rfl)
      (by rw [shared]; exact sized) (by rw [shared]; exact fun _ => sized))
    (loaded.put loaded.shared 0 (.setMetadata 2 plainMetadata)) holding (by simp [Pool.put]) rfl
  have published : moved.shared.shared.publish = false ∧ moved.shared.shared.active = 1 ∧
      moved.shared.shared.metadataGeneration = 2 := by
    rw [after, shared]
    exact ⟨rfl, rfl, rfl⟩
  have reachedMoved := (reached.runs
    (.single (.enter 0 (vacant 0) (.inl ⟨2, plainMetadata, rfl⟩)))).runs moves
  -- The second call loads the index and turns to buffer 0.
  have free : moved.threads 1 = none := by
    rw [others 1 (by decide)]
    simpa [Pool.put] using vacant 1
  have turns := @Publisher.Solo.turns moved.shared.shared plainMetadata 3 published.1
    (by rw [published.2.2]; decide)
  obtain ⟨final, last, copying, _, held, _⟩ := @runs_of_solo 7 1 plainFields (fun _ _ _ => True)
    (.holding 0) (fun _ _ _ => trivial) 1 _ _ _ _ turns
    (moved.put moved.shared 1 (.setMetadata 3 plainMetadata)) still (by simp [Pool.put]) rfl
  refine ⟨final, (reachedMoved.runs (.single (.enter 1 free (.inl ⟨3, plainMetadata, rfl⟩)))).runs
    last, ?_, 1, _, copying, ?_⟩
  · rw [held]
    rfl
  · rw [published.2.1]
    rfl

end KernalApi.Crash
