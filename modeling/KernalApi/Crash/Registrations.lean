import KernalApi.Crash.Readback
import KernalApi.Crash.Shared
import KernalApi.Semantics.Schedule
import KernalApi.Std.SortedMap

/-!
# Whose identity a crash reports

Every `CrashGuard` is a registration of one process-wide `Runtime`; the record
carries the metadata of the registration with the smallest id. Installing,
dropping a guard and tearing a runtime down are threads of separate sections
under `HANDLER_TRANSITION`, the registrations' lock and the record's `publish`.
-/

namespace KernalApi.Crash

open KernalApi.Std Semantics List

/-- The registrations of a runtime; ids are `u64`. -/
structure RegistrationState where
  nextId : Nat
  generation : UInt64
  entries : SortedMap Nat CrashMetadata

namespace RegistrationState

/-- A `u64` after one more, where zero is left out. -/
def bumpId (id : Nat) : Nat := max ((id + 1) % 2 ^ 64) 1

def addRegistration (state : RegistrationState) (metadata : CrashMetadata) :
    Nat × RegistrationState :=
  (state.nextId, { state with
    nextId := bumpId state.nextId
    entries := state.entries.insert state.nextId metadata })

/-- The registration with the smallest id. -/
def first (state : RegistrationState) : Option (Nat × CrashMetadata) := state.entries.entries.head?

/-- Removes a registration; when it was the first, the next first one is to be
published under a new generation. -/
def removeRegistration (state : RegistrationState) (id : Nat) :
    RegistrationState × Option (UInt64 × CrashMetadata) :=
  let wasSelected := state.first.map Prod.fst = some id
  let state := { state with entries := state.entries.erase id }
  if wasSelected then
    let state := { state with generation := max (state.generation + 1) 1 }
    (state, state.first.map fun entry => (state.generation, entry.2))
  else (state, none)

end RegistrationState

/-- A runtime with the number of its strong references. -/
structure Runtime where
  shared : Shared
  registrations : RegistrationState
  strong : Nat
  handlerArmed : Bool

/-- A runtime that is armed for its first registration. -/
def Runtime.new (processId : UInt32) (metadata : CrashMetadata) : Runtime :=
  { shared := Shared.new (initializeRecord processId metadata)
    registrations := { nextId := 2, generation := 1, entries := SortedMap.empty.insert 1 metadata }
    strong := 1
    handlerArmed := true }

/-- The process-wide statics: whether `HANDLER_TRANSITION` is held, the runtime
`RUNTIME` points to weakly, and every runtime there has been. -/
structure Process where
  transition : Bool
  slot : Option Nat
  runtimes : List Runtime

def Process.update (process : Process) (index : Nat) (change : Runtime → Runtime) : Process :=
  { process with runtimes := process.runtimes.modify index change }

/-- The runtime the weak reference can still be upgraded to. -/
def Process.upgrade (process : Process) : Option Nat :=
  process.slot.filter fun index => process.runtimes[index]?.any fun runtime => 0 < runtime.strong

/-- Where a thread stands in `install`, in holding a guard, or in dropping it. -/
inductive Task
  | install (metadata : CrashMetadata)
  | upgrade (metadata : CrashMetadata)
  | resume (metadata : CrashMetadata) (runtime : Nat)
  | register (metadata : CrashMetadata) (runtime : Nat)
  | create (metadata : CrashMetadata)
  | leave (runtime id : Nat)
  | abandon (runtime : Nat)
  | refuse
  | guarded (runtime id : Nat)
  | setMetadata (runtime : Nat) (generation : UInt64) (metadata : CrashMetadata)
  | release (runtime : Nat)
  | teardown (runtime : Nat)
  | finished

/-- The next section of a thread; `succeeds` is the answer of the operating
system where a handler is attached or a runtime created. -/
def Task.step (processId : UInt32) (succeeds : Bool) (task : Task) (process : Process) :
    Option (Task × Process) :=
  match task with
  | .install metadata =>
    if process.transition then none
    else some (.upgrade metadata, { process with transition := true })
  | .upgrade metadata =>
    match process.upgrade with
    | some index =>
      some (.resume metadata index, process.update index fun runtime =>
        { runtime with strong := runtime.strong + 1 })
    | none => some (.create metadata, process)
  | .resume metadata index =>
    if succeeds then
      some (.register metadata index, process.update index fun runtime =>
        { runtime with handlerArmed := true })
    else some (.abandon index, process)
  | .register metadata index =>
    match process.runtimes[index]? with
    | none => none
    | some runtime =>
      let added := runtime.registrations.addRegistration metadata
      some (.leave index added.1, process.update index fun runtime =>
        { runtime with registrations := added.2 })
  | .create metadata =>
    if succeeds then
      some (.leave process.runtimes.length 1, { process with
        runtimes := process.runtimes ++ [Runtime.new processId metadata]
        slot := some process.runtimes.length })
    else some (.refuse, process)
  | .leave index id => some (.guarded index id, { process with transition := false })
  | .abandon index => some (.release index, { process with transition := false })
  | .refuse => some (.finished, { process with transition := false })
  | .guarded index id =>
    match process.runtimes[index]? with
    | none => none
    | some runtime =>
      let removed := runtime.registrations.removeRegistration id
      let process := process.update index fun runtime => { runtime with registrations := removed.1 }
      match removed.2 with
      | some (generation, metadata) => some (.setMetadata index generation metadata, process)
      | none => some (.release index, process)
  | .setMetadata index generation metadata =>
    some (.release index, process.update index fun runtime =>
      { runtime with shared := runtime.shared.setMetadata generation metadata })
  | .release index =>
    match process.runtimes[index]? with
    | none => none
    | some runtime =>
      let process := process.update index fun runtime =>
        { runtime with strong := runtime.strong - 1 }
      if runtime.strong = 1 then some (.teardown index, process) else some (.finished, process)
  | .teardown index =>
    if process.transition then none
    else some (.finished, process.update index fun runtime =>
      { runtime with handlerArmed := false })
  | .finished => none

/-- The threads of one process. The samplers publish at any time. -/
def installMachine (processId : UInt32) : Machine Process Task Bool where
  Initial := fun process => process = { transition := false, slot := none, runtimes := [] }
  Entry := fun task => ∃ metadata, task = .install metadata
  Step := fun task succeeds process task' process' launched =>
    launched = none ∧ task.step processId succeeds process = some (task', process')
  Drift := fun process process' => ∃ index sample, process' = process.update index fun runtime =>
    { runtime with shared := runtime.shared.publishSample sample }

/-- A record holds the given metadata: writing it again changes nothing. -/
def Carries (record : List UInt8) (metadata : CrashMetadata) : Prop :=
  putMetadata record metadata = record

/-- The record a crash would emit. -/
def Shared.record (shared : Shared) : List UInt8 := shared.buffers shared.active

/-- A registration is added only to others that all have smaller ids, and no
removal wraps the generation. -/
def Orderly (task : Task) (_ : Bool) (process : Process) : Prop :=
  match task with
  | .register _ index => ∀ {runtime}, process.runtimes[index]? = some runtime →
      runtime.registrations.first ≠ none ∧
        ∀ entry ∈ runtime.registrations.entries.entries, entry.1 < runtime.registrations.nextId
  | .guarded index id => ∀ {runtime}, process.runtimes[index]? = some runtime →
      runtime.registrations.first.map Prod.fst = some id →
        runtime.registrations.generation.toNat + 1 < 2 ^ 64
  | _ => True

/-! ## Records that carry metadata -/

theorem carries_putMetadata (record : List UInt8) (metadata : CrashMetadata) :
    Carries (putMetadata record metadata) metadata :=
  (stamps_putMetadata metadata).absorbs (stamps_putMetadata metadata).confined record

variable {metadata : CrashMetadata}

theorem Carries.putSample {record : List UInt8} (carries : Carries record metadata)
    (sample : Sample) : Carries (Crash.putSample record sample.1 sample.2) metadata := by
  unfold Carries at carries ⊢
  rw [(stamps_putMetadata metadata).comm (stamps_putSample sample.1 sample.2) metadata_sample_apart,
    carries]

/-! ## The first registration -/

namespace RegistrationState

variable {state : RegistrationState} {metadata : CrashMetadata} {id : Nat}

/-- A registration with a larger id does not become the first. -/
theorem first_addRegistration (some : state.first ≠ none)
    (larger : ∀ entry ∈ state.entries.entries, entry.1 < state.nextId) :
    (state.addRegistration metadata).2.first = state.first := by
  have kept : state.entries.entries.filter (fun entry => decide (entry.1 < state.nextId))
      = state.entries.entries := by
    rw [filter_eq_self]
    intro entry member
    exact decide_eq_true (larger entry member)
  unfold addRegistration first SortedMap.insert at *
  simp only [kept]
  cases entries : state.entries.entries with
  | nil => exact absurd (by rw [entries]; rfl) some
  | cons => rfl

/-- Removing another registration leaves the first one first. -/
theorem first_removeRegistration (other : ¬ state.first.map Prod.fst = some id) :
    (state.removeRegistration id).1.first = state.first ∧
      (state.removeRegistration id).1.generation = state.generation ∧
      (state.removeRegistration id).2 = none := by
  have same : (state.entries.entries.filter fun entry => decide (entry.1 ≠ id)).head?
      = state.entries.entries.head? := by
    unfold first at other
    cases entries : state.entries.entries with
    | nil => rfl
    | cons entry =>
      rw [entries] at other
      have differs : entry.1 ≠ id := fun same => other (by rw [← same]; rfl)
      simp [differs]
  unfold removeRegistration
  simp only [other, if_false, and_true]
  exact same

/-- The first registration is the one with the smallest id. -/
theorem first_of_smallest {entry : Nat × CrashMetadata} (live : entry ∈ state.entries.entries)
    (smallest : ∀ other ∈ state.entries.entries, entry.1 ≤ other.1) : state.first = some entry := by
  have sorted := state.entries.sorted
  unfold first
  cases entries : state.entries.entries with
  | nil =>
    rw [entries] at live
    cases live
  | cons head rest =>
    rw [entries] at live smallest sorted
    rcases mem_cons.mp live with rfl | later
    · rfl
    · have above := (pairwise_cons.mp sorted).1 entry later
      have below := smallest head mem_cons_self
      omega

/-- Removing the first registration opens a new generation. -/
theorem removeRegistration_first (selected : state.first.map Prod.fst = some id)
    (fits : state.generation.toNat + 1 < 2 ^ 64) :
    (state.removeRegistration id).1.generation.toNat = state.generation.toNat + 1 ∧
      (state.removeRegistration id).2
        = (state.removeRegistration id).1.first.map fun entry =>
          ((state.removeRegistration id).1.generation, entry.2) := by
  unfold removeRegistration
  simp only [selected, if_true, and_true]
  have bumped : (state.generation + 1).toNat = state.generation.toNat + 1 := by
    exact Nat.mod_eq_of_lt fits
  have larger : max (state.generation + 1) 1 = state.generation + 1 := by
    refine ite_eq_right_iff.mpr fun small => UInt64.toNat_inj.mp ?_
    rw [UInt64.le_iff_toNat_le] at small
    simp only [UInt64.reduceToNat] at small ⊢
    omega
  rw [larger, bumped]

end RegistrationState

/-! ## Runtimes along a run -/

/-- How a step changes a runtime, as far as the record's identity is concerned. -/
inductive Runtime.Changes (index : Nat) (task task' : Task) (before after : Runtime) : Prop
  | kept (generation : after.registrations.generation = before.registrations.generation)
      (first : after.registrations.first = before.registrations.first)
      (shared : after.shared = before.shared)
  | selected (generation : after.registrations.generation.toNat =
    before.registrations.generation.toNat + 1)
      (due : ∀ {entry}, after.registrations.first = some entry →
        task' = .setMetadata index after.registrations.generation entry.2)
      (shared : after.shared = before.shared)
  | published {generation : UInt64} {metadata : CrashMetadata}
      (named : task = .setMetadata index generation metadata)
      (registrations : after.registrations = before.registrations)
      (shared : after.shared = before.shared.setMetadata generation metadata)

theorem modify_cases {runtimes : List Runtime} {index other : Nat} {change : Runtime → Runtime}
    {after : Runtime} (found : (runtimes.modify index change)[other]? = some after) :
    ∃ before, runtimes[other]? = some before ∧
      (other = index ∧ after = change before ∨ other ≠ index ∧ after = before) := by
  rw [getElem?_modify] at found
  obtain ⟨before, present, rfl⟩ := Option.map_eq_some_iff.mp found
  refine ⟨before, present, ?_⟩
  split_ifs with same
  · exact .inl ⟨same.symm, rfl⟩
  · exact .inr ⟨Ne.symm same, rfl⟩

/-- A thread that is not about to publish metadata. -/
def Task.Quiet (task : Task) : Prop :=
  ∀ index generation metadata, task ≠ .setMetadata index generation metadata

/-- What a step does to the runtimes: most leave the record and the first registration of each;
the others create a runtime, remove the first registration of one, or publish. -/
inductive Task.Moves (processId : UInt32) (task : Task) (process : Process) (task' : Task)
    (process' : Process) : Prop
  | idle (runtimes : process'.runtimes = process.runtimes) (quiet : task'.Quiet)
  | kept {place : Nat} {change : Runtime → Runtime}
      (runtimes : process'.runtimes = process.runtimes.modify place change)
      (same : ∀ {runtime}, process.runtimes[place]? = some runtime →
        (change runtime).registrations.generation = runtime.registrations.generation ∧
        (change runtime).registrations.first = runtime.registrations.first ∧
        (change runtime).shared = runtime.shared)
      (quiet : task'.Quiet)
  | created {metadata : CrashMetadata}
      (runtimes : process'.runtimes = process.runtimes ++ [Runtime.new processId metadata])
      (quiet : task'.Quiet)
  | removed {place : Nat} {current : Runtime} {left : RegistrationState}
      (present : process.runtimes[place]? = some current)
      (bumped : left.generation.toNat = current.registrations.generation.toNat + 1)
      (runtimes : process'.runtimes
        = process.runtimes.modify place fun runtime => { runtime with registrations := left })
      (next : left.first = none ∧ task'.Quiet ∨
        ∃ entry, left.first = some entry ∧ task' = .setMetadata place left.generation entry.2)
  | published {place : Nat} {generation : UInt64} {metadata : CrashMetadata}
      (named : task = .setMetadata place generation metadata)
      (runtimes : process'.runtimes = process.runtimes.modify place fun runtime =>
        { runtime with shared := runtime.shared.setMetadata generation metadata })
      (quiet : task'.Quiet)

section Steps

variable {processId : UInt32} {succeeds : Bool} {task task' : Task} {process process' : Process}
  {index : Nat} {after : Runtime}

/-- What dropping a guard does. -/
theorem Task.step_guarded {runtime id : Nat}
    (orderly : Orderly (.guarded runtime id) succeeds process)
    (taken : (Task.guarded runtime id).step processId succeeds process = some (task', process')) :
    Task.Moves processId (.guarded runtime id) process task' process' := by
  cases present : process.runtimes[runtime]? with
  | none =>
    simp only [Task.step, present] at taken
    cases taken
  | some current =>
    simp only [Task.step, present] at taken
    by_cases selected : current.registrations.first.map Prod.fst = some id
    · obtain ⟨bumped, due⟩ := RegistrationState.removeRegistration_first selected
        (orderly present selected)
      rw [due] at taken
      cases next : (current.registrations.removeRegistration id).1.first with
      | none =>
        rw [next] at taken
        cases taken
        exact .removed present bumped rfl (.inl ⟨next, nofun⟩)
      | some entry =>
        rw [next] at taken
        cases taken
        exact .removed present bumped rfl (.inr ⟨entry, next, rfl⟩)
    · obtain ⟨first, generation, none⟩ := RegistrationState.first_removeRegistration selected
      rw [none] at taken
      cases taken
      refine .kept rfl (fun {before} same => ?_) nofun
      cases present.symm.trans same
      exact ⟨generation, first, rfl⟩

/-- What an orderly step does. -/
theorem Task.step_moves (orderly : Orderly task succeeds process)
    (taken : task.step processId succeeds process = some (task', process')) :
    Task.Moves processId task process task' process' := by
  cases task with
  | install | upgrade | resume | teardown =>
    simp only [Task.step] at taken
    split at taken <;> cases taken <;>
      first | exact .idle rfl nofun | exact .kept rfl (fun _ => ⟨rfl, rfl, rfl⟩) nofun
  | register metadata runtime =>
    simp only [Task.step] at taken
    split at taken
    · cases taken
    rename_i current present
    cases taken
    refine .kept rfl (fun {before} same => ?_) nofun
    cases present.symm.trans same
    have held := orderly present
    exact ⟨rfl, RegistrationState.first_addRegistration held.1 held.2, rfl⟩
  | create =>
    simp only [Task.step] at taken
    split at taken <;> cases taken
    · exact .created rfl nofun
    · exact .idle rfl nofun
  | leave | abandon | refuse =>
    cases taken
    exact .idle rfl nofun
  | guarded => exact Task.step_guarded orderly taken
  | setMetadata =>
    cases taken
    exact .published rfl rfl nofun
  | release =>
    simp only [Task.step] at taken
    split at taken
    · cases taken
    split at taken <;> cases taken <;> exact .kept rfl (fun _ => ⟨rfl, rfl, rfl⟩) nofun
  | finished => cases taken

/-- What an orderly step does to each runtime. -/
theorem Task.Moves.changes (moves : Task.Moves processId task process task' process')
    (found : process'.runtimes[index]? = some after) :
    (∃ before, process.runtimes[index]? = some before ∧
      Runtime.Changes index task task' before after) ∨
      process.runtimes[index]? = none ∧ ∃ metadata, after = Runtime.new processId metadata := by
  cases moves with
  | idle runtimes =>
    rw [runtimes] at found
    exact .inl ⟨after, found, .kept rfl rfl rfl⟩
  | kept runtimes same =>
    rw [runtimes] at found
    obtain ⟨before, present, ⟨rfl, rfl⟩ | ⟨_, rfl⟩⟩ := modify_cases found
    · obtain ⟨generation, first, shared⟩ := same present
      exact .inl ⟨before, present, .kept generation first shared⟩
    · exact .inl ⟨after, present, .kept rfl rfl rfl⟩
  | @created metadata runtimes =>
    rw [runtimes] at found
    by_cases old : index < process.runtimes.length
    · rw [getElem?_append_left old] at found
      exact .inl ⟨after, found, .kept rfl rfl rfl⟩
    rw [getElem?_append_right (by omega), getElem?_singleton] at found
    refine .inr ⟨getElem?_eq_none (by omega), metadata, ?_⟩
    split at found <;> cases found
    rfl
  | removed present bumped runtimes next =>
    rw [runtimes] at found
    obtain ⟨before, earlier, ⟨rfl, rfl⟩ | ⟨_, rfl⟩⟩ := modify_cases found
    · cases present.symm.trans earlier
      refine .inl ⟨_, earlier, .selected bumped ?_ rfl⟩
      intro entry first
      rcases next with ⟨none, _⟩ | ⟨other, first', named⟩
      · exact absurd (none.symm.trans first) nofun
      · cases first'.symm.trans first
        exact named
    · exact .inl ⟨after, earlier, .kept rfl rfl rfl⟩
  | published named runtimes =>
    rw [runtimes] at found
    obtain ⟨before, present, ⟨rfl, rfl⟩ | ⟨_, rfl⟩⟩ := modify_cases found
    · exact .inl ⟨before, present, .published named rfl rfl⟩
    · exact .inl ⟨after, present, .kept rfl rfl rfl⟩

/-- No step forgets a runtime. -/
theorem Task.Moves.length_le (moves : Task.Moves processId task process task' process') :
    process.runtimes.length ≤ process'.runtimes.length := by
  cases moves with
  | idle runtimes | kept runtimes | removed _ _ runtimes | published _ runtimes => simp [runtimes]
  | created runtimes => simp [runtimes]

/-- Only the removal of a first registration leads to a publication, and it is
the one of the new generation. -/
theorem Task.Moves.selects {generation : UInt64}
    (moves : Task.Moves processId task process (.setMetadata index generation metadata) process') :
    ∃ before after, process.runtimes[index]? = some before ∧
      process'.runtimes[index]? = some after ∧
      after.shared = before.shared ∧ generation = after.registrations.generation ∧
      after.registrations.generation.toNat = before.registrations.generation.toNat + 1 ∧
      ∀ {entry}, after.registrations.first = some entry → entry.2 = metadata := by
  cases moves with
  | idle _ quiet | kept _ _ quiet | created _ quiet | published _ _ quiet =>
    exact absurd rfl (quiet index generation metadata)
  | @removed _ current left present bumped runtimes next =>
    rcases next with ⟨_, quiet⟩ | ⟨entry, first, named⟩
    · exact absurd rfl (quiet index generation metadata)
    cases named
    refine ⟨current, { current with registrations := left }, present, ?_, rfl, rfl, bumped, ?_⟩
    · simp [runtimes, present]
    intro next found
    cases first.symm.trans found
    rfl

end Steps

/-! ## The identity along a run -/

/-- Once the newest generation is published, the record carries the first
registration's metadata. -/
structure Runtime.Current (runtime : Runtime) : Prop where
  generation : runtime.shared.metadataGeneration.toNat ≤ runtime.registrations.generation.toNat
  carried : runtime.shared.metadataGeneration = runtime.registrations.generation →
    ∀ {entry}, runtime.registrations.first = some entry →
      Carries runtime.shared.template entry.2 ∧ Carries runtime.shared.record entry.2

/-- A publication under way for a runtime: its generation was drawn, and if it
is the newest, it is still to be published and brings the first registration. -/
structure Runtime.Due (runtime : Runtime) (generation : UInt64) (metadata : CrashMetadata) :
    Prop where
  drawn : generation.toNat ≤ runtime.registrations.generation.toNat
  newest : generation = runtime.registrations.generation →
    runtime.shared.metadataGeneration.toNat < runtime.registrations.generation.toNat ∧
      ∀ {entry}, runtime.registrations.first = some entry → entry.2 = metadata

/-- What a thread that publishes knows of its runtime. -/
def Task.Due (task : Task) (process : Process) : Prop :=
  ∀ index generation metadata, task = .setMetadata index generation metadata →
    ∃ runtime, process.runtimes[index]? = some runtime ∧ Runtime.Due runtime generation metadata

def Process.Current (process : Process) : Prop :=
  ∀ (index : Nat) (runtime : Runtime), process.runtimes[index]? = some runtime → runtime.Current

/-- Two publications under way for one runtime have different generations. -/
def Task.Apart (first second : Task) : Prop :=
  ∀ index one other metadata metadata', first = .setMetadata index one metadata →
    second = .setMetadata index other metadata' → one ≠ other

theorem Runtime.new_current (processId : UInt32) (metadata : CrashMetadata) :
    (Runtime.new processId metadata).Current where
  generation := Nat.le_refl _
  carried := by
    rintro - entry first
    have named : (Runtime.new processId metadata).registrations.first = some (1, metadata) := rfl
    cases named.symm.trans first
    exact ⟨carries_putMetadata _ _, carries_putMetadata _ _⟩

theorem Shared.setMetadata_newer {shared : Shared} {generation : UInt64}
    (newer : ¬ generation ≤ shared.metadataGeneration) :
    (shared.setMetadata generation metadata).metadataGeneration = generation ∧
      Carries (shared.setMetadata generation metadata).template metadata ∧
      Carries (shared.setMetadata generation metadata).record metadata := by
  unfold Shared.setMetadata
  rw [if_neg newer]
  refine ⟨rfl, carries_putMetadata _ _, ?_⟩
  have copied : (({ shared with template := putMetadata shared.template metadata } :
      Shared).publishTemplate).record = putMetadata shared.template metadata := Function.update_self
        ..
  exact (congrArg (Carries · metadata) copied).mpr (carries_putMetadata _ _)

section Changes

variable {index : Nat} {task task' : Task} {before after : Runtime} {generation : UInt64}
  {metadata : CrashMetadata}

/-- A change keeps a runtime current, when a publication it makes was due. -/
theorem Runtime.Current.changes (current : before.Current)
    (due : ∀ {generation metadata}, task = .setMetadata index generation metadata →
      before.Due generation metadata)
    (changes : Runtime.Changes index task task' before after) : after.Current := by
  cases changes with
  | kept same first shared =>
    refine ⟨by rw [shared, same]; exact current.generation, ?_⟩
    rw [shared, same, first]
    exact current.carried
  | selected bumped _ shared =>
    have old := current.generation
    refine ⟨by rw [shared]; omega, ?_⟩
    intro published
    rw [shared] at published
    have equal := congrArg UInt64.toNat published
    omega
  | @published generation metadata named registrations shared =>
    have owed := due named
    by_cases stale : generation ≤ before.shared.metadataGeneration
    · have same : after.shared = before.shared := by
        rw [shared, Shared.setMetadata, if_pos stale]
      refine ⟨by rw [same, registrations]; exact current.generation, ?_⟩
      rw [same, registrations]
      exact current.carried
    · obtain ⟨published, template, record⟩ := Shared.setMetadata_newer stale
      rw [← shared] at published template record
      refine ⟨by rw [published, registrations]; exact owed.drawn, ?_⟩
      intro newest entry first
      rw [published, registrations] at newest
      rw [registrations] at first
      rw [(owed.newest newest).2 first]
      exact ⟨template, record⟩

/-- A change by another thread leaves a publication due. -/
theorem Runtime.Due.changes (owed : before.Due generation metadata)
    (due : ∀ {other metadata}, task = .setMetadata index other metadata →
      other ≠ generation ∧ before.Due other metadata)
    (changes : Runtime.Changes index task task' before after) : after.Due generation metadata := by
  cases changes with
  | kept same first shared =>
    refine ⟨by rw [same]; exact owed.drawn, ?_⟩
    rw [same, shared, first]
    exact owed.newest
  | selected bumped _ shared =>
    have drawn := owed.drawn
    refine ⟨by omega, ?_⟩
    rintro rfl
    omega
  | @published other _ named registrations shared =>
    obtain ⟨distinct, theirs⟩ := due named
    refine ⟨by rw [registrations]; exact owed.drawn, ?_⟩
    rw [registrations]
    intro newest
    obtain ⟨pending, first⟩ := owed.newest newest
    refine ⟨?_, first⟩
    by_cases stale : other ≤ before.shared.metadataGeneration
    · rw [shared, Shared.setMetadata, if_pos stale]
      exact pending
    rw [shared, (Shared.setMetadata_newer stale).1]
    have drawn := theirs.drawn
    have apart : other.toNat ≠ before.registrations.generation.toNat := by
      intro same
      exact distinct ((UInt64.toNat_inj.mp same).trans newest.symm)
    omega

end Changes

/-- A publication of the sampler keeps whatever metadata the record carries. -/
theorem Runtime.Current.sampled {runtime : Runtime} (current : runtime.Current) (sample : Sample) :
    { runtime with shared := runtime.shared.publishSample sample }.Current where
  generation := current.generation
  carried := by
    intro published entry first
    have template := (current.carried published first).1.putSample sample
    refine ⟨template, ?_⟩
    have copied : (runtime.shared.publishSample sample).record
        = putSample runtime.shared.template sample.1 sample.2 := Function.update_self ..
    exact (congrArg (Carries · entry.2) copied).mpr template

/-- A runtime that was there is there after a step. -/
theorem found_of_length {before after : List Runtime} {index : Nat} {runtime : Runtime}
    (grows : before.length ≤ after.length) (present : before[index]? = some runtime) :
    ∃ found, after[index]? = some found := by
  have inside := (List.getElem?_eq_some_iff.mp present).1
  exact ⟨_, getElem?_eq_getElem (by omega)⟩

/-- Every runtime is current, and publications under way for one runtime have
different generations, in every orderly run. -/
def identityOutline (processId : UInt32) : (installMachine processId).Outline Orderly where
  Shared := Process.Current
  Local := Task.Due
  Apart := fun first second _ => Task.Apart first second
  symmetric := fun apart index one other metadata metadata' first second same =>
    apart index other one metadata' metadata second first same.symm
  initial := by
    rintro process rfl index runtime found
    cases found
  entryLocal := by
    rintro task process ⟨metadata, rfl⟩ _ index generation other named
    cases named
  entryApart := by
    rintro task other process ⟨metadata, rfl⟩ _ _ index one another metadata metadata' named
    cases named
  driftShared := by
    rintro process process' current ⟨index, sample, rfl⟩ other runtime found
    obtain ⟨before, present, ⟨_, rfl⟩ | ⟨_, rfl⟩⟩ := modify_cases found
    · exact (current other before present).sampled sample
    · exact current other runtime present
  driftLocal := by
    rintro task process process' _ due ⟨index, sample, rfl⟩ other generation metadata named
    obtain ⟨runtime, present, owed⟩ := due other generation metadata named
    obtain ⟨after, found⟩ := found_of_length (List.length_modify ..).ge present
    refine ⟨after, found, ?_⟩
    obtain ⟨before, earlier, ⟨_, rfl⟩ | ⟨_, rfl⟩⟩ := modify_cases found
    · cases present.symm.trans earlier
      exact ⟨owed.drawn, owed.newest⟩
    · cases present.symm.trans earlier
      exact owed
  driftApart := fun _ apart _ => apart
  own := by
    rintro task succeeds process task' process' launched current due orderly ⟨rfl, taken⟩
    refine ⟨?_, ?_, nofun⟩
    · intro index after found
      rcases (Task.step_moves orderly taken).changes found
        with ⟨before, present, changes⟩ | ⟨_, metadata, rfl⟩
      · refine (current index before present).changes ?_ changes
        intro generation metadata named
        obtain ⟨runtime, earlier, owed⟩ := due index generation metadata named
        cases present.symm.trans earlier
        exact owed
      · exact Runtime.new_current processId metadata
    · rintro index generation metadata rfl
      obtain ⟨before, after, present, found, shared, newest, bumped, first⟩ :=
        (Task.step_moves orderly taken).selects
      have old := (current index before present).generation
      refine ⟨after, found, by rw [newest], fun _ => ⟨?_, first⟩⟩
      rw [shared]
      omega
  frame := by
    rintro task succeeds process task' process' launched other current due theirs apart orderly
      ⟨rfl, taken⟩
    have moves := Task.step_moves orderly taken
    refine ⟨?_, ?_, nofun⟩
    · rintro index generation metadata rfl
      obtain ⟨before, present, owed⟩ := theirs index generation metadata rfl
      obtain ⟨after, found⟩ := found_of_length moves.length_le present
      refine ⟨after, found, ?_⟩
      rcases moves.changes found with ⟨earlier, same, changes⟩ | ⟨absent, _⟩
      · cases present.symm.trans same
        refine owed.changes ?_ changes
        intro one metadata' named
        obtain ⟨runtime, there, mine⟩ := due index one metadata' named
        cases present.symm.trans there
        exact ⟨apart index one generation metadata' metadata named rfl, mine⟩
      · exact absurd (present.symm.trans absent) nofun
    · rintro index one another metadata metadata' rfl rfl
      obtain ⟨before, present, owed⟩ := theirs index another metadata' rfl
      obtain ⟨earlier, after, same, _, _, newest, bumped, _⟩ := moves.selects
      cases present.symm.trans same
      have drawn := owed.drawn
      rintro rfl
      rw [newest] at drawn
      omega
  frameApart := fun _ _ _ _ _ _ apart _ _ => apart

/-- While the newest generation of a runtime is not published, a thread is on its
way to publish it. -/
def Covered (pool : Pool Process Task) : Prop :=
  ∀ (index : Nat) (runtime : Runtime), pool.shared.runtimes[index]? = some runtime →
    runtime.registrations.first ≠ none →
    runtime.shared.metadataGeneration ≠ runtime.registrations.generation →
    ∃ id metadata, pool.threads id =
      some (.setMetadata index runtime.registrations.generation metadata)

theorem covered_advance {processId : UInt32} {pool : Pool Process Task} {task task' : Task}
    {succeeds : Bool} {process' : Process} {id : Nat}
    (valid : (identityOutline processId).Valid pool) (covered : Covered pool)
    (running : pool.threads id = some task) (orderly : Orderly task succeeds pool.shared)
    (taken : task.step processId succeeds pool.shared = some (task', process')) :
    Covered (pool.put process' id task') := by
  intro index after found live behind
  have due := valid.threads running
  rcases (Task.step_moves orderly taken).changes found
    with ⟨before, present, changes⟩ | ⟨_, metadata, rfl⟩
  · have current := valid.shared index before present
    -- The thread that publishes the newest generation leaves nothing behind.
    have publishes {metadata : CrashMetadata}
        (named : task = .setMetadata index before.registrations.generation metadata) :
        after.shared.metadataGeneration = after.registrations.generation := by
      subst named
      obtain ⟨runtime, there, owed⟩ := due index _ metadata rfl
      cases present.symm.trans there
      have pending := (owed.newest rfl).1
      cases taken
      obtain ⟨earlier, same, ⟨_, rfl⟩ | ⟨other, _⟩⟩ := modify_cases found
      · cases present.symm.trans same
        refine (Shared.setMetadata_newer ?_).1
        rw [UInt64.le_iff_toNat_le]
        omega
      · exact absurd rfl other
    have carriedOver (registrations : after.registrations.generation =
        before.registrations.generation) (first : before.registrations.first ≠ none)
        (late : before.shared.metadataGeneration ≠ before.registrations.generation) :
        ∃ other metadata, (pool.put process' id task').threads other
          = some (.setMetadata index after.registrations.generation metadata) := by
      obtain ⟨other, metadata, there⟩ := covered index before present first late
      by_cases same : other = id
      · subst same
        cases running.symm.trans there
        exact absurd (publishes rfl) behind
      · rw [registrations]
        exact ⟨other, metadata, (Pool.put_other same).trans there⟩
    cases changes with
    | kept same first shared =>
      exact carriedOver same (by rw [← first]; exact live) (by rw [← shared, ← same]; exact behind)
    | selected _ next _ =>
      obtain ⟨entry, first⟩ := Option.ne_none_iff_exists'.mp live
      refine ⟨id, entry.2, ?_⟩
      rw [next first]
      exact Pool.put_self
    | @published generation metadata named registrations shared =>
      rw [registrations] at live
      refine carriedOver (by rw [registrations]) live fun done => behind ?_
      obtain ⟨runtime, there, owed⟩ := due index generation metadata named
      cases present.symm.trans there
      have stale : generation ≤ before.shared.metadataGeneration := by
        rw [done]
        exact owed.drawn
      rw [shared, Shared.setMetadata, if_pos stale, registrations]
      exact done
  · exact absurd rfl behind

/-- Every orderly run covers what it leaves unpublished. -/
theorem covered_of_reachable {processId : UInt32} {pool : Pool Process Task}
    (reachable : (installMachine processId).Reachable Orderly pool) : Covered pool := by
  refine reachable.induct ?_ ?_
  · rintro process rfl index runtime found
    cases found
  intro pool pool' reached covered next
  have valid := (identityOutline processId).valid_of_reachable reached
  cases next with
  | enter id vacant entry =>
    intro index runtime found live behind
    obtain ⟨other, metadata, there⟩ := covered index runtime found live behind
    exact ⟨other, metadata, (Pool.put_other (Pool.ne_of_vacant vacant there)).trans there⟩
  | advance id running orderly step => exact covered_advance valid covered running orderly step.2
  | launch id childId running vacant permitted step => cases step.1
  | drift moved =>
    obtain ⟨index, sample, same⟩ := moved
    subst same
    intro other runtime found live behind
    obtain ⟨before, present, ⟨_, rfl⟩ | ⟨_, rfl⟩⟩ := modify_cases found
    · exact covered other before present live behind
    · exact covered other runtime present live behind

/-- In every orderly run, a runtime with a live registration and no publication
of metadata under way has a record that carries the metadata of the live
registration with the smallest id. -/
theorem identity_of_first {processId : UInt32} {pool : Pool Process Task}
    (reachable : (installMachine processId).Reachable Orderly pool) {index : Nat}
    {runtime : Runtime}
    (found : pool.shared.runtimes[index]? = some runtime)
    (idle : ∀ {id generation metadata}, pool.threads id ≠
      some (.setMetadata index generation metadata))
    {entry : Nat × CrashMetadata} (live : entry ∈ runtime.registrations.entries.entries)
    (smallest : ∀ other ∈ runtime.registrations.entries.entries, entry.1 ≤ other.1) :
    Carries runtime.shared.record entry.2 := by
  have first := RegistrationState.first_of_smallest live smallest
  have current := ((identityOutline processId).valid_of_reachable reachable).shared index runtime
    found
  have published : runtime.shared.metadataGeneration = runtime.registrations.generation := by
    by_contra behind
    obtain ⟨id, metadata, there⟩ := covered_of_reachable reachable index runtime found
      (by rw [first]; exact Option.some_ne_none _) behind
    exact idle there
  exact (current.carried published first).2

/-! ## Two installations -/

/-- Metadata that differs in the creation time. -/
def createdAt (time : UInt64) : CrashMetadata :=
  { appClass := "", appName := "", appVersion := "", instanceName := "", creationTimeMs := time,
    cwd := "" }

/-- The process before anything is installed. -/
def emptyBoard : Board Process Task := ⟨{ transition := false, slot := none, runtimes := [] }, []⟩

/-- A section of process 7, which launches nothing. -/
def playedStep (task : Task) (succeeds : Bool) (process : Process) :
    Option (Task × Process × Option Task) :=
  (task.step 7 succeeds process).map fun taken => (taken.1, taken.2, none)

theorem step_of_playedStep {task task' : Task} {succeeds : Bool} {process process' : Process}
    {launched : Option Task} (taken : playedStep task succeeds process =
      some (task', process', launched)) :
    launched = none ∧ task.step 7 succeeds process = some (task', process') := by
  obtain ⟨result, found, same⟩ := Option.map_eq_some_iff.mp taken
  cases same
  exact ⟨rfl, found⟩

theorem reachable_schedule {test : Task → Bool → Process → Bool}
    {allowed : Task → Bool → Process → Prop}
    (permits : ∀ {task succeeds process}, test task succeeds process = true →
      allowed task succeeds process)
    {schedule : List (Turn Task Bool)} {board : Board Process Task}
    {first second : CrashMetadata}
    (entering : Board.entering schedule = [.install first, .install second])
    (played : emptyBoard.play playedStep test schedule = some board) :
    (installMachine 7).Reachable allowed board.pool := by
  refine Board.reachable_of_play step_of_playedStep permits (fun task member => ?_)
    ⟨_, rfl, .refl⟩ played
  rw [entering, mem_pair] at member
  rcases member with rfl | rfl
  all_goals exact ⟨_, rfl⟩

/-- Nothing is being published when one guard is released and the other held. -/
theorem quiet_of_threads {board : Board Process Task}
    (threads : board.threads = [.release 0, .guarded 0 2]) {id : Nat} {generation : UInt64} :
    board.pool.threads id ≠ some (.setMetadata 0 generation metadata) := by
  intro there
  rw [Board.pool_threads, threads] at there
  have member := mem_of_getElem? there
  simp at member

/-- Metadata of another creation time is not carried. -/
theorem not_carries_createdAt {record : List UInt8} (sized : record.length = recordSize)
    {old new : UInt64} (carries : Carries record (createdAt old)) (distinct : new ≠ old) :
    ¬ Carries record (createdAt new) := by
  intro other
  have first := getTime_putMetadata (createdAt old) sized
  have second := getTime_putMetadata (createdAt new) sized
  rw [show putMetadata record (createdAt old) = record from carries] at first
  rw [show putMetadata record (createdAt new) = record from other, first] at second
  exact distinct second.symm

/-- The last registration of a runtime is removed, and another thread installs
before the runtime is released. -/
def lateInstall : List (Turn Task Bool) :=
  [.enter (.install (createdAt 1)), .step 0 true, .step 0 true, .step 0 true, .step 0 true,
   .step 0 true,
   .enter (.install (createdAt 2)), .step 1 true, .step 1 true, .step 1 true, .step 1 true,
     .step 1 true]

/-- The new registration is alone, nothing is being published, and the record
still carries the metadata of the registration that is gone. -/
theorem identity_of_removed :
    ∃ pool runtime, (installMachine 7).Reachable (fun _ _ _ => True) pool ∧
      pool.shared.runtimes[0]? = some runtime ∧
      (∀ {id generation metadata}, pool.threads id ≠ some (.setMetadata 0 generation metadata)) ∧
      runtime.registrations.entries.entries = [(2, createdAt 2)] ∧
      Carries runtime.shared.record (createdAt 1) ∧
        ¬ Carries runtime.shared.record (createdAt 2) := by
  obtain ⟨board, played, threads, runtime, found, entries, record⟩ : ∃ board,
      emptyBoard.play playedStep (fun _ _ _ => true) lateInstall = some board ∧
        board.threads = [.release 0, .guarded 0 2] ∧
      ∃ runtime, board.shared.runtimes[0]? = some runtime ∧
        runtime.registrations.entries.entries = [(2, createdAt 2)] ∧
        runtime.shared.record = initializeRecord 7 (createdAt 1) :=
    ⟨_, rfl, rfl, _, rfl, rfl, rfl⟩
  have carries : Carries runtime.shared.record (createdAt 1) := by
    rw [record]
    exact carries_putMetadata _ _
  exact ⟨board.pool, runtime, reachable_schedule (fun _ => trivial) rfl played, found,
    quiet_of_threads threads, entries, carries,
    not_carries_createdAt (by rw [record]; exact length_initializeRecord) carries (by decide)⟩

/-- The condition of an orderly run, as a test. -/
def orderly (task : Task) (_ : Bool) (process : Process) : Bool :=
  match task with
  | .register _ index => process.runtimes[index]?.all fun runtime =>
    runtime.registrations.first.isSome &&
      runtime.registrations.entries.entries.all fun entry => entry.1 < runtime.registrations.nextId
  | .guarded index id => process.runtimes[index]?.all fun runtime =>
    runtime.registrations.first.map Prod.fst != some id ||
      runtime.registrations.generation.toNat + 1 < 2 ^ 64
  | _ => true

theorem orderly_sound {task : Task} {succeeds : Bool} {process : Process}
    (passed : orderly task succeeds process = true) : Orderly task succeeds process := by
  cases task with
  | register =>
    intro runtime found
    simp only [orderly, found, Option.all_some, Bool.and_eq_true, all_eq_true,
      decide_eq_true_eq] at passed
    exact ⟨Option.isSome_iff_ne_none.mp passed.1, passed.2⟩
  | guarded =>
    intro runtime found first
    simpa [orderly, found, first] using passed
  | _ => trivial

/-- Two guards, of which the first is dropped. -/
def firstDropped : List (Turn Task Bool) :=
  [.enter (.install (createdAt 1)), .step 0 true, .step 0 true, .step 0 true, .step 0 true,
   .enter (.install (createdAt 2)), .step 1 true, .step 1 true, .step 1 true, .step 1 true,
     .step 1 true,
   .step 0 true, .step 0 true]

/-- After the first guard is dropped the record carries the second one's metadata. -/
theorem identity_of_first_second :
    ∃ pool runtime, (installMachine 7).Reachable Orderly pool ∧
      pool.shared.runtimes[0]? = some runtime ∧
      runtime.registrations.entries.entries = [(2, createdAt 2)] ∧
      Carries runtime.shared.record (createdAt 2) := by
  obtain ⟨board, played, threads, runtime, found, entries⟩ : ∃ board,
      emptyBoard.play playedStep orderly firstDropped = some board ∧
        board.threads = [.release 0, .guarded 0 2] ∧
      ∃ runtime, board.shared.runtimes[0]? = some runtime ∧
        runtime.registrations.entries.entries = [(2, createdAt 2)] :=
    ⟨_, rfl, rfl, _, rfl, rfl⟩
  have reachable : (installMachine 7).Reachable Orderly board.pool :=
    reachable_schedule orderly_sound rfl played
  refine ⟨board.pool, runtime, reachable, found, entries,
    @identity_of_first 7 board.pool reachable 0 runtime found (quiet_of_threads threads)
      (2, createdAt 2) ?_ ?_⟩
  · rw [entries]
    exact mem_singleton_self _
  · rw [entries]
    intro other member
    rw [mem_singleton.mp member]

end KernalApi.Crash

