import KernalApi.Hub.Capacity
import KernalApi.Hub.Footprint.Lifecycle

/-!
# Effects of process, hash and component sections

A section that submits an operation and works on it names the operation by a
token above the counter it started from, since tokens only grow.
-/

namespace KernalApi.Hub

open KernalApi.Std State Change

variable {before after : State} {token : OpaqueToken} {permitted : Change → Prop}
  {hub : OperationHub} {state : State} (store : Store) (budget : Nat) (process : OpaqueToken)

/-- The token counter never runs backwards. -/
theorem Effect.nextOpaqueToken_le {change : Change} (effect : Effect hub change before after) :
    before.nextOpaqueToken ≤ after.nextOpaqueToken := by
  cases effect with
  | tally same => simp [core_frame same]
  | draw value later => exact later
  | takeSlot taken => simp [takeSlot_frame taken]
  | _ => simp [closeLocked]

/-! ### Grants and spawns -/

/-- The names of the effects of granting a compiler. -/
def Change.granting (start : State) (store : Store) : Change → Prop
  | .alter token alteration => start.nextOpaqueToken < token ∧ alteration = .activate
  | change => change.creating store .granted

theorem grantCompilerWithCache_effects (spec : SpawnSpec) (deadline : Nat)
    (cache : Option (Bytes × Bool)) : Effects hub (fun change => change.granting state store ∧
        change.making (.compilerGrant { spec := some spec, deadline, cache })) state
      (grantCompilerWithCache hub state store spec deadline cache).1 := by
  unfold grantCompilerWithCache
  split
  · exact .refl
  have weaken : ∀ (value : ResourceValue) (change : Change),
      change.creating store .granted ∧ change.making value →
        change.granting state store ∧ change.making value := by
    rintro value change ⟨name, made⟩
    refine ⟨?_, made⟩
    cases change <;> first | exact name | exact False.elim name
  have created := (@createResourceValueLocked_effects hub state store grantKind processRight false
    ⟨.compilerGrant { spec := some spec, deadline, cache }, rfl, rfl⟩ .granted).weaken (weaken _)
  rcases createResourceValueLocked_cases hub state store grantKind processRight false
      ⟨.compilerGrant { spec := some spec, deadline, cache }, rfl, rfl⟩ .granted with
    ⟨after, error, equal, _⟩ | ⟨after, resource, equal, _⟩
  · rw [equal] at created ⊢
    exact created
  · rw [equal] at created ⊢
    exact created.next (.alter _ .activate) ⟨⟨Nat.lt_succ_self _, rfl⟩, trivial⟩

/-- The admission of a process observer only tidies the job lists. -/
theorem admitCompilerScalar_core (hub : OperationHub) (state : State) :
    (admitCompilerScalar hub state).1.core = state.core := by
  unfold admitCompilerScalar
  split
  · rfl
  simp only
  split
  · rfl
  split <;> rfl

/-- The names of the effects of spawning a compiler. -/
def Change.spawning (start : State) (store : Store) (grant : OpaqueToken) : Change → Prop
  | .tally | .charge => True
  | .alter token alteration => token = grant ∧ alteration = .consumeGrant
  | .amend token amendment => start.nextOpaqueToken < token ∧
      ∃ process, start.nextOpaqueToken < process ∧ amendment = .compilerSpawn process
  | .remove token => start.nextOpaqueToken < token
  | .create _ resource => resource.owner = store ∧ resource.origin = .compiler
  | change => change.submitting store (some grant) processRight .spawn

/-- The capacity test of a spawn. -/
theorem checkSpawn_within {store : Store} {grant : OpaqueToken}
    (passed : checkSpawn hub state store grant = .ok ()) :
    saturatingAdd state.transferCapacity nativeProcessOutputAllowance ≤
      hub.blobLimits.maximumSketchBytes := by
  unfold checkSpawn at passed
  split at passed
  · cases passed
  split at passed
  · cases passed
  split at passed
  · cases passed
  split at passed
  · cases passed
  split at passed
  · split_ifs at passed
    next within => exact Nat.le_of_not_lt within
  cases passed

/-- The slot a submission leaves under its token. -/
theorem Effect.submitted {operation : OperationSlot}
    (effect : Effect hub (.submit token operation) before after) :
    after.operations.get? token = some operation ∧ before.nextOpaqueToken < token ∧
      operation.terminal = none ∧ after.resources = before.resources := by
  cases effect with
  | submit => simp

/-- A creation leaves the operations alone. -/
theorem Effect.created {resource : ResourceSlot}
    (effect : Effect hub (.create token resource) before after) :
    after.operations = before.operations := by
  cases effect with
  | create resource opened room taken => simp [takeSlot_frame taken]

theorem submitCompilerSpawn_effects (grant : OpaqueToken) :
    Effects hub (fun change => change.spawning state store grant ∧
        change.making (.compilerProcess ⟨false, false, 0, maxProcessOutputBytes⟩)) state
      (submitCompilerSpawn hub state store grant).1 := by
  have polled : Effects hub (fun change => change.spawning state store grant ∧
      change.making (.compilerProcess ⟨false, false, 0, maxProcessOutputBytes⟩)) state
        (pollProcessJobs state) :=
    Effects.refl.next (.tally rfl) ⟨trivial, trivial⟩
  unfold submitCompilerSpawn
  split
  · exact .refl
  simp only
  split
  · exact polled
  rename_i passed
  have within := checkSpawn_within passed
  generalize start : pollProcessJobs state = first at passed within polled ⊢
  have counter : first.nextOpaqueToken = state.nextOpaqueToken := by
    rw [← start]
    rfl
  rcases submitLocked_cases hub first store (some grant) grantKind processRight .spawn with
    ⟨after, error, equal, effects⟩ | ⟨second, equal, _, submitted⟩
  · rw [equal]
    exact polled.trans (effects.spent ⟨trivial, trivial⟩ ⟨trivial, trivial⟩)
  rw [equal]
  simp only
  have toSecond := polled.next submitted ⟨rfl, trivial⟩
  obtain ⟨waiting, _, pending, _⟩ := submitted.submitted
  have secondCounter := submitted.nextOpaqueToken_le
  have fresh : state.nextOpaqueToken < first.nextOpaqueToken + 1 := by omega
  rcases createResourceValueLocked_cases hub second store processKind processRight false
      ⟨.compilerProcess ⟨false, false, 0, maxProcessOutputBytes⟩, rfl, rfl⟩ .compiler with
    ⟨after, error, refused, effects⟩ | ⟨third, resource, created, effect, owned, made, _, _, _,
      value⟩
  · rw [refused]
    exact (toSecond.trans (effects.spent ⟨trivial, trivial⟩ ⟨trivial, trivial⟩)).trans
      (removeOperation_effects _ ⟨fresh, trivial⟩)
  rw [created]
  have toThird := toSecond.next effect ⟨⟨owned, made⟩, value⟩
  have thirdWaiting : third.operations.get? (first.nextOpaqueToken + 1) =
      some { owner := store, resource := some grant, requiredRights := processRight,
             purpose := .spawn } := by
    rw [effect.created]
    exact waiting
  have toFourth := toThird.trans
    (amend_effects (.compilerSpawn (second.nextOpaqueToken + 1)) thirdWaiting
      (.inl pending) ⟨⟨fresh, _, by omega, rfl⟩, trivial⟩)
  -- The test was made before the submission; nothing since has raised the total.
  have heldSecond := submitted.held_le rfl
  have heldThird := effect.held_le rfl
  have heldFourth : (third.modifyOperation (first.nextOpaqueToken + 1)
      (Amendment.compilerSpawn (second.nextOpaqueToken + 1)).apply).held = third.held :=
    held_modifyOperation fun slot _ => Amendment.retained_apply _ slot
  have stillWithin : saturatingAdd (third.modifyOperation (first.nextOpaqueToken + 1)
      (Amendment.compilerSpawn (second.nextOpaqueToken + 1)).apply).transferCapacity
        (0 + 0 + nativeProcessOutputAllowance) ≤ hub.blobLimits.maximumSketchBytes := by
    have lowered := heldFourth.trans_le (heldThird.trans heldSecond)
    exact (saturatingAdd_mono (transferCapacity_mono lowered) le_rfl).trans within
  have toFifth := toFourth.next (.charge 0 0 nativeProcessOutputAllowance stillWithin)
    ⟨trivial, trivial⟩
  exact (toFifth.next (.alter grant .consumeGrant) ⟨⟨rfl, rfl⟩, trivial⟩).next (.tally rfl)
    ⟨trivial, trivial⟩

theorem publishCompiler_effects (token process : OpaqueToken)
    (started : permitted (.alter process .startSession))
    (settled : ∀ operation, operation.terminal = none →
      permitted (.settle token operation ⟨.completed, some process⟩)) :
    Effects hub permitted state (publishCompiler state token process).1 := by
  unfold publishCompiler
  split
  · exact .refl
  rename_i guards
  split
  · exact .refl
  split
  · have first : Effects hub permitted state
        (state.modifyResource process ResourceSlot.startSession) :=
      .single started (.alter process .startSession)
    have published := first.trans (terminalLocked_effects token ⟨.completed, some process⟩
      fun operation found => settled operation (by
        by_contra ended
        apply guards
        refine .inr ?_
        have present : state.operations.get? token = some operation := found
        simpa [present] using Option.isSome_iff_ne_none.mpr ended))
    split <;> exact published.ends (by assumption)
  · exact .refl

theorem abandonCompilerSpawn_effects (token : OpaqueToken) :
    Effects hub (fun change => change = .remove token ∨ ∃ slot process,
      state.operations.get? token = some slot ∧ slot.isCompilerSpawn = true ∧
      slot.createdResource = some process ∧ change.revoking process .closed)
      state (abandonCompilerSpawn state store token).1 := by
  unfold abandonCompilerSpawn
  split
  · exact .refl
  rename_i operation found
  split
  · exact .refl
  split
  · exact .refl
  rename_i spawned
  split
  · exact .refl
  rename_i process created
  have spawns : operation.isCompilerSpawn = true := by simpa using spawned
  exact (removeOperation_effects token (.inl rfl)).trans
    ((closeIfLive_effects process .closed).weaken
    fun _ name => .inr ⟨operation, process, found, spawns, created, name⟩)

/-! ### Output reads -/

/-- The names of the effects of beginning an output read. -/
def Change.beginning (start : State) (store : Store) (process : OpaqueToken) : Change → Prop
  | .tally | .charge => True
  | .alter token alteration => token = process ∧ alteration = .outputBusy true
  | .amend token amendment => start.nextOpaqueToken < token ∧
      (amendment = .bindProducer ∨ amendment = .compilerRead)
  | change => change.submitting store (some process) processRight .outputRead

/-- The state with a read of a process begun under a submitted operation. -/
def State.beginRead (state : State) (process operation : OpaqueToken) : State :=
  let state := state.modifyOperation operation Amendment.bindProducer.apply
  let state := state.modifyResource process (Alteration.outputBusy true).apply
  { state with reservedProcessOutputBytes :=
      state.reservedProcessOutputBytes + maxProcessOutputChunk }.recordTransferCapacity

/-- Everything the start of an output read can do. -/
theorem beginCompilerOutputLocked_cases (hub : OperationHub) (state : State) (store : Store)
    (process : OpaqueToken) :
    (∃ after error, beginCompilerOutputLocked hub state store process = (after, .error error) ∧
        Effects hub Change.spending state after) ∨
      ∃ value first, liveProcess state store process = .ok value ∧ value.outputBusy = false ∧
        saturatingAdd state.transferCapacity maxProcessOutputChunk ≤
          hub.blobLimits.maximumSketchBytes ∧
        Effect hub (.submit (state.nextOpaqueToken + 1)
          { owner := store, resource := some process, requiredRights := processRight,
            purpose := .outputRead }) state first ∧
        beginCompilerOutputLocked hub state store process =
          (first.beginRead process (state.nextOpaqueToken + 1),
            .ok (state.nextOpaqueToken + 1)) := by
  unfold beginCompilerOutputLocked
  split
  · exact .inl ⟨_, _, rfl, .refl⟩
  rename_i value live
  split_ifs with busy closed within
  · exact .inl ⟨_, _, rfl, .refl⟩
  · exact .inl ⟨_, _, rfl, .refl⟩
  · exact .inl ⟨_, _, rfl, .refl⟩
  rcases submitLocked_cases hub state store (some process) processKind processRight
      .outputRead with
    ⟨after, error, equal, effects⟩ | ⟨first, equal, _, submitted⟩
  · rw [equal]
    exact .inl ⟨_, _, rfl, effects⟩
  · rw [equal]
    exact .inr ⟨value, first, live, by simpa using busy, Nat.le_of_not_lt within, submitted, rfl⟩

theorem beginCompilerOutputLocked_effects :
    Effects hub (Change.beginning state store process) state
      (beginCompilerOutputLocked hub state store process).1 := by
  rcases beginCompilerOutputLocked_cases hub state store process with
    ⟨_, _, equal, effects⟩ | ⟨value, first, _, _, within, submitted, equal⟩
  · rw [equal]
    exact effects.spent trivial trivial
  rw [equal]
  obtain ⟨waiting, _, pending, _⟩ := submitted.submitted
  have begun : Effects hub (beginning state store process) state first :=
    Effects.refl.next submitted rfl
  have toBusy := (begun.trans (amend_effects .bindProducer waiting (.inl pending)
    ⟨Nat.lt_succ_self _, .inl rfl⟩)).next (.alter process (.outputBusy true)) ⟨rfl, rfl⟩
  have lowered : ((first.modifyOperation (state.nextOpaqueToken + 1)
      Amendment.bindProducer.apply).modifyResource process
        (Alteration.outputBusy true).apply).held ≤ state.held := by
    rw [held_modifyResource fun slot _ => Alteration.retained_apply _ slot,
      held_modifyOperation fun slot _ => Amendment.retained_apply _ slot]
    exact submitted.held_le rfl
  refine toBusy.next (.charge 0 maxProcessOutputChunk 0 ?_) trivial
  exact (saturatingAdd_mono (transferCapacity_mono lowered) le_rfl).trans within

/-- Admission to a process observer, as an effect. -/
theorem admitCompilerScalar_effects (tally : permitted .tally) :
    Effects hub permitted state (admitCompilerScalar hub state).1 :=
  .single tally (.tally (admitCompilerScalar_core hub state))

/-- An admission draws no token. -/
theorem admitCompilerScalar_ends {answer : Except HubError Unit} (tally : permitted .tally)
    (equal : admitCompilerScalar hub state = (after, answer)) :
    Effects hub permitted state after ∧ after.nextOpaqueToken = state.nextOpaqueToken := by
  have core : after.core = state.core := by
    have same := admitCompilerScalar_core hub state
    rwa [equal] at same
  exact ⟨(admitCompilerScalar_effects tally).ends equal, by simp [core_frame core]⟩

theorem submitCompilerOutput_effects :
    Effects hub (Change.beginning state store process) state
      (submitCompilerOutput hub state store process).1 := by
  have tally : beginning state store process .tally := trivial
  unfold submitCompilerOutput
  split
  next after error equal => exact (admitCompilerScalar_ends tally equal).1
  rename_i first equal
  obtain ⟨admitted, counter⟩ := admitCompilerScalar_ends tally equal
  have rename : beginning first store process = beginning state store process := by
    funext change
    cases change <;> simp only [beginning, counter]
  have begins := @beginCompilerOutputLocked_effects hub first store process
  rw [rename] at begins
  rcases beginCompilerOutputLocked_cases hub first store process with
    ⟨after, error, begun, _⟩ | ⟨value, second, _, _, _, submitted, begun⟩
  · rw [begun] at begins ⊢
    exact admitted.trans begins
  rw [begun] at begins ⊢
  have waiting : (second.beginRead process (first.nextOpaqueToken + 1)).operations.get?
      (first.nextOpaqueToken + 1) = some (Amendment.bindProducer.apply
        { owner := store, resource := some process, requiredRights := processRight,
          purpose := .outputRead }) := by
    simp [beginRead, submitted.submitted.1]
  exact ((admitted.trans begins).trans (amend_effects .compilerRead waiting (.inl rfl)
    ⟨by omega, .inr rfl⟩)).next (.tally rfl) tally

theorem receiveEvent_effects (token process : OpaqueToken) (event : Option ProcessOutputEvent)
    (charged : ∀ count, permitted (.alter process (.chargeOutput count))) :
    Effects hub permitted state (receiveEvent state token process event).1 := by
  unfold receiveEvent
  split
  · exact .refl
  split
  · exact .refl
  split
  · exact .refl
  split
  · split
    · exact .refl
    next data _ =>
      split
      · exact .refl
      exact .single (charged data.bytes.length) (.alter process (.chargeOutput _))
  · exact .refl

theorem collectNativeOutput_effects (token process : OpaqueToken)
    (settled : ∀ operation, state.operations.get? token = some operation →
      permitted (.settle token operation ⟨.completed, none⟩)) :
    Effects hub permitted state (collectNativeOutput state token process).1 := by
  have published : Effects hub permitted state
      (terminalLocked state token ⟨.completed, none⟩).1 := terminalLocked_effects token _ settled
  unfold collectNativeOutput
  split
  · exact .refl
  split
  · exact .refl
  split
  · exact .refl
  split <;> exact published.ends (by assumption)

theorem publishOutput_effects (token process : OpaqueToken) (event : Option ProcessOutputEvent)
    (delivered : permitted (.deliver token))
    (settled : ∀ operation, operation.isCompilerRead = true →
      permitted (.settle token operation ⟨.completed, none⟩)) :
    Effects hub permitted state (publishOutput state token process event).1 := by
  unfold publishOutput
  split
  · exact .refl
  rename_i slot found
  split
  · exact .refl
  rename_i guards
  split
  · exact .refl
  split
  · exact .refl
  rename_i reserved
  have pending : slot.terminal = none := by
    by_contra ended
    exact guards (.inr (.inr (Option.isSome_iff_ne_none.mpr ended)))
  have reads : slot.isCompilerRead = true := by
    by_contra otherwise
    exact guards (.inr (.inl (by simpa using otherwise)))
  have first := Effects.single delivered
    (@Effect.deliver hub state token slot event found pending (Nat.le_of_not_lt reserved))
  have published := first.trans (terminalLocked_effects token ⟨.completed, none⟩
    fun operation operationFound => settled operation (by
      simp only [modifyOperation_operations, SortedMap.get?_modify, if_true, found,
        Option.map_some, Option.some.injEq] at operationFound
      rw [← operationFound]
      exact reads))
  simp only
  split <;> exact published.ends (by assumption)

/-- The names of the effects of dropping an output lease. -/
def Change.droppingOutput (token process : OpaqueToken) : Change → Prop
  | .release => True
  | .remove removed => removed = token
  | .alter altered alteration => altered = process ∧ alteration = .outputBusy false
  | .revoke revoked => revoked = process
  | .settle settled operation result => result = ⟨.closed, none⟩ ∧
      (settled = token ∨ operation.resource = some process)
  | _ => False

theorem dropOutputRead_effects (token process : OpaqueToken) (wirePending completed : Bool) :
    Effects hub (Change.droppingOutput token process) state
      (dropOutputRead state token process wirePending completed) := by
  have ended : Effects hub (droppingOutput token process) state
      (if wirePending then (terminalLocked state token ⟨.closed, none⟩).1
        else state.removeOperation token) := by
    split
    · exact terminalLocked_effects token _ fun _ _ => ⟨rfl, .inl rfl⟩
    exact removeOperation_effects token rfl
  have idle := ended.next (.alter process (.outputBusy false)) ⟨rfl, rfl⟩
  have closed : ∀ middle : State, Effects hub (droppingOutput token process) middle
      (if completed then middle else (closeIfLive middle process .closed).1) := by
    intro middle
    split
    · exact .refl
    refine (closeIfLive_effects process .closed).weaken ?_
    intro change name
    cases change with
    | revoke => exact name
    | settle => exact ⟨name.1, .inr name.2⟩
    | _ => exact False.elim name
  exact (idle.trans (closed _)).next (.release (Nat.le_refl _) (Nat.sub_le _ _) (Nat.le_refl _))
    trivial

theorem collectCompilerOutput_effects (token : OpaqueToken) (capacity : Nat)
    (removed : permitted (.remove token))
    (idle : ∀ process, permitted (.alter process (.outputBusy false))) (tally : permitted .tally) :
    Effects hub permitted state (collectCompilerOutput state store token capacity).1 := by
  unfold collectCompilerOutput
  split
  · exact .refl
  split
  · exact .refl
  split
  · exact .refl
  split
  · exact .refl
  split
  · exact .refl
  · exact .refl
  next result process _ _ =>
    split
    · exact .refl
    exact ((removeOperation_effects token removed).tail (idle process)
      (.alter process (.outputBusy false))).tail tally (.tally rfl)

theorem abandonCompilerOutput_effects (token : OpaqueToken) :
    Effects hub (fun change => change = .remove token ∨ ∃ slot process,
      state.operations.get? token = some slot ∧ slot.resource = some process ∧
      change.revoking process .closed) state (abandonCompilerOutput state store token).1 := by
  unfold abandonCompilerOutput
  split
  · exact .refl
  rename_i operation found
  split
  · exact .refl
  split
  · exact .refl
  split
  · exact .refl
  rename_i process borrows
  exact (removeOperation_effects token (.inl rfl)).trans
    ((closeIfLive_effects process .closed).weaken
    fun _ name => .inr ⟨operation, process, found, borrows, name⟩)

theorem cancelCompilerOutput_effects (token : OpaqueToken) :
    Effects hub (fun change => ∃ slot process, state.operations.get? token = some slot ∧
      slot.resource = some process ∧ change.revoking process .cancelled)
      state (cancelCompilerOutput state store token).1 := by
  unfold cancelCompilerOutput
  split
  · exact .refl
  rename_i operation found
  split
  · exact .refl
  split
  · exact .refl
  split
  · exact .refl
  rename_i process borrows
  have closed : Effects hub (revoking process .cancelled) state
      (closeIfLive state process .cancelled).1 :=
    closeIfLive_effects process .cancelled
  split <;> exact (closed.ends (by assumption)).weaken
    fun _ name => ⟨operation, process, found, borrows, name⟩

/-! ### Waiting and closing -/

/-- The names of the effects of submitting a process observer. -/
def Change.observing (start : State) (store : Store) (resource : Option OpaqueToken)
    (purpose : Purpose) (amendment : Amendment) : Change → Prop
  | .tally => True
  | .amend token made => start.nextOpaqueToken < token ∧ made = amendment
  | change => change.submitting store resource processRight purpose

theorem submitCompilerWait_effects :
    Effects hub (Change.observing state store (some process) .wait .wait) state
      (submitCompilerWait hub state store process).1 := by
  have tally : observing state store (some process) .wait .wait .tally := trivial
  unfold submitCompilerWait
  split
  next after error equal => exact (admitCompilerScalar_ends tally equal).1
  rename_i first equal
  obtain ⟨admitted, counter⟩ := admitCompilerScalar_ends tally equal
  rcases submitLocked_cases hub first store (some process) processKind processRight .wait with
    ⟨after, error, refused, effects⟩ | ⟨second, accepted, _, submitted⟩
  · rw [refused]
    exact admitted.trans (effects.spent trivial trivial)
  rw [accepted]
  obtain ⟨waiting, -, pending, _⟩ := submitted.submitted
  exact ((admitted.next submitted rfl).trans (amend_effects .wait waiting (.inl pending)
    ⟨by omega, rfl⟩)).next (.tally rfl) tally

theorem publishWait_effects (token : OpaqueToken) (result : Except HubError ProcessSessionExit) :
    Effects hub (fun change => (∃ exit, change = .amend token (.exits exit)) ∨
      ∃ slot terminal, slot.terminal = none ∧ change = .settle token slot ⟨terminal, none⟩)
      state (publishWait state token result) := by
  unfold publishWait
  split
  · exact .refl
  rename_i slot found
  split
  · exact .refl
  rename_i pending
  have waiting : slot.terminal = none := by simpa using pending
  apply Effects.trans (amend_effects (.exits result.toOption) found (.inl waiting) (.inl ⟨_, rfl⟩))
  exact settleWritten_effects _ found
    (.inr ⟨(Amendment.exits result.toOption).apply slot, _, waiting, rfl⟩)

theorem collectCompilerWait_effects (token : OpaqueToken)
    (removed : permitted (.remove token)) (tally : permitted .tally) :
    Effects hub permitted state (collectCompilerWait state store token).1 := by
  unfold collectCompilerWait
  split
  · exact .refl
  split
  · exact .refl
  split
  · exact .refl
  split
  · exact .refl
  split
  · exact .refl
  exact (removeOperation_effects token removed).tail tally (.tally rfl)

/-- The names of the effects of submitting a process close. -/
def Change.closingProcess (start : State) (store : Store) (process : OpaqueToken)
    (change : Change) : Prop :=
  change.observing start store none .closeProcess .closeProcess ∨ change.revoking process .closed

theorem submitCompilerClose_effects :
    Effects hub (Change.closingProcess state store process) state
      (submitCompilerClose hub state store process).1 := by
  have tally : closingProcess state store process .tally := .inl trivial
  unfold submitCompilerClose
  split
  next after error equal => exact (admitCompilerScalar_ends tally equal).1
  rename_i first equal
  obtain ⟨admitted, counter⟩ := admitCompilerScalar_ends tally equal
  split
  · exact admitted
  rcases submitLocked_cases hub first store none processKind processRight .closeProcess with
    ⟨after, error, refused, effects⟩ | ⟨second, accepted, _, submitted⟩
  · rw [refused]
    exact admitted.trans (effects.spent (.inl trivial) (.inl trivial))
  rw [accepted]
  obtain ⟨waiting, -, pending, _⟩ := submitted.submitted
  have marked := (admitted.next submitted (.inl rfl)).trans
    (amend_effects .closeProcess waiting (.inl pending) (.inl ⟨by omega, rfl⟩))
  have closed := marked.trans ((closeResourceWithTerminalLocked_effects process
    .closed).weaken fun _ name => .inr name)
  simp only
  split
  next after error last => exact closed.ends last
  next after last => exact (closed.ends last).tail tally (.tally rfl)

/-! ### Hash states and component leases -/

/-- The names of the effects of creating a hash state. -/
def Change.hashing (start : State) (store : Store) : Change → Prop
  | .create _ resource => resource.owner = store ∧ resource.origin = .hashed
  | .amend token amendment => start.nextOpaqueToken < token ∧
      ∃ resource, start.nextOpaqueToken < resource ∧ amendment = .hashCreate resource
  | .settle token operation result => start.nextOpaqueToken < token ∧
      operation.createdResource = result.resource ∧ operation.owner = store ∧
      operation.purpose = .hash
  | .remove token => start.nextOpaqueToken < token
  | change => change.submitting store none hashRight .hash

theorem submitHashCreate_effects :
    Effects hub (fun change => change.hashing state store ∧ change.making (.blake3 [])) state
      (submitHashCreate hub state store).1 := by
  unfold submitHashCreate
  rcases submitLocked_cases hub state store none hashKind hashRight .hash with
    ⟨after, error, equal, effects⟩ | ⟨first, equal, _, submitted⟩
  · rw [equal]
    exact effects.spent ⟨trivial, trivial⟩ ⟨trivial, trivial⟩
  rw [equal]
  simp only
  obtain ⟨waiting, fresh, pending, _⟩ := submitted.submitted
  have later := submitted.nextOpaqueToken_le
  have toFirst : Effects hub (fun change => change.hashing state store ∧ change.making (.blake3 []))
      state first := Effects.refl.next submitted ⟨rfl, trivial⟩
  rcases createResourceValueLocked_cases hub first store hashKind hashRight false
      ⟨.blake3 [], rfl, rfl⟩ .hashed with
    ⟨after, error, refused, effects⟩ | ⟨second, resource, created, effect, owned, made, _, _, _,
      value⟩
  · rw [refused]
    exact (toFirst.trans (effects.spent ⟨trivial, trivial⟩ ⟨trivial, trivial⟩)).trans
      (removeOperation_effects _ ⟨fresh, trivial⟩)
  rw [created]
  simp only
  have stillWaiting : second.operations.get? (state.nextOpaqueToken + 1) =
      some { owner := store, resource := none, requiredRights := hashRight,
             purpose := .hash } := by
    rw [effect.created]
    exact waiting
  have bound := (toFirst.next effect ⟨⟨owned, made⟩, value⟩).trans
    (amend_effects (.hashCreate (first.nextOpaqueToken + 1)) stillWaiting (.inl pending)
      ⟨⟨fresh, _, by omega, rfl⟩, trivial⟩)
  have published := bound.trans (settleWritten_effects
    ⟨.completed, some (first.nextOpaqueToken + 1)⟩ stillWaiting ⟨⟨fresh, rfl, rfl, rfl⟩, trivial⟩)
  split <;> exact published.ends (by assumption)

/-- The names of the effects of updating a hash state. -/
def Change.absorbing (start : State) (store : Store) (hash : OpaqueToken) : Change → Prop
  | .alter token alteration => token = hash ∧ ∃ bytes, alteration = .absorb bytes
  | .amend token amendment => start.nextOpaqueToken < token ∧ amendment = .hashes
  | .settle token operation result => start.nextOpaqueToken < token ∧ result = ⟨.completed, none⟩ ∧
      operation.purpose = .hash
  | change => change.submitting store (some hash) hashRight .hash

theorem submitHashUpdate_effects (hash : OpaqueToken) (bytes : Bytes) :
    Effects hub (Change.absorbing state store hash) state
      (submitHashUpdate hub state store hash bytes).1 := by
  unfold submitHashUpdate
  split
  · exact .refl
  split
  · exact .refl
  rcases submitLocked_cases hub state store (some hash) hashKind hashRight .hash with
    ⟨after, error, equal, effects⟩ | ⟨first, equal, _, submitted⟩
  · rw [equal]
    exact effects.spent trivial trivial
  rw [equal]
  simp only
  obtain ⟨waiting, fresh, pending, _⟩ := submitted.submitted
  have begun : Effects hub (absorbing state store hash) state first :=
    Effects.refl.next submitted rfl
  have absorbed := (begun.next (.alter hash (.absorb bytes)) ⟨rfl, bytes, rfl⟩).trans
    (amend_effects .hashes waiting (.inl pending) ⟨fresh, rfl⟩)
  have published := absorbed.trans
    (settleWritten_effects ⟨.completed, none⟩ waiting ⟨fresh, rfl, rfl⟩)
  split <;> exact published.ends (by assumption)

theorem abandonHashOperation_effects (token : OpaqueToken) :
    Effects hub (fun change => change = .remove token ∨ ∃ slot resource,
      state.operations.get? token = some slot ∧ slot.isHashOperation = true ∧
      slot.createdResource.or slot.resource = some resource ∧ change.revoking resource .closed)
      state (abandonHashOperation state store token).1 := by
  unfold abandonHashOperation
  split
  · exact .refl
  rename_i operation found
  split
  · exact .refl
  split
  · exact .refl
  rename_i hashes
  simp only
  split
  · exact removeOperation_effects token (.inl rfl)
  rename_i resource named
  refine (removeOperation_effects token (.inl rfl)).trans ?_
  split
  · exact .refl
  have hashing : operation.isHashOperation = true := by simpa using hashes
  exact (closeResourceWithTerminalLocked_effects resource .closed).weaken
    fun _ name => .inr ⟨operation, resource, found, hashing, named, name⟩

theorem finishHash_effects (token : OpaqueToken) :
    Effects hub (Change.revoking token .closed) state (finishHash state store token).1 := by
  have closed : Effects hub (revoking token .closed) state
      (closeResourceWithTerminalLocked state token .closed).1 :=
    closeResourceWithTerminalLocked_effects token .closed
  unfold finishHash
  split
  · exact .refl
  split <;> exact closed.ends (by assumption)

/-- The names of the effects of component leases. -/
def Change.leasing : Change → Prop
  | .tally | .charge | .release => True
  | _ => False

theorem acquireLease_effects (bytes : Nat) :
    Effects hub Change.leasing state (acquireLease hub state budget bytes).1 := by
  unfold acquireLease
  split
  · exact .refl
  rename_i credits _
  split
  · exact .refl
  split
  · exact .refl
  split
  · exact .refl
  split
  · exact .refl
  rename_i within
  split
  · exact .refl
  have counted : ({ state with
      budgets := state.budgets.insert budget
        { credits with
          chargedBytes := credits.chargedBytes + bytes
          resources := credits.resources + 1 } } : State).core = state.core := rfl
  refine (Effects.refl.next (.tally counted) trivial).next (.charge bytes 0 0 ?_) trivial
  exact Nat.le_of_not_lt within

theorem finishTeardown_effects :
    Effects hub Change.leasing state (finishTeardown state budget).1 := by
  unfold finishTeardown
  split
  · exact .refl
  rename_i credits _
  split
  · exact .refl
  split
  · exact .refl
  exact (Effects.refl.next (.release (Nat.sub_le _ credits.chargedBytes) (Nat.le_refl _)
    (Nat.le_refl _)) trivial).next (.tally rfl) trivial

theorem dropLease_effects (bytes : Nat) :
    Effects hub Change.leasing state (dropLease state budget bytes).1 := by
  unfold dropLease
  split
  · exact .refl
  split
  · exact Effects.refl.next (.tally rfl) trivial
  exact (Effects.refl.next (.release (Nat.sub_le _ bytes) (Nat.le_refl _)
    (Nat.le_refl _)) trivial).next (.tally rfl) trivial

end KernalApi.Hub
