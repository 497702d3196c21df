import KernalApi.Hub.OutputReads

/-!
# A busy process has one read outstanding

The sections that begin, collect, abandon or drop an output read turn the count
of one process. With the sections that disturb no process this gives `Attended`
in every reachable pool.
-/

namespace KernalApi.Hub

open KernalApi.Std Semantics State Credit Section
open Credit (weigh)

variable {objects : Multiset Credit} {token : OpaqueToken} {error : HubError}
  {wire completed : Bool} {hub : OperationHub} {change : Change} {before after : State}
  {allowed : Thread → Move → State → Prop}

/-! ### Beginning and ending an output read -/

theorem Credit.weigh_unweighed {measure : Credit → Nat} {credit : Credit}
    (nothing : measure credit = 0) (rest : Multiset Credit) :
    weigh measure ({credit} + rest) = weigh measure rest := by
  rw [weigh_add, weigh_singleton, nothing, zero_add]

variable {process : OpaqueToken}

/-- Only one process is concerned, and its count is right afterwards. -/
theorem Attended.turn {objects' : Multiset Credit}
    (attended : Attended before objects) (known : process ≤ before.nextOpaqueToken)
    (kept : Undisturbed (· = process) before after)
    (others : ∀ measure : Credit → Nat, (∀ wire, measure (.read process wire) = 0) →
      weigh measure objects' = weigh measure objects)
        (here : ∀ busy, after.busy? process = some busy →
      (after.wireReads process).card + weigh (Credit.nativeReads process) objects' =
        if busy then 1 else 0) : Attended after objects' := by
  constructor
  · intro other busy found
    by_cases same : other = process
    · subst same
      exact here busy found
    have elsewhere : ∀ wire, nativeReads other (.read process wire) = 0 := by
      intro wire
      cases wire <;> simp [nativeReads, Ne.symm same]
    rw [kept.reads same, others _ elsewhere]
    rcases kept.busy same found with present | ⟨fresh, rfl⟩
    · exact attended.busy present
    · obtain ⟨none, nothing⟩ := attended.nothing fresh
      simp [none, nothing]
  · intro other fresh
    have later := Nat.lt_of_le_of_lt kept.later fresh
    have distinct : other ≠ process := by
      rintro rfl
      exact absurd known (Nat.not_le.mpr later)
    have elsewhere : ∀ wire, readsOf other (.read process wire) = 0 := by
      simp [readsOf, distinct.symm]
    rw [kept.reads distinct, others _ elsewhere]
    exact attended.unissued later

/-- Setting the busy flag of one process. -/
theorem State.busy?_setOutputBusy (state : State) (process other : OpaqueToken) (busy : Bool) :
    (state.modifyResource process (ResourceSlot.setOutputBusy busy)).busy? other =
      if other = process then (state.busy? other).map fun _ => busy else state.busy? other := by
  simp only [busy?, modifyResource_resources, SortedMap.get?_modify]
  split
  · cases state.resources.get? other with
    | none => rfl
    | some slot =>
      simp only [Option.map_some, Option.bind_some, ResourceSlot.setOutputBusy]
      split
      next value stored => simp [stored, ResourceValue.busy?]
      rename_i other
      cases stored : slot.value with
      | compilerProcess value => exact absurd stored (other value)
      | _ => simp [ResourceValue.busy?]
  · rfl

variable {state : State}

/-- What a process offers to an observer that may use it. -/
theorem State.busy?_of_liveProcess {store : Store}
    {value : CompilerProcess} (live : liveProcess state store process = .ok value) :
    state.busy? process = some value.outputBusy := by
  unfold liveProcess at live
  split at live
  · cases live
  rename_i slot found
  split at live
  · cases live
  split at live
  next stored =>
    cases live
    simp [busy?, found, stored, ResourceValue.busy?]
  · cases live

theorem Effect.submit_issued {operation : OperationSlot}
    (effect : Effect hub (.submit token operation) before after) :
    token ≤ after.nextOpaqueToken := by
  cases effect
  exact Nat.le_refl _

section Begin

variable {state : State} {store : Store} {process operation : OpaqueToken}

/-- What the start of an output read does to the tables, its own slot apart. -/
structure BeganRead (state after : State) (process operation : OpaqueToken) : Prop where
  idle : state.busy? process = some false
  fresh : state.nextOpaqueToken < operation
  issued : operation ≤ after.nextOpaqueToken
  busy : ∀ other, after.busy? other = if other = process then some true else state.busy? other
  wire : ∀ token, token ≠ operation → after.wire? token = state.wire? token

theorem beginCompilerOutputLocked_reads
    (answered : beginCompilerOutputLocked hub state store process = (after, .ok operation)) :
    BeganRead state after process operation ∧
      ∃ slot, after.operations.get? operation = some slot ∧ slot.resource = some process ∧
        slot.isCompilerRead = false := by
  rcases beginCompilerOutputLocked_cases hub state store process with
    ⟨_, error, equal, _⟩ | ⟨value, middle, live, free, _, effect, equal⟩
  · cases equal.symm.trans answered
  cases equal.symm.trans answered
  have idle : state.busy? process = some false := free ▸ busy?_of_liveProcess live
  obtain ⟨found, fresh, _, resources⟩ := effect.submitted
  have issued := effect.submit_issued
  refine ⟨⟨idle, fresh, issued, ?_, ?_⟩, ?_⟩
  · intro other
    have set := busy?_setOutputBusy middle process other true
    rw [@busy?_of_resources _ middle state resources] at set
    refine (busy?_of_resources rfl).trans (set.trans ?_)
    split
    next here => rw [here, idle, Option.map_some]
    · rfl
  · intro token distinct
    have place := effect.operationAt token
    simp only [wire?, beginRead, recordTransferCapacity, modifyResource,
      modifyOperation_operations, SortedMap.get?_modify, if_neg distinct]
    generalize middle.operations.get? token = reached at place ⊢
    generalize state.operations.get? token = stored at place ⊢
    cases place with
    | absent => rfl
    | submit => exact absurd rfl distinct
    | stay step => cases step; rfl
  · exact ⟨_, by simp [beginRead, found]; rfl, rfl, rfl⟩

/-- A read submitted on the wire is one of its process. -/
theorem submitCompilerOutput_reads
    (answered : submitCompilerOutput hub state store process = (after, .ok operation)) :
    BeganRead state after process operation ∧ after.wire? operation = some process := by
  have frame := core_frame (admitCompilerScalar_core hub state)
  unfold submitCompilerOutput at answered
  split at answered
  · cases answered
  rename_i admitted equal
  rw [equal] at frame
  dsimp only at frame
  have resources : admitted.resources = state.resources := frame.1
  have operations : admitted.operations = state.operations := frame.2.1
  have counter : admitted.nextOpaqueToken = state.nextOpaqueToken := by simp [frame]
  split at answered
  · cases answered
  rename_i begun begins
  obtain ⟨began, slot, found, borrows, _⟩ := beginCompilerOutputLocked_reads begins
  have same : ∀ token, admitted.busy? token = state.busy? token :=
    fun token => busy?_of_resources resources
  cases answered
  refine ⟨⟨same process ▸ began.idle, counter ▸ began.fresh, began.issued, ?_, ?_⟩, ?_⟩
  · intro other
    rw [← same, ← began.busy]
    exact busy?_of_resources (by simp)
  · intro token distinct
    have before := began.wire token distinct
    simp only [wire?, operations] at before ⊢
    simpa [distinct] using before
  · simp [wire?, found, borrows]

/-- A refused read has at most used up a token. -/
theorem beginCompilerOutputLocked_refused
    (answered : beginCompilerOutputLocked hub state store process = (after, .error error)) :
    Effects hub Change.spending state after := by
  rcases beginCompilerOutputLocked_cases hub state store process with
    ⟨_, _, equal, effects⟩ | ⟨_, _, _, _, _, _, equal⟩
  · cases equal.symm.trans answered
    exact effects
  · cases equal.symm.trans answered

theorem submitCompilerOutput_refused
    (answered : submitCompilerOutput hub state store process = (after, .error error)) :
    Effects hub (fun change => change = .tally ∨ change.spending) state after := by
  have admission : Effects hub (fun change => change = .tally ∨ change.spending) state
      (admitCompilerScalar hub state).1 := admitCompilerScalar_effects (.inl rfl)
  unfold submitCompilerOutput at answered
  split at answered
  next equal =>
    cases answered
    exact admission.ends equal
  rename_i equal
  split at answered
  next refused =>
    cases answered
    exact (admission.ends equal).trans
      ((beginCompilerOutputLocked_refused refused).weaken fun _ name => .inr name)
  · cases answered

end Begin

/-- Effects that create nothing and turn no busy flag disturb no process. -/
theorem Effects.undisturbed_of_quiet {permitted : Change → Prop} (drawn : Drawn state)
    (effects : Effects hub permitted state after)
    (calm : ∀ change, permitted change → change.calm state)
    (uncreating : ∀ token resource, ¬ permitted (.create token resource))
    (plain : ∀ token busy, ¬ permitted (.alter token (.outputBusy busy))) :
    Undisturbed (fun _ => False) state after := by
  apply effects.undisturbed drawn calm
  intro process fresh raised
  have before := effects.busy_before (fun made => absurd made (uncreating _ _)) plain raised
  simp [busy?, drawn.resource_absent fresh] at before

/-- A refusal disturbs no process. -/
theorem Effects.undisturbed_of_refused (drawn : Drawn state)
    (effects : Effects hub (fun change => change = .tally ∨ change.spending) state after) :
    Undisturbed (fun _ => False) state after := by
  refine effects.undisturbed_of_quiet drawn ?_ (by rintro _ _ (⟨⟨⟩⟩ | name); exact name)
    (by rintro _ _ (⟨⟨⟩⟩ | name); exact name)
  rintro change (rfl | name)
  · trivial
  · cases change with
    | _ => trivial

/-- Wire reads change under one token only. -/
theorem State.wireReads_of_wire (wire : ∀ other, other ≠ token →
    after.wire? other = before.wire? other) (outside : before.wire? token ≠ some process)
    (still : after.wire? token ≠ some process) :
    after.wireReads process = before.wireReads process := by
  ext other
  rw [mem_wireReads, mem_wireReads]
  by_cases same : other = token
  · subst same
    simp [outside, still]
  · rw [wire other same]

section Turns

variable {state : State} {store : Store} {process operation : OpaqueToken} {rest : Multiset Credit}

theorem BeganRead.known (began : BeganRead state after process operation) (drawn : Drawn state) :
    process ≤ state.nextOpaqueToken := by
  obtain ⟨resource, present, _⟩ := Option.bind_eq_some_iff.mp began.idle
  exact drawn.resources present

theorem BeganRead.absent (began : BeganRead state after process operation) (drawn : Drawn state) :
    state.wire? operation = none := by
  simp [wire?, drawn.operation_absent began.fresh]

theorem BeganRead.undisturbed (began : BeganRead state after process operation)
    (reads : ∀ {other}, other ≠ process → after.wireReads other = state.wireReads other) :
    Undisturbed (· = process) state after := by
  refine ⟨began.fresh.le.trans began.issued, ?_, reads⟩
  intro other flag distinct present
  rw [began.busy, if_neg distinct] at present
  exact .inl present

/-- A native read begins: its lease is counted. -/
theorem Attended.beginOutput (drawn : Drawn state) (attended : Attended state rest)
    (answered : beginCompilerOutputLocked hub state store process = (after, .ok operation)) :
    Attended after ({.read process false} + rest) := by
  obtain ⟨began, slot, found, _, unread⟩ := beginCompilerOutputLocked_reads answered
  have still : after.wire? operation = none := by simp [wire?, found, unread]
  have reads : ∀ other, after.wireReads other = state.wireReads other := fun other =>
    wireReads_of_wire began.wire (by simp [began.absent drawn]) (by simp [still])
  apply attended.turn (began.known drawn) (began.undisturbed fun _ => reads _)
  · exact fun measure elsewhere => weigh_unweighed (elsewhere false) rest
  intro flag present
  rw [began.busy, if_pos rfl] at present
  cases present
  have before := attended.busy began.idle
  rw [weigh_add, weigh_singleton, reads]
  simp only [nativeReads, Bool.false_eq_true, if_false] at before ⊢
  omega

/-- A read on the wire begins: its operation is counted. -/
theorem Attended.submitOutput (drawn : Drawn state) (attended : Attended state rest)
    (answered : submitCompilerOutput hub state store process = (after, .ok operation)) :
    Attended after ({.read process true} + rest) := by
  obtain ⟨began, onWire⟩ := submitCompilerOutput_reads answered
  refine attended.turn (began.known drawn) (began.undisturbed ?_)
    (fun measure elsewhere => weigh_unweighed (elsewhere true) rest) ?_
  · intro other distinct
    apply wireReads_of_wire began.wire (by simp [began.absent drawn])
    rw [onWire]
    rintro ⟨⟩
    exact distinct rfl
  · intro flag present
    rw [began.busy, if_pos rfl] at present
    cases present
    have before := attended.busy began.idle
    have grown : after.wireReads process = insert operation (state.wireReads process) := by
      ext token
      rw [Finset.mem_insert, mem_wireReads, mem_wireReads]
      by_cases same : token = operation
      · simp [same, onWire]
      · simp [same, began.wire token same]
    have missing : operation ∉ state.wireReads process := by
      rw [mem_wireReads, began.absent drawn]
      simp
    rw [weigh_unweighed rfl, grown, Finset.card_insert_of_notMem missing]
    simp only [Bool.false_eq_true, if_false] at before
    simp only [if_true]
    omega

/-- A process with an outstanding read has been issued. -/
theorem Attended.known_of_wire (attended : Attended state rest)
    (onWire : state.wire? token = some process) : process ≤ state.nextOpaqueToken := by
  by_contra later
  have none := (attended.unissued (Nat.not_le.mp later)).1
  have member : token ∈ state.wireReads process := mem_wireReads.mpr onWire
  rw [none] at member
  exact absurd member (Finset.notMem_empty _)

/-- Removing a wire read removes it from its process. -/
theorem State.wireReads_erase
    (operations : after.operations = before.operations.erase token) (process : OpaqueToken) :
    after.wireReads process = (before.wireReads process).erase token := by
  ext other
  rw [Finset.mem_erase, mem_wireReads, mem_wireReads]
  by_cases same : other = token
  all_goals simp [wire?, operations, same]

/-- A read that leaves the wire frees its process. -/
theorem Attended.free (attended : Attended state rest) (onWire : state.wire? token = some process)
    (resources : after.resources = (state.modifyResource process (.setOutputBusy false)).resources)
    (operations : after.operations = state.operations.erase token)
    (counter : after.nextOpaqueToken = state.nextOpaqueToken) : Attended after rest := by
  have busy : ∀ other, after.busy? other =
      if other = process then (state.busy? other).map fun _ => false else state.busy? other := by
    intro other
    rw [busy?_of_resources resources, busy?_setOutputBusy]
  have reads := wireReads_erase operations
  have member : token ∈ state.wireReads process := mem_wireReads.mpr onWire
  refine attended.turn (attended.known_of_wire onWire)
    ⟨Nat.le_of_eq counter.symm, ?_, ?_⟩ (fun _ _ => rfl) ?_
  · intro other flag distinct found
    rw [busy, if_neg distinct] at found
    exact .inl found
  · intro other distinct
    rw [reads, Finset.erase_eq_of_notMem]
    rw [mem_wireReads, onWire]
    rintro ⟨⟩
    exact distinct rfl
  · intro flag found
    rw [busy, if_pos rfl] at found
    obtain ⟨prior, present, rfl⟩ := Option.map_eq_some_iff.mp found
    have before := attended.busy present
    have positive := Finset.card_pos.mpr ⟨token, member⟩
    rw [reads, Finset.card_erase_of_mem member]
    simp only [Bool.false_eq_true, if_false]
    split at before <;> omega

/-- Collecting a read keeps the processes attended. -/
theorem Attended.collectOutput {capacity : Nat} (attended : Attended state rest) :
    Attended (collectCompilerOutput state store token capacity).1 rest := by
  unfold collectCompilerOutput
  split
  · exact attended
  rename_i operation found
  split_ifs with foreign unread short
  · exact attended
  · exact attended
  · exact attended
  split
  · exact attended
  · exact attended
  next process _ borrows =>
    split
    · exact attended
    have reads : operation.isCompilerRead = true := by simpa using unread
    have onWire : state.wire? token = some process := by simp [wire?, found, reads, borrows]
    exact attended.free onWire (by simp) (by simp) (by simp)

/-- Closing a process disturbs no other one and leaves nothing to count. -/
theorem Attended.close {middle : State} {terminal : Terminal}
    (attended : Attended state rest) (drawn : Drawn middle)
    (known : process ≤ state.nextOpaqueToken) (kept : Undisturbed (· = process) state middle)
    (others : ∀ measure : Credit → Nat, (∀ wire, measure (.read process wire) = 0) →
      weigh measure objects = weigh measure rest)
    (resources : after.resources = (closeIfLive middle process terminal).1.resources)
    (operations : after.operations = (closeIfLive middle process terminal).1.operations)
    (counter : after.nextOpaqueToken = (closeIfLive middle process terminal).1.nextOpaqueToken)
    (hub : OperationHub) : Attended after objects := by
  have effects : Effects hub (Change.revoking process terminal) middle
      (closeIfLive middle process terminal).1 := closeIfLive_effects process terminal
  have closed := effects.undisturbed_of_quiet drawn ?_ (fun _ _ => id) (fun _ _ => id)
  · refine attended.turn known (kept.trans ?_) others ?_
    · refine ⟨counter ▸ closed.later, ?_, ?_⟩
      · intro other busy _ found
        exact closed.busy id (busy?_of_resources resources ▸ found)
      · intro other _
        rw [← closed.reads id]
        ext token
        simp [mem_wireReads, wire?, operations]
    · intro busy found
      rw [busy?_of_resources resources, busy?, closeIfLive_gone hub] at found
      cases found
  · intro change name
    cases change with
    | _ => trivial

/-- Taking an operation away concerns only the process it reads from. -/
theorem Undisturbed.removeOperation {except : OpaqueToken → Prop}
    (reads : ∀ other, state.wire? token = some other → except other) :
    Undisturbed except state (state.removeOperation token) := by
  refine ⟨by simp, fun _ found => .inl ?_, fun {other} distinct => ?_⟩
  · rw [← found]
    exact busy?_of_resources (by simp)
  rw [wireReads_erase (removeOperation_operations state token), Finset.erase_eq_of_notMem]
  rw [mem_wireReads]
  exact fun onWire => distinct (reads other onWire)

theorem Drawn.removeOperation (drawn : Drawn state) (token : OpaqueToken) :
    Drawn (state.removeOperation token) := by
  constructor
  · intro other resource found
    simpa using drawn.resources (by simpa using found)
  intro other operation found
  have earlier : state.operations.get? other = some operation := by
    simp only [removeOperation_operations, SortedMap.get?_erase] at found
    split_ifs at found
    exact found
  simpa using drawn.operations earlier

/-- Abandoning a read on the wire closes its process. -/
theorem Attended.abandonOutput (hub : OperationHub) (drawn : Drawn state)
    (attended : Attended state rest) :
    Attended (abandonCompilerOutput state store token).1 rest := by
  unfold abandonCompilerOutput
  split
  · exact attended
  rename_i operation found
  split_ifs with foreign unread
  · exact attended
  · exact attended
  split
  · exact attended
  next process borrows =>
    have reads : operation.isCompilerRead = true := by simpa using unread
    have onWire : state.wire? token = some process := by
      simp [wire?, found, reads, borrows]
    refine attended.close (drawn.removeOperation token) (attended.known_of_wire onWire)
      (Undisturbed.removeOperation ?_) (fun _ _ => rfl) rfl rfl rfl hub
    intro other named
    rw [onWire] at named
    cases named
    rfl

/-- Ending the operation of a dropped lease. -/
theorem Undisturbed.endLease (hub : OperationHub) (drawn : Drawn state)
    (native : (Section.dropOutput operation process wire completed).native state) :
    Undisturbed (fun _ => False) state (if wire then
      (terminalLocked state operation ⟨.closed, none⟩).1 else state.removeOperation operation) := by
  cases wire with
  | true =>
    have ended : Effects hub (fun change => ∃ slot, change =
        .settle operation slot ⟨.closed, none⟩) state
        (terminalLocked state operation ⟨.closed, none⟩).1 :=
      terminalLocked_effects operation _ fun slot _ => ⟨slot, rfl⟩
    refine ended.undisturbed_of_quiet drawn ?_ (by rintro token slot ⟨_, ⟨⟩⟩)
      (by rintro token - ⟨_, ⟨⟩⟩)
    rintro change ⟨slot, rfl⟩
    trivial
  | false =>
    have unread : state.wire? operation = none := (State.Native.unread native).wire
    exact .removeOperation fun other onWire => by simp [unread] at onWire

/-- Reservations are not counted here. -/
theorem Attended.reserving (attended : Attended state rest) (reserved : Nat) :
    Attended { state with reservedProcessOutputBytes := reserved } rest :=
  ⟨fun found => attended.busy found, fun fresh => attended.unissued fresh⟩

/-- Dropping an output lease: its process is closed or free again. -/
theorem Attended.dropOutput (hub : OperationHub) (drawn : Drawn state)
    (native : (Section.dropOutput operation process wire completed).native state)
    (attended : Attended state ({.read process wire} + rest)) :
    Attended (dropOutputRead state operation process wire completed) rest := by
  have known : process ≤ state.nextOpaqueToken := by
    by_contra later
    have nothing := (attended.unissued (Nat.not_le.mp later)).2
    rw [weigh_add] at nothing
    simp [readsOf] at nothing
  have others : ∀ measure : Credit → Nat, (∀ wire, measure (.read process wire) = 0) → _ :=
    fun measure elsewhere => (@weigh_unweighed measure _ (elsewhere wire) rest).symm
  have kept := Undisturbed.endLease hub drawn native
  have endedDrawn : Drawn (if wire then (terminalLocked state operation ⟨.closed, none⟩).1
      else state.removeOperation operation) := by
    cases wire with
    | true =>
      have ended : Effects hub (fun _ => True) state
          (terminalLocked state operation ⟨.closed, none⟩).1 :=
        terminalLocked_effects operation _ fun _ _ => trivial
      exact ended.preserves Drawn (fun _ effect drawn => drawn.effect effect) drawn
    | false => exact drawn.removeOperation operation
  unfold dropOutputRead
  simp only
  generalize (if wire then (terminalLocked state operation ⟨.closed, none⟩).1
    else state.removeOperation operation) = ended at kept endedDrawn ⊢
  generalize freed : ended.modifyResource process (ResourceSlot.setOutputBusy false) = middle
  have busy : ∀ other, middle.busy? other =
      if other = process then (ended.busy? other).map fun _ => false else ended.busy? other := by
    intro other
    rw [← freed, busy?_setOutputBusy]
  have wireReads : ∀ other, middle.wireReads other = state.wireReads other := by
    intro other
    rw [← kept.reads id]
    ext token
    simp [mem_wireReads, wire?, ← freed]
  have turned : Undisturbed (· = process) state middle := by
    refine ⟨?_, ?_, fun _ => wireReads _⟩
    · simpa [← freed] using kept.later
    · intro other flag distinct found
      rw [busy, if_neg distinct] at found
      exact kept.busy id found
  refine Attended.reserving ?_ _
  cases completed with
  | false =>
    have middleDrawn : Drawn middle := by
      have altered : Effect hub (.alter process (.outputBusy false)) ended
          (ended.modifyResource process (ResourceSlot.setOutputBusy false)) := .alter process _
      exact freed ▸ endedDrawn.effect altered
    exact attended.close middleDrawn known turned others rfl rfl rfl hub
  | true =>
    -- Only a native lease is completed; it was the one read of its process.
    have nativeLease : wire = false := by
      cases wire with
      | false => rfl
      | true => cases native
    subst nativeLease
    rw [if_pos rfl]
    apply attended.turn known turned others
    intro flag found
    rw [busy, if_pos rfl] at found
    obtain ⟨prior, present, rfl⟩ := Option.map_eq_some_iff.mp found
    rcases kept.busy id present with present | ⟨fresh, _⟩
    · have before := attended.busy present
      have reads := wireReads process
      rw [weigh_add, weigh_singleton] at before
      simp only [nativeReads, if_true] at before
      simp only [Bool.false_eq_true, if_false, reads]
      split at before <;> omega
    · exact absurd known (Nat.not_le.mpr fresh)

end Turns

/-! ### Threads -/

variable {section' : Section}

theorem Drawn.section (drawn : Drawn state) :
    Drawn (section'.run hub state).1 :=
  (run_effects section' state).preserves Drawn (fun _ effect drawn => drawn.effect effect) drawn

/-- No section puts an operation it did not submit on the wire. -/
theorem State.Native.section (native : state.Native token) :
    (section'.run hub state).1.Native token := by
  refine (run_effects section' state).preserves (fun middle => middle.Native token) ?_ native
  intro change before after name effect still
  refine ⟨still.known.trans effect.nextOpaqueToken_le, still.unread.effect effect ?_⟩
  rintro rfl
  have fresh := (writes_compilerRead name).1
  exact absurd native.known (Nat.not_le.mpr fresh)

theorem Section.native_section {section' other : Section}
    (native : other.native state) : other.native (section'.run hub state).1 := by
  cases other with
  | attach | stageWrite | stageRead | acquireOutputJob => exact State.Native.section native
  | dropOutput operation process wire completed =>
    cases wire with
    | true => exact native
    | false => exact State.Native.section native
  | _ => trivial

namespace Thread

/-- What a thread must know about the values it still uses. -/
def native (state : State) : Thread → Prop
  | .attempt section' next failed =>
    Section.native state section' ∧ next.native state ∧ failed.native state
  | .test section' yes no failed =>
    Section.native state section' ∧ yes.native state ∧ no.native state ∧ failed.native state
  | .pumpWrites next failed | .pumpTail _ next failed => next.native state ∧ failed.native state
  | .dispatchCreate _ _ _ _ fresh | .grantCreate _ _ _ fresh _ => fresh.value.busy? ≠ some true
  | .dispatchAttach _ operation _ | .openAttach _ operation _ | .commitLaunch _ operation
  | .outputLease operation _ | .outputReady operation _ => state.Native operation
  | _ => True

theorem native_section {thread : Thread} {section' : Section} {state : State}
    (native : thread.native state) : thread.native (section'.run hub state).1 := by
  induction thread with
  | attempt other next failed nextNative failedNative =>
    exact ⟨Section.native_section native.1, nextNative native.2.1, failedNative native.2.2⟩
  | test other yes no failed yesNative noNative failedNative =>
    exact ⟨Section.native_section native.1, yesNative native.2.1, noNative native.2.2.1,
      failedNative native.2.2.2⟩
  | pumpWrites next failed nextNative failedNative
  | pumpTail _ next failed nextNative failedNative =>
    exact ⟨nextNative native.1, failedNative native.2⟩
  | dispatchAttach | openAttach | commitLaunch | outputLease | outputReady =>
    exact State.Native.section native
  | _ => trivial

section Composed

variable {state : State} {next failed : Thread}

@[simp] theorem native_commitEnd (commit : Commit) (replaced : Bool) :
    (commitEnd commit replaced).native state := by
  unfold commitEnd
  split
  · trivial
  split <;> simp [native, Section.native]

@[simp] theorem native_encoderTail (sink : Encoder) (bytes : Bytes) :
    (encoderTail sink bytes).native state := by
  unfold encoderTail
  simp only
  split <;> trivial

@[simp] theorem native_encoderWrite (sink : Encoder) (bytes : Bytes) :
    (encoderWrite sink bytes).native state := by
  unfold encoderWrite
  split
  · trivial
  split <;> trivial

end Composed

end Thread

/-- A submitted operation starts off the wire. -/
theorem submitLocked_native {store : Store} {resource : Option OpaqueToken}
    {kind rights : Nat} {purpose : Purpose} {operation : OpaqueToken}
    (answered : submitLocked hub state store resource kind rights purpose =
      (after, .ok operation)) : after.Native operation := by
  rcases submitLocked_cases hub state store resource kind rights purpose with
    ⟨_, error, equal, _⟩ | ⟨reached, equal, _, effect⟩
  · rw [equal] at answered
    cases answered
  rw [equal] at answered
  cases answered
  refine ⟨effect.submit_issued, ?_⟩
  intro slot found
  rw [effect.submitted.1] at found
  cases found
  rfl

theorem beginCompilerOutputLocked_native {store : Store} {process operation : OpaqueToken}
    (answered : beginCompilerOutputLocked hub state store process = (after, .ok operation)) :
    after.Native operation := by
  obtain ⟨began, slot, found, _, unread⟩ := beginCompilerOutputLocked_reads answered
  refine ⟨began.issued, ?_⟩
  intro other present
  cases found.symm.trans present
  exact unread

/-- The operation a section hands to its thread is off the wire, unless it was
submitted there. -/
theorem Section.native_answered {operation : OpaqueToken}
    (hands : (∃ store resource kind rights purpose,
      .submit store resource kind rights purpose = section') ∨
      ∃ store process, .beginOutput store process = section')
    (answered : (section'.run hub state).2 = .token operation) :
    (section'.run hub state).1.Native operation := by
  have handed : ∀ {outcome : State × Except HubError OpaqueToken},
      (∀ {after operation}, outcome = (after, .ok operation) → after.Native operation) →
      Answer.of .token outcome.2 = .token operation → outcome.1.Native operation := by
    rintro ⟨after, - | token⟩ known ⟨⟩
    exact known rfl
  rcases hands with ⟨store, resource, kind, rights, purpose, rfl⟩ | ⟨store, process, rfl⟩
  · exact handed submitLocked_native answered
  · exact handed beginCompilerOutputLocked_native answered

namespace Thread

variable {thread : Thread} {choice : Choice} {section' : Section} {state : State}

/-- A thread's next section knows what it must. -/
theorem native_move (moves : thread.move hub choice = some (.locked section'))
    (native : thread.native state) : Section.native state section' := by
  unfold move at moves
  split at moves
  -- Most sections ask for nothing; the rest ask for what the program point asserts.
  all_goals first
    | (cases moves; done)
    | (cases moves; exact native.1)
    | (cases moves; exact native)
    | (split at moves <;> cases moves <;> trivial)
    | (cases moves; simp [Section.native, ResourceValue.busy?])

attribute [local simp] resumeLocked resumeOutside Thread.native Section.native encoderFailed
  pumpBoth pumpQuietly closing dropChunk finishing endJob dropEncoder dropLease waitEnd waitPublish

/-- A thread that launches nothing. -/
theorem native_alone (native : thread.native state) :
    (thread, (none : Option Thread)).1.native state ∧
      ∀ child ∈ (thread, (none : Option Thread)).2, child.native state :=
  ⟨native, fun _ member => by cases member⟩

/-- A thread goes on knowing what it must. -/
theorem native_resumeLocked (moves : thread.move hub choice = some (.locked section'))
    {answer : Answer} (answered : answer = (section'.run hub state).2)
    (native : thread.native (section'.run hub state).1) :
    (thread.resumeLocked hub choice answer).1.native (section'.run hub state).1 ∧
      ∀ child ∈ (thread.resumeLocked hub choice answer).2,
        child.native (section'.run hub state).1 := by
  cases thread with
  | returned | commitWrite | commitDone => cases moves
  | attempt =>
    simp only [resumeLocked]
    split <;> simp [native.2]
  | test section' yes no failed =>
    obtain ⟨_, yesNative, noNative, failedNative⟩ := native
    cases answer with
    | flag value => cases value <;> simp [yesNative, noNative]
    | _ => exact native_alone failedNative
  | pumpWrites next failed => cases answer <;> simp [native.1, native.2]
  | pumpTail progressed next failed =>
    cases answer with
    | flag =>
      simp only [resumeLocked]
      split <;> simp [native.1, native.2]
    | _ => exact native_alone native.2
  | dispatchSubmit dispatch =>
    cases moves
    cases answer with
    | token =>
      have submitted := native_answered (.inl ⟨_, _, _, _, _, rfl⟩) answered.symm
      simp only [resumeLocked]
      split <;> simp [submitted]
    | _ =>
      simp only [resumeLocked]
      split <;> simp
  | openSubmit store grant resource =>
    cases answer with
    | token operation =>
      have submitted : (section'.run hub state).1.Native operation := by
        cases grant <;> cases moves <;>
          exact native_answered (.inl ⟨_, _, _, _, _, rfl⟩) answered.symm
      simp [submitted]
    | _ => simp
  | writeSubmit | readSubmit | commitSubmit | outputBegin =>
    cases moves
    cases answer with
    | token => simpa using native_answered (by simp) answered.symm
    | _ => exact native_alone trivial
  | outputLease operation =>
    have known : (run hub state section').1.Native operation := native
    simp only [resumeLocked]
    split <;> simp [known]
  | outputReady operation =>
    have known : (run hub state section').1.Native operation := native
    simp [known]
  | outputJob operation process =>
    cases answer with
    | unreceived => simp
    | _ => cases choice <;> exact native_alone trivial
  | sealSubmit | grantCreate | chunkRead | commitRead | outputSubmit | waitSubmit | closeSubmit
  | spawnSubmit =>
    cases answer with
    | token | chunk | pair => simp
    | _ => exact native_alone trivial
  | externalSubmit | dispatchCreate | openCreate =>
    cases answer <;> exact native_alone trivial
  | clockSubmit =>
    cases answer with
    | token => exact native_alone trivial
    | _ => exact native_alone ⟨trivial, trivial, trivial⟩
  | arming | completeJob | lease =>
    cases answer with
    | flag value => cases value <;> simp
    | _ => exact native_alone trivial
  | suspending operation store stream =>
    cases answer with
    | deferred completion => cases completion <;> cases stream <;> simp
    | _ => exact native_alone trivial
  | encoderCreate store operation maximumBytes =>
    cases operation <;> cases answer <;> exact native_alone trivial
  | supervise operation process =>
    cases choice with
    | proceed =>
      simp only [resumeLocked]
      split <;> simp
    | finish terminal => cases terminal <;> simp
    | _ => cases moves
  | commitTemporary commit tries =>
    simp only [resumeLocked]
    split_ifs <;> exact native_alone trivial
  | opening | waiting => cases choice <;> simp
  | encoder | encoderFill => exact native_alone trivial
  | external | clock | chunk | idleTimer | closeJob | commitReplace => simp
  | _ =>
    simp only [resumeLocked]
    split <;> simp

theorem native_resumeOutside (hub : OperationHub) (choice : Choice) (native : thread.native state) :
    (thread.resumeOutside hub choice).1.native state ∧
      ∀ child ∈ (thread.resumeOutside hub choice).2, child.native state := by
  cases thread with
  | external store operation =>
    cases choice with
    | _ => simp
  | outputReady operation =>
    have known : state.Native operation := native
    simp [known]
  | encoder sink =>
    cases choice with
    | seek | publish =>
      simp only [resumeOutside]
      split <;> simp
    | _ => simp
  | encoderFill sink bytes =>
    simp only [resumeOutside]
    split <;> simp
  | commitWrite =>
    simp only [resumeOutside]
    split_ifs <;> simp
  | clock | waitJob | waiting | closeJob | returned | idleTimer | cleaning | commitDone
  | encoderOverwrite | encoderZeros | encoderAppend | commitReplace | supervise | supervising =>
    simp
  | _ => exact ⟨native, by simp⟩

end Thread

/-- Calls start without an operation, and what they create is idle. -/
theorem Call.native (call : Call) (state : State) : (call.thread hub).native state := by
  all_goals
    simp only [Call.thread, Call.once, Call.thenBoth, Call.thenWrites]
    repeat' split
  all_goals simp [Thread.native, Section.native, ResourceValue.busy?, Thread.pumpBoth]

/-- In every reachable pool wire reads carry no other mark, and the threads know what they must
about their values. -/
def natives (hub : OperationHub) (allowed : Thread → Move → State → Prop) :
    (machine hub).Outline allowed where
  Shared state := Drawn state ∧ state.Marked
  Local thread state := thread.native state
  Apart _ _ _ := True
  symmetric _ := trivial
  initial := by
    rintro state ⟨drawn, _, rfl⟩
    exact ⟨.initial drawn, fun found => by simp at found⟩
  entryLocal := by
    rintro thread state ⟨call, rfl⟩ _
    exact call.native state
  entryApart _ _ _ := trivial
  driftShared := by
    rintro state state' ⟨drawn, marked⟩ rfl
    have marks : (Section.drawToken.run hub state).1.Marked :=
      marked.section drawn (show Section.native state .drawToken from trivial)
    have draws : Drawn (Section.drawToken.run hub state).1 := drawn.section
    exact ⟨draws, marks⟩
  driftLocal := by
    rintro thread state state' _ native rfl
    have drawn : thread.native (Section.drawToken.run hub state).1 := Thread.native_section native
    exact drawn
  driftApart _ _ _ := trivial
  own := by
    rintro thread move state thread' state' launched ⟨drawn, marked⟩ native _ ⟨choice, _, step⟩
    rcases Thread.step_cases step with ⟨_, rfl, resumed⟩ | ⟨section', moves, rfl, resumed⟩
    · have resume := Thread.native_resumeOutside hub choice native
      rw [resumed] at resume
      exact ⟨⟨drawn, marked⟩, resume.1, fun child member => ⟨resume.2 child member, trivial⟩⟩
    have resume := Thread.native_resumeLocked moves rfl (Thread.native_section native)
    rw [resumed] at resume
    exact ⟨⟨drawn.section, marked.section drawn (Thread.native_move moves native)⟩, resume.1,
      fun child member => ⟨resume.2 child member, trivial⟩⟩
  frame := by
    rintro thread move state thread' state' launched other _ _ native _ _ ⟨choice, _, step⟩
    refine ⟨?_, trivial, fun _ _ => trivial⟩
    rcases Thread.step_cases step with ⟨_, rfl, _⟩ | ⟨section', _, rfl, _⟩
    · exact native
    · exact Thread.native_section native
  frameApart _ _ _ _ _ _ _ _ _ := trivial

/-! ### Runs -/

/-- Sections without output reads hand out no read, and take back none of a
native caller. -/
theorem Section.readless (plain : section'.outputs = false) (answer : Answer)
    (process : OpaqueToken) : weigh (Credit.readsOf process) (section'.takes answer) = 0 ∧
      weigh (Credit.nativeReads process) (section'.takes answer) = 0 ∧
      weigh (Credit.nativeReads process) (section'.gives answer) = 0 := by
  cases section' with
  | beginOutput | submitOutput | dropOutput => cases plain
  | readChunk | spawn =>
    cases answer <;> simp [takes, gives, readsOf, nativeReads]
  | acquireLease | publishOutput | releaseNativeOutput =>
    simp only [takes, gives]
    split <;> simp [readsOf, nativeReads]
  | _ => exact ⟨rfl, rfl, rfl⟩

theorem Thread.forfeits_of_outputs (outputs : section'.outputs = true)
    (state : State) (thread : Thread) : thread.forfeits state (.locked section') = 0 := by
  cases section' with
  | beginOutput | submitOutput | collectOutput | abandonOutput | dropOutput =>
    cases thread <;> rfl
  | _ => cases outputs

/-- A section that may begin a read either does or disturbs no process. -/
theorem Attended.begins (hub : OperationHub) {held kept rest : Multiset Credit}
    {outcome : State × Except HubError OpaqueToken} (attended : Attended state (held + rest))
    (takes : Answer → Multiset Credit) (account : held + takes (.of .token outcome.2) = kept + 0)
    (failed : ∀ error, takes (.failed error) = 0)
    (given : ∀ token, takes (.token token) = {.read process wire})
    (drawn : Drawn state) (refused : ∀ {after error}, outcome = (after, .error error) →
      Effects hub (fun change => change = .tally ∨ change.spending) state after)
    (begun : ∀ {after operation}, outcome = (after, .ok operation) →
      Attended after ({.read process wire} + (held + rest))) : Attended outcome.1
        (kept + rest) := by
  obtain ⟨after, error | operation⟩ := outcome
  · have same : held = kept := by simpa [Answer.of, failed] using account
    rw [← same]
    exact attended.undisturbed ((refused rfl).undisturbed_of_refused drawn) (fun _ => rfl)
      (fun _ => Nat.le_refl _)
  · have grown : held + {.read process wire} = kept := by simpa [Answer.of, given] using account
    rw [← grown, add_comm held, add_assoc]
    exact begun rfl

/-- One step of the hub keeps every process attended to. -/
theorem Attended.step {thread thread' : Thread} {move : Move} {state state' : State}
    {launched : Option Thread} {rest : Multiset Credit} (even : thread.even) (drawn : Drawn state)
    (marked : state.Marked) (native : thread.native state)
    (step : (machine hub).Step thread move state thread' state' launched)
    (attended : Attended state (thread.credits + rest)) :
    Attended state' (thread'.credits + launched.elim 0 Thread.credits + rest) := by
  obtain ⟨account, _⟩ := Thread.step_balance even step
  have forfeits : ∀ measure : Credit → Nat, measure .job = 0 →
      weigh measure (thread.forfeits state move) = 0 :=
    fun _ jobless => Thread.forfeits_weigh state thread move jobless
  obtain ⟨choice, moves, step⟩ := step
  generalize thread'.credits + launched.elim 0 Thread.credits = kept at account ⊢
  have balance : ∀ measure : Credit → Nat, measure .job = 0 →
      weigh measure (thread.credits + rest) + weigh measure (move.takes hub state) =
        weigh measure (kept + rest) + weigh measure (move.gives hub state) := by
    intro measure jobless
    have weighed := congrArg (weigh measure) account
    simp only [weigh_add, forfeits measure jobless] at weighed ⊢
    omega
  rcases Thread.step_cases step with ⟨outside, rfl, _⟩ | ⟨section', locked, rfl, _⟩
  · cases moves.symm.trans outside
    refine attended.undisturbed (.refl _) (fun process => ?_) (fun process => ?_)
    · exact (balance (nativeReads process) rfl).symm
    · exact Nat.le_of_eq (balance (readsOf process) rfl).symm
  · cases moves.symm.trans locked
    have known := Thread.native_move locked native
    by_cases plain : section'.outputs = false
    · refine attended.undisturbed (Section.undisturbed drawn marked plain known)
        (fun process => ?_) (fun process => ?_)
      · have equal := balance (nativeReads process) rfl
        obtain ⟨_, took, gave⟩ := section'.readless plain (section'.run hub state).2 process
        simp only [Move.takes, Move.gives, took, gave] at equal
        exact equal.symm
      · have equal := balance (readsOf process) rfl
        obtain ⟨took, _⟩ := section'.readless plain (section'.run hub state).2 process
        simp only [Move.takes] at equal
        omega
    · have outputs : section'.outputs = true := by simpa using plain
      rw [thread.forfeits_of_outputs outputs, add_zero] at account
      have same : section'.takes (section'.run hub state).2 = 0 →
          gives section' (section'.run hub state).2 = 0 → thread.credits = kept := by
        intro took gave
        simpa [Move.takes, Move.gives, took, gave] using account
      cases section' with
      | beginOutput store process =>
        refine attended.begins hub (takes (.beginOutput store process)) account (fun _ => rfl)
          (fun _ => rfl) drawn (fun answered => ?_) (attended.beginOutput drawn)
        exact (beginCompilerOutputLocked_refused answered).weaken fun _ name => .inr name
      | submitOutput store process =>
        exact attended.begins hub (takes (.submitOutput store process)) account (fun _ => rfl)
          (fun _ => rfl) drawn submitCompilerOutput_refused (attended.submitOutput drawn)
      | collectOutput =>
        rw [← same rfl rfl]
        exact attended.collectOutput
      | abandonOutput =>
        rw [← same rfl rfl]
        exact attended.abandonOutput hub drawn
      | dropOutput operation process wire =>
        have held : thread.credits = {.read process wire} + kept := by
          rw [add_comm]
          simpa [Move.takes, Move.gives, takes, gives] using account
        rw [held, add_assoc] at attended
        exact attended.dropOutput hub drawn known
      | _ => cases outputs

/-- In every reachable pool a live process is busy exactly while it has one
output read outstanding. -/
theorem Attended.of_reachable {pool : Pool State Thread}
    (reachable : (machine hub).Reachable allowed pool) :
    Attended pool.shared (pool.holdings Thread.credits) := by
  refine @Machine.Reachable.accounts _ _ _ _ _ _ _ Thread.credits Attended _ ?_ ?_ ?_ ?_ reachable
  · rintro state ⟨drawn, _, rfl⟩
    refine ⟨fun found => by simp [busy?] at found, fun _ => ⟨?_, rfl⟩⟩
    ext token
    simp [mem_wireReads, wire?]
  · rintro thread ⟨call, rfl⟩
    exact call.even.2
  · rintro state state' total rfl attended
    have drawn : Effects hub (· = .draw) state state.drift :=
      @drift_effects (· = .draw) hub rfl state
    have kept : Undisturbed (fun _ => False) state state.drift := by
      apply drawn.relates (Undisturbed fun _ => False) .refl .trans
      rintro change before after rfl effect
      cases effect with
      | draw value later => exact ⟨later, fun _ found => .inl found, fun _ => rfl⟩
    exact attended.undisturbed kept (fun _ => rfl) (fun _ => Nat.le_refl _)
  · intro pool id thread move thread' state' launched rest reached running _ step attended
    have valid := (natives hub allowed).valid_of_reachable reached
    exact attended.step (Thread.even_of_reachable reached running) valid.shared.1 valid.shared.2
      (valid.threads running) step

end KernalApi.Hub
