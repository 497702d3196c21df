import KernalApi.Hub.Frame

/-!
# The charged transfer capacity

`State.held` is the ordinary sum behind the saturating `transfer_capacity`. The
lemmas say which updates leave it alone and which can only lower it.
-/

namespace KernalApi.Hub

open KernalApi.Std OperationSlot State SortedMap

variable {before after state : State} {token : OpaqueToken}

namespace State

/-- Everything charged, as an ordinary sum. -/
def held (state : State) : Nat :=
  state.resources.sum (fun resource => resource.value.retained) +
    state.operations.sum OperationSlot.retained + state.nativeTransferCapacity +
    state.reservedProcessOutputBytes + state.reservedNativeProcessOutputBytes

/-- `transfer_capacity` is the sum, cut off at the largest word. -/
theorem transferCapacity_eq (state : State) : state.transferCapacity = min state.held usizeMax := by
  -- Each operation is charged with saturation, which the outer saturation absorbs.
  have absorbed : ∀ (operations : List OperationSlot) (start : Nat),
      (operations.map charged).foldl saturatingAdd start =
        (operations.map retained).foldl saturatingAdd start := by
    intro operations
    induction operations with
    | nil => exact fun _ => rfl
    | cons operation rest ih =>
      intro start
      simp only [List.map_cons, List.foldl_cons]
      rw [charged_eq, saturatingAdd_min_right, ih]
  have base : saturatingAdd (saturatingAdd state.nativeTransferCapacity
      state.reservedProcessOutputBytes) state.reservedNativeProcessOutputBytes =
        min (state.nativeTransferCapacity + state.reservedProcessOutputBytes +
          state.reservedNativeProcessOutputBytes) usizeMax := by
    rw [← saturatingAdd_min]
    rfl
  unfold transferCapacity
  simp only [List.foldl_append]
  rw [base, foldl_saturatingAdd, absorbed, foldl_saturatingAdd]
  congr 1
  simp only [held, sum]
  omega

/-- Adding to the charged capacity, with saturation. -/
theorem saturatingAdd_transferCapacity (state : State) (amount : Nat) :
    saturatingAdd state.transferCapacity amount = min (state.held + amount) usizeMax := by
  rw [transferCapacity_eq, saturatingAdd_min]

/-- Less held is less charged. -/
theorem transferCapacity_mono (less : after.held ≤ before.held) :
    after.transferCapacity ≤ before.transferCapacity := by
  rw [transferCapacity_eq, transferCapacity_eq]
  omega

end State

/-! ### What the slot updates retain -/

@[simp] theorem Amendment.retained_apply (amendment : Amendment) (slot : OperationSlot) :
    (amendment.apply slot).retained = slot.retained := by
  cases amendment <;> rfl

@[simp] theorem Alteration.retained_apply (alteration : Alteration) (slot : ResourceSlot) :
    (alteration.apply slot).value.retained = slot.value.retained := by
  cases alteration with
  | activate => rfl
  | _ =>
    simp only [Alteration.apply, ResourceSlot.consumeGrant, ResourceSlot.startSession,
      ResourceSlot.setOutputBusy, ResourceSlot.chargeOutput, ResourceSlot.absorb]
    split
    next kind => simp [kind, ResourceValue.retained]
    next => rfl

/-- A published result releases what the operation held. -/
theorem OperationSlot.retained_settle_le (operation : OperationSlot) (result : TerminalResult) :
    (operation.settle result).retained ≤ operation.retained := by
  unfold retained settle
  by_cases completed : result.terminal = .completed
  · simp [completed]
  · simp only [completed, if_false, Option.elim_none, Option.isSome_none, Bool.false_eq_true]
    omega

theorem OperationSlot.retained_shutDown_le (operation : OperationSlot) (result : TerminalResult) :
    (operation.shutDown result).retained ≤ operation.retained := by
  unfold retained shutDown
  split
  · simp
  simp only [Option.elim_none, Option.isSome_none, Bool.false_eq_true, if_false]
  omega

namespace State

/-- A slot update that keeps the capacity keeps what is held. -/
theorem held_modifyResource {update : ResourceSlot → ResourceSlot}
    (keeps : ∀ slot, state.resources.get? token = some slot →
      (update slot).value.retained = slot.value.retained) :
    (state.modifyResource token update).held = state.held := by
  have same : (state.resources.modify token update).sum (fun resource => resource.value.retained) =
      state.resources.sum (fun resource => resource.value.retained) :=
    sum_modify_eq keeps
  simp [held, same]

theorem held_modifyOperation {update : OperationSlot → OperationSlot}
    (keeps : ∀ slot, state.operations.get? token = some slot →
      (update slot).retained = slot.retained) :
    (state.modifyOperation token update).held = state.held := by
  have same : (state.operations.modify token update).sum retained =
      state.operations.sum retained := sum_modify_eq keeps
  simp [held, same]

theorem held_dropResource_le (state : State) (token : OpaqueToken) :
    (state.dropResource token).held ≤ state.held := by
  have less := sum_erase_le state.resources token fun resource => resource.value.retained
  simp only [held, dropResource_frame, dropResource_resources]
  omega

theorem held_removeOperation_le (state : State) (token : OpaqueToken) :
    (state.removeOperation token).held ≤ state.held := by
  have less := sum_erase_le state.operations token retained
  simp only [held, removeOperation_frame, removeOperation_operations]
  omega

theorem held_takeSlot {slot : Nat}
    (taken : takeSlot before = some (slot, after)) : after.held = before.held := by
  unfold takeSlot at taken
  split at taken
  · cases taken
    rfl
  split_ifs at taken
  cases taken
  rfl

/-- Settling an operation never raises what is held. -/
theorem held_settleOperation_le (state : State) (token : OpaqueToken) (operation : OperationSlot)
    (result : TerminalResult) :
    (state.settleOperation token operation result).held ≤ state.held := by
  have operations : (state.operations.modify token fun slot => slot.settle result).sum
      retained ≤ state.operations.sum retained :=
    sum_modify_le fun slot _ => slot.retained_settle_le result
  have resources : (state.settleOperation token operation result).resources.sum
      (fun resource => resource.value.retained) ≤
        state.resources.sum (fun resource => resource.value.retained) := by
    rcases settleOperation_resource_cases state token operation result with
      ⟨_, equal⟩ | ⟨created, _, _, equal⟩ | ⟨created, _, _, equal⟩
    · rw [equal]
      simp
    · rw [equal]
      exact sum_modify_le fun _ _ => Nat.le_refl _
    · rw [equal]
      simp only [dropResource_resources]
      exact sum_erase_le _ _ _
  simp only [held, settleOperation_frame, settleOperation_operations]
  omega

end State

/-- The effects that may raise what is held. -/
def Change.raising : Change → Bool
  | .stage _ _ _ | .reserve _ | .pull _ _ | .answer _ | .charge => true
  | _ => false

/-- Accepting bytes into reserved room leaves the blob's capacity alone. -/
theorem State.acceptBytes_retained {blob : OpaqueToken} {resource : ResourceSlot}
    {buffer : ByteBuffer} {closedToWriters : Bool}
    (found : state.resources.get? blob = some resource)
    (value : resource.value = .blob buffer closedToWriters) (writer : Writer) {bytes : Bytes}
    (room : buffer.bytes.length + bytes.length ≤ buffer.capacity) :
    (state.acceptBytes blob writer bytes).resources.sum
        (fun resource => resource.value.retained) =
      state.resources.sum (fun resource => resource.value.retained) := by
  rw [acceptBytes_resources found value]
  refine sum_modify_eq fun slot slotFound => ?_
  rw [found] at slotFound
  cases slotFound
  simp only [value, ResourceValue.retained, ByteBuffer.capacity_extend]
  omega

/-- Every effect but five leaves what is held or lowers it. -/
theorem Effect.held_le {hub : OperationHub} {change : Change}
    (effect : Effect hub change before after) (lowering : change.raising = false) :
    after.held ≤ before.held := by
  cases effect with
  | tally same =>
    have frame := core_frame same
    simp [held, frame]
  | draw | advance | replace => exact Nat.le_refl _
  | takeSlot taken => exact Nat.le_of_eq (held_takeSlot taken)
  | create resource opened room taken scope numbered generation fresh reserved idle wire writable =>
    rename_i middle slot
    have inserted := sum_insert_le middle.resources (before.nextOpaqueToken + 1) resource
      (fun resource => resource.value.retained)
    have same := held_takeSlot taken
    simp only [held, record] at same ⊢
    omega
  | submit store resource kind rights purpose opened room licensed wire =>
    have inserted := sum_insert_le before.operations (before.nextOpaqueToken + 1)
      { owner := store, resource, requiredRights := rights, purpose } retained
    have nothing : retained
        { owner := store, resource, requiredRights := rights, purpose } = 0 := rfl
    simp only [held, record]
    omega
  | amend amendment =>
    exact Nat.le_of_eq (held_modifyOperation fun slot _ => amendment.retained_apply slot)
  | alter token alteration =>
    exact Nat.le_of_eq (held_modifyResource fun slot _ => alteration.retained_apply slot)
  | sealing found usable =>
    refine Nat.le_of_eq (held_modifyResource fun slot _ => ?_)
    split
    next buffer closedToWriters value => simp [value, ResourceValue.retained]
    next => rfl
  | encode reserved found hidden value =>
    refine Nat.le_of_eq (held_modifyResource fun slot slotFound => ?_)
    rw [found] at slotFound
    cases slotFound
    simp [value, ResourceValue.retained]
  | overwrite position bytes found hidden value =>
    refine Nat.le_of_eq (held_modifyResource fun slot slotFound => ?_)
    rw [found] at slotFound
    cases slotFound
    simp [value, ResourceSlot.withBuffer_blob value, ResourceValue.retained, ByteBuffer.overwrite]
  | claim =>
    exact Nat.le_of_eq (held_modifyResource fun _ _ => rfl)
  | write bytes found value room =>
    have same := acceptBytes_retained found value (.direct before.nextOpaqueToken) room
    simp [held, same]
  | accept waiting pending borrows input found value room blobLimit sketchLimit =>
    rename_i token blob operation resource buffer data
    refine (held_settleOperation_le _ token operation _).trans ?_
    have cleared : (before.modifyOperation token fun slot =>
        { slot with pendingBlobWrite := none }).held ≤ before.held := by
      have less : (before.operations.modify token fun slot =>
          { slot with pendingBlobWrite := none }).sum retained ≤
          before.operations.sum retained := by
        refine sum_modify_le fun slot _ => ?_
        simp only [retained, Option.elim_none]
        omega
      simp only [held, modifyOperation]
      omega
    have stillFound : (before.modifyOperation token fun slot =>
        { slot with pendingBlobWrite := none }).resources.get? blob = some resource := found
    have same := acceptBytes_retained stillFound value (.operation token) room
    simp only [held, same] at cleared ⊢
    exact cleared
  | settle => exact held_settleOperation_le _ _ _ _
  | remove => exact held_removeOperation_le _ _
  | revoke | discard => exact held_dropResource_le _ _
  | release chunksLe outputLe processesLe =>
    simp only [held]
    omega
  | deliver event found pending reserved =>
    rename_i token operation
    have exchange := sum_modify found
      (fun slot => { slot with compilerOutput := some event }) retained
    have more : ({ operation with compilerOutput := some event } : OperationSlot).retained ≤
        operation.retained + maxProcessOutputChunk := by
      simp only [retained, Option.isSome_some, if_true]
      omega
    simp only [held, modifyOperation]
    omega
  | shutDown terminal revokes =>
    have less : (before.operations.mapValues fun _ operation =>
        operation.shutDown ⟨terminal, none⟩).sum retained ≤
          before.operations.sum retained :=
      sum_mapValues_le _ _ _ fun _ operation =>
        operation.retained_shutDown_le ⟨terminal, none⟩
    simp only [held, closeLocked, sum_empty]
    omega
  | stage | reserve | pull | answer | charge => cases lowering

end KernalApi.Hub
