import KernalApi.Hub.Footprint.Table

/-!
# Effects of transfers

What a granted reservation, a visit of a pump pass, a direct write and a native
read do to the state.
-/

namespace KernalApi.Hub

open KernalApi.Std State ByteBuffer

variable {buffer : ByteBuffer} {additional count : Nat} {blob token other : OpaqueToken}
  {permitted : Change → Prop} {closedToWriters : Bool} {store : Store} {operation : OperationSlot}
  {outcome : State × Except HubError Bool} {hub : OperationHub} {state : State}

/-- What a granted reservation looks like. -/
theorem tryReserveExact_granted {grown : ByteBuffer} {after : State}
    (granted : tryReserveExact hub state buffer additional = some (after, grown)) :
    after.core = state.core ∧ grown.bytes = buffer.bytes ∧
      max buffer.capacity (buffer.bytes.length + additional) ≤ grown.capacity ∧
      (hub.allocator.Exact →
        grown.capacity = max buffer.capacity (buffer.bytes.length + additional)) := by
  unfold tryReserveExact at granted
  split at granted
  next fits =>
    obtain ⟨rfl, rfl⟩ := granted
    have largest : max buffer.capacity (buffer.bytes.length + additional) = buffer.capacity :=
      Nat.max_eq_left fits
    exact ⟨rfl, rfl, Nat.le_of_eq largest, fun _ => largest.symm⟩
  next short =>
    split at granted
    · cases granted
    rename_i amount answer
    obtain ⟨rfl, rfl⟩ := granted
    have enough := hub.allocator.reserveExact_le answer
    refine ⟨rfl, rfl, ?_, ?_⟩
    · simp only [capacity_grow]
      omega
    · intro exactly
      rw [capacity_grow, exactly.reserveExact answer]

/-- A granted reservation: the buffer it grows, the tests that let it, and the
grown buffer. Only the allocation counter moves before the growth. -/
structure Reservation (hub : OperationHub) (state : State) (blob : OpaqueToken)
    (additional maximum : Nat) where
  middle : State
  resource : ResourceSlot
  buffer : ByteBuffer
  closedToWriters : Bool
  grown : ByteBuffer
  core : middle.core = state.core
  found : state.resources.get? blob = some resource
  value : resource.value = .blob buffer closedToWriters
  blobsWithin : saturatingAdd state.blobCapacity
    (buffer.bytes.length + additional - buffer.capacity) ≤ maximum
  within : saturatingAdd state.transferCapacity
    (buffer.bytes.length + additional - buffer.capacity) ≤ hub.blobLimits.writeTransferBytes
  bytes : grown.bytes = buffer.bytes
  covers : max buffer.capacity (buffer.bytes.length + additional) ≤ grown.capacity
  exactly : hub.allocator.Exact →
    grown.capacity = max buffer.capacity (buffer.bytes.length + additional)

/-- The state after the growth. -/
def Reservation.after {maximum : Nat}
    (reservation : Reservation hub state blob additional maximum) : State :=
  (reservation.middle.modifyResource blob fun slot =>
    slot.withBuffer reservation.grown).recordTransferCapacity

/-- Everything `reserve_blob_capacity` can do: refuse with the state unchanged,
fail to allocate, or grow the buffer. -/
theorem reserveBlobCapacity_cases (hub : OperationHub) (state : State) (blob : OpaqueToken)
    (additional maximum : Nat) :
    (∃ error, reserveBlobCapacity hub state blob additional maximum
        hub.blobLimits.writeTransferBytes = (state, .error error)) ∨
      reserveBlobCapacity hub state blob additional maximum hub.blobLimits.writeTransferBytes =
        ({ state with allocations := state.allocations + 1 }, .error .exhausted) ∨
      ∃ reservation : Reservation hub state blob additional maximum,
        reserveBlobCapacity hub state blob additional maximum hub.blobLimits.writeTransferBytes =
          (reservation.after, .ok ()) := by
  unfold reserveBlobCapacity
  split
  · exact .inl ⟨_, rfl⟩
  rename_i resource found
  split
  next buffer closedToWriters value =>
    split
    · exact .inl ⟨_, rfl⟩
    simp only
    split
    · exact .inl ⟨_, rfl⟩
    rename_i within
    split
    · exact .inr (.inl rfl)
    rename_i middle grown granted
    obtain ⟨core, bytes, covers, exactly⟩ := tryReserveExact_granted granted
    have blobs := Nat.le_of_not_lt fun beyond => within (.inl beyond)
    have transfers := Nat.le_of_not_lt fun beyond => within (.inr beyond)
    exact .inr (.inr ⟨⟨middle, resource, buffer, closedToWriters, grown, core, found, value,
      blobs, transfers, bytes, covers, exactly⟩, rfl⟩)
  · exact .inl ⟨_, rfl⟩

variable {maximum : Nat} (reservation : Reservation hub state blob additional maximum)

/-- A granted reservation is a count and a growth. -/
theorem Reservation.effects (tally : permitted .tally) (reserve : permitted (.reserve blob)) :
    Effects hub permitted state reservation.after := by
  have frame := core_frame reservation.core
  refine (Effects.single tally (.tally reservation.core)).tail reserve ?_
  refine .reserve additional ?_ reservation.value ?_ reservation.bytes reservation.covers
    reservation.exactly
  · rw [frame.1]
    exact reservation.found
  · simp only [State.transferCapacity, frame]
    exact reservation.within

variable {resource : ResourceSlot}

/-- A reservation is about the buffer the blob holds. -/
theorem Reservation.agrees (found : state.resources.get? blob = some resource)
    (value : resource.value = .blob buffer closedToWriters) :
    reservation.buffer = buffer ∧ reservation.closedToWriters = closedToWriters := by
  have sameResource : reservation.resource = resource :=
    Option.some.inj (reservation.found.symm.trans found)
  have sameValue : ResourceValue.blob reservation.buffer reservation.closedToWriters =
      .blob buffer closedToWriters := by
    rw [← reservation.value, sameResource, value]
  exact ResourceValue.blob.inj sameValue

/-- The grown buffer is what the blob holds after a reservation. -/
theorem Reservation.after_found :
    reservation.after.resources.get? blob = some { reservation.resource
      with value := .blob reservation.grown reservation.closedToWriters } := by
  have frame := core_frame reservation.core
  have found : reservation.middle.resources.get? blob = some reservation.resource := by
    rw [frame.1]
    exact reservation.found
  simp [Reservation.after, found, ResourceSlot.withBuffer_blob reservation.value]

/-- A reservation leaves the operations and the byte ledger alone. -/
theorem Reservation.after_frame :
    reservation.after.operations = state.operations ∧
      reservation.after.bufferedBlobBytes = state.bufferedBlobBytes := by
  have frame := core_frame reservation.core
  simp [Reservation.after, frame]

/-- Compare an ordinary sum with a limit that is not the largest word. -/
theorem add_le_of_saturating {limit left right : Nat} (representable : limit < usizeMax)
    (within : ¬ limit < saturatingAdd left right) : left + right ≤ limit := by
  unfold saturatingAdd at within
  omega

/-- What a passed write check establishes. -/
theorem blobWriteCheck_ok {unpublished : Bool}
    (passed : blobWriteCheck hub state store blob count unpublished = .ok ()) :
    ∃ resource buffer, state.resources.get? blob = some resource ∧
      resource.value = .blob buffer false ∧
      buffer.bytes.length + count ≤ hub.blobLimits.maximumBlobBytes ∧
      state.bufferedBlobBytes + count ≤ hub.blobLimits.maximumSketchBytes := by
  have sketchFits := hub.blobLimits.maximumSketchBytes_lt
  have blobFits : hub.blobLimits.maximumBlobBytes < usizeMax :=
    Nat.lt_of_le_of_lt hub.blobLimits.blob_le_sketch sketchFits
  unfold blobWriteCheck at passed
  split at passed
  · cases passed
  split at passed
  · cases passed
  rename_i sketchWithin
  split at passed
  · cases passed
  rename_i resource found
  split at passed
  · cases passed
  split at passed
  · cases passed
  split at passed
  next buffer closedToWriters value =>
    split_ifs at passed with openToWriters blobWithin
    have unsealed : closedToWriters = false := by simpa using openToWriters
    subst unsealed
    exact ⟨resource, buffer, found, value, add_le_of_saturating blobFits blobWithin,
      add_le_of_saturating sketchFits sketchWithin⟩
  · cases passed

/-- A direct write: nothing, or a reservation and the write. -/
theorem blobWriteInner_effects (store : Store) (blob : OpaqueToken) (bytes : Bytes)
    (unpublished : Bool) (tally : permitted .tally)
    (reserve : permitted (.reserve blob)) (write : permitted (.write blob bytes)) :
    Effects hub permitted state (blobWriteInner hub state store blob bytes unpublished).1 := by
  unfold blobWriteInner
  split
  · exact .refl
  rename_i passed
  obtain ⟨resource, buffer, found, value, blobLimit, sketchLimit⟩ := blobWriteCheck_ok passed
  rcases reserveBlobCapacity_cases hub state blob bytes.length
      hub.blobLimits.maximumSketchBytes with ⟨error, equal⟩ | equal | ⟨reservation, equal⟩
  · rw [equal]
    exact .refl
  · rw [equal]
    exact .single tally (.tally rfl)
  rw [equal]
  obtain ⟨sameBuffer, unsealed⟩ := reservation.agrees found value
  have after := reservation.after_found
  rw [unsealed] at after
  have frame := reservation.after_frame
  have covers := reservation.covers
  have length : reservation.grown.bytes.length = buffer.bytes.length := by
    rw [reservation.bytes, sameBuffer]
  refine (reservation.effects tally reserve).tail write (.write bytes after rfl ?_ ?_ ?_)
  · rw [sameBuffer] at covers
    omega
  · omega
  · rw [frame.2]
    exact sketchLimit

/-- The names of the effects of a write pass. -/
def Change.driving : Change → Prop
  | .tally | .reserve _ | .accept _ => True
  | .settle _ operation result =>
    operation.pendingBlobWrite.isSome = true ∧ result.terminal ≠ .completed ∧ result.resource = none
  | _ => False

/-- The names of the effects of a read pass. -/
def Change.answering : Change → Prop
  | .tally | .answer _ => True
  | _ => False

/-- What an accepting admission establishes. -/
theorem writeAdmission_accept {resource : OpaqueToken}
    (accepted : writeAdmission hub state resource count = .accept) :
    ∃ slot buffer, state.resources.get? resource = some slot ∧ slot.value = .blob buffer false ∧
      buffer.bytes.length + count ≤ hub.blobLimits.maximumBlobBytes ∧
      state.bufferedBlobBytes + count ≤ hub.blobLimits.maximumSketchBytes := by
  have sketchFits := hub.blobLimits.maximumSketchBytes_lt
  have blobFits : hub.blobLimits.maximumBlobBytes < usizeMax :=
    Nat.lt_of_le_of_lt hub.blobLimits.blob_le_sketch sketchFits
  unfold writeAdmission at accepted
  split at accepted
  · cases accepted
  next buffer closedToWriters value =>
    obtain ⟨slot, found, slotValue⟩ := Option.map_eq_some_iff.mp value
    split at accepted
    · cases accepted
    rename_i openToWriters
    have unsealed : closedToWriters = false := by simpa using openToWriters
    subst unsealed
    split_ifs at accepted with within
    refine ⟨slot, buffer, found, slotValue, ?_, ?_⟩
    · exact add_le_of_saturating blobFits fun beyond => within (.inl beyond)
    · exact add_le_of_saturating sketchFits fun beyond => within (.inr beyond)
  · cases accepted

/-- A finishing admission never completes. -/
theorem writeAdmission_finish {resource : OpaqueToken} {terminal : Terminal}
    (finished : writeAdmission hub state resource count = .finish terminal) :
    terminal ≠ .completed := by
  unfold writeAdmission at finished
  split at finished
  · cases finished
    decide
  · split at finished
    · cases finished
      decide
    · split at finished <;> cases finished
  · cases finished
    decide

/-- On a pending operation `terminal_locked` publishes. -/
theorem terminalLocked_pending
    (found : state.operations.get? token = some operation) (pending : operation.terminal = none)
    (result : TerminalResult) :
    terminalLocked state token result = (state.settleOperation token operation result,
      .ok true) := by
  rcases terminalLocked_cases state token result with
    ⟨absent, _⟩ | ⟨other, otherFound, ended, _, _⟩ | ⟨other, otherFound, _, equal⟩
  · rw [found] at absent
    cases absent
  · rw [found] at otherFound
    cases otherFound
    exact absurd pending ended
  · rw [found] at otherFound
    cases otherFound
    exact equal

/-- What one visit of a pass may do: effects of the pass, none of them to another operation. -/
structure Visit (hub : OperationHub) (permitted : Change → Prop) (state : State)
    (token : OpaqueToken) (after : State) : Prop where
  effects : Effects hub permitted state after
  others : ∀ {other}, other ≠ token → after.operations.get? other = state.operations.get? other

theorem Visit.refl : Visit hub permitted state token state :=
  ⟨.refl, fun _ => rfl⟩

/-- A visit of the write pass skips the write, ends it, or accepts its bytes. -/
theorem driveBlobWrite_visit
    (waiting : state.operations.get? token = some operation) (pending : operation.terminal = none) :
    Visit hub Change.driving state token (driveBlobWrite hub state token).1 := by
  unfold driveBlobWrite
  rw [waiting]
  simp only
  split
  next blob data borrows input =>
    -- The blob is gone or closed to writers, or its buffer cannot grow.
    have ended : ∀ {middle : State} {terminal : Terminal}, middle.core = state.core →
        terminal ≠ .completed →
        Visit hub Change.driving state token (terminalLocked middle token ⟨terminal, none⟩).1 := by
      intro middle terminal core failure
      have frame := core_frame core
      have stillWaiting : middle.operations.get? token = some operation := by
        rw [frame.2.1]
        exact waiting
      have tally : Change.driving .tally := trivial
      have settle : Change.driving (.settle token operation ⟨terminal, none⟩) :=
        ⟨by simp [input], failure, rfl⟩
      rw [terminalLocked_pending stillWaiting pending]
      refine ⟨(Effects.single tally (.tally core)).tail settle
        (.settle _ stillWaiting (.inl pending)), fun distinct => ?_⟩
      simp [distinct, frame]
    split
    · exact .refl
    next finished => exact ended rfl (writeAdmission_finish finished)
    next accepted =>
      obtain ⟨resource, buffer, found, value, blobLimit, sketchLimit⟩ :=
        writeAdmission_accept accepted
      rcases reserveBlobCapacity_cases hub state blob data.bytes.length
          hub.blobLimits.maximumSketchBytes with ⟨error, equal⟩ | equal | ⟨reservation, equal⟩
      · rw [equal]
        cases error with
        | quota => exact .refl
        | _ => exact ended rfl (by decide)
      · rw [equal]
        exact ended rfl (by decide)
      -- A count, the growth of the buffer, and the bytes.
      rw [equal]
      obtain ⟨sameBuffer, unsealed⟩ := reservation.agrees found value
      have after := reservation.after_found
      rw [unsealed] at after
      have frame := reservation.after_frame
      have covers := reservation.covers
      have length := congrArg List.length reservation.bytes
      rw [sameBuffer] at covers length
      have reserved : Effects hub Change.driving state reservation.after :=
        reservation.effects trivial trivial
      have accept : Change.driving (.accept token) := trivial
      have stillWaiting : ((reservation.after.modifyOperation token fun slot =>
          { slot with pendingBlobWrite := none }).acceptBytes blob (.operation token)
            data.bytes).operations.get? token =
          some { operation with pendingBlobWrite := none } := by
        simp [frame, waiting]
      simp only
      rw [terminalLocked_pending stillWaiting pending]
      refine ⟨reserved.tail accept (@Effect.accept hub reservation.after token blob operation
        _ _ data ?_ pending borrows input after rfl ?_ ?_ ?_), fun distinct => ?_⟩
      · rw [frame.1]
        exact waiting
      · omega
      · omega
      · rw [frame.2]
        exact sketchLimit
      · simp [distinct, frame]
  next => exact .refl

/-- A visit of the read pass skips the read or answers it. -/
theorem driveBlobRead_visit
    (waiting : state.operations.get? token = some operation) (pending : operation.terminal = none) :
    Visit hub Change.answering state token (driveBlobRead hub state token).1 := by
  unfold driveBlobRead
  rw [waiting]
  simp only
  split
  next blob maximum borrows request =>
    split
    next buffer closedToWriters value =>
      obtain ⟨resource, found, slotValue⟩ := Option.map_eq_some_iff.mp value
      split
      · exact .refl
      rename_i readable
      split
      · exact .refl
      rename_i within
      have transfers := Nat.le_of_not_lt fun beyond => within (.inr beyond)
      rw [@terminalLocked_pending token { operation with
        blobReadResult := some (drainedChunk hub state buffer
          (min maximum.val buffer.bytes.length)) } _ (by simp [waiting]) pending]
      -- A count and the answer.
      have counted : ({ state with allocations := state.allocations + 1 } : State).core =
        state.core := rfl
      have tally : Change.answering .tally := trivial
      have answer : Change.answering (.answer token) := trivial
      refine ⟨(Effects.single tally (.tally counted)).tail answer (@Effect.answer hub
        { state with allocations := state.allocations + 1 } token blob operation resource buffer _
        closedToWriters maximum waiting pending borrows request found slotValue readable rfl
          transfers
        fun exactly => exactly.withCapacity _ _), fun distinct => ?_⟩
      simp [distinct]
    · exact .refl
  next => exact .refl

section Pass

variable {visit : State → OpaqueToken → State × Except HubError Bool}
  (visits : ∀ {state token operation}, state.operations.get? token = some operation →
    operation.terminal = none → Visit hub permitted state token (visit state token).1)

include visits

/-- A pass over distinct pending operations is a chain of the visits' effects. -/
theorem drivePass_effects (tokens : List OpaqueToken) (distinct : tokens.Nodup)
    (pending : ∀ token ∈ tokens, ∃ operation, state.operations.get? token = some operation ∧
      operation.terminal = none) (progressed : Bool) :
    Effects hub permitted state (drivePass visit tokens state progressed).1 := by
  induction tokens generalizing state progressed with
  | nil => exact .refl
  | cons token rest ih =>
    obtain ⟨operation, found, waiting⟩ := pending token (by simp)
    obtain ⟨fresh, restDistinct⟩ := List.nodup_cons.mp distinct
    obtain ⟨head, others⟩ := visits found waiting
    have kept : ∀ other ∈ rest, ∃ operation,
        (visit state token).1.operations.get? other = some operation ∧
        operation.terminal = none := by
      intro other member
      have apart : other ≠ token := fun same => fresh (same ▸ member)
      rw [others apart]
      exact pending other (by simp [member])
    unfold drivePass
    split
    next after error equal => exact head.ends equal
    rename_i after woke equal
    rw [equal] at head kept
    exact head.trans (ih restDistinct kept _)

theorem pendingPass_effects (test : OperationSlot → Bool) :
    Effects hub permitted state (drivePass visit (state.operationsWhere fun operation =>
      test operation && operation.terminal.isNone) state false).1 := by
  refine drivePass_effects visits _ (SortedMap.keysWhere_nodup _ _) ?_ false
  intro token member
  obtain ⟨operation, found, tests⟩ := SortedMap.mem_keysWhere.mp member
  exact ⟨operation, found, by simpa using (Bool.and_eq_true_iff.mp tests).2⟩

end Pass

theorem driveBlobWritePass_effects :
    Effects hub Change.driving state (driveBlobWritePass hub state).1 :=
  pendingPass_effects driveBlobWrite_visit _

theorem driveBlobReadPass_effects :
    Effects hub Change.answering state (driveBlobReadPass hub state).1 :=
  pendingPass_effects driveBlobRead_visit _

/-- What a usable resource shows. -/
theorem validateResource_usable {kind rights : Nat}
    (valid : validateResource resource store kind rights = .ok ()) : resource.reserved = false := by
  unfold validateResource at valid
  split_ifs at valid
  next usable => simpa using usable

/-- A native read: nothing, or a count and the pull. -/
theorem readBlobChunk_effects (store : Store) (blob : OpaqueToken) (maximumBytes : Nat)
    (committing : Bool) (tally : permitted .tally) (pull : permitted (.pull blob committing)) :
    Effects hub permitted state (readBlobChunk hub state store blob maximumBytes committing).1 := by
  unfold readBlobChunk
  split
  · exact .refl
  split
  · exact .refl
  rename_i resource found
  split
  · exact .refl
  rename_i claimed
  split
  · exact .refl
  rename_i valid
  split
  next buffer closedToWriters value =>
    simp only
    split
    · exact .refl
    rename_i within
    have same : resource.committing = committing := by simpa using claimed
    subst same
    have counted : ({ state with allocations := state.allocations + 1 } : State).core =
        state.core := rfl
    refine (Effects.single tally (.tally counted)).tail pull ?_
    exact @Effect.pull hub { state with allocations := state.allocations + 1 } blob
      resource buffer closedToWriters (min maximumBytes buffer.bytes.length)
      (hub.allocator.withCapacity state.allocations (min maximumBytes buffer.bytes.length))
      found (validateResource_usable valid) value (Nat.min_le_right _ _)
      (Nat.le_of_not_lt within) (hub.allocator.le_withCapacity _ _)
      (fun exactly => exactly.withCapacity _ _)
  · exact .refl

/-- Staging a write, or taking its submission back. -/
theorem stageBlobWrite_effects (token : OpaqueToken) (length : Nat) (copy : ByteBuffer)
    (removed : permitted (.remove token))
    (marked : permitted (.amend token .writes)) (staged : permitted (.stage token length copy)) :
    Effects hub permitted state (stageBlobWrite hub state token length copy).1 := by
  unfold stageBlobWrite
  split
  · exact removeOperation_effects token removed
  split
  · exact removeOperation_effects token removed
  rename_i within
  split
  · exact .refl
  rename_i slot found
  split
  · exact amend_effects .writes found (.inr rfl) marked
  rename_i pending
  have waiting : slot.terminal = none := by simpa using pending
  have transfers := Nat.le_of_not_lt fun beyond => within (.inr beyond)
  exact .single staged (.stage length copy found waiting transfers)

/-- Collecting a read removes it. -/
theorem collectBlobRead_effects (store : Store) (token : OpaqueToken) (capacity : Nat)
    (removed : permitted (.remove token)) (tally : permitted .tally) :
    Effects hub permitted state (collectBlobRead state store token capacity).1 := by
  unfold collectBlobRead
  split
  · exact .refl
  split
  · exact .refl
  split
  · exact .refl
  split
  · exact .refl
  split
  · exact .refl
  simp only
  split
  · exact .refl
  exact (removeOperation_effects token removed).tail tally (.tally rfl)

end KernalApi.Hub
