import KernalApi.Hub.Table

/-!
# Blob transfers

The critical sections of blob writing and reading, and the two pump passes that
admit pending transfers. A pass visits the pending operations in token order and
skips what does not fit.
-/

namespace KernalApi.Hub

open KernalApi.Std

/-- `try_reserve_exact`: no request is made when the allocation already covers
the need. -/
def tryReserveExact (hub : OperationHub) (state : State) (buffer : ByteBuffer)
    (additional : Nat) : Option (State × ByteBuffer) :=
  if buffer.bytes.length + additional ≤ buffer.capacity then some (state, buffer)
  else
    match hub.allocator.reserveExact state.allocations (buffer.bytes.length + additional) with
    | none => none
    | some granted =>
      some ({ state with allocations := state.allocations + 1 }, buffer.grow granted)

/-- The capacity retained by all blobs. -/
def State.blobCapacity (state : State) : Nat :=
  (state.resources.values.map fun resource => resource.value.retained).foldl saturatingAdd 0

/-- Replace the buffer of a blob. -/
def ResourceSlot.withBuffer (resource : ResourceSlot) (buffer : ByteBuffer) : ResourceSlot :=
  match resource.value with
  | .blob _ closedToWriters => { resource with value := .blob buffer closedToWriters }
  | _ => resource

/-- On a blob the buffer is exchanged and nothing else. -/
theorem ResourceSlot.withBuffer_blob {resource : ResourceSlot} {old : ByteBuffer}
    {closedToWriters : Bool} (value : resource.value = .blob old closedToWriters)
    (buffer : ByteBuffer) :
    resource.withBuffer buffer = { resource with value := .blob buffer closedToWriters } := by
  simp [withBuffer, value]

/-- `reserve_blob_capacity`. -/
def reserveBlobCapacity (hub : OperationHub) (state : State) (blob : OpaqueToken)
    (additional maximum transferMaximum : Nat) : State × Except HubError Unit :=
  match state.resources.get? blob with
  | none => (state, .error .invalid)
  | some resource =>
    match resource.value with
    | .blob buffer _ =>
      if usizeMax < buffer.bytes.length + additional then (state, .error .quota)
      else
        let growth := buffer.bytes.length + additional - buffer.capacity
        if maximum < saturatingAdd state.blobCapacity growth ∨
            transferMaximum < saturatingAdd state.transferCapacity growth then
          (state, .error .quota)
        else
          match tryReserveExact hub state buffer additional with
          | none => ({ state with allocations := state.allocations + 1 }, .error .exhausted)
          | some (state, grown) =>
            ((state.modifyResource blob fun slot =>
              slot.withBuffer grown).recordTransferCapacity, .ok ())
    | _ => (state, .error .wrongKind)

/-- Append accepted bytes to a blob and charge them. -/
@[simps! operations nextResourceSlot resourceGenerations freeResourceSlots closedResources
  closedResourceOrder bufferedBlobBytes peakRetainedTransferCapacity nativeTransferCapacity
    reservedProcessOutputBytes
  reservedNativeProcessOutputBytes closed nextOpaqueToken history ledgerFault]
def State.acceptBytes (state : State) (blob : OpaqueToken) (writer : Writer) (bytes : Bytes) :
    State :=
  let total := state.bufferedBlobBytes + bytes.length
  { state with
    resources := state.resources.modify blob fun slot =>
      match slot.value with
      | .blob buffer _ => slot.withBuffer (buffer.extend bytes)
      | _ => slot
    bufferedBlobBytes := total
    peakBufferedBlobBytes := max state.peakBufferedBlobBytes total }.record
      (.accepted blob writer bytes)

/-- The checks of `blob_write_inner` before it reserves capacity. -/
def blobWriteCheck (hub : OperationHub) (state : State) (store : Store) (blob : OpaqueToken)
    (count : Nat) (unpublished : Bool) : Except HubError Unit :=
  if hub.blobLimits.maximumChunkBytes < count then .error .quota
  else if hub.blobLimits.maximumSketchBytes < saturatingAdd state.bufferedBlobBytes count then
    .error .quota
  else
    match state.resources.get? blob with
    | none => .error .invalid
    | some resource =>
      if unpublished = true ∧ resource.reserved = false then .error .wrongRights
      else
        match (if unpublished then
            validateResourceOwner resource store blobResourceKind blobRightWrite
          else validateResource resource store blobResourceKind blobRightWrite) with
        | .error error => .error error
        | .ok () =>
          match resource.value with
          | .blob buffer closedToWriters =>
            if closedToWriters then .error .closed
            else if hub.blobLimits.maximumBlobBytes <
                saturatingAdd buffer.bytes.length count then .error .quota
            else .ok ()
          | _ => .error .wrongKind

/-- The critical section of `blob_write_inner`; the caller drives reads next. -/
def blobWriteInner (hub : OperationHub) (state : State) (store : Store) (blob : OpaqueToken)
    (bytes : Bytes) (unpublished : Bool) : State × Except HubError Nat :=
  match blobWriteCheck hub state store blob bytes.length unpublished with
  | .error error => (state, .error error)
  | .ok () =>
    match reserveBlobCapacity hub state blob bytes.length hub.blobLimits.maximumSketchBytes
        hub.blobLimits.writeTransferBytes with
    | (state, .error error) => (state, .error error)
    | (state, .ok ()) =>
      (state.acceptBytes blob (.direct state.nextOpaqueToken) bytes, .ok bytes.length)

/-- Take the first bytes out of a blob. -/
@[simps! operations nextResourceSlot resourceGenerations freeResourceSlots closedResources
  closedResourceOrder bufferedBlobBytes peakRetainedTransferCapacity nativeTransferCapacity
    reservedProcessOutputBytes
  reservedNativeProcessOutputBytes closed nextOpaqueToken history ledgerFault]
def State.drainBlob (state : State) (blob : OpaqueToken) (reader : Reader) (buffer : ByteBuffer)
    (count : Nat) : State :=
  ((state.modifyResource blob fun slot => slot.withBuffer (buffer.drain count)).releaseBuffered
    count).record (.drained blob reader (buffer.bytes.take count))

/-- The allocation made for drained bytes. -/
def drainedChunk (hub : OperationHub) (state : State) (buffer : ByteBuffer) (count : Nat) :
    ByteBuffer where
  bytes := buffer.bytes.take count
  capacity := hub.allocator.withCapacity state.allocations count
  fits := (List.length_take_le count buffer.bytes).trans
    (hub.allocator.le_withCapacity state.allocations count)

/-- The critical section of `read_blob_chunk`; the caller drives writes next. -/
def readBlobChunk (hub : OperationHub) (state : State) (store : Store) (blob : OpaqueToken)
    (maximumBytes : Nat) (committing : Bool) : State × Except HubError ByteBuffer :=
  if hub.blobLimits.maximumChunkBytes < maximumBytes then (state, .error .quota)
  else
    match state.resources.get? blob with
    | none => (state, .error .invalid)
    | some resource =>
      if resource.committing ≠ committing then (state, .error .wrongRights)
      else
        match validateResource resource store blobResourceKind blobRightRead with
        | .error error => (state, .error error)
        | .ok () =>
          match resource.value with
          | .blob buffer _ =>
            let retainedBeforeRead := state.transferCapacity
            let count := min maximumBytes buffer.bytes.length
            if hub.blobLimits.maximumTransferBytes <
                saturatingAdd retainedBeforeRead count then (state, .error .quota)
            else
              let chunk := drainedChunk hub state buffer count
              let reader := if committing then Reader.commit else Reader.native
              let drained := state.drainBlob blob reader buffer count
              ({ drained with
                  allocations := state.allocations + 1
                  peakRetainedTransferCapacity := max state.peakRetainedTransferCapacity
                    (saturatingAdd retainedBeforeRead chunk.capacity)
                  nativeTransferCapacity :=
                    state.nativeTransferCapacity + chunk.capacity }, .ok chunk)
          | _ => (state, .error .wrongKind)

/-- Dropping a native chunk releases its capacity; both pumps run next. -/
def releaseNative (state : State) (capacity : Nat) : State :=
  { state with nativeTransferCapacity := state.nativeTransferCapacity - capacity }

/-- Bytes waiting in pending writes. -/
def State.pendingWriteBytes (state : State) : Nat :=
  state.operations.sum fun operation =>
    operation.pendingBlobWrite.elim 0 fun data => data.bytes.length

/-- Bytes waiting in completed reads. -/
def State.completedReadBytes (state : State) : Nat :=
  state.operations.sum fun operation =>
    operation.blobReadResult.elim 0 fun data => data.bytes.length

/-- The second section of `submit_blob_write_checked`: stage the input of a
submitted write, or take the submission back when a pending limit is reached. -/
def stageBlobWrite (hub : OperationHub) (state : State) (operation : OpaqueToken) (length : Nat)
    (copy : ByteBuffer) : State × Except HubError Unit :=
  if hub.blobLimits.maximumPendingWrites ≤
      (state.operationsWhere fun slot => slot.pendingBlobWrite.isSome).length then
    (state.removeOperation operation, .error .quota)
  else if hub.blobLimits.maximumSketchBytes < saturatingAdd state.pendingWriteBytes length ∨
      hub.blobLimits.writeTransferBytes < saturatingAdd state.transferCapacity length then
    (state.removeOperation operation, .error .quota)
  else
    match state.operations.get? operation with
    | none => (state, .error .invalid)
    | some slot =>
      if slot.terminal.isSome then
        (state.modifyOperation operation fun slot => { slot with isBlobWrite := true }, .ok ())
      else
        ((state.modifyOperation operation fun slot =>
          { slot with isBlobWrite := true, pendingBlobWrite := some copy }).recordTransferCapacity,
          .ok ())

/-- The second section of `submit_blob_read`. -/
def stageBlobRead (hub : OperationHub) (state : State) (operation : OpaqueToken)
    (maximum : PullBytes) : State × Except HubError Unit :=
  if hub.blobLimits.maximumPendingReads ≤
      (state.operationsWhere fun slot => slot.pendingBlobRead.isSome).length then
    (state.removeOperation operation, .error .quota)
  else
    match state.operations.get? operation with
    | none => (state, .error .invalid)
    | some _ =>
      (state.modifyOperation operation fun slot =>
        { slot with
          pendingBlobRead := if slot.terminal.isNone then some maximum else slot.pendingBlobRead
          isBlobRead := true }, .ok ())

/-! ### The pump passes -/

/-- What a pass decides about one pending transfer. -/
inductive Admission where
  | skip
  | finish (terminal : Terminal)
  | accept
deriving DecidableEq, Repr

/-- The write pass's test of a pending write against the blob's own limits. -/
def writeAdmission (hub : OperationHub) (state : State) (resource : OpaqueToken) (count : Nat) :
    Admission :=
  match (state.resources.get? resource).map ResourceSlot.value with
  | none => .finish .closed
  | some (.blob buffer closedToWriters) =>
    if closedToWriters then .finish .closed
    else if hub.blobLimits.maximumBlobBytes < saturatingAdd buffer.bytes.length count ∨
        hub.blobLimits.maximumSketchBytes < saturatingAdd state.bufferedBlobBytes count then
      .skip
    else .accept
  | some _ => .finish .rejected

/-- One iteration of `drive_blob_write_pass`. -/
def driveBlobWrite (hub : OperationHub) (state : State) (token : OpaqueToken) :
    State × Except HubError Bool :=
  match state.operations.get? token with
  | none => (state, .error .invalid)
  | some operation =>
    match operation.resource, operation.pendingBlobWrite with
    | some resource, some data =>
      match writeAdmission hub state resource data.bytes.length with
      | .skip => (state, .ok false)
      | .finish terminal => terminalLocked state token ⟨terminal, none⟩
      | .accept =>
        match reserveBlobCapacity hub state resource data.bytes.length
            hub.blobLimits.maximumSketchBytes hub.blobLimits.writeTransferBytes with
        | (state, .error .quota) => (state, .ok false)
        | (state, .error _) => terminalLocked state token ⟨.rejected, none⟩
        | (state, .ok ()) =>
          terminalLocked
            ((state.modifyOperation token fun slot =>
              { slot with pendingBlobWrite := none }).acceptBytes resource
                (.operation token) data.bytes)
            token ⟨.completed, none⟩
    | _, _ => (state, .error .invalid)

/-- One iteration of `drive_blob_read_pass`. -/
def driveBlobRead (hub : OperationHub) (state : State) (token : OpaqueToken) :
    State × Except HubError Bool :=
  match state.operations.get? token with
  | none => (state, .error .invalid)
  | some operation =>
    match operation.resource, operation.pendingBlobRead with
    | some resource, some maximum =>
      match (state.resources.get? resource).map ResourceSlot.value with
      | some (.blob buffer closedToWriters) =>
        if buffer.bytes = [] ∧ closedToWriters = false then (state, .ok false)
        else
          let retainedBeforeRead := state.transferCapacity
          let count := min maximum.val buffer.bytes.length
          if hub.blobLimits.maximumSketchBytes <
                saturatingAdd state.completedReadBytes count ∨
              hub.blobLimits.maximumTransferBytes <
                saturatingAdd retainedBeforeRead count then (state, .ok false)
          else
            let chunk := drainedChunk hub state buffer count
            let drained := state.drainBlob resource (.operation token) buffer count
            terminalLocked
              ({ drained with
                  allocations := state.allocations + 1
                  peakRetainedTransferCapacity := max state.peakRetainedTransferCapacity
                    (saturatingAdd retainedBeforeRead chunk.capacity) }.modifyOperation
                token fun slot => { slot with blobReadResult := some chunk })
              token ⟨.completed, none⟩
      | _ => (state, .ok false)
    | _, _ => (state, .error .invalid)

/-- Visit the listed operations in order; an error ends the pass. -/
def drivePass (visit : State → OpaqueToken → State × Except HubError Bool) :
    List OpaqueToken → State → Bool → State × Except HubError Bool
  | [], state, progressed => (state, .ok progressed)
  | token :: rest, state, progressed =>
    match visit state token with
    | (state, .error error) => (state, .error error)
    | (state, .ok woke) => drivePass visit rest state (progressed || woke)

def pendingWrites (state : State) : List OpaqueToken :=
  state.operationsWhere fun operation =>
    operation.pendingBlobWrite.isSome && operation.terminal.isNone

def pendingReads (state : State) : List OpaqueToken :=
  state.operationsWhere fun operation =>
    operation.pendingBlobRead.isSome && operation.terminal.isNone

/-- The first section of `drive_blob_write_pass`; a read pass follows it. -/
def driveBlobWritePass (hub : OperationHub) (state : State) : State × Except HubError Bool :=
  drivePass (driveBlobWrite hub) (pendingWrites state) state false

/-- `drive_blob_read_pass`. -/
def driveBlobReadPass (hub : OperationHub) (state : State) : State × Except HubError Bool :=
  drivePass (driveBlobRead hub) (pendingReads state) state false

/-! ### Collecting, abandoning and sealing -/

/-- The section of `collect_blob_read_wire`: `none` while the read is pending,
else the terminal and the bytes handed to the caller. -/
def collectBlobRead (state : State) (store : Store) (token : OpaqueToken) (capacity : Nat) :
    State × Except HubError (Option (Terminal × Bytes)) :=
  if state.closed then (state, .error .closed)
  else
    match state.operations.get? token with
    | none => (state, .error .invalid)
    | some operation =>
      if operation.owner ≠ store then (state, .error .stale)
      else if operation.isBlobRead = false then (state, .error .wrongKind)
      else
        match operation.terminal with
        | none => (state, .ok none)
        | some result =>
          let bytes := operation.blobReadResult.elim [] ByteBuffer.bytes
          if capacity < bytes.length then (state, .error .quota)
          else
            let state := state.removeOperation token
            ({ state with resumes := saturatingAdd state.resumes 1 },
              .ok (some (result.terminal, bytes)))

/-- The section of `abandon_transfer_wire`. -/
def abandonTransfer (state : State) (store : Store) (token : OpaqueToken) :
    State × Except HubError Unit :=
  match state.operations.get? token with
  | none => (state, .error .invalid)
  | some operation =>
    if operation.owner ≠ store then (state, .error .stale)
    else if operation.isBlobRead = false ∧ operation.isBlobWrite = false then
      (state, .error .wrongKind)
    else (state.removeOperation token, .ok ())

/-- The section of `abandon_blob_wire`. It does not test the reserved bit. -/
def abandonBlob (state : State) (store : Store) (token : OpaqueToken) :
    State × Except HubError Unit :=
  match state.resources.get? token with
  | none => (state, .error .invalid)
  | some resource =>
    if resource.owner ≠ store then (state, .error .wrongRights)
    else if resource.identity.kind ≠ blobResourceKind then (state, .error .wrongKind)
    else closeResourceWithTerminalLocked state token .closed

/-- Mark a blob as complete. -/
@[simps! operations nextResourceSlot resourceGenerations freeResourceSlots closedResources
  closedResourceOrder bufferedBlobBytes peakRetainedTransferCapacity nativeTransferCapacity
    reservedProcessOutputBytes
  reservedNativeProcessOutputBytes closed nextOpaqueToken history ledgerFault]
def State.sealResource (state : State) (blob : OpaqueToken) : State :=
  (state.modifyResource blob fun slot =>
    match slot.value with
    | .blob buffer _ => { slot with value := .blob buffer true }
    | _ => slot).record (.sealed blob)

/-- The section of `seal_blob_checked`. -/
def sealBlob (state : State) (store : Store) (blob : OpaqueToken) (requiredRights : Nat) :
    State × Except HubError Unit :=
  match state.resources.get? blob with
  | none => (state, .error .invalid)
  | some resource =>
    match validateResource resource store blobResourceKind requiredRights with
    | .error error => (state, .error error)
    | .ok () =>
      match resource.value with
      | .blob _ _ => (state.sealResource blob, .ok ())
      | _ => (state, .error .wrongKind)

end KernalApi.Hub
