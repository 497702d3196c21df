import KernalApi.Hub.Transfer

/-!
# Native encoders and output commits

An encoder fills a reserved blob that no guest can read until it is published.
A commit claims a sealed blob, copies it chunk by chunk outside the lock and
replaces the destination in one last section.
-/

namespace KernalApi.Hub

/-- `validate_capture_operation`. -/
def validateCaptureOperation (state : State) (store : Store) (operation : OpaqueToken)
    (blob : Option OpaqueToken) : Except HubError Unit :=
  if state.closed then .error .closed
  else
    match state.operations.get? operation with
    | none => .error .closed
    | some pending =>
      if pending.owner ≠ store then .error .wrongRights
      else if pending.terminal.isSome then .error .closed
      else if pending.createdResource.isSome = true ∧ pending.createdResource ≠ blob then
        .error .wrongRights
      else if pending.requiredRights ≠ externalWebviewRightCapture then .error .wrongRights
      else
        match pending.resource with
        | none => .error .wrongKind
        | some view =>
          match state.resources.get? view with
          | none => .error .closed
          | some view =>
            validateResource view store externalWebviewResourceKind
              externalWebviewRightCapture

/-- The second section of `NativeBlobEncoder::for_operation`. -/
def bindEncoder (state : State) (store : Store) (operation blob : OpaqueToken) :
    State × Except HubError Unit :=
  match validateCaptureOperation state store operation none with
  | .error error => (state, .error error)
  | .ok () =>
    (state.modifyOperation operation fun slot => { slot with createdResource := some blob },
      .ok ())

/-- The section of `write_at_position` that replaces bytes already encoded. -/
def overwriteEncoded (state : State) (store : Store) (blob : OpaqueToken) (position : Nat)
    (bytes : Bytes) : State × Except HubError Unit :=
  if state.closed then (state, .error .closed)
  else
    match state.resources.get? blob with
    | none => (state, .error .closed)
    | some resource =>
      match validateResourceOwner resource store blobResourceKind blobRightWrite with
      | .error error => (state, .error error)
      | .ok () =>
        if resource.reserved = false then (state, .error .wrongRights)
        else
          match resource.value with
          | .blob buffer false =>
            -- Bytes inside the buffer are written before an index past its end fails.
            let written := (state.modifyResource blob fun slot =>
              slot.withBuffer (buffer.overwrite position bytes)).record
                (.overwritten blob position bytes)
            if buffer.bytes.length < position + bytes.length then (written, .error .closed)
            else (written, .ok ())
          | _ => (state, .error .wrongKind)

/-- Publish an encoded blob: complete, readable only, and reserved exactly while
an operation still has to publish it. -/
@[simps! resources operations nextResourceSlot resourceGenerations freeResourceSlots closedResources
  closedResourceOrder bufferedBlobBytes peakRetainedTransferCapacity nativeTransferCapacity
  reservedProcessOutputBytes reservedNativeProcessOutputBytes closed nextOpaqueToken history
    ledgerFault]
def State.publishEncoded (state : State) (blob : OpaqueToken) (buffer : ByteBuffer)
    (reserved : Bool) : State :=
  (state.modifyResource blob fun slot =>
    { slot with
      value := .blob buffer true
      identity := { slot.identity with rights := blobRightRead }
      reserved }).record (.encoded blob buffer.bytes)

/-- The test of the capture operation that an encoder publishes through. -/
def checkFinishOperation (state : State) (store : Store) (blob : OpaqueToken) :
    Option OpaqueToken → Except HubError Unit
  | none => .ok ()
  | some operation => validateCaptureOperation state store operation (some blob)

/-- The section of `finish_inner`. -/
def finishInner (state : State) (store : Store) (blob : OpaqueToken)
    (operation : Option OpaqueToken) : State × Except HubError Unit :=
  if state.closed then (state, .error .closed)
  else
    match checkFinishOperation state store blob operation with
    | .error error => (state, .error error)
    | .ok () =>
      match state.resources.get? blob with
      | none => (state, .error .closed)
      | some resource =>
        match validateResourceOwner resource store blobResourceKind blobRightWrite with
        | .error error => (state, .error error)
        | .ok () =>
          if resource.reserved = false then (state, .error .wrongRights)
          else
            match resource.value with
            | .blob buffer _ =>
              match operation with
              | none => (state.publishEncoded blob buffer false, .ok ())
              | some operation =>
                match terminalLocked
                    ((state.publishEncoded blob buffer true).modifyOperation operation
                      fun slot => { slot with createdResource := some blob })
                    operation ⟨.completed, some blob⟩ with
                | (state, .error error) => (state, .error error)
                | (state, .ok _) => (state, .ok ())
            | _ => (state, .error .wrongKind)

/-! ### Output commits -/

/-- How a commit fails: a refusal of the hub, a blob whose producer has not
published its end, or the file system. -/
inductive CommitError where
  | hub (error : HubError)
  | unsealed
  | filesystem
deriving DecidableEq, Repr

/-- One authority test of `check_output_operation`. -/
def checkAuthority (state : State) (store : Store) (token : OpaqueToken) (kind rights : Nat) :
    Except HubError Unit :=
  match state.resources.get? token with
  | none => .error .closed
  | some resource => validateResource resource store kind rights

/-- Whether a commit's operation is still waiting for it. -/
def checkCommitOperation (state : State) (store : Store) (operation : Option OpaqueToken)
    (borrows : OperationSlot → Bool) : Except HubError Unit :=
  match operation with
  | none => .ok ()
  | some token =>
    match state.operations.get? token with
    | none => .error .closed
    | some slot =>
      if slot.owner ≠ store ∨ borrows slot = false ∨ slot.terminal.isSome = true then
        .error .closed
      else .ok ()

/-- `check_output_operation`. -/
def checkOutputOperation (state : State) (store : Store) (blob output : OpaqueToken)
    (operation : Option OpaqueToken) : Except HubError Unit :=
  if state.closed then .error .closed
  else
    match checkCommitOperation state store operation fun slot =>
        decide (slot.resource = some output) with
    | .error error => .error error
    | .ok () =>
      match checkAuthority state store blob blobResourceKind blobRightRead with
      | .error error => .error error
      | .ok () => checkAuthority state store output outputResourceKind outputRightCommit

/-- `exact_output_path`. -/
def exactOutputPath (state : State) (store : Store) (output : OpaqueToken) :
    Except HubError String :=
  match state.resources.get? output with
  | none => .error .invalid
  | some resource =>
    match validateResource resource store outputResourceKind outputRightCommit with
    | .error error => .error error
    | .ok () =>
      match resource.value with
      | .exactOutput path => .ok path
      | _ => .error .wrongKind

/-- The section of `commit_blob_operation` that claims the blob. -/
def startCommit (state : State) (store : Store) (blob : OpaqueToken) :
    State × Except CommitError Unit :=
  if state.operations.values.any (fun operation =>
      decide (operation.resource = some blob) && operation.terminal.isNone) then
    (state, .error (.hub .wrongRights))
  else
    match state.resources.get? blob with
    | none => (state, .error (.hub .invalid))
    | some resource =>
      match validateResource resource store blobResourceKind blobRightRead with
      | .error error => (state, .error (.hub error))
      | .ok () =>
        if resource.committing then (state, .error (.hub .wrongRights))
        else
          match resource.value with
          | .blob buffer true =>
            ((state.modifyResource blob fun slot => { slot with committing := true }).record
              (.committing blob buffer.bytes), .ok ())
          | _ => (state, .error .unsealed)

/-- Complete the operation a commit works for, if there is one. -/
def completeCommit (state : State) : Option OpaqueToken → State × Except HubError Bool
  | none => (state, .ok true)
  | some token => terminalLocked state token ⟨.completed, none⟩

/-- What follows the replacement in the same section: the operation completes
and both resources are revoked. -/
def settleCommit (state : State) (blob output : OpaqueToken) (operation : Option OpaqueToken) :
    State × Except CommitError Unit :=
  match completeCommit state operation with
  | (state, .error error) => (state, .error (.hub error))
  | (state, .ok _) =>
    match closeResourceWithTerminalLocked state blob .closed with
    | (state, .error error) => (state, .error (.hub error))
    | (state, .ok ()) =>
      match closeResourceWithTerminalLocked state output .closed with
      | (state, .error error) => (state, .error (.hub error))
      | (state, .ok ()) => (state, .ok ())

/-- The section of `replace_output_operation`. `replaces` is the answer of the
file system; a refusal changes nothing. -/
def replaceOutputOperation (state : State) (store : Store) (blob output : OpaqueToken)
    (content : Bytes) (operation : Option OpaqueToken) (replaces : Bool) :
    State × Except CommitError Unit :=
  if state.closed then (state, .error (.hub .closed))
  else
    match checkCommitOperation state store operation fun _ => true with
    | .error error => (state, .error (.hub error))
    | .ok () =>
      match checkAuthority state store blob blobResourceKind blobRightRead with
      | .error error => (state, .error (.hub error))
      | .ok () =>
        match state.resources.get? output with
        | none => (state, .error (.hub .closed))
        | some resource =>
          match validateResource resource store outputResourceKind outputRightCommit with
          | .error error => (state, .error (.hub error))
          | .ok () =>
            match resource.value with
            | .exactOutput destination =>
              if replaces = false then (state, .error .filesystem)
              else
                settleCommit
                  (state.record (.replaced destination blob output operation content))
                  blob output operation
            | _ => (state, .error (.hub .wrongKind))
end KernalApi.Hub
