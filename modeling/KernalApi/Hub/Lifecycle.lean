import KernalApi.Hub.Table

/-!
# The lifecycle of an operation

Sections that park, complete, poll and cancel operations, and those by which a
native backend opens and finishes external work. A deferred completion is
stored, cleared and finished in three separate sections.
-/

namespace KernalApi.Hub

open KernalApi.Std

/-- `validate_close`. Only ownership is tested, not the reserved bit. -/
def validateClose (state : State) (store : Store) (resource : OpaqueToken) :
    Except HubError Unit :=
  match state.resources.get? resource with
  | none => .error .invalid
  | some slot =>
    if slot.owner ≠ store ∧ slot.shareable = false then .error .wrongRights else .ok ()

/-- `take_owner`. -/
def takeOwner (state : State) (operation : OpaqueToken) (store : Store) : Except HubError Unit :=
  match state.operations.get? operation with
  | none => .error .invalid
  | some slot => if slot.owner ≠ store then .error .stale else .ok ()

/-- Make a reserved resource usable. -/
@[simps! resources operations nextResourceSlot resourceGenerations freeResourceSlots closedResources
  closedResourceOrder bufferedBlobBytes peakRetainedTransferCapacity nativeTransferCapacity
  reservedProcessOutputBytes reservedNativeProcessOutputBytes closed nextOpaqueToken history
    ledgerFault]
def State.activate (state : State) (resource : OpaqueToken) : State :=
  state.modifyResource resource fun slot => { slot with reserved := false }

/-- The closing section of the grant functions: activate what was just
reserved, unless it is gone. -/
def activateGranted (state : State) (resource : OpaqueToken) (missing : HubError) :
    State × Except HubError Unit :=
  match state.resources.get? resource with
  | none => (state, .error missing)
  | some _ => (state.activate resource, .ok ())

/-- The section of `suspend`. A stored completion is cleared and returned for
the caller to finish. -/
def suspend (state : State) (token : OpaqueToken) (store : Store) :
    State × Except HubError (Option DeferredCompletion) :=
  match state.operations.get? token with
  | none => (state, .error .invalid)
  | some operation =>
    if operation.owner ≠ store then (state, .error .stale)
    else
      let counted := { state with suspends := saturatingAdd state.suspends 1 }
      if operation.terminal.isSome then (counted, .ok none)
      else
        (counted.modifyOperation token fun slot =>
          { slot with suspended := true, deferredCompletion := none },
          .ok operation.deferredCompletion)

/-- The section of `complete_after_suspend`; true when the caller is to finish
the completion itself. -/
def completeAfterSuspend (state : State) (token : OpaqueToken) (deferred : DeferredCompletion) :
    State × Except HubError Bool :=
  match state.operations.get? token with
  | none => (state, .error .invalid)
  | some operation =>
    if operation.terminal.isSome then (state, .ok false)
    else if operation.suspended then (state, .ok true)
    else
      (state.modifyOperation token fun slot => { slot with deferredCompletion := some deferred },
        .ok false)

/-- The section of `finish_deferred_completion`; true when the pumps follow. -/
def finishDeferredCompletion (state : State) (token : OpaqueToken)
    (deferred : DeferredCompletion) : State × Except HubError Bool :=
  match state.operations.get? token with
  | none => (state, .error .invalid)
  | some operation =>
    if operation.terminal.isSome then (state, .ok false)
    else
      match deferred.revoke with
      | none =>
        match terminalLocked state token deferred.result with
        | (state, .error error) => (state, .error error)
        | (state, .ok _) => (state, .ok true)
      | some resource =>
        match closeResourceWithTerminalLocked state resource .closed with
        | (state, .error error) => (state, .error error)
        | (state, .ok ()) =>
          match terminalLocked state token deferred.result with
          | (state, .error error) => (state, .error error)
          | (state, .ok _) => (state, .ok true)

/-- `take_terminal`. -/
def takeTerminal (state : State) (token : OpaqueToken) (store : Store) :
    State × Except HubError (Option TerminalResult) :=
  match state.operations.get? token with
  | none => (state, .error .invalid)
  | some operation =>
    if operation.owner ≠ store then (state, .error .stale)
    else if operation.revocable then (state, .error .wrongKind)
    else
      match operation.terminal with
      | none => (state, .ok none)
      | some result =>
        ({ state.removeOperation token with resumes := saturatingAdd state.resumes 1 },
          .ok (some result))

/-- The first section of `poll_wire`: reads are not polled but collected. -/
def pollsBlobRead (state : State) (operation : OpaqueToken) : Bool :=
  (state.operations.get? operation).any OperationSlot.isBlobRead

/-- The second section of `suspend_stream_wire`: whether an idle timer starts. -/
def armIdleTimer (state : State) (token : OpaqueToken) (store : Store) :
    State × Except HubError Bool :=
  match state.operations.get? token with
  | none => (state, .error .invalid)
  | some operation =>
    if operation.owner = store ∧ operation.terminal.isNone = true ∧
        (operation.isBlobRead || operation.isBlobWrite) = true ∧
        operation.progressTimeoutCancel = false then
      match operation.resource with
      | none => (state, .error .invalid)
      | some resource =>
        match state.resources.get? resource with
        | none => (state, .error .invalid)
        | some _ =>
          (state.modifyOperation token fun slot => { slot with progressTimeoutCancel := true },
            .ok true)
    else (state, .ok false)

/-- `bind_producer_cancellation`; true when the token starts out cancelled. -/
def bindProducerCancellation (state : State) (store : Store) (operation : OpaqueToken) :
    State × Except HubError Bool :=
  match state.operations.get? operation with
  | none => (state, .error .invalid)
  | some slot =>
    if slot.owner ≠ store then (state, .error .wrongRights)
    else if slot.producerCancel then (state, .error .invalid)
    else if slot.terminal.isSome then (state, .ok true)
    else
      (state.modifyOperation operation fun slot => { slot with producerCancel := true },
        .ok false)

/-- The section of `finish_external_open`; true when the view was published. -/
def finishExternalOpen (state : State) (operation resource : OpaqueToken) : State × Bool :=
  if state.closed = true ∨
      ¬ (state.resources.get? resource).any (fun slot =>
        decide (slot.identity.kind = externalWebviewResourceKind) && slot.reserved) = true ∨
      ¬ (state.operations.get? operation).any (fun slot =>
        slot.terminal.isNone && decide (slot.createdResource = some resource)) = true then
    (state, false)
  else
    match terminalLocked state operation ⟨.completed, some resource⟩ with
    | (state, .error _) => (state, false)
    | (state, .ok _) => (state, true)

/-- The URL lookup of `begin_granted_webview_open`. -/
def grantedUrl (state : State) (store : Store) (grant : OpaqueToken) : Except HubError String :=
  match state.resources.get? grant with
  | none => .error .invalid
  | some slot =>
    match validateResource slot store webviewUrlResourceKind webviewUrlRightOpen with
    | .error error => .error error
    | .ok () =>
      match slot.value with
      | .webviewUrl url => .ok url
      | _ => .error .wrongKind

end KernalApi.Hub
