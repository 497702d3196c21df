import KernalApi.Hub.State

/-!
# The resource and operation tables

The `_locked` functions of the hub: reserving a resource, submitting an
operation, publishing a terminal result, revoking a resource, attaching a
created resource and closing the whole hub. A function returns the state it
leaves behind together with its result, because a refusal may still have drawn
a slot or a token.
-/

namespace KernalApi.Hub

/-- `validate_resource_owner`. -/
def validateResourceOwner (resource : ResourceSlot) (store : Store) (kind rights : Nat) :
    Except HubError Unit :=
  if resource.identity.kind ≠ kind then .error .wrongKind
  else if resource.identity.rights &&& rights ≠ rights then .error .wrongRights
  else if resource.owner ≠ store ∧ resource.shareable = false then .error .wrongRights
  else .ok ()

/-- `validate_resource`. -/
def validateResource (resource : ResourceSlot) (store : Store) (kind rights : Nat) :
    Except HubError Unit :=
  if resource.reserved then .error .closed
  else validateResourceOwner resource store kind rights

/-- The slot number for a new resource: the top of the free list, else the next
number. -/
def takeSlot (state : State) : Option (Nat × State) :=
  match state.freeResourceSlots with
  | slot :: rest => some (slot, { state with freeResourceSlots := rest })
  | [] =>
    if u32Max ≤ state.nextResourceSlot then none
    else
      let slot := state.nextResourceSlot + 1
      some (slot, { state with nextResourceSlot := slot })

/-- `create_resource_value_locked`. The slot and its generation are spent before
the token is drawn. -/
def createResourceValueLocked (hub : OperationHub) (state : State) (store : Store)
    (kind rights : Nat) (shareable : Bool) (fresh : FreshValue) (origin : Origin) :
    State × Except HubError OpaqueToken :=
  if state.closed then (state, .error .closed)
  else if hub.maximumResources ≤ state.resources.size then (state, .error .quota)
  else if fresh.value.isBlob = true ∧ hub.blobLimits.maximumLiveBlobs ≤
      (state.resources.values.filter fun resource => resource.value.isBlob).length then
    (state, .error .quota)
  else
    match takeSlot state with
    | none => (state, .error .exhausted)
    | some (slot, state) =>
      let generation := (state.resourceGenerations.get? slot).getD 0 + 1
      if u32Max < generation then (state, .error .exhausted)
      else
        let state := { state with
          resourceGenerations := state.resourceGenerations.insert slot generation }
        match state.nextToken with
        | (state, .error error) => (state, .error error)
        | (state, .ok token) =>
          let resource : ResourceSlot := {
            identity := { scope := hub.scope, slot, generation, kind, rights }
            owner := store
            shareable, origin
            value := fresh.value
            reserved := true
            committing := false }
          ({ state with resources := state.resources.insert token resource }.record
            (.issued token slot generation), .ok token)

/-- What `submit_locked` requires of the borrowed resource. -/
def submitCheck (hub : OperationHub) (state : State) (store : Store)
    (resource : Option OpaqueToken) (kind requiredRights : Nat) : Except HubError Unit :=
  match resource with
  | none => .ok ()
  | some token =>
    match state.resources.get? token with
    | none => .error .invalid
    | some slot =>
      if slot.committing then .error .wrongRights
      else if slot.reserved then .error .closed
      else if slot.identity.scope ≠ hub.scope then .error .stale
      else if slot.identity.kind ≠ kind then .error .wrongKind
      else if slot.identity.rights &&& requiredRights ≠ requiredRights then
        .error .wrongRights
      else if slot.owner ≠ store ∧ slot.shareable = false then .error .wrongRights
      else .ok ()

/-- `submit_locked`. -/
def submitLocked (hub : OperationHub) (state : State) (store : Store)
    (resource : Option OpaqueToken) (kind requiredRights : Nat) (purpose : Purpose) :
    State × Except HubError OpaqueToken :=
  if state.closed then (state, .error .closed)
  else if hub.maximumOperations ≤ state.operations.size then (state, .error .quota)
  else
    match submitCheck hub state store resource kind requiredRights with
    | .error error => (state, .error error)
    | .ok () =>
      match state.nextToken with
      | (state, .error error) => (state, .error error)
      | (state, .ok token) =>
        ({ state with
            operations := state.operations.insert token
              { owner := store, resource, requiredRights, purpose } }.record
          (.submitted token purpose), .ok token)

/-- The slot after a result is published. -/
def OperationSlot.settle (operation : OperationSlot) (result : TerminalResult) : OperationSlot :=
  { operation with
    compilerOutput := if result.terminal = .completed then operation.compilerOutput else none
    compilerExit := if result.terminal = .completed then operation.compilerExit else none
    terminal := some result
    producerCancel := false
    progressTimeoutCancel := false
    pendingBlobWrite := none
    pendingBlobRead := none }

/-- `terminal_locked`. The result tells whether the waiter is to be notified. -/
def terminalLocked (state : State) (token : OpaqueToken) (result : TerminalResult) :
    State × Except HubError Bool :=
  match state.operations.get? token with
  | none => (state, .error .invalid)
  | some operation =>
    if operation.terminal.isSome = true ∧ operation.replaceReady result = false then
      (state, .ok false)
    else
      let state := (state.modifyOperation token fun slot => slot.settle result).record
        (.terminated token result)
      match operation.createdResource with
      | none => (state, .ok true)
      | some created =>
        if result.terminal = .completed then
          (state.modifyResource created fun slot => { slot with reserved := false }, .ok true)
        else (state.dropResource created, .ok true)

/-- Publish one result on each listed operation. -/
def terminateAll (result : TerminalResult) : List OpaqueToken → State → State × Except HubError Unit
  | [], state => (state, .ok ())
  | token :: rest, state =>
    match terminalLocked state token result with
    | (state, .error error) => (state, .error error)
    | (state, .ok _) => terminateAll result rest state

/-- The operations that revoking a resource ends. -/
def borrowers (state : State) (token : OpaqueToken) : List OpaqueToken :=
  state.operationsWhere fun operation =>
    decide (operation.resource = some token) && (operation.terminal.isNone || operation.readyRead)

/-- `close_resource_with_terminal_locked`. Closing a remembered token again
succeeds; an unknown token is refused. -/
def closeResourceWithTerminalLocked (state : State) (token : OpaqueToken) (terminal : Terminal) :
    State × Except HubError Unit :=
  match state.resources.get? token with
  | none =>
    if token ∈ state.closedResources then (state, .ok ()) else (state, .error .invalid)
  | some _ =>
    let state := (state.dropResource token).tombstone token
    terminateAll ⟨terminal, none⟩ (borrowers state token) state

/-- `attach_created_resource`: hand the reservation to its operation, or
reclaim both when the operation has already ended. -/
def attachCreatedResource (state : State) (operation resource : OpaqueToken) :
    State × Except HubError Unit :=
  match state.operations.get? operation with
  | none => (state.dropResource resource, .error .closed)
  | some slot =>
    if slot.terminal.isSome then
      ((state.removeOperation operation).dropResource resource, .error .closed)
    else
      (state.modifyOperation operation fun slot => { slot with createdResource := some resource },
        .ok ())

/-- What `close_locked` does to one operation. -/
def OperationSlot.shutDown (operation : OperationSlot) (result : TerminalResult) : OperationSlot :=
  let cleared := { operation with
    producerCancel := false
    progressTimeoutCancel := false
    blobReadResult := none
    compilerOutput := none
    compilerExit := none }
  if operation.terminal.isNone || operation.readyRead then
    { cleared with pendingBlobWrite := none, pendingBlobRead := none, terminal := some result }
  else cleared

/-- `close_locked`. -/
def closeLocked (state : State) (terminal : Terminal) : State :=
  let ended := state.operationsWhere fun operation =>
    operation.terminal.isNone || operation.readyRead
  { state with
    closed := true
    resources := .empty
    bufferedBlobBytes := 0
    freeResourceSlots := []
    operations := state.operations.mapValues fun _ operation =>
      operation.shutDown ⟨terminal, none⟩
    history := state.history ++ ended.map fun token => .terminated token ⟨terminal, none⟩ }

end KernalApi.Hub
