import KernalApi.Hub.Transfer

/-!
# Hash states and component leases

Incremental hashing under a scoped token, and the credits of component tables.
The digest is a function of the absorbed bytes, so a hash state keeps those.
-/

namespace KernalApi.Hub

open KernalApi.Std

/-- `submit_hash_create`: reserved and published in one section. -/
def submitHashCreate (hub : OperationHub) (state : State) (store : Store) :
    State × Except HubError OpaqueToken :=
  match submitLocked hub state store none hashKind hashRight .hash with
  | (state, .error error) => (state, .error error)
  | (state, .ok operation) =>
    match createResourceValueLocked hub state store hashKind hashRight false ⟨.blake3 [], rfl, rfl⟩
        .hashed with
    | (state, .error error) => (state.removeOperation operation, .error error)
    | (state, .ok resource) =>
      let state := state.modifyOperation operation fun slot =>
        { slot with isHashOperation := true, createdResource := some resource }
      match terminalLocked state operation ⟨.completed, some resource⟩ with
      | (state, .error error) => (state, .error error)
      | (state, .ok _) => (state, .ok operation)

/-- The hash state a store may use. -/
def liveHash (state : State) (store : Store) (hash : OpaqueToken) : Except HubError Bytes :=
  match state.resources.get? hash with
  | none => .error .closed
  | some resource =>
    match validateResource resource store hashKind hashRight with
    | .error error => .error error
    | .ok () =>
      match resource.value with
      | .blake3 absorbed => .ok absorbed
      | _ => .error .wrongKind

/-- Absorb bytes into a hash state. -/
def ResourceSlot.absorb (bytes : Bytes) (slot : ResourceSlot) : ResourceSlot :=
  match slot.value with
  | .blake3 absorbed => { slot with value := .blake3 (absorbed ++ bytes) }
  | _ => slot

/-- `submit_hash_update`. -/
def submitHashUpdate (hub : OperationHub) (state : State) (store : Store) (hash : OpaqueToken)
    (bytes : Bytes) : State × Except HubError OpaqueToken :=
  if maxHashChunk < bytes.length then (state, .error .quota)
  else
    match liveHash state store hash with
    | .error error => (state, .error error)
    | .ok _ =>
      match submitLocked hub state store (some hash) hashKind hashRight .hash with
      | (state, .error error) => (state, .error error)
      | (state, .ok operation) =>
        let state := (state.modifyResource hash (ResourceSlot.absorb bytes)).modifyOperation
          operation fun slot => { slot with isHashOperation := true }
        match terminalLocked state operation ⟨.completed, none⟩ with
        | (state, .error error) => (state, .error error)
        | (state, .ok _) => (state, .ok operation)

/-- `abandon_hash_operation`: discard a creation, or revoke an updated state. -/
def abandonHashOperation (state : State) (store : Store) (token : OpaqueToken) :
    State × Except HubError Unit :=
  match state.operations.get? token with
  | none => (state, .error .invalid)
  | some operation =>
    if operation.owner ≠ store then (state, .error .stale)
    else if operation.isHashOperation = false then (state, .error .wrongKind)
    else
      let removed := state.removeOperation token
      match operation.createdResource.or operation.resource with
      | none => (removed, .ok ())
      | some resource =>
        match removed.resources.get? resource with
        | none => (removed, .ok ())
        | some _ => closeResourceWithTerminalLocked removed resource .closed

/-- `finish_hash`: the absorbed bytes, whose digest the caller receives. -/
def finishHash (state : State) (store : Store) (token : OpaqueToken) :
    State × Except HubError Bytes :=
  match liveHash state store token with
  | .error error => (state, .error error)
  | .ok absorbed =>
    match closeResourceWithTerminalLocked state token .closed with
    | (state, .error error) => (state, .error error)
    | (state, .ok ()) => (state, .ok absorbed)

/-- `abandon_hash`. -/
def abandonHash (state : State) (store : Store) (token : OpaqueToken) :
    State × Except HubError Unit :=
  match state.resources.get? token with
  | none => (state, .error .closed)
  | some resource =>
    match validateResource resource store hashKind hashRight with
    | .error error => (state, .error error)
    | .ok () => closeResourceWithTerminalLocked state token .closed

/-! ### Component leases -/

/-- `ComponentResourceBudget::acquire`. -/
def acquireLease (hub : OperationHub) (state : State) (budget bytes : Nat) :
    State × Except HubError Unit :=
  match state.budgets.get? budget with
  | none => (state, .error .closed)
  | some credits =>
    if credits.draining then (state, .error .closed)
    else if hub.maximumResources ≤ credits.resources then (state, .error .quota)
    else if state.closed then (state, .error .closed)
    else if hub.blobLimits.maximumSketchBytes < saturatingAdd state.transferCapacity bytes then
      (state, .error .quota)
    else if usizeMax < state.nativeTransferCapacity + bytes then (state, .error .quota)
    else
      ({ state with
          nativeTransferCapacity := state.nativeTransferCapacity + bytes
          budgets := state.budgets.insert budget
            { credits with
              chargedBytes := credits.chargedBytes + bytes
              resources := credits.resources + 1 } }.recordTransferCapacity, .ok ())

/-- `ComponentResourceBudget::new`. -/
def openBudget (state : State) (budget : Nat) : State :=
  match state.budgets.get? budget with
  | none => { state with budgets := state.budgets.insert budget {} }
  | some _ => state

/-- `begin_teardown`. -/
def beginTeardown (state : State) (budget : Nat) : State :=
  { state with budgets := state.budgets.modify budget fun credits =>
      { credits with draining := true } }

/-- The section of `finish_teardown`; both pumps follow. -/
def finishTeardown (state : State) (budget : Nat) : State × Except HubError Unit :=
  match state.budgets.get? budget with
  | none => (state, .error .closed)
  | some credits =>
    if credits.draining = false ∨ credits.resources ≠ 0 then (state, .error .wrongRights)
    else if state.nativeTransferCapacity < credits.chargedBytes then (state, .error .closed)
    else
      ({ state with
          nativeTransferCapacity := state.nativeTransferCapacity - credits.chargedBytes
          budgets := state.budgets.insert budget { credits with chargedBytes := 0 } }, .ok ())

/-- `ComponentResourceLease::drop`; true when the pumps follow. -/
def dropLease (state : State) (budget bytes : Nat) : State × Bool :=
  match state.budgets.get? budget with
  | none => (state, false)
  | some credits =>
    let fewer := { credits with resources := credits.resources - 1 }
    if credits.draining then
      ({ state with budgets := state.budgets.insert budget fewer }, false)
    else
      ({ state with
          nativeTransferCapacity := state.nativeTransferCapacity - bytes
          budgets := state.budgets.insert budget
            { fewer with chargedBytes := credits.chargedBytes - bytes } }, true)

end KernalApi.Hub
