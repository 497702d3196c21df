import Mathlib.Data.Finset.Basic
import Mathlib.Tactic.Simps.Basic
import KernalApi.Hub.Value

/-!
# The lock-protected state of the hub

`State` is the record behind the hub's mutex, with the atomic counters that
live beside it. Two fields are ghosts that no section reads: `history` lists
what happened to tokens and blob bytes, and `ledgerFault` latches a subtraction
on `bufferedBlobBytes` that would have gone below zero.
-/

namespace KernalApi.Hub

open KernalApi.Std

variable {state : State} {token : OpaqueToken}

/-- Who put bytes into a blob. A direct write is stamped with the last token
drawn before it, which places it among the submitted writes. -/
inductive Writer where
  | operation (token : OpaqueToken)
  | direct (stamp : Nat)
deriving DecidableEq, Repr

/-- Who took bytes out of a blob. -/
inductive Reader where
  | operation (token : OpaqueToken)
  | native
  | commit
deriving DecidableEq, Repr

/-- What the ghost history records. -/
inductive Event where
  | issued (token : OpaqueToken) (slot generation : Nat)
  | submitted (operation : OpaqueToken) (purpose : Purpose)
  | accepted (blob : OpaqueToken) (writer : Writer) (bytes : Bytes)
  | overwritten (blob : OpaqueToken) (position : Nat) (bytes : Bytes)
  | encoded (blob : OpaqueToken) (content : Bytes)
  | sealed (blob : OpaqueToken)
  | drained (blob : OpaqueToken) (reader : Reader) (bytes : Bytes)
  | committing (blob : OpaqueToken) (content : Bytes)
  | replaced (destination : String) (blob output : OpaqueToken)
      (operation : Option OpaqueToken) (content : Bytes)
  | terminated (operation : OpaqueToken) (result : TerminalResult)
  | removed (operation : OpaqueToken)
deriving DecidableEq, Repr

structure State where
  reservedNativeProcessOutputBytes : Nat := 0
  reservedProcessOutputBytes : Nat := 0
  processJobs : List Job := []
  processIoJobs : List Job := []
  processJobFailed : Bool := false
  outputJobCount : Nat := 0
  clockCount : Nat := 0
  resources : SortedMap OpaqueToken ResourceSlot := .empty
  operations : SortedMap OpaqueToken OperationSlot := .empty
  nextResourceSlot : Nat := 0
  resourceGenerations : SortedMap Nat Nat := .empty
  /-- The free list as a stack; its head is popped first. -/
  freeResourceSlots : List Nat := []
  closedResources : Finset OpaqueToken := ∅
  closedResourceOrder : List OpaqueToken := []
  suspends : Nat := 0
  resumes : Nat := 0
  bufferedBlobBytes : Nat := 0
  peakBufferedBlobBytes : Nat := 0
  peakRetainedTransferCapacity : Nat := 0
  nativeTransferCapacity : Nat := 0
  closed : Bool := false
  budgets : SortedMap Nat Budget := .empty
  /-- The process-wide `NEXT_OPAQUE_TOKEN`. -/
  nextOpaqueToken : Nat := 1
  /-- Allocation requests made so far. -/
  allocations : Nat := 0
  history : List Event := []
  ledgerFault : Bool := false

namespace State

/-- Append one ghost event. -/
@[simps] def record (state : State) (event : Event) : State :=
  { state with history := state.history ++ [event] }

/-- Update one resource slot. -/
@[simps] def modifyResource (state : State) (token : OpaqueToken)
    (update : ResourceSlot → ResourceSlot) : State :=
  { state with resources := state.resources.modify token update }

/-- Update one operation slot. -/
@[simps] def modifyOperation (state : State) (token : OpaqueToken)
    (update : OperationSlot → OperationSlot) : State :=
  { state with operations := state.operations.modify token update }

/-- Take an operation out of the table. -/
def removeOperation (state : State) (token : OpaqueToken) : State :=
  match state.operations.get? token with
  | none => state
  | some _ => { state with operations := state.operations.erase token }.record (.removed token)

/-- Give back buffered bytes; going below zero would be a ledger fault. -/
@[simps] def releaseBuffered (state : State) (count : Nat) : State :=
  { state with
    bufferedBlobBytes := state.bufferedBlobBytes - count
    ledgerFault := state.ledgerFault || decide (state.bufferedBlobBytes < count) }

/-- Take a resource out of the table: its bytes leave the ledger and its slot
returns to the free list. -/
def dropResource (state : State) (token : OpaqueToken) : State :=
  match state.resources.get? token with
  | none => state
  | some resource =>
    { state.releaseBuffered resource.value.buffered with
      resources := state.resources.erase token
      freeResourceSlots := resource.identity.slot :: state.freeResourceSlots }

/-- Remember a closed token, forgetting the oldest beyond the bound. -/
@[simps resources operations nextResourceSlot resourceGenerations freeResourceSlots
  bufferedBlobBytes peakRetainedTransferCapacity nativeTransferCapacity reservedProcessOutputBytes
  reservedNativeProcessOutputBytes closed nextOpaqueToken history ledgerFault]
def tombstone (state : State) (token : OpaqueToken) : State :=
  let order := state.closedResourceOrder ++ [token]
  let expired := order.take (order.length - maxClosedTombstones)
  { state with
    closedResourceOrder := order.drop (order.length - maxClosedTombstones)
    closedResources := insert token state.closedResources \ expired.toFinset }

/-- `transfer_capacity`: every capacity charged to the hub. -/
def transferCapacity (state : State) : Nat :=
  let native := saturatingAdd (saturatingAdd state.nativeTransferCapacity
    state.reservedProcessOutputBytes) state.reservedNativeProcessOutputBytes
  (state.resources.values.map (fun resource => resource.value.retained) ++
    state.operations.values.map OperationSlot.charged).foldl saturatingAdd native

/-- `record_transfer_capacity`. -/
@[simps] def recordTransferCapacity (state : State) : State :=
  { state with
    peakRetainedTransferCapacity := max state.peakRetainedTransferCapacity state.transferCapacity }

/-- `next_token`: draw from the process-wide counter. -/
def nextToken (state : State) : State × Except HubError OpaqueToken :=
  if u64Max ≤ state.nextOpaqueToken then (state, .error .exhausted)
  else
    let value := state.nextOpaqueToken + 1
    let state := { state with nextOpaqueToken := value }
    if maxWireToken < value then (state, .error .exhausted) else (state, .ok value)

/-- The state without its counters, job lists and statistics. No admission or
authority test that the invariants follow reads what is left out. -/
def core (state : State) : State :=
  { state with
    processJobs := []
    processIoJobs := []
    processJobFailed := false
    outputJobCount := 0
    clockCount := 0
    suspends := 0
    resumes := 0
    peakBufferedBlobBytes := 0
    budgets := .empty
    allocations := 0 }

/-- Operations selected by a test, in token order. -/
def operationsWhere (state : State) (test : OperationSlot → Bool) : List OpaqueToken :=
  state.operations.keysWhere test

/-! ### Fields after an update

Each lemma lists the fields an update leaves alone. -/

/-- The counters, the generations and the tombstones that no update of a slot touches. -/
abbrev SameCounters (before after : State) : Prop :=
  after.resourceGenerations = before.resourceGenerations ∧
  after.closedResources = before.closedResources ∧
  after.closedResourceOrder = before.closedResourceOrder ∧
  after.peakRetainedTransferCapacity = before.peakRetainedTransferCapacity ∧
  after.nativeTransferCapacity = before.nativeTransferCapacity ∧
  after.reservedProcessOutputBytes = before.reservedProcessOutputBytes ∧
  after.reservedNativeProcessOutputBytes = before.reservedNativeProcessOutputBytes ∧
  after.closed = before.closed ∧ after.nextOpaqueToken = before.nextOpaqueToken

/-- Removing an operation changes the operations and the history only. -/
@[simp] theorem removeOperation_frame (state : State) (token : OpaqueToken) :
    let after := state.removeOperation token
    after.resources = state.resources ∧
    after.nextResourceSlot = state.nextResourceSlot ∧
    after.freeResourceSlots = state.freeResourceSlots ∧
    after.bufferedBlobBytes = state.bufferedBlobBytes ∧
    after.ledgerFault = state.ledgerFault ∧ after.budgets = state.budgets ∧
    SameCounters state after := by
  unfold removeOperation
  split <;> simp [SameCounters]

@[simp] theorem removeOperation_operations (state : State) (token : OpaqueToken) :
    (state.removeOperation token).operations = state.operations.erase token := by
  unfold removeOperation
  split
  next absent => exact (SortedMap.erase_of_absent absent).symm
  next => simp

theorem removeOperation_history {operation : OperationSlot}
    (found : state.operations.get? token = some operation) :
    (state.removeOperation token).history = state.history ++ [.removed token] := by
  simp [removeOperation, found]

/-- Dropping a resource changes the resources, the ledger and the free list only. -/
@[simp] theorem dropResource_frame (state : State) (token : OpaqueToken) :
    let after := state.dropResource token
    after.operations = state.operations ∧
    after.nextResourceSlot = state.nextResourceSlot ∧
    after.history = state.history ∧ after.budgets = state.budgets ∧ SameCounters state after := by
  unfold dropResource
  split <;> simp [SameCounters]

@[simp] theorem dropResource_resources (state : State) (token : OpaqueToken) :
    (state.dropResource token).resources = state.resources.erase token := by
  unfold dropResource
  split
  next absent => exact (SortedMap.erase_of_absent absent).symm
  next => rfl

/-- What dropping a live resource does to the ledger and the free list. -/
theorem dropResource_found {resource : ResourceSlot}
    (found : state.resources.get? token = some resource) :
    (state.dropResource token).bufferedBlobBytes =
        state.bufferedBlobBytes - resource.value.buffered ∧
      (state.dropResource token).ledgerFault =
        (state.ledgerFault || decide (state.bufferedBlobBytes < resource.value.buffered)) ∧
      (state.dropResource token).freeResourceSlots =
        resource.identity.slot :: state.freeResourceSlots := by
  simp [dropResource, found]

/-- Dropping an absent resource changes nothing. -/
theorem dropResource_absent (absent : state.resources.get? token = none) :
    state.dropResource token = state := by
  simp [dropResource, absent]

/-- States with the same core agree on every field it keeps. -/
theorem core_frame {before after : State} (same : after.core = before.core) :
    after.resources = before.resources ∧
    after.operations = before.operations ∧
    after.nextResourceSlot = before.nextResourceSlot ∧
    after.freeResourceSlots = before.freeResourceSlots ∧
    after.bufferedBlobBytes = before.bufferedBlobBytes ∧
    after.history = before.history ∧
    after.ledgerFault = before.ledgerFault ∧ SameCounters before after := by
  simp only [core, State.mk.injEq] at same
  simp [SameCounters, same]

end State

end KernalApi.Hub
