import KernalApi.Hub.Effect

/-!
# Fields after the larger updates

What the composite updates of the state leave alone, and what they make of the
slot they touch.
-/

namespace KernalApi.Hub

open KernalApi.Std

variable {blob : OpaqueToken} {resource : ResourceSlot} {buffer : ByteBuffer}
  {closedToWriters : Bool}

namespace State

variable (state : State) (token : OpaqueToken) (operation : OperationSlot) (result : TerminalResult)

/-- Accepted bytes stand at the end of the blob's buffer. -/
theorem acceptBytes_resources {state : State} (found : state.resources.get? blob = some resource)
    (value : resource.value = .blob buffer closedToWriters) (writer : Writer) (bytes : Bytes) :
    (state.acceptBytes blob writer bytes).resources =
      state.resources.modify blob fun slot =>
        { slot with value := .blob (buffer.extend bytes) closedToWriters } := by
  rw [SortedMap.modify_eq_insert found]
  simp [acceptBytes, record, SortedMap.modify_eq_insert found, value,
    ResourceSlot.withBuffer_blob value]

/-- A drained blob keeps the rest of its buffer. -/
theorem drainBlob_resources {state : State} (found : state.resources.get? blob = some resource)
    (value : resource.value = .blob buffer closedToWriters) (reader : Reader) (count : Nat) :
    (state.drainBlob blob reader buffer count).resources =
      state.resources.modify blob fun slot =>
        { slot with value := .blob (buffer.drain count) closedToWriters } := by
  rw [SortedMap.modify_eq_insert found]
  simp [drainBlob, SortedMap.modify_eq_insert found, ResourceSlot.withBuffer_blob value]

/-- Settling a creation changes the resource side only. -/
@[simp] theorem settleCreated_frame (created : Option OpaqueToken) (terminal : Terminal) :
    let after := state.settleCreated created terminal
    after.operations = state.operations ∧
    after.nextResourceSlot = state.nextResourceSlot ∧
    after.history = state.history ∧ after.budgets = state.budgets ∧ SameCounters state after := by
  unfold settleCreated
  split
  · simp [SameCounters]
  split <;> simp [SameCounters, activate]

/-- Settling an operation leaves the counters and the handle numbers alone. -/
@[simp] theorem settleOperation_frame :
    let after := state.settleOperation token operation result
    after.nextResourceSlot = state.nextResourceSlot ∧ after.budgets = state.budgets ∧
    SameCounters state after := by
  simp [SameCounters, settleOperation]

@[simp] theorem settleOperation_operations :
    (state.settleOperation token operation result).operations =
      state.operations.modify token fun slot => slot.settle result := by
  simp [settleOperation]

@[simp] theorem settleOperation_history :
    (state.settleOperation token operation result).history =
      state.history ++ [.terminated token result] := by
  simp [settleOperation]

/-- Settling an operation activates its creation, drops it, or leaves the
resource side alone. -/
theorem settleOperation_resource_cases (state : State) (token : OpaqueToken)
    (operation : OperationSlot) (result : TerminalResult) :
    let settled := (state.modifyOperation token fun slot => slot.settle result).record
      (.terminated token result)
    (operation.createdResource = none ∧
        state.settleOperation token operation result = settled) ∨
      (∃ created, operation.createdResource = some created ∧ result.terminal = .completed ∧
        state.settleOperation token operation result = settled.activate created) ∨
      ∃ created, operation.createdResource = some created ∧ result.terminal ≠ .completed ∧
        state.settleOperation token operation result = settled.dropResource created := by
  intro settled
  unfold settleOperation settleCreated
  cases operation.createdResource with
  | none => exact .inl ⟨rfl, rfl⟩
  | some created =>
    by_cases completed : result.terminal = .completed
    · exact .inr (.inl ⟨created, rfl, completed, by simp [completed, settled]⟩)
    · exact .inr (.inr ⟨created, rfl, completed, by simp [completed, settled]⟩)

end State

end KernalApi.Hub
