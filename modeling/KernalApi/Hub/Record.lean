import KernalApi.Hub.Slots

/-!
# What an effect records

`Recorded` lists the events that an effect appends to the history, with what
held of the slots involved when it happened.
-/

namespace KernalApi.Hub

variable {hub : OperationHub} {change : Change} {before after : State}

/-- Effects that append nothing to the history. -/
def Change.silent : Change → Bool
  | .tally | .draw | .spend | .amend _ _ | .alter _ _ | .stage _ _ _ | .reserve _ | .revoke _
  | .discard _ | .charge | .release | .deliver _ => true
  | _ => false

/-- The operations that closing the hub ends. -/
def State.unfinished (state : State) : List OpaqueToken :=
  state.operationsWhere fun operation => operation.terminal.isNone || operation.readyRead

/-- The events of an effect that starts from a given state. -/
inductive Recorded (state : State) : Change → List Event → Prop where
  | silent {change : Change} (quiet : change.silent = true) : Recorded state change []
  | create (token : OpaqueToken) (resource : ResourceSlot) :
      Recorded state (.create token resource)
        [.issued token resource.identity.slot resource.identity.generation]
  | submit (token : OpaqueToken) (operation : OperationSlot) :
      Recorded state (.submit token operation) [.submitted token operation.purpose]
  | sealing {blob : OpaqueToken} {resource : ResourceSlot}
    (found : state.resources.get? blob = some resource) (usable : resource.reserved = false) :
      Recorded state (.sealing blob) [.sealed blob]
  | encode {blob : OpaqueToken} {resource : ResourceSlot} {buffer : ByteBuffer}
      {closedToWriters : Bool} (reserved : Bool) (found : state.resources.get? blob = some resource)
      (hidden : resource.reserved = true) (value : resource.value = .blob buffer closedToWriters) :
      Recorded state (.encode blob reserved) [.encoded blob buffer.bytes]
  | overwrite {blob : OpaqueToken} {resource : ResourceSlot} (position : Nat) (bytes : Bytes)
    (found : state.resources.get? blob = some resource) (hidden : resource.reserved = true) :
      Recorded state (.overwrite blob) [.overwritten blob position bytes]
  | claim {blob : OpaqueToken} {resource : ResourceSlot} {buffer : ByteBuffer}
    (found : state.resources.get? blob = some resource)
      (value : resource.value = .blob buffer true) :
      Recorded state (.claim blob) [.committing blob buffer.bytes]
  | replace {blob output : OpaqueToken} {operation : Option OpaqueToken} (path : String)
      (content : Bytes) :
      Recorded state (.replace blob output operation content)
        [.replaced path blob output operation content]
  | write {blob : OpaqueToken} {resource : ResourceSlot} {buffer : ByteBuffer} (bytes : Bytes)
    (found : state.resources.get? blob = some resource)
      (value : resource.value = .blob buffer false) :
      Recorded state (.write blob bytes) [.accepted blob (.direct state.nextOpaqueToken) bytes]
  | accept {token blob : OpaqueToken} {operation : OperationSlot} {data : ByteBuffer}
      (waiting : state.operations.get? token = some operation)
      (pending : operation.terminal = none) (borrows : operation.resource = some blob)
      (input : operation.pendingBlobWrite = some data) :
      Recorded state (.accept token)
        [.accepted blob (.operation token) data.bytes, .terminated token ⟨.completed, none⟩]
  | pull {blob : OpaqueToken} {resource : ResourceSlot} {buffer : ByteBuffer}
      {closedToWriters : Bool} (count : Nat) (found : state.resources.get? blob = some resource)
      (value : resource.value = .blob buffer closedToWriters) :
      Recorded state (.pull blob resource.committing)
        [.drained blob (if resource.committing then .commit else .native) (buffer.bytes.take count)]
  | answer {token blob : OpaqueToken} {operation : OperationSlot} {resource : ResourceSlot}
      {buffer : ByteBuffer} {closedToWriters : Bool} {maximum : PullBytes}
      (waiting : state.operations.get? token = some operation)
      (pending : operation.terminal = none) (borrows : operation.resource = some blob)
    (found : state.resources.get? blob = some resource)
      (value : resource.value = .blob buffer closedToWriters)
      (readable : ¬ (buffer.bytes = [] ∧ closedToWriters = false)) :
      Recorded state (.answer token)
        [.drained blob (.operation token)
            (buffer.bytes.take (min maximum.val buffer.bytes.length)),
          .terminated token ⟨.completed, none⟩]
  | settle {token : OpaqueToken} {operation : OperationSlot} (result : TerminalResult)
    (found : state.operations.get? token = some operation)
      (replaceable : operation.terminal = none ∨ operation.replaceReady result = true) :
      Recorded state (.settle token operation result) [.terminated token result]
  | remove {token : OpaqueToken} {operation : OperationSlot}
    (found : state.operations.get? token = some operation) :
      Recorded state (.remove token) [.removed token]
  | shutDown (terminal : Terminal) :
      Recorded state (.shutDown terminal)
        (state.unfinished.map fun token => .terminated token ⟨terminal, none⟩)

/-- Every effect appends its events to the history. -/
theorem Effect.recorded (effect : Effect hub change before after) :
    ∃ events, after.history = before.history ++ events ∧ Recorded before change events := by
  have quiet : after.history = before.history → change.silent = true →
      ∃ events, after.history = before.history ++ events ∧ Recorded before change events :=
    fun same silent => ⟨[], by rw [same, List.append_nil], .silent silent⟩
  cases effect with
  | tally same => exact quiet (by simp [State.core_frame same]) rfl
  | takeSlot taken => exact quiet (by simp [takeSlot_frame taken]) rfl
  | create resource opened room taken scope numbered =>
    subst numbered
    exact ⟨_, by simp [takeSlot_frame taken], .create _ resource⟩
  | submit => exact ⟨_, rfl, .submit _ _⟩
  | sealing found usable => exact ⟨_, rfl, .sealing found usable⟩
  | encode reserved found hidden value => exact ⟨_, rfl, .encode reserved found hidden value⟩
  | overwrite position bytes found hidden =>
    exact ⟨_, rfl, .overwrite position bytes found hidden⟩
  | claim found usable unclaimed value => exact ⟨_, rfl, .claim found value⟩
  | replace content => exact ⟨_, rfl, .replace _ content⟩
  | write bytes found value => exact ⟨_, rfl, .write bytes found value⟩
  | accept waiting pending borrows input =>
    exact ⟨_, by simp, .accept waiting pending borrows input⟩
  | pull count capacity found usable value => exact ⟨_, rfl, .pull count found value⟩
  | answer waiting pending borrows request found value readable bytes within exact =>
    rename_i token blob operation resource buffer chunk closedToWriters maximum
    exact ⟨[.drained blob (.operation token)
        (buffer.bytes.take (min maximum.val buffer.bytes.length)),
      .terminated token ⟨.completed, none⟩], by simp,
      .answer waiting pending borrows found value readable⟩
  | settle result found replaceable => exact ⟨_, by simp, .settle result found replaceable⟩
  | remove found => exact ⟨_, State.removeOperation_history found, .remove found⟩
  | revoke | discard | deliver => exact quiet (by simp) rfl
  | shutDown terminal => exact ⟨_, rfl, .shutDown terminal⟩
  | _ => exact quiet rfl rfl

end KernalApi.Hub
