import KernalApi.Hub.Lifecycle
import KernalApi.Hub.Output
import KernalApi.Hub.Process
import KernalApi.Hub.Services

/-!
# Elementary effects on the hub state

Every critical section is a sequence of the elementary effects listed here.
`Change` names an effect, `Effect` says in which states it is possible and what
it does, and `Effects` chains them under a restriction on their names. An
invariant of the state is proved once per effect and then holds after any
section.
-/

namespace KernalApi.Hub

open KernalApi.Std

variable {change : Change}

/-- An update of an operation slot that leaves its result and the capacity it
holds alone. -/
inductive Amendment where
  | park
  | defer (completion : DeferredCompletion)
  | attach (resource : OpaqueToken)
  | writes
  | pulls (maximum : PullBytes)
  | armTimer
  | bindProducer
  | compilerRead
  | compilerSpawn (process : OpaqueToken)
  | wait
  | closeProcess
  | exits (exit : Option ProcessSessionExit)
  | hashes
  | hashCreate (resource : OpaqueToken)

namespace Amendment

def apply : Amendment → OperationSlot → OperationSlot
  | .park, slot => { slot with suspended := true, deferredCompletion := none }
  | .defer completion, slot => { slot with deferredCompletion := some completion }
  | .attach resource, slot => { slot with createdResource := some resource }
  | .writes, slot => { slot with isBlobWrite := true }
  | .pulls maximum, slot =>
    { slot with
      pendingBlobRead := if slot.terminal.isNone then some maximum else slot.pendingBlobRead
      isBlobRead := true }
  | .armTimer, slot => { slot with progressTimeoutCancel := true }
  | .bindProducer, slot => { slot with producerCancel := true }
  | .compilerRead, slot => { slot with isCompilerRead := true }
  | .compilerSpawn process, slot =>
    { slot with createdResource := some process, isCompilerSpawn := true }
  | .wait, slot => { slot with compilerScalar := some .wait, producerCancel := true }
  | .closeProcess, slot => { slot with compilerScalar := some .close, producerCancel := true }
  | .exits exit, slot => { slot with compilerExit := exit }
  | .hashes, slot => { slot with isHashOperation := true }
  | .hashCreate resource, slot =>
    { slot with isHashOperation := true, createdResource := some resource }

/-- The marks a submission leaves even on an operation that has ended. -/
def marks : Amendment → Bool
  | .writes | .pulls _ => true
  | _ => false

end Amendment

/-- An update of a resource slot that leaves identity, ownership and buffered
bytes alone. -/
inductive Alteration where
  | activate
  | consumeGrant
  | startSession
  | outputBusy (busy : Bool)
  | chargeOutput (count : Nat)
  | absorb (bytes : Bytes)

def Alteration.apply : Alteration → ResourceSlot → ResourceSlot
  | .activate, slot => { slot with reserved := false }
  | .consumeGrant, slot => slot.consumeGrant
  | .startSession, slot => slot.startSession
  | .outputBusy busy, slot => slot.setOutputBusy busy
  | .chargeOutput count, slot => slot.chargeOutput count
  | .absorb bytes, slot => slot.absorb bytes

/-- The name of an elementary effect. -/
inductive Change where
  | tally
  | draw
  | spend
  | create (token : OpaqueToken) (resource : ResourceSlot)
  | submit (token : OpaqueToken) (operation : OperationSlot)
  | amend (token : OpaqueToken) (amendment : Amendment)
  | alter (token : OpaqueToken) (alteration : Alteration)
  | sealing (blob : OpaqueToken)
  | encode (blob : OpaqueToken) (reserved : Bool)
  | overwrite (blob : OpaqueToken)
  | claim (blob : OpaqueToken)
  | replace (blob output : OpaqueToken) (operation : Option OpaqueToken) (content : Bytes)
  | stage (token : OpaqueToken) (length : Nat) (copy : ByteBuffer)
  | reserve (blob : OpaqueToken)
  | write (blob : OpaqueToken) (bytes : Bytes)
  | accept (token : OpaqueToken)
  | pull (blob : OpaqueToken) (committing : Bool)
  | answer (token : OpaqueToken)
  | settle (token : OpaqueToken) (operation : OperationSlot) (result : TerminalResult)
  | remove (token : OpaqueToken)
  | revoke (token : OpaqueToken)
  | discard (token : OpaqueToken)
  | charge
  | release
  | deliver (token : OpaqueToken)
  | shutDown (terminal : Terminal)

/-- What ending an operation does to the resource it was creating. -/
def State.settleCreated (state : State) (created : Option OpaqueToken) (terminal : Terminal) :
    State :=
  match created with
  | none => state
  | some resource => if terminal = .completed then state.activate resource
      else state.dropResource resource

/-- The state after an operation's result is published. -/
def State.settleOperation (state : State) (token : OpaqueToken) (operation : OperationSlot)
    (result : TerminalResult) : State :=
  ((state.modifyOperation token fun slot => slot.settle result).record
    (.terminated token result)).settleCreated operation.createdResource result.terminal

/-- One elementary effect, with the tests that precede it. -/
inductive Effect (hub : OperationHub) : Change → State → State → Prop where
  /-- Counters, job lists and statistics move. -/
  | tally {before after : State} (same : after.core = before.core) : Effect hub .tally before after
  /-- A token is drawn and not used, here or by another hub. -/
  | draw {before : State} (value : Nat) (later : before.nextOpaqueToken ≤ value) :
      Effect hub .draw before { before with nextOpaqueToken := value }
  /-- A refused creation has taken a slot. -/
  | takeSlot {before after : State} {slot : Nat} (taken : takeSlot before = some (slot, after)) :
      Effect hub .spend before after
  /-- A refused creation has advanced a generation. -/
  | advance {before : State} (slot : Nat) :
      Effect hub .spend before { before with
        resourceGenerations := before.resourceGenerations.insert slot
          ((before.resourceGenerations.get? slot).getD 0 + 1) }
  | create {before middle : State} {slot : Nat} (resource : ResourceSlot)
      (opened : before.closed = false) (room : before.resources.size < hub.maximumResources)
      (taken : Hub.takeSlot before = some (slot, middle))
      (scope : resource.identity.scope = hub.scope) (numbered : resource.identity.slot = slot)
      (generation : resource.identity.generation = (middle.resourceGenerations.get? slot).getD 0 +
        1)
      (fresh : resource.value.retained = 0) (reserved : resource.reserved = true)
      (idle : resource.committing = false)
      (wire : before.nextOpaqueToken + 1 ≤ maxWireToken)
      (writable : resource.value.closedToWriters = false) :
      Effect hub (.create (before.nextOpaqueToken + 1) resource) before
        ({ middle with
            resourceGenerations := middle.resourceGenerations.insert slot
              resource.identity.generation
            nextOpaqueToken := before.nextOpaqueToken + 1
            resources := middle.resources.insert (before.nextOpaqueToken + 1) resource }.record
          (.issued (before.nextOpaqueToken + 1) slot resource.identity.generation))
  | submit {before : State} (store : Store) (resource : Option OpaqueToken) (kind rights : Nat)
      (purpose : Purpose) (opened : before.closed = false)
      (room : before.operations.size < hub.maximumOperations)
      (licensed : submitCheck hub before store resource kind rights = .ok ())
      (wire : before.nextOpaqueToken + 1 ≤ maxWireToken) :
      Effect hub (.submit (before.nextOpaqueToken + 1)
          { owner := store, resource, requiredRights := rights, purpose }) before
        ({ before with
            nextOpaqueToken := before.nextOpaqueToken + 1
            operations := before.operations.insert (before.nextOpaqueToken + 1)
              { owner := store, resource, requiredRights := rights, purpose } }.record
          (.submitted (before.nextOpaqueToken + 1) purpose))
  | amend {before : State} {token : OpaqueToken} {operation : OperationSlot}
      (amendment : Amendment) (found : before.operations.get? token = some operation)
      (pending : operation.terminal = none ∨ amendment.marks = true) :
      Effect hub (.amend token amendment) before (before.modifyOperation token amendment.apply)
  | alter {before : State} (token : OpaqueToken) (alteration : Alteration) :
      Effect hub (.alter token alteration) before (before.modifyResource token alteration.apply)
  | sealing {before : State} {blob : OpaqueToken} {resource : ResourceSlot}
    (found : before.resources.get? blob = some resource) (usable : resource.reserved = false) :
      Effect hub (.sealing blob) before (before.sealResource blob)
  | encode {before : State} {blob : OpaqueToken} {resource : ResourceSlot} {buffer : ByteBuffer}
      {closedToWriters : Bool} (reserved : Bool)
    (found : before.resources.get? blob = some resource) (hidden : resource.reserved = true)
      (value : resource.value = .blob buffer closedToWriters) :
      Effect hub (.encode blob reserved) before (before.publishEncoded blob buffer reserved)
  | overwrite {before : State} {blob : OpaqueToken} {resource : ResourceSlot}
      {buffer : ByteBuffer} (position : Nat) (bytes : Bytes)
    (found : before.resources.get? blob = some resource) (hidden : resource.reserved = true)
      (value : resource.value = .blob buffer false) :
      Effect hub (.overwrite blob) before
        ((before.modifyResource blob fun slot =>
          slot.withBuffer (buffer.overwrite position bytes)).record
          (.overwritten blob position bytes))
  | claim {before : State} {blob : OpaqueToken} {resource : ResourceSlot} {buffer : ByteBuffer}
    (found : before.resources.get? blob = some resource)
      (usable : resource.reserved = false) (unclaimed : resource.committing = false)
      (value : resource.value = .blob buffer true)
      (unborrowed : ∀ token operation, before.operations.get? token = some operation →
        operation.resource = some blob → operation.terminal ≠ none) :
      Effect hub (.claim blob) before
        ((before.modifyResource blob fun slot => { slot with committing := true }).record
          (.committing blob buffer.bytes))
  | replace {before : State} {blob output : OpaqueToken} {operation : Option OpaqueToken}
      {source destination : ResourceSlot} {path : String} (content : Bytes)
      (opened : before.closed = false)
      (blobFound : before.resources.get? blob = some source)
      (outputFound : before.resources.get? output = some destination)
      (value : destination.value = .exactOutput path)
      (waiting : ∀ token ∈ operation, ∃ slot, before.operations.get? token = some slot ∧
        slot.terminal = none) :
      Effect hub (.replace blob output operation content) before
        (before.record (.replaced path blob output operation content))
  /-- A submitted write receives its input. -/
  | stage {before : State} {token : OpaqueToken} {operation : OperationSlot} (length : Nat)
      (copy : ByteBuffer) (found : before.operations.get? token = some operation)
      (pending : operation.terminal = none)
      (within : saturatingAdd before.transferCapacity length ≤ hub.blobLimits.writeTransferBytes) :
      Effect hub (.stage token length copy) before
        ((before.modifyOperation token fun slot =>
          { slot with isBlobWrite := true, pendingBlobWrite := some copy }).recordTransferCapacity)
  /-- A blob's allocation grows within both budgets. -/
  | reserve {before : State} {blob : OpaqueToken} {resource : ResourceSlot}
      {buffer grown : ByteBuffer} {closedToWriters : Bool} (additional : Nat)
    (found : before.resources.get? blob = some resource)
      (value : resource.value = .blob buffer closedToWriters)
      (within : saturatingAdd before.transferCapacity
        (buffer.bytes.length + additional - buffer.capacity) ≤ hub.blobLimits.writeTransferBytes)
      (bytes : grown.bytes = buffer.bytes)
      (covers : max buffer.capacity (buffer.bytes.length + additional) ≤ grown.capacity)
      (exact : hub.allocator.Exact →
        grown.capacity = max buffer.capacity (buffer.bytes.length + additional)) :
      Effect hub (.reserve blob) before
        ((before.modifyResource blob fun slot => slot.withBuffer grown).recordTransferCapacity)
  /-- A direct write; its capacity is already reserved. -/
  | write {before : State} {blob : OpaqueToken} {resource : ResourceSlot} {buffer : ByteBuffer}
      (bytes : Bytes) (found : before.resources.get? blob = some resource)
      (value : resource.value = .blob buffer false)
      (room : buffer.bytes.length + bytes.length ≤ buffer.capacity)
      (blobLimit : buffer.bytes.length + bytes.length ≤ hub.blobLimits.maximumBlobBytes)
      (sketchLimit : before.bufferedBlobBytes + bytes.length ≤ hub.blobLimits.maximumSketchBytes) :
      Effect hub (.write blob bytes) before
        (before.acceptBytes blob (.direct before.nextOpaqueToken) bytes)
  /-- A pending write is accepted; its capacity is already reserved. -/
  | accept {before : State} {token blob : OpaqueToken} {operation : OperationSlot}
      {resource : ResourceSlot} {buffer data : ByteBuffer}
      (waiting : before.operations.get? token = some operation)
      (pending : operation.terminal = none) (borrows : operation.resource = some blob)
      (input : operation.pendingBlobWrite = some data)
    (found : before.resources.get? blob = some resource)
      (value : resource.value = .blob buffer false)
      (room : buffer.bytes.length + data.bytes.length ≤ buffer.capacity)
      (blobLimit : buffer.bytes.length + data.bytes.length ≤ hub.blobLimits.maximumBlobBytes)
      (sketchLimit : before.bufferedBlobBytes + data.bytes.length ≤
        hub.blobLimits.maximumSketchBytes) :
      Effect hub (.accept token) before
        (((before.modifyOperation token fun slot =>
          { slot with pendingBlobWrite := none }).acceptBytes blob (.operation token)
            data.bytes).settleOperation token operation ⟨.completed, none⟩)
  /-- A native caller or a commit takes a chunk out of a blob. -/
  | pull {before : State} {blob : OpaqueToken} {resource : ResourceSlot} {buffer : ByteBuffer}
      {closedToWriters : Bool} (count capacity : Nat)
    (found : before.resources.get? blob = some resource) (usable : resource.reserved = false)
      (value : resource.value = .blob buffer closedToWriters)
      (available : count ≤ buffer.bytes.length)
      (within : saturatingAdd before.transferCapacity count ≤ hub.blobLimits.maximumTransferBytes)
      (covers : count ≤ capacity) (exact : hub.allocator.Exact → capacity = count) :
      Effect hub (.pull blob resource.committing) before
        { before.drainBlob blob (if resource.committing then .commit else .native) buffer count with
          peakRetainedTransferCapacity := max before.peakRetainedTransferCapacity
            (saturatingAdd before.transferCapacity capacity)
          nativeTransferCapacity := before.nativeTransferCapacity + capacity }
  /-- A pending read is answered. -/
  | answer {before : State} {token blob : OpaqueToken} {operation : OperationSlot}
      {resource : ResourceSlot} {buffer chunk : ByteBuffer} {closedToWriters : Bool}
      {maximum : PullBytes}
      (waiting : before.operations.get? token = some operation)
      (pending : operation.terminal = none) (borrows : operation.resource = some blob)
      (request : operation.pendingBlobRead = some maximum)
    (found : before.resources.get? blob = some resource)
      (value : resource.value = .blob buffer closedToWriters)
      (readable : ¬ (buffer.bytes = [] ∧ closedToWriters = false))
      (bytes : chunk.bytes = buffer.bytes.take (min maximum.val buffer.bytes.length))
      (within : saturatingAdd before.transferCapacity (min maximum.val buffer.bytes.length) ≤
        hub.blobLimits.maximumTransferBytes)
      (exact : hub.allocator.Exact → chunk.capacity = min maximum.val buffer.bytes.length) :
      Effect hub (.answer token) before
        (({ before.drainBlob blob (.operation token) buffer
              (min maximum.val buffer.bytes.length) with
            peakRetainedTransferCapacity := max before.peakRetainedTransferCapacity
              (saturatingAdd before.transferCapacity chunk.capacity) }.modifyOperation token
          fun slot => { slot with blobReadResult := some chunk }).settleOperation token operation
            ⟨.completed, none⟩)
  | settle {before : State} {token : OpaqueToken} {operation : OperationSlot}
      (result : TerminalResult) (found : before.operations.get? token = some operation)
      (replaceable : operation.terminal = none ∨ operation.replaceReady result = true) :
      Effect hub (.settle token operation result) before
        (before.settleOperation token operation result)
  | remove {before : State} {token : OpaqueToken} {operation : OperationSlot}
    (found : before.operations.get? token = some operation) :
      Effect hub (.remove token) before (before.removeOperation token)
  | revoke {before : State} {token : OpaqueToken} {resource : ResourceSlot}
    (found : before.resources.get? token = some resource) :
      Effect hub (.revoke token) before ((before.dropResource token).tombstone token)
  | discard {before : State} {token : OpaqueToken} {resource : ResourceSlot}
    (found : before.resources.get? token = some resource) :
      Effect hub (.discard token) before (before.dropResource token)
  /-- Native capacity or a process reservation is charged. -/
  | charge {before : State} (chunks output processes : Nat)
      (within : saturatingAdd before.transferCapacity (chunks + output + processes) ≤
        hub.blobLimits.maximumSketchBytes) :
      Effect hub .charge before
        { before with
          nativeTransferCapacity := before.nativeTransferCapacity + chunks
          reservedProcessOutputBytes := before.reservedProcessOutputBytes + output
          reservedNativeProcessOutputBytes :=
            before.reservedNativeProcessOutputBytes + processes }.recordTransferCapacity
  | release {before : State} {chunks output processes : Nat}
      (chunksLe : chunks ≤ before.nativeTransferCapacity)
      (outputLe : output ≤ before.reservedProcessOutputBytes)
      (processesLe : processes ≤ before.reservedNativeProcessOutputBytes) :
      Effect hub .release before
        { before with
          nativeTransferCapacity := chunks
          reservedProcessOutputBytes := output
          reservedNativeProcessOutputBytes := processes }
  /-- A reserved output chunk becomes the charge of its operation. -/
  | deliver {before : State} {token : OpaqueToken} {operation : OperationSlot}
      (event : Option ProcessOutputEvent) (found : before.operations.get? token = some operation)
      (pending : operation.terminal = none)
      (reserved : maxProcessOutputChunk ≤ before.reservedProcessOutputBytes) :
      Effect hub (.deliver token) before
        { before.modifyOperation token fun slot => { slot with compilerOutput := some event } with
          reservedProcessOutputBytes := before.reservedProcessOutputBytes - maxProcessOutputChunk }
  | shutDown {before : State} (terminal : Terminal) (revokes : terminal ≠ .completed) :
      Effect hub (.shutDown terminal) before (closeLocked before terminal)

/-- A chain of effects whose names are all permitted. -/
inductive Effects (hub : OperationHub) (permitted : Change → Prop) : State → State → Prop where
  | refl {state : State} : Effects hub permitted state state
  | tail {before middle after : State} {change : Change}
    (prior : Effects hub permitted before middle)
      (name : permitted change) (effect : Effect hub change middle after) :
      Effects hub permitted before after

namespace Effects

variable {hub : OperationHub} {permitted wider : Change → Prop} {first second third : State}

theorem single (name : permitted change) (effect : Effect hub change first second) :
    Effects hub permitted first second :=
  .tail .refl name effect

/-- One more effect; it says which change has to be permitted. -/
theorem next (effects : Effects hub permitted first second)
    (effect : Effect hub change second third) (name : permitted change) :
    Effects hub permitted first third :=
  .tail effects name effect

theorem trans (earlier : Effects hub permitted first second)
    (later : Effects hub permitted second third) : Effects hub permitted first third := by
  induction later with
  | refl => exact earlier
  | tail _ name effect ih => exact .tail ih name effect

/-- A chain stays a chain under a weaker restriction. -/
theorem weaken (implied : ∀ change, permitted change → wider change)
    (effects : Effects hub permitted first second) : Effects hub wider first second := by
  induction effects with
  | refl => exact .refl
  | tail _ name effect ih =>
    exact .tail ih (implied _ name) effect

/-- Read the end of a chain off the outcome it leads to. -/
theorem ends {α : Type} {outcome : State × α} {answer : α}
    (effects : Effects hub permitted first outcome.1) (equal : outcome = (second, answer)) :
    Effects hub permitted first second := by
  rw [equal] at effects
  exact effects

/-- A relation that every permitted effect respects relates the ends of a chain. -/
theorem relates (relation : State → State → Prop) (reflexive : ∀ state, relation state state)
    (transitive : ∀ {a b c}, relation a b → relation b c → relation a c)
    (step : ∀ {change before after}, permitted change → Effect hub change before after →
      relation before after)
    (effects : Effects hub permitted first second) : relation first second := by
  induction effects with
  | refl => exact reflexive _
  | tail _ name effect ih =>
    exact transitive ih (step name effect)

/-- A property that every permitted effect preserves survives a chain. -/
theorem preserves (holds : State → Prop)
    (step : ∀ {change before after}, permitted change → Effect hub change before after →
      holds before → holds after)
    (effects : Effects hub permitted first second) (before : holds first) : holds second :=
  effects.relates (fun before after => holds before → holds after) (fun _ => id)
    (fun earlier later => later ∘ earlier) step before

end Effects

end KernalApi.Hub
