import KernalApi.Hub.Transfer

/-!
# Compiler processes

Grants, spawns, output reads and scalar observations of compiler processes. An
output read holds a reserved chunk of transfer capacity until its event is
collected, published into the operation, or given up.
-/

namespace KernalApi.Hub

open KernalApi.Std

/-- The deadline bound of `grant_compiler_with_cache`, in nanoseconds. -/
def maxCompilerDeadline : Nat := 300 * 1000000000

/-- What `grant_compiler_with_cache` requires of the host's command. -/
def checkGrant (spec : SpawnSpec) (deadline : Nat) : Except HubError Unit :=
  if spec.programAbsolute = false ∨ spec.currentDirAbsolute = false ∨ spec.clearEnv = false ∨
      spec.ownedBySpawner = false ∨ deadline = 0 ∨ maxCompilerDeadline < deadline then
    .error .invalid
  else .ok ()

/-- `grant_compiler_with_cache`. -/
def grantCompilerWithCache (hub : OperationHub) (state : State) (store : Store) (spec : SpawnSpec)
    (deadline : Nat) (cache : Option (Bytes × Bool)) : State × Except HubError OpaqueToken :=
  match checkGrant spec deadline with
  | .error error => (state, .error error)
  | .ok () =>
    match createResourceValueLocked hub state store grantKind processRight false
        ⟨.compilerGrant { spec := some spec, deadline, cache }, rfl, rfl⟩ .granted with
    | (state, .error error) => (state, .error error)
    | (state, .ok token) =>
      (state.modifyResource token fun slot => { slot with reserved := false }, .ok token)

/-- `compiler_cache_status`. -/
def compilerCacheStatus (state : State) (store : Store) (grant : OpaqueToken) (key : Bytes) :
    Except HubError Bool :=
  match state.resources.get? grant with
  | none => .error .invalid
  | some slot =>
    match validateResource slot store grantKind processRight with
    | .error error => .error error
    | .ok () =>
      match slot.value with
      | .compilerGrant { cache := some (expected, hit), .. } =>
        if key = expected then .ok hit else .error .invalid
      | _ => .error .invalid

/-- `poll_process_jobs`: forget finished jobs, latching a failure. -/
def pollProcessJobs (state : State) : State :=
  let failed := (state.processJobs ++ state.processIoJobs).any fun job => job.result = some false
  { state with
    processJobs := state.processJobs.filter fun job => job.result = none
    processIoJobs := state.processIoJobs.filter fun job => job.result = none
    processJobFailed := state.processJobFailed || failed }

/-- A supervised job has returned. -/
def finishJob (state : State) (operation : OpaqueToken) (succeeded : Bool) : State :=
  let mark := fun job : Job =>
    if job.operation = operation then { job with result := some succeeded } else job
  { state with
    processJobs := state.processJobs.map mark
    processIoJobs := state.processIoJobs.map mark }

/-- The admission test shared by output reads, waits and closes. -/
def admitCompilerScalar (hub : OperationHub) (state : State) : State × Except HubError Unit :=
  if state.closed then (state, .error .closed)
  else
    let state := pollProcessJobs state
    if state.processJobFailed then (state, .error .closed)
    else if hub.maximumOperations ≤ state.processIoJobs.length then (state, .error .quota)
    else (state, .ok ())

/-- What `submit_compiler_spawn` requires of the grant. -/
def checkSpawn (hub : OperationHub) (state : State) (store : Store) (grant : OpaqueToken) :
    Except HubError Unit :=
  if state.processJobFailed then .error .closed
  else if min maxProcessJobs hub.maximumResources ≤ state.processJobs.length then .error .quota
  else
    match state.resources.get? grant with
    | none => .error .invalid
    | some slot =>
      match validateResource slot store grantKind processRight with
      | .error error => .error error
      | .ok () =>
        match slot.value with
        | .compilerGrant { spec := some _, .. } =>
          if hub.blobLimits.maximumSketchBytes <
              saturatingAdd state.transferCapacity nativeProcessOutputAllowance then
            .error .quota
          else .ok ()
        | _ => .error .closed

/-- Consume a one-shot grant. -/
def ResourceSlot.consumeGrant (slot : ResourceSlot) : ResourceSlot :=
  match slot.value with
  | .compilerGrant grant => { slot with value := .compilerGrant { grant with spec := none } }
  | _ => slot

/-- `submit_compiler_spawn`; the operation and the process it will publish. -/
def submitCompilerSpawn (hub : OperationHub) (state : State) (store : Store)
    (grant : OpaqueToken) : State × Except HubError (OpaqueToken × OpaqueToken) :=
  if state.closed then (state, .error .closed)
  else
    let state := pollProcessJobs state
    match checkSpawn hub state store grant with
    | .error error => (state, .error error)
    | .ok () =>
      match submitLocked hub state store (some grant) grantKind processRight .spawn with
      | (state, .error error) => (state, .error error)
      | (state, .ok operation) =>
        match createResourceValueLocked hub state store processKind processRight false
            ⟨.compilerProcess {
              session := false
              outputBusy := false
              outputBytes := 0
              outputLimit := maxProcessOutputBytes }, rfl, rfl⟩ .compiler with
        | (state, .error error) => (state.removeOperation operation, .error error)
        | (state, .ok process) =>
          let state := state.modifyOperation operation fun slot =>
            { slot with createdResource := some process, isCompilerSpawn := true }
          let state := { state with
            reservedNativeProcessOutputBytes :=
              state.reservedNativeProcessOutputBytes + nativeProcessOutputAllowance
            }.recordTransferCapacity
          let state := state.modifyResource grant ResourceSlot.consumeGrant
          ({ state with processJobs := state.processJobs ++ [⟨operation, none⟩] },
            .ok (operation, process))

/-- A session check shared by the process observers. -/
def liveProcess (state : State) (store : Store) (process : OpaqueToken) :
    Except HubError CompilerProcess :=
  match state.resources.get? process with
  | none => .error .closed
  | some slot =>
    match validateResource slot store processKind processRight with
    | .error error => .error error
    | .ok () =>
      match slot.value with
      | .compilerProcess value => .ok value
      | _ => .error .wrongKind

/-- The first section of `wait_compiler`. -/
def beginWaitCompiler (state : State) (store : Store) (process : OpaqueToken) :
    Except HubError Unit :=
  match liveProcess state store process with
  | .error error => .error error
  | .ok value => if value.session then .ok () else .error .closed

/-- The last section of `wait_compiler`. -/
def endWaitCompiler (state : State) (store : Store) (process : OpaqueToken) :
    Except HubError Unit :=
  match state.resources.get? process with
  | none => .error .closed
  | some slot => validateResource slot store processKind processRight

/-- The section of `close_compiler`. No pump follows it. -/
def closeCompiler (state : State) (store : Store) (process : OpaqueToken) :
    State × Except HubError Unit :=
  match liveProcess state store process with
  | .error error => (state, .error error)
  | .ok _ => closeResourceWithTerminalLocked state process .closed

/-- Record the session of a started process. -/
def ResourceSlot.startSession (slot : ResourceSlot) : ResourceSlot :=
  match slot.value with
  | .compilerProcess value =>
    { slot with value := .compilerProcess { value with session := true } }
  | _ => slot

/-- `publish_compiler`. -/
def publishCompiler (state : State) (operation process : OpaqueToken) :
    State × Except HubError Unit :=
  if state.closed = true ∨
      (state.operations.get? operation).all (fun slot => slot.terminal.isSome) = true then
    (state, .error .closed)
  else
    match state.resources.get? process with
    | none => (state, .error .closed)
    | some slot =>
      match slot.value with
      | .compilerProcess _ =>
        match terminalLocked (state.modifyResource process ResourceSlot.startSession) operation
            ⟨.completed, some process⟩ with
        | (state, .error error) => (state, .error error)
        | (state, .ok _) => (state, .ok ())
      | _ => (state, .error .wrongKind)

/-- The section of `release_native_process_output`; both pumps follow. -/
def releaseNativeProcessOutput (state : State) : State × Except HubError Unit :=
  if state.reservedNativeProcessOutputBytes < nativeProcessOutputAllowance then
    (state, .error .closed)
  else
    ({ state with
        reservedNativeProcessOutputBytes :=
          state.reservedNativeProcessOutputBytes - nativeProcessOutputAllowance }, .ok ())

/-- Close a resource that is still in the table. -/
def closeIfLive (state : State) (token : OpaqueToken) (terminal : Terminal) :
    State × Except HubError Unit :=
  match state.resources.get? token with
  | none => (state, .ok ())
  | some _ => closeResourceWithTerminalLocked state token terminal

/-- The section of `abandon_compiler_spawn`. No pump follows it. -/
def abandonCompilerSpawn (state : State) (store : Store) (operation : OpaqueToken) :
    State × Except HubError Unit :=
  match state.operations.get? operation with
  | none => (state, .error .invalid)
  | some slot =>
    if slot.owner ≠ store then (state, .error .stale)
    else if slot.isCompilerSpawn = false then (state, .error .wrongKind)
    else
      match slot.createdResource with
      | none => (state, .error .wrongKind)
      | some process => closeIfLive (state.removeOperation operation) process .closed

/-! ### Output reads -/

/-- Change whether a process has an output read in flight. -/
def ResourceSlot.setOutputBusy (busy : Bool) (slot : ResourceSlot) : ResourceSlot :=
  match slot.value with
  | .compilerProcess value =>
    { slot with value := .compilerProcess { value with outputBusy := busy } }
  | _ => slot

/-- `begin_compiler_output_locked`. -/
def beginCompilerOutputLocked (hub : OperationHub) (state : State) (store : Store)
    (process : OpaqueToken) : State × Except HubError OpaqueToken :=
  match liveProcess state store process with
  | .error error => (state, .error error)
  | .ok value =>
    if value.outputBusy then (state, .error .quota)
    else if value.session = false then (state, .error .closed)
    else if hub.blobLimits.maximumSketchBytes <
        saturatingAdd state.transferCapacity maxProcessOutputChunk then (state, .error .quota)
    else
      match submitLocked hub state store (some process) processKind processRight .outputRead with
      | (state, .error error) => (state, .error error)
      | (state, .ok operation) =>
        let state := state.modifyOperation operation fun slot =>
          { slot with producerCancel := true }
        let state := state.modifyResource process (ResourceSlot.setOutputBusy true)
        ({ state with
            reservedProcessOutputBytes :=
              state.reservedProcessOutputBytes + maxProcessOutputChunk }.recordTransferCapacity,
          .ok operation)

/-- `submit_compiler_output`. -/
def submitCompilerOutput (hub : OperationHub) (state : State) (store : Store)
    (process : OpaqueToken) : State × Except HubError OpaqueToken :=
  match admitCompilerScalar hub state with
  | (state, .error error) => (state, .error error)
  | (state, .ok ()) =>
    match beginCompilerOutputLocked hub state store process with
    | (state, .error error) => (state, .error error)
    | (state, .ok operation) =>
      let state := state.modifyOperation operation fun slot =>
        { slot with isCompilerRead := true }
      ({ state with processIoJobs := state.processIoJobs ++ [⟨operation, none⟩] }, .ok operation)

inductive CompilerOutputError where
  | admission (error : HubError)
  | terminal (terminal : Terminal)
deriving DecidableEq, Repr

/-- The bytes an event adds to a process's output, and their allocation. -/
def ProcessOutputEvent.payload : ProcessOutputEvent → Option ByteBuffer
  | .chunk _ data => some data
  | .finished _ => none

/-- Charge received output to its process. -/
def ResourceSlot.chargeOutput (count : Nat) (slot : ResourceSlot) : ResourceSlot :=
  match slot.value with
  | .compilerProcess value =>
    { slot with value := .compilerProcess { value with outputBytes := value.outputBytes + count } }
  | _ => slot

/-- The section of `receive_event` after an event arrived. -/
def receiveEvent (state : State) (operation process : OpaqueToken)
    (event : Option ProcessOutputEvent) : State × Except CompilerOutputError Unit :=
  match state.operations.get? operation with
  | none => (state, .error (.admission .closed))
  | some slot =>
    match slot.terminal with
    | some result => (state, .error (.terminal result.terminal))
    | none =>
      match state.resources.get? process with
      | none => (state, .error (.admission .closed))
      | some resource =>
        match resource.value with
        | .compilerProcess value =>
          match event.bind ProcessOutputEvent.payload with
          | none => (state, .ok ())
          | some data =>
            if maxProcessOutputChunk < data.capacity ∨
                usizeMax < value.outputBytes + data.bytes.length ∨
                value.outputLimit < value.outputBytes + data.bytes.length then
              (state, .error (.admission .quota))
            else
              (state.modifyResource process (ResourceSlot.chargeOutput data.bytes.length), .ok ())
        | _ => (state, .error (.admission .wrongKind))

/-- What `receive_event` reports when its wait was cancelled. -/
def cancelledReceive (state : State) (operation : OpaqueToken) : CompilerOutputError :=
  match (state.operations.get? operation).bind OperationSlot.terminal with
  | none => .admission .closed
  | some result => .terminal result.terminal

/-- The section of `CompilerOutput::collect` whose callback returns. -/
def collectNativeOutput (state : State) (operation process : OpaqueToken) :
    State × Except CompilerOutputError Unit :=
  match state.operations.get? operation with
  | none => (state, .error (.admission .closed))
  | some slot =>
    match slot.terminal with
    | some result => (state, .error (.terminal result.terminal))
    | none =>
      match state.resources.get? process with
      | none => (state, .error (.admission .closed))
      | some _ =>
        match terminalLocked state operation ⟨.completed, none⟩ with
        | (state, .error error) => (state, .error (.admission error))
        | (state, .ok _) => (state, .ok ())

/-- `CompilerOutput::publish`: the reservation becomes the operation's charge. -/
def publishOutput (state : State) (operation process : OpaqueToken)
    (event : Option ProcessOutputEvent) : State × Except HubError Unit :=
  match state.operations.get? operation with
  | none => (state, .error .closed)
  | some slot =>
    if state.closed = true ∨ slot.isCompilerRead = false ∨ slot.terminal.isSome = true then
      (state, .error .closed)
    else
      match checkAuthority state slot.owner process with
      | .error error => (state, .error error)
      | .ok () =>
        if state.reservedProcessOutputBytes < maxProcessOutputChunk then
          (state, .error .closed)
        else
          let state := state.modifyOperation operation fun slot =>
            { slot with compilerOutput := some event }
          let state := { state with
            reservedProcessOutputBytes := state.reservedProcessOutputBytes - maxProcessOutputChunk }
          match terminalLocked state operation ⟨.completed, none⟩ with
          | (state, .error error) => (state, .error error)
          | (state, .ok _) => (state, .ok ())
where
  /-- The process must still be usable by the operation's owner. -/
  checkAuthority (state : State) (owner : Store) (process : OpaqueToken) : Except HubError Unit :=
    match state.resources.get? process with
    | none => .error .closed
    | some resource => validateResource resource owner processKind processRight

/-- Dropping an output lease that was not transferred: the operation leaves or
is closed, an uncollected read revokes its process, and the reserved chunk
returns. Both pumps follow. -/
def dropOutputRead (state : State) (operation process : OpaqueToken)
    (wirePending completed : Bool) : State :=
  let state := if wirePending then (terminalLocked state operation ⟨.closed, none⟩).1
    else state.removeOperation operation
  let state := state.modifyResource process (ResourceSlot.setOutputBusy false)
  let state := if completed then state else (closeIfLive state process .closed).1
  { state with
    reservedProcessOutputBytes := state.reservedProcessOutputBytes - maxProcessOutputChunk }

/-- The section of `collect_compiler_output_wire`; both pumps follow a collection. -/
def collectCompilerOutput (state : State) (store : Store) (token : OpaqueToken) (capacity : Nat) :
    State × Except HubError (Option (Terminal × Option ProcessOutputEvent)) :=
  match state.operations.get? token with
  | none => (state, .error .invalid)
  | some operation =>
    if operation.owner ≠ store then (state, .error .stale)
    else if operation.isCompilerRead = false then (state, .error .wrongKind)
    else if capacity < maxProcessOutputChunk then (state, .error .quota)
    else
      match operation.terminal, operation.resource with
      | none, _ => (state, .ok none)
      | some _, none => (state, .error .wrongKind)
      | some result, some process =>
        match delivered state operation process result with
        | .error error => (state, .error error)
        | .ok event =>
          let state := (state.removeOperation token).modifyResource process
            (ResourceSlot.setOutputBusy false)
          ({ state with resumes := saturatingAdd state.resumes 1 },
            .ok (some (result.terminal, event)))
where
  /-- The event handed to the copy callback of a completed read. -/
  delivered (state : State) (operation : OperationSlot) (process : OpaqueToken)
      (result : TerminalResult) : Except HubError (Option ProcessOutputEvent) :=
    if result.terminal = .completed then
      match state.resources.get? process with
      | none => .error .closed
      | some resource =>
        match validateResource resource store processKind processRight with
        | .error error => .error error
        | .ok () =>
          match operation.compilerOutput with
          | none => .error .closed
          | some event => .ok event
    else .ok none

/-- The section of `abandon_compiler_output_wire`; both pumps follow. -/
def abandonCompilerOutput (state : State) (store : Store) (token : OpaqueToken) :
    State × Except HubError Unit :=
  match state.operations.get? token with
  | none => (state, .error .invalid)
  | some operation =>
    if operation.owner ≠ store then (state, .error .stale)
    else if operation.isCompilerRead = false then (state, .error .wrongKind)
    else
      match operation.resource with
      | none => (state, .error .wrongKind)
      | some process => closeIfLive (state.removeOperation token) process .closed

/-- The section of `cancel_compiler_output_wire`; true when the token named an
output read, and both pumps follow. -/
def cancelCompilerOutput (state : State) (store : Store) (token : OpaqueToken) :
    State × Except HubError Bool :=
  match state.operations.get? token with
  | none => (state, .ok false)
  | some operation =>
    if operation.isCompilerRead = false then (state, .ok false)
    else if operation.owner ≠ store then (state, .error .stale)
    else
      match operation.resource with
      | none => (state, .error .wrongKind)
      | some process =>
        match closeIfLive state process .cancelled with
        | (state, .error error) => (state, .error error)
        | (state, .ok ()) => (state, .ok true)

/-! ### Waiting and closing -/

/-- `submit_compiler_wait`. -/
def submitCompilerWait (hub : OperationHub) (state : State) (store : Store)
    (process : OpaqueToken) : State × Except HubError OpaqueToken :=
  match admitCompilerScalar hub state with
  | (state, .error error) => (state, .error error)
  | (state, .ok ()) =>
    match submitLocked hub state store (some process) processKind processRight .wait with
    | (state, .error error) => (state, .error error)
    | (state, .ok operation) =>
      let state := state.modifyOperation operation fun slot =>
        { slot with compilerScalar := some .wait, producerCancel := true }
      ({ state with processIoJobs := state.processIoJobs ++ [⟨operation, none⟩] }, .ok operation)

/-- The publishing section of a wait job. -/
def publishWait (state : State) (operation : OpaqueToken)
    (result : Except HubError ProcessSessionExit) : State :=
  match state.operations.get? operation with
  | none => state
  | some slot =>
    if slot.terminal.isSome then state
    else
      let state := state.modifyOperation operation fun slot =>
        { slot with compilerExit := result.toOption }
      let terminal := if result.toOption.isSome then Terminal.completed else .closed
      (terminalLocked state operation ⟨terminal, none⟩).1

/-- `ScalarProducer::drop`: a vanished producer closes only pending work. -/
def dropScalarProducer (state : State) (operation : OpaqueToken) : State :=
  match state.operations.get? operation with
  | none => state
  | some slot =>
    if slot.terminal.isSome then state
    else (terminalLocked state operation ⟨.closed, none⟩).1

/-- `submit_compiler_close`. No pump follows it. -/
def submitCompilerClose (hub : OperationHub) (state : State) (store : Store)
    (process : OpaqueToken) : State × Except HubError OpaqueToken :=
  match admitCompilerScalar hub state with
  | (state, .error error) => (state, .error error)
  | (state, .ok ()) =>
    match liveProcess state store process with
    | .error error => (state, .error error)
    | .ok _ =>
      match submitLocked hub state store none processKind processRight .closeProcess with
      | (state, .error error) => (state, .error error)
      | (state, .ok operation) =>
        let state := state.modifyOperation operation fun slot =>
          { slot with compilerScalar := some .close, producerCancel := true }
        match closeResourceWithTerminalLocked state process .closed with
        | (state, .error error) => (state, .error error)
        | (state, .ok ()) =>
          ({ state with processIoJobs := state.processIoJobs ++ [⟨operation, none⟩] },
            .ok operation)

/-- `collect_compiler_wait`. -/
def collectCompilerWait (state : State) (store : Store) (token : OpaqueToken) :
    State × Except HubError (Option (Terminal × Option ProcessSessionExit)) :=
  match state.operations.get? token with
  | none => (state, .error .invalid)
  | some slot =>
    if slot.owner ≠ store then (state, .error .stale)
    else if slot.compilerScalar ≠ some .wait then (state, .error .wrongKind)
    else
      match slot.terminal with
      | none => (state, .ok none)
      | some result =>
        match observed state slot result with
        | .error error => (state, .error error)
        | .ok exit =>
          ({ state.removeOperation token with resumes := saturatingAdd state.resumes 1 },
            .ok (some (result.terminal, exit)))
where
  /-- The exit reported for a completed wait. -/
  observed (state : State) (slot : OperationSlot) (result : TerminalResult) :
      Except HubError (Option ProcessSessionExit) :=
    if result.terminal = .completed then
      match slot.resource with
      | none => .error .wrongKind
      | some process =>
        match state.resources.get? process with
        | none => .error .closed
        | some resource =>
          match validateResource resource store processKind processRight with
          | .error error => .error error
          | .ok () =>
            match slot.compilerExit with
            | none => .error .closed
            | some exit => .ok (some exit)
    else .ok none

/-- `abandon_compiler_scalar`. -/
def abandonCompilerScalar (state : State) (store : Store) (token : OpaqueToken) (close : Bool) :
    State × Except HubError Unit :=
  match state.operations.get? token with
  | none => (state, .error .invalid)
  | some slot =>
    if slot.owner ≠ store then (state, .error .stale)
    else if slot.compilerScalar ≠ some (if close then .close else .wait) then
      (state, .error .wrongKind)
    else (state.removeOperation token, .ok ())

/-- `abandon_compiler_resource`. No pump follows it. -/
def abandonCompilerResource (state : State) (store : Store) (token : OpaqueToken) (grant : Bool) :
    State × Except HubError Unit :=
  match state.resources.get? token with
  | none => (state, .error .closed)
  | some slot =>
    match validateResource slot store (if grant then grantKind else processKind) processRight with
    | .error error => (state, .error error)
    | .ok () => closeResourceWithTerminalLocked state token .closed

end KernalApi.Hub
