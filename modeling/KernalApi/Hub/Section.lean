import KernalApi.Hub.Lifecycle
import KernalApi.Hub.Output
import KernalApi.Hub.Process
import KernalApi.Hub.Services

/-!
# Critical sections

`Section` names every critical section of the hub with its arguments, and
`Section.run` executes one atomically. What a call does between its sections is
in `KernalApi.Hub.Thread`; here are only the state changes that others can see.
-/

namespace KernalApi.Hub

/-- One critical section of the hub. -/
inductive Section where
  | create (store : Store) (kind rights : Nat) (shareable : Bool) (fresh : FreshValue)
      (origin : Origin)
  | submit (store : Store) (resource : Option OpaqueToken) (kind rights : Nat) (purpose : Purpose)
  | attach (operation resource : OpaqueToken)
  | activate (resource : OpaqueToken) (missing : HubError)
  | terminal (operation : OpaqueToken) (result : TerminalResult)
  | close (resource : OpaqueToken) (reason : Revocation)
  /-- `close_resource` on a reservation the caller made and never published. -/
  | reclaim (resource : OpaqueToken)
  | closeAll (reason : Revocation)
  | validateClose (store : Store) (resource : OpaqueToken)
  | takeOwner (operation : OpaqueToken) (store : Store)
  | wasClosed (resource : OpaqueToken)
  | suspend (operation : OpaqueToken) (store : Store)
  | completeAfterSuspend (operation : OpaqueToken) (deferred : DeferredCompletion)
  | finishDeferred (operation : OpaqueToken) (deferred : DeferredCompletion)
  | takeTerminal (operation : OpaqueToken) (store : Store)
  | pollsBlobRead (operation : OpaqueToken)
  | armIdleTimer (operation : OpaqueToken) (store : Store)
  | bindProducer (store : Store) (operation : OpaqueToken)
  | finishExternalOpen (operation resource : OpaqueToken)
  | grantedUrl (store : Store) (grant : OpaqueToken)
  | acquireClock
  | releaseClock
  | blobWrite (store : Store) (blob : OpaqueToken) (bytes : Bytes) (unpublished : Bool)
  | readChunk (store : Store) (blob : OpaqueToken) (maximum : Nat) (committing : Bool)
  | releaseNative (capacity : Nat)
  | stageWrite (operation : OpaqueToken) (length : Nat) (copy : ByteBuffer)
  | stageRead (operation : OpaqueToken) (maximum : PullBytes)
  | writePass
  | readPass
  | collectRead (store : Store) (token : OpaqueToken) (capacity : Nat)
  | abandonTransfer (store : Store) (token : OpaqueToken)
  | abandonBlob (store : Store) (token : OpaqueToken)
  | sealBlob (store : Store) (blob : OpaqueToken) (rights : Nat)
  | bindEncoder (store : Store) (operation blob : OpaqueToken)
  | overwriteEncoded (store : Store) (blob : OpaqueToken) (position : Nat) (bytes : Bytes)
  | finishEncoder (store : Store) (blob : OpaqueToken) (operation : Option OpaqueToken)
  | checkOutput (store : Store) (blob output : OpaqueToken) (operation : Option OpaqueToken)
  | outputPath (store : Store) (output : OpaqueToken)
  | startCommit (store : Store) (blob : OpaqueToken)
  | replaceOutput (store : Store) (blob output : OpaqueToken) (content : Bytes)
      (operation : Option OpaqueToken) (replaces : Bool)
  | acquireOutputJob (operation : OpaqueToken)
  | releaseOutputJob
  | drawToken
  | grantCompiler (store : Store) (spec : SpawnSpec) (deadline : Nat)
    (cache : Option (Bytes × Bool))
  | cacheStatus (store : Store) (grant : OpaqueToken) (key : Bytes)
  | spawn (store : Store) (grant : OpaqueToken)
  | beginWait (store : Store) (process : OpaqueToken)
  | endWait (store : Store) (process : OpaqueToken)
  | closeCompiler (store : Store) (process : OpaqueToken)
  | publishCompiler (operation process : OpaqueToken)
  | releaseNativeOutput
  | abandonSpawn (store : Store) (operation : OpaqueToken)
  | beginOutput (store : Store) (process : OpaqueToken)
  | submitOutput (store : Store) (process : OpaqueToken)
  | receive (operation process : OpaqueToken) (event : Option ProcessOutputEvent)
  | cancelledReceive (operation : OpaqueToken)
  | collectNative (operation process : OpaqueToken)
  | publishOutput (operation process : OpaqueToken) (event : Option ProcessOutputEvent)
  | dropOutput (operation process : OpaqueToken) (wirePending completed : Bool)
  | collectOutput (store : Store) (token : OpaqueToken) (capacity : Nat)
  | abandonOutput (store : Store) (token : OpaqueToken)
  | cancelOutput (store : Store) (token : OpaqueToken)
  | submitWait (store : Store) (process : OpaqueToken)
  | publishWait (operation : OpaqueToken) (result : Except HubError ProcessSessionExit)
  | dropScalar (operation : OpaqueToken)
  | submitClose (store : Store) (process : OpaqueToken)
  | collectWait (store : Store) (token : OpaqueToken)
  | abandonScalar (store : Store) (token : OpaqueToken) (close : Bool)
  | abandonCompilerResource (store : Store) (token : OpaqueToken) (grant : Bool)
  | finishJob (operation : OpaqueToken) (succeeded : Bool)
  | pollJobs
  | hashCreate (store : Store)
  | hashUpdate (store : Store) (hash : OpaqueToken) (bytes : Bytes)
  | abandonHashOperation (store : Store) (token : OpaqueToken)
  | finishHash (store : Store) (token : OpaqueToken)
  | abandonHash (store : Store) (token : OpaqueToken)
  | openBudget (budget : Nat)
  | acquireLease (budget bytes : Nat)
  | dropLease (budget bytes : Nat)
  | beginTeardown (budget : Nat)
  | finishTeardown (budget : Nat)

/-- What a section tells its caller. -/
inductive Answer where
  | done
  | failed (error : HubError)
  | token (token : OpaqueToken)
  | pair (first second : OpaqueToken)
  | flag (value : Bool)
  | deferred (completion : Option DeferredCompletion)
  | result (terminal : Option TerminalResult)
  | chunk (data : ByteBuffer)
  | text (value : String)
  | bytes (value : Bytes)
  | read (collected : Option (Terminal × Bytes))
  | output (collected : Option (Terminal × Option ProcessOutputEvent))
  | exit (collected : Option (Terminal × Option ProcessSessionExit))
  | refused (error : CommitError)
  | unreceived (error : CompilerOutputError)

namespace Answer

/-- The answer for a fallible section, given how its value is reported. -/
def of {α : Type} (report : α → Answer) : Except HubError α → Answer
  | .ok value => report value
  | .error error => .failed error

/-- The answer for a commit section. -/
def ofCommit : Except CommitError Unit → Answer
  | .ok () => .done
  | .error error => .refused error

/-- The answer for an output section. -/
def ofOutput : Except CompilerOutputError Unit → Answer
  | .ok () => .done
  | .error error => .unreceived error

end Answer

/-- Report a section's result. -/
def answering {α : Type} (report : α → Answer) (outcome : State × Except HubError α) :
    State × Answer :=
  (outcome.1, .of report outcome.2)

/-- A section that only looks at the state. -/
def looking {α : Type} (state : State) (report : α → Answer) (outcome : Except HubError α) :
    State × Answer :=
  (state, .of report outcome)

def unit : Unit → Answer := fun _ => .done

/-- The admission of a clock: the counter is compared and increased at once. -/
def acquireClock (hub : OperationHub) (state : State) : State × Except HubError Unit :=
  if state.clockCount < hub.maximumOperations then
    ({ state with clockCount := state.clockCount + 1 }, .ok ())
  else (state, .error .quota)

/-- The admission section of `submit_output_commit`. -/
def acquireOutputJob (hub : OperationHub) (state : State) (operation : OpaqueToken) :
    State × Except HubError Unit :=
  if state.closed then (state.removeOperation operation, .error .closed)
  else if hub.maximumOperations ≤ state.outputJobCount then
    (state.removeOperation operation, .error .quota)
  else ({ state with outputJobCount := state.outputJobCount + 1 }, .ok ())

/-- The state and answer after one section. -/
def Section.run (hub : OperationHub) (state : State) : Section → State × Answer
  | .create store kind rights shareable fresh origin =>
    answering .token (createResourceValueLocked hub state store kind rights shareable fresh origin)
  | .submit store resource kind rights purpose =>
    answering .token (submitLocked hub state store resource kind rights purpose)
  | .attach operation resource =>
    answering unit (attachCreatedResource state operation resource)
  | .activate resource missing => answering unit (activateGranted state resource missing)
  | .terminal operation result => answering .flag (terminalLocked state operation result)
  | .close resource reason =>
    answering unit (closeResourceWithTerminalLocked state resource reason.val)
  | .reclaim resource =>
    answering unit (closeResourceWithTerminalLocked state resource .closed)
  | .closeAll reason => (closeLocked state reason.val, .done)
  | .validateClose store resource => looking state unit (Hub.validateClose state store resource)
  | .takeOwner operation store => looking state unit (Hub.takeOwner state operation store)
  | .wasClosed resource => (state, .flag (decide (resource ∈ state.closedResources)))
  | .suspend operation store => answering .deferred (Hub.suspend state operation store)
  | .completeAfterSuspend operation deferred =>
    answering .flag (Hub.completeAfterSuspend state operation deferred)
  | .finishDeferred operation deferred =>
    answering .flag (finishDeferredCompletion state operation deferred)
  | .takeTerminal operation store => answering .result (Hub.takeTerminal state operation store)
  | .pollsBlobRead operation => (state, .flag (Hub.pollsBlobRead state operation))
  | .armIdleTimer operation store => answering .flag (Hub.armIdleTimer state operation store)
  | .bindProducer store operation =>
    answering .flag (bindProducerCancellation state store operation)
  | .finishExternalOpen operation resource =>
    ((Hub.finishExternalOpen state operation resource).1,
      .flag (Hub.finishExternalOpen state operation resource).2)
  | .grantedUrl store grant => looking state .text (Hub.grantedUrl state store grant)
  | .acquireClock => answering unit (Hub.acquireClock hub state)
  | .releaseClock => ({ state with clockCount := state.clockCount - 1 }, .done)
  | .blobWrite store blob bytes unpublished =>
    answering unit ((blobWriteInner hub state store blob bytes unpublished).map id
      (fun outcome => outcome.map fun _ => ()))
  | .readChunk store blob maximum committing =>
    answering .chunk (readBlobChunk hub state store blob maximum committing)
  | .releaseNative capacity => (Hub.releaseNative state capacity, .done)
  | .stageWrite operation length copy =>
    answering unit (stageBlobWrite hub state operation length copy)
  | .stageRead operation maximum => answering unit (stageBlobRead hub state operation maximum)
  | .writePass => answering .flag (driveBlobWritePass hub state)
  | .readPass => answering .flag (driveBlobReadPass hub state)
  | .collectRead store token capacity =>
    answering .read (collectBlobRead state store token capacity)
  | .abandonTransfer store token => answering unit (Hub.abandonTransfer state store token)
  | .abandonBlob store token => answering unit (Hub.abandonBlob state store token)
  | .sealBlob store blob rights => answering unit (Hub.sealBlob state store blob rights)
  | .bindEncoder store operation blob =>
    answering unit (Hub.bindEncoder state store operation blob)
  | .overwriteEncoded store blob position bytes =>
    answering unit (Hub.overwriteEncoded state store blob position bytes)
  | .finishEncoder store blob operation => answering unit (finishInner state store blob operation)
  | .checkOutput store blob output operation =>
    looking state unit (checkOutputOperation state store blob output operation)
  | .outputPath store output => looking state .text (exactOutputPath state store output)
  | .startCommit store blob =>
    ((Hub.startCommit state store blob).1, .ofCommit (Hub.startCommit state store blob).2)
  | .replaceOutput store blob output content operation replaces =>
    ((replaceOutputOperation state store blob output content operation replaces).1,
      .ofCommit (replaceOutputOperation state store blob output content operation replaces).2)
  | .acquireOutputJob operation => answering unit (Hub.acquireOutputJob hub state operation)
  | .releaseOutputJob => ({ state with outputJobCount := state.outputJobCount - 1 }, .done)
  | .drawToken => answering .token state.nextToken
  | .grantCompiler store spec deadline cache =>
    answering .token (grantCompilerWithCache hub state store spec deadline cache)
  | .cacheStatus store grant key =>
    looking state .flag (compilerCacheStatus state store grant key)
  | .spawn store grant =>
    answering (fun tokens => .pair tokens.1 tokens.2) (submitCompilerSpawn hub state store grant)
  | .beginWait store process => looking state unit (beginWaitCompiler state store process)
  | .endWait store process => looking state unit (endWaitCompiler state store process)
  | .closeCompiler store process => answering unit (Hub.closeCompiler state store process)
  | .publishCompiler operation process =>
    answering unit (Hub.publishCompiler state operation process)
  | .releaseNativeOutput => answering unit (releaseNativeProcessOutput state)
  | .abandonSpawn store operation => answering unit (abandonCompilerSpawn state store operation)
  | .beginOutput store process =>
    answering .token (beginCompilerOutputLocked hub state store process)
  | .submitOutput store process =>
    answering .token (submitCompilerOutput hub state store process)
  | .receive operation process event =>
    ((receiveEvent state operation process event).1,
      .ofOutput (receiveEvent state operation process event).2)
  | .cancelledReceive operation => (state, .unreceived (Hub.cancelledReceive state operation))
  | .collectNative operation process =>
    ((collectNativeOutput state operation process).1,
      .ofOutput (collectNativeOutput state operation process).2)
  | .publishOutput operation process event =>
    answering unit (Hub.publishOutput state operation process event)
  | .dropOutput operation process wirePending completed =>
    (dropOutputRead state operation process wirePending completed, .done)
  | .collectOutput store token capacity =>
    answering .output (collectCompilerOutput state store token capacity)
  | .abandonOutput store token => answering unit (abandonCompilerOutput state store token)
  | .cancelOutput store token => answering .flag (cancelCompilerOutput state store token)
  | .submitWait store process => answering .token (submitCompilerWait hub state store process)
  | .publishWait operation result => (Hub.publishWait state operation result, .done)
  | .dropScalar operation => (dropScalarProducer state operation, .done)
  | .submitClose store process => answering .token (submitCompilerClose hub state store process)
  | .collectWait store token => answering .exit (collectCompilerWait state store token)
  | .abandonScalar store token closing =>
    answering unit (abandonCompilerScalar state store token closing)
  | .abandonCompilerResource store token grant =>
    answering unit (Hub.abandonCompilerResource state store token grant)
  | .finishJob operation succeeded => (Hub.finishJob state operation succeeded, .done)
  | .pollJobs => (pollProcessJobs state, .done)
  | .hashCreate store => answering .token (submitHashCreate hub state store)
  | .hashUpdate store hash bytes =>
    answering .token (submitHashUpdate hub state store hash bytes)
  | .abandonHashOperation store token =>
    answering unit (Hub.abandonHashOperation state store token)
  | .finishHash store token => answering .bytes (Hub.finishHash state store token)
  | .abandonHash store token => answering unit (Hub.abandonHash state store token)
  | .openBudget budget => (Hub.openBudget state budget, .done)
  | .acquireLease budget bytes => answering unit (Hub.acquireLease hub state budget bytes)
  | .dropLease budget bytes =>
    ((Hub.dropLease state budget bytes).1, .flag (Hub.dropLease state budget bytes).2)
  | .beginTeardown budget => (Hub.beginTeardown state budget, .done)
  | .finishTeardown budget => answering unit (Hub.finishTeardown state budget)

end KernalApi.Hub
