import KernalApi.Hub.Program

/-!
# The hub as a machine

`Call.thread` is the program of each entry point, with the checks it makes
before taking the lock. `machine` interleaves any number of calls, jobs and
native objects section by section. Other hubs of the process draw tokens from
the same counter, which is the machine's drift.
-/

namespace KernalApi.Hub

/-- An entry point of the hub with its arguments. -/
inductive Call where
  | blobCreate (store : Store)
  | syntheticYield (store : Store)
  | syntheticCreate (store : Store) (kind rights : Nat) (shareable : Bool)
  | syntheticUse (store : Store) (resource : OpaqueToken) (kind rights : Nat)
  | dispatchClose (store : Store) (resource : OpaqueToken)
  | grantWebviewUrl (store : Store) (url : String)
  | grantExactOutput (store : Store) (destination : String)
  | createBlob (store : Store)
  | beginExternalOpen (store : Store)
  | beginGrantedOpen (store : Store) (grant : OpaqueToken)
  | beginExternalOperation (store : Store) (resource : OpaqueToken) (rights : Nat)
  | beginExternalClose (store : Store) (resource : OpaqueToken)
  | clockSleep (store : Store)
  | poll (store : Store) (operation : OpaqueToken)
  | observeTerminal (store : Store) (operation : OpaqueToken)
  | suspend (store : Store) (operation : OpaqueToken)
  | suspendStream (store : Store) (operation : OpaqueToken)
  | cancel (store : Store) (operation : OpaqueToken)
  | abandonTransfer (store : Store) (operation : OpaqueToken)
  | abandonBlob (store : Store) (blob : OpaqueToken)
  | blobWrite (store : Store) (blob : OpaqueToken) (bytes : Bytes)
  | readBlobChunk (store : Store) (blob : OpaqueToken) (maximum : Nat)
  | submitBlobWrite (store : Store) (blob : OpaqueToken) (length : Nat) (copy : ByteBuffer)
  | submitBlobRead (store : Store) (blob : OpaqueToken) (maximum : Nat)
  | collectBlobRead (store : Store) (operation : OpaqueToken) (capacity : Nat)
  | sealBlob (store : Store) (blob : OpaqueToken)
  | sealWire (store : Store) (blob : OpaqueToken)
  | revokeExternal (resource : OpaqueToken) (reason : Revocation)
  | closeAll (reason : Revocation)
  | newEncoder (store : Store) (maximumBytes : Nat)
  | commitBlob (store : Store) (blob output : OpaqueToken)
  | submitOutputCommit (store : Store) (blob output : OpaqueToken)
  | grantCompiler (store : Store) (spec : SpawnSpec) (deadline : Nat)
    (cache : Option (Bytes × Bool))
  | compilerCacheStatus (store : Store) (grant : OpaqueToken) (key : Bytes)
  | submitCompilerSpawn (store : Store) (grant : OpaqueToken)
  | closeCompiler (store : Store) (process : OpaqueToken)
  | abandonCompilerSpawn (store : Store) (operation : OpaqueToken)
  | beginCompilerOutput (store : Store) (process : OpaqueToken)
  | submitCompilerOutput (store : Store) (process : OpaqueToken)
  | collectCompilerOutput (store : Store) (operation : OpaqueToken) (capacity : Nat)
  | abandonCompilerOutput (store : Store) (operation : OpaqueToken)
  | submitCompilerWait (store : Store) (process : OpaqueToken)
  | submitCompilerClose (store : Store) (process : OpaqueToken)
  | collectCompilerWait (store : Store) (operation : OpaqueToken)
  | abandonCompilerScalar (store : Store) (operation : OpaqueToken) (close : Bool)
  | abandonCompilerResource (store : Store) (resource : OpaqueToken) (grant : Bool)
  | joinProcessJobs
  | submitHashCreate (store : Store)
  | submitHashUpdate (store : Store) (hash : OpaqueToken) (bytes : Bytes)
  | abandonHashOperation (store : Store) (operation : OpaqueToken)
  | finishHash (store : Store) (hash : OpaqueToken)
  | abandonHash (store : Store) (hash : OpaqueToken)
  | newBudget (budget : Nat)
  | acquireLease (budget bytes : Nat)
  | beginTeardown (budget : Nat)
  | finishTeardown (budget : Nat)

namespace Call

/-- A call of one section and nothing after it. -/
def once (section' : Section) : Thread := .attempt section' (.returned true) (.returned false)

/-- A call of one section followed by both pumps. -/
def thenBoth (section' : Section) : Thread :=
  .attempt section' (Thread.pumpBoth (.returned true) (.returned false)) (.returned false)

/-- A call of one section followed by the write pump. -/
def thenWrites (section' : Section) : Thread :=
  .attempt section' (.pumpWrites (.returned true) (.returned false)) (.returned false)

/-- The program of a call. -/
def thread (hub : OperationHub) : Call → Thread
  | .blobCreate store =>
    .dispatchCreate store blobResourceKind blobRights false .blob
  | .syntheticYield store => .dispatchSubmit ⟨store, none, 0, 0, none, none⟩
  | .syntheticCreate store kind rights shareable =>
    .dispatchCreate store kind rights shareable ⟨.synthetic, rfl, rfl⟩
  | .syntheticUse store resource kind rights =>
    .dispatchSubmit ⟨store, some resource, kind, rights, none, none⟩
  | .dispatchClose store resource =>
    .attempt (.validateClose store resource)
      (.dispatchSubmit ⟨store, none, 0, 0, none, some resource⟩) (.returned false)
  | .grantWebviewUrl store url =>
    if url = "" ∨ maxWebviewUrlBytes < url.utf8ByteSize then .returned false
    else .grantCreate store webviewUrlResourceKind webviewUrlRightOpen (.webviewUrl url) .closed
  | .grantExactOutput store destination =>
    .grantCreate store outputResourceKind outputRightCommit
      ⟨.exactOutput destination, rfl, rfl⟩ .invalid
  | .createBlob store =>
    .grantCreate store blobResourceKind blobRights .blob .invalid
  | .beginExternalOpen store => .openCreate store none
  | .beginGrantedOpen store grant =>
    .attempt (.grantedUrl store grant) (.openCreate store (some grant)) (.returned false)
  | .beginExternalOperation store resource rights => .externalSubmit store resource rights
  | .beginExternalClose store resource =>
    .attempt (.validateClose store resource) (.externalSubmit store resource 0) (.returned false)
  | .clockSleep store => .attempt .acquireClock (.clockSubmit store) (.returned false)
  | .poll store operation =>
    .test (.pollsBlobRead operation) (.returned false) (once (.takeTerminal operation store))
      (.returned false)
  | .observeTerminal store operation => once (.takeTerminal operation store)
  | .suspend store operation => .suspending operation store false
  | .suspendStream store operation => .suspending operation store true
  | .cancel store operation =>
    .test (.cancelOutput store operation) (Thread.pumpBoth (.returned true) (.returned false))
      (.attempt (.takeOwner operation store)
        (once (.terminal operation ⟨.cancelled, none⟩)) (.returned false)) (.returned false)
  | .abandonTransfer store operation => thenBoth (.abandonTransfer store operation)
  | .abandonBlob store blob => thenWrites (.abandonBlob store blob)
  | .blobWrite store blob bytes =>
    .attempt (.blobWrite store blob bytes false)
      (.attempt .readPass (.returned true) (.returned false)) (.returned false)
  | .readBlobChunk store blob maximum => .chunkRead store blob maximum
  | .submitBlobWrite store blob length copy =>
    if hub.blobLimits.maximumChunkBytes < length then .returned false
    else .writeSubmit store blob length copy
  | .submitBlobRead store blob maximum =>
    if positive : 0 < maximum then
      if hub.blobLimits.maximumChunkBytes < maximum then .returned false
      else .readSubmit store blob ⟨maximum, positive⟩
    else .returned false
  | .collectBlobRead store operation capacity =>
    thenBoth (.collectRead store operation capacity)
  | .sealBlob store blob => thenBoth (.sealBlob store blob blobRightWrite)
  | .sealWire store blob => .sealSubmit store blob
  | .revokeExternal resource reason => thenWrites (.close resource reason)
  | .closeAll reason => once (.closeAll reason)
  | .newEncoder store maximumBytes =>
    if maximumBytes = 0 ∨ hub.blobLimits.maximumBlobBytes < maximumBytes then .returned false
    else .encoderCreate store none maximumBytes
  | .commitBlob store blob output => .commitCheck ⟨store, blob, output, none⟩
  | .submitOutputCommit store blob output => .commitSubmit store blob output
  | .grantCompiler store spec deadline cache => once (.grantCompiler store spec deadline cache)
  | .compilerCacheStatus store grant key => once (.cacheStatus store grant key)
  | .submitCompilerSpawn store grant => .spawnSubmit store grant
  | .closeCompiler store process => once (.closeCompiler store process)
  | .abandonCompilerSpawn store operation => once (.abandonSpawn store operation)
  | .beginCompilerOutput store process => .outputBegin store process
  | .submitCompilerOutput store process => .outputSubmit store process
  | .collectCompilerOutput store operation capacity =>
    thenBoth (.collectOutput store operation capacity)
  | .abandonCompilerOutput store operation => thenBoth (.abandonOutput store operation)
  | .submitCompilerWait store process => .waitSubmit store process
  | .submitCompilerClose store process => .closeSubmit store process
  | .collectCompilerWait store operation => once (.collectWait store operation)
  | .abandonCompilerScalar store operation close => once (.abandonScalar store operation close)
  | .abandonCompilerResource store resource grant =>
    once (.abandonCompilerResource store resource grant)
  | .joinProcessJobs => once .pollJobs
  | .submitHashCreate store => once (.hashCreate store)
  | .submitHashUpdate store hash bytes => once (.hashUpdate store hash bytes)
  | .abandonHashOperation store operation => once (.abandonHashOperation store operation)
  | .finishHash store hash => once (.finishHash store hash)
  | .abandonHash store hash => once (.abandonHash store hash)
  | .newBudget budget => once (.openBudget budget)
  | .acquireLease budget bytes => .leaseAcquire budget bytes
  | .beginTeardown budget => once (.beginTeardown budget)
  | .finishTeardown budget => thenBoth (.finishTeardown budget)

end Call

namespace Thread

/-- One step of a thread: its move, with the state and point it leads to. -/
def step (hub : OperationHub) (thread : Thread) (choice : Choice) (state : State) :
    Option (Thread × State × Option Thread) :=
  match thread.move hub choice with
  | none => none
  | some .outside =>
    let resumed := thread.resumeOutside hub choice
    some (resumed.1, state, resumed.2)
  | some (.locked section') =>
    let outcome := section'.run hub state
    let resumed := thread.resumeLocked hub choice outcome.2
    some (resumed.1, outcome.1, resumed.2)

end Thread

/-- A token drawn by another hub of the process. -/
def State.drift (state : State) : State := state.nextToken.1

/-- The hub under every interleaving of its calls. -/
def machine (hub : OperationHub) : Semantics.Machine State Thread Move where
  Initial state := ∃ drawn, 1 ≤ drawn ∧ state = { nextOpaqueToken := drawn }
  Entry thread := ∃ call : Call, thread = call.thread hub
  Step thread move state thread' state' launched :=
    ∃ choice, thread.move hub choice = some move ∧
      thread.step hub choice state = some (thread', state', launched)
  Drift state state' := state' = state.drift

end KernalApi.Hub
