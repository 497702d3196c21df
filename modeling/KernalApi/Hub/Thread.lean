import KernalApi.Semantics.Interleaving
import KernalApi.Hub.Section

/-!
# Calls as threads of critical sections

A call of the hub is a thread that runs one critical section at a time. Most
calls are a fixed sequence, written with `attempt` and `test`; calls whose later
sections use tokens or bytes from earlier ones have program points of their own.
A native object that outlives its call (a chunk, an encoder, a lease, a backend's
operation) is a thread at rest, and so is a launched job.
-/

namespace KernalApi.Hub

/-- One commit of a blob to an output, with the operation it works for. -/
structure Commit where
  store : Store
  blob : OpaqueToken
  output : OpaqueToken
  operation : Option OpaqueToken
deriving DecidableEq, Repr

/-- A `NativeBlobEncoder`. -/
structure Encoder where
  store : Store
  blob : OpaqueToken
  boundOperation : Option OpaqueToken
  maximumBytes : Nat
  written : Nat := 0
  position : Nat := 0
  failed : Bool := false
deriving DecidableEq, Repr

/-- What a dispatched request does once its operation exists. -/
structure Dispatch where
  store : Store
  resource : Option OpaqueToken
  kind : Nat
  rights : Nat
  created : Option OpaqueToken
  revoke : Option OpaqueToken
deriving DecidableEq, Repr

namespace Dispatch

/-- The completion a dispatched operation publishes. -/
def completion (dispatch : Dispatch) : DeferredCompletion :=
  ⟨⟨.completed, dispatch.created⟩, dispatch.revoke⟩

end Dispatch

/-- A program point. -/
inductive Thread where
  | returned (succeeded : Bool)
  /-- Run a section, then continue by whether it failed. -/
  | attempt (section' : Section) (next failed : Thread)
  /-- Run a section that answers yes or no. -/
  | test (section' : Section) (yes no failed : Thread)
  /-- `drive_blob_writes`: about to run a write pass. -/
  | pumpWrites (next failed : Thread)
  /-- Between a write pass and the read pass that ends it. -/
  | pumpTail (progressed : Bool) (next failed : Thread)
  | dispatchCreate (store : Store) (kind rights : Nat) (shareable : Bool) (fresh : FreshValue)
  | dispatchSubmit (dispatch : Dispatch)
  | dispatchAttach (dispatch : Dispatch) (operation resource : OpaqueToken)
  | completeJob (operation : OpaqueToken) (deferred : DeferredCompletion)
  | grantCreate (store : Store) (kind rights : Nat) (fresh : FreshValue) (missing : HubError)
  | openCreate (store : Store) (grant : Option OpaqueToken)
  | openSubmit (store : Store) (grant : Option OpaqueToken) (resource : OpaqueToken)
  | openAttach (store : Store) (operation resource : OpaqueToken)
  | opening (operation resource : OpaqueToken)
  | externalSubmit (store : Store) (resource : OpaqueToken) (rights : Nat)
  | external (store : Store) (operation : OpaqueToken)
  | clockSubmit (store : Store)
  | clockBind (store : Store) (operation : OpaqueToken)
  | clock (operation : OpaqueToken)
  | sealSubmit (store : Store) (blob : OpaqueToken)
  | writeSubmit (store : Store) (blob : OpaqueToken) (length : Nat) (copy : ByteBuffer)
  | readSubmit (store : Store) (blob : OpaqueToken) (maximum : PullBytes)
  | chunkRead (store : Store) (blob : OpaqueToken) (maximum : Nat)
  | chunk (capacity : Nat)
  | suspending (operation : OpaqueToken) (store : Store) (stream : Bool)
  | arming (operation : OpaqueToken) (store : Store)
  | idleTimer (operation : OpaqueToken)
  | encoderCreate (store : Store) (operation : Option OpaqueToken) (maximumBytes : Nat)
  | encoderBind (encoder : Encoder) (operation : OpaqueToken)
  | encoder (encoder : Encoder)
  /-- A write is being placed: any hole before the position is filled first. -/
  | encoderFill (encoder : Encoder) (bytes : Bytes)
  | encoderZeros (encoder : Encoder) (zeros : Bytes) (total : Nat) (bytes : Bytes)
  | encoderOverwrite (encoder : Encoder) (bytes : Bytes)
  | encoderAppend (encoder : Encoder) (rest : Bytes) (total finish : Nat)
  | encoderFinish (encoder : Encoder) (operation : Option OpaqueToken)
  | commitSubmit (store : Store) (blob output : OpaqueToken)
  | commitLaunch (commit : Commit) (operation : OpaqueToken)
  | commitCheck (commit : Commit)
  | commitPath (commit : Commit)
  | commitStart (commit : Commit)
  | commitTemporary (commit : Commit) (tries : Nat)
  | commitLoop (commit : Commit) (written : Bytes)
  | commitRead (commit : Commit) (written : Bytes)
  | commitWrite (commit : Commit) (written : Bytes) (data : ByteBuffer)
  | commitFinal (commit : Commit) (written : Bytes)
  | commitReplace (commit : Commit) (written : Bytes)
  | commitRelease (commit : Commit) (replaced : Bool)
  | commitDone (commit : Commit) (replaced : Bool)
  | spawnSubmit (store : Store) (grant : OpaqueToken)
  | supervise (operation process : OpaqueToken)
  | supervising (operation process : OpaqueToken)
  | cleaning (operation : OpaqueToken)
  | outputBegin (store : Store) (process : OpaqueToken)
  | outputLease (operation process : OpaqueToken)
  | outputReady (operation process : OpaqueToken)
  | outputSubmit (store : Store) (process : OpaqueToken)
  | outputJob (operation process : OpaqueToken)
  | outputReceived (operation process : OpaqueToken) (event : Option ProcessOutputEvent)
  | waitSubmit (store : Store) (process : OpaqueToken)
  | waitJob (store : Store) (operation process : OpaqueToken)
  | waiting (store : Store) (operation process : OpaqueToken)
  | closeSubmit (store : Store) (process : OpaqueToken)
  | closeJob (operation : OpaqueToken)
  | leaseAcquire (budget bytes : Nat)
  | lease (budget bytes : Nat)

/-- What the surroundings decide at a program point. -/
inductive Choice where
  | proceed
  | giveUp
  | finish (terminal : Terminal)
  | write (bytes : Bytes)
  | seek (position : Nat)
  | capture (maximumBytes : Nat)
  | publish (operation : Option OpaqueToken)
  | received (event : Option ProcessOutputEvent)
  | exited (exit : ProcessSessionExit)

/-- A thread's next move: a section, or work outside the lock. -/
inductive Move where
  | locked (section' : Section)
  | outside

namespace Thread

/-- `drive_blob_writes()?; drive_blob_reads()?` and then return. -/
def pumpBoth (next failed : Thread) : Thread :=
  .pumpWrites (.attempt .readPass next failed) failed

/-- Both pumps with their errors ignored, as destructors run them. -/
def pumpQuietly (next : Thread) : Thread :=
  .pumpWrites (.attempt .readPass next next) (.attempt .readPass next next)

/-- `close_resource` on the caller's own reservation; it goes on whatever the
answer was. -/
def closing (resource : OpaqueToken) (next : Thread) : Thread :=
  .attempt (.reclaim resource) (.pumpWrites next next) next

/-- Dropping a native chunk. -/
def dropChunk (capacity : Nat) (next : Thread) : Thread :=
  .attempt (.releaseNative capacity) next.pumpQuietly next.pumpQuietly

/-- `finish_deferred_completion`. -/
def finishing (operation : OpaqueToken) (deferred : DeferredCompletion) (next failed : Thread) :
    Thread :=
  .test (.finishDeferred operation deferred) (.pumpWrites next failed) next failed

/-- Dropping an encoder that still owns its blob. -/
def dropEncoder (encoder : Encoder) (succeeded : Bool) : Thread :=
  closing encoder.blob (.returned succeeded)

/-- Dropping an output lease. -/
def dropLease (operation process : OpaqueToken) (wirePending completed succeeded : Bool) : Thread :=
  .attempt (.dropOutput operation process wirePending completed)
    (pumpQuietly (.returned succeeded)) (pumpQuietly (.returned succeeded))

/-- The end of a tracked process job. -/
def endJob (operation : OpaqueToken) (succeeded : Bool) : Thread :=
  .attempt (.finishJob operation succeeded) (.returned true) (.returned true)

end Thread

end KernalApi.Hub
