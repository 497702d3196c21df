import KernalApi.Std.Overwrite
import KernalApi.Std.Saturating
import KernalApi.Std.SortedMap

/-!
# Values held by the operation hub

Tokens, terminal results, limits, resource and operation slots of
`src/wasm/operations.rs`, with the process and component values of its
submodules. Wake-ups, progress reporters and native handles carry no state that
a section reads, so a slot keeps only whether such a handle is present.

Two fields are ghosts that no section reads: `ResourceSlot.origin` names the
path that reserved a slot and `OperationSlot.purpose` the call that submitted
an operation.
-/

namespace KernalApi.Hub

open KernalApi.Std

/-- An opaque wire token; tokens are drawn from one increasing counter. -/
abbrev OpaqueToken := Nat

/-- One logical Store or thread instance of the sketch. -/
abbrev Store := Nat

abbrev Bytes := List UInt8

def maxClosedTombstones : Nat := 128
def maxWireToken : Nat := 2 ^ 56 - 1
def u32Max : Nat := 2 ^ 32 - 1
def u64Max : Nat := 2 ^ 64 - 1

def externalWebviewResourceKind : Nat := 2
def blobResourceKind : Nat := 3
def outputResourceKind : Nat := 4
def webviewUrlResourceKind : Nat := 5
def hashKind : Nat := 9
def grantKind : Nat := 10
def processKind : Nat := 11

def externalWebviewRightCapture : Nat := 0b10
def externalWebviewRights : Nat := 0b1111
def blobRightRead : Nat := 0b01
def blobRightWrite : Nat := 0b10
def blobRights : Nat := 0b11
def outputRightCommit : Nat := 0b01
def webviewUrlRightOpen : Nat := 1
def hashRight : Nat := 1
def processRight : Nat := 1

def maxWebviewUrlBytes : Nat := 16 * 1024
def maxHashChunk : Nat := 64 * 1024
def maxProcessJobs : Nat := 4
def maxProcessOutputChunk : Nat := 64 * 1024
def maxProcessOutputBytes : Nat := 64 * 1024 * 1024
def nativeProcessOutputAllowance : Nat := 7 * maxProcessOutputChunk

/-- Why an operation ended. -/
inductive Terminal where
  | completed
  | cancelled
  | timedOut
  | trapped
  | ownerExited
  | closed
  | rejected
deriving DecidableEq, Repr

/-- Why a resource or the whole hub is revoked. No caller revokes by completing. -/
abbrev Revocation := { terminal : Terminal // terminal ≠ .completed }

abbrev Revocation.closed : Revocation := ⟨.closed, by decide⟩
abbrev Revocation.cancelled : Revocation := ⟨.cancelled, by decide⟩
abbrev Revocation.timedOut : Revocation := ⟨.timedOut, by decide⟩

/-- The single result an operation publishes. -/
structure TerminalResult where
  terminal : Terminal
  resource : Option OpaqueToken
deriving DecidableEq, Repr

inductive HubError where
  | quota
  | invalid
  | stale
  | wrongKind
  | wrongRights
  | closed
  | exhausted
deriving DecidableEq, Repr

/-- How the public limit constructors refuse. -/
inductive SketchCompilerError where
  | invalidStackLimit
  | invalidExecutionLimits
  | invalidEpochLimits
  | invalidFuelLimits
  | unavailable
deriving DecidableEq, Repr

/-- Bulk-data limits that the constructors accept. The ordering of the byte
limits and the pull headroom are part of the value. -/
structure BlobLimits where
  maximumChunkBytes : Nat
  maximumBlobBytes : Nat
  maximumSketchBytes : Nat
  maximumLiveBlobs : Nat
  maximumPendingReads : Nat
  maximumPendingWrites : Nat
  maximumTransferBytes : Nat
  chunkPositive : 0 < maximumChunkBytes
  chunk_le_blob : maximumChunkBytes ≤ maximumBlobBytes
  blob_le_sketch : maximumBlobBytes ≤ maximumSketchBytes
  transferCovers : maximumChunkBytes * 2 + maximumSketchBytes ≤ maximumTransferBytes
  transferRepresentable : maximumTransferBytes ≤ usizeMax

namespace BlobLimits

/-- `BlobLimits::new`: default counts and a transfer budget of three sketches
and one chunk. -/
def new (maximumChunkBytes maximumBlobBytes maximumSketchBytes : Nat) :
    Except HubError BlobLimits :=
  if disordered : maximumChunkBytes = 0 ∨ maximumBlobBytes < maximumChunkBytes ∨
      maximumSketchBytes < maximumBlobBytes then .error .quota
  else if fits : maximumSketchBytes * 3 + maximumChunkBytes ≤ usizeMax then
    .ok {
      maximumChunkBytes, maximumBlobBytes, maximumSketchBytes
      maximumLiveBlobs := 128
      maximumPendingReads := 128
      maximumPendingWrites := 128
      maximumTransferBytes := maximumSketchBytes * 3 + maximumChunkBytes
      chunkPositive := by omega
      chunk_le_blob := by omega
      blob_le_sketch := by omega
      transferCovers := by omega
      transferRepresentable := fits }
  else .error .quota

/-- `SketchBlobLimits::new`: chunk lengths must also fit the 32-bit wire field. -/
def sketch (maximumChunkBytes maximumBlobBytes maximumSketchBytes maximumLiveBlobs
    maximumPendingReads maximumPendingWrites : Nat) : Except SketchCompilerError BlobLimits :=
  match new maximumChunkBytes maximumBlobBytes maximumSketchBytes with
  | .error _ => .error .invalidExecutionLimits
  | .ok limits =>
    if u32Max < maximumChunkBytes then .error .invalidExecutionLimits
    else .ok { limits with maximumLiveBlobs, maximumPendingReads, maximumPendingWrites }

/-- `SketchBlobLimits::with_maximum_transfer_bytes`. -/
def withMaximumTransferBytes (limits : BlobLimits) (maximum : Nat) :
    Except SketchCompilerError BlobLimits :=
  if covered : limits.maximumChunkBytes * 2 + limits.maximumSketchBytes ≤ maximum ∧
      maximum ≤ usizeMax then
    .ok { limits with
      maximumTransferBytes := maximum
      transferCovers := covered.1
      transferRepresentable := covered.2 }
  else .error .invalidExecutionLimits

/-- The budget left to writers, one chunk below the transfer limit. -/
def writeTransferBytes (limits : BlobLimits) : Nat :=
  limits.maximumTransferBytes - limits.maximumChunkBytes

/-- The sketch limit is below the largest word. -/
theorem maximumSketchBytes_lt (limits : BlobLimits) : limits.maximumSketchBytes < usizeMax := by
  have covers := limits.transferCovers
  have positive := limits.chunkPositive
  have representable := limits.transferRepresentable
  omega

end BlobLimits

/-- Answers of the process allocator, indexed by the number of earlier
requests. A reservation may be refused; what is granted covers the request. -/
structure Allocator where
  reserveExact : Nat → Nat → Option Nat
  withCapacity : Nat → Nat → Nat
  reserveExact_le : ∀ {index requested granted},
    reserveExact index requested = some granted → requested ≤ granted
  le_withCapacity : ∀ index requested, requested ≤ withCapacity index requested

/-- An allocator that never grants spare capacity. -/
structure Allocator.Exact (allocator : Allocator) : Prop where
  reserveExact : ∀ {index requested granted},
    allocator.reserveExact index requested = some granted → granted = requested
  withCapacity : ∀ index requested, allocator.withCapacity index requested = requested

/-- The allocator that grants every request exactly. -/
def Allocator.exact : Allocator where
  reserveExact _ requested := some requested
  withCapacity _ requested := requested
  reserveExact_le granted := by
    cases granted
    exact Nat.le_refl _
  le_withCapacity _ _ := Nat.le_refl _

/-- The fixed configuration of one hub. -/
structure OperationHub where
  scope : Nat
  maximumOperations : Nat
  maximumResources : Nat
  blobLimits : BlobLimits
  allocator : Allocator

/-- Bytes with the capacity of their backing allocation. -/
structure ByteBuffer where
  bytes : Bytes
  capacity : Nat
  fits : bytes.length ≤ capacity

namespace ByteBuffer

/-- A buffer without an allocation. -/
def empty : ByteBuffer := ⟨[], 0, Nat.zero_le _⟩

/-- An exactly sized allocation. -/
def ofBytes (bytes : Bytes) : ByteBuffer := ⟨bytes, bytes.length, Nat.le_refl _⟩

/-- Enlarge the allocation. -/
def grow (buffer : ByteBuffer) (capacity : Nat) : ByteBuffer :=
  ⟨buffer.bytes, max buffer.capacity capacity, buffer.fits.trans (Nat.le_max_left _ _)⟩

/-- Append bytes, enlarging the allocation only when they do not fit. -/
def extend (buffer : ByteBuffer) (bytes : Bytes) : ByteBuffer :=
  ⟨buffer.bytes ++ bytes, max buffer.capacity (buffer.bytes.length + bytes.length),
    by rw [List.length_append]; exact Nat.le_max_right _ _⟩

/-- Remove a prefix. A drained buffer gives its allocation back. -/
def drain (buffer : ByteBuffer) (count : Nat) : ByteBuffer :=
  if buffer.bytes.length ≤ count then empty
  else ⟨buffer.bytes.drop count, buffer.capacity, by
    rw [List.length_drop]; exact (Nat.sub_le _ _).trans buffer.fits⟩

/-- Replace bytes in place. -/
def overwrite (buffer : ByteBuffer) (position : Nat) (bytes : Bytes) : ByteBuffer :=
  ⟨overwriteAt buffer.bytes position bytes, buffer.capacity, by
    rw [length_overwriteAt]
    exact buffer.fits⟩

@[simp] theorem capacity_grow (buffer : ByteBuffer) (capacity : Nat) :
    (buffer.grow capacity).capacity = max buffer.capacity capacity := rfl
@[simp] theorem bytes_extend (buffer : ByteBuffer) (bytes : Bytes) :
    (buffer.extend bytes).bytes = buffer.bytes ++ bytes := rfl
@[simp] theorem capacity_extend (buffer : ByteBuffer) (bytes : Bytes) :
    (buffer.extend bytes).capacity = max buffer.capacity (buffer.bytes.length + bytes.length) := rfl

/-- Draining removes exactly a prefix of the bytes. -/
@[simp] theorem bytes_drain (buffer : ByteBuffer) (count : Nat) :
    (buffer.drain count).bytes = buffer.bytes.drop count := by
  unfold drain
  split
  next short => rw [List.drop_eq_nil_of_le short]; rfl
  next => rfl

end ByteBuffer

/-- Which path reserved a resource slot. -/
inductive Origin where
  | granted
  | dispatched
  | external
  | encoded
  | compiler
  | hashed
deriving DecidableEq, Repr

/-- Which call submitted an operation. -/
inductive Purpose where
  | dispatched
  | external
  | clock
  | seal
  | write
  | read
  | commit
  | hash
  | spawn
  | outputRead
  | wait
  | closeProcess
deriving DecidableEq, Repr

structure ResourceIdentity where
  scope : Nat
  slot : Nat
  generation : Nat
  kind : Nat
  rights : Nat
deriving DecidableEq, Repr

/-- The parts of a host command that granting a compiler checks. -/
structure SpawnSpec where
  programAbsolute : Bool
  currentDirAbsolute : Bool
  clearEnv : Bool
  ownedBySpawner : Bool
deriving DecidableEq, Repr

/-- A one-shot grant; the deadline is in nanoseconds. -/
structure CompilerGrant where
  spec : Option SpawnSpec
  deadline : Nat
  cache : Option (Bytes × Bool)
deriving DecidableEq, Repr

structure CompilerProcess where
  session : Bool
  outputBusy : Bool
  outputBytes : Nat
  outputLimit : Nat
deriving DecidableEq, Repr

inductive ResourceValue where
  | compilerGrant (grant : CompilerGrant)
  | compilerProcess (process : CompilerProcess)
  | blake3 (absorbed : Bytes)
  | synthetic
  | externalWebview
  | webviewUrl (url : String)
  | blob (buffer : ByteBuffer) (sealed : Bool)
  | exactOutput (path : String)

namespace ResourceValue

/-- The bytes buffered in a blob; every other value buffers none. -/
def buffered : ResourceValue → Nat
  | .blob buffer _ => buffer.bytes.length
  | _ => 0

/-- The allocation a blob retains. -/
def retained : ResourceValue → Nat
  | .blob buffer _ => buffer.capacity
  | _ => 0

def isBlob : ResourceValue → Bool
  | .blob _ _ => true
  | _ => false

/-- Whether the value is a blob that takes no more bytes. -/
def closedToWriters : ResourceValue → Bool
  | .blob _ complete => complete
  | _ => false

end ResourceValue

/-- A value as a new resource receives it: without an allocation of its own and
open to writers. -/
structure FreshValue where
  value : ResourceValue
  fresh : value.retained = 0
  writable : value.closedToWriters = false

/-- A blob without bytes. -/
def FreshValue.blob : FreshValue := ⟨.blob .empty false, rfl, rfl⟩

@[simp] theorem FreshValue.blob_value : FreshValue.blob.value = .blob .empty false := rfl

def FreshValue.externalWebview : FreshValue := ⟨.externalWebview, rfl, rfl⟩

@[simp] theorem FreshValue.externalWebview_value : externalWebview.value = .externalWebview := rfl

def FreshValue.webviewUrl (url : String) : FreshValue := ⟨.webviewUrl url, rfl, rfl⟩

@[simp] theorem FreshValue.webviewUrl_value (url : String) :
    (webviewUrl url).value = .webviewUrl url := rfl

/-- The length of a pull after its caller refused zero. -/
abbrev PullBytes := { maximum : Nat // 0 < maximum }

structure ResourceSlot where
  identity : ResourceIdentity
  owner : Store
  shareable : Bool
  value : ResourceValue
  reserved : Bool
  committing : Bool
  origin : Origin

inductive CompilerScalarKind where
  | wait
  | close
deriving DecidableEq, Repr

/-- An exit as far as the collector reports it. -/
structure ProcessSessionExit where
  exitCode : Option Nat
  isSuccess : Bool
deriving DecidableEq, Repr

/-- One output event; a chunk carries its stream, its bytes and their
allocation. -/
inductive ProcessOutputEvent where
  | chunk (standardError : Bool) (data : ByteBuffer)
  | finished (standardError : Bool)

structure DeferredCompletion where
  result : TerminalResult
  revoke : Option OpaqueToken
deriving DecidableEq, Repr

structure OperationSlot where
  compilerScalar : Option CompilerScalarKind := none
  compilerExit : Option ProcessSessionExit := none
  isCompilerRead : Bool := false
  compilerOutput : Option (Option ProcessOutputEvent) := none
  isCompilerSpawn : Bool := false
  isHashOperation : Bool := false
  owner : Store
  resource : Option OpaqueToken
  requiredRights : Nat
  terminal : Option TerminalResult := none
  deferredCompletion : Option DeferredCompletion := none
  suspended : Bool := false
  createdResource : Option OpaqueToken := none
  pendingBlobWrite : Option ByteBuffer := none
  pendingBlobRead : Option PullBytes := none
  isBlobRead : Bool := false
  isBlobWrite : Bool := false
  blobReadResult : Option ByteBuffer := none
  producerCancel : Bool := false
  progressTimeoutCancel : Bool := false
  purpose : Purpose

namespace OperationSlot

/-- A compiler read or wait keeps its completion revocable until collection. -/
def revocable (operation : OperationSlot) : Bool :=
  operation.isCompilerRead || operation.compilerScalar = some .wait

/-- `ready_read`: a completed revocable observation. -/
def readyRead (operation : OperationSlot) : Bool :=
  operation.revocable && operation.terminal.any fun old => old.terminal = .completed

/-- `replace_ready`: whether a result may replace the published one. -/
def replaceReady (operation : OperationSlot) (result : TerminalResult) : Bool :=
  operation.readyRead && result.terminal ≠ .completed

/-- The capacity held by an operation: pending input, uncollected read result
and uncollected process output. -/
def retained (operation : OperationSlot) : Nat :=
  operation.pendingBlobWrite.elim 0 ByteBuffer.capacity +
    operation.blobReadResult.elim 0 ByteBuffer.capacity +
    (if operation.compilerOutput.isSome then maxProcessOutputChunk else 0)

/-- The same capacity as `transfer_capacity` adds it up. -/
def charged (operation : OperationSlot) : Nat :=
  saturatingAdd (saturatingAdd (operation.pendingBlobWrite.elim 0 ByteBuffer.capacity)
      (operation.blobReadResult.elim 0 ByteBuffer.capacity))
    (if operation.compilerOutput.isSome then maxProcessOutputChunk else 0)

theorem charged_eq (operation : OperationSlot) :
    operation.charged = min operation.retained usizeMax := by
  exact saturatingAdd_min _ _

end OperationSlot

/-- A supervised task with its observed result. -/
structure Job where
  operation : OpaqueToken
  result : Option Bool := none
deriving DecidableEq, Repr

/-- The credits of one component table. -/
structure Budget where
  resources : Nat := 0
  chargedBytes : Nat := 0
  draining : Bool := false
deriving DecidableEq, Repr

end KernalApi.Hub
