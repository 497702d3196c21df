import KernalApi.Std.Duration
import KernalApi.Hub.Value
import KernalApi.Worker.Protocol

/-!
# The limits of a worker

The parent writes the limits of its compiler and the policy of the module into
the metadata of a request, and the worker builds them again with the same
constructors. A value of each limit type carries what its constructor tests;
`usize` has 64 bits, so the conversions between `usize` and `u64` always succeed.
-/

namespace KernalApi.Worker

open KernalApi.Std Duration
open KernalApi.Hub (BlobLimits SketchCompilerError u32Max)

variable {target : Target}

/-- The text of a refused limit. -/
def compilerText : SketchCompilerError → String
  | .invalidStackLimit => "the Wasm stack limit must be nonzero"
  | .invalidExecutionLimits =>
    "execution limits must admit one 1 GiB threaded Rust session and one root"
  | .invalidEpochLimits => "epoch limits must have a nonzero deadline, tick, and quota"
  | .invalidFuelLimits => "fuel limits must reserve nonzero root and all bounded child slices"
  | .unavailable => "the sketch compiler is unavailable"

/-- How the constructors of a module policy refuse. -/
inductive SketchModuleError where
  | invalidModuleLimit
  | invalidSharedMemoryLimit
  | invalidThreadLimit
  | threadLimitExceedsV1Maximum (requested maximum : UInt64)
  deriving DecidableEq

namespace SketchModuleError

def code : SketchModuleError → String
  | .invalidModuleLimit => "invalid-module-limit"
  | .invalidSharedMemoryLimit => "invalid-shared-memory-limit"
  | .invalidThreadLimit => "invalid-thread-limit"
  | .threadLimitExceedsV1Maximum _ _ => "thread-limit-exceeds-v1-maximum"

def text (error : SketchModuleError) : String := "sketch admission failed (" ++ error.code ++ ")"

end SketchModuleError

section Fuel

structure SketchFuelLimits where
  total : UInt64
  rootSlice : UInt64
  childSlice : UInt64
  root_ne_zero : rootSlice ≠ 0
  child_ne_zero : childSlice ≠ 0
  covered : rootSlice.toNat + childSlice.toNat ≤ total.toNat

def SketchFuelLimits.new (total rootSlice childSlice : UInt64) :
    Except SketchCompilerError SketchFuelLimits :=
  if valid : rootSlice ≠ 0 ∧ childSlice ≠ 0 ∧ rootSlice ≤ total ∧
    childSlice ≤ total - rootSlice then
    .ok {
      total, rootSlice, childSlice
      root_ne_zero := valid.1
      child_ne_zero := valid.2.1
      covered := by
        have below := UInt64.le_iff_toNat_le.mp valid.2.2.1
        have available := UInt64.le_iff_toNat_le.mp valid.2.2.2
        rw [UInt64.toNat_sub_of_le _ _ valid.2.2.1] at available
        omega }
  else .error .invalidFuelLimits

def SketchFuelLimits.default : SketchFuelLimits :=
  ⟨1700000, 100000, 100000, by decide, by decide, by decide⟩

theorem SketchFuelLimits.new_self (fuel : SketchFuelLimits) :
    new fuel.total fuel.rootSlice fuel.childSlice = .ok fuel := by
  have covered := fuel.covered
  have below : fuel.rootSlice ≤ fuel.total := UInt64.le_iff_toNat_le.mpr (by omega)
  have available : fuel.childSlice ≤ fuel.total - fuel.rootSlice := by
    rw [UInt64.le_iff_toNat_le, UInt64.toNat_sub_of_le _ _ below]
    omega
  exact dif_pos ⟨fuel.root_ne_zero, fuel.child_ne_zero, below, available⟩

end Fuel

section Epoch

structure SketchEpochLimits where
  wallClockDeadline : Duration
  tickInterval : Duration
  maximumActiveRegistrations : UInt64
  deadline_ne_zero : wallClockDeadline.isZero = false
  tick_ne_zero : tickInterval.isZero = false
  registrations_ne_zero : maximumActiveRegistrations ≠ 0

def SketchEpochLimits.new (wallClockDeadline tickInterval : Duration)
    (maximumActiveRegistrations : UInt64) : Except SketchCompilerError SketchEpochLimits :=
  if valid : wallClockDeadline.isZero = false ∧ tickInterval.isZero = false ∧
      maximumActiveRegistrations ≠ 0 then
    .ok ⟨wallClockDeadline, tickInterval, maximumActiveRegistrations, valid.1, valid.2.1, valid.2.2⟩
  else .error .invalidEpochLimits

theorem SketchEpochLimits.new_ok {deadline tick : Duration} {registrations : UInt64}
    {epoch : SketchEpochLimits} :
    new deadline tick registrations = .ok epoch ↔
      epoch.wallClockDeadline = deadline ∧ epoch.tickInterval = tick ∧
        epoch.maximumActiveRegistrations = registrations := by
  constructor
  · intro built
    unfold new at built
    split at built
    · cases built
      exact ⟨rfl, rfl, rfl⟩
    cases built
  · rintro ⟨rfl, rfl, rfl⟩
    exact dif_pos ⟨epoch.deadline_ne_zero, epoch.tick_ne_zero, epoch.registrations_ne_zero⟩

def maxGuestThreadsV1 : UInt64 := 16

def SketchEpochLimits.default : SketchEpochLimits :=
  ⟨.fromSecs 30, .fromMillis 10, maxGuestThreadsV1 + 1, by decide, by decide, by decide⟩

end Epoch

section Blobs

/-- What the public constructor tests of blob limits. A later transfer budget may be
below the default one, but the default one was computed. -/
structure Accepted (limits : BlobLimits) : Prop where
  chunk_le_wire : limits.maximumChunkBytes ≤ u32Max
  budgeted : limits.maximumSketchBytes * 3 + limits.maximumChunkBytes ≤ usizeMax
  live_le_word : limits.maximumLiveBlobs ≤ usizeMax
  reads_le_word : limits.maximumPendingReads ≤ usizeMax
  writes_le_word : limits.maximumPendingWrites ≤ usizeMax

structure SketchBlobLimits where
  limits : BlobLimits
  progressIdleTimeout : Duration
  accepted : Accepted limits
  timeout_ne_zero : progressIdleTimeout.isZero = false

/-- What the constructor of blob limits tests and returns. -/
theorem sketch_ok {chunk blob sketch live reads writes : Nat} {limits : BlobLimits} :
    BlobLimits.sketch chunk blob sketch live reads writes = .ok limits ↔
      chunk ≤ u32Max ∧ sketch * 3 + chunk ≤ usizeMax ∧ limits.maximumChunkBytes = chunk ∧
        limits.maximumBlobBytes = blob ∧ limits.maximumSketchBytes = sketch ∧
        limits.maximumLiveBlobs = live ∧ limits.maximumPendingReads = reads ∧
        limits.maximumPendingWrites = writes ∧
        limits.maximumTransferBytes = sketch * 3 + chunk := by
  obtain ⟨-, blob', sketch', live', reads', writes', transfer', positive, ordered, inside,
    covers, representable⟩ := limits
  unfold BlobLimits.sketch BlobLimits.new
  by_cases disordered : chunk = 0 ∨ blob < chunk ∨ sketch < blob
  · rw [dif_pos disordered]
    simp only [reduceCtorEq, false_iff]
    omega
  · rw [dif_neg disordered]
    by_cases fits : sketch * 3 + chunk ≤ usizeMax
    · rw [dif_pos fits]
      by_cases wide : u32Max < chunk
      · simp only [if_pos wide, reduceCtorEq, false_iff]
        omega
      simp only [if_neg wide, Except.ok.injEq, BlobLimits.mk.injEq]
      constructor
      · rintro ⟨rfl, rfl, rfl, rfl, rfl, rfl, rfl⟩
        exact ⟨by omega, fits, rfl, rfl, rfl, rfl, rfl, rfl, rfl⟩
      · rintro ⟨_, _, rfl, rfl, rfl, rfl, rfl, rfl, rfl⟩
        exact ⟨rfl, rfl, rfl, rfl, rfl, rfl, rfl⟩
    · rw [dif_neg fits]
      simp only [reduceCtorEq, false_iff]
      rintro ⟨_, budgeted, _⟩
      exact fits budgeted

theorem toNat_le_word (count : UInt64) : count.toNat ≤ usizeMax :=
  Nat.le_sub_one_of_lt count.toNat_lt

theorem toNat_ofNat_word {count : Nat} (fits : count ≤ usizeMax) :
    (UInt64.ofNat count).toNat = count := by
  exact Nat.mod_eq_of_lt (Nat.lt_of_le_of_lt fits (by decide))

theorem accepted_of_sketch {chunk blob sketch live reads writes : UInt64} {limits : BlobLimits}
    (built : BlobLimits.sketch chunk.toNat blob.toNat sketch.toNat live.toNat reads.toNat
      writes.toNat = .ok limits) : Accepted limits := by
  obtain ⟨narrow, budgeted, chunkSame, _, sketchSame, liveSame, readsSame, writesSame, _⟩ :=
    sketch_ok.mp built
  refine ⟨?_, ?_, ?_, ?_, ?_⟩
  · rwa [chunkSame]
  · rwa [sketchSame, chunkSame]
  · rw [liveSame]
    exact toNat_le_word live
  · rw [readsSame]
    exact toNat_le_word reads
  · rw [writesSame]
    exact toNat_le_word writes

theorem accepted_of_transfer {limits larger : BlobLimits} {maximum : Nat}
    (accepted : Accepted limits) (built : limits.withMaximumTransferBytes maximum = .ok larger) :
    Accepted larger := by
  unfold BlobLimits.withMaximumTransferBytes at built
  split at built
  · cases built
    exact { accepted with }
  cases built

namespace SketchBlobLimits

def new (maximumChunkBytes maximumBlobBytes maximumSketchBytes maximumLiveBlobs
    maximumPendingReads maximumPendingWrites : UInt64) :
    Except SketchCompilerError SketchBlobLimits :=
  match built : BlobLimits.sketch maximumChunkBytes.toNat maximumBlobBytes.toNat
      maximumSketchBytes.toNat maximumLiveBlobs.toNat maximumPendingReads.toNat
      maximumPendingWrites.toNat with
  | .error error => .error error
  | .ok limits => .ok ⟨limits, .fromSecs 5, accepted_of_sketch built, by decide⟩

def withMaximumTransferBytes (blobs : SketchBlobLimits) (maximum : UInt64) :
    Except SketchCompilerError SketchBlobLimits :=
  match built : blobs.limits.withMaximumTransferBytes maximum.toNat with
  | .error error => .error error
  | .ok limits =>
    .ok { blobs with limits, accepted := accepted_of_transfer blobs.accepted built }

def withProgressIdleTimeout (blobs : SketchBlobLimits) (timeout : Duration) :
    Except SketchCompilerError SketchBlobLimits :=
  if zero : timeout.isZero = true then .error .invalidExecutionLimits
  else .ok { blobs with progressIdleTimeout := timeout, timeout_ne_zero := by simpa using zero }

/-- The transfer budget that `new` sets before a later one replaces it. -/
def budgeted (blobs : SketchBlobLimits) : SketchBlobLimits where
  limits := { blobs.limits with
    maximumTransferBytes := blobs.limits.maximumSketchBytes * 3 + blobs.limits.maximumChunkBytes
    transferCovers := by
      have ordered := blobs.limits.chunk_le_blob
      have inside := blobs.limits.blob_le_sketch
      omega
    transferRepresentable := blobs.accepted.budgeted }
  progressIdleTimeout := .fromSecs 5
  accepted := { blobs.accepted with }
  timeout_ne_zero := by decide

/-- The words of the limits build them again. -/
theorem new_words (blobs : SketchBlobLimits) :
    new (UInt64.ofNat blobs.limits.maximumChunkBytes) (UInt64.ofNat blobs.limits.maximumBlobBytes)
        (UInt64.ofNat blobs.limits.maximumSketchBytes) (UInt64.ofNat blobs.limits.maximumLiveBlobs)
        (UInt64.ofNat blobs.limits.maximumPendingReads)
        (UInt64.ofNat blobs.limits.maximumPendingWrites) = .ok blobs.budgeted := by
  have ordered := blobs.limits.chunk_le_blob
  have inside := blobs.limits.blob_le_sketch
  have sketchFits := Nat.le_of_lt blobs.limits.maximumSketchBytes_lt
  have known := (@sketch_ok _ _ _ _ _ _ blobs.budgeted.limits).mpr
    ⟨blobs.accepted.chunk_le_wire, blobs.accepted.budgeted, rfl, rfl, rfl, rfl, rfl, rfl, rfl⟩
  unfold new
  split
  all_goals
    rename_i built
    rw [toNat_ofNat_word (by omega), toNat_ofNat_word (by omega), toNat_ofNat_word sketchFits,
      toNat_ofNat_word blobs.accepted.live_le_word, toNat_ofNat_word blobs.accepted.reads_le_word,
      toNat_ofNat_word blobs.accepted.writes_le_word] at built
    cases built.symm.trans known
  rfl

theorem transfer_self (blobs : SketchBlobLimits) {maximum : UInt64}
    (same : maximum.toNat = blobs.limits.maximumTransferBytes) :
    blobs.budgeted.withMaximumTransferBytes maximum =
      .ok { blobs with progressIdleTimeout := .fromSecs 5, timeout_ne_zero := by decide } := by
  have known : blobs.budgeted.limits.withMaximumTransferBytes maximum.toNat = .ok blobs.limits := by
    rw [same]
    exact dif_pos ⟨blobs.limits.transferCovers, blobs.limits.transferRepresentable⟩
  unfold withMaximumTransferBytes
  split
  all_goals
    rename_i built
    rw [known] at built
    cases built
  rfl

def default : SketchBlobLimits where
  limits :=
    { maximumChunkBytes := 64 * 1024
      maximumBlobBytes := 1024 * 1024
      maximumSketchBytes := 4 * 1024 * 1024
      maximumLiveBlobs := 128
      maximumPendingReads := 128
      maximumPendingWrites := 128
      maximumTransferBytes := 12 * 1024 * 1024 + 64 * 1024
      chunkPositive := by decide
      chunk_le_blob := by decide
      blob_le_sketch := by decide
      transferCovers := by decide
      transferRepresentable := by decide }
  progressIdleTimeout := .fromSecs 5
  accepted := ⟨by decide, by decide, by decide, by decide, by decide⟩
  timeout_ne_zero := by decide

end SketchBlobLimits

end Blobs

section Compiler

def threadedRustReservationBytes : UInt64 := 16384 * 65536

structure SketchExecutionLimits where
  maximumReservedSharedMemoryBytes : UInt64
  maximumActiveRootExecutions : UInt64
  fuelLimits : SketchFuelLimits
  epochLimits : SketchEpochLimits
  blobLimits : SketchBlobLimits
  reserves : threadedRustReservationBytes ≤ maximumReservedSharedMemoryBytes
  roots_ne_zero : maximumActiveRootExecutions ≠ 0

namespace SketchExecutionLimits

def new (maximumReservedSharedMemoryBytes maximumActiveRootExecutions : UInt64) :
    Except SketchCompilerError SketchExecutionLimits :=
  if valid : threadedRustReservationBytes ≤ maximumReservedSharedMemoryBytes ∧
      maximumActiveRootExecutions ≠ 0 then
    .ok {
      maximumReservedSharedMemoryBytes, maximumActiveRootExecutions
      fuelLimits := .default
      epochLimits := .default
      blobLimits := .default
      reserves := valid.1
      roots_ne_zero := valid.2 }
  else .error .invalidExecutionLimits

/-- The fuel limits and the epoch limits are tested again where they are set, as
their types say. -/
def withFuelLimits (limits : SketchExecutionLimits) (fuelLimits : SketchFuelLimits) :
    Except SketchCompilerError SketchExecutionLimits := .ok { limits with fuelLimits }

def withEpochLimits (limits : SketchExecutionLimits) (epochLimits : SketchEpochLimits) :
    Except SketchCompilerError SketchExecutionLimits := .ok { limits with epochLimits }

def withBlobLimits (limits : SketchExecutionLimits) (blobLimits : SketchBlobLimits) :
    SketchExecutionLimits := { limits with blobLimits }

def default : SketchExecutionLimits :=
  ⟨threadedRustReservationBytes, 1, .default, .default, .default, by decide, by decide⟩

theorem new_self (limits : SketchExecutionLimits) :
    new limits.maximumReservedSharedMemoryBytes limits.maximumActiveRootExecutions =
      .ok { limits with
        fuelLimits := .default, epochLimits := .default, blobLimits := .default } :=
  dif_pos ⟨limits.reserves, limits.roots_ne_zero⟩

end SketchExecutionLimits

structure SketchCompilerConfig where
  maxWasmStackBytes : UInt64
  executionLimits : SketchExecutionLimits
  stack_ne_zero : maxWasmStackBytes ≠ 0

namespace SketchCompilerConfig

def new (maxWasmStackBytes : UInt64) : Except SketchCompilerError SketchCompilerConfig :=
  if zero : maxWasmStackBytes = 0 then .error .invalidStackLimit
  else .ok ⟨maxWasmStackBytes, .default, zero⟩

def withExecutionLimits (config : SketchCompilerConfig) (executionLimits : SketchExecutionLimits) :
    Except SketchCompilerError SketchCompilerConfig := .ok { config with executionLimits }

def default : SketchCompilerConfig := ⟨2 * 1024 * 1024, .default, by decide⟩

theorem new_self (config : SketchCompilerConfig) :
    new config.maxWasmStackBytes = .ok { config with executionLimits := .default } :=
  dif_neg config.stack_ne_zero

end SketchCompilerConfig

end Compiler

section Policy

inductive SketchAdmissionProfile where
  | syntheticV1
  | threadedRustV1
  deriving DecidableEq

structure SketchModulePolicy where
  maxModuleBytes : UInt64
  maxSharedMemoryPages : UInt32
  maxGuestThreads : UInt64
  profile : SketchAdmissionProfile
  module_ne_zero : maxModuleBytes ≠ 0
  pages_ne_zero : maxSharedMemoryPages ≠ 0
  threads_ne_zero : maxGuestThreads ≠ 0
  threads_le_maximum : maxGuestThreads ≤ maxGuestThreadsV1

namespace SketchModulePolicy

def new (maxModuleBytes : UInt64) (maxSharedMemoryPages : UInt32) :
    Except SketchModuleError SketchModulePolicy :=
  if noModule : maxModuleBytes = 0 then .error .invalidModuleLimit
  else if noPages : maxSharedMemoryPages = 0 then .error .invalidSharedMemoryLimit
  else .ok ⟨maxModuleBytes, maxSharedMemoryPages, maxGuestThreadsV1, .syntheticV1, noModule,
    noPages, by decide, by decide⟩

def threadedRustV1 (maxModuleBytes : UInt64) (maxSharedMemoryPages : UInt32) :
    Except SketchModuleError SketchModulePolicy := do
  let policy ← new maxModuleBytes maxSharedMemoryPages
  .ok { policy with profile := .threadedRustV1 }

def withMaxGuestThreads (policy : SketchModulePolicy) (maximum : UInt64) :
    Except SketchModuleError SketchModulePolicy :=
  if none : maximum = 0 then .error .invalidThreadLimit
  else if most : maximum ≤ maxGuestThreadsV1 then
    .ok { policy with
      maxGuestThreads := maximum, threads_ne_zero := none, threads_le_maximum := most }
  else .error (.threadLimitExceedsV1Maximum maximum maxGuestThreadsV1)

theorem threaded_self (policy : SketchModulePolicy) :
    threadedRustV1 policy.maxModuleBytes policy.maxSharedMemoryPages =
      .ok { policy with
        maxGuestThreads := maxGuestThreadsV1
        profile := .threadedRustV1
        threads_ne_zero := by decide
        threads_le_maximum := by decide } := by
  rw [threadedRustV1, new, dif_neg policy.module_ne_zero, dif_neg policy.pages_ne_zero]
  rfl

end SketchModulePolicy

end Policy

section Transport

/-- A count as a word, the largest word where it does not fit. -/
def saturatingWord (count : Nat) : UInt64 :=
  if count < 2 ^ 64 then UInt64.ofNat count else UInt64.ofNat (2 ^ 64 - 1)

variable (target) in
/-- What the parent writes of its limits, with the time left until its deadline. -/
def metadata (config : SketchCompilerConfig) (policy : SketchModulePolicy)
    (untilDeadline : Duration) : ExecuteMetadata target :=
  let limits := config.executionLimits
  let fuel := limits.fuelLimits
  let blobs := limits.blobLimits
  let epoch := limits.epochLimits
  let remaining := untilDeadline.max (.fromMillis 1)
  { blobLimits :=
      #v[UInt64.ofNat blobs.limits.maximumChunkBytes, UInt64.ofNat blobs.limits.maximumBlobBytes,
        UInt64.ofNat blobs.limits.maximumSketchBytes, UInt64.ofNat blobs.limits.maximumLiveBlobs,
        UInt64.ofNat blobs.limits.maximumPendingReads,
        UInt64.ofNat blobs.limits.maximumPendingWrites,
        UInt64.ofNat blobs.limits.maximumTransferBytes]
    blobProgressIdleTimeoutSecs := blobs.progressIdleTimeout.secs
    blobProgressIdleTimeoutNanos := blobs.progressIdleTimeout.nanos.toUInt64
    maxWasmStackBytes := config.maxWasmStackBytes
    reservedMemoryBytes := limits.maximumReservedSharedMemoryBytes
    maximumActiveRoots := limits.maximumActiveRootExecutions
    totalFuel := fuel.total
    rootFuel := fuel.rootSlice
    childFuel := fuel.childSlice
    epochDeadlineMillis := saturatingWord remaining.asMillis
    epochTickMillis := saturatingWord epoch.tickInterval.asMillis
    maximumEpochRegistrations := epoch.maximumActiveRegistrations
    maxModuleBytes := policy.maxModuleBytes
    maxSharedMemoryPages := policy.maxSharedMemoryPages
    maxGuestThreads := policy.maxGuestThreads }

/-- The nanoseconds of an idle timeout, as the worker reads them. -/
def idleTimeout (secs nanos : UInt64) : Except String Duration :=
  if 2 ^ 32 ≤ nanos.toNat then .error "blob-idle-timeout-nanos-overflow"
  else if subsecond : nanos.toUInt32.toNat < 1000000000 then
    .ok ⟨secs, nanos.toUInt32, subsecond⟩
  else .error "blob-idle-timeout-nanos-invalid"

/-- The worker's compiler configuration and module policy. -/
def reconstruct (metadata : ExecuteMetadata target) :
    Except String (SketchCompilerConfig × SketchModulePolicy) := do
  let values := metadata.blobLimits
  let timeout ← idleTimeout metadata.blobProgressIdleTimeoutSecs
    metadata.blobProgressIdleTimeoutNanos
  let blobs ← (SketchBlobLimits.new (values.get 0) (values.get 1) (values.get 2) (values.get 3)
    (values.get 4) (values.get 5)).mapError compilerText
  let blobs ← (blobs.withMaximumTransferBytes (values.get 6)).mapError compilerText
  let blobs ← (blobs.withProgressIdleTimeout timeout).mapError compilerText
  let fuel ← (SketchFuelLimits.new metadata.totalFuel metadata.rootFuel
    metadata.childFuel).mapError compilerText
  let epoch ← (SketchEpochLimits.new (.fromMillis metadata.epochDeadlineMillis)
    (.fromMillis metadata.epochTickMillis) metadata.maximumEpochRegistrations).mapError compilerText
  let limits ← (SketchExecutionLimits.new metadata.reservedMemoryBytes
    metadata.maximumActiveRoots).mapError compilerText
  let limits ← (limits.withFuelLimits fuel).mapError compilerText
  let limits ← (limits.withEpochLimits epoch).mapError compilerText
  let config ← (SketchCompilerConfig.new metadata.maxWasmStackBytes).mapError compilerText
  let config ← (config.withExecutionLimits (limits.withBlobLimits blobs)).mapError compilerText
  let policy ← (SketchModulePolicy.threadedRustV1 metadata.maxModuleBytes
    metadata.maxSharedMemoryPages).mapError SketchModuleError.text
  let policy ← (policy.withMaxGuestThreads metadata.maxGuestThreads).mapError SketchModuleError.text
  return (config, policy)

variable (config : SketchCompilerConfig) (policy : SketchModulePolicy) (untilDeadline : Duration)

/-- The limits with the epoch limits replaced. -/
def SketchCompilerConfig.withEpoch (epochLimits : SketchEpochLimits) : SketchCompilerConfig :=
  { config with executionLimits := { config.executionLimits with epochLimits } }

theorem idleTimeout_self (span : Duration) :
    idleTimeout span.secs span.nanos.toUInt64 = .ok span := by
  have narrow := span.nanos.toNat_lt
  have same : span.nanos.toUInt64.toUInt32 = span.nanos := UInt32.toUInt32_toUInt64 _
  have subsecond : span.nanos.toUInt64.toUInt32.toNat < 1000000000 := by
    rw [same]
    exact span.subsecond
  rw [idleTimeout, if_neg (by rw [UInt32.toNat_toUInt64]; omega), dif_pos subsecond]
  exact congrArg Except.ok (ext_asNanos (by simp only [same]))

theorem checked_bind {ε α β : Type} {text : ε → String} {result : Except ε α} {value : α}
    {next : α → Except String β} (granted : result = .ok value) :
    (result.mapError text >>= next) = next value := by
  rw [granted]
  rfl

/-- Every limit but those of the epochs passes its constructor again and is what it
was; the epoch limits are built from their milliseconds. -/
theorem reconstruct_metadata (threaded : policy.profile = .threadedRustV1) :
    reconstruct (metadata target config policy untilDeadline) =
      ((SketchEpochLimits.new
          (.fromMillis (saturatingWord (untilDeadline.max (.fromMillis 1)).asMillis))
          (.fromMillis (saturatingWord config.executionLimits.epochLimits.tickInterval.asMillis))
          config.executionLimits.epochLimits.maximumActiveRegistrations).mapError compilerText).map
        fun epoch => (config.withEpoch epoch, policy) := by
  have policySame : { policy with profile := .threadedRustV1 } = policy := by
    rw [← threaded]
  refine (congrArg (· >>= _) (idleTimeout_self _)).trans ?_
  refine (checked_bind config.executionLimits.blobLimits.new_words).trans ?_
  refine (checked_bind (config.executionLimits.blobLimits.transfer_self
    (toNat_ofNat_word (BlobLimits.transferRepresentable _)))).trans ?_
  refine (checked_bind
    (dif_neg (by simp [config.executionLimits.blobLimits.timeout_ne_zero]))).trans ?_
  refine (checked_bind config.executionLimits.fuelLimits.new_self).trans ?_
  show ((SketchEpochLimits.new
    (.fromMillis (saturatingWord (untilDeadline.max (.fromMillis 1)).asMillis))
    (.fromMillis (saturatingWord config.executionLimits.epochLimits.tickInterval.asMillis))
    config.executionLimits.epochLimits.maximumActiveRegistrations).mapError compilerText >>= _) = _
  cases SketchEpochLimits.new _ _ config.executionLimits.epochLimits.maximumActiveRegistrations with
  | error => rfl
  | ok =>
    refine (checked_bind rfl).trans ?_
    refine (checked_bind config.executionLimits.new_self).trans ?_
    refine (checked_bind rfl).trans ?_
    refine (checked_bind rfl).trans ?_
    refine (checked_bind config.new_self).trans ?_
    refine (checked_bind policy.threaded_self).trans ?_
    refine (checked_bind ((dif_neg policy.threads_ne_zero).trans
      (dif_pos policy.threads_le_maximum))).trans ?_
    exact congrArg Except.ok (congrArg (Prod.mk _) policySame)

theorem asNanos_saturatingWord (count : Nat) :
    (Duration.fromMillis (saturatingWord count)).asNanos = min count (2 ^ 64 - 1) * 1000000 := by
  rw [asNanos_fromMillis]
  congr 1
  unfold saturatingWord
  by_cases fits : count < 2 ^ 64
  · rw [if_pos fits, UInt64.toNat_ofNat', Nat.mod_eq_of_lt fits]
    omega
  · rw [if_neg fits]
    show 2 ^ 64 - 1 = _
    omega

theorem asMillis_remaining :
    (untilDeadline.max (.fromMillis 1)).asMillis = max 1 untilDeadline.asMillis := by
  rw [asMillis_eq, asNanos_max, asMillis_eq]
  show max untilDeadline.asNanos 1000000 / 1000000 = _
  omega

variable (target) in
/-- The worker's limits and policy are the parent's, but for the deadline, which is the
time left in whole milliseconds, one at least. -/
def Transported : Prop :=
  ∃ epoch : SketchEpochLimits,
    reconstruct (metadata target config policy untilDeadline) =
        .ok (config.withEpoch epoch, policy) ∧
      epoch.tickInterval = config.executionLimits.epochLimits.tickInterval ∧
      epoch.maximumActiveRegistrations =
        config.executionLimits.epochLimits.maximumActiveRegistrations ∧
      epoch.wallClockDeadline.asNanos = max 1 untilDeadline.asMillis * 1000000

/-- The epoch limits the worker builds, where it builds any. -/
theorem reconstruct_ok (threaded : policy.profile = .threadedRustV1) {epoch : SketchEpochLimits} :
    reconstruct (metadata target config policy untilDeadline) =
        .ok (config.withEpoch epoch, policy) ↔
      epoch.wallClockDeadline.asNanos =
          min (max 1 untilDeadline.asMillis) (2 ^ 64 - 1) * 1000000 ∧
        epoch.tickInterval.asNanos =
          min config.executionLimits.epochLimits.tickInterval.asMillis (2 ^ 64 - 1) * 1000000 ∧
        epoch.maximumActiveRegistrations =
          config.executionLimits.epochLimits.maximumActiveRegistrations := by
  rw [reconstruct_metadata config policy untilDeadline threaded, ← asNanos_saturatingWord,
    ← asNanos_saturatingWord, ← asMillis_remaining, ← Duration.ext_asNanos_iff,
    ← Duration.ext_asNanos_iff, ← SketchEpochLimits.new_ok]
  cases SketchEpochLimits.new _ _ config.executionLimits.epochLimits.maximumActiveRegistrations with
  | error => exact iff_of_false nofun nofun
  | ok built =>
    constructor
    · intro same
      have configSame := congrArg Prod.fst (Except.ok.inj same)
      have epochSame := congrArg (fun config => config.executionLimits.epochLimits) configSame
      exact congrArg Except.ok epochSame
    · intro same
      cases same
      rfl

/-- The limits reach the worker exactly when the tick interval is a whole number of
milliseconds and neither it nor the time left has more of them than a word counts. -/
theorem transported_iff (threaded : policy.profile = .threadedRustV1) :
    Transported target config policy untilDeadline ↔
      config.executionLimits.epochLimits.tickInterval.asNanos % 1000000 = 0 ∧
        config.executionLimits.epochLimits.tickInterval.asMillis < 2 ^ 64 ∧
        untilDeadline.asMillis < 2 ^ 64 := by
  have counted := asMillis_eq config.executionLimits.epochLimits.tickInterval
  constructor
  · rintro ⟨epoch, rebuilt, tickSame, _, deadlineSame⟩
    obtain ⟨deadline, tick, _⟩ := (reconstruct_ok config policy untilDeadline threaded).mp rebuilt
    rw [tickSame] at tick
    refine ⟨?_, ?_, ?_⟩ <;> omega
  · rintro ⟨whole, tickFits, deadlineFits⟩
    have passed : (fromMillis (saturatingWord
        (max 1 untilDeadline.asMillis))).isZero = false := by
      rw [Bool.eq_false_iff, ne_eq, isZero_iff, asNanos_saturatingWord]
      omega
    let epoch : SketchEpochLimits :=
      { config.executionLimits.epochLimits with
        wallClockDeadline := .fromMillis (saturatingWord (max 1 untilDeadline.asMillis))
        deadline_ne_zero := passed }
    have deadline : epoch.wallClockDeadline.asNanos =
        min (max 1 untilDeadline.asMillis) (2 ^ 64 - 1) * 1000000 := asNanos_saturatingWord _
    refine ⟨epoch, (reconstruct_ok config policy untilDeadline threaded).mpr
      ⟨deadline, ?_, rfl⟩, rfl, rfl, ?_⟩
    · show config.executionLimits.epochLimits.tickInterval.asNanos = _
      omega
    · rw [deadline]
      omega

/-- A module of at most 32 MiB with the memory of the threaded profile. -/
def threadedPolicy : SketchModulePolicy :=
  ⟨32 * 1024 * 1024, 16384, maxGuestThreadsV1, .threadedRustV1, by decide, by decide, by decide,
    by decide⟩

theorem transported_default :
    SketchModulePolicy.threadedRustV1 (32 * 1024 * 1024) 16384 = .ok threadedPolicy ∧
      Transported .unix .default threadedPolicy (.fromSecs 30) :=
  ⟨rfl, (transported_iff .default threadedPolicy (.fromSecs 30) rfl).mpr
    ⟨by decide, by decide, by decide⟩⟩

/-- A tick of half a millisecond. -/
def halfMilliTick : SketchEpochLimits :=
  ⟨.fromSecs 30, ⟨0, 500000, by decide⟩, 17, by decide, by decide, by decide⟩

/-- The parent accepts the tick, and the worker refuses the tick of no milliseconds that
it was sent. -/
theorem halfMilliTick_refused :
    SketchEpochLimits.new (.fromSecs 30) ⟨0, 500000, by decide⟩ 17 = .ok halfMilliTick ∧
      reconstruct (metadata .unix (SketchCompilerConfig.default.withEpoch halfMilliTick)
          threadedPolicy (.fromSecs 30)) =
        .error "epoch limits must have a nonzero deadline, tick, and quota" := by
  refine ⟨rfl, ?_⟩
  rfl

end Transport

end KernalApi.Worker
