import KernalApi.Std.Codec
import KernalApi.Std.Saturating

/-!
# The worker protocol

The bounded framing between a parent and its one-request worker, as
`worker_protocol.rs` has it: the messages, the writer and the reader of each
field, and the frame around them. Lengths are `usize` values of a 64-bit target,
on which the conversions from `u32` and `u64` always succeed.
-/

namespace KernalApi.Worker

open KernalApi.Std

/-- The operating system a parent and its worker are built for. What Windows
calls an absolute path is left to its path parser; the empty path is relative. -/
inductive Target where
  | unix
  | windows (isAbsolute : List UInt16 → Bool) (relative : isAbsolute [] = false)

/-- The unit of an operating-system string. -/
def Target.CodeUnit : Target → Type
  | .unix => UInt8
  | .windows _ _ => UInt16

instance : (target : Target) → DecidableEq target.CodeUnit
  | .unix => inferInstanceAs (DecidableEq UInt8)
  | .windows _ _ => inferInstanceAs (DecidableEq UInt16)

/-- A path, as the units of its operating-system string. -/
abbrev PathBuf (target : Target) := List target.CodeUnit

def PathBuf.isAbsolute : {target : Target} → PathBuf target → Bool
  | .unix, path => path.head? == some (47 : UInt8)
  | .windows isAbsolute _, path => isAbsolute path

def magic : List UInt8 := [75, 87, 87, 49]
def version : UInt16 := 7
def headerLen : Nat := 11
def maxFramePayload : Nat := 1024 * 1024

/-- The ceiling of the process transport, distinct from the admission policy. -/
def workerProtocolMaxModuleBytes : Nat := 512 * 1024 * 1024
def maxDiagnosticBytes : Nat := 1024
def maxTraceBytes : Nat := 64 * 1024
def maxOutputPathBytes : Nat := 65536
def maxWebviewUrlBytes : Nat := 16 * 1024

/-- The value of `i32::MIN`, written for an absent status code. -/
def noStatusCode : Int32 := Int32.minValue

/-- Why a frame or a message is refused. -/
inductive ProtocolError where
  | badMagic
  | unsupportedVersion
  | unknownKind
  | truncated
  | trailingBytes
  | frameTooLarge
  | invalidRequestId
  | invalidPayload
  | lengthOverflow
  | moduleTooLarge
  | wrongRequestId
  | unexpectedMessage
  | duplicateTerminal
  | invalidTerminal
  | sequence
  | diagnosticTooLarge
  deriving DecidableEq, Repr

/-- The kind byte of a frame. -/
inductive Kind where
  | hello
  | helloAck
  | executeStart
  | moduleChunk
  | executeEnd
  | cancel
  | terminal
  | executeAck
  | trace
  deriving DecidableEq, Repr

namespace Kind

def code : Kind → UInt8
  | .hello => 1
  | .helloAck => 2
  | .executeStart => 3
  | .moduleChunk => 4
  | .executeEnd => 5
  | .cancel => 6
  | .terminal => 7
  | .executeAck => 8
  | .trace => 9

def tryFrom (value : UInt8) : Except ProtocolError Kind :=
  match value.toNat with
  | 1 => .ok .hello
  | 2 => .ok .helloAck
  | 3 => .ok .executeStart
  | 4 => .ok .moduleChunk
  | 5 => .ok .executeEnd
  | 6 => .ok .cancel
  | 7 => .ok .terminal
  | 8 => .ok .executeAck
  | 9 => .ok .trace
  | _ => .error .unknownKind

end Kind

/-- How a request ended. -/
inductive TerminalKind where
  | completed
  | cancelled
  | deadlineExceeded
  | outOfFuel
  | trapped
  | nonzeroExit
  | childFailure
  | protocolFailure
  | workerFailure
  | forcedContainment
  deriving DecidableEq, Repr

namespace TerminalKind

def code : TerminalKind → UInt8
  | .completed => 1
  | .cancelled => 2
  | .deadlineExceeded => 3
  | .outOfFuel => 4
  | .trapped => 5
  | .nonzeroExit => 6
  | .childFailure => 7
  | .protocolFailure => 8
  | .workerFailure => 9
  | .forcedContainment => 10

def tryFrom (value : UInt8) : Except ProtocolError TerminalKind :=
  match value.toNat with
  | 1 => .ok .completed
  | 2 => .ok .cancelled
  | 3 => .ok .deadlineExceeded
  | 4 => .ok .outOfFuel
  | 5 => .ok .trapped
  | 6 => .ok .nonzeroExit
  | 7 => .ok .childFailure
  | 8 => .ok .protocolFailure
  | 9 => .ok .workerFailure
  | 10 => .ok .forcedContainment
  | _ => .error .invalidTerminal

end TerminalKind

/-- What became of the root and the threads it asked for. -/
inductive RootOutcome where
  | none
  | started
  | exited
  | startedWithThreadRejections
  | exitedWithThreadRejections
  deriving DecidableEq, Repr

namespace RootOutcome

def code : RootOutcome → UInt8
  | .none => 0
  | .started => 1
  | .exited => 2
  | .startedWithThreadRejections => 3
  | .exitedWithThreadRejections => 4

def tryFrom (value : UInt8) : Except ProtocolError RootOutcome :=
  match value.toNat with
  | 0 => .ok .none
  | 1 => .ok .started
  | 2 => .ok .exited
  | 3 => .ok .startedWithThreadRejections
  | 4 => .ok .exitedWithThreadRejections
  | _ => .error .invalidTerminal

def withRejections : RootOutcome → Bool
  | .startedWithThreadRejections | .exitedWithThreadRejections => true
  | _ => false

end RootOutcome

/-- What a terminal says beyond its kind. -/
structure TerminalDetail where
  rootOutcome : RootOutcome := .none
  capacityRejections : UInt32 := 0
  closingRejections : UInt32 := 0
  fuelRejections : UInt32 := 0
  epochRejections : UInt32 := 0
  statusCode : Option Int32 := none
  deriving DecidableEq

namespace TerminalDetail

def none : TerminalDetail := {}

def counts (detail : TerminalDetail) : Bool :=
  detail.capacityRejections != 0 || detail.closingRejections != 0 ||
    detail.fuelRejections != 0 || detail.epochRejections != 0

/-- Which detail may accompany which terminal; the tests stand in the order of
the source's guards, so a child failure meets the last one too. -/
def validate (detail : TerminalDetail) (kind : TerminalKind) : Except ProtocolError Unit :=
  if kind == .completed && (detail.rootOutcome == .none || detail.statusCode.isSome) then
    .error .invalidTerminal
  else if kind == .completed && (detail.counts && !detail.rootOutcome.withRejections) then
    .error .invalidTerminal
  else if kind == .completed && (!detail.counts && detail.rootOutcome.withRejections) then
    .error .invalidTerminal
  else if kind == .nonzeroExit &&
      (detail.rootOutcome != .none || detail.counts || detail.statusCode.isNone) then
    .error .invalidTerminal
  else if kind == .childFailure && (detail.rootOutcome != .none || detail.counts) then
    .error .invalidTerminal
  else if kind == .completed || kind == .nonzeroExit then .ok ()
  else if detail.rootOutcome != .none || detail.counts || detail.statusCode.isSome then
    .error .invalidTerminal
  else .ok ()

end TerminalDetail

/-- The settings a worker needs to rebuild its compiler and limits. -/
structure ExecuteMetadata (target : Target) where
  webviewUrl : Option String := none
  stagedOutput : Option (PathBuf target) := none
  /-- Chunk, blob and sketch bytes, live blobs, reads, writes, transfer bytes. -/
  blobLimits : Vector UInt64 7
  blobProgressIdleTimeoutSecs : UInt64
  blobProgressIdleTimeoutNanos : UInt64
  maxWasmStackBytes : UInt64
  reservedMemoryBytes : UInt64
  maximumActiveRoots : UInt64
  totalFuel : UInt64
  rootFuel : UInt64
  childFuel : UInt64
  epochDeadlineMillis : UInt64
  epochTickMillis : UInt64
  maximumEpochRegistrations : UInt64
  maxModuleBytes : UInt64
  maxSharedMemoryPages : UInt32
  maxGuestThreads : UInt64
  deriving DecidableEq

/-- What was still live when the worker ended. -/
structure FinalCounters where
  activeRoots : UInt64 := 0
  liveStores : UInt64 := 0
  liveInstances : UInt64 := 0
  activeEpochRegistrations : UInt64 := 0
  liveThreads : UInt64 := 0
  deriving DecidableEq

/-- The messages of one request. -/
inductive Message (target : Target) where
  | trace (requestId : UInt64) (text : String)
  | hello (requestId : UInt64)
  | helloAck (requestId : UInt64)
  | executeAck (requestId : UInt64)
  | executeStart (requestId moduleLen : UInt64) (metadata : ExecuteMetadata target)
  | moduleChunk (requestId : UInt64) (sequence : UInt32) (bytes : List UInt8)
  | executeEnd (requestId : UInt64)
  | cancel (requestId : UInt64)
  | terminal (requestId : UInt64) (kind : TerminalKind) (detail : TerminalDetail)
      (diagnostic : String) (counters : FinalCounters)
  deriving DecidableEq

namespace Message

variable {target : Target}

def requestId : Message target → UInt64
  | .trace requestId _ | .hello requestId | .helloAck requestId | .executeAck requestId
  | .executeStart requestId _ _ | .moduleChunk requestId _ _ | .executeEnd requestId
  | .cancel requestId | .terminal requestId _ _ _ _ => requestId

def kind : Message target → Kind
  | .trace _ _ => .trace
  | .hello _ => .hello
  | .helloAck _ => .helloAck
  | .executeAck _ => .executeAck
  | .executeStart _ _ _ => .executeStart
  | .moduleChunk _ _ _ => .moduleChunk
  | .executeEnd _ => .executeEnd
  | .cancel _ => .cancel
  | .terminal _ _ _ _ _ => .terminal

end Message

section Fields

def putU8 (value : UInt8) : Put ProtocolError Unit := putBytes [value]
def putU16 (value : UInt16) : Put ProtocolError Unit := putBytes (leBytes 2 value.toNat)
def putU32 (value : UInt32) : Put ProtocolError Unit := putBytes (leBytes 4 value.toNat)
def putU64 (value : UInt64) : Put ProtocolError Unit := putBytes (leBytes 8 value.toNat)
def putI32 (value : Int32) : Put ProtocolError Unit := putBytes (leBytes 4 value.toUInt32.toNat)

/-- A slice converts to an array of its own length only. -/
def getWord {α : Type} (width : Nat) (ofNat : Nat → α) (input : List UInt8) :
    Except ProtocolError α :=
  if input.length = width then .ok (ofNat (leValue input)) else .error .truncated

def getU16 : List UInt8 → Except ProtocolError UInt16 := getWord 2 UInt16.ofNat
def getU32 : List UInt8 → Except ProtocolError UInt32 := getWord 4 UInt32.ofNat

/-- The next bytes of a payload. -/
def take (count : Nat) : Take ProtocolError (List UInt8) := takeBytes .truncated count

def takeWord {α : Type} (width : Nat) (ofNat : Nat → α) : Take ProtocolError α := do
  let bytes ← take width
  liftM (getWord width ofNat bytes)

def takeU8 : Take ProtocolError UInt8 := takeWord 1 UInt8.ofNat
def takeU16 : Take ProtocolError UInt16 := takeWord 2 UInt16.ofNat
def takeU32 : Take ProtocolError UInt32 := takeWord 4 UInt32.ofNat
def takeU64 : Take ProtocolError UInt64 := takeWord 8 UInt64.ofNat
def takeI32 : Take ProtocolError Int32 := takeWord 4 fun number => (UInt32.ofNat number).toInt32

/-- The bytes of a string. -/
def asBytes (text : String) : List UInt8 := text.toByteArray.data.toList

def fromUtf8 (bytes : List UInt8) : Except ProtocolError String :=
  match String.fromUTF8? ⟨bytes.toArray⟩ with
  | some text => .ok text
  | none => .error .invalidPayload

variable {target : Target}

def unixBytes (path : List UInt8) : Except ProtocolError (List UInt8) :=
  if path.contains 0 ∨ maxOutputPathBytes < path.length then .error .invalidPayload else .ok path

def unixPath (bytes : List UInt8) : Except ProtocolError (List UInt8) :=
  if bytes.contains 0 then .error .invalidPayload else .ok bytes

/-- The wide units of a path, each tested before its two bytes are written. -/
def wideBytes : List UInt8 → List UInt16 → Except ProtocolError (List UInt8)
  | bytes, [] => .ok bytes
  | bytes, unit :: units =>
    if unit = 0 ∨ maxOutputPathBytes ≤ bytes.length then .error .invalidPayload
    else wideBytes (bytes ++ leBytes 2 unit.toNat) units

/-- The wide units of a byte string of even length. -/
def wideUnits : List UInt8 → List UInt16
  | low :: high :: bytes => UInt16.ofNat (leValue [low, high]) :: wideUnits bytes
  | _ => []

def widePath (bytes : List UInt8) : Except ProtocolError (List UInt16) :=
  if bytes.length % 2 ≠ 0 then .error .invalidPayload
  else if (wideUnits bytes).contains 0 then .error .invalidPayload
  else .ok (wideUnits bytes)

def PathBuf.toBytes : {target : Target} → PathBuf target → Except ProtocolError (List UInt8)
  | .unix, path => unixBytes path
  | .windows _ _, path => wideBytes [] path

def PathBuf.ofBytes : {target : Target} → List UInt8 → Except ProtocolError (PathBuf target)
  | .unix, bytes => unixPath bytes
  | .windows _ _, bytes => widePath bytes

/-- The byte that names the path encoding of the target. -/
def Target.pathTag : Target → UInt8
  | .unix => 1
  | .windows _ _ => 2

/-- An absent path has length zero. -/
def putOutputPath : Option (PathBuf target) → Put ProtocolError Unit
  | none => putU32 0
  | some path =>
    if path.isAbsolute = false then throw .invalidPayload
    else do
      let bytes ← liftM path.toBytes
      putU32 (UInt32.ofNat bytes.length)
      putU8 target.pathTag
      putBytes bytes

def takePathText (length : Nat) : Take ProtocolError (PathBuf target) := do
  let bytes ← take length
  liftM (PathBuf.ofBytes bytes)

/-- A path of a nonzero length. -/
def takePath (length : UInt32) : Take ProtocolError (PathBuf target) :=
  if maxOutputPathBytes < length.toNat then throw .invalidPayload
  else do
    let tag ← takeU8
    if tag ≠ target.pathTag then throw .invalidPayload
    else do
      let path ← takePathText length.toNat
      if path.isAbsolute = false then throw .invalidPayload else pure path

def takeOutputPath : Take ProtocolError (Option (PathBuf target)) := do
  let length ← takeU32
  if length = 0 then pure none
  else do
    let path ← takePath length
    pure (some path)

/-- An absent URL has length zero. -/
def putWebviewUrl : Option String → Put ProtocolError Unit
  | none => putU32 0
  | some url =>
    if (asBytes url).isEmpty || decide (maxWebviewUrlBytes < (asBytes url).length) ||
        (asBytes url).contains 0 then
      throw .invalidPayload
    else do
      putU32 (UInt32.ofNat (asBytes url).length)
      putBytes (asBytes url)

/-- A URL of a nonzero length. -/
def takeUrl (length : UInt32) : Take ProtocolError String := do
  let input ← get
  if maxWebviewUrlBytes < length.toNat ∨ input.length < length.toNat then throw .invalidPayload
  else do
    let url ← liftM (fromUtf8 (input.take length.toNat))
    if (input.take length.toNat).contains 0 then throw .invalidPayload
    else do
      set (input.drop length.toNat)
      pure url

def takeWebviewUrl : Take ProtocolError (Option String) := do
  let length ← takeU32
  if length = 0 then pure none
  else do
    let url ← takeUrl length
    pure (some url)

def putMetadata (value : ExecuteMetadata target) : Put ProtocolError Unit := do
  putWebviewUrl value.webviewUrl
  putOutputPath value.stagedOutput
  value.blobLimits.toList.forM putU64
  putU64 value.blobProgressIdleTimeoutSecs
  putU64 value.blobProgressIdleTimeoutNanos
  [value.maxWasmStackBytes, value.reservedMemoryBytes, value.maximumActiveRoots, value.totalFuel,
    value.rootFuel, value.childFuel, value.epochDeadlineMillis, value.epochTickMillis,
    value.maximumEpochRegistrations, value.maxModuleBytes].forM putU64
  putU32 value.maxSharedMemoryPages
  putU64 value.maxGuestThreads

def takeBlobLimits : Take ProtocolError (Vector UInt64 7) := do
  let chunkBytes ← takeU64
  let blobBytes ← takeU64
  let sketchBytes ← takeU64
  let liveBlobs ← takeU64
  let reads ← takeU64
  let writes ← takeU64
  let transferBytes ← takeU64
  pure #v[chunkBytes, blobBytes, sketchBytes, liveBlobs, reads, writes, transferBytes]

def takeMetadata : Take ProtocolError (ExecuteMetadata target) := do
  let webviewUrl ← takeWebviewUrl
  let stagedOutput ← takeOutputPath
  let blobLimits ← takeBlobLimits
  let blobProgressIdleTimeoutSecs ← takeU64
  let blobProgressIdleTimeoutNanos ← takeU64
  let maxWasmStackBytes ← takeU64
  let reservedMemoryBytes ← takeU64
  let maximumActiveRoots ← takeU64
  let totalFuel ← takeU64
  let rootFuel ← takeU64
  let childFuel ← takeU64
  let epochDeadlineMillis ← takeU64
  let epochTickMillis ← takeU64
  let maximumEpochRegistrations ← takeU64
  let maxModuleBytes ← takeU64
  let maxSharedMemoryPages ← takeU32
  let maxGuestThreads ← takeU64
  pure {
    webviewUrl, stagedOutput, blobLimits, blobProgressIdleTimeoutSecs
    blobProgressIdleTimeoutNanos, maxWasmStackBytes, reservedMemoryBytes, maximumActiveRoots
    totalFuel, rootFuel, childFuel, epochDeadlineMillis, epochTickMillis
    maximumEpochRegistrations, maxModuleBytes, maxSharedMemoryPages, maxGuestThreads }

def putCounters (value : FinalCounters) : Put ProtocolError Unit :=
  [value.activeRoots, value.liveStores, value.liveInstances, value.activeEpochRegistrations,
    value.liveThreads].forM putU64

def takeCounters : Take ProtocolError FinalCounters := do
  let activeRoots ← takeU64
  let liveStores ← takeU64
  let liveInstances ← takeU64
  let activeEpochRegistrations ← takeU64
  let liveThreads ← takeU64
  pure { activeRoots, liveStores, liveInstances, activeEpochRegistrations, liveThreads }

end Fields

section Frames

variable {target : Target}

/-- A trace is nonempty printable text with line feeds. -/
def validateTrace (bytes : List UInt8) : Except ProtocolError Unit :=
  if bytes.isEmpty || decide (maxTraceBytes < bytes.length) ||
      bytes.any (fun byte => !(byte == 10 || decide (32 ≤ byte.toNat ∧ byte.toNat ≤ 126))) then
    .error .invalidPayload
  else .ok ()

def putDetail (detail : TerminalDetail) : Put ProtocolError Unit := do
  putU8 detail.rootOutcome.code
  putU32 detail.capacityRejections
  putU32 detail.closingRejections
  putU32 detail.fuelRejections
  putU32 detail.epochRejections
  putI32 (detail.statusCode.getD noStatusCode)

/-- What follows the request id in a payload. -/
def putBody : Message target → Put ProtocolError Unit
  | .trace _ text => do
      liftM (validateTrace (asBytes text))
      putBytes (asBytes text)
  | .hello _ | .helloAck _ | .executeAck _ | .executeEnd _ | .cancel _ => pure ()
  | .executeStart _ moduleLen metadata => do
      putU64 moduleLen
      putMetadata metadata
  | .moduleChunk _ sequence bytes => do
      putU32 sequence
      putBytes bytes
  | .terminal _ kind detail diagnostic counters => do
      liftM (detail.validate kind)
      if maxDiagnosticBytes < (asBytes diagnostic).length then throw .diagnosticTooLarge
      else do
        putU8 kind.code
        putDetail detail
        putU16 (UInt16.ofNat (asBytes diagnostic).length)
        putBytes (asBytes diagnostic)
        putCounters counters

def putPayload (message : Message target) : Put ProtocolError Unit := do
  putU64 message.requestId
  putBody message

/-- A payload behind its header. -/
def frameOf (kind : Kind) (payload : List UInt8) : List UInt8 :=
  magic ++ leBytes 2 version.toNat ++ [kind.code] ++ leBytes 4 payload.length ++ payload

/-- The frame of a message. -/
def encode (message : Message target) : Except ProtocolError (List UInt8) :=
  if message.requestId = 0 then .error .invalidRequestId
  else do
    let ((), payload) ← putPayload message []
    if maxFramePayload < payload.length then .error .frameTooLarge
    else if 2 ^ 32 ≤ payload.length then .error .frameTooLarge
    else .ok (frameOf message.kind payload)

def takeTerminalKind : Take ProtocolError TerminalKind := do
  let byte ← takeU8
  liftM (TerminalKind.tryFrom byte)

def takeRootOutcome : Take ProtocolError RootOutcome := do
  let byte ← takeU8
  liftM (RootOutcome.tryFrom byte)

def takeDetail : Take ProtocolError TerminalDetail := do
  let rootOutcome ← takeRootOutcome
  let capacityRejections ← takeU32
  let closingRejections ← takeU32
  let fuelRejections ← takeU32
  let epochRejections ← takeU32
  let status ← takeI32
  pure {
    rootOutcome, capacityRejections, closingRejections, fuelRejections, epochRejections
    statusCode := if status = noStatusCode then none else some status }

def takeText (length : Nat) : Take ProtocolError String := do
  let bytes ← take length
  liftM (fromUtf8 bytes)

def takeTerminal (requestId : UInt64) : Take ProtocolError (Message target) := do
  let kind ← takeTerminalKind
  let detail ← takeDetail
  liftM (detail.validate kind)
  let textLen ← takeU16
  if maxDiagnosticBytes < textLen.toNat then throw .diagnosticTooLarge
  else do
    let diagnostic ← takeText textLen.toNat
    let counters ← takeCounters
    pure (.terminal requestId kind detail diagnostic counters)

/-- What follows the request id, by kind. -/
def takeBody (kind : Kind) (requestId : UInt64) : Take ProtocolError (Message target) :=
  match kind with
  | .trace => do
      let input ← get
      liftM (validateTrace input)
      let bytes ← takeRest
      let text ← liftM (fromUtf8 bytes)
      pure (.trace requestId text)
  | .hello => pure (.hello requestId)
  | .helloAck => pure (.helloAck requestId)
  | .executeAck => pure (.executeAck requestId)
  | .executeStart => do
      let moduleLen ← takeU64
      let metadata ← takeMetadata
      if workerProtocolMaxModuleBytes < moduleLen.toNat ∨ metadata.maxModuleBytes < moduleLen then
        throw .moduleTooLarge
      else pure (.executeStart requestId moduleLen metadata)
  | .moduleChunk => do
      let sequence ← takeU32
      let bytes ← takeRest
      pure (.moduleChunk requestId sequence bytes)
  | .executeEnd => pure (.executeEnd requestId)
  | .cancel => pure (.cancel requestId)
  | .terminal => takeTerminal requestId

def takePayload (kind : Kind) : Take ProtocolError (Message target) := do
  let requestId ← takeU64
  if requestId = 0 then throw .invalidRequestId else takeBody kind requestId

/-- The tests that `decode` and `readMessage` make on a header, up to the
declared length. The header is at least `headerLen` bytes long. -/
def checkHeader (header : List UInt8) : Except ProtocolError (Kind × Nat) :=
  if header.take 4 ≠ magic then .error .badMagic
  else do
    let found ← getU16 ((header.drop 4).take 2)
    if found ≠ version then .error .unsupportedVersion
    else do
      let kind ← Kind.tryFrom (header.getD 6 0)
      let length ← getU32 ((header.drop 7).take 4)
      if maxFramePayload < length.toNat then .error .frameTooLarge
      else .ok (kind, length.toNat)

/-- The message of one whole frame. -/
def decode (frame : List UInt8) : Except ProtocolError (Message target) :=
  if frame.length < headerLen then .error .truncated
  else do
    let (kind, length) ← checkHeader frame
    if usizeMax < headerLen + length then .error .lengthOverflow
    else if frame.length < headerLen + length then .error .truncated
    else if frame.length ≠ headerLen + length then .error .trailingBytes
    else do
      let (message, input) ← takePayload kind (frame.drop headerLen)
      if input ≠ [] then .error .trailingBytes else .ok message

/-- One frame from a byte stream, with what is left of the stream. A short read
consumes all of it. -/
def readMessage (stream : List UInt8) : Except ProtocolError (Message target) × List UInt8 :=
  if stream.length < headerLen then (.error .truncated, [])
  else
    match checkHeader (stream.take headerLen) with
    | .error error => (.error error, stream.drop headerLen)
    | .ok (kind, length) =>
      if kind = .trace ∧ maxTraceBytes + 8 < length then
        (.error .frameTooLarge, stream.drop headerLen)
      else if usizeMax < headerLen + length then
        (.error .lengthOverflow, stream.drop headerLen)
      else if (stream.drop headerLen).length < length then (.error .truncated, [])
      else (decode (stream.take (headerLen + length)), stream.drop (headerLen + length))

/-- Append one frame to what a stream carries. -/
def writeMessage (stream : List UInt8) (message : Message target) :
    Except ProtocolError (List UInt8) := do
  let frame ← encode message
  .ok (stream ++ frame)

end Frames

end KernalApi.Worker
