import KernalApi.Std.Buffer
import KernalApi.Std.LittleEndian
import KernalApi.Std.Utf8

/-!
# Fixed-layout crash records

A crash record is one buffer of `recordSize` bytes: a header of numbers, four
short texts, modules, threads with their frames, the raw context and the working
directory, each at its own place. Ordinary code prepares the record; the fatal
callback only adds the crash's own fields.
-/

namespace KernalApi.Crash

open KernalApi.Std

def magic : List UInt8 := [0x52, 0x50, 0x43, 0x52, 0x41, 0x53, 0x48, 0x31]

def version : UInt32 := 2

def recordSize : Nat := 16384
def headerSize : Nat := 128
def textSize : Nat := 64
def textFields : Nat := 4
def moduleOffset : Nat := 384
def maxModules : Nat := 16
def moduleSize : Nat := 128
def threadOffset : Nat := 2432
def maxThreads : Nat := 32
def maxFrames : Nat := 16
def frameSize : Nat := 16
def threadSize : Nat := 272
def rawOffset : Nat := 11136
def cwdSize : Nat := 1024
def cwdOffset : Nat := 15360
def maxRawContext : Nat := 4224
def v1MaxRawContext : Nat := 5248

-- The derived places, as the source computes them.
example : moduleOffset = headerSize + textSize * textFields := rfl
example : threadOffset = moduleOffset + maxModules * moduleSize := rfl
example : threadSize = 16 + maxFrames * frameSize := rfl
example : rawOffset = threadOffset + maxThreads * threadSize := rfl
example : cwdOffset = recordSize - cwdSize := rfl
example : maxRawContext = cwdOffset - rawOffset := rfl
example : v1MaxRawContext = recordSize - rawOffset := rfl

def offVersion : Nat := 8
def offRecordSize : Nat := 12
def offPid : Nat := 16
def offTid : Nat := 24
def offFaultCode : Nat := 32
def offFaultAddress : Nat := 40
def offUnixMs : Nat := 48
def offThreadCount : Nat := 56
def offRawLen : Nat := 60
def offFlags : Nat := 64
def offModuleCount : Nat := 68
def offCreationTimeMs : Nat := 72

def flagTruncatedThreads : UInt32 := 1
def flagTruncatedContext : UInt32 := 2
def flagTruncatedModules : UInt32 := 4
def knownFlags : UInt32 := flagTruncatedThreads ||| flagTruncatedContext ||| flagTruncatedModules

/-- Identity copied before the handler is armed. -/
structure CrashMetadata where
  appClass : String
  appName : String
  appVersion : String
  instanceName : String
  creationTimeMs : UInt64
  cwd : String
  deriving DecidableEq

/-- Module identity captured before the crash. -/
structure CrashModule where
  identity : String
  deriving DecidableEq

/-- One frame; without a module its address is raw. -/
structure CrashFrame where
  moduleIndex : Option UInt32
  relativeAddress : UInt64
  deriving DecidableEq

/-- A thread and its frames, innermost first. -/
structure CrashThread where
  osTid : UInt64
  frames : List CrashFrame
  deriving DecidableEq

/-- A parsed crash report. -/
structure RawCrashReport where
  pid : UInt32
  tid : UInt64
  faultCode : Int64
  faultAddress : UInt64
  crashUnixMs : UInt64
  metadata : CrashMetadata
  modules : List CrashModule
  threads : List CrashThread
  rawContext : List UInt8
  truncated : Bool
  deriving DecidableEq

/-! ## Fields -/

def putU32 (bytes : List UInt8) (offset : Nat) (value : UInt32) : List UInt8 :=
  overwrite bytes offset (leBytes 4 value.toNat)

def getU32 (bytes : List UInt8) (offset : Nat) : UInt32 :=
  UInt32.ofNat (leValue (slice bytes offset 4))

def putU64 (bytes : List UInt8) (offset : Nat) (value : UInt64) : List UInt8 :=
  overwrite bytes offset (leBytes 8 value.toNat)

def getU64 (bytes : List UInt8) (offset : Nat) : UInt64 :=
  UInt64.ofNat (leValue (slice bytes offset 8))

def putI64 (bytes : List UInt8) (offset : Nat) (value : Int64) : List UInt8 :=
  putU64 bytes offset value.toUInt64

def getI64 (bytes : List UInt8) (offset : Nat) : Int64 := (getU64 bytes offset).toInt64

/-- Adds a truncation flag. -/
def setFlag (bytes : List UInt8) (flag : UInt32) : List UInt8 :=
  putU32 bytes offFlags (getU32 bytes offFlags ||| flag)

/-- The bytes of a text. -/
def asBytes (text : String) : List UInt8 := Utf8.encode text.toList

/-- Writes at most all but the last byte of a slot, so a zero byte always ends
the text. -/
def putTextSized (bytes : List UInt8) (offset size : Nat) (value : String) : List UInt8 :=
  overwrite bytes offset ((asBytes value).take (min (asBytes value).length (size - 1)))

def putText (bytes : List UInt8) (offset : Nat) (value : String) : List UInt8 :=
  putTextSized bytes offset textSize value

/-- Reads a slot up to its first zero byte, lossily. -/
def getTextSized (bytes : List UInt8) (offset size : Nat) : String :=
  String.ofList (Utf8.lossy (Utf8.untilZero (slice bytes offset size)))

def getText (bytes : List UInt8) (offset : Nat) : String := getTextSized bytes offset textSize

/-- Fills a range with zero bytes. -/
def fill (bytes : List UInt8) (offset length : Nat) : List UInt8 :=
  overwrite bytes offset (List.replicate length 0)

/-! ## Writers -/

/-- Replaces the texts, the creation time and the working directory. -/
def putMetadata (record : List UInt8) (metadata : CrashMetadata) : List UInt8 :=
  let record := fill record headerSize (moduleOffset - headerSize)
  let record := fill record cwdOffset (recordSize - cwdOffset)
  let record := putText record headerSize metadata.appClass
  let record := putText record (headerSize + textSize) metadata.appName
  let record := putText record (headerSize + textSize * 2) metadata.appVersion
  let record := putText record (headerSize + textSize * 3) metadata.instanceName
  let record := putU64 record offCreationTimeMs metadata.creationTimeMs
  putTextSized record cwdOffset cwdSize metadata.cwd

/-- What a record holds before the metadata; `processId` is the writer's own. -/
def blank (processId : UInt32) : List UInt8 :=
  let record := List.replicate recordSize 0
  let record := overwrite record 0 magic
  let record := putU32 record offVersion version
  let record := putU32 record offRecordSize (UInt32.ofNat recordSize)
  putU32 record offPid processId

/-- The record is filled with zeros first, so nothing of it is kept. -/
def initializeRecord (processId : UInt32) (metadata : CrashMetadata) : List UInt8 :=
  putMetadata (blank processId) metadata

/-- Writes a module identity and flags one too long for its slot. -/
def putModule (record : List UInt8) (entry : CrashModule × Nat) : List UInt8 :=
  let record :=
    if moduleSize ≤ (asBytes entry.1.identity).length then setFlag record flagTruncatedModules
    else record
  putTextSized record (moduleOffset + entry.2 * moduleSize) moduleSize entry.1.identity

/-- A frame is kept when it names no module or one that is kept. -/
def keepsFrame (moduleCount : Nat) (frame : CrashFrame) : Bool :=
  frame.moduleIndex.all fun index => index.toNat < moduleCount

/-- Writes a frame; the largest index stands for no module. -/
def putFrame (offset : Nat) (record : List UInt8) (entry : CrashFrame × Nat) : List UInt8 :=
  let frameOffset := offset + 16 + entry.2 * frameSize
  let record := putU32 record frameOffset (entry.1.moduleIndex.getD 0xFFFFFFFF)
  putU64 record (frameOffset + 8) entry.1.relativeAddress

/-- Writes a thread with the first frames that are kept. -/
def putThread (moduleCount : Nat) (record : List UInt8) (entry : CrashThread × Nat) : List UInt8 :=
  let thread := entry.1
  let offset := threadOffset + entry.2 * threadSize
  let record := putU64 record offset thread.osTid
  let frameCount := min (thread.frames.filter (keepsFrame moduleCount)).length maxFrames
  let record := putU32 record (offset + 8) (UInt32.ofNat frameCount)
  let record :=
    if frameCount < thread.frames.length then setFlag record flagTruncatedThreads else record
  ((thread.frames.filter (keepsFrame moduleCount)).take maxFrames).zipIdx.foldl
    (putFrame offset) record

/-- Replaces the modules and the threads. -/
def putSample (record : List UInt8) (modules : List CrashModule) (threads : List CrashThread) :
    List UInt8 :=
  let record := fill record moduleOffset (rawOffset - moduleOffset)
  let record := putU32 record offFlags 0
  let moduleCount := min modules.length maxModules
  let record := putU32 record offModuleCount (UInt32.ofNat moduleCount)
  let record := if maxModules < modules.length then setFlag record flagTruncatedModules else record
  let record := (modules.take maxModules).zipIdx.foldl putModule record
  let count := min threads.length maxThreads
  let record := putU32 record offThreadCount (UInt32.ofNat count)
  let record := if maxThreads < threads.length then setFlag record flagTruncatedThreads else record
  (threads.take maxThreads).zipIdx.foldl (putThread moduleCount) record

/-- The crash's own fields, as the callback has them. -/
structure CrashFields where
  tid : UInt64
  faultCode : Int64
  faultAddress : UInt64
  rawContext : List UInt8
  deriving DecidableEq

/-- Adds the crash's own fields; `unixMs` is the clock at the crash. -/
def putCrash (record : List UInt8) (unixMs : UInt64) (fields : CrashFields) : List UInt8 :=
  let record := putU64 record offTid fields.tid
  let record := putI64 record offFaultCode fields.faultCode
  let record := putU64 record offFaultAddress fields.faultAddress
  let record := putU64 record offUnixMs unixMs
  let copied := min fields.rawContext.length maxRawContext
  let record := putU32 record offRawLen (UInt32.ofNat copied)
  let record :=
    if maxRawContext < fields.rawContext.length then setFlag record flagTruncatedContext else record
  overwrite record rawOffset (fields.rawContext.take copied)

/-- The fields of a report that the callback would write. -/
def RawCrashReport.fields (report : RawCrashReport) : CrashFields :=
  { tid := report.tid, faultCode := report.faultCode, faultAddress := report.faultAddress,
    rawContext := report.rawContext }

/-- Encodes a report outside a crash; the process id and the clock of the
encoding process are written first and then replaced by the report's. -/
def encode (processId : UInt32) (unixMs : UInt64) (report : RawCrashReport) : List UInt8 :=
  let bytes := initializeRecord processId report.metadata
  let bytes := putSample bytes report.modules report.threads
  let bytes := putCrash bytes unixMs report.fields
  let bytes := putU32 bytes offPid report.pid
  putU64 bytes offUnixMs report.crashUnixMs

/-! ## The parser -/

/-- Why a record is refused; each is an `InvalidData` error. -/
inductive SpoolError
  | incomplete
  | unsupportedVersion
  | outOfRangeField
  | outOfRangeFrameCount
  | unknownModule
  deriving DecidableEq

/-- Reads a frame; its module must be in the record. -/
def parseFrame (bytes : List UInt8) (moduleCount offset frameIndex : Nat) :
    Except SpoolError CrashFrame := do
  let frameOffset := offset + 16 + frameIndex * frameSize
  let rawModule := getU32 bytes frameOffset
  let moduleIndex ←
    if rawModule = 0xFFFFFFFF then pure none
    else if rawModule.toNat < moduleCount then pure (some rawModule)
    else throw .unknownModule
  return { moduleIndex := moduleIndex, relativeAddress := getU64 bytes (frameOffset + 8) }

/-- Reads a thread with its frames. -/
def parseThread (bytes : List UInt8) (moduleCount index : Nat) : Except SpoolError CrashThread := do
  let offset := threadOffset + index * threadSize
  let frameCount := (getU32 bytes (offset + 8)).toNat
  if maxFrames < frameCount then throw .outOfRangeFrameCount
  let frames ← (List.range frameCount).mapM (parseFrame bytes moduleCount offset)
  return { osTid := getU64 bytes offset, frames := frames }

/-- Reads the texts; version 1 has no creation time and no directory. -/
def parseMetadata (bytes : List UInt8) : CrashMetadata :=
  let recorded := getU32 bytes offVersion
  { appClass := getText bytes headerSize
    appName := getText bytes (headerSize + textSize)
    appVersion := getText bytes (headerSize + textSize * 2)
    instanceName := getText bytes (headerSize + textSize * 3)
    creationTimeMs := if recorded = 1 then 0 else getU64 bytes offCreationTimeMs
    cwd := if recorded = 1 then "" else getTextSized bytes cwdOffset cwdSize }

/-- Reads a whole record of either version. -/
def parse (bytes : List UInt8) : Except SpoolError RawCrashReport := do
  if bytes.length ≠ recordSize ∨ slice bytes 0 8 ≠ magic then throw .incomplete
  let recorded := getU32 bytes offVersion
  if (recorded ≠ 1 ∧ recorded ≠ version) ∨ (getU32 bytes offRecordSize).toNat ≠ recordSize then
    throw .unsupportedVersion
  let flags := getU32 bytes offFlags
  let moduleCount := (getU32 bytes offModuleCount).toNat
  let threadCount := (getU32 bytes offThreadCount).toNat
  let rawLen := (getU32 bytes offRawLen).toNat
  let rawBound := if recorded = 1 then v1MaxRawContext else maxRawContext
  if flags &&& ~~~knownFlags ≠ 0 ∨ maxModules < moduleCount ∨ maxThreads < threadCount ∨
      rawBound < rawLen then
    throw .outOfRangeField
  let modules := (List.range moduleCount).map fun index =>
    { identity := getTextSized bytes (moduleOffset + index * moduleSize) moduleSize : CrashModule }
  let threads ← (List.range threadCount).mapM (parseThread bytes moduleCount)
  return {
    pid := getU32 bytes offPid
    tid := getU64 bytes offTid
    faultCode := getI64 bytes offFaultCode
    faultAddress := getU64 bytes offFaultAddress
    crashUnixMs := getU64 bytes offUnixMs
    metadata := parseMetadata bytes
    modules := modules
    threads := threads
    rawContext := slice bytes rawOffset rawLen
    truncated := flags != 0 }

end KernalApi.Crash
