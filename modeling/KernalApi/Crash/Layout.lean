import KernalApi.Crash.Spool

/-!
# Where the writers of a crash record write

Each writer is confined to the places of its own fields. The metadata and the
sample are stamps: what they leave does not depend on the record they are put
into, so they commute, and each forgets its predecessor.
-/

namespace KernalApi.Crash

open KernalApi.Std
open List hiding mem_range

variable {condition : Prop} {size length : Nat} {flag processId : UInt32} {metadata : CrashMetadata}
  {sample : Option (List CrashModule × List CrashThread)} {bytes : List UInt8} {offset : Nat}

/-- The places and the sizes of the parts of a record. -/
theorem layout : recordSize = 16384 ∧ headerSize = 128 ∧ textSize = 64 ∧ textFields = 4 ∧
    moduleOffset = 384 ∧ maxModules = 16 ∧ moduleSize = 128 ∧ threadOffset = 2432 ∧
      maxThreads = 32 ∧
    maxFrames = 16 ∧ frameSize = 16 ∧ threadSize = 272 ∧ rawOffset = 11136 ∧ cwdSize = 1024 ∧
    cwdOffset = 15360 ∧ maxRawContext = 4224 ∧ offPid = 16 ∧ offTid = 24 ∧ offUnixMs = 48 ∧
    offThreadCount = 56 ∧ offRawLen = 60 ∧ offFlags = 64 ∧ offModuleCount = 68 ∧
    offCreationTimeMs = 72 := by decide

/-! ## Numbers -/

@[simp] theorem length_putU32 {value : UInt32} :
    (putU32 bytes offset value).length = bytes.length :=
  length_overwrite _ _ _

@[simp] theorem length_putU64 {value : UInt64} :
    (putU64 bytes offset value).length = bytes.length :=
  length_overwrite _ _ _

@[simp] theorem length_fill : (fill bytes offset length).length = bytes.length :=
  length_overwrite _ _ _

theorem stamps_putU32 (offset : Nat) (value : UInt32) :
    Stamps (fun bytes => putU32 bytes offset value) (range offset 4) := by
  have stamps := stamps_overwrite offset (leBytes 4 value.toNat)
  rwa [length_leBytes] at stamps

theorem stamps_putU64 (offset : Nat) (value : UInt64) :
    Stamps (fun bytes => putU64 bytes offset value) (range offset 8) := by
  have stamps := stamps_overwrite offset (leBytes 8 value.toNat)
  rwa [length_leBytes] at stamps

theorem stamps_fill (offset length : Nat) :
    Stamps (fun bytes => fill bytes offset length) (range offset length) := by
  have stamps := stamps_overwrite offset (replicate length (0 : UInt8))
  rwa [length_replicate] at stamps

/-- A number written in so many bytes is read back from them. -/
theorem leValue_overwrite {width number : Nat} (room : offset + width ≤ bytes.length)
    (fits : number < 256 ^ width) :
    leValue (slice (overwrite bytes offset (leBytes width number)) offset width) = number := by
  have size : (leBytes width number).length = width := length_leBytes _ _
  have written : slice (overwrite bytes offset (leBytes width number)) offset _ = _ :=
    slice_overwrite (by rwa [size])
  rw [size] at written
  rw [written, leValue_leBytes fits]

theorem getU32_putU32 {value : UInt32} (room : offset + 4 ≤ bytes.length) :
    getU32 (putU32 bytes offset value) offset = value := by
  unfold getU32 putU32
  rw [leValue_overwrite room value.toNat_lt, UInt32.ofNat_toNat]

theorem getU64_putU64 {value : UInt64} (room : offset + 8 ≤ bytes.length) :
    getU64 (putU64 bytes offset value) offset = value := by
  unfold getU64 putU64
  rw [leValue_overwrite room value.toNat_lt, UInt64.ofNat_toNat]

theorem getI64_putI64 {value : Int64} (room : offset + 8 ≤ bytes.length) :
    getI64 (putI64 bytes offset value) offset = value := by
  unfold getI64 putI64
  rw [getU64_putU64 room, Int64.toInt64_toUInt64]

/-- A range that has no position of a region. -/
def Clear (region : Set Nat) (offset length : Nat) : Prop :=
  ∀ position, offset ≤ position → position < offset + length → position ∉ region

theorem clear_of_apart {start : Nat}
    (apart : offset + length ≤ start ∨ start + size ≤ offset) :
    Clear (range start size) offset length := by
  rintro position above below ⟨low, high⟩
  omega

theorem Clear.inner {region : Set Nat} {start : Nat} (clear : Clear region start size)
    (low : start ≤ offset) (high : offset + length ≤ start + size) :
    Clear region offset length := by
  intro position above below
  exact clear position (by omega) (by omega)

theorem clear_union {first second : Set Nat} (one : Clear first offset length)
    (other : Clear second offset length) : Clear (first ∪ second) offset length := by
  rintro position above below (member | member)
  · exact one position above below member
  · exact other position above below member

theorem clear_of_both {first second other : Nat}
    (apart : (offset + length ≤ first ∨ first + size ≤ offset) ∧
      (offset + length ≤ second ∨ second + other ≤ offset)) :
    Clear (range first size ∪ range second other) offset length :=
  clear_union (clear_of_apart apart.1) (clear_of_apart apart.2)

section Reads

variable {write : List UInt8 → List UInt8} {region : Set Nat} (confined : Confined write region)

include confined

theorem getU32_confined (clear : Clear region offset 4) :
    getU32 (write bytes) offset = getU32 bytes offset := by
  unfold getU32
  rw [confined.slice_eq bytes clear]

theorem getU64_confined (clear : Clear region offset 8) :
    getU64 (write bytes) offset = getU64 bytes offset := by
  unfold getU64
  rw [confined.slice_eq bytes clear]

theorem getTextSized_confined (clear : Clear region offset size) :
    getTextSized (write bytes) offset size = getTextSized bytes offset size := by
  unfold getTextSized
  rw [confined.slice_eq bytes clear]

end Reads

/-! ## Texts -/

/-- The text a slot gives back. -/
def readBack (size : Nat) (text : String) : String :=
  String.ofList (Utf8.lossy (Utf8.untilZero ((asBytes text).take (size - 1) ++ [0])))

theorem putTextSized_eq (bytes : List UInt8) (offset size : Nat) (value : String) :
    putTextSized bytes offset size value
      = overwrite bytes offset ((asBytes value).take (size - 1)) := by
  unfold putTextSized
  by_cases fits : (asBytes value).length ≤ size - 1
  · rw [Nat.min_eq_left fits, take_length, take_of_length_le fits]
  · rw [Nat.min_eq_right (by omega)]

theorem confined_putTextSized (offset size : Nat) (value : String) :
    Confined (fun bytes => putTextSized bytes offset size value) (range offset size) := by
  have stamps := stamps_overwrite offset ((asBytes value).take (size - 1))
  have within : range offset ((asBytes value).take (size - 1)).length ⊆ range offset size := by
    rintro position ⟨above, below⟩
    rw [length_take] at below
    exact ⟨above, by omega⟩
  have confined := stamps.confined.mono within
  have same : (fun bytes => putTextSized bytes offset size value)
      = fun bytes => overwrite bytes offset ((asBytes value).take (size - 1)) := by
    funext bytes
    exact putTextSized_eq bytes offset size value
  rwa [same]

/-- A slot with a text in front and zeros behind gives the text back. -/
theorem getTextSized_of_slot {value : String} (positive : 0 < size)
    (slot : slice bytes offset size = (asBytes value).take (size - 1) ++
      (List.replicate size 0).drop ((asBytes value).take (size - 1)).length) :
    getTextSized bytes offset size = readBack size value := by
  have short : ((asBytes value).take (size - 1)).length ≤ size - 1 := length_take_le _ _
  obtain ⟨rest, left⟩ : ∃ rest, size - ((asBytes value).take (size - 1)).length = rest + 1 :=
    ⟨size - ((asBytes value).take (size - 1)).length - 1, by omega⟩
  have stops (tail : List UInt8) (front : List UInt8) :
      Utf8.untilZero (front ++ 0 :: tail) = Utf8.untilZero (front ++ [0]) := by
    unfold Utf8.untilZero
    rw [takeWhile_append, takeWhile_append]
    simp
  unfold getTextSized readBack
  rw [slot, drop_replicate, left, replicate_succ, stops]

/-- What a slot holds after a text was written in front of it. -/
theorem slice_putTextSized {value : String} (room : offset + size ≤ bytes.length) :
    slice (putTextSized bytes offset size value) offset size
      = (asBytes value).take (size - 1) ++
        (slice bytes offset size).drop ((asBytes value).take (size - 1)).length := by
  have short : ((asBytes value).take (size - 1)).length ≤ size := by
    rw [length_take]
    omega
  rw [putTextSized_eq, slice_overwrite_front room short]

/-! ## Flags -/

theorem confined_setFlag (flag : UInt32) :
    Confined (fun bytes => setFlag bytes flag) (range offFlags 4) where
  length := fun bytes => (stamps_putU32 offFlags _).length bytes
  outside := fun bytes => (stamps_putU32 offFlags _).outside bytes
  inside := by
    intro first second same agree
    have flags : getU32 first offFlags = getU32 second offFlags := by
      unfold getU32
      rw [slice_congr fun position above below => agree position ⟨above, below⟩]
    unfold setFlag
    rw [flags]
    exact (stamps_putU32 offFlags _).inside first second same

/-- A flag set under a condition. -/
theorem confined_setFlag_if (condition : Prop) [Decidable condition] (flag : UInt32) :
    Confined (fun bytes => if condition then setFlag bytes flag else bytes) (range offFlags 4) := by
  by_cases holds : condition
  · simp only [holds]
    exact confined_setFlag flag
  · simp only [holds]
    exact Confined.rfl

@[simp] theorem length_setFlag_if [Decidable condition] :
    (if condition then setFlag bytes flag else bytes).length = bytes.length :=
  (confined_setFlag_if condition flag).length bytes

theorem getU32_setFlag_if [Decidable condition] (sized : bytes.length = recordSize) :
    getU32 (if condition then setFlag bytes flag else bytes) offFlags
      = getU32 bytes offFlags ||| (if condition then flag else 0) := by
  by_cases holds : condition
  · simp only [holds]
    exact getU32_putU32 (by rw [sized]; decide)
  · simp [holds]

/-! ## Metadata -/

def metadataRegion : Set Nat :=
  range headerSize (moduleOffset - headerSize) ∪ range cwdOffset (recordSize - cwdOffset) ∪
    range offCreationTimeMs 8

theorem stamps_putMetadata (metadata : CrashMetadata) :
    Stamps (fun record => putMetadata record metadata) metadataRegion := by
  have short (slot : Nat) (few : slot < textFields) :
      range (headerSize + textSize * slot) textSize ⊆
        range headerSize (moduleOffset - headerSize) ∪ range cwdOffset
          (recordSize - cwdOffset) := by
    rintro position ⟨above, below⟩
    simp only [layout, Set.mem_union, mem_range] at few above below ⊢
    omega
  have long : range cwdOffset cwdSize ⊆ metadataRegion := fun position member => .inl (.inr member)
  have cleared := (stamps_fill headerSize (moduleOffset - headerSize)).comp
    (stamps_fill cwdOffset (recordSize - cwdOffset))
  have texts := (((cleared.andThen
      ((confined_putTextSized headerSize textSize metadata.appClass).mono
        (short 0 (by decide)))).andThen
      ((confined_putTextSized (headerSize + textSize) textSize metadata.appName).mono
        (short 1 (by decide)))).andThen
      ((confined_putTextSized (headerSize + textSize * 2) textSize metadata.appVersion).mono
        (short 2 (by decide)))).andThen
      ((confined_putTextSized (headerSize + textSize * 3) textSize metadata.instanceName).mono
        (short 3 (by decide)))
  exact (texts.comp (stamps_putU64 offCreationTimeMs metadata.creationTimeMs)).andThen
    ((confined_putTextSized cwdOffset cwdSize metadata.cwd).mono long)

theorem length_blank : (blank processId).length = recordSize := by
  simp [blank]

theorem length_initializeRecord :
    (initializeRecord processId metadata).length = recordSize :=
  ((stamps_putMetadata metadata).length _).trans length_blank

/-! ## Modules -/

def moduleCell (index : Nat) : Set Nat := range (moduleOffset + index * moduleSize) moduleSize

theorem confined_putModule (entry : CrashModule × Nat) :
    Confined (fun record => putModule record entry) (moduleCell entry.2 ∪ range offFlags 4) := by
  have flagged := confined_setFlag_if (moduleSize ≤ (asBytes entry.1.identity).length)
    flagTruncatedModules
  have text := confined_putTextSized (moduleOffset + entry.2 * moduleSize) moduleSize
    entry.1.identity
  exact (flagged.mono Set.subset_union_right).comp (text.mono Set.subset_union_left)

/-! ## Threads -/

def frameCell (offset frameIndex : Nat) : Set Nat :=
  range (offset + 16 + frameIndex * frameSize) frameSize

theorem confined_putFrame (offset : Nat) (entry : CrashFrame × Nat) :
    Confined (fun record => putFrame offset record entry) (frameCell offset entry.2) := by
  have index := stamps_putU32 (offset + 16 + entry.2 * frameSize)
    (entry.1.moduleIndex.getD 0xFFFFFFFF)
  have address := stamps_putU64 (offset + 16 + entry.2 * frameSize + 8) entry.1.relativeAddress
  refine (index.confined.mono ?_).comp (address.confined.mono ?_)
  all_goals
    rintro position ⟨above, below⟩
    simp only [frameCell, layout, mem_range] at above below ⊢
    omega

def threadCell (index : Nat) : Set Nat := range (threadOffset + index * threadSize) threadSize

/-- The index of an entry of an enumerated list that was cut to a bound. -/
theorem zipIdx_take_lt {α : Type} {items : List α} {bound : Nat} {entry : α × Nat}
    (member : entry ∈ (items.take bound).zipIdx) : entry.2 < bound := by
  have small := snd_lt_of_mem_zipIdx member
  rw [length_take] at small
  omega

theorem confined_frameLoop (offset : Nat) (frames : List CrashFrame) :
    Confined (fun record => (frames.take maxFrames).zipIdx.foldl (putFrame offset) record)
      (range (offset + 16) (maxFrames * frameSize)) := by
  refine Confined.foldl fun frame member => (confined_putFrame offset frame).mono ?_
  have small := zipIdx_take_lt member
  rintro position ⟨above, below⟩
  simp only [layout, mem_range] at small above below ⊢
  omega

theorem confined_putThread (moduleCount : Nat) (entry : CrashThread × Nat) :
    Confined (fun record => putThread moduleCount record entry)
      (threadCell entry.2 ∪ range offFlags 4) := by
  have header (inner length : Nat) (fits : inner + length ≤ 16) :
      range (threadOffset + entry.2 * threadSize + inner) length ⊆
        threadCell entry.2 ∪ range offFlags 4 := by
    rintro position ⟨above, below⟩
    refine .inl ?_
    simp only [threadCell, layout, mem_range] at above below ⊢
    omega
  have tid := (stamps_putU64 (threadOffset + entry.2 * threadSize) entry.1.osTid).confined.mono
    (header 0 8 (by decide))
  have count := (stamps_putU32 (threadOffset + entry.2 * threadSize + 8)
    (UInt32.ofNat (min (entry.1.frames.filter (keepsFrame moduleCount)).length
      maxFrames))).confined.mono
    (header 8 4 (by decide))
  have flagged := (confined_setFlag_if
    (min (entry.1.frames.filter (keepsFrame moduleCount)).length maxFrames < entry.1.frames.length)
    flagTruncatedThreads).mono (@Set.subset_union_right _ (threadCell entry.2) (range offFlags 4))
  have frames : Confined (fun record =>
      ((entry.1.frames.filter (keepsFrame moduleCount)).take maxFrames).zipIdx.foldl
        (putFrame (threadOffset + entry.2 * threadSize)) record)
      (threadCell entry.2 ∪ range offFlags 4) := by
    refine (confined_frameLoop _ _).mono ?_
    rintro position ⟨above, below⟩
    refine .inl ?_
    simp only [threadCell, layout, mem_range] at above below ⊢
    omega
  exact ((tid.comp count).comp flagged).comp frames

/-! ## Samples -/

def sampleRegion : Set Nat :=
  range moduleOffset (rawOffset - moduleOffset) ∪ range offFlags 4 ∪ range offModuleCount 4 ∪
    range offThreadCount 4

theorem confined_moduleLoop (modules : List CrashModule) :
    Confined (fun record => (modules.take maxModules).zipIdx.foldl putModule record)
      (range moduleOffset (threadOffset - moduleOffset) ∪ range offFlags 4) := by
  refine Confined.foldl fun entry member => (confined_putModule entry).mono ?_
  have small := zipIdx_take_lt member
  rintro position (inCell | inFlags)
  · refine .inl ?_
    simp only [moduleCell, layout, mem_range] at small inCell ⊢
    omega
  · exact .inr inFlags

theorem confined_threadLoop (moduleCount : Nat) (threads : List CrashThread) :
    Confined (fun record => (threads.take maxThreads).zipIdx.foldl (putThread moduleCount) record)
      (range threadOffset (rawOffset - threadOffset) ∪ range offFlags 4) := by
  refine Confined.foldl fun entry member => (confined_putThread _ entry).mono ?_
  have small := zipIdx_take_lt member
  rintro position (inCell | inFlags)
  · refine .inl ?_
    simp only [threadCell, layout, mem_range] at small inCell ⊢
    omega
  · exact .inr inFlags

theorem stamps_putSample (modules : List CrashModule) (threads : List CrashThread) :
    Stamps (fun record => putSample record modules threads) sampleRegion := by
  have cleared := ((stamps_fill moduleOffset (rawOffset - moduleOffset)).comp
    (stamps_putU32 offFlags 0)).comp
    (stamps_putU32 offModuleCount (UInt32.ofNat (min modules.length maxModules)))
  have flags : range offFlags 4 ⊆
      range moduleOffset (rawOffset - moduleOffset) ∪ range offFlags 4 ∪ range offModuleCount 4 :=
    fun position member => .inl (.inr member)
  have cells : range moduleOffset (threadOffset - moduleOffset) ∪ range offFlags 4 ⊆
      range moduleOffset (rawOffset - moduleOffset) ∪ range offFlags 4 ∪
        range offModuleCount 4 := by
    rintro position (⟨above, below⟩ | inFlags)
    · simp only [layout, Set.mem_union, mem_range] at above below ⊢
      omega
    · exact flags inFlags
  have modulesDone := (cleared.andThen
    ((confined_setFlag_if (maxModules < modules.length) flagTruncatedModules).mono flags)).andThen
    ((confined_moduleLoop modules).mono cells)
  have counted := modulesDone.comp
    (stamps_putU32 offThreadCount (UInt32.ofNat (min threads.length maxThreads)))
  have wider : range offFlags 4 ⊆ sampleRegion := fun position member => .inl (flags member)
  have inner : range threadOffset (rawOffset - threadOffset) ∪ range offFlags 4 ⊆ sampleRegion := by
    rintro position (⟨above, below⟩ | inFlags)
    · simp only [sampleRegion, layout, Set.mem_union, mem_range] at above below ⊢
      omega
    · exact wider inFlags
  exact (counted.andThen
    ((confined_setFlag_if (maxThreads < threads.length) flagTruncatedThreads).mono wider)).andThen
    ((confined_threadLoop (min modules.length maxModules) threads).mono inner)

/-! ## Crashes -/

def crashRegion : Set Nat :=
  range offTid 32 ∪ range offRawLen 4 ∪ range offFlags 4 ∪ range rawOffset maxRawContext

theorem confined_putCrash (unixMs : UInt64) (fields : CrashFields) :
    Confined (fun record => putCrash record unixMs fields) crashRegion := by
  have word {offset : Nat} (value : UInt64) (fits : offTid ≤ offset ∧ offset + 8 ≤ offTid + 32) :
      Confined (fun record => putU64 record offset value) crashRegion := by
    refine (stamps_putU64 offset value).confined.mono ?_
    rintro position ⟨above, below⟩
    exact .inl (.inl (.inl ⟨by omega, by omega⟩))
  have length := (stamps_putU32 offRawLen
    (UInt32.ofNat (min fields.rawContext.length maxRawContext))).confined.mono
    (show range offRawLen 4 ⊆ crashRegion from fun position member => .inl (.inl (.inr member)))
  have flagged := (confined_setFlag_if (maxRawContext < fields.rawContext.length)
    flagTruncatedContext).mono
    (show range offFlags 4 ⊆ crashRegion from fun position member => .inl (.inr member))
  have context : Confined (fun record => overwrite record rawOffset
      (fields.rawContext.take (min fields.rawContext.length maxRawContext))) crashRegion := by
    refine (stamps_overwrite rawOffset _).confined.mono ?_
    rintro position ⟨above, below⟩
    rw [length_take] at below
    exact .inr ⟨above, by omega⟩
  exact (((((word fields.tid (by decide)).comp (word fields.faultCode.toUInt64 (by decide))).comp
    (word fields.faultAddress (by decide))).comp (word unixMs (by decide))).comp length).comp
    (flagged.comp context)

/-! ## Snapshots -/

/-- The record of an identity and of the last sample, before any crash. -/
def snapshot (processId : UInt32) (metadata : CrashMetadata)
    (sample : Option (List CrashModule × List CrashThread)) : List UInt8 :=
  match sample with
  | none => initializeRecord processId metadata
  | some (modules, threads) => putSample (initializeRecord processId metadata) modules threads

theorem metadata_sample_apart :
    ∀ position, position ∈ metadataRegion → position ∉ sampleRegion := by
  intro position inMetadata inSample
  simp only [metadataRegion, sampleRegion, layout, Set.mem_union, mem_range] at inMetadata inSample
  omega

/-- Putting other metadata into a snapshot gives the snapshot of that metadata. -/
theorem putMetadata_snapshot {old new : CrashMetadata} :
    putMetadata (snapshot processId old sample) new = snapshot processId new sample := by
  have absorbs := (stamps_putMetadata new).absorbs (stamps_putMetadata old).confined
    (blank processId)
  cases sample with
  | none => exact absorbs
  | some sample =>
    have swapped := (stamps_putMetadata new).comm (stamps_putSample sample.1 sample.2)
      metadata_sample_apart (initializeRecord processId old)
    exact swapped.trans (congrArg (fun record => putSample record sample.1 sample.2) absorbs)

/-- Putting another sample into a snapshot gives the snapshot of that sample. -/
theorem putSample_snapshot {modules : List CrashModule} {threads : List CrashThread} :
    putSample (snapshot processId metadata sample) modules threads
      = snapshot processId metadata (some (modules, threads)) := by
  cases sample with
  | none => rfl
  | some sample =>
    exact (stamps_putSample modules threads).absorbs (stamps_putSample sample.1 sample.2).confined
      (initializeRecord processId metadata)

end KernalApi.Crash
