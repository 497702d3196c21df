import KernalApi.Crash.Layout
import Mathlib.Data.List.Induction

/-!
# What the writers of a crash record leave

Each field is read back from the place its writer put it: texts as far as their
slots hold them, modules, threads and frames from their cells, and one flag for
each kind of loss.
-/

namespace KernalApi.Crash

open KernalApi.Std
open List hiding mem_range

variable {count : Nat}
  {ε α β : Type} {offset index moduleCount frameIndex : Nat} {region : Set Nat}
    {thread : CrashThread}
  {bytes record : List UInt8}

/-! ## Results of loops -/

variable {items : List α}

/-- A loop over an index that succeeds on every element of a list gives the list. -/
theorem mapM_range_ok {read : Nat → Except ε α} (all : items.length = count)
    (reads : ∀ {index item}, items[index]? = some item → read index = .ok item) :
    (List.range count).mapM read = .ok items := by
  subst all
  induction items using reverseRecOn with
  | nil => rfl
  | append_singleton items item ih =>
    rw [length_append, length_singleton, range_succ, mapM_append, ih, mapM_cons, reads]
    · rfl
    · simp
    · intro index item found
      apply reads
      rw [getElem?_append_left (List.getElem?_eq_some_iff.mp found).1, found]

theorem mapM_congr {first second : α → Except ε β}
    (same : ∀ item ∈ items, first item = second item) : items.mapM first = items.mapM second := by
  induction items with
  | nil => rfl
  | cons item items ih =>
    rw [mapM_cons, mapM_cons, same item mem_cons_self,
      ih (fun other member => same other (mem_cons_of_mem _ member))]

theorem map_range_eq {read : Nat → α} (all : items.length = count)
    (reads : ∀ {index item}, items[index]? = some item → read index = item) :
    (List.range count).map read = items := by
  apply ext_getElem
  · simp [all]
  · intro index _ inside
    simp only [getElem_map, getElem_range]
    exact reads (getElem?_eq_getElem inside)

theorem lt_of_getElem?_take {item : α} {bound : Nat}
    (found : (items.take bound)[index]? = some item) : index < bound := by
  have inside := (List.getElem?_eq_some_iff.mp found).1
  rw [length_take] at inside
  omega

/-- The count of the items that are kept is written without loss. -/
theorem count_toNat {limit : Nat} (small : limit < UInt32.size) :
    (UInt32.ofNat (min items.length limit)).toNat = (items.take limit).length := by
  rw [length_take, Nat.min_comm]
  exact UInt32.toNat_ofNat_of_lt' (Nat.lt_of_le_of_lt (Nat.min_le_left _ _) small)

/-- The flag a loop leaves is set when an item of the loop sets it. -/
theorem foldl_flags {write : List UInt8 → β → List UInt8} {flag : UInt32} {marks : β → Bool}
    {items : List β} (length : ∀ record item, (write record item).length = record.length)
    (marked : ∀ (record : List UInt8) item, record.length = recordSize →
      getU32 (write record item) offFlags = getU32 record offFlags |||
        (if marks item then flag else 0))
    (sized : record.length = recordSize) :
    getU32 (items.foldl write record) offFlags
      = getU32 record offFlags ||| (if items.any marks then flag else 0) := by
  induction items generalizing record with
  | nil => simp
  | cons item items ih =>
    rw [foldl_cons, ih ((length _ _).trans sized), marked record item sized,
      any_cons, UInt32.or_assoc]
    cases marks item <;> cases items.any marks <;> simp

/-! ## Metadata -/

/-- The metadata a record gives back. -/
def storedMetadata (metadata : CrashMetadata) : CrashMetadata :=
  { appClass := readBack textSize metadata.appClass
    appName := readBack textSize metadata.appName
    appVersion := readBack textSize metadata.appVersion
    instanceName := readBack textSize metadata.instanceName
    creationTimeMs := metadata.creationTimeMs
    cwd := readBack cwdSize metadata.cwd }

/-- The short texts, in the order of their slots. -/
def CrashMetadata.texts (metadata : CrashMetadata) : List String :=
  [metadata.appClass, metadata.appName, metadata.appVersion, metadata.instanceName]

def putSlot (record : List UInt8) (entry : String × Nat) : List UInt8 :=
  putText record (headerSize + textSize * entry.2) entry.1

theorem putMetadata_eq (record : List UInt8) (metadata : CrashMetadata) :
    putMetadata record metadata =
      putTextSized (putU64 (metadata.texts.zipIdx.foldl putSlot
        (fill (fill record headerSize (moduleOffset - headerSize)) cwdOffset
          (recordSize - cwdOffset)))
        offCreationTimeMs metadata.creationTimeMs) cwdOffset cwdSize metadata.cwd := rfl

theorem confined_putSlot (entry : String × Nat) :
    Confined (fun record => putSlot record entry)
      (range (headerSize + textSize * entry.2) textSize) :=
  confined_putTextSized _ _ _

theorem confined_slots (metadata : CrashMetadata) :
    Confined (fun record => metadata.texts.zipIdx.foldl putSlot record)
      (range headerSize (moduleOffset - headerSize)) := by
  refine Confined.foldl fun entry member => (confined_putSlot entry).mono ?_
  have small := snd_lt_of_mem_zipIdx member
  rintro position ⟨above, below⟩
  simp only [CrashMetadata.texts, length_cons, length_nil] at small
  simp only [layout, mem_range] at above below ⊢
  omega

/-- A cleared range reads as zeros. -/
theorem slice_fill {length inner short : Nat} (room : offset + length ≤ bytes.length)
    (within : inner + short ≤ length) :
    slice (fill bytes offset length) (offset + inner) short = List.replicate short 0 := by
  refine slice_eq (by simp) fun position inside => ?_
  rw [fill, Nat.add_assoc, getElem?_overwrite_within (by omega) (by rw [length_replicate]; omega)]
  simp only [getElem?_replicate, if_pos inside, if_pos (show inner + position < length by omega)]

/-- Each short text is read back from its slot. -/
theorem getText_putMetadata (metadata : CrashMetadata) (sized : record.length = recordSize)
    {text : String} (found : metadata.texts[index]? = some text) :
    getText (putMetadata record metadata) (headerSize + textSize * index) =
      readBack textSize text := by
  have few : index < 4 := (List.getElem?_eq_some_iff.mp found).1
  have cwd := confined_putTextSized cwdOffset cwdSize metadata.cwd
  have time := (stamps_putU64 offCreationTimeMs metadata.creationTimeMs).confined
  have cleared := (stamps_fill cwdOffset (recordSize - cwdOffset)).confined
  have length : (fill (fill record headerSize (moduleOffset - headerSize)) cwdOffset
      (recordSize - cwdOffset)).length = recordSize := by simp [sized]
  have apart {offset size : Nat} (clear : offset + size ≤ headerSize ∨ moduleOffset ≤ offset) :
      Clear (range offset size) (headerSize + textSize * index) textSize := by
    apply clear_of_apart
    simp only [layout] at clear ⊢
    omega
  -- The slot was cleared, and of the short texts only its own is written there.
  have slot := foldl_cell recordSize 4
    (fun index record => slice record (headerSize + textSize * index) textSize)
    (fun text old => (asBytes text).take (textSize - 1) ++
      old.drop ((asBytes text).take (textSize - 1)).length)
    (fun record entry => (confined_putSlot entry).length record) ?_ ?_ length
    (show metadata.texts.length ≤ 4 from Nat.le_refl 4) found
  · rw [cleared.slice_eq _ (apart (.inr (by decide)))] at slot
    have zero : slice (fill record headerSize (moduleOffset - headerSize))
        (headerSize + textSize * index) textSize = replicate textSize 0 := by
      apply slice_fill
      · rw [sized]
        decide
      · simp only [layout]
        omega
    rw [zero] at slot
    rw [putMetadata_eq]
    unfold getText
    rw [getTextSized_confined cwd (apart (.inr (by decide))),
      getTextSized_confined time (apart (.inl (by decide)))]
    exact getTextSized_of_slot (by decide) slot
  · intro record text _ index sized few
    apply slice_putTextSized
    simp only [layout] at sized ⊢
    omega
  · intro record text index cell _ _ differ
    apply (confined_putSlot (text, index)).slice_eq
    apply clear_of_apart
    simp only [layout]
    omega

theorem getCwd_putMetadata (metadata : CrashMetadata) (sized : record.length = recordSize) :
    getTextSized (putMetadata record metadata) cwdOffset cwdSize =
      readBack cwdSize metadata.cwd := by
  have length : (putU64 (metadata.texts.zipIdx.foldl putSlot
        (fill (fill record headerSize (moduleOffset - headerSize)) cwdOffset
          (recordSize - cwdOffset)))
        offCreationTimeMs metadata.creationTimeMs).length = recordSize := by
    simp [(confined_slots metadata).length, sized]
  rw [putMetadata_eq]
  have zero : slice (fill (fill record headerSize (moduleOffset - headerSize)) cwdOffset
      (recordSize - cwdOffset)) (cwdOffset + 0) cwdSize = replicate cwdSize 0 :=
    slice_fill (by rw [length_fill, sized]; decide) (by decide)
  apply getTextSized_of_slot (by decide)
  rw [slice_putTextSized (by rw [length]; decide),
    (stamps_putU64 offCreationTimeMs _).confined.slice_eq, (confined_slots metadata).slice_eq]
  · exact congrArg (_ ++ drop _ ·) zero
  all_goals exact clear_of_apart (by decide)

theorem getTime_putMetadata (metadata : CrashMetadata) (sized : record.length = recordSize) :
    getU64 (putMetadata record metadata) offCreationTimeMs = metadata.creationTimeMs := by
  rw [putMetadata_eq, getU64_confined (confined_putTextSized cwdOffset cwdSize metadata.cwd),
    getU64_putU64]
  · rw [(confined_slots metadata).length, length_fill, length_fill, sized]
    decide
  · exact clear_of_apart (by decide)

/-! ## Frames and threads -/

/-- A thread as a record keeps it. -/
def keptThread (moduleCount : Nat) (thread : CrashThread) : CrashThread :=
  { thread with frames := (thread.frames.filter (keepsFrame moduleCount)).take maxFrames }

theorem parseFrame_putFrame {frame : CrashFrame}
    (few : moduleCount ≤ maxModules) (kept : keepsFrame moduleCount frame)
    (room : offset + 16 + frameIndex * frameSize + frameSize ≤ record.length) :
    parseFrame (putFrame offset record (frame, frameIndex)) moduleCount offset frameIndex
      = .ok frame := by
  have index : getU32 (putFrame offset record (frame, frameIndex))
      (offset + 16 + frameIndex * frameSize) = frame.moduleIndex.getD 0xFFFFFFFF := by
    unfold putFrame
    simp only
    rw [getU32_confined (stamps_putU64 _ frame.relativeAddress).confined, getU32_putU32]
    · simp only [layout] at room ⊢
      omega
    · exact clear_of_apart (by omega)
  have address : getU64 (putFrame offset record (frame, frameIndex))
      (offset + 16 + frameIndex * frameSize + 8) = frame.relativeAddress := by
    unfold putFrame
    rw [getU64_putU64]
    simp only [length_putU32, layout] at room ⊢
    omega
  unfold parseFrame
  simp only [index, address]
  obtain ⟨moduleIndex, relativeAddress⟩ := frame
  cases moduleIndex with
  | none => rfl
  | some named =>
    have small : named.toNat < moduleCount := by
      unfold keepsFrame at kept
      simpa using kept
    have differs : named ≠ 0xFFFFFFFF := by
      rintro rfl
      simp only [layout] at few
      exact absurd small (by simp only [UInt32.reduceToNat]; omega)
    simp only [Option.getD_some, differs, small]
    rfl

/-- Frames are read from their own cell. -/
theorem parseFrame_confined {write : List UInt8 → List UInt8} (confined : Confined write region)
    (clear : Clear region (offset + 16 + frameIndex * frameSize) frameSize) :
    parseFrame (write bytes) moduleCount offset frameIndex
      = parseFrame bytes moduleCount offset frameIndex := by
  have index := @getU32_confined bytes _ write region confined
    (clear.inner (Nat.le_refl _) (Nat.add_le_add_left (by decide) _))
  have address := @getU64_confined bytes _ write region confined
    (clear.inner (Nat.le_add_right _ 8) (Nat.le_refl _))
  unfold parseFrame
  simp [index, address]

/-- Threads are read from their own cell: more frames than a cell has are
refused before any is read. -/
theorem parseThread_confined {write : List UInt8 → List UInt8} (confined : Confined write region)
    (clear : Clear region (threadOffset + index * threadSize) threadSize) :
    parseThread (write bytes) moduleCount index = parseThread bytes moduleCount index := by
  have count := @getU32_confined bytes _ write region confined
    (clear.inner (Nat.le_add_right _ 8) (by simp only [layout]; omega))
  have tid := @getU64_confined bytes _ write region confined
    (clear.inner (Nat.le_refl _) (by simp only [layout]; omega))
  unfold parseThread
  simp only [count, tid]
  by_cases many : maxFrames < (getU32 bytes (threadOffset + index * threadSize + 8)).toNat
  · simp only [many, if_true]
    rfl
  have frames : (List.range (getU32 bytes (threadOffset + index * threadSize + 8)).toNat).mapM
      (parseFrame (write bytes) moduleCount (threadOffset + index * threadSize))
      = (List.range (getU32 bytes (threadOffset + index * threadSize + 8)).toNat).mapM
        (parseFrame bytes moduleCount (threadOffset + index * threadSize)) := by
    apply mapM_congr
    intro frameIndex member
    have small := List.mem_range.mp member
    apply parseFrame_confined confined
    apply clear.inner
    · omega
    · simp only [layout] at many small ⊢
      omega
  simp [frames]

/-- A written thread is read back as the record keeps it. -/
theorem parseThread_putThread
    (few : moduleCount ≤ maxModules) (inside : index < maxThreads)
    (sized : record.length = recordSize) :
    parseThread (putThread moduleCount record (thread, index)) moduleCount index
      = .ok (keptThread moduleCount thread) := by
  let offset := threadOffset + index * threadSize
  let kept := thread.frames.filter (keepsFrame moduleCount)
  let counted := putU32 (putU64 record offset thread.osTid) (offset + 8)
    (UInt32.ofNat (min kept.length maxFrames))
  let flagged := if min kept.length maxFrames < thread.frames.length then
    setFlag counted flagTruncatedThreads else counted
  have written : putThread moduleCount record (thread, index)
      = (kept.take maxFrames).zipIdx.foldl (putFrame offset) flagged := rfl
  have place : threadOffset ≤ offset ∧ offset + threadSize ≤ recordSize := by
    simp only [offset, layout] at inside ⊢
    omega
  have countedLength : counted.length = recordSize := by simp [counted, sized]
  have flag := confined_setFlag_if (min kept.length maxFrames < thread.frames.length)
    flagTruncatedThreads
  have flaggedLength : flagged.length = recordSize := (flag.length counted).trans countedLength
  have loop := confined_frameLoop offset kept
  -- The thread's own numbers lie before its frames and after the flags.
  have ahead {inset length : Nat} (fits : inset + length ≤ 16) :
      Clear (range (offset + 16) (maxFrames * frameSize)) (offset + inset) length :=
    clear_of_apart (by omega)
  have behind {inset length : Nat} : Clear (range offFlags 4) (offset + inset) length := by
    apply clear_of_apart
    simp only [layout] at place ⊢
    omega
  have count : (getU32 (putThread moduleCount record (thread, index)) (offset + 8)).toNat
      = (kept.take maxFrames).length := by
    rw [written, getU32_confined loop (ahead (by decide)), getU32_confined flag behind,
      getU32_putU32, count_toNat (by decide)]
    simp only [length_putU64, sized, layout] at place ⊢
    omega
  have tid : getU64 (putThread moduleCount record (thread, index)) offset = thread.osTid := by
    have numbers := @getU64_confined flagged _ _ _ loop (ahead (show 0 + 8 ≤ 16 by decide))
    rw [Nat.add_zero] at numbers
    have unflagged := @getU64_confined counted _ _ _ flag (@behind 0 8)
    rw [Nat.add_zero] at unflagged
    rw [written, numbers, unflagged, getU64_confined (stamps_putU32 _ _).confined, getU64_putU64]
    · simp only [sized, layout] at place ⊢
      omega
    · exact clear_of_apart (by omega)
  have frames : (List.range (kept.take maxFrames).length).mapM
      (parseFrame (putThread moduleCount record (thread, index)) moduleCount offset)
      = .ok (kept.take maxFrames) := by
    refine mapM_range_ok rfl fun {frameIndex frame} found => ?_
    refine foldl_cell recordSize maxFrames (fun index record =>
      parseFrame record moduleCount offset index)
      (fun frame _ => .ok frame) (fun record entry =>
        (confined_putFrame offset entry).length record)
      ?_ ?_ flaggedLength (length_take_le _ _) found
    · intro buffer item member index sized small
      apply parseFrame_putFrame few
      · exact (mem_filter.mp (mem_of_mem_take member)).2
      · simp only [sized, layout] at place small ⊢
        omega
    · intro buffer item index cell _ _ differ
      apply parseFrame_confined (confined_putFrame offset (item, index))
      apply clear_of_apart
      simp only [layout]
      omega
  unfold parseThread
  simp only [show threadOffset + index * threadSize = offset from rfl, count, tid]
  have small : ¬ maxFrames < (kept.take maxFrames).length := by
    have := length_take_le maxFrames kept
    omega
  simp only [small, frames]
  rfl

/-! ## Samples -/

/-- The record when the modules of a sample are written. -/
def withModules (record : List UInt8) (modules : List CrashModule) : List UInt8 :=
  let record := fill record moduleOffset (rawOffset - moduleOffset)
  let record := putU32 record offFlags 0
  let record := putU32 record offModuleCount (UInt32.ofNat (min modules.length maxModules))
  let record := if maxModules < modules.length then setFlag record flagTruncatedModules else record
  (modules.take maxModules).zipIdx.foldl putModule record

/-- The record when the threads of a sample are counted. -/
def withThreadCount (record : List UInt8) (modules : List CrashModule)
    (threads : List CrashThread) : List UInt8 :=
  let record := putU32 (withModules record modules) offThreadCount
    (UInt32.ofNat (min threads.length maxThreads))
  if maxThreads < threads.length then setFlag record flagTruncatedThreads else record

theorem putSample_eq (record : List UInt8) (modules : List CrashModule)
    (threads : List CrashThread) : putSample record modules threads =
      (threads.take maxThreads).zipIdx.foldl (putThread (min modules.length maxModules))
        (withThreadCount record modules threads) := rfl

variable (sized : record.length = recordSize)

section Samples

variable {modules : List CrashModule} {threads : List CrashThread}

theorem length_withModules : (withModules record modules).length = record.length := by
  simp [withModules, (confined_moduleLoop modules).length]

theorem length_withThreadCount :
    (withThreadCount record modules threads).length = record.length := by
  simp [withThreadCount, length_withModules]

theorem getModuleCount_putSample (sized : record.length = recordSize) :
    (getU32 (putSample record modules threads) offModuleCount).toNat
      = (modules.take maxModules).length := by
  rw [putSample_eq, getU32_confined (confined_threadLoop _ _) (clear_of_both (by decide))]
  unfold withThreadCount
  rw [getU32_confined (confined_setFlag_if _ _) (clear_of_apart (by decide)),
    getU32_confined (stamps_putU32 _ _).confined (clear_of_apart (by decide))]
  unfold withModules
  rw [getU32_confined (confined_moduleLoop modules) (clear_of_both (by decide)),
    getU32_confined (confined_setFlag_if _ _) (clear_of_apart (by decide)), getU32_putU32,
    count_toNat (by decide)]
  rw [length_putU32, length_fill, sized]
  decide

theorem getThreadCount_putSample (sized : record.length = recordSize) :
    (getU32 (putSample record modules threads) offThreadCount).toNat
      = (threads.take maxThreads).length := by
  rw [putSample_eq, getU32_confined (confined_threadLoop _ _) (clear_of_both (by decide))]
  unfold withThreadCount
  rw [getU32_confined (confined_setFlag_if _ _) (clear_of_apart (by decide)), getU32_putU32,
    count_toNat (by decide)]
  rw [length_withModules, sized]
  decide

/-- A module whose identity does not fit its slot. -/
def longModule (entry : CrashModule) : Bool := moduleSize ≤ (asBytes entry.identity).length

/-- A thread of which the record drops frames. -/
def dropsFrames (moduleCount : Nat) (thread : CrashThread) : Bool :=
  min (thread.frames.filter (keepsFrame moduleCount)).length maxFrames < thread.frames.length

theorem getFlags_putModule (entry : CrashModule × Nat) (sized : record.length = recordSize) :
    getU32 (putModule record entry) offFlags
      = getU32 record offFlags ||| (if longModule entry.1 then flagTruncatedModules else 0) := by
  unfold putModule
  rw [getU32_confined (confined_putTextSized _ _ _), getU32_setFlag_if sized]
  · simp [longModule]
  · apply clear_of_apart
    simp only [layout]
    omega

theorem getFlags_putThread (moduleCount : Nat) (entry : CrashThread × Nat)
    (sized : record.length = recordSize) :
    getU32 (putThread moduleCount record entry) offFlags
      = getU32 record offFlags ||| (if dropsFrames moduleCount entry.1 then flagTruncatedThreads
        else 0) := by
  have apart {inset length : Nat} :
      Clear (range (threadOffset + entry.2 * threadSize + inset) length) offFlags 4 := by
    apply clear_of_apart
    simp only [layout]
    omega
  have front : Clear (range (threadOffset + entry.2 * threadSize) 8) offFlags 4 := @apart 0 8
  unfold putThread
  rw [getU32_confined (confined_frameLoop _ _) apart, getU32_setFlag_if,
    getU32_confined (stamps_putU32 _ _).confined apart,
    getU32_confined (stamps_putU64 _ _).confined front]
  · simp only [dropsFrames, decide_eq_true_eq]
  · simp [sized]

theorem any_zipIdx (items : List α) (holds : α → Bool) :
    items.zipIdx.any (fun entry => holds entry.1) = items.any holds := by
  have firsts : items.zipIdx.map Prod.fst = items := zipIdx_map_fst 0 items
  conv_rhs => rw [← firsts, any_map]
  rfl

include sized

/-- The flags a sample leaves, one bit for each kind of loss. -/
theorem getFlags_putSample :
    getU32 (putSample record modules threads) offFlags =
      ((((if maxModules < modules.length then flagTruncatedModules else 0) |||
        (if (modules.take maxModules).any longModule then flagTruncatedModules else 0)) |||
        (if maxThreads < threads.length then flagTruncatedThreads else 0)) |||
        (if (threads.take maxThreads).any (dropsFrames (min modules.length maxModules)) then
          flagTruncatedThreads else 0)) := by
  let counted := putU32 (putU32 (fill record moduleOffset (rawOffset - moduleOffset)) offFlags 0)
    offModuleCount (UInt32.ofNat (min modules.length maxModules))
  have countedLength : counted.length = recordSize := by simp [counted, sized]
  have start : getU32 counted offFlags = 0 := by
    rw [getU32_confined (stamps_putU32 _ _).confined (clear_of_apart (by decide)), getU32_putU32]
    rw [length_fill, sized]
    decide
  have moduleFlags : getU32 (withModules record modules) offFlags =
      (if maxModules < modules.length then flagTruncatedModules else 0) |||
        (if (modules.take maxModules).any longModule then flagTruncatedModules else 0) := by
    unfold withModules
    rw [foldl_flags (fun record entry => (confined_putModule entry).length record)
      (fun record entry => getFlags_putModule entry), any_zipIdx, getU32_setFlag_if countedLength,
      start,
      UInt32.zero_or]
    exact length_setFlag_if.trans countedLength
  have threadFlags : getU32 (withThreadCount record modules threads) offFlags =
      getU32 (withModules record modules) offFlags |||
        (if maxThreads < threads.length then flagTruncatedThreads else 0) := by
    unfold withThreadCount
    rw [getU32_setFlag_if, getU32_confined (stamps_putU32 _ _).confined
      (clear_of_apart (by decide))]
    rw [length_putU32, length_withModules, sized]
  rw [putSample_eq, foldl_flags (fun record entry => (confined_putThread _ entry).length record)
    (fun record entry => getFlags_putThread _ entry), any_zipIdx, threadFlags, moduleFlags]
  rw [length_withThreadCount, sized]

/-- The kept modules are read back from their slots. -/
theorem getModule_putSample {entry : CrashModule}
    (found : (modules.take maxModules)[index]? = some entry) :
    getTextSized (putSample record modules threads) (moduleOffset + index * moduleSize) moduleSize
      = readBack moduleSize entry.identity := by
  have few := lt_of_getElem?_take found
  have cell {start size : Nat} (apart : start + size ≤ moduleOffset ∨ threadOffset ≤ start) :
      Clear (range start size) (moduleOffset + index * moduleSize) moduleSize := by
    apply clear_of_apart
    simp only [layout] at few apart ⊢
    omega
  rw [putSample_eq, getTextSized_confined (confined_threadLoop _ _)
    (clear_union (cell (by decide)) (cell (by decide)))]
  unfold withThreadCount
  rw [getTextSized_confined (confined_setFlag_if _ _) (cell (by decide)),
    getTextSized_confined (stamps_putU32 _ _).confined (cell (by decide))]
  apply getTextSized_of_slot (by decide)
  refine (foldl_cell recordSize maxModules
    (fun index record => slice record (moduleOffset + index * moduleSize) moduleSize)
    (fun entry old => (asBytes entry.identity).take (moduleSize - 1) ++
      old.drop ((asBytes entry.identity).take (moduleSize - 1)).length)
    (fun record entry => (confined_putModule entry).length record) ?_ ?_ ?_ (length_take_le _ _)
    found).trans ?_
  · intro buffer entry _ index sized small
    have room : moduleOffset + index * moduleSize + moduleSize ≤ recordSize := by
      simp only [layout] at small ⊢
      omega
    unfold putModule
    rw [slice_putTextSized, (confined_setFlag_if _ _).slice_eq]
    · apply clear_of_apart
      simp only [layout]
      omega
    · rw [length_setFlag_if, sized]
      exact room
  · intro buffer entry index cell small inside differ
    apply (confined_putModule (entry, index)).slice_eq
    apply clear_of_both
    simp only [layout]
    omega
  · simp [sized]
  · rw [(confined_setFlag_if _ _).slice_eq _ (cell (by decide)),
      (stamps_putU32 _ _).confined.slice_eq _ (cell (by decide)),
      (stamps_putU32 _ _).confined.slice_eq _ (cell (by decide)), slice_fill]
    · rw [sized]
      decide
    · simp only [layout] at few ⊢
      omega

/-- The kept threads are read back from their cells. -/
theorem parseThread_putSample (found : (threads.take maxThreads)[index]? = some thread) :
    parseThread (putSample record modules threads) (min modules.length maxModules) index
      = .ok (keptThread (min modules.length maxModules) thread) := by
  refine foldl_cell recordSize maxThreads
    (fun index record => parseThread record (min modules.length maxModules) index)
    (fun thread _ => .ok (keptThread (min modules.length maxModules) thread))
    (fun record entry => (confined_putThread _ entry).length record) ?_ ?_
    (length_withThreadCount.trans sized) (length_take_le _ _) found
  · intro buffer thread _ index sized small
    exact parseThread_putThread (Nat.min_le_right _ _) small sized
  intro buffer thread index cell _ _ differ
  apply parseThread_confined (confined_putThread _ (thread, index))
  apply clear_of_both
  simp only [layout]
  omega

end Samples

/-! ## Crashes -/

section Crashes

variable {unixMs : UInt64} {fields : CrashFields}

/-- The record when the numbers of a crash are written. -/
def withNumbers (record : List UInt8) (unixMs : UInt64) (fields : CrashFields) : List UInt8 :=
  putU64 (putU64 (putI64 (putU64 record offTid fields.tid) offFaultCode fields.faultCode)
    offFaultAddress fields.faultAddress) offUnixMs unixMs

/-- The record when the raw context of a crash is measured. -/
def withRawLen (record : List UInt8) (unixMs : UInt64) (fields : CrashFields) : List UInt8 :=
  putU32 (withNumbers record unixMs fields) offRawLen
    (UInt32.ofNat (min fields.rawContext.length maxRawContext))

theorem putCrash_eq (record : List UInt8) (unixMs : UInt64) (fields : CrashFields) :
    putCrash record unixMs fields =
      overwrite (if maxRawContext < fields.rawContext.length then
          setFlag (withRawLen record unixMs fields) flagTruncatedContext
        else withRawLen record unixMs fields) rawOffset
        (fields.rawContext.take (min fields.rawContext.length maxRawContext)) := rfl

theorem length_withNumbers : (withNumbers record unixMs fields).length = record.length := by
  simp [withNumbers, putI64]

theorem length_withRawLen : (withRawLen record unixMs fields).length = record.length := by
  simp [withRawLen, length_withNumbers]

/-- The raw context is copied behind everything else but the working directory. -/
theorem confined_putRaw (context : List UInt8) :
    Confined (fun record => overwrite record rawOffset
      (context.take (min context.length maxRawContext))) (range rawOffset maxRawContext) := by
  refine (stamps_overwrite rawOffset _).confined.mono ?_
  rintro position ⟨above, below⟩
  rw [length_take] at below
  exact ⟨above, by omega⟩

theorem getU64_putCrash (inside : offset + 8 ≤ offRawLen) :
    getU64 (putCrash record unixMs fields) offset =
      getU64 (withNumbers record unixMs fields) offset := by
  simp only [layout] at inside
  rw [putCrash_eq, withRawLen, getU64_confined (confined_putRaw _),
    getU64_confined (confined_setFlag_if _ _), getU64_confined (stamps_putU32 _ _).confined]
  all_goals
    apply clear_of_apart
    simp only [layout]
    omega

include sized

theorem getNumbers_putCrash :
    getU64 (putCrash record unixMs fields) offTid = fields.tid ∧
    getI64 (putCrash record unixMs fields) offFaultCode = fields.faultCode ∧
    getU64 (putCrash record unixMs fields) offFaultAddress = fields.faultAddress := by
  have word {bytes : List UInt8} {offset at' : Nat} (value : UInt64)
      (apart : at' + 8 ≤ offset ∨ offset + 8 ≤ at') :
      getU64 (putU64 bytes offset value) at' = getU64 bytes at' :=
    getU64_confined (stamps_putU64 offset value).confined (clear_of_apart apart)
  refine ⟨?_, ?_, ?_⟩
  · rw [getU64_putCrash (by decide)]
    unfold withNumbers putI64
    rw [word _ (by decide), word _ (by decide), word _ (by decide),
      getU64_putU64 (by rw [sized]; decide)]
  · unfold getI64
    rw [getU64_putCrash (by decide)]
    unfold withNumbers
    rw [word _ (by decide), word _ (by decide)]
    exact getI64_putI64 (by rw [length_putU64, sized]; decide)
  · rw [getU64_putCrash (by decide)]
    unfold withNumbers putI64
    rw [word _ (by decide), getU64_putU64]
    rw [length_putU64, length_putU64, sized]
    decide

theorem getRawLen_putCrash :
    (getU32 (putCrash record unixMs fields) offRawLen).toNat
      = (fields.rawContext.take maxRawContext).length := by
  rw [putCrash_eq, getU32_confined (confined_putRaw _) (clear_of_apart (by decide)),
    getU32_confined (confined_setFlag_if _ _) (clear_of_apart (by decide))]
  unfold withRawLen
  rw [getU32_putU32, count_toNat (by decide)]
  rw [length_withNumbers, sized]
  decide

theorem getRaw_putCrash :
    slice (putCrash record unixMs fields) rawOffset (fields.rawContext.take maxRawContext).length
      = fields.rawContext.take maxRawContext := by
  have cut : fields.rawContext.take (min fields.rawContext.length maxRawContext)
      = fields.rawContext.take maxRawContext := by
    rw [← take_take, take_of_length_le]
    rw [length_take]
    omega
  rw [putCrash_eq, cut]
  apply slice_overwrite
  rw [length_setFlag_if, length_withRawLen, sized]
  have short := length_take_le maxRawContext fields.rawContext
  simp only [layout] at short ⊢
  omega

theorem getFlags_putCrash :
    getU32 (putCrash record unixMs fields) offFlags = getU32 record offFlags |||
      (if maxRawContext < fields.rawContext.length then flagTruncatedContext else 0) := by
  have word {bytes : List UInt8} {offset : Nat} (value : UInt64) (apart : offset + 8 ≤ offFlags) :
      getU32 (putU64 bytes offset value) offFlags = getU32 bytes offFlags :=
    getU32_confined (stamps_putU64 offset value).confined (clear_of_apart (.inr apart))
  rw [putCrash_eq, getU32_confined (confined_putRaw _) (clear_of_apart (by decide)),
    getU32_setFlag_if (length_withRawLen.trans sized)]
  unfold withRawLen
  rw [getU32_confined (stamps_putU32 _ _).confined (clear_of_apart (by decide))]
  unfold withNumbers putI64
  rw [word _ (by decide), word _ (by decide), word _ (by decide), word _ (by decide)]

end Crashes

end KernalApi.Crash
