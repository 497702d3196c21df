import Mathlib.Data.List.Forall2
import Mathlib.Data.List.TakeDrop
import KernalApi.Crash.Readback

/-!
# Crash records read back

What `parse` makes of an encoded report, field by field, and when that is the
report cut to its bounds with `truncated` telling whether anything was cut.
-/

namespace KernalApi.Crash

open KernalApi.Std
open List hiding mem_range

variable {offset length size bound : Nat} {text : String} {α : Type}

/-! ## Whole records -/

/-- Whether one of the bounds that have a flag cuts a report. -/
def overflows (report : RawCrashReport) : Bool :=
  maxModules < report.modules.length || (report.modules.take maxModules).any longModule ||
    maxThreads < report.threads.length ||
    (report.threads.take maxThreads).any (dropsFrames (min report.modules.length maxModules)) ||
    maxRawContext < report.rawContext.length

/-- The report a record gives back. -/
def stored (report : RawCrashReport) : RawCrashReport :=
  { report with
    metadata := storedMetadata report.metadata
    modules := (report.modules.take maxModules).map fun entry =>
      { identity := readBack moduleSize entry.identity }
    threads := (report.threads.take maxThreads).map
      (keptThread (min report.modules.length maxModules))
    rawContext := report.rawContext.take maxRawContext
    truncated := overflows report }

section Whole

variable {processId : UInt32} {unixMs : UInt64} {report : RawCrashReport}

theorem blank_magic : slice (blank processId) 0 8 = magic := by
  unfold blank
  rw [(stamps_putU32 _ _).confined.slice_eq _ (clear_of_apart (by decide)),
    (stamps_putU32 _ _).confined.slice_eq _ (clear_of_apart (by decide)),
    (stamps_putU32 _ _).confined.slice_eq _ (clear_of_apart (by decide))]
  have written : slice (overwrite (replicate recordSize 0) 0 magic) 0 magic.length = magic :=
    slice_overwrite (by rw [length_replicate]; decide)
  exact written

theorem blank_version : getU32 (blank processId) offVersion = version := by
  unfold blank
  rw [getU32_confined (stamps_putU32 _ _).confined (clear_of_apart (by decide)),
    getU32_confined (stamps_putU32 _ _).confined (clear_of_apart (by decide)), getU32_putU32]
  rw [length_overwrite, length_replicate]
  decide

theorem blank_recordSize : getU32 (blank processId) offRecordSize = UInt32.ofNat recordSize := by
  unfold blank
  rw [getU32_confined (stamps_putU32 _ _).confined (clear_of_apart (by decide)), getU32_putU32]
  rw [length_putU32, length_overwrite, length_replicate]
  decide

/-- What the encoder writes last. -/
theorem confined_seal (report : RawCrashReport) :
    Confined (fun bytes => putU64 (putU32 bytes offPid report.pid) offUnixMs report.crashUnixMs)
      (range offPid 4 ∪ range offUnixMs 8) :=
  ((stamps_putU32 _ _).confined.mono Set.subset_union_left).comp
    ((stamps_putU64 _ _).confined.mono Set.subset_union_right)

/-- What the encoder writes into a sampled record. -/
theorem confined_afterSample (unixMs : UInt64) (report : RawCrashReport) :
    Confined (fun bytes => putU64 (putU32 (putCrash bytes unixMs report.fields) offPid report.pid)
      offUnixMs report.crashUnixMs) (range offPid 4 ∪ range offUnixMs 8 ∪ crashRegion) :=
  ((confined_putCrash unixMs report.fields).mono Set.subset_union_right).comp
    ((confined_seal report).mono Set.subset_union_left)

/-- What the encoder writes into a record with metadata. -/
theorem confined_afterMetadata (unixMs : UInt64) (report : RawCrashReport) :
    Confined (fun bytes => putU64 (putU32 (putCrash (putSample bytes report.modules report.threads)
      unixMs report.fields) offPid report.pid) offUnixMs report.crashUnixMs)
      (range offPid 4 ∪ range offUnixMs 8 ∪ crashRegion ∪ sampleRegion) :=
  ((stamps_putSample _ _).confined.mono Set.subset_union_right).comp
    ((confined_afterSample unixMs report).mono Set.subset_union_left)

/-- The record when the sample of a report is written. -/
def sampled (processId : UInt32) (report : RawCrashReport) : List UInt8 :=
  putSample (initializeRecord processId report.metadata) report.modules report.threads

/-- The record when the crash of a report is written. -/
def crashed (processId : UInt32) (unixMs : UInt64) (report : RawCrashReport) : List UInt8 :=
  putCrash (sampled processId report) unixMs report.fields

theorem length_sampled : (sampled processId report).length = recordSize :=
  ((stamps_putSample _ _).length _).trans length_initializeRecord

theorem length_crashed : (crashed processId unixMs report).length = recordSize :=
  ((confined_putCrash _ _).length _).trans length_sampled

theorem clear_afterSample (place : offset + length ≤ 16 ∨ 56 ≤ offset ∧ offset + length ≤ 60 ∨
      68 ≤ offset ∧ offset + length ≤ rawOffset ∨ cwdOffset ≤ offset) :
    Clear (range offPid 4 ∪ range offUnixMs 8 ∪ crashRegion) offset length := by
  intro position above below member
  simp only [crashRegion, layout, Set.mem_union, mem_range] at place member
  omega

theorem clear_afterMetadata
    (place : offset + length ≤ 16 ∨ 72 ≤ offset ∧ offset + length ≤ moduleOffset ∨
      cwdOffset ≤ offset) :
    Clear (range offPid 4 ∪ range offUnixMs 8 ∪ crashRegion ∪ sampleRegion) offset length := by
  apply clear_union
  · apply clear_afterSample
    simp only [layout] at place ⊢
    omega
  intro position above below member
  simp only [sampleRegion, layout, Set.mem_union, mem_range] at place member
  omega

theorem clear_metadata (place : offset + length ≤ 72) : Clear metadataRegion offset length := by
  intro position above below member
  simp only [metadataRegion, layout, Set.mem_union, mem_range] at member
  omega

theorem encode_length : (encode processId unixMs report).length = recordSize :=
  ((confined_afterMetadata unixMs report).length _).trans length_initializeRecord

theorem encode_magic : slice (encode processId unixMs report) 0 8 = magic := by
  have sealed := (confined_afterMetadata unixMs report).slice_eq
    (initializeRecord processId report.metadata)
    (clear_afterMetadata (show 0 + 8 ≤ 16 ∨ _ by omega))
  have plain := (stamps_putMetadata report.metadata).confined.slice_eq (blank processId)
    (clear_metadata (show 0 + 8 ≤ 72 by omega))
  exact sealed.trans (plain.trans blank_magic)

/-- A header number before the process id is the blank record's. -/
theorem encode_header (early : offset + 4 ≤ 16) :
    getU32 (encode processId unixMs report) offset = getU32 (blank processId) offset := by
  have sealed : getU32 (encode processId unixMs report) offset
      = getU32 (initializeRecord processId report.metadata) offset :=
    getU32_confined (confined_afterMetadata unixMs report) (clear_afterMetadata (.inl early))
  rw [sealed]
  exact getU32_confined (stamps_putMetadata report.metadata).confined (clear_metadata (by omega))

theorem encode_metadata : parseMetadata (encode processId unixMs report) =
    storedMetadata report.metadata := by
  have after := confined_afterMetadata unixMs report
  have text {index : Nat} {value : String} (found : report.metadata.texts[index]? = some value)
      (few : index < 4) :
      getText (encode processId unixMs report) (headerSize + textSize * index) =
        readBack textSize value := by
    have kept : getText (encode processId unixMs report) (headerSize + textSize * index)
        = getText (initializeRecord processId report.metadata) (headerSize + textSize * index) := by
      apply getTextSized_confined after
      apply clear_afterMetadata
      simp only [layout]
      omega
    rw [kept]
    exact getText_putMetadata report.metadata length_blank found
  have recorded : getU32 (encode processId unixMs report) offVersion = version :=
    (encode_header (by decide)).trans blank_version
  have time : getU64 (encode processId unixMs report) offCreationTimeMs
      = report.metadata.creationTimeMs :=
    (getU64_confined after (clear_afterMetadata (by decide))).trans
      (getTime_putMetadata report.metadata length_blank)
  have cwd : getTextSized (encode processId unixMs report) cwdOffset cwdSize
      = readBack cwdSize report.metadata.cwd :=
    (getTextSized_confined after (clear_afterMetadata (by decide))).trans
      (getCwd_putMetadata report.metadata length_blank)
  have first := @text 0 report.metadata.appClass rfl (by decide)
  have second := @text 1 report.metadata.appName rfl (by decide)
  have third := @text 2 report.metadata.appVersion rfl (by decide)
  have fourth := @text 3 report.metadata.instanceName rfl (by decide)
  rw [Nat.mul_zero, Nat.add_zero] at first
  rw [Nat.mul_one] at second
  unfold parseMetadata storedMetadata
  simp only [recorded, time, cwd, first, second, third, fourth]
  rfl

/-- The flags of a record, one bit for each kind of loss. -/
theorem encode_flags : getU32 (encode processId unixMs report) offFlags =
    ((((if maxModules < report.modules.length then flagTruncatedModules else 0) |||
      (if (report.modules.take maxModules).any longModule then flagTruncatedModules else 0)) |||
      (if maxThreads < report.threads.length then flagTruncatedThreads else 0)) |||
      (if (report.threads.take maxThreads).any (dropsFrames (min report.modules.length maxModules))
        then
        flagTruncatedThreads else 0)) |||
      (if maxRawContext < report.rawContext.length then flagTruncatedContext else 0) := by
  have sealed : getU32 (encode processId unixMs report) offFlags
      = getU32 (crashed processId unixMs report) offFlags :=
    getU32_confined (confined_seal report) (clear_of_both (by decide))
  rw [sealed, crashed, getFlags_putCrash length_sampled, sampled,
    getFlags_putSample length_initializeRecord]
  rfl

theorem encode_flags_known : getU32 (encode processId unixMs report) offFlags &&& ~~~knownFlags =
    0 := by
  rw [encode_flags]
  repeat' split
  all_goals decide

theorem encode_flags_ne_zero :
    (getU32 (encode processId unixMs report) offFlags != 0) = overflows report := by
  rw [encode_flags, overflows]
  by_cases modules : maxModules < report.modules.length <;>
  by_cases identities : (report.modules.take maxModules).any longModule <;>
  by_cases threads : maxThreads < report.threads.length <;>
  by_cases frames :
    (report.threads.take maxThreads).any (dropsFrames (min report.modules.length maxModules)) <;>
  by_cases context : maxRawContext < report.rawContext.length <;>
  simp only [modules, identities, threads, frames, context] <;>
  decide

theorem encode_counts :
    (getU32 (encode processId unixMs report) offModuleCount).toNat
      = (report.modules.take maxModules).length ∧
    (getU32 (encode processId unixMs report) offThreadCount).toNat
      = (report.threads.take maxThreads).length ∧
    (getU32 (encode processId unixMs report) offRawLen).toNat
      = (report.rawContext.take maxRawContext).length := by
  have after := confined_afterSample unixMs report
  refine ⟨?_, ?_, ?_⟩
  · rw [← @getModuleCount_putSample (initializeRecord processId report.metadata) report.modules
      report.threads length_initializeRecord]
    exact congrArg UInt32.toNat (getU32_confined after (clear_afterSample (by decide)))
  · rw [← @getThreadCount_putSample (initializeRecord processId report.metadata) report.modules
      report.threads length_initializeRecord]
    exact congrArg UInt32.toNat (getU32_confined after (clear_afterSample (by decide)))
  have raw := @getRawLen_putCrash _ (@length_sampled processId report) unixMs report.fields
  rw [show report.rawContext = report.fields.rawContext from rfl, ← raw]
  exact congrArg UInt32.toNat (getU32_confined (confined_seal report) (clear_of_both (by decide)))

theorem encode_numbers :
    getU32 (encode processId unixMs report) offPid = report.pid ∧
    getU64 (encode processId unixMs report) offTid = report.tid ∧
    getI64 (encode processId unixMs report) offFaultCode = report.faultCode ∧
    getU64 (encode processId unixMs report) offFaultAddress = report.faultAddress ∧
    getU64 (encode processId unixMs report) offUnixMs = report.crashUnixMs := by
  obtain ⟨tid, code, address⟩ :=
    @getNumbers_putCrash _ (@length_sampled processId report) unixMs report.fields
  have sealed {offset : Nat} (low : offPid + 4 ≤ offset) (high : offset + 8 ≤ offUnixMs) :
      getU64 (encode processId unixMs report) offset
        = getU64 (crashed processId unixMs report) offset :=
    getU64_confined (confined_seal report) (clear_of_both ⟨.inr low, .inl high⟩)
  refine ⟨?_, ?_, ?_, ?_, ?_⟩
  · unfold encode
    rw [getU32_confined (stamps_putU64 _ _).confined (clear_of_apart (by decide)), getU32_putU32]
    exact Nat.le_trans (by decide) length_crashed.ge
  · rw [sealed (by decide) (by decide)]
    exact tid
  · unfold getI64 at code ⊢
    rw [sealed (by decide) (by decide)]
    exact code
  · rw [sealed (by decide) (by decide)]
    exact address
  · unfold encode
    rw [getU64_putU64]
    rw [length_putU32]
    exact Nat.le_trans (by decide) length_crashed.ge

theorem encode_modules :
    (List.range (report.modules.take maxModules).length).map (fun index =>
      { identity := getTextSized (encode processId unixMs report)
          (moduleOffset + index * moduleSize) moduleSize : CrashModule })
      = (report.modules.take maxModules).map fun entry =>
        { identity := readBack moduleSize entry.identity } := by
  refine map_range_eq (length_map _) fun {index entry} found => ?_
  rw [getElem?_map, Option.map_eq_some_iff] at found
  obtain ⟨written, found, rfl⟩ := found
  have few := lt_of_getElem?_take found
  have kept := @getModule_putSample index _ (@length_initializeRecord processId report.metadata)
    report.modules report.threads written found
  rw [← kept]
  congr 1
  apply getTextSized_confined (confined_afterSample unixMs report)
  apply clear_afterSample
  simp only [layout] at few ⊢
  omega

theorem encode_threads :
    (List.range (report.threads.take maxThreads).length).mapM
      (parseThread (encode processId unixMs report) (report.modules.take maxModules).length)
      = .ok ((report.threads.take maxThreads).map
        (keptThread (min report.modules.length maxModules))) := by
  have count : (report.modules.take maxModules).length = min report.modules.length maxModules := by
    rw [length_take, Nat.min_comm]
  rw [count]
  refine mapM_range_ok (length_map _) fun {index thread} found => ?_
  rw [getElem?_map, Option.map_eq_some_iff] at found
  obtain ⟨written, found, rfl⟩ := found
  have few := lt_of_getElem?_take found
  have kept := @parseThread_putSample index written _
    (@length_initializeRecord processId report.metadata) report.modules report.threads found
  rw [← kept]
  apply parseThread_confined (confined_afterSample unixMs report)
  apply clear_afterSample
  simp only [layout] at few ⊢
  omega

/-- What an encoded report parses to. -/
theorem parse_encode : parse (encode processId unixMs report) = .ok (stored report) := by
  obtain ⟨moduleCount, threadCount, rawLen⟩ := @encode_counts processId unixMs report
  obtain ⟨pid, tid, code, address, time⟩ := @encode_numbers processId unixMs report
  have recorded : getU32 (encode processId unixMs report) offVersion = version :=
    (encode_header (by decide)).trans blank_version
  have size : (getU32 (encode processId unixMs report) offRecordSize).toNat = recordSize := by
    rw [encode_header (by decide), blank_recordSize]
    decide
  have raw : slice (encode processId unixMs report) rawOffset
      (report.rawContext.take maxRawContext).length = report.rawContext.take maxRawContext := by
    have written := @getRaw_putCrash _ (@length_sampled processId report) unixMs report.fields
    refine Eq.trans ?_ written
    apply (confined_seal report).slice_eq
    apply clear_of_both
    simp only [layout]
    omega
  have inBounds : ¬ (maxModules < (report.modules.take maxModules).length ∨
      maxThreads < (report.threads.take maxThreads).length ∨
      maxRawContext < (report.rawContext.take maxRawContext).length) := by
    rw [length_take, length_take, length_take]
    omega
  have version2 : version ≠ 1 := by decide
  unfold parse
  simp only [encode_length, encode_magic, recorded, size, encode_flags_known, moduleCount,
    threadCount, rawLen, if_false, version2, inBounds, encode_modules, encode_threads,
    encode_metadata, pid, tid, code, address, time, raw, encode_flags_ne_zero]
  rfl

end Whole

/-! ## Texts that fit their slots -/

/-- A text cut to the longest prefix of whole characters that fits a slot; the
last byte of a slot is never written. -/
def FitsSlot (size : Nat) (text cut : String) : Prop :=
  Utf8.LongestFitting (size - 1) text.toList cut.toList

/-- A slot's bytes end between two characters and hold no NUL. -/
def CleanSlot (size : Nat) (text : String) : Prop :=
  Utf8.nul ∉ Utf8.wholePrefix (size - 1) text.toList ∧ Utf8.Whole (size - 1) text.toList

instance (size : Nat) (text : String) : Decidable (CleanSlot size text) :=
  inferInstanceAs (Decidable (_ ∧ _))

theorem fitsSlot_readBack : FitsSlot size text (readBack size text) ↔ CleanSlot size text := by
  unfold FitsSlot readBack
  rw [Utf8.longestFitting_iff, String.toList_ofList]
  exact Utf8.lossy_cut_iff (size - 1) text.toList []

theorem CleanSlot.readBack_eq (clean : CleanSlot size text) :
    readBack size text = String.ofList (Utf8.wholePrefix (size - 1) text.toList) := by
  apply String.toList_inj.mp
  rw [String.toList_ofList]
  exact Utf8.longestFitting_iff.mp (fitsSlot_readBack.mpr clean)

/-- A clean slot gives its text back exactly when the text fits. -/
theorem CleanSlot.readBack_same (clean : CleanSlot size text)
    (positive : 0 < size) : readBack size text = text ↔ (asBytes text).length < size := by
  rw [clean.readBack_eq, ← String.toList_inj, String.toList_ofList, Utf8.wholePrefix_eq_self]
  unfold asBytes
  omega

theorem cleanSlot_of_fits (fits : (asBytes text).length < size)
    (plain : Utf8.nul ∉ text.toList) : CleanSlot size text := by
  unfold asBytes at fits
  refine ⟨?_, Utf8.Whole.of_fits (by omega)⟩
  rwa [Utf8.wholePrefix_of_fits (by omega)]

/-! ## Reports cut to their bounds -/

/-- A parsed report holds the numbers of the encoded one and its other fields
cut to their bounds, and `truncated` tells whether a field differs. -/
structure Restores (report parsed : RawCrashReport) : Prop where
  pid : parsed.pid = report.pid
  tid : parsed.tid = report.tid
  faultCode : parsed.faultCode = report.faultCode
  faultAddress : parsed.faultAddress = report.faultAddress
  crashUnixMs : parsed.crashUnixMs = report.crashUnixMs
  creationTimeMs : parsed.metadata.creationTimeMs = report.metadata.creationTimeMs
  texts : List.Forall₂ (FitsSlot textSize) report.metadata.texts parsed.metadata.texts
  cwd : FitsSlot cwdSize report.metadata.cwd parsed.metadata.cwd
  modules : List.Forall₂ (fun entry kept => FitsSlot moduleSize entry.identity kept.identity)
    (report.modules.take maxModules) parsed.modules
  threads : parsed.threads
    = (report.threads.take maxThreads).map (keptThread (min report.modules.length maxModules))
  rawContext : parsed.rawContext = report.rawContext.take maxRawContext
  truncated : parsed.truncated = true ↔ { parsed with truncated := report.truncated } ≠ report

/-- A text of the metadata that does not fit its slot. -/
def longMetadata (metadata : CrashMetadata) : Bool :=
  metadata.texts.any (fun text => textSize ≤ (asBytes text).length) ||
    cwdSize ≤ (asBytes metadata.cwd).length

/-- The reports that are restored: every slot is clean, and where a text of the
metadata is cut, which no flag tells, a flag is set for another loss. -/
structure Restorable (report : RawCrashReport) : Prop where
  texts : ∀ text ∈ report.metadata.texts, CleanSlot textSize text
  cwd : CleanSlot cwdSize report.metadata.cwd
  modules : ∀ entry ∈ report.modules.take maxModules, CleanSlot moduleSize entry.identity
  told : longMetadata report.metadata → overflows report

/-- Changing the entries of a list gives the list back when none changes. -/
theorem map_eq_self {items : List α} {change : α → α} :
    items.map change = items ↔ ∀ item ∈ items, change item = item := by
  have entries : items.map change = items.map id ↔ ∀ item ∈ items, change item = id item :=
    map_inj_left
  rwa [map_id] at entries

/-- Cutting a list and changing its entries gives the list back when neither
does anything. -/
theorem take_map_eq_self {items : List α} {change : α → α} :
    (items.take bound).map change = items ↔
      items.length ≤ bound ∧ ∀ item ∈ items.take bound, change item = item := by
  constructor
  · intro same
    have length := congrArg length same
    rw [length_map, length_take] at length
    have short : items.length ≤ bound := by omega
    rw [take_of_length_le short] at same ⊢
    exact ⟨short, map_eq_self.mp same⟩
  · rintro ⟨short, fixed⟩
    rw [take_of_length_le short] at fixed ⊢
    exact map_eq_self.mpr fixed

/-- A thread is kept whole when no frame is dropped. -/
theorem keptThread_eq_self {moduleCount : Nat} {thread : CrashThread} :
    keptThread moduleCount thread = thread ↔ dropsFrames moduleCount thread = false := by
  obtain ⟨osTid, frames⟩ := thread
  simp only [keptThread, dropsFrames, CrashThread.mk.injEq, true_and, decide_eq_false_iff_not]
  constructor
  · intro same
    have length := congrArg length same
    rw [length_take] at length
    omega
  · intro enough
    have sublist := ((frames.filter (keepsFrame moduleCount)).take_sublist maxFrames).trans
      filter_sublist
    apply sublist.eq_of_length_le
    rw [length_take]
    omega

section Restored

variable {report : RawCrashReport}

/-- The metadata is given back exactly when every text of it fits. -/
theorem storedMetadata_eq_self {metadata : CrashMetadata}
    (texts : ∀ text ∈ metadata.texts, CleanSlot textSize text)
    (cwd : CleanSlot cwdSize metadata.cwd) :
    storedMetadata metadata = metadata ↔ longMetadata metadata = false := by
  obtain ⟨appClass, appName, appVersion, instanceName, creationTimeMs, directory⟩ := metadata
  simp only [CrashMetadata.texts, mem_cons, not_mem_nil, or_false, forall_eq_or_imp,
    forall_eq] at texts
  obtain ⟨first, second, third, fourth⟩ := texts
  simp only [storedMetadata, CrashMetadata.mk.injEq, first.readBack_same (by decide),
    second.readBack_same (by decide), third.readBack_same (by decide),
    fourth.readBack_same (by decide), cwd.readBack_same (by decide), longMetadata,
    CrashMetadata.texts, any_cons, any_nil, Bool.or_eq_false_iff,
    decide_eq_false_iff_not, not_le, and_assoc]

theorem storedModules_eq_self
    (clean : ∀ entry ∈ report.modules.take maxModules, CleanSlot moduleSize entry.identity) :
    (stored report).modules = report.modules ↔
      report.modules.length ≤ maxModules ∧ (report.modules.take maxModules).any longModule =
        false := by
  have entry : ∀ entry ∈ report.modules.take maxModules,
      ({ identity := readBack moduleSize entry.identity } : CrashModule) = entry ↔
        longModule entry = false := by
    intro entry member
    rw [CrashModule.mk.injEq, (clean _ member).readBack_same (by decide)]
    simp [longModule]
  unfold stored
  rw [take_map_eq_self, any_eq_false]
  refine and_congr_right fun _ => forall₂_congr fun item member => ?_
  rw [entry item member, Bool.not_eq_true]

theorem storedThreads_eq_self :
    (stored report).threads = report.threads ↔ report.threads.length ≤ maxThreads ∧
      (report.threads.take maxThreads).any (dropsFrames (min report.modules.length maxModules)) =
      false := by
  unfold stored
  rw [take_map_eq_self, any_eq_false]
  refine and_congr_right fun _ => forall₂_congr fun item _ => ?_
  rw [keptThread_eq_self, Bool.not_eq_true]

/-- With clean slots a report is given back whole exactly when no bound cuts it. -/
theorem stored_same_iff (texts : ∀ text ∈ report.metadata.texts, CleanSlot textSize text)
    (cwd : CleanSlot cwdSize report.metadata.cwd)
    (modules : ∀ entry ∈ report.modules.take maxModules, CleanSlot moduleSize entry.identity) :
    { stored report with truncated := report.truncated } = report ↔
      overflows report = false ∧ longMetadata report.metadata = false := by
  have fields : { stored report with truncated := report.truncated } = report ↔
      storedMetadata report.metadata = report.metadata ∧ (stored report).modules = report.modules ∧
        (stored report).threads = report.threads ∧
        report.rawContext.take maxRawContext = report.rawContext := by
    obtain ⟨pid, tid, code, address, time, metadata, modules, threads, raw, truncated⟩ := report
    simp [stored]
  rw [fields, storedMetadata_eq_self texts cwd, storedModules_eq_self modules,
    storedThreads_eq_self, take_eq_self_iff]
  unfold overflows
  simp only [Bool.or_eq_false_iff, decide_eq_false_iff_not, not_lt]
  tauto

/-- What is given back is the report cut to its bounds exactly for the
restorable reports. -/
theorem restores_stored : Restores report (stored report) ↔ Restorable report := by
  have texts : List.Forall₂ (FitsSlot textSize) report.metadata.texts
      (stored report).metadata.texts ↔ ∀ text ∈ report.metadata.texts, CleanSlot textSize text := by
    have slots : (stored report).metadata.texts = report.metadata.texts.map (readBack textSize) :=
      rfl
    rw [slots, forall₂_map_right_iff, forall₂_same]
    exact forall₂_congr fun _ _ => fitsSlot_readBack
  have modules : List.Forall₂ (fun entry kept => FitsSlot moduleSize entry.identity kept.identity)
      (report.modules.take maxModules) (stored report).modules ↔
        ∀ entry ∈ report.modules.take maxModules, CleanSlot moduleSize entry.identity := by
    rw [stored, forall₂_map_right_iff, forall₂_same]
    exact forall₂_congr fun _ _ => fitsSlot_readBack
  constructor
  · intro restores
    have cleanTexts := texts.mp restores.texts
    have cleanCwd := fitsSlot_readBack.mp restores.cwd
    have cleanModules := modules.mp restores.modules
    refine ⟨cleanTexts, cleanCwd, cleanModules, fun long => ?_⟩
    apply restores.truncated.mpr
    intro same
    rw [((stored_same_iff cleanTexts cleanCwd cleanModules).mp same).2] at long
    cases long
  · intro restorable
    refine ⟨rfl, rfl, rfl, rfl, rfl, rfl, texts.mpr restorable.texts,
      fitsSlot_readBack.mpr restorable.cwd, modules.mpr restorable.modules, rfl, rfl, ?_⟩
    have told := restorable.told
    rw [ne_eq, stored_same_iff restorable.texts restorable.cwd restorable.modules,
      show (stored report).truncated = overflows report from rfl]
    cases overflow : overflows report with
    | true => simp
    | false =>
      cases long : longMetadata report.metadata with
      | true =>
        rw [overflow] at told
        exact absurd (told long) Bool.false_ne_true
      | false => simp

end Restored

/-! ## The round trip -/

/-- A report no bound cuts, without NUL in its texts. -/
structure WithinBounds (report : RawCrashReport) : Prop where
  texts : ∀ text ∈ report.metadata.texts, (asBytes text).length < textSize ∧ Utf8.nul ∉ text.toList
  cwd : (asBytes report.metadata.cwd).length < cwdSize ∧ Utf8.nul ∉ report.metadata.cwd.toList
  moduleCount : report.modules.length ≤ maxModules
  identities : ∀ entry ∈ report.modules,
    (asBytes entry.identity).length < moduleSize ∧ Utf8.nul ∉ entry.identity.toList
  threadCount : report.threads.length ≤ maxThreads
  frames : ∀ thread ∈ report.threads, thread.frames.length ≤ maxFrames ∧
    ∀ frame ∈ thread.frames, keepsFrame report.modules.length frame
  rawContext : report.rawContext.length ≤ maxRawContext

theorem WithinBounds.overflows_eq {report : RawCrashReport} (within : WithinBounds report) :
    overflows report = false := by
  have moduleCount := within.moduleCount
  have threadCount := within.threadCount
  have identities : (report.modules.take maxModules).any longModule = false := by
    rw [any_eq_false]
    intro entry member
    have short := (within.identities entry (mem_of_mem_take member)).1
    simp only [longModule, decide_eq_true_eq]
    omega
  have frames : (report.threads.take maxThreads).any
      (dropsFrames (min report.modules.length maxModules)) = false := by
    rw [any_eq_false]
    intro thread member
    obtain ⟨few, kept⟩ := within.frames thread (mem_of_mem_take member)
    rw [Nat.min_eq_left moduleCount]
    unfold dropsFrames
    rw [filter_eq_self.mpr kept, decide_eq_true_eq]
    omega
  unfold overflows
  simp only [identities, frames, Bool.or_false, Bool.or_eq_false_iff, decide_eq_false_iff_not,
    not_lt]
  exact ⟨⟨moduleCount, threadCount⟩, within.rawContext⟩

/-- A report within its bounds comes back as it is, and not truncated. -/
theorem WithinBounds.stored_eq {report : RawCrashReport} (within : WithinBounds report) :
    stored report = { report with truncated := false } := by
  have texts : ∀ text ∈ report.metadata.texts, CleanSlot textSize text :=
    fun text member => cleanSlot_of_fits (within.texts text member).1 (within.texts text member).2
  have modules : ∀ entry ∈ report.modules.take maxModules, CleanSlot moduleSize entry.identity := by
    intro entry member
    have bounds := within.identities entry (mem_of_mem_take member)
    exact cleanSlot_of_fits bounds.1 bounds.2
  have short : longMetadata report.metadata = false := by
    unfold longMetadata
    rw [Bool.or_eq_false_iff, any_eq_false, decide_eq_false_iff_not, not_le]
    refine ⟨fun text member => ?_, within.cwd.1⟩
    rw [decide_eq_true_eq, not_le]
    exact (within.texts text member).1
  have same := (stored_same_iff texts (cleanSlot_of_fits within.cwd.1 within.cwd.2) modules).mpr
    ⟨within.overflows_eq, short⟩
  calc stored report
      = { { stored report with truncated := report.truncated }
        with truncated := overflows report } := rfl
    _ = { report with truncated := false } := by rw [same, within.overflows_eq]

/-- An encoded report is restored exactly when its slots are clean and a cut of
its metadata is told by the flag of another loss; a report within its bounds and
without NUL comes back as it is. -/
theorem encode_restores (processId : UInt32) (unixMs : UInt64) (report : RawCrashReport) :
    ((∃ parsed, parse (encode processId unixMs report) = .ok parsed ∧ Restores report parsed) ↔
      Restorable report) ∧
    (WithinBounds report →
      parse (encode processId unixMs report) = .ok { report with truncated := false }) := by
  have parses := @parse_encode processId unixMs report
  refine ⟨?_, fun within => parses.trans (congrArg Except.ok within.stored_eq)⟩
  rw [← restores_stored]
  constructor
  · rintro ⟨parsed, result, restores⟩
    rw [parses] at result
    cases result
    exact restores
  · intro restores
    exact ⟨stored report, parses, restores⟩

/-- A report whose application name has one character more than its slot holds. -/
def longNameReport : RawCrashReport :=
  { pid := 7, tid := 8, faultCode := 11, faultAddress := 0, crashUnixMs := 1
    metadata :=
      { appClass := "", appName := String.ofList (List.replicate 64 'a'), appVersion := ""
        instanceName := "", creationTimeMs := 1, cwd := "" }
    modules := [], threads := [], rawContext := [], truncated := false }

/-- The name is cut to 63 characters, and the report still says that nothing was
truncated. -/
theorem longNameReport_cut :
    parse (encode 7 1 longNameReport) = .ok { longNameReport with
      metadata := { longNameReport.metadata with appName := String.ofList (List.replicate 63 'a') }
        } ∧
    longNameReport.truncated = false ∧
    ¬ ∃ parsed, parse (encode 7 1 longNameReport) = .ok parsed ∧
      Restores longNameReport parsed := by
  have parses := @parse_encode 7 1 longNameReport
  have empty (size : Nat) (positive : 0 < size) : readBack size "" = "" := by
    have fits : (asBytes "").length < size := positive
    exact ((cleanSlot_of_fits fits (by decide)).readBack_same positive).mpr fits
  have clean : CleanSlot textSize (String.ofList (replicate 64 'a')) := by
    unfold CleanSlot
    rw [String.toList_ofList]
    decide
  have cut : readBack textSize (String.ofList (replicate 64 'a'))
      = String.ofList (replicate 63 'a') := by
    rw [clean.readBack_eq, String.toList_ofList]
    congr 1
  have long : longMetadata longNameReport.metadata = true := by
    unfold longMetadata longNameReport CrashMetadata.texts asBytes
    simp only [any_cons, String.toList_ofList]
    decide +kernel
  have kept : stored longNameReport = { longNameReport with
      metadata := { longNameReport.metadata with appName := String.ofList (replicate 63 'a') }
        } := by
    unfold stored storedMetadata longNameReport
    simp only [empty textSize (by decide), empty cwdSize (by decide), cut]
    rfl
  refine ⟨parses.trans (congrArg Except.ok kept), rfl, ?_⟩
  rintro ⟨parsed, result, restores⟩
  rw [parses] at result
  cases result
  have told := (restores_stored.mp restores).told long
  exact absurd told (by decide)

/-- A report of one thread with one frame, within its bounds. -/
def plainReport : RawCrashReport :=
  { longNameReport with
    metadata := { longNameReport.metadata with appName := String.ofList ['a'] }
    modules := [{ identity := String.ofList ['m'] }]
    threads := [{ osTid := 8, frames := [{ moduleIndex := some 0, relativeAddress := 4660 }] }] }

theorem encode_restores_plainReport :
    WithinBounds plainReport ∧ parse (encode 7 1 plainReport) = .ok plainReport := by
  have slot {size : Nat} {text : String} {characters : List Char}
    (spelled : text = String.ofList characters)
      (fits : (Utf8.encode characters).length < size) (plain : Utf8.nul ∉ characters) :
      (asBytes text).length < size ∧ Utf8.nul ∉ text.toList := by
    unfold asBytes
    rw [spelled, String.toList_ofList]
    exact ⟨fits, plain⟩
  have within : WithinBounds plainReport := by
    refine ⟨?_, @slot _ _ [] rfl (by decide) (by decide), by decide, ?_, by decide, by decide,
      by decide⟩
    · intro text member
      simp only [CrashMetadata.texts, mem_cons, not_mem_nil, or_false] at member
      rcases member with rfl | rfl | rfl | rfl
      · exact @slot _ _ [] rfl (by decide) (by decide)
      · exact slot rfl (by decide) (by decide)
      all_goals exact @slot _ _ [] rfl (by decide) (by decide)
    · intro entry member
      rw [mem_singleton.mp member]
      exact slot rfl (by decide) (by decide)
  exact ⟨within, (encode_restores 7 1 plainReport).2 within⟩

end KernalApi.Crash
