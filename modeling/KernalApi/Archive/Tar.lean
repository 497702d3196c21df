import KernalApi.Archive.Extract
import KernalApi.Std.Fallible

/-!
# Extraction of tar archives

The guard stands between the decoder and the backend. It counts headers, metadata and
stream bytes before the backend sees them. The backend frames the records and finds
their sizes for itself: a record has its answers beside what the guard reads.
-/

namespace KernalApi.Archive

open KernalApi.Std

variable {guard after : Guard} {count size maxEntryBytes : Nat} {record : TarRecord}

inductive TarKind
  | regular
  | directory
  | symlink
  | hardLink
  | gnuLongName
  | gnuLongLink
  | paxLocal
  | paxGlobal
  | gnuSparse
  | special
deriving DecidableEq

def TarKind.isExtension : TarKind → Bool
  | .gnuLongName | .gnuLongLink | .paxLocal | .paxGlobal => true
  | _ => false

/-- A key of a PAX record, as far as the guard tells keys apart. -/
inductive PaxItem
  | size (value : Except Failure Nat)
  | refused (failure : Failure)
  | other

/-- A physical record: what its header says, what the backend makes of it, and the data of a
member. -/
structure TarRecord where
  kind : TarKind
  entrySize : Except Failure Nat
  pax : List PaxItem
  /-- The error of the backend at the record. -/
  backend : Option Failure
  /-- The size the backend gives a member. -/
  size : Nat
  path : Except Failure Text
  linkName : Except Failure (Option Text)
  payload : Payload

structure Guard where
  /-- The data and the padding of the last member, which are read before the next header. -/
  unread : Nat
  paxSize : Option Nat
  metadata : Nat
  stream : Nat
  entries : Nat

namespace Guard

def new (limits : ExtractionLimits) : Guard where
  unread := 0
  paxSize := none
  metadata := limits.maxMetadataBytes
  stream := min (limits.maxOutputBytes + limits.maxMetadataBytes) (2 ^ 64 - 1)
  entries := limits.maxEntries

/-- Reads exactly `count` bytes of the decoder. -/
def readExact (guard : Guard) (count : Nat) : Except Failure Guard :=
  if guard.stream < count then .error (.invalid "tar decompression byte limit exceeded")
  else .ok { guard with stream := guard.stream - count }

def spendMetadata (guard : Guard) (count : Nat) : Except Failure Guard :=
  if guard.metadata < count then .error (.invalid "tar metadata limit exceeded")
  else .ok { guard with metadata := guard.metadata - count }

def countEntry (guard : Guard) : Except Failure Guard :=
  if guard.entries = 0 then .error (.invalid "too many tar entries")
  else .ok { guard with entries := guard.entries - 1 }

/-- The first size of the PAX records before a member. -/
def scanPax (isLocal : Bool) : List PaxItem → Option Nat → Except Failure (Option Nat)
  | [], found => .ok found
  | .refused failure :: _, _ => .error failure
  | .other :: rest, found => scanPax isLocal rest found
  | .size value :: rest, found =>
    if isLocal && found.isNone then
      match value with
      | .error failure => .error failure
      | .ok size => scanPax isLocal rest (some size)
    else scanPax isLocal rest found

def padding (size : Nat) : Nat := (512 - size % 512) % 512

/-- The payload of an extension record. -/
def readExtension (guard : Guard) (record : TarRecord) (size : Nat) : Except Failure Guard := do
  if 64 * 1024 < size then
    .error (.invalid "tar extension record exceeds 64 KiB")
  else
    let guard ← guard.spendMetadata (size + padding size)
    let guard ← guard.readExact (size + padding size)
    if record.kind = .paxLocal ∨ record.kind = .paxGlobal then
      let paxSize ← scanPax (record.kind = .paxLocal) record.pax guard.paxSize
      .ok { guard with paxSize := paxSize, unread := 0 }
    else .ok { guard with unread := 0 }

/-- The data of a member, of a size from its header or from a PAX record before it. -/
def readMember (guard : Guard) (maxEntryBytes size : Nat) : Except Failure Guard :=
  if maxEntryBytes < size then .error (.invalid "tar entry exceeds byte limit")
  else if guard.stream < size then .error (.invalid "tar member exceeds decompression limit")
  else .ok { guard with unread := size + padding size, paxSize := none }

/-- The next header that is not all zeros. -/
def nextHeader (maxEntryBytes : Nat) (record : TarRecord) (guard : Guard) : Except Failure Guard :=
  do
  let guard ← guard.readExact guard.unread
  let guard ← guard.readExact 512
  let guard ← guard.countEntry
  let guard ← guard.spendMetadata 512
  let guard := if record.kind = .paxGlobal then { guard with paxSize := none } else guard
  if record.kind = .gnuSparse then
    .error (.invalid "GNU sparse tar needs a bounded sparse decoder")
  else
    let size ← record.entrySize
    if record.kind.isExtension then guard.readExtension record size
    else guard.readMember maxEntryBytes (guard.paxSize.getD size)

theorem readExact_entries (read : guard.readExact count = .ok after) :
    after.entries = guard.entries := by
  unfold readExact at read
  split_ifs at read
  cases read
  rfl

theorem spendMetadata_entries (spent : guard.spendMetadata count = .ok after) :
    after.entries = guard.entries := by
  unfold spendMetadata at spent
  split_ifs at spent
  cases spent
  rfl

theorem countEntry_entries (counted : guard.countEntry = .ok after) :
    after.entries + 1 = guard.entries := by
  unfold countEntry at counted
  split_ifs at counted
  cases counted
  exact Nat.succ_pred_eq_of_ne_zero ‹_›

theorem readExtension_entries
    (read : guard.readExtension record size = .ok after) : after.entries = guard.entries := by
  unfold readExtension at read
  split at read
  · cases read
  obtain ⟨first, spent, read⟩ := Fallible.bind_ok read
  obtain ⟨second, consumed, read⟩ := Fallible.bind_ok read
  rw [← spendMetadata_entries spent, ← readExact_entries consumed]
  split at read
  · obtain ⟨paxSize, _, read⟩ := Fallible.bind_ok read
    cases read
    rfl
  cases read
  rfl

theorem readMember_entries
    (read : guard.readMember maxEntryBytes size = .ok after) : after.entries = guard.entries := by
  unfold readMember at read
  split_ifs at read
  cases read
  rfl

/-- Every header costs one entry. -/
theorem nextHeader_entries
    (read : guard.nextHeader maxEntryBytes record = .ok after) :
    after.entries + 1 = guard.entries := by
  obtain ⟨skipped, rest, read⟩ := Fallible.bind_ok read
  obtain ⟨header, block, read⟩ := Fallible.bind_ok read
  obtain ⟨one, counted, read⟩ := Fallible.bind_ok read
  obtain ⟨paid, spent, read⟩ := Fallible.bind_ok read
  have entries : paid.entries + 1 = guard.entries := by
    rw [← readExact_entries rest, ← readExact_entries block, ← countEntry_entries counted,
      spendMetadata_entries spent]
  rw [← entries]
  simp only at read
  split at read
  · cases read
  obtain ⟨size, _, read⟩ := Fallible.bind_ok read
  split at read
  · rw [readExtension_entries read]
    split <;> rfl
  rw [readMember_entries read]
  split <;> rfl

end Guard

/-- A link of a tar archive: the target is in the header or an extension record. -/
def tarLink (limits : ExtractionLimits) (relative : Place) (hard : Bool)
    (linkName : Except Failure (Option Text)) (state : Extraction) : Outcome Extraction :=
  match linkName with
  | .error failure => (state, some failure)
  | .ok none => (state, some (.invalid "missing tar link target"))
  | .ok (some target) =>
    if unsafeTarget target || decide (limits.maxPathBytes < (Utf8.encode target).length) then
      (state, some (.invalid "unsafe tar link target"))
    else if state.linkBytes < (Utf8.encode target).length then
      (state, some (.invalid "tar link metadata limit exceeded"))
    else
      let state := { state with linkBytes := state.linkBytes - (Utf8.encode target).length }
      if hard then
        match relativePath target limits.maxPathBytes with
        | .error failure => (state, some failure)
        | .ok place => recordLink "duplicate tar link" relative ⟨Place.text place, true⟩ state
      else recordLink "duplicate tar link" relative ⟨target, false⟩ state

/-- The data of a selected or of every regular member. -/
def tarFile (limits : ExtractionLimits) (dest : Place) (member : Option Place) (relative : Place)
    (size : Nat) (payload : Payload) (state : Extraction) : Outcome Extraction :=
  extractFile limits "tar output exceeds byte limit"
    (if member.isSome then dest else dest ++ relative) size payload state

/-- One round of the loop over the backend's entries; the flag says whether a file was written. -/
def tarEntry (limits : ExtractionLimits) (dest : Place) (member : Option Place) (record : TarRecord)
    (state : Extraction) : Outcome Extraction × Bool :=
  if record.kind = .paxGlobal then ((state, none), false)
  else
    match record.path with
    | .error failure => ((state, some failure), false)
    | .ok name =>
      if record.kind = .directory ∧ (name = ['.'] ∨ name = ['.', '/']) then ((state, none), false)
      else
        match relativePath name limits.maxPathBytes with
        | .error failure => ((state, some failure), false)
        | .ok relative =>
          if record.kind ∉ [.regular, .directory, .symlink, .hardLink] then
            ((state, some (.invalid "special tar entry is unsupported")), false)
          else if member.any (· ≠ relative) then ((state, none), false)
          else if record.kind = .regular then
            (tarFile limits dest member relative record.size record.payload state, true)
          else if member.isSome then
            ((state, some (.invalid "selected tar member is not a regular file")), false)
          else if record.kind = .directory then (extractDirectory (dest ++ relative) state, false)
          else (tarLink limits relative (record.kind = .hardLink) record.linkName state, false)

/-- The variables of the loop. -/
structure TarRun where
  extraction : Extraction
  guard : Guard
  found : Bool

/-- What becomes of one record. The backend keeps the extension records before a member for
itself. -/
def tarRecord (limits : ExtractionLimits) (dest : Place) (member : Option Place)
    (record : TarRecord) (run : TarRun) : Outcome TarRun :=
  match run.guard.nextHeader limits.maxEntryBytes record with
  | .error failure => (run, some failure)
  | .ok guard =>
    match record.backend with
    | some failure => ({ run with guard := guard }, some failure)
    | none =>
      if record.kind.isExtension && decide (record.kind ≠ .paxGlobal)
        then ({ run with guard := guard }, none)
      else
        let outcome := tarEntry limits dest member record
          { run.extraction with processed := run.extraction.processed + 1 }
        ({ extraction := outcome.1.1, guard := guard, found := run.found || outcome.2 },
          outcome.1.2)

/-- The loop over the records. -/
def tarRecords (limits : ExtractionLimits) (dest : Place) (member : Option Place) :
    List TarRecord → TarRun → Outcome TarRun :=
  tryForEach (tarRecord limits dest member)

/-- How the stream of records ends: broken off, or with a header of zeros and what follows it. -/
inductive TarEnd
  | broken (failure : Failure)
  | zeros (trailing : Except Failure (List UInt8))

structure TarFile where
  inputBytes : Nat
  decoder : Option Failure
  records : List TarRecord
  ending : TarEnd

/-- Reads to the end of the stream. -/
def tarEnding (guard : Guard) : TarEnd → Option Failure
  | .broken failure => some failure
  | .zeros trailing =>
    match guard.readExact (guard.unread + 512) with
    | .error failure => some failure
    | .ok guard =>
      match trailing with
      | .error failure => some failure
      | .ok bytes =>
        if guard.stream < bytes.length then some (.invalid "tar decompression byte limit exceeded")
        else if bytes.any (· ≠ 0) then some (.invalid "nonzero trailing tar data")
        else none

/-- Extraction of a tar file into `dest`, or of one member to `dest`. -/
def extractTar (limits : ExtractionLimits) (dest : Place) (member : Option Place) (file : TarFile)
    (host : Host) : Outcome Extraction :=
  if limits.maxInputBytes < file.inputBytes then
    (.begin limits host, some (.invalid "archive input exceeds byte limit"))
  else
    match file.decoder with
    | some failure => (.begin limits host, some failure)
    | none =>
      match if member.isSome then (host, none) else host.prepareDestination dest with
      | (host, some failure) => (.begin limits host, some failure)
      | (host, none) =>
        match tarRecords limits dest member file.records
          ⟨.begin limits host, .new limits, false⟩ with
        | (run, some failure) => (run.extraction, some failure)
        | (run, none) =>
          match tarEnding run.guard file.ending with
          | some failure => (run.extraction, some failure)
          | none =>
            if member.isSome then
              (run.extraction, if run.found then none else some (.io .notFound))
            else finishLinks limits dest run.extraction

/-- An archive in either format. -/
inductive Source
  | zip (file : ZipFile)
  | tar (file : TarFile) (member : Option Place)

def extract (limits : ExtractionLimits) (dest : Place) (source : Source) (host : Host) :
    Outcome Extraction :=
  match source with
  | .zip file => extractZip limits dest file host
  | .tar file member => extractTar limits dest member file host

end KernalApi.Archive
