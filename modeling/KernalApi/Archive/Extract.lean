import KernalApi.Archive.Copy
import KernalApi.Archive.Links

/-!
# Extraction of ZIP and tar archives

The decoders are parameters: an archive is the sequence of what they report, with the
answers of their reads. Declared sizes are whatever the archive says. For tar the
guard's view of the physical records is modelled; the backend is taken to frame the
records as the guard does.
-/

namespace KernalApi.Archive

open KernalApi.Std

structure ExtractionLimits where
  maxInputBytes : Nat
  maxOutputBytes : Nat
  maxEntryBytes : Nat
  maxEntries : Nat
  maxMetadataBytes : Nat
  maxPathBytes : Nat
  maxLinkSteps : Nat
  danglingLinks : DanglingLinks

/-- The variables of an extraction. The source has no `processed` and no `targetBytes`: they record
how many entries the loop has taken up, and how many bytes were read as ZIP link targets. -/
structure Extraction where
  host : Host
  remaining : Nat
  linkBytes : Nat
  links : SortedMap Place ArchiveLink
  processed : Nat
  targetBytes : Nat

def Extraction.begin (limits : ExtractionLimits) (host : Host) : Extraction where
  host := host
  remaining := limits.maxOutputBytes
  linkBytes := limits.maxMetadataBytes
  links := .empty
  processed := 0
  targetBytes := 0

/-- The data of an entry: the decoder's reads, the new file's writes, and the outcome of flushing it
and of setting its permissions. -/
structure Payload where
  reads : List Reading
  writes : List Writing
  finish : Option Failure

/-- Writes a regular file at its place. The message is for a declared size over the budget. -/
def extractFile (limits : ExtractionLimits) (message : String) (output : Place) (size : Nat)
    (payload : Payload) (state : Extraction) : Outcome Extraction :=
  if state.remaining < size then (state, some (.invalid message))
  else
    match state.host.createDirAll [] output.dropLast with
    | (host, some failure) => ({ state with host := host }, some failure)
    | (host, none) =>
      match host.createFile output with
      | .error kind => ({ state with host := host }, some (.io kind))
      | .ok (inode, host) =>
        let copied := copyEntryBounded payload.reads payload.writes state.remaining
          limits.maxEntryBytes
        ({ state with host := host.append inode copied.output, remaining := copied.remaining },
          copied.failure.or payload.finish)

def extractDirectory (output : Place) (state : Extraction) : Outcome Extraction :=
  let made := state.host.createDirAll [] output
  ({ state with host := made.1 }, made.2)

/-- Keeps a link for the end. -/
def recordLink (message : String) (relative : Place) (link : ArchiveLink) (state : Extraction) :
    Outcome Extraction :=
  ({ state with links := state.links.insert relative link },
    if (state.links.get? relative).isSome then some (.invalid message) else none)

/-- Whether a link target has characters no target may have. -/
def unsafeTarget (target : Text) : Bool :=
  target.isEmpty || target.contains ':' || target.contains '\x00'

inductive ZipKind
  | file
  | directory
  | symlink

structure ZipEntry where
  size : Nat
  name : Except Failure Text
  kind : ZipKind
  payload : Payload

/-- A ZIP file: its length, what preflight and the parser of the directory say, and the entries. -/
structure ZipFile where
  inputBytes : Nat
  directory : Option Failure
  entries : List (Except Failure ZipEntry)

def openZip (limits : ExtractionLimits) (file : ZipFile) :
    Except Failure (List (Except Failure ZipEntry)) :=
  if limits.maxInputBytes < file.inputBytes then .error
    (.invalid "archive input exceeds byte limit")
  else
    match file.directory with
    | some failure => .error failure
    | none =>
      if limits.maxEntries < file.entries.length then .error (.invalid "too many archive entries")
      else .ok file.entries

/-- How long the target of a link may be. -/
def Extraction.targetAllowance (limits : ExtractionLimits) (state : Extraction) : Nat :=
  min (min (min limits.maxPathBytes state.linkBytes) state.remaining) limits.maxEntryBytes

/-- A symbolic link of a ZIP file: the target is the entry's data. -/
def zipLink (limits : ExtractionLimits) (relative : Place) (payload : Payload)
    (state : Extraction) : Outcome Extraction :=
  let allowed := state.targetAllowance limits
  let copied := copyBounded payload.reads [] allowed []
  let read := { state with targetBytes := state.targetBytes + copied.output.length }
  match copied.failure with
  | some failure => (read, some failure)
  | none =>
    let counted := { read with
      linkBytes := state.linkBytes - (allowed - copied.remaining)
      remaining := state.remaining - (allowed - copied.remaining) }
    match String.fromUTF8? copied.output.toByteArray with
    | none => (counted, some (.invalid "non-UTF-8 archive link target"))
    | some target =>
      if unsafeTarget target.toList then (counted, some (.invalid "unsafe archive link target"))
      else recordLink "duplicate archive link" relative ⟨target.toList, false⟩ counted

/-- One round of the loop over a ZIP file. -/
def zipEntry (limits : ExtractionLimits) (root : Place) (entry : ZipEntry) (state : Extraction) :
    Outcome Extraction :=
  if limits.maxEntryBytes < entry.size then (state, some (.invalid "ZIP entry exceeds byte limit"))
  else
    match entry.name with
    | .error failure => (state, some failure)
    | .ok name =>
      match relativePath name limits.maxPathBytes with
      | .error failure => (state, some failure)
      | .ok relative =>
        match entry.kind with
        | .symlink => zipLink limits relative entry.payload state
        | .directory => extractDirectory (root ++ relative) state
        | .file =>
          extractFile limits "archive output exceeds byte limit"
            (root ++ relative) entry.size entry.payload state

/-- One index of a ZIP file: its entry is opened first. -/
def zipIndex (limits : ExtractionLimits) (root : Place) (entry : Except Failure ZipEntry)
    (state : Extraction) : Outcome Extraction :=
  match entry with
  | .error failure => (state, some failure)
  | .ok entry => zipEntry limits root entry { state with processed := state.processed + 1 }

def zipEntries (limits : ExtractionLimits) (root : Place) :
    List (Except Failure ZipEntry) → Extraction → Outcome Extraction :=
  tryForEach (zipIndex limits root)

/-- Installs the links of an extraction. -/
def finishLinks (limits : ExtractionLimits) (root : Place) (state : Extraction) :
    Outcome Extraction :=
  let installed := installLinks root state.links limits.maxLinkSteps limits.danglingLinks state.host
  ({ state with host := installed.1 }, installed.2)

/-- Extraction of a ZIP file into `dest`, given by its physical path. -/
def extractZip (limits : ExtractionLimits) (dest : Place) (file : ZipFile) (host : Host) :
    Outcome Extraction :=
  match openZip limits file with
  | .error failure => (.begin limits host, some failure)
  | .ok entries =>
    match host.prepareDestination dest with
    | (host, some failure) => (.begin limits host, some failure)
    | (host, none) =>
      match zipEntries limits dest entries (.begin limits host) with
      | (state, some failure) => (state, some failure)
      | (state, none) => finishLinks limits dest state

end KernalApi.Archive
