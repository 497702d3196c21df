import KernalApi.Archive.Tar

/-!
# The output budget of an extraction

The bytes in new files, the bytes read as ZIP link targets and the running counter add
up to the budget before and after every entry that succeeds. A write that stops part
way and a link target that cannot be read leave bytes the counter does not know of;
the extraction then ends, within its limits all the same.
-/

namespace KernalApi.Archive

open KernalApi.Std List

variable {bytes : List UInt8} {uncounted : Failure → Prop} {outcome : Outcome Extraction}
  {limits : ExtractionLimits} {start : Host} {state after : Extraction}

namespace Extraction

/-- The files an extraction has made. -/
def newFiles (start : Host) (state : Extraction) : List (List UInt8) :=
  state.host.files.drop start.files.length

/-- The bytes it has written to files. -/
def written (start : Host) (state : Extraction) : Nat :=
  ((state.newFiles start).map List.length).sum

/-- The limits hold, and older files are as they were. -/
structure Bounded (limits : ExtractionLimits) (start : Host) (state : Extraction) : Prop where
  old : start.files <+: state.host.files
  each : ∀ bytes ∈ state.newFiles start, bytes.length ≤ limits.maxEntryBytes
  total : state.written start + state.targetBytes ≤ limits.maxOutputBytes

/-- The counter is what is left of the budget. -/
def Balanced (limits : ExtractionLimits) (start : Host) (state : Extraction) : Prop :=
  state.written start + state.targetBytes + state.remaining = limits.maxOutputBytes

/-- What holds between two entries. -/
structure Kept (limits : ExtractionLimits) (start : Host) (state : Extraction) : Prop
    extends state.Bounded limits start where
  balanced : state.Balanced limits start

theorem Kept.congr (kept : state.Kept limits start) (files : after.host.files = state.host.files)
    (targets : after.targetBytes = state.targetBytes)
    (counter : after.remaining = state.remaining) :
    after.Kept limits start := by
  obtain ⟨⟨old, each, total⟩, balanced⟩ := kept
  simp only [Balanced, written, newFiles, ← files, ← targets, ← counter] at old each total balanced
  exact ⟨⟨old, each, total⟩, balanced⟩

theorem newFiles_append (old : start.files <+: state.host.files)
    (files : after.host.files = state.host.files ++ [bytes]) :
    after.newFiles start = state.newFiles start ++ [bytes] := by
  simp only [newFiles, files]
  exact drop_append_of_le_length old.length_le

theorem written_append (old : start.files <+: state.host.files)
    (files : after.host.files = state.host.files ++ [bytes]) :
    after.written start = state.written start + bytes.length := by
  simp [written, newFiles_append old files]

/-- A new file that fits the limit of an entry and the counter. -/
theorem Kept.append (kept : state.Kept limits start)
    (files : after.host.files = state.host.files ++ [bytes])
    (targets : after.targetBytes = state.targetBytes) (small : bytes.length ≤ limits.maxEntryBytes)
    (fits : bytes.length ≤ state.remaining) : after.Bounded limits start where
  old := files ▸ kept.old.trans (prefix_append _ _)
  each := by
    rw [newFiles_append kept.old files]
    simp only [mem_append, mem_singleton]
    rintro other (member | rfl)
    · exact kept.each other member
    · exact small
  total := by
    rw [written_append kept.old files]
    have balanced : _ + _ = _ := kept.balanced
    omega

end Extraction

open Extraction

/-- The error of a copy within its budget that leaves bytes in the file which the budget does not
know of: a write stopped part way. -/
def Payload.Stopped (limits : ExtractionLimits) (remaining : Nat) (payload : Payload)
    (failure : Failure) : Prop :=
  let copied := copyEntryBounded payload.reads payload.writes remaining limits.maxEntryBytes
  remaining < copied.output.length + copied.remaining ∧ copied.failure = some failure ∧
    ∃ count kind, Writing.partway count kind ∈ payload.writes ∧ failure = .io kind

/-- The error of a link target that cannot be read within its allowance, after some of its bytes. -/
def Payload.Unreadable (limits : ExtractionLimits) (state : Extraction) (payload : Payload)
    (failure : Failure) : Prop :=
  let copied := copyBounded payload.reads [] (state.targetAllowance limits) []
  copied.output ≠ [] ∧ copied.failure = some failure

/-- What one round leaves: the limits hold, and the counter is right unless the round failed in the
given way. -/
structure Settled (limits : ExtractionLimits) (start : Host) (uncounted : Failure → Prop)
    (outcome : Outcome Extraction) : Prop where
  bounded : outcome.1.Bounded limits start
  balanced : outcome.1.Balanced limits start ∨ ∃ failure, outcome.2 = some failure ∧
    uncounted failure

/-- A round settles, and counts no entry. -/
structure Round (limits : ExtractionLimits) (start : Host) (state : Extraction)
    (uncounted : Failure → Prop)
    (outcome : Outcome Extraction) : Prop extends Settled limits start uncounted outcome where
  processed : outcome.1.processed = state.processed

theorem Settled.imp {first second : Failure → Prop} (settled : Settled limits start first outcome)
    (weaker : ∀ failure, first failure → second failure) : Settled limits start second outcome :=
  ⟨settled.bounded, settled.balanced.imp_right fun ⟨failure, failed, one⟩ =>
    ⟨failure, failed, weaker failure one⟩⟩

theorem Settled.kept (settled : Settled limits start uncounted (state, none)) :
    state.Kept limits start := by
  rcases settled with ⟨bounded, balanced | ⟨failure, failed, _⟩⟩
  · exact ⟨bounded, balanced⟩
  · cases failed

section Rounds

variable (kept : state.Kept limits start)

include kept

theorem Settled.unchanged (files : outcome.1.host.files = state.host.files)
    (targets : outcome.1.targetBytes = state.targetBytes)
    (counter : outcome.1.remaining = state.remaining) :
    Settled limits start uncounted outcome :=
  have same := kept.congr files targets counter
  ⟨same.toBounded, .inl same.balanced⟩

theorem Round.refused {failure : Option Failure} :
    Round limits start state uncounted (state, failure) :=
  ⟨.unchanged kept rfl rfl rfl, rfl⟩

theorem extractFile_round (message : String) (output : Place) (size : Nat) (payload : Payload) :
    Round limits start state (payload.Stopped limits state.remaining)
      (extractFile limits message output size payload state) := by
  unfold extractFile
  split
  · exact .refused kept
  have files := Host.createDirAll_files state.host [] output.dropLast
  split
  · rename_i host failure made
    rw [made] at files
    exact ⟨.unchanged kept files rfl rfl, rfl⟩
  rename_i host made
  rw [made] at files
  split
  · exact ⟨.unchanged kept files rfl rfl, rfl⟩
  rename_i inode opened created
  obtain ⟨_, rfl, rfl⟩ := Host.createFile_ok created
  obtain ⟨counted, uncounted, accounts, small⟩ :=
    copyEntryBounded_accounts payload.reads payload.writes state.remaining limits.maxEntryBytes
  have appended : (Host.append { host.add output (.file host.files.length)
    with files := host.files ++ [[]] }
      host.files.length (copyEntryBounded payload.reads payload.writes state.remaining
        limits.maxEntryBytes).output).files = state.host.files ++ [counted ++ uncounted] := by
    rw [← accounts.output]
    have same : host.files = state.host.files := files
    simp [Host.append, same, modify_eq_set]
  have balance := accounts.balance
  refine ⟨⟨kept.append appended rfl ?_ ?_, ?_⟩, rfl⟩
  · exact small.trans (Nat.min_le_right _ _)
  · exact small.trans (Nat.min_le_left _ _)
  by_cases complete : uncounted = []
  · left
    have balanced : _ + _ = _ := kept.balanced
    rw [Extraction.Balanced, written_append kept.old appended, complete, append_nil]
    dsimp only
    omega
  · obtain ⟨count, kind, member, failed⟩ := accounts.stopped complete
    have more := length_pos_iff.mpr complete
    refine .inr ⟨.io kind, by simp [failed], ?_, failed, count, kind, member, rfl⟩
    rw [accounts.output, length_append]
    omega

theorem extractDirectory_round (output : Place) :
    Round limits start state uncounted (extractDirectory output state) :=
  ⟨.unchanged kept (Host.createDirAll_files _ _ _) rfl rfl, rfl⟩

theorem zipLink_round (relative : Place) (payload : Payload) :
    Round limits start state (payload.Unreadable limits state)
      (zipLink limits relative payload state) := by
  unfold zipLink Payload.Unreadable
  have fits : state.targetAllowance limits ≤ state.remaining := by
    unfold Extraction.targetAllowance
    omega
  generalize state.targetAllowance limits = allowed at fits ⊢
  obtain ⟨counted, uncounted, accounts⟩ := copyBounded_accounts payload.reads [] allowed []
  -- memory takes every byte it is given
  have complete : uncounted = [] := by
    by_contra some
    obtain ⟨_, _, member, _⟩ := accounts.stopped some
    cases member
  have output : (copyBounded payload.reads [] allowed []).output = counted := by
    rw [accounts.output, complete, append_nil]
  have balance : counted.length + (copyBounded payload.reads [] allowed []).remaining =
      allowed := by
    simpa using accounts.balance
  simp only [output]
  generalize (copyBounded payload.reads [] allowed []).remaining = left at balance ⊢
  have balanced : state.written start + _ + _ = _ := kept.balanced
  have bounded {after : Extraction} (host : after.host = state.host)
      (targets : after.targetBytes = state.targetBytes + counted.length) :
      after.Bounded limits start := by
    refine ⟨host ▸ kept.old, ?_, ?_⟩
    · rw [newFiles, host]
      exact kept.each
    · rw [written, newFiles, host, targets]
      change state.written start + _ ≤ _
      omega
  split
  · rename_i failure failed
    refine ⟨⟨bounded rfl rfl, ?_⟩, rfl⟩
    by_cases nothing : counted = []
    · left
      subst nothing
      exact kept.balanced
    · exact .inr ⟨failure, rfl, nothing, failed⟩
  · have spent {after : Extraction} (host : after.host = state.host)
        (targets : after.targetBytes = state.targetBytes + counted.length)
        (counter : after.remaining = state.remaining - (allowed - left)) :
        after.Balanced limits start := by
      rw [Extraction.Balanced, written, newFiles, host, targets, counter]
      change state.written start + _ + _ = _
      omega
    split
    · exact ⟨⟨bounded rfl rfl, .inl (spent rfl rfl rfl)⟩, rfl⟩
    split
    all_goals exact ⟨⟨bounded rfl rfl, .inl (spent rfl rfl rfl)⟩, rfl⟩

/-- How a ZIP entry can fail with bytes that are not counted, from the state it is taken up in. -/
def ZipEntry.Uncounted (limits : ExtractionLimits) (entry : Except Failure ZipEntry)
    (state : Extraction) (failure : Failure) : Prop :=
  match entry with
  | .error _ => False
  | .ok entry =>
    match entry.kind with
    | .file => entry.payload.Stopped limits state.remaining failure
    | .symlink => entry.payload.Unreadable limits state failure
    | .directory => False

theorem zipEntry_round (root : Place) (entry : ZipEntry) :
    Round limits start state (ZipEntry.Uncounted limits (.ok entry) state)
      (zipEntry limits root entry state) := by
  unfold zipEntry
  split
  · exact .refused kept
  split
  · exact .refused kept
  split
  · exact .refused kept
  unfold ZipEntry.Uncounted
  dsimp only
  cases entry.kind with
  | symlink => exact zipLink_round kept _ _
  | directory => exact extractDirectory_round kept _
  | file => exact extractFile_round kept _ _ _ _

theorem zipIndex_settled (root : Place) (entry : Except Failure ZipEntry) :
    Settled limits start (ZipEntry.Uncounted limits entry state)
      (zipIndex limits root entry state) ∧
    (zipIndex limits root entry state).1.processed ≤ state.processed + 1 := by
  cases entry with
  | error => exact ⟨.unchanged kept rfl rfl rfl, Nat.le_succ _⟩
  | ok entry =>
    have counted : { state with processed := state.processed + 1 : Extraction }.Kept limits start :=
      kept.congr rfl rfl rfl
    have round := zipEntry_round counted root entry
    exact ⟨round.toSettled, round.processed.le⟩

theorem tarLink_round (relative : Place) (hard : Bool) (linkName : Except Failure (Option Text)) :
    Round limits start state uncounted (tarLink limits relative hard linkName state) := by
  unfold tarLink
  split
  · exact .refused kept
  · exact .refused kept
  split
  · exact .refused kept
  split
  · exact .refused kept
  split
  · split
    all_goals exact ⟨.unchanged kept rfl rfl rfl, rfl⟩
  · exact ⟨.unchanged kept rfl rfl rfl, rfl⟩

/-- How a tar member can fail with bytes that are not counted. -/
def TarRecord.Uncounted (limits : ExtractionLimits) (record : TarRecord) (run : TarRun)
    (failure : Failure) : Prop :=
  record.kind = .regular ∧ record.payload.Stopped limits run.extraction.remaining failure

theorem tarEntry_round (dest : Place) (member : Option Place) (record : TarRecord) :
    Round limits start state (fun failure => record.kind = .regular ∧
      record.payload.Stopped limits state.remaining failure)
        (tarEntry limits dest member record state).1 := by
  unfold tarEntry
  split
  · exact .refused kept
  split
  · exact .refused kept
  split
  · exact .refused kept
  split
  · exact .refused kept
  split
  · exact .refused kept
  split
  · exact .refused kept
  split
  · rename_i regular
    have round := extractFile_round kept "tar output exceeds byte limit"
    exact ⟨(round _ _ _).imp fun failure stopped => ⟨regular, stopped⟩, (round _ _ _).processed⟩
  split
  · exact .refused kept
  split
  · exact extractDirectory_round kept _
  exact tarLink_round kept _ _ _

end Rounds

/-- The guard's count of entries is never exceeded. -/
theorem tarRecord_settled (dest : Place) (member : Option Place) (record : TarRecord) {run : TarRun}
    (kept : run.extraction.Kept limits start)
    (few : run.extraction.processed + run.guard.entries ≤ limits.maxEntries) :
    let outcome := tarRecord limits dest member record run
    Settled limits start (record.Uncounted limits run) (outcome.1.extraction, outcome.2) ∧
    outcome.1.extraction.processed + outcome.1.guard.entries ≤ limits.maxEntries := by
  simp only [tarRecord]
  split
  · exact ⟨.unchanged kept rfl rfl rfl, few⟩
  rename_i guard header
  have entries := Guard.nextHeader_entries header
  split
  · exact ⟨.unchanged kept rfl rfl rfl, by simp only; omega⟩
  split
  · exact ⟨.unchanged kept rfl rfl rfl, by simp only; omega⟩
  have counted : { run.extraction with processed := run.extraction.processed + 1 : Extraction }.Kept
      limits start :=
    kept.congr rfl rfl rfl
  have round := tarEntry_round counted dest member record
  refine ⟨round.toSettled, ?_⟩
  have same := round.processed
  simp only at same ⊢
  omega

/-- A loop settles when its rounds do, and bytes are left uncounted only by the round that ends
it. -/
theorem Settled.loop {ε σ : Type} {round : ε → σ → Outcome σ} (state : σ) (view : σ → Extraction)
    (lost : ε → σ → Failure → Prop) (Few : Nat → σ → Prop)
    (settles : ∀ {count} entry {before}, (view before).Kept limits start → Few count before →
      Settled limits start (lost entry before) (view (round entry before).1,
        (round entry before).2) ∧
      Few (count + 1) (round entry before).1)
    (kept : (view state).Kept limits start) (few : Few 0 state) (entries : List ε) :
    Settled limits start (fun failure => ∃ entry before,
        StopsAt round entries state entry before failure ∧ lost entry before failure)
      (view (tryForEach round entries state).1, (tryForEach round entries state).2) ∧
    ∃ count ≤ entries.length, Few count (tryForEach round entries state).1 := by
  rcases @tryForEach_cases _ _ round state (fun count after => (view after).Kept limits start ∧
    Few count after) (fun count entry before after ⟨kept, few⟩ done => by
      obtain ⟨settled, next⟩ := settles entry kept few
      rw [done] at settled next
      exact ⟨settled.kept, next⟩)
    ⟨kept, few⟩ entries with
    ⟨_, kept, few⟩ | ⟨count, entry, before, _, small, ⟨kept, few⟩, ⟨index, found, earlier, _⟩, last⟩
  · exact ⟨.unchanged kept rfl rfl rfl, _, le_rfl, few⟩
  · obtain ⟨settled, next⟩ := settles entry kept few
    rw [← last]
    refine ⟨⟨settled.bounded, settled.balanced.imp_right ?_⟩, count + 1, small, next⟩
    rintro ⟨failure, failed, one⟩
    exact ⟨failure, failed, entry, before, ⟨index, found, earlier, failed⟩, one⟩

theorem createParents_files (root : Place) (links : List (Place × ArchiveLink)) (host : Host) :
    (createParents root links host).1.files = host.files :=
  tryForEach_keeps (P := fun after : Host => after.files = host.files)
    (fun link _ same => (Host.createDirAll_files _ [] (root ++ link.1).dropLast).trans same) rfl
    links

theorem placeLink_files {validated : Validated} {host after : Host}
    (placed : placeLink validated host = .ok after) : after.files = host.files := by
  unfold placeLink at placed
  split at placed
  · split at placed
    · rw [(Host.create_ok placed).2, Host.files_add]
    · cases placed
  rw [(Host.create_ok placed).2, Host.files_add]

theorem placeLinks_files (links : List Validated) (host : Host) :
    (placeLinks links host).1.files = host.files := by
  refine tryForEach_keeps (P := fun after : Host => after.files = host.files)
    (fun validated before same => ?_) rfl links
  split
  · exact same
  rename_i after placed
  exact (placeLink_files placed).trans same

theorem installLinks_files (root : Place) (links : SortedMap Place ArchiveLink) (steps : Nat)
    (danglingLinks : DanglingLinks) (host : Host) :
    (installLinks root links steps danglingLinks host).1.files = host.files := by
  have parents := createParents_files root links.entries host
  unfold installLinks
  split
  · rename_i after failure made
    rw [made] at parents
    exact parents
  rename_i after made
  rw [made] at parents
  split
  · exact parents
  exact (placeLinks_files _ _).trans parents

theorem prepareDestination_files (host : Host) (dest : Place) :
    (host.prepareDestination dest).1.files = host.files := by
  unfold Host.prepareDestination
  split
  · split <;> rfl
  · rfl
  · exact Host.createDirAll_files _ _ _

/-- How an extraction from a prepared destination can fail with bytes that are not counted: in the
last entry taken up a write stopped part way, or a link target of a ZIP file could not be read. -/
def Source.Uncounted (limits : ExtractionLimits) (dest : Place) (host : Host) :
    Source → Failure → Prop
  | .zip file, failure => ∃ entry before,
      StopsAt (zipIndex limits dest) file.entries (.begin limits host) entry before failure ∧
      ZipEntry.Uncounted limits entry before failure
  | .tar file member, failure => ∃ record before,
      StopsAt (tarRecord limits dest member) file.records
        ⟨.begin limits host, .new limits, false⟩ record before failure ∧
      record.Uncounted limits before failure

/-- The host the entries are extracted on: for a whole archive the destination is made first. -/
def Source.prepared (dest : Place) (host : Host) : Source → Host
  | .tar _ (some _) => host
  | _ => (host.prepareDestination dest).1

/-- The loop over the entries, after some of its rounds. -/
def Source.rounds (limits : ExtractionLimits) (dest : Place) (count : Nat) :
    Source → Host → Outcome Extraction
  | .zip file, host =>
    match openZip limits file with
    | .error failure => (.begin limits host, some failure)
    | .ok entries => zipEntries limits dest (entries.take count) (.begin limits host)
  | .tar file member, host =>
    let outcome := tarRecords limits dest member (file.records.take count)
      ⟨.begin limits host, .new limits, false⟩
    (outcome.1.extraction, outcome.2)

/-- The limits hold, and the counter is right unless the call failed in the given way. -/
def Accounted (limits : ExtractionLimits) (start : Host) (uncounted : Failure → Prop)
    (outcome : Outcome Extraction) : Prop :=
  Settled limits start uncounted outcome ∧ outcome.1.processed ≤ limits.maxEntries

section Whole

variable {host : Host}

theorem begin_kept (files : host.files = start.files) :
    (Extraction.begin limits host).Kept limits start := by
  refine ⟨⟨files ▸ prefix_rfl, ?_, ?_⟩, ?_⟩
  all_goals simp [Extraction.Balanced, written, newFiles, Extraction.begin, files]

theorem begin_accounted (files : host.files = start.files) (failure : Option Failure) :
    Accounted limits start uncounted (.begin limits host, failure) :=
  ⟨.unchanged (begin_kept files) rfl rfl rfl, Nat.zero_le _⟩

theorem openZip_ok {file : ZipFile} {entries : List (Except Failure ZipEntry)}
    (opened : openZip limits file = .ok entries) :
    entries = file.entries ∧ file.entries.length ≤ limits.maxEntries := by
  unfold openZip at opened
  split at opened
  · cases opened
  split at opened
  · cases opened
  split_ifs at opened
  cases opened
  exact ⟨rfl, Nat.le_of_not_lt ‹_›⟩

theorem rounds_accounted (files : host.files = start.files) (dest : Place) (count : Nat)
    (source : Source) :
    Accounted limits start (source.Uncounted limits dest host)
      (source.rounds limits dest count host) := by
  cases source with
  | zip file =>
    simp only [Source.rounds]
    split
    · exact begin_accounted files _
    rename_i entries opened
    obtain ⟨rfl, few⟩ := openZip_ok opened
    obtain ⟨settled, index, small, processed⟩ :=
      Settled.loop (.begin limits host) id (ZipEntry.Uncounted limits)
      (fun count after => after.processed ≤ count) (fun entry _ kept few =>
        have settled := zipIndex_settled kept dest entry
        ⟨settled.1, settled.2.trans (Nat.succ_le_succ few)⟩)
      (begin_kept files) (Nat.le_refl 0) (file.entries.take count)
    refine ⟨settled.imp fun _ ⟨entry, before, stops, one⟩ => ⟨entry, before, stops.of_take, one⟩,
      ?_⟩
    have short := length_take_le' count file.entries
    exact processed.trans (by omega)
  | tar file member =>
    obtain ⟨settled, _, _, processed⟩ := Settled.loop ⟨.begin limits host, .new limits, false⟩
      TarRun.extraction (TarRecord.Uncounted limits)
      (fun _ run => run.extraction.processed + run.guard.entries ≤ limits.maxEntries)
      (fun record _ kept few => tarRecord_settled dest member record kept few)
      (begin_kept files) (by simp [Extraction.begin, Guard.new]) (file.records.take count)
    exact ⟨settled.imp fun _ ⟨record, before, stops, one⟩ => ⟨record, before, stops.of_take, one⟩,
      (Nat.le_add_right _ _).trans processed⟩

theorem finishLinks_accounted {state : Extraction} (dest : Place)
    (accounted : Accounted limits start uncounted (state, none)) :
    Accounted limits start uncounted (finishLinks limits dest state) :=
  ⟨.unchanged accounted.1.kept (installLinks_files _ _ _ _ _) rfl rfl, accounted.2⟩

theorem extractZip_accounted (dest : Place) (file : ZipFile) (host : Host) :
    Accounted limits host ((Source.zip file).Uncounted limits dest (host.prepareDestination dest).1)
      (extractZip limits dest file host) := by
  have files := prepareDestination_files host dest
  unfold extractZip
  split
  · exact begin_accounted rfl _
  rename_i entries opened
  split
  · rename_i prepared failure made
    rw [made] at files
    exact begin_accounted files _
  rename_i prepared made
  rw [made] at files ⊢
  have rounds := @rounds_accounted limits host prepared files dest entries.length (.zip file)
  simp only [Source.rounds, opened, take_length] at rounds
  split
  · rename_i state failure failed
    rwa [failed] at rounds
  rename_i state finished
  rw [finished] at rounds
  exact finishLinks_accounted dest rounds

theorem extractTar_accounted (dest : Place) (member : Option Place) (file : TarFile) (host : Host) :
    Accounted limits host ((Source.tar file member).Uncounted limits dest
      ((Source.tar file member).prepared dest host)) (extractTar limits dest member file host) := by
  have same : (Source.tar file member).prepared dest host =
      (if member.isSome then (host, none) else host.prepareDestination dest).1 := by
    cases member <;> rfl
  have files : (if member.isSome then (host, none) else host.prepareDestination dest).1.files =
      host.files := by
    split
    · rfl
    exact prepareDestination_files host dest
  unfold extractTar
  split
  · exact begin_accounted rfl _
  split
  · exact begin_accounted rfl _
  split
  · rename_i prepared failure made
    rw [made] at files
    exact begin_accounted files _
  rename_i prepared made
  rw [made] at files same
  rw [same]
  have rounds := @rounds_accounted limits host prepared files dest file.records.length
    (.tar file member)
  simp only [Source.rounds, take_length] at rounds
  split
  · rename_i run failure failed
    rwa [failed] at rounds
  rename_i run finished
  rw [finished] at rounds
  split
  · exact ⟨.unchanged rounds.1.kept rfl rfl rfl, rounds.2⟩
  split
  · exact ⟨.unchanged rounds.1.kept rfl rfl rfl, rounds.2⟩
  exact finishLinks_accounted dest rounds

end Whole

def tightLimits : ExtractionLimits where
  maxInputBytes := 100
  maxOutputBytes := 10
  maxEntryBytes := 10
  maxEntries := 4
  maxMetadataBytes := 4096
  maxPathBytes := 100
  maxLinkSteps := 100
  danglingLinks := .reject

/-- A file of two bytes on a disk that has room for one. -/
def crampedZip : ZipFile where
  inputBytes := 100
  directory := none
  entries := [.ok {
    size := 2
    name := .ok ['f']
    kind := .file
    payload := {
      reads := [.chunk ⟨[1, 2], by decide, by decide⟩]
      writes := [.partway 1 .storageFull]
      finish := none } }]

end KernalApi.Archive
