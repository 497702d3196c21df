import Mathlib.Data.List.Forall2

/-!
# The bytes a symbol report is read from

`symbolize` verifies a private snapshot of each candidate symbol file and parses the
symbol table from it. Line tables are read later, through the path of the candidate.
Other processes may replace a file between any two of these operations.
-/

namespace KernalApi.Symbols

open List Option

abbrev Bytes := List UInt8

/-- What an operation on a path finds, by the number of the file operation. -/
abbrev World (π : Type) := Nat → π → Option Bytes

abbrev FunctionTable := Nat → Option String
abbrev LineTable := Nat → Option (String × Nat)

/-- The symbol file parsers of a backend; `debugData` extracts `.gnu_debugdata`. -/
structure Parsers (ι : Type) where
  identity : Bytes → Option ι
  table : Bytes → Option FunctionTable
  lines : Bytes → Option LineTable
  debugData : Bytes → Option Bytes

/-- A file at a path that others can replace, or one in storage of the worker's own. -/
inductive Source (π : Type)
  | shared (path : π)
  | held (bytes : Bytes)

def Source.read {π : Type} (world : World π) (tick : Nat) : Source π → Option Bytes
  | .shared path => world tick path
  | .held bytes => some bytes

/-- A candidate of discovery: whether its claimed identity and format match, and the size and
digest checks of its snapshot. -/
structure Candidate (π : Type) where
  source : Source π
  claimMatches : Bool
  accepts : Bytes → Bool

/-- A module of a capture, with the distinct candidates of its discovery and the bodies its
symbol servers answer with. -/
structure ModuleRef (π ι : Type) where
  pathHint : Option π
  debugId : Option ι
  codeId : Option (Bytes → Bool)
  candidates : List (Candidate π)
  downloads : List Bytes

/-- The backends: ELF and Mach-O objects, and PDB files. -/
inductive Backend
  | object
  | pdb

section Discovery

variable {π ι : Type} [DecidableEq ι] (parsers : Parsers ι) (world : World π)

/-- `load_object_for_identity` and `load_pdb`: the identity and the table are of the same bytes. -/
def Parsers.load (expected : ι) (bytes : Bytes) : Option FunctionTable :=
  if parsers.identity bytes = some expected then parsers.table bytes else none

/-- A symbol file that passed the identity check of its module. -/
structure Verified where
  expected : ι
  bytes : Bytes
  table : FunctionTable
  loaded : parsers.load expected bytes = some table

def Parsers.verify (expected : ι) (bytes : Bytes) : Option (Verified parsers) :=
  match loaded : parsers.load expected bytes with
  | some table => some ⟨expected, bytes, table, loaded⟩
  | none => none

/-- The symbols of a module, the source they were found at, and when that was copied. -/
structure Found (π : Type) where
  verified : Verified parsers
  origin : Source π
  snapshotTick : Nat

inductive ModuleSymbols (π : Type)
  | found (found : Found parsers π)
  | notFound
  | noDebugDirectory
  | mismatched (rejected : Nat)

/-- `snapshot_candidate` and the check of the snapshot. -/
def snapshotVerified (expected : ι) (candidate : Candidate π) (tick : Nat) :
    Option (Found parsers π) := do
  guard candidate.claimMatches
  let bytes ← candidate.source.read world tick
  guard (candidate.accepts bytes)
  let verified ← parsers.verify expected bytes
  some ⟨verified, candidate.source, tick⟩

/-- The candidate loop of `resolve_symbols`, with the count of rejected files. -/
def resolveSymbols (expected : ι) :
    List (Candidate π) → Nat → Nat → (Option (Found parsers π) × Nat) × Nat
  | [], rejected, tick => ((none, rejected), tick)
  | candidate :: rest, rejected, tick =>
    if (candidate.source.read world tick).isNone then resolveSymbols expected rest rejected
      (tick + 1)
    else
      match snapshotVerified parsers world expected candidate (tick + 1) with
      | some found => ((some found, rejected), tick + 2)
      | none => resolveSymbols expected rest (rejected + 1) (tick + 2)

/-- `server_symbols`: a verified download is retained in the worker's storage. -/
def serverSymbols (expected : ι) (tick : Nat) : List Bytes → Nat → ModuleSymbols parsers π
  | [], 0 => .notFound
  | [], rejected + 1 => .mismatched (rejected + 1)
  | bytes :: rest, rejected =>
    match parsers.verify expected bytes with
    | some verified => .found ⟨verified, .held bytes, tick⟩
    | none => serverSymbols expected tick rest (rejected + 1)

/-- `captured_image_still_matches`. -/
def imageMatches (module : ModuleRef π ι) (tick : Nat) : Bool :=
  match module.codeId with
  | none => true
  | some digestMatches => ((module.pathHint.bind (world tick)).map digestMatches).getD false

/-- The candidate of the module's own file: its extracted debug data where that is usable. -/
def embedded (expected : ι) (image : π) (tick : Nat) : Candidate π :=
  let extracted := ((world tick image).bind parsers.debugData).filter
    fun bytes => (parsers.load expected bytes).isSome
  ⟨(extracted.map .held).getD (.shared image), true, fun _ => true⟩

/-- The candidates of a module: the object backend tries the module's own file first. -/
def Backend.candidates (backend : Backend) (module : ModuleRef π ι) (expected : ι) (tick : Nat) :
    List (Candidate π) :=
  match backend, module.pathHint with
  | .object, some image => embedded parsers world expected image tick :: module.candidates
  | _, _ => module.candidates

/-- `discover_module`. -/
def discoverModule (backend : Backend) (module : ModuleRef π ι) (tick : Nat) :
    ModuleSymbols parsers π × Nat :=
  if module.pathHint.isNone && module.debugId.isNone then (.notFound, tick)
  else if !imageMatches world module tick then (.mismatched 1, tick + 1)
  else
    match backend, module.pathHint,
      module.debugId.or ((module.pathHint.bind (world (tick + 1))).bind parsers.identity) with
    | .object, none, _ => (.noDebugDirectory, tick + 1)
    | _, _, none => (.noDebugDirectory, tick + 2)
    | _, _, some expected =>
      match resolveSymbols parsers world expected
        (backend.candidates parsers world module expected (tick + 2)) 0 (tick + 3) with
      | ((some found, _), after) => (.found found, after)
      | ((none, rejected), after) =>
        (serverSymbols parsers expected after module.downloads rejected, after)

/-- A line table and the operation that read it. -/
structure LineRead where
  tick : Nat
  table : LineTable

/-- `LineTable::from_path` and `resolve_lines`: the origin is opened again. -/
def readLines (symbols : ModuleSymbols parsers π) (tick : Nat) : Option LineRead :=
  match symbols with
  | .found found => ((found.origin.read world tick).bind parsers.lines).map (⟨tick, ·⟩)
  | _ => none

/-- What the report reads of a module: `SymbolCache` and `LineCache`. -/
structure Entry (π : Type) where
  symbols : ModuleSymbols parsers π
  lines : Option LineRead

/-- `build_symbol_cache`; the object backend reads the lines of a module as it is found. -/
def buildSymbolCache (backend : Backend) (requested : Bool) :
    List (ModuleRef π ι) → Nat → List (Entry parsers π) × Nat
  | [], tick => ([], tick)
  | module :: rest, tick =>
    let (symbols, found) := discoverModule parsers world backend module tick
    let lines := match backend with
      | .object => if requested then readLines parsers world symbols found else none
      | .pdb => none
    let (entries, after) := buildSymbolCache backend requested rest (found + 1)
    (⟨symbols, lines⟩ :: entries, after)

/-- `build_line_cache` of the PDB backend, over the modules that frames are in. -/
def buildLineCache (wanted : Nat → Bool) :
    List (Entry parsers π) → Nat → Nat → List (Entry parsers π)
  | [], _, _ => []
  | entry :: rest, index, tick =>
    { entry with lines := if wanted index then readLines parsers world entry.symbols (tick + 1)
      else none } :: buildLineCache wanted rest (index + 1) (tick + 2)

/-- A frame of a capture: a module and an address in it. -/
structure RawFrame where
  moduleIndex : Nat
  relativeAddress : Nat

structure SymFrame where
  function : Option String
  location : Option (String × Nat)
deriving DecidableEq

/-- Both caches of a run. -/
def caches (backend : Backend) (requested : Bool) (modules : List (ModuleRef π ι))
    (frames : List RawFrame) : List (Entry parsers π) :=
  let (entries, tick) := buildSymbolCache parsers world backend requested modules 0
  match backend with
  | .object => entries
  | .pdb =>
    if requested then
      buildLineCache parsers world (fun index => frames.any (·.moduleIndex == index)) entries 0 tick
    else entries

def Entry.function (entry : Entry parsers π) (address : Nat) : Option String :=
  match entry.symbols with
  | .found found => found.verified.table address
  | _ => none

def symbolizeFrame (entries : List (Entry parsers π)) (frame : RawFrame) : SymFrame where
  function := entries[frame.moduleIndex]?.bind fun entry =>
    entry.function parsers frame.relativeAddress
  location := entries[frame.moduleIndex]?.bind fun entry =>
    entry.lines.bind fun read => read.table frame.relativeAddress

/-- `symbolize`: the frames of the report. -/
def symbolize (backend : Backend) (requested : Bool) (modules : List (ModuleRef π ι))
    (frames : List RawFrame) : List SymFrame :=
  frames.map (symbolizeFrame parsers (caches parsers world backend requested modules frames))

end Discovery

section Reports

variable {π ι : Type} [DecidableEq ι] {parsers : Parsers ι} {world : World π}

/-- Found symbols are those of a file as it was copied, checked against the expected identity. -/
structure Found.Checked (world : World π) (found : Found parsers π) (expected : ι) : Prop where
  expected : found.verified.expected = expected
  copied : found.origin.read world found.snapshotTick = some found.verified.bytes

variable (backend : Backend) (requested : Bool) (modules : List (ModuleRef π ι)) {expected : ι}

theorem Parsers.verify_some {bytes : Bytes} {verified : Verified parsers}
    (accepted : parsers.verify expected bytes = some verified) :
    verified.expected = expected ∧ verified.bytes = bytes := by
  unfold Parsers.verify at accepted
  split at accepted
  · cases accepted
    exact ⟨rfl, rfl⟩
  cases accepted

variable {found : Found parsers π}

theorem snapshotVerified_checked {candidate : Candidate π} {tick : Nat}
    (taken : snapshotVerified parsers world expected candidate tick = some found) :
    found.Checked world expected := by
  obtain ⟨_, _, taken⟩ := bind_eq_some_iff.mp taken
  obtain ⟨bytes, copied, taken⟩ := bind_eq_some_iff.mp taken
  obtain ⟨_, _, taken⟩ := bind_eq_some_iff.mp taken
  obtain ⟨verified, accepted, same⟩ := bind_eq_some_iff.mp taken
  obtain ⟨identity, same_bytes⟩ := Parsers.verify_some accepted
  cases same
  exact ⟨identity, same_bytes ▸ copied⟩

theorem resolveSymbols_checked (candidates : List (Candidate π)) (rejected tick : Nat)
    (resolved : (resolveSymbols parsers world expected candidates rejected tick).1.1 = some found) :
    found.Checked world expected := by
  induction candidates generalizing rejected tick with
  | nil => cases resolved
  | cons candidate rest ih =>
    unfold resolveSymbols at resolved
    split at resolved
    · exact ih _ _ resolved
    split at resolved
    next taken =>
      cases resolved
      exact snapshotVerified_checked taken
    next => exact ih _ _ resolved

theorem serverSymbols_checked {tick : Nat} (downloads : List Bytes) (rejected : Nat)
    (resolved : serverSymbols parsers expected tick downloads rejected = .found found) :
    found.Checked world expected := by
  induction downloads generalizing rejected with
  | nil => cases rejected <;> cases resolved
  | cons bytes rest ih =>
    unfold serverSymbols at resolved
    split at resolved
    next verified accepted =>
      obtain ⟨identity, same_bytes⟩ := Parsers.verify_some accepted
      cases resolved
      exact ⟨identity, congrArg some same_bytes.symm⟩
    next => exact ih _ resolved

/-- The identity a module's symbols are checked against is its own, where the capture has it. -/
theorem discoverModule_checked {backend : Backend} {module : ModuleRef π ι} {tick : Nat}
    (resolved : (discoverModule parsers world backend module tick).1 = .found found) :
    ∃ expected, found.Checked world expected ∧ ∀ identity ∈ module.debugId,
      identity = expected := by
  unfold discoverModule at resolved
  split_ifs at resolved
  split at resolved
  · cases resolved
  · cases resolved
  next expected known _ =>
    have own : ∀ identity ∈ module.debugId, identity = expected := by
      intro identity present
      rw [mem_def.mp present] at known
      exact some.inj known
    refine ⟨expected, ?_, own⟩
    split at resolved
    next equal =>
      cases resolved
      exact resolveSymbols_checked _ _ _ (by rw [equal])
    next => exact serverSymbols_checked _ _ resolved

/-- An entry of the caches: its symbols are checked, and its lines are read at their origin. -/
structure Entry.Sourced (world : World π) (module : ModuleRef π ι) (entry : Entry parsers π) :
    Prop where
  checked : ∀ found, entry.symbols = .found found →
    ∃ expected, found.Checked world expected ∧ ∀ identity ∈ module.debugId, identity = expected
  lines : ∀ read ∈ entry.lines, ∃ found, entry.symbols = .found found ∧
    (found.origin.read world read.tick).bind parsers.lines = some read.table

theorem readLines_some {symbols : ModuleSymbols parsers π} {tick : Nat} {read : LineRead}
    (shown : readLines parsers world symbols tick = some read) :
    ∃ found, symbols = .found found ∧
      (found.origin.read world read.tick).bind parsers.lines = some read.table := by
  unfold readLines at shown
  split at shown
  next found =>
    obtain ⟨table, parsed, rfl⟩ := map_eq_some_iff.mp shown
    exact ⟨found, rfl, parsed⟩
  next => cases shown

theorem buildSymbolCache_sourced (tick : Nat) :
    List.Forall₂ (Entry.Sourced world) modules
      (buildSymbolCache parsers world backend requested modules tick).1 := by
  induction modules generalizing tick with
  | nil => exact .nil
  | cons module rest ih =>
    refine .cons ⟨fun found resolved => discoverModule_checked resolved, ?_⟩ (ih _)
    intro read present
    cases backend with
    | object =>
      simp only [mem_def, ite_none_right_eq_some] at present
      exact readLines_some present.2
    | pdb => cases present

variable {entries : List (Entry parsers π)}

theorem buildLineCache_sourced (wanted : Nat → Bool) {modules : List (ModuleRef π ι)}
    (sourced : List.Forall₂ (Entry.Sourced world) modules entries) (index tick : Nat) :
    List.Forall₂ (Entry.Sourced world) modules
      (buildLineCache parsers world wanted entries index tick) := by
  induction sourced generalizing index tick with
  | nil => exact .nil
  | cons head _ ih =>
    refine .cons ⟨head.checked, ?_⟩ (ih _ _)
    intro read present
    simp only [mem_def, ite_none_right_eq_some] at present
    exact readLines_some present.2

theorem caches_sourced (frames : List RawFrame) :
    List.Forall₂ (Entry.Sourced world) modules
      (caches parsers world backend requested modules frames) := by
  have built : List.Forall₂ (Entry.Sourced world) modules
      (buildSymbolCache parsers world backend requested modules 0).1 :=
    buildSymbolCache_sourced backend requested modules 0
  cases backend with
  | object => exact built
  | pdb =>
    cases requested with
    | false => exact built
    | true => exact buildLineCache_sourced _ built _ _

/-- Every function and location of a frame is read from bytes that passed the identity check of
the frame's module. -/
def OnlyVerified (modules : List (ModuleRef π ι)) (entries : List (Entry parsers π))
    (frame : RawFrame) (shown : SymFrame) : Prop :=
  shown = ⟨none, none⟩ ∨
    ∃ module entry found, modules[frame.moduleIndex]? = some module ∧
      entries[frame.moduleIndex]? = some entry ∧ entry.symbols = .found found ∧
      (∀ identity ∈ module.debugId, found.verified.expected = identity) ∧
      (∀ name ∈ shown.function, found.verified.table frame.relativeAddress = some name) ∧
      ∀ place ∈ shown.location,
        (parsers.lines found.verified.bytes).bind (· frame.relativeAddress) = some place

theorem Entry.Sourced.lines_verified {module : ModuleRef π ι} {entry : Entry parsers π}
    (sourced : entry.Sourced world module) (known : entry.symbols = .found found)
    {read : LineRead} (present : read ∈ entry.lines)
    (undisturbed : ∀ path, found.origin = .shared path →
      world read.tick path = world found.snapshotTick path) :
    parsers.lines found.verified.bytes = some read.table := by
  obtain ⟨again, same, parsed⟩ := sourced.lines read present
  obtain rfl : found = again := ModuleSymbols.found.inj (known.symm.trans same)
  obtain ⟨_, checked, _⟩ := sourced.checked found known
  have reread : found.origin.read world read.tick = some found.verified.bytes := by
    rw [← checked.copied]
    cases origin : found.origin with
    | shared path => exact undisturbed path origin
    | held => rfl
  rwa [reread] at parsed

/-- No file was replaced between its snapshot and the reading of its lines. -/
def Undisturbed (world : World π) (entries : List (Entry parsers π)) : Prop :=
  ∀ entry ∈ entries, ∀ found, entry.symbols = .found found → ∀ read ∈ entry.lines, ∀ path,
    found.origin = .shared path → world read.tick path = world found.snapshotTick path

theorem symbolizeFrame_onlyVerified {modules : List (ModuleRef π ι)}
    (sourced : List.Forall₂ (Entry.Sourced world) modules entries)
    (undisturbed : Undisturbed world entries) (frame : RawFrame) :
    OnlyVerified modules entries frame (symbolizeFrame parsers entries frame) := by
  cases cached : entries[frame.moduleIndex]? with
  | none =>
    left
    simp [symbolizeFrame, cached]
  | some entry =>
    obtain ⟨bound, rfl⟩ := List.getElem?_eq_some_iff.mp cached
    have inModules : frame.moduleIndex < modules.length := sourced.length_eq ▸ bound
    have own := forall₂_iff_get.mp sourced |>.2 _ inModules bound
    cases symbols : entries[frame.moduleIndex].symbols with
    | found found =>
      right
      obtain ⟨_, checked, agrees⟩ := own.checked found symbols
      refine ⟨_, _, found, getElem?_eq_getElem inModules, cached, symbols, ?_, ?_, ?_⟩
      · intro identity present
        rw [checked.expected, agrees identity present]
      · intro name shown
        simpa [symbolizeFrame, cached, Entry.function, symbols] using shown
      intro place shown
      simp only [symbolizeFrame, cached, bind_some, mem_def, bind_eq_some_iff] at shown
      obtain ⟨read, present, looked⟩ := shown
      rw [own.lines_verified symbols present
        (undisturbed _ (getElem_mem bound) found symbols read present)]
      exact looked
    | _ =>
      left
      have dark : entries[frame.moduleIndex].lines = none := by
        refine eq_none_iff_forall_not_mem.mpr fun read present => ?_
        obtain ⟨found, known, _⟩ := own.lines read present
        cases known.symm.trans symbols
      simp [symbolizeFrame, cached, Entry.function, symbols, dark]

/-- In every run of `symbolize` in which no symbol file is replaced between its snapshot and the
reading of its lines, only verified bytes are shown. -/
theorem symbolize_onlyVerified (frames : List RawFrame)
    (undisturbed : Undisturbed world (caches parsers world backend requested modules frames)) :
    List.Forall₂ (OnlyVerified modules (caches parsers world backend requested modules frames))
      frames (symbolize parsers world backend requested modules frames) := by
  rw [symbolize, forall₂_map_right_iff, forall₂_same]
  exact fun frame _ => symbolizeFrame_onlyVerified (caches_sourced backend requested modules frames)
    undisturbed frame

end Reports

/-- Files of two bytes: the identity, and the line of every address. -/
def twoByteParsers : Parsers UInt8 where
  identity := List.head?
  table := fun _ => some fun _ => some "main"
  lines := fun bytes => some fun _ => bytes[1]?.map fun line => ("main.rs", line.toNat)
  debugData := fun _ => none

/-- One file, that another process replaces after its snapshot when `replaced` says so. -/
def oneFile (replaced : Bool) : World Unit := fun tick _ =>
  if replaced && 4 < tick then some [9, 2] else some [7, 1]

def oneModule : ModuleRef Unit UInt8 := ⟨some (), some 7, none, [], []⟩

theorem symbolize_onlyVerified_oneFile :
    Undisturbed (oneFile false) (caches twoByteParsers (oneFile false) .object true [oneModule]
      [⟨0, 16⟩]) ∧ List.Forall₂
        (OnlyVerified [oneModule] (caches twoByteParsers (oneFile false) .object true [oneModule]
          [⟨0, 16⟩]))
        [⟨0, 16⟩] (symbolize twoByteParsers (oneFile false) .object true [oneModule] [⟨0, 16⟩]) :=
  have undisturbed : ∀ entries : List (Entry twoByteParsers Unit),
      Undisturbed (oneFile false) entries :=
    fun _ _ _ _ _ _ _ _ _ => rfl
  ⟨undisturbed _, symbolize_onlyVerified .object true [oneModule] [⟨0, 16⟩] (undisturbed _)⟩

/-- A file replaced after its snapshot: the line shown is of the bytes that replaced it. -/
theorem symbolize_replaced :
    symbolize twoByteParsers (oneFile true) .object true [oneModule] [⟨0, 16⟩] =
        [⟨some "main", some ("main.rs", 2)⟩] ∧
      ¬ List.Forall₂
        (OnlyVerified [oneModule] (caches twoByteParsers (oneFile true) .object true [oneModule]
          [⟨0, 16⟩]))
        [⟨0, 16⟩] (symbolize twoByteParsers (oneFile true) .object true [oneModule] [⟨0, 16⟩]) := by
  refine ⟨by decide, fun verified => ?_⟩
  obtain ⟨only, _⟩ := forall₂_cons.mp verified
  obtain dark | ⟨-, entry, found, _, cached, symbols, _, _, lines⟩ := only
  · exact absurd dark (by decide)
  have bytes : found.verified.bytes = [7, 1] := by
    cases cached
    cases symbols
    rfl
  have shown := lines ("main.rs", 2) rfl
  rw [bytes] at shown
  exact absurd shown (by decide)

end KernalApi.Symbols

