import KernalApi.Profile.Session
import KernalApi.Std.Intern

/-!
# The pprof export

A profile message holds every string in one table; samples name locations,
locations name functions and functions name strings, by ids and places.
-/

namespace KernalApi.Profile.Pprof

open KernalApi.Std
open List

structure ValueType where
  type : Nat
  unit : Nat
deriving DecidableEq

structure Function where
  id : Nat
  name : Nat
  systemName : Nat
  filename : Nat
  startLine : Nat
deriving DecidableEq

structure Line where
  functionId : Nat
  line : Nat
deriving DecidableEq

structure Location where
  id : Nat
  mappingId : Nat
  address : Nat
  line : List Line
  isFolded : Bool
deriving DecidableEq

structure Sample where
  locationId : List Nat
  value : List Int
deriving DecidableEq

structure ProfileMessage where
  sampleType : List ValueType
  sample : List Sample
  location : List Location
  function : List Function
  stringTable : List String
  timeNanos : Int
  durationNanos : Int
  periodType : Option ValueType
  period : Int

/-- An `i64` as its value. -/
def asI64 (value : Int) : Int := value.bmod (2 ^ 64)

abbrev StringTable := Interner String

/-- The table with the empty string at place 0. -/
def StringTable.new : StringTable := (Interner.empty.intern "").2

/-- The tables that are built up over the stacks. -/
structure Builder where
  strings : StringTable
  functions : List Function
  functionIds : List (String × Nat)
  locations : List Location
  locationIds : List (String × Nat)

namespace Builder

/-- The id of the function of a frame, made when the frame is new. -/
def functionId (builder : Builder) (frame : String) : Nat × Builder :=
  match builder.functionIds.lookup frame with
  | some id => (id, builder)
  | none =>
    let id := builder.functions.length + 1
    let (name, strings) := builder.strings.intern frame
    (id, { builder with
      strings
      functions := builder.functions ++ [⟨id, name, name, 0, 0⟩]
      functionIds := (frame, id) :: builder.functionIds })

/-- The id of the location of a frame, whose function has the id `function`. -/
def locationId (builder : Builder) (frame : String) (function : Nat) : Nat × Builder :=
  match builder.locationIds.lookup frame with
  | some id => (id, builder)
  | none =>
    let id := builder.locations.length + 1
    (id, { builder with
      locations := builder.locations ++ [⟨id, 0, 0, [⟨function, 0⟩], false⟩]
      locationIds := (frame, id) :: builder.locationIds })

def frame (builder : Builder) (name : String) : Nat × Builder :=
  let (function, builder) := builder.functionId name
  builder.locationId name function

/-- The locations of frames in their order. -/
def stack (builder : Builder) : List String → List Nat × Builder
  | [] => ([], builder)
  | name :: rest =>
    let (id, builder) := builder.frame name
    let (ids, builder) := builder.stack rest
    (id :: ids, builder)

/-- The samples of folded stacks; a sample lists its locations leaf first. -/
def samples (builder : Builder) (period : Int) : List (List String × Nat) → List Sample × Builder
  | [] => ([], builder)
  | (stack, count) :: rest =>
    let (locationId, builder) := builder.stack stack.reverse
    let (samples, builder) := builder.samples period rest
    (⟨locationId, [count, asI64 (count * period)]⟩ :: samples, builder)

end Builder

/-- The two value types, a count and the time it stands for, and the strings they name. -/
def valueTypes : ValueType × ValueType × StringTable :=
  let strings := StringTable.new
  let (samples, strings) := strings.intern "samples"
  let (count, strings) := strings.intern "count"
  let (cpu, strings) := strings.intern "cpu"
  let (nanoseconds, strings) := strings.intern "nanoseconds"
  (⟨samples, count⟩, ⟨cpu, nanoseconds⟩, strings)

/-- The profile message of a session. -/
def build (result : SessionResult) : ProfileMessage :=
  let (samplesType, cpuType, strings) := valueTypes
  let period := asI64 result.periodNanos
  let (sample, builder) := (⟨strings, [], [], [], []⟩ : Builder).samples period result.folded
  { sampleType := [samplesType, cpuType]
    sample
    location := builder.locations
    function := builder.functions
    stringTable := builder.strings.rows
    timeNanos := result.startUnixNanos
    durationNanos := asI64 result.durationNanos
    periodType := some cpuType
    period }

/-! ## Reading a profile -/

namespace ProfileMessage

variable (profile : ProfileMessage)

/-- The name a location stands for. -/
def nameOf (id : Nat) : Option String := do
  let location ← profile.location.find? fun location => location.id = id
  let line ← location.line.head?
  let function ← profile.function.find? fun function => function.id = line.functionId
  profile.stringTable[function.name]?

/-- The stack of a sample, root first, with its count. -/
def readSample (sample : Sample) : Option (List String × Int) := do
  let names ← sample.locationId.mapM profile.nameOf
  let count ← sample.value.head?
  some (names.reverse, count)

def read : Option (List (List String × Int)) := profile.sample.mapM profile.readSample

end ProfileMessage

/-! ## The tables -/

/-- The function at a place, for a string at a place. -/
def functionRow (place name : Nat) : Function := ⟨place + 1, name, name, 0, 0⟩

/-- The location at a place, which is the one of the function there. -/
def locationRow (place : Nat) : Location := ⟨place + 1, 0, 0, [⟨place + 1, 0⟩], false⟩

namespace Builder

/-- The functions are those of `keys`, in their order. -/
structure Functions (builder : Builder) (keys : List String) : Prop where
  indexes : Indexes (· + 1) keys builder.functionIds
  known : ∀ key ∈ keys, key ∈ builder.strings.rows
  rows : builder.functions = keys.mapIdx fun place key =>
    functionRow place (builder.strings.rows.idxOf key)

/-- The locations are those of `keys`, in their order. -/
structure Locations (builder : Builder) (keys : List String) : Prop where
  indexes : Indexes (· + 1) keys builder.locationIds
  rows : builder.locations = keys.mapIdx fun place _ => locationRow place

structure Covers (builder : Builder) (keys : List String) : Prop where
  functions : builder.Functions keys
  locations : builder.Locations keys

variable {builder : Builder} {keys : List String}

theorem functionId_known {frame : String} {id : Nat}
    (hit : builder.functionIds.lookup frame = some id) :
    builder.functionId frame = (id, builder) := by
  simp [functionId, hit]

theorem functionId_new {frame : String} (miss : builder.functionIds.lookup frame = none) :
    builder.functionId frame = (builder.functions.length + 1, { builder with
      strings := (builder.strings.intern frame).2
      functions := builder.functions ++
        [functionRow builder.functions.length (builder.strings.intern frame).1]
      functionIds := (frame, builder.functions.length + 1) :: builder.functionIds }) := by
  simp only [functionId, miss]
  rfl

/-- Looking up a function keeps the strings there were and touches no location. -/
theorem functionId_frame (builder : Builder) (frame : String) :
    builder.strings.rows <+: (builder.functionId frame).2.strings.rows ∧
      (builder.functionId frame).2.locations = builder.locations ∧
      (builder.functionId frame).2.locationIds = builder.locationIds := by
  cases hit : builder.functionIds.lookup frame with
  | some => simp [functionId_known hit]
  | none =>
    rw [functionId_new hit]
    exact ⟨(Interner.intern_interned _ _).grown, rfl, rfl⟩

/-- Interning gives the place of a string in the table it leaves. -/
theorem intern_place (strings : StringTable) (value : String) :
    (strings.intern value).1 = (strings.intern value).2.rows.idxOf value := by
  have found := (strings.intern_interned value).found
  have distinct := (strings.intern value).2.nodup
  obtain ⟨inside, same⟩ := List.getElem?_eq_some_iff.1 found
  have place := distinct.idxOf_getElem _ inside
  rw [same] at place
  exact place.symm

theorem Functions.functionId (functions : builder.Functions keys) (frame : String) :
    (builder.functionId frame).2.Functions (extend keys frame) ∧
      (builder.functionId frame).1 = (extend keys frame).idxOf frame + 1 := by
  cases hit : builder.functionIds.lookup frame with
  | some =>
    obtain ⟨known, rfl⟩ := functions.indexes.known hit
    rw [functionId_known hit, extend_known known]
    exact ⟨functions, rfl⟩
  | none =>
    have new := functions.indexes.fresh hit
    have length : builder.functions.length = keys.length := by
      rw [functions.rows, length_mapIdx]
    have interned := builder.strings.intern_interned frame
    rw [functionId_new hit, length]
    refine ⟨⟨functions.indexes.extend_of_miss hit, ?_, ?_⟩, ?_⟩
    · intro key member
      rcases mem_extend.1 member with old | rfl
      · exact interned.grown.subset (functions.known key old)
      · exact mem_of_getElem? interned.found
    · have kept : ∀ (place : Nat) (inside : place < keys.length),
          functionRow place (builder.strings.rows.idxOf keys[place]) =
            functionRow place ((builder.strings.intern frame).2.rows.idxOf keys[place]) := by
        intro place inside
        rw [← interned.grown.idxOf_eq_of_mem (functions.known _ (getElem_mem inside))]
      have same := (@mapIdx_eq_mapIdx_iff _ _
        (fun place key => functionRow place (builder.strings.rows.idxOf key))
        (fun place key => functionRow place ((builder.strings.intern frame).2.rows.idxOf key))
        keys).2 kept
      simp [extend_fresh new, functions.rows, same, ← intern_place]
    · simp [extend_fresh new, idxOf_append_of_notMem new]

theorem Locations.locationId (locations : builder.Locations keys) (frame : String) :
    (builder.locationId frame ((extend keys frame).idxOf frame + 1)).2.Locations
    (extend keys frame) ∧
      (builder.locationId frame ((extend keys frame).idxOf frame + 1)).1 =
      (extend keys frame).idxOf frame + 1 := by
  cases hit : builder.locationIds.lookup frame with
  | some id =>
    obtain ⟨known, rfl⟩ := locations.indexes.known hit
    simp only [Builder.locationId, hit, extend_known known]
    exact ⟨locations, trivial⟩
  | none =>
    have new := locations.indexes.fresh hit
    have length : builder.locations.length = keys.length := by
      rw [locations.rows, length_mapIdx]
    have place : (extend keys frame).idxOf frame = keys.length := by
      simp [extend_fresh new, idxOf_append_of_notMem new]
    simp only [Builder.locationId, hit, place, length]
    refine ⟨⟨locations.indexes.extend_of_miss hit, ?_⟩, trivial⟩
    simp [extend_fresh new, locations.rows, locationRow]

theorem locationId_frame (builder : Builder) (frame : String) (function : Nat) :
    (builder.locationId frame function).2.strings = builder.strings ∧
      (builder.locationId frame function).2.functions = builder.functions ∧
      (builder.locationId frame function).2.functionIds = builder.functionIds := by
  unfold locationId
  split <;> exact ⟨rfl, rfl, rfl⟩

/-- A frame is entered in both tables under one place, and the strings there were stay. -/
theorem Covers.frame (covers : builder.Covers keys) (name : String) :
    (builder.frame name).2.Covers (extend keys name) ∧
      (builder.frame name).1 = (extend keys name).idxOf name + 1 ∧
      builder.strings.rows <+: (builder.frame name).2.strings.rows := by
  obtain ⟨functions, id⟩ := covers.functions.functionId name
  obtain ⟨grown, rows, ids⟩ := functionId_frame builder name
  have before : (builder.functionId name).2.Locations keys :=
    ⟨ids ▸ covers.locations.indexes, rows ▸ covers.locations.rows⟩
  obtain ⟨locations, place⟩ := before.locationId name
  rw [← id] at locations place
  obtain ⟨strings, kept, keptIds⟩ :=
    locationId_frame (builder.functionId name).2 name (builder.functionId name).1
  refine ⟨⟨⟨?_, ?_, ?_⟩, locations⟩, id ▸ place, ?_⟩
  · rw [Builder.frame, keptIds]
    exact functions.indexes
  · rw [Builder.frame, strings]
    exact functions.known
  · rw [Builder.frame, strings, kept]
    exact functions.rows
  · rw [Builder.frame, strings]
    exact grown

/-- The places of frames, given all frames in their order. -/
def places (final : List String) (names : List String) : List Nat :=
  names.map fun name => final.idxOf name + 1

/-- The tables after frames: what is entered stays, and ids are the places in any later table. -/
theorem Covers.stack (names : List String) (covers : builder.Covers keys) :
    (builder.stack names).2.Covers (names.foldl extend keys) ∧ keys <+: names.foldl extend keys ∧
      builder.strings.rows <+: (builder.stack names).2.strings.rows ∧
      ∀ final, names.foldl extend keys <+: final → (builder.stack names).1 =
        places final names := by
  induction names generalizing builder keys with
  | nil => exact ⟨covers, prefix_refl _, prefix_refl _, fun _ _ => rfl⟩
  | cons name rest ih =>
    obtain ⟨first, id, grown⟩ := covers.frame name
    obtain ⟨final, longer, strings, ids⟩ := ih first
    refine ⟨final, (isPrefix_extend keys name).trans longer, grown.trans strings,
      fun all within => ?_⟩
    have place := ((longer.trans within).idxOf_eq_of_mem
      (mem_extend.2 (.inr rfl) : name ∈ extend keys name)).symm
    have ids := ids all within
    simp [Builder.stack, places, place, id, ids]

/-- The same over all folded stacks, which are entered leaf first. -/
theorem Covers.samples (period : Int) (folded : List (List String × Nat))
    (covers : builder.Covers keys) :
    ∃ final, (builder.samples period folded).2.Covers final ∧ keys <+: final ∧
      builder.strings.rows <+: (builder.samples period folded).2.strings.rows ∧
      (∀ entry ∈ folded, ∀ name ∈ entry.1, name ∈ final) ∧
      ∀ later, final <+: later → (builder.samples period folded).1 = folded.map fun entry =>
        ⟨places later entry.1.reverse, [entry.2, asI64 (entry.2 * period)]⟩ := by
  induction folded generalizing builder keys with
  | nil => exact ⟨keys, covers, prefix_refl _, prefix_refl _, by simp, fun _ _ => rfl⟩
  | cons entry rest ih =>
    obtain ⟨first, longer, strings, ids⟩ := covers.stack entry.1.reverse
    obtain ⟨final, second, grown, more, members, samples⟩ := ih first
    refine ⟨final, second, longer.trans grown, strings.trans more, ?_, fun later within => ?_⟩
    · intro other member
      rcases mem_cons.1 member with rfl | member
      · intro name present
        exact grown.subset (mem_foldl_extend.2 (.inr (mem_reverse.2 present)))
      · exact members other member
    · simp [Builder.samples, ids later (grown.trans within), samples later within]

end Builder

/-! ## The message -/

/-- Ids count from 1, every reference has its row, and no row stands twice. -/
structure ProfileMessage.WellFormed (profile : ProfileMessage) : Prop where
  unset : profile.stringTable[0]? = some ""
  strings : profile.stringTable.Nodup
  functionIds : profile.function.map Function.id = List.range' 1 profile.function.length
  functionNames : (profile.function.map Function.name).Nodup
  functionRefs : ∀ function ∈ profile.function, function.name < profile.stringTable.length ∧
    function.systemName < profile.stringTable.length ∧
      function.filename < profile.stringTable.length
  locationIds : profile.location.map Location.id = List.range' 1 profile.location.length
  locationLines : (profile.location.map Location.line).Nodup
  locationRefs : ∀ location ∈ profile.location, ∀ line ∈ location.line,
    line.functionId ∈ profile.function.map Function.id
  sampleRefs : ∀ sample ∈ profile.sample, ∀ id ∈ sample.locationId,
    id ∈ profile.location.map Location.id
  typeRefs : ∀ type ∈ profile.sampleType ++ profile.periodType.toList,
    type.type < profile.stringTable.length ∧ type.unit < profile.stringTable.length

/-- A message whose tables are those of `keys` over a string table. -/
structure ProfileMessage.Tabulated (profile : ProfileMessage) (keys : List String) : Prop where
  nodup : keys.Nodup
  strings : profile.stringTable.Nodup
  unset : profile.stringTable[0]? = some ""
  known : ∀ key ∈ keys, key ∈ profile.stringTable
  functions : profile.function = keys.mapIdx fun place key =>
    functionRow place (profile.stringTable.idxOf key)
  locations : profile.location = keys.mapIdx fun place _ => locationRow place

namespace ProfileMessage.Tabulated

variable {profile : ProfileMessage} {keys : List String}

section

variable (tabulated : profile.Tabulated keys)

include tabulated

theorem location_id {place : Nat} {row : Location}
    (found : profile.location[place]? = some row) : row.id = place + 1 := by
  rw [tabulated.locations, getElem?_mapIdx, Option.map_eq_some_iff] at found
  obtain ⟨_, _, rfl⟩ := found
  rfl

theorem function_id {place : Nat} {row : Function}
    (found : profile.function[place]? = some row) : row.id = place + 1 := by
  rw [tabulated.functions, getElem?_mapIdx, Option.map_eq_some_iff] at found
  obtain ⟨_, _, rfl⟩ := found
  rfl

/-- The id of a key is read back as the key. -/
theorem nameOf {key : String} (member : key ∈ keys) :
    profile.nameOf (keys.idxOf key + 1) = some key := by
  have location := find?_numbered (fun place row found => tabulated.location_id found)
    (keys.idxOf key)
  have function := find?_numbered (fun place row found => tabulated.function_id found)
    (keys.idxOf key)
  rw [tabulated.locations, getElem?_mapIdx, getElem?_idxOf member,
    ← tabulated.locations] at location
  rw [tabulated.functions, getElem?_mapIdx, getElem?_idxOf member,
    ← tabulated.functions] at function
  simp only [ProfileMessage.nameOf, Option.bind_eq_bind, location, Option.map_some,
    Option.bind_some, locationRow, head?_cons]
  simp only [function]
  exact getElem?_idxOf (tabulated.known key member)

theorem readSample {stack : List String} (value : List Int)
    (members : ∀ name ∈ stack, name ∈ keys) :
    profile.readSample ⟨Builder.places keys stack.reverse, value⟩ = value.head?.map fun count =>
      (stack, count) := by
  have names : ∀ names : List String, (∀ name ∈ names, name ∈ keys) →
      (Builder.places keys names).mapM profile.nameOf = some names := by
    intro names
    induction names with
    | nil => exact fun _ => rfl
    | cons name rest ih =>
      intro members
      rw [forall_mem_cons] at members
      simp only [Builder.places, map_cons, mapM_cons, tabulated.nameOf members.1]
      rw [← Builder.places, ih members.2]
      rfl
  rw [ProfileMessage.readSample, names _ (by simpa using members)]
  cases value <;> simp

theorem locationId_mem {key : String} (member : key ∈ keys) :
    keys.idxOf key + 1 ∈ profile.location.map Location.id := by
  have inside := idxOf_lt_length_of_mem member
  rw [tabulated.locations, mem_map]
  exact ⟨locationRow (keys.idxOf key), mem_mapIdx.2 ⟨_, inside, rfl⟩, rfl⟩

end

end ProfileMessage.Tabulated

theorem valueTypes_eq :
    valueTypes.1 = ⟨1, 2⟩ ∧ valueTypes.2.1 = ⟨3, 4⟩ ∧
      valueTypes.2.2.rows = ["", "samples", "count", "cpu", "nanoseconds"] := by
  decide +kernel

/-- The tables of a built message are those of the frames in the order they are met. -/
theorem build_tabulated (result : SessionResult) :
    ∃ keys, (build result).Tabulated keys ∧ valueTypes.2.2.rows <+: (build result).stringTable ∧
      (∀ entry ∈ result.folded, ∀ name ∈ entry.1, name ∈ keys) ∧
      (build result).sample = result.folded.map fun entry =>
        ⟨Builder.places keys entry.1.reverse,
          [entry.2, asI64 (entry.2 * asI64 result.periodNanos)]⟩ := by
  have start : Builder.Covers ⟨valueTypes.2.2, [], [], [], []⟩ [] :=
    ⟨⟨Indexes.empty _, by simp, rfl⟩, ⟨Indexes.empty _, rfl⟩⟩
  obtain ⟨keys, covers, -, grown, members, samples⟩ :=
    start.samples (asI64 result.periodNanos) result.folded
  refine ⟨keys, ⟨covers.functions.indexes.nodup, Interner.nodup _, ?_, covers.functions.known,
    covers.functions.rows, covers.locations.rows⟩, grown, members, samples keys (prefix_refl _)⟩
  obtain ⟨more, equal⟩ := grown
  have rows : (build result).stringTable = valueTypes.2.2.rows ++ more := equal.symm
  rw [rows]
  rfl

theorem build_read (result : SessionResult) :
    (build result).read = some (result.folded.map fun entry => (entry.1, (entry.2 : Int))) := by
  obtain ⟨keys, tabulated, -, members, samples⟩ := build_tabulated result
  rw [ProfileMessage.read, samples]
  generalize result.folded = folded at members
  induction folded with
  | nil => rfl
  | cons entry rest ih =>
    rw [forall_mem_cons] at members
    rw [map_cons, mapM_cons, tabulated.readSample _ members.1, ih members.2]
    rfl

theorem build_wellFormed (result : SessionResult) : (build result).WellFormed := by
  obtain ⟨keys, tabulated, ⟨more, grown⟩, members, samples⟩ := build_tabulated result
  have long : 5 ≤ (build result).stringTable.length := by
    rw [← grown, valueTypes_eq.2.2]
    simp
  have names : (build result).function.map Function.name =
      keys.map (build result).stringTable.idxOf := by
    refine ext_getElem (by simp [tabulated.functions]) fun place _ _ => ?_
    simp [tabulated.functions, functionRow]
  have ids : ∀ {α : Type} (row : Nat → String → α) (id : α → Nat),
    (∀ place key, id (row place key) = place + 1) →
      (keys.mapIdx row).map id = range' 1 keys.length := by
    intro α row id numbered
    refine ext_getElem (by simp) fun place _ _ => ?_
    simp [numbered, Nat.add_comm]
  have functionIds : (build result).function.map Function.id = range' 1 keys.length := by
    rw [tabulated.functions]
    exact ids _ _ fun _ _ => rfl
  have locationIds : (build result).location.map Location.id = range' 1 keys.length := by
    rw [tabulated.locations]
    exact ids _ _ fun _ _ => rfl
  have lines : ∀ location ∈ (build result).location, location.line = [⟨location.id, 0⟩] := by
    intro location member
    rw [tabulated.locations] at member
    obtain ⟨place, inside, rfl⟩ := mem_mapIdx.1 member
    rfl
  refine ⟨tabulated.unset, tabulated.strings, ?_, ?_, ?_, ?_, ?_, ?_, ?_, ?_⟩
  · rw [functionIds, tabulated.functions, length_mapIdx]
  · rw [names]
    refine List.Nodup.map_on (fun first inFirst second inSecond same => ?_) tabulated.nodup
    exact (idxOf_inj (tabulated.known first inFirst)).1 same
  · intro function member
    rw [tabulated.functions] at member
    obtain ⟨place, inside, rfl⟩ := mem_mapIdx.1 member
    have known := idxOf_lt_length_of_mem (tabulated.known _ (getElem_mem inside))
    exact ⟨known, known, by simp only [functionRow]; omega⟩
  · rw [locationIds, tabulated.locations, length_mapIdx]
  · have listed : (build result).location.map Location.line =
        ((build result).location.map Location.id).map fun id => [⟨id, 0⟩] := by
      rw [map_map]
      exact map_congr_left lines
    rw [listed, locationIds]
    exact List.Nodup.map (fun first second same => by simpa using same) nodup_range'
  · intro location member line inside
    rw [lines location member, mem_singleton] at inside
    rw [inside, functionIds, ← locationIds]
    exact mem_map_of_mem member
  · intro sample member id known
    rw [samples] at member
    obtain ⟨entry, present, rfl⟩ := mem_map.1 member
    obtain ⟨name, inside, rfl⟩ := mem_map.1 known
    exact tabulated.locationId_mem (members entry present name (mem_reverse.1 inside))
  · intro type member
    have three : type = ⟨1, 2⟩ ∨ type = ⟨3, 4⟩ := by
      have : type ∈ [valueTypes.1, valueTypes.2.1] ++ [valueTypes.2.1] := member
      simp at this
      tauto
    rcases three with rfl | rfl <;> constructor <;> simp only <;> omega

end KernalApi.Profile.Pprof
