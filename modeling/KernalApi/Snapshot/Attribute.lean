import KernalApi.Std.Intern
import Mathlib.Algebra.GroupWithZero.Nat
import Mathlib.Data.List.Forall2
import Mathlib.Data.List.Perm.Subperm

/-!
# Captured addresses as offsets into modules

`attributeCapture` (`attribute` in the source) writes every captured address as an offset from the
base of the loaded module that holds it, and lists the modules it refers to.
-/

namespace KernalApi.Snapshot

open KernalApi.Std List UInt64

variable {address : UInt64} {module : LoadedModule} {state : Attribution} {met : List UInt64}
  {count : Nat}

/-- A half-open range of addresses. -/
structure AddressRange where
  start : UInt64
  stop : UInt64
deriving DecidableEq

def AddressRange.contains (range : AddressRange) (address : UInt64) : Bool :=
  decide (range.start ≤ address) && decide (address < range.stop)

/-- A module as the process inventory lists it, without its sections. -/
structure LoadedModule where
  base : UInt64
  size : UInt64
  mappedRanges : List AddressRange
  path : Option (List Char)
  debugId : Option String
  debugFile : Option String
deriving DecidableEq

namespace LoadedModule

/-- Addresses from the first mapped range to the last, or from the base over the size. -/
def range (module : LoadedModule) : AddressRange :=
  match module.mappedRanges.head?, module.mappedRanges.getLast? with
  | some first, some last => ⟨first.start, last.stop⟩
  | _, _ => ⟨module.base, module.base + module.size⟩

def contains (module : LoadedModule) (address : UInt64) : Bool :=
  if module.mappedRanges.isEmpty then module.range.contains address
  else module.mappedRanges.any fun range => range.contains address

/-- What the symbols of a module are found by. -/
def identity (module : LoadedModule) : Option (List Char) × Option String × Option String :=
  (module.path, module.debugId, module.debugFile)

end LoadedModule

structure AttributedModule where
  name : List Char
  path : Option (List Char)
  debugId : Option String
  debugFile : Option String
  base : UInt64
deriving DecidableEq

structure AttributedFrame where
  moduleIndex : Option Nat
  relativeAddress : UInt64
deriving DecidableEq

structure AttributedThread where
  osTid : UInt64
  frames : List AttributedFrame
deriving DecidableEq

structure AttributedCapture where
  modules : List AttributedModule
  threads : List AttributedThread
deriving DecidableEq

/-- A captured thread with its unwound addresses, innermost first. -/
structure CapturedThread where
  osTid : UInt64
  frames : List UInt64
deriving DecidableEq

/-- The last part of the path that is not empty, or the base in hexadecimal. -/
def moduleName (module : LoadedModule) : List Char :=
  let parts := fun path : List Char => path.splitOnP fun char => char == '/' || char == '\\'
  match module.path.bind fun path => (parts path).reverse.find? fun part => !part.isEmpty with
  | some name => name
  | none => '0' :: 'x' :: Nat.toDigits 16 module.base.toNat

/-- The row that is listed for a module. -/
def AttributedModule.of (module : LoadedModule) : AttributedModule where
  name := moduleName module
  path := module.path
  debugId := module.debugId
  debugFile := module.debugFile
  base := module.base

/-- `u32::try_from(len).unwrap_or(u32::MAX)`. -/
def nextIndex (length : Nat) : Nat := if length < 2 ^ 32 then length else 2 ^ 32 - 1

/-- The modules listed so far, and the index of each base. -/
structure Attribution where
  modules : List AttributedModule
  indexByBase : List (UInt64 × Nat)

def attributeAddress (inventory : List LoadedModule) (state : Attribution) (address : UInt64) :
    AttributedFrame × Attribution :=
  match inventory.find? fun module => module.contains address with
  | some module =>
    match state.indexByBase.lookup module.base with
    | some index => (⟨some index, address - module.base⟩, state)
    | none =>
      let next := nextIndex state.modules.length
      (⟨some next, address - module.base⟩,
        ⟨state.modules ++ [AttributedModule.of module], (module.base, next) :: state.indexByBase⟩)
  | none => (⟨none, address⟩, state)

def attributeFrames (inventory : List LoadedModule) :
    Attribution → List UInt64 → List AttributedFrame × Attribution
  | state, [] => ([], state)
  | state, address :: rest =>
    let (frame, state) := attributeAddress inventory state address
    let (frames, state) := attributeFrames inventory state rest
    (frame :: frames, state)

def attributeThreads (inventory : List LoadedModule) :
    Attribution → List CapturedThread → List AttributedThread × Attribution
  | state, [] => ([], state)
  | state, sample :: rest =>
    let (frames, state) := attributeFrames inventory state sample.frames
    let (threads, state) := attributeThreads inventory state rest
    (⟨sample.osTid, frames⟩ :: threads, state)

def attributeCapture (snapshot : List CapturedThread) (inventory : List LoadedModule) :
    AttributedCapture :=
  let (threads, state) := attributeThreads inventory ⟨[], []⟩ snapshot
  ⟨state.modules, threads⟩

/-! ## The pass in closed form -/

section

variable (inventory : List LoadedModule)

/-- The module an address is attributed to. -/
def owner (address : UInt64) : Option LoadedModule :=
  inventory.find? fun module => module.contains address

/-- The bases that addresses refer to, one for each attributed address. -/
def references (addresses : List UInt64) : List UInt64 :=
  addresses.filterMap fun address => (owner inventory address).map LoadedModule.base

/-- The referenced bases, each at its first reference. -/
def bases (addresses : List UInt64) : List UInt64 := (references inventory addresses).eraseDups

/-- The frame of an address, given the bases in their order. -/
def frameAt (listed : List UInt64) (address : UInt64) : AttributedFrame :=
  match owner inventory address with
  | some module => ⟨some (nextIndex (listed.idxOf module.base)), address - module.base⟩
  | none => ⟨none, address⟩

end

variable {inventory : List LoadedModule}

theorem owner_spec (owned : owner inventory address = some module) :
    module ∈ inventory ∧ module.contains address = true :=
  ⟨mem_of_find?_eq_some owned,
    @find?_some _ (fun module : LoadedModule => module.contains address) _ _ owned⟩

theorem owner_none :
    owner inventory address = none ↔ ∀ module ∈ inventory, module.contains address = false := by
  simp [owner]

theorem references_concat (addresses : List UInt64) (address : UInt64) :
    references inventory (addresses ++ [address]) =
      references inventory addresses ++
        ((owner inventory address).map LoadedModule.base).toList := by
  cases owned : owner inventory address <;> simp [references, owned]

theorem mem_bases {addresses : List UInt64} {base : UInt64} :
    base ∈ bases inventory addresses ↔
      ∃ address ∈ addresses, ∃ module, owner inventory address = some module ∧
        module.base = base := by
  simp [bases, references]

theorem bases_isPrefix (addresses more : List UInt64) :
    bases inventory addresses <+: bases inventory (addresses ++ more) := by
  unfold bases references
  rw [filterMap_append]
  exact ⟨_, eraseDups_append.symm⟩

/-- The frame of an address that was met already does not depend on what is met later. -/
theorem frameAt_later {addresses : List UInt64} (met : address ∈ addresses) (more : List UInt64) :
    frameAt inventory (bases inventory (addresses ++ more)) address =
      frameAt inventory (bases inventory addresses) address := by
  unfold frameAt
  cases owned : owner inventory address with
  | none => rfl
  | some module =>
    have listed : module.base ∈ bases inventory addresses :=
      mem_bases.2 ⟨address, met, module, owned, rfl⟩
    simp [← (bases_isPrefix addresses more).idxOf_eq_of_mem listed]

/-- What the pass knows after the addresses in `met`. -/
structure Attribution.Covers (inventory : List LoadedModule) (met : List UInt64)
    (state : Attribution) : Prop where
  indexes : Indexes nextIndex (bases inventory met) state.indexByBase
  listed : state.modules.map AttributedModule.base = bases inventory met
  rows : ∀ row ∈ state.modules, ∃ module ∈ inventory, row = AttributedModule.of module

theorem Attribution.Covers.start : Attribution.Covers inventory [] ⟨[], []⟩ where
  indexes := Indexes.empty nextIndex
  listed := rfl
  rows := by simp

theorem frameAt_some (listed : List UInt64) (owned : owner inventory address = some module) :
    frameAt inventory listed address =
      ⟨some (nextIndex (listed.idxOf module.base)), address - module.base⟩ := by
  simp [frameAt, owned]

theorem frameAt_none (listed : List UInt64) (alone : owner inventory address = none) :
    frameAt inventory listed address = ⟨none, address⟩ := by
  simp [frameAt, alone]

/-- One address: the state covers it too, and its frame is the one of the closed form. -/
theorem attributeAddress_covers (covers : state.Covers inventory met) (address : UInt64) :
    (attributeAddress inventory state address).2.Covers inventory (met ++ [address]) ∧
      (attributeAddress inventory state address).1 =
        frameAt inventory (bases inventory (met ++ [address])) address := by
  cases owned : owner inventory address with
  | none =>
    have same : bases inventory (met ++ [address]) = bases inventory met := by
      simp [bases, references_concat, owned]
    rw [attributeAddress, ← owner, owned, frameAt_none _ owned]
    exact ⟨⟨same ▸ covers.indexes, same ▸ covers.listed, covers.rows⟩, rfl⟩
  | some module =>
    have grown : bases inventory (met ++ [address]) = if module.base ∈ bases inventory met then
        bases inventory met else bases inventory met ++ [module.base] := by
      simp [bases, references_concat, owned, eraseDups_concat]
    rw [frameAt_some _ owned]
    cases hit : state.indexByBase.lookup module.base with
    | some =>
      obtain ⟨known, rfl⟩ := covers.indexes.known hit
      rw [if_pos known] at grown
      rw [attributeAddress, ← owner, owned, grown]
      simp only [hit]
      exact ⟨⟨grown ▸ covers.indexes, grown ▸ covers.listed, covers.rows⟩, trivial⟩
    | none =>
      have new := covers.indexes.fresh hit
      have length : state.modules.length = (bases inventory met).length := by
        rw [← covers.listed, length_map]
      rw [if_neg new] at grown
      rw [attributeAddress, ← owner, owned, grown, length]
      simp only [hit]
      refine ⟨⟨?_, ?_, ?_⟩, ?_⟩
      · rw [grown]
        exact covers.indexes.push new
      · rw [grown, map_append, covers.listed]
        rfl
      · intro row member
        rcases mem_append.1 member with old | added
        · exact covers.rows row old
        · rw [mem_singleton] at added
          exact ⟨module, (owner_spec owned).1, added⟩
      · simp [idxOf_append_of_notMem new]

theorem attributeFrames_covers (addresses later : List UInt64)
    (covers : state.Covers inventory met) :
    (attributeFrames inventory state addresses).2.Covers inventory (met ++ addresses) ∧
      (attributeFrames inventory state addresses).1 =
        addresses.map (frameAt inventory (bases inventory (met ++ addresses ++ later))) := by
  induction addresses generalizing met state with
  | nil => simpa [attributeFrames] using covers
  | cons address rest ih =>
    obtain ⟨next, frame⟩ := attributeAddress_covers covers address
    obtain ⟨final, frames⟩ := ih next
    have assoc : met ++ [address] ++ rest = met ++ address :: rest := by simp
    rw [assoc] at final frames
    refine ⟨final, ?_⟩
    have kept := @frameAt_later address inventory (met ++ [address]) (by simp) (rest ++ later)
    have whole : met ++ [address] ++ (rest ++ later) = met ++ address :: rest ++ later := by simp
    rw [whole, ← frame] at kept
    rw [map_cons, kept, ← frames]
    rfl

theorem attributeThreads_covers (samples : List CapturedThread) (later : List UInt64)
    (covers : state.Covers inventory met) :
    (attributeThreads inventory state samples).2.Covers inventory
    (met ++ samples.flatMap (·.frames)) ∧
      (attributeThreads inventory state samples).1 = samples.map fun sample =>
        ⟨sample.osTid, sample.frames.map
          (frameAt inventory (bases inventory (met ++ samples.flatMap (·.frames) ++ later)))⟩ := by
  induction samples generalizing met state with
  | nil => simpa [attributeThreads] using covers
  | cons sample rest ih =>
    obtain ⟨next, frames⟩ := attributeFrames_covers sample.frames
      (rest.flatMap (·.frames) ++ later) covers
    obtain ⟨final, threads⟩ := ih next
    simp only [flatMap_cons, append_assoc] at final threads frames ⊢
    refine ⟨final, ?_⟩
    rw [map_cons, ← frames, ← threads]
    rfl

/-! ## What an attributed capture is -/

/-- A frame says where its address is: in a listed module that holds it, or in none of the
inventory. -/
def Placed (inventory : List LoadedModule) (modules : List AttributedModule) (address : UInt64)
    (frame : AttributedFrame) : Prop :=
  match frame.moduleIndex with
  | some index =>
    ∃ row, modules[index]? = some row ∧ row.base.toNat + frame.relativeAddress.toNat =
      address.toNat ∧
      ∃ module ∈ inventory, module.contains address = true ∧ module.base = row.base ∧
        module.identity = (row.path, row.debugId, row.debugFile)
  | none => frame.relativeAddress = address ∧ ∀ module ∈ inventory, module.contains address = false

/-- The bases of the rows that the frames of a capture name, in the order of the frames. -/
def AttributedCapture.named (capture : AttributedCapture) : List UInt64 :=
  (capture.threads.flatMap (·.frames)).filterMap fun frame =>
    (frame.moduleIndex.bind (capture.modules[·]?)).map AttributedModule.base

structure Attributed (inventory : List LoadedModule) (snapshot : List CapturedThread)
    (capture : AttributedCapture) : Prop where
  threads : List.Forall₂ (fun (sample : CapturedThread) (thread : AttributedThread) =>
    thread.osTid = sample.osTid ∧
      List.Forall₂ (Placed inventory capture.modules) sample.frames thread.frames) snapshot
        capture.threads
  nodup : (capture.modules.map AttributedModule.base).Nodup
  /-- Only named modules are listed, in the order in which frames first name them. -/
  listed : capture.named.eraseDups = capture.modules.map AttributedModule.base

/-- The addresses of a capture in the order in which they are attributed. -/
def addressesOf (snapshot : List CapturedThread) : List UInt64 := snapshot.flatMap (·.frames)

theorem attributeCapture_covers (snapshot : List CapturedThread) (inventory : List LoadedModule) :
    ∃ index, Attribution.Covers inventory (addressesOf snapshot)
      ⟨(attributeCapture snapshot inventory).modules, index⟩ :=
  ⟨_, (attributeThreads_covers snapshot [] Attribution.Covers.start).1⟩

theorem attributeCapture_threads (snapshot : List CapturedThread) (inventory : List LoadedModule) :
    (attributeCapture snapshot inventory).threads = snapshot.map fun sample =>
      ⟨sample.osTid, sample.frames.map
        (frameAt inventory (bases inventory (addressesOf snapshot)))⟩ := by
  have threads := (attributeThreads_covers snapshot [] (@Attribution.Covers.start inventory)).2
  rw [append_nil] at threads
  exact threads

/-- The bases in the list are pairwise distinct, so a place determines the base and the other way
round. -/
theorem getElem?_eq_iff_of_nodup {κ : Type} [DecidableEq κ] {keys : List κ} (nodup : keys.Nodup)
    {key : κ}
    (known : key ∈ keys) (place : Nat) : keys[place]? = some key ↔ place = keys.idxOf key := by
  constructor
  · intro found
    obtain ⟨inside, rfl⟩ := List.getElem?_eq_some_iff.1 found
    exact (nodup.idxOf_getElem place inside).symm
  · rintro rfl
    exact getElem?_idxOf known

theorem nextIndex_eq_iff (length : Nat) : nextIndex length = length ↔ length < 2 ^ 32 := by
  unfold nextIndex
  split <;> omega

section

variable {addresses : List UInt64} {modules : List AttributedModule} {index : List (UInt64 × Nat)}

section

variable (covers : Attribution.Covers inventory addresses ⟨modules, index⟩)

include covers

/-- The frame of an owned address is right exactly when its index was not cut off. -/
theorem placed_iff
    (identity : ∀ first ∈ inventory, ∀ second ∈ inventory, first.base = second.base →
      first.identity = second.identity)
    (above : ∀ module ∈ inventory, ∀ address, module.contains address = true →
     module.base ≤ address) (met : address ∈ addresses) :
    Placed inventory modules address (frameAt inventory (bases inventory addresses) address) ↔
      ∀ module, owner inventory address = some module →
        (bases inventory addresses).idxOf module.base < 2 ^ 32 := by
  cases owned : owner inventory address with
  | none =>
    rw [frameAt_none _ owned]
    simpa [Placed] using owner_none.1 owned
  | some module =>
    obtain ⟨member, holds⟩ := owner_spec owned
    have listed : module.base ∈ bases inventory addresses :=
      mem_bases.2 ⟨address, met, module, owned, rfl⟩
    have bound := above module member address holds
    have offset := UInt64.toNat_sub_of_le _ _ bound
    rw [le_iff_toNat_le] at bound
    have rowAt : ∀ (place : Nat) (row : AttributedModule), modules[place]? = some row →
        (bases inventory addresses)[place]? = some row.base := by
      intro place row found
      rw [← covers.listed, getElem?_map, found]
      rfl
    rw [frameAt_some _ owned]
    constructor
    · rintro ⟨row, found, sum, -⟩ other same
      cases same
      have base : row.base = module.base := by
        have sum : row.base.toNat + (address - module.base).toNat = address.toNat := sum
        rw [← UInt64.toNat_inj]
        omega
      have place := rowAt _ row found
      rw [base, getElem?_eq_iff_of_nodup covers.indexes.nodup listed] at place
      exact (nextIndex_eq_iff _).1 place
    · intro small
      have exact_ := (nextIndex_eq_iff _).2 (small module rfl)
      have inside : (bases inventory addresses).idxOf module.base < modules.length := by
        have := idxOf_lt_length_of_mem listed
        rwa [← covers.listed, length_map, covers.listed] at this
      have found := getElem?_eq_getElem inside
      have base := rowAt _ _ found
      rw [(getElem?_eq_iff_of_nodup covers.indexes.nodup listed _).2 rfl] at base
      have base := Option.some.inj base
      obtain ⟨source, known, same⟩ := covers.rows _ (getElem_mem inside)
      refine ⟨modules[(bases inventory addresses).idxOf module.base], ?_, ?_, module, member, holds,
        base, ?_⟩
      · simp [exact_]
      · rw [← base, offset]
        omega
      · rw [same] at base ⊢
        exact identity module member source known base

/-- All indices are below a bound exactly when there are at most that many modules. -/
theorem idxOf_lt_iff (bound : Nat) :
    (∀ address ∈ addresses, ∀ module, owner inventory address = some module →
      (bases inventory addresses).idxOf module.base < bound) ↔
      (bases inventory addresses).length ≤ bound := by
  constructor
  · intro below
    by_contra long
    have inside : bound < (bases inventory addresses).length := Nat.lt_of_not_le long
    obtain ⟨address, met, module, owned, base⟩ := mem_bases.1 (getElem_mem inside)
    have place := below address met module owned
    rw [base, covers.indexes.nodup.idxOf_getElem bound inside] at place
    exact Nat.lt_irrefl _ place
  · intro short address met module owned
    have listed : module.base ∈ bases inventory addresses :=
      mem_bases.2 ⟨address, met, module, owned, rfl⟩
    exact Nat.lt_of_lt_of_le (idxOf_lt_length_of_mem listed) short

end

end

theorem attributeCapture_named {snapshot : List CapturedThread}
    (short : (bases inventory (addressesOf snapshot)).length ≤ 2 ^ 32) :
    (attributeCapture snapshot inventory).named = references inventory (addressesOf snapshot) := by
  obtain ⟨index, covers⟩ := attributeCapture_covers snapshot inventory
  rw [AttributedCapture.named, attributeCapture_threads, flatMap_map, ← map_flatMap,
    filterMap_map]
  apply filterMap_congr
  intro address met
  simp only [Function.comp]
  cases owned : owner inventory address with
  | none => simp [frameAt_none _ owned]
  | some module =>
    have listed : module.base ∈ bases inventory (addressesOf snapshot) :=
      mem_bases.2 ⟨address, met, module, owned, rfl⟩
    have place := (nextIndex_eq_iff _).2 ((idxOf_lt_iff covers _).2 short address met module owned)
    simp only [frameAt_some _ owned, place, Option.bind_some, ← getElem?_map, covers.listed,
      (getElem?_eq_iff_of_nodup covers.indexes.nodup listed _).2 rfl, Option.map_some]

theorem attributeCapture_placed_iff (snapshot : List CapturedThread)
    (inventory : List LoadedModule) :
    List.Forall₂ (fun (sample : CapturedThread) (thread : AttributedThread) =>
        thread.osTid = sample.osTid ∧ List.Forall₂
          (Placed inventory (attributeCapture snapshot inventory).modules) sample.frames
          thread.frames)
      snapshot (attributeCapture snapshot inventory).threads ↔
    ∀ address ∈ addressesOf snapshot, Placed inventory
      (attributeCapture snapshot inventory).modules address
      (frameAt inventory (bases inventory (addressesOf snapshot)) address) := by
  rw [attributeCapture_threads]
  simp only [forall₂_map_right_iff, forall₂_same, addressesOf, mem_flatMap, true_and]
  constructor
  · rintro placed address ⟨sample, member, met⟩
    exact placed sample member address met
  · intro placed sample member address met
    exact placed address ⟨sample, member, met⟩

section

variable (snapshot : List CapturedThread)
  (identity : ∀ first ∈ inventory, ∀ second ∈ inventory, first.base = second.base →
    first.identity = second.identity)
  (above : ∀ module ∈ inventory, ∀ address, module.contains address = true → module.base ≤ address)

include identity above

theorem short_of_attributed (attributed : Attributed inventory snapshot
    (attributeCapture snapshot inventory)) :
    (bases inventory (addressesOf snapshot)).length ≤ 2 ^ 32 := by
  obtain ⟨index, covers⟩ := attributeCapture_covers snapshot inventory
  rw [← idxOf_lt_iff covers]
  intro address met
  rw [← placed_iff covers identity above met]
  exact (attributeCapture_placed_iff snapshot inventory).1 attributed.threads address met

end

/-- Two modules, the second mapped in two parts. -/
def twoModules : List LoadedModule :=
  [⟨4096, 4096, [], some ['/', 'a', '/', 'b'], none, none⟩,
    ⟨32768, 8192, [⟨32768, 33024⟩, ⟨36864, 40960⟩], none, some "id", none⟩]

theorem twoModules_above :
    ∀ module ∈ twoModules, ∀ address, module.contains address = true → module.base ≤ address := by
  intro module member address holds
  simp only [twoModules, mem_cons, not_mem_nil, or_false] at member
  rcases member with rfl | rfl <;>
    simp [LoadedModule.contains, LoadedModule.range, AddressRange.contains,
      le_iff_toNat_le] at holds ⊢ <;> omega

/-- One module over one address, at the `place`-th address. -/
def unitModule (place : Nat) : LoadedModule where
  base := UInt64.ofNat place
  size := 1
  mappedRanges := []
  path := none
  debugId := none
  debugFile := none

/-- A module at each of the first `count` addresses. -/
def unitModules (count : Nat) : List LoadedModule := (List.range count).map unitModule

/-- A capture with a frame at each of the first `count` addresses. -/
def unitCapture (count : Nat) : List CapturedThread := [⟨1, (List.range count).map UInt64.ofNat⟩]

theorem unitModule_contains_iff {place : Nat} (small : place + 1 < 2 ^ 64) (address : UInt64) :
    (unitModule place).contains address = true ↔ address = UInt64.ofNat place := by
  have start : (ofNat place).toNat = place := by simp; omega
  have stop : (ofNat place + 1).toNat = place + 1 := by
    simp
    omega
  simp only [LoadedModule.contains, LoadedModule.range, unitModule, AddressRange.contains,
    isEmpty_nil, if_true, head?_nil, Bool.and_eq_true, decide_eq_true_eq,
    le_iff_toNat_le, lt_iff_toNat_lt, ← UInt64.toNat_inj]
  omega

theorem unitModules_above (small : count < 2 ^ 64) :
    ∀ module ∈ unitModules count, ∀ address, module.contains address = true →
      module.base ≤ address := by
  intro module member address holds
  obtain ⟨place, inside, rfl⟩ := mem_map.1 member
  rw [List.mem_range] at inside
  rw [(unitModule_contains_iff (by omega) address).1 holds]
  exact UInt64.le_refl _

theorem unitModules_identity (count : Nat) :
    ∀ first ∈ unitModules count, ∀ second ∈ unitModules count, first.base = second.base →
      first.identity = second.identity := by
  intro first inFirst second inSecond _
  obtain ⟨_, _, rfl⟩ := mem_map.1 inFirst
  obtain ⟨_, _, rfl⟩ := mem_map.1 inSecond
  rfl

/-- Every module of the unit inventory is referenced. -/
theorem le_length_bases_unitModules (small : count < 2 ^ 64) :
    count ≤ (bases (unitModules count) (addressesOf (unitCapture count))).length := by
  have distinct : ((List.range count).map ofNat).Nodup := by
    refine List.Nodup.map_on ?_ nodup_range
    intro first inFirst second inSecond same
    rw [List.mem_range] at inFirst inSecond
    rw [← UInt64.toNat_inj] at same
    simp only [toNat_ofNat'] at same
    omega
  have within : (List.range count).map ofNat ⊆
      bases (unitModules count) (addressesOf (unitCapture count)) := by
    intro base member
    obtain ⟨place, inside, rfl⟩ := mem_map.1 member
    have holds : ∃ module ∈ unitModules count, module.contains (ofNat place) = true :=
      ⟨unitModule place, mem_map_of_mem inside,
        (unitModule_contains_iff (by have := List.mem_range.1 inside; omega) _).2 rfl⟩
    cases owned : owner (unitModules count) (ofNat place) with
    | none =>
      obtain ⟨module, known, holds⟩ := holds
      simp [owner_none.1 owned module known] at holds
    | some module =>
      obtain ⟨known, holds⟩ := owner_spec owned
      obtain ⟨other, within, rfl⟩ := mem_map.1 known
      have := List.mem_range.1 within
      have same := (unitModule_contains_iff (by omega) _).1 holds
      have met : ofNat place ∈ addressesOf (unitCapture count) := by
        simpa [addressesOf, unitCapture] using member
      exact mem_bases.2 ⟨_, met, _, owned, same.symm⟩
  simpa using (subperm_of_subset distinct within).length_le

end KernalApi.Snapshot
