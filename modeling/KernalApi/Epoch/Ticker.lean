import KernalApi.Epoch.Broker

/-!
# One ticker for every broker in use

What every reachable state of a broker keeps: the list holds exactly the entries
whose registrations are still held, the slot holds the handle of the ticker that was launched
last, and generations are odd while the list is in use and even while it is empty.
-/

namespace KernalApi.Epoch

open Semantics List EpochBroker

variable {entry runtime logical id : Nat} {acting : Option Nat} {after shared : EpochBroker}
  {logicals : List LogicalEpoch} {task' : Task} {completesLogical : Bool} {generation : UInt64}
  {launched : Option Task} {slot : UInt64 × Nat}
  {limits : SketchEpochLimits} {broker broker' : EpochBroker}

namespace EpochBroker

/-- Whether the registration of an entry still owns it. -/
def held (broker : EpochBroker) (entry : Nat) : Option Bool :=
  broker.entries[entry]?.map EpochEntry.registration

/-- A broker in use has the handle of the ticker launched last; an idle one has none. -/
def Slot (broker : EpochBroker) : Prop :=
  broker.registrations = [] ∧ broker.ticker = none ∧
      broker.generation = UInt64.ofNat (2 * broker.launched) ∨
    ∃ last, broker.registrations ≠ [] ∧ broker.launched = last + 1 ∧
      broker.ticker = some (broker.generation, last) ∧
        broker.generation = UInt64.ofNat (2 * last + 1)

/-- A ticker that was launched and is not in the slot any more. -/
def Retired (broker : EpochBroker) (task : Nat) : Prop :=
  task < broker.launched ∧ ∀ slot ∈ broker.ticker, slot.2 ≠ task

/-- What every reachable broker satisfies. -/
structure Sound (limits : SketchEpochLimits) (broker : EpochBroker) : Prop where
  bounded : broker.registrations.length ≤ limits.maximumActiveRegistrations
  nodup : broker.registrations.Nodup
  held : ∀ entry ∈ broker.registrations, broker.held entry = some true
  slot : broker.Slot
  aborted : ∀ task ∈ broker.aborted, broker.Retired task

theorem alive_of_held (owned : broker.held entry = some true) : broker.alive entry = true := by
  obtain ⟨found, present, owns⟩ := Option.map_eq_some_iff.mp owned
  simp [alive, present, EpochEntry.strongCount, owns]

/-- Pruning dead entries removes nothing. -/
theorem Sound.filter_alive (sound : broker.Sound limits) :
    broker.registrations.filter broker.alive = broker.registrations :=
  filter_eq_self.mpr fun _ member => alive_of_held (sound.held _ member)

theorem Sound.retainAlive (sound : broker.Sound limits) : broker.retainAlive = broker := by
  simp [EpochBroker.retainAlive, sound.filter_alive]

/-- A change that leaves the list, the slot and the owners of entries alone. -/
structure Quiet (before after : EpochBroker) : Prop where
  registrations : after.registrations = before.registrations
  generation : after.generation = before.generation
  ticker : after.ticker = before.ticker
  launched : after.launched = before.launched
  aborted : after.aborted = before.aborted
  held : ∀ entry, after.held entry = before.held entry

theorem Quiet.refl (broker : EpochBroker) : Quiet broker broker :=
  ⟨rfl, rfl, rfl, rfl, rfl, fun _ => rfl⟩

theorem Quiet.trans {first second third : EpochBroker} (before : Quiet first second)
    (after : Quiet second third) : Quiet first third where
  registrations := after.registrations.trans before.registrations
  generation := after.generation.trans before.generation
  ticker := after.ticker.trans before.ticker
  launched := after.launched.trans before.launched
  aborted := after.aborted.trans before.aborted
  held := fun entry => (after.held entry).trans (before.held entry)

theorem Quiet.sound (quiet : Quiet broker broker') (sound : broker.Sound limits) :
    broker'.Sound limits where
  bounded := quiet.registrations ▸ sound.bounded
  nodup := quiet.registrations ▸ sound.nodup
  held := by
    intro entry member
    rw [quiet.held]
    exact sound.held entry (quiet.registrations ▸ member)
  slot := by
    simp only [Slot, quiet.registrations, quiet.generation, quiet.ticker, quiet.launched]
    exact sound.slot
  aborted := by
    intro task member
    rw [quiet.aborted] at member
    simp only [Retired, quiet.ticker, quiet.launched]
    exact sound.aborted task member

/-- Entries neither come nor go: each is held as before. -/
theorem Quiet.length_entries (quiet : Quiet broker broker') :
    broker'.entries.length = broker.entries.length := by
  have owners : broker'.entries.map EpochEntry.registration =
      broker.entries.map EpochEntry.registration :=
    ext_getElem? fun entry => by simpa [EpochBroker.held] using quiet.held entry
  simpa using congrArg length owners

theorem publish_quiet (broker : EpochBroker) (entry : Nat) (moment : Surroundings) :
    Quiet broker (broker.publish entry moment) := by
  unfold publish
  split
  · exact .refl _
  exact ⟨rfl, rfl, rfl, rfl, rfl, fun _ => rfl⟩

theorem publishAll_quiet (visits : List (Nat × Surroundings)) (broker : EpochBroker) :
    Quiet broker (publishAll visits broker) := by
  induction visits generalizing broker with
  | nil => exact .refl _
  | cons visit rest ih =>
    exact (publish_quiet broker visit.1 visit.2).trans (ih _)

/-- Owners that are ticker tasks come and go without touching the registrations. -/
theorem mapIdx_quiet (broker : EpochBroker) {change : Nat → EpochEntry → EpochEntry}
    (kept : ∀ index entry, (change index entry).registration = entry.registration) :
    Quiet broker { broker with entries := broker.entries.mapIdx change } := by
  refine ⟨rfl, rfl, rfl, rfl, rfl, ?_⟩
  intro entry
  simp only [held, getElem?_mapIdx, Option.map_map]
  congr 1
  funext found
  exact kept entry found

theorem upgradeAll_quiet (broker : EpochBroker) (task : Nat) (entries : List Nat) :
    Quiet broker (broker.upgradeAll task entries) := by
  apply mapIdx_quiet broker
  intro index entry
  split <;> rfl

/-- A round of a ticker of another generation returns; one of the current generation
visits every registration, and returns only when there is none. -/
theorem Sound.tick_cases (sound : broker.Sound limits) (generation : UInt64) (task : Nat)
    (moments : List Surroundings) :
    broker.generation ≠ generation ∧ broker.tick generation task moments = (.returned, broker) ∨
    broker.generation = generation ∧ broker.registrations = [] ∧
      broker.tick generation task moments = (.returned, broker.upgradeAll task []) ∨
    broker.generation = generation ∧ broker.registrations ≠ [] ∧
      broker.tick generation task moments = (.waking generation task broker.registrations,
        publishAll (broker.registrations.zip moments)
          (broker.upgradeAll task broker.registrations)) := by
  unfold tick
  by_cases stale : broker.generation ≠ generation
  · exact .inl ⟨stale, by rw [if_pos stale]⟩
  have current : broker.generation = generation := not_not.mp stale
  rw [if_neg stale]
  simp only [sound.retainAlive, sound.filter_alive]
  refine .inr ?_
  by_cases idle : broker.registrations = []
  · rw [idle]
    exact .inl ⟨current, rfl, rfl⟩
  · rw [if_neg (by simpa using idle)]
    exact .inr ⟨current, idle, rfl⟩

/-- A broker with one more registration. -/
def joined (broker : EpochBroker) (runtime logical : Nat) : EpochBroker :=
  { broker with
    runtime := some runtime
    entries := broker.entries ++ [EpochEntry.mk logical true []]
    registrations := broker.registrations ++ [broker.entries.length] }

/-- A broker with a new ticker in its slot. -/
def ticking (broker : EpochBroker) : EpochBroker :=
  { broker with
    generation := broker.generation + 1
    ticker := some (broker.generation + 1, broker.launched)
    launched := broker.launched + 1 }

/-- A registration is refused and leaves the broker as it was, or it is added below the limit to a
logical execution that is still pending, and launches a ticker when there was none. -/
theorem Sound.registerEntry_cases (sound : broker.Sound limits) (runtime logical : Nat)
    (completesLogical : Bool) :
    (∃ error, broker.registerEntry limits runtime logical completesLogical =
      (.refused error, broker, none)) ∨
    (broker.winner logical = some .pending ∧
      broker.registrations.length < limits.maximumActiveRegistrations ∧
      ((broker.ticker ≠ none ∧ broker.registerEntry limits runtime logical completesLogical
          = (.registered broker.entries.length completesLogical, broker.joined runtime logical,
            none)) ∨
        (broker.ticker = none ∧ broker.registerEntry limits runtime logical completesLogical
          = (.registered broker.entries.length completesLogical,
            (broker.joined runtime logical).ticking,
              some (.sleeping (broker.generation + 1) broker.launched))))) := by
  unfold registerEntry
  simp only [sound.retainAlive]
  by_cases past : broker.winner logical ≠ some .pending
  · exact .inl ⟨_, by rw [if_pos past]⟩
  rw [if_neg past]
  by_cases full : limits.maximumActiveRegistrations ≤ broker.registrations.length
  · exact .inl ⟨_, by rw [if_pos full]⟩
  rw [if_neg full]
  by_cases foreign : broker.runtime.any (· != runtime) = true
  · exact .inl ⟨_, by rw [if_pos foreign]⟩
  rw [if_neg foreign]
  refine .inr ⟨not_not.mp past, Nat.lt_of_not_le full, ?_⟩
  cases slot : broker.ticker with
  | none => exact .inr ⟨rfl, rfl⟩
  | some => exact .inl ⟨by simp, by simp [joined, slot]⟩

/-- The registrations that stay when one is finished. -/
def others (broker : EpochBroker) (entry : Nat) : List Nat :=
  broker.registrations.filter (· != entry)

/-- Finishing removes one registration; the last one to finish also empties the slot. -/
theorem Sound.finishRegistration_cases (sound : broker.Sound limits) (entry : Nat)
    (completesLogical : Bool) :
    (broker.others entry ≠ [] ∧ broker.finishRegistration entry completesLogical
      = (none, { broker with
          logicals := (broker.complete entry completesLogical).logicals
          registrations := broker.others entry })) ∨
    (broker.others entry = [] ∧ broker.finishRegistration entry completesLogical
      = (broker.ticker.map Prod.snd, { broker with
          logicals := (broker.complete entry completesLogical).logicals
          registrations := []
          generation := broker.generation + 1
          ticker := none })) := by
  have remaining : broker.registrations.filter (fun candidate =>
      broker.alive candidate && candidate != entry) = broker.others entry := by
    apply filter_congr
    intro candidate member
    rw [alive_of_held (sound.held candidate member), Bool.true_and]
  have completed : broker.complete entry completesLogical
      = { broker with logicals := (broker.complete entry completesLogical).logicals } := by
    unfold complete
    split <;> rfl
  rw [finishRegistration, completed]
  by_cases last : broker.others entry = []
  · refine .inr ⟨last, ?_⟩
    simp only [alive] at remaining ⊢
    simp [remaining, last]
  · refine .inl ⟨last, ?_⟩
    simp only [alive] at remaining ⊢
    simp [remaining, last]

end EpochBroker

/-- The entry a task stands for. -/
def Task.entry? : Task → Option Nat
  | .registered entry _ => some entry
  | .finished entry _ => some entry
  | _ => none

/-- The generation and number of a ticker task that runs. -/
def Task.ticker? : Task → Option (UInt64 × Nat)
  | .sleeping generation task => some (generation, task)
  | .waking generation task _ => some (generation, task)
  | _ => none

/-- The ticker whose handle a task holds. -/
def Task.handle? : Task → Option Nat
  | .finished _ ticker => ticker
  | .joining ticker => some ticker
  | _ => none

/-- What holds of a task wherever it stands. -/
structure Task.Placed (task : Task) (broker : EpochBroker) : Prop where
  known : ∀ entry, task.entry? = some entry → entry < broker.entries.length
  registered : ∀ entry completesLogical, task = .registered entry completesLogical →
    entry ∈ broker.registrations
  finished : ∀ entry ticker, task = .finished entry ticker → entry ∉ broker.registrations
  handle : ∀ ticker, task.handle? = some ticker → broker.Retired ticker
  ticker : ∀ slot, task.ticker? = some slot →
    slot.2 < broker.launched ∧ slot.1 = UInt64.ofNat (2 * slot.2 + 1)

/-- What a section of one task leaves for the others. -/
structure Evolves (acting : Option Nat) (before after : EpochBroker) : Prop where
  entries : before.entries.length ≤ after.entries.length
  launched : before.launched ≤ after.launched
  retired : ∀ {task}, before.Retired task → after.Retired task
  members : ∀ {entry}, entry < before.entries.length → acting ≠ some entry →
    (entry ∈ after.registrations ↔ entry ∈ before.registrations)

variable {task : Task}

theorem Task.Placed.evolves {before : EpochBroker}
    (placed : task.Placed before) (evolves : Evolves acting before after)
    (apart : ∀ entry, task.entry? = some entry → acting ≠ some entry) : task.Placed after where
  known := fun entry here => Nat.lt_of_lt_of_le (placed.known entry here) evolves.entries
  registered := by
    rintro entry completesLogical rfl
    have before := placed.registered entry completesLogical rfl
    exact (evolves.members (placed.known entry rfl) (apart entry rfl)).mpr before
  finished := by
    rintro entry ticker rfl
    have before := placed.finished entry ticker rfl
    exact fun member => before ((evolves.members (placed.known entry rfl) (apart entry rfl)).mp
      member)
  handle := fun ticker here => evolves.retired (placed.handle ticker here)
  ticker := fun slot here =>
    ⟨Nat.lt_of_lt_of_le (placed.ticker slot here).1 evolves.launched, (placed.ticker slot here).2⟩

namespace EpochBroker

theorem lt_of_held {owned : Bool} (found : broker.held entry = some owned) :
    entry < broker.entries.length := by
  obtain ⟨_, present, _⟩ := Option.map_eq_some_iff.mp found
  exact (List.getElem?_eq_some_iff.mp present).1

/-- A slot that is in use is filled, so it stays what it is when one more registration joins. -/
theorem Slot.joined (slot : broker.Slot) (filled : broker.ticker ≠ none) :
    (broker.joined runtime logical).Slot := by
  rcases slot with ⟨_, empty, _⟩ | ⟨last, _, rest⟩
  · exact absurd empty filled
  · refine .inr ⟨last, ?_, rest⟩
    simp [EpochBroker.joined]

/-- The generation after that of an idle broker is odd. -/
theorem Slot.next_odd (slot : broker.Slot) (empty : broker.ticker = none) :
    broker.generation + 1 = UInt64.ofNat (2 * broker.launched + 1) := by
  rcases slot with ⟨_, _, generation⟩ | ⟨_, _, _, filled, _⟩
  · rw [generation, UInt64.ofNat_add]
    rfl
  · rw [empty] at filled
    cases filled

/-- The first registration of an idle broker fills the slot. -/
theorem Slot.ticking (slot : broker.Slot) (empty : broker.ticker = none) :
    (broker.joined runtime logical).ticking.Slot :=
  .inr ⟨broker.launched, by simp [EpochBroker.ticking, EpochBroker.joined], rfl, rfl,
    slot.next_odd empty⟩

/-- A registration that joins below the limit keeps a sound broker sound, whatever becomes of the
slot. -/
theorem Sound.of_joined (sound : broker.Sound limits)
    (room : broker.registrations.length < limits.maximumActiveRegistrations)
    (registrations : after.registrations = (broker.joined runtime logical).registrations)
    (held : ∀ entry, after.held entry = (broker.joined runtime logical).held entry)
    (slot : after.Slot) (aborted : after.aborted = broker.aborted)
    (retired : ∀ {task}, broker.Retired task → after.Retired task) : after.Sound limits where
  bounded := by
    rw [registrations]
    simp only [joined, length_append, length_singleton]
    omega
  nodup := by
    have fresh : broker.entries.length ∉ broker.registrations := fun member =>
      Nat.lt_irrefl _ (lt_of_held (sound.held _ member))
    rw [registrations]
    refine nodup_append.mpr ⟨sound.nodup, by simp, ?_⟩
    intro entry member last here same
    rw [mem_singleton.mp here] at same
    exact fresh (same ▸ member)
  held := by
    intro entry member
    rw [registrations] at member
    rw [held]
    simp only [joined, mem_append, mem_singleton] at member
    rcases member with old | rfl
    · have owned := sound.held entry old
      simpa only [EpochBroker.held, joined, getElem?_append_left (lt_of_held owned)] using owned
    · simp [EpochBroker.held, joined]
  slot := slot
  aborted := by
    intro task member
    rw [aborted] at member
    exact retired (sound.aborted task member)

theorem retired_ticking {task : Nat} (retired : broker.Retired task) :
    (broker.joined runtime logical).ticking.Retired task := by
  refine ⟨Nat.lt_succ_of_lt retired.1, ?_⟩
  intro slot filled same
  cases filled
  exact Nat.ne_of_lt retired.1 same.symm

/-- A broker in use stays in use when others remain. -/
theorem Slot.others (slot : broker.Slot)
    (listed : entry ∈ broker.registrations) (rest : broker.others entry ≠ []) :
    ({ broker with logicals := logicals, registrations := broker.others entry } :
      EpochBroker).Slot := by
  rcases slot with ⟨idle, _⟩ | ⟨last, _, filled⟩
  · rw [idle] at listed
    cases listed
  · exact .inr ⟨last, rest, filled⟩

/-- The last registration to finish leaves an even generation and takes the handle of a ticker
that is retired with it. -/
theorem Slot.emptied (slot : broker.Slot) (listed : entry ∈ broker.registrations) :
    ({ broker with
        logicals := logicals, registrations := [], generation := broker.generation + 1,
        ticker := none } : EpochBroker).Slot ∧
      ∀ task ∈ broker.ticker.map Prod.snd, task < broker.launched := by
  rcases slot with ⟨idle, _⟩ | ⟨last, _, launched, filled, generation⟩
  · rw [idle] at listed
    cases listed
  refine ⟨.inl ⟨rfl, rfl, ?_⟩, ?_⟩
  · show broker.generation + 1 = UInt64.ofNat (2 * broker.launched)
    rw [generation, launched, show 2 * (last + 1) = 2 * last + 1 + 1 from rfl,
      UInt64.ofNat_add (2 * last + 1)]
    rfl
  intro task here
  rw [filled] at here
  cases here
  omega

theorem mem_others {other : Nat} :
    other ∈ broker.others entry ↔ other ∈ broker.registrations ∧ other ≠ entry := by
  simp [others]

/-- A registration that finishes keeps a sound broker sound. -/
theorem Sound.of_others (sound : broker.Sound limits)
    (registrations : after.registrations = broker.others entry)
    (entries : after.entries = broker.entries)
    (slot : after.Slot) (aborted : after.aborted = broker.aborted)
    (retired : ∀ {task}, broker.Retired task → after.Retired task) : after.Sound limits where
  bounded := by
    rw [registrations]
    exact Nat.le_trans (length_filter_le _ _) sound.bounded
  nodup := by
    rw [registrations]
    exact sound.nodup.filter _
  held := by
    intro other member
    rw [registrations] at member
    simp only [EpochBroker.held, entries]
    exact sound.held other (mem_others.mp member).1
  slot := slot
  aborted := by
    intro task member
    rw [aborted] at member
    exact retired (sound.aborted task member)

/-- Dropping the entry of a registration that has left the list keeps a broker sound. -/
theorem Sound.dropEntry (sound : broker.Sound limits) (gone : entry ∉ broker.registrations) :
    (broker.dropEntry entry).Sound limits where
  bounded := sound.bounded
  nodup := sound.nodup
  held := by
    intro other member
    have distinct : other ≠ entry := by
      rintro rfl
      exact gone member
    simpa only [EpochBroker.held, EpochBroker.dropEntry, modifyEntry,
      getElem?_modify_ne _ _ distinct.symm] using sound.held other member
  slot := sound.slot
  aborted := sound.aborted

/-- Dropping the handle of a ticker that has left the slot keeps a broker sound. -/
theorem Sound.abort {task : Nat} (sound : broker.Sound limits) (retired : broker.Retired task) :
    ({ broker with aborted := task :: broker.aborted } : EpochBroker).Sound limits where
  bounded := sound.bounded
  nodup := sound.nodup
  held := sound.held
  slot := sound.slot
  aborted := by
    intro other member
    rcases mem_cons.mp member with rfl | member
    · exact retired
    · exact sound.aborted other member

end EpochBroker

theorem EpochBroker.Quiet.evolves (quiet : EpochBroker.Quiet broker broker') :
    Evolves acting broker broker' where
  entries := Nat.le_of_eq quiet.length_entries.symm
  launched := Nat.le_of_eq quiet.launched.symm
  retired := by
    intro task retired
    simpa only [EpochBroker.Retired, quiet.ticker, quiet.launched] using retired
  members := by
    intro entry _ _
    rw [quiet.registrations]

/-- What one section of a task does to the broker and to the task. -/
structure Advance (limits : SketchEpochLimits) (task : Task) (broker : EpochBroker) (task' : Task)
    (broker' : EpochBroker) (launched : Option Task) : Prop where
  sound : broker'.Sound limits
  evolves : Evolves task.entry? broker broker'
  placed : task'.Placed broker'
  entry : ∀ entry, task'.entry? = some entry → task.entry? = some entry ∨
    entry = broker.entries.length
  ticker : ∀ slot, task'.ticker? = some slot → task.ticker? = some slot
  child : ∀ child ∈ launched, ∃ generation, child = .sleeping generation broker.launched ∧
    child.Placed broker'
  /-- The slot keeps a ticker that goes on, or is filled with the one launched here. -/
  serving : ∀ slot, broker'.ticker = some slot →
    broker.ticker = some slot ∧ (task.ticker? = some slot → task'.ticker? = some slot) ∨
      ∃ child ∈ launched, child.ticker? = some slot

/-- A task that stands for no entry is placed with its handle and its ticker. -/
theorem Task.Placed.unlisted (noEntry : task.entry? = none)
    (handle : ∀ ticker, task.handle? = some ticker → broker.Retired ticker)
    (ticker : ∀ slot, task.ticker? = some slot →
      slot.2 < broker.launched ∧ slot.1 = UInt64.ofNat (2 * slot.2 + 1)) : task.Placed broker where
  known := by simp [noEntry]
  registered := by
    rintro entry completesLogical rfl
    cases noEntry
  finished := by
    rintro entry ticker rfl
    cases noEntry
  handle := handle
  ticker := ticker

/-- A task that stands for nothing is placed anywhere. -/
theorem Task.Placed.idle (noEntry : task.entry? = none) (noHandle : task.handle? = none)
    (noTicker : task.ticker? = none) : task.Placed broker :=
  .unlisted noEntry (by simp [noHandle]) (by simp [noTicker])

/-- A quiet section that ends at a point that stands for nothing, by a task that served nobody. -/
theorem Advance.idle (sound : broker.Sound limits)
    (quiet : EpochBroker.Quiet broker broker') (noEntry : task'.entry? = none)
    (noHandle : task'.handle? = none) (noTicker : task'.ticker? = none)
    (unneeded : ∀ slot, broker.ticker = some slot → task.ticker? ≠ some slot) :
    Advance limits task broker task' broker' none where
  sound := quiet.sound sound
  evolves := quiet.evolves
  placed := .idle noEntry noHandle noTicker
  entry := by simp [noEntry]
  ticker := by simp [noTicker]
  child := by simp
  serving := by
    intro slot filled
    rw [quiet.ticker] at filled
    exact .inl ⟨filled, fun here => absurd here (unneeded slot filled)⟩

/-- A quiet section of a ticker that goes on. -/
theorem Advance.goesOn (sound : broker.Sound limits) (placed : task.Placed broker)
    (quiet : EpochBroker.Quiet broker broker') (noEntry : task'.entry? = none)
    (noHandle : task'.handle? = none) (same : task'.ticker? = task.ticker?) :
    Advance limits task broker task' broker' none where
  sound := quiet.sound sound
  evolves := quiet.evolves
  placed := by
    refine .unlisted noEntry (by simp [noHandle]) ?_
    rw [same, quiet.launched]
    exact placed.ticker
  entry := by simp [noEntry]
  ticker := by simp [same]
  child := by simp
  serving := by
    intro slot filled
    rw [quiet.ticker] at filled
    exact .inl ⟨filled, fun here => by rwa [same]⟩

/-- A placed task that has registered the newest entry. -/
theorem Task.Placed.newest (inside : entry < broker.entries.length)
    (listed : entry ∈ broker.registrations) :
    (Task.registered entry completesLogical).Placed broker where
  known := fun other here => by cases here; exact inside
  registered := fun other _ here => by cases here; exact listed
  finished := fun other _ here => by cases here
  handle := fun ticker here => by cases here
  ticker := fun slot here => by cases here

/-- A ticker of its generation. -/
theorem Task.Placed.ticking {task : Nat} (inside : task < broker.launched)
    (odd : generation = UInt64.ofNat (2 * task + 1)) :
    (Task.sleeping generation task).Placed broker :=
  .unlisted rfl (fun ticker here => by cases here) fun slot here =>
    by cases here; exact ⟨inside, odd⟩

/-- A registration that has left the list with the handle of a retired ticker. -/
theorem Task.Placed.leaving {ticker : Option Nat} (inside : entry < broker.entries.length)
    (gone : entry ∉ broker.registrations) (retired : ∀ task ∈ ticker, broker.Retired task) :
    (Task.finished entry ticker).Placed broker where
  known := fun other here => by cases here; exact inside
  registered := fun other _ here => by cases here
  finished := fun other _ here => by cases here; exact gone
  handle := retired
  ticker := fun slot here => by cases here

theorem mem_joined (runtime logical : Nat) (old : entry < broker.entries.length) :
    entry ∈ (broker.joined runtime logical).registrations ↔ entry ∈ broker.registrations := by
  simp only [joined, mem_append, mem_singleton]
  constructor
  · rintro (member | rfl)
    · exact member
    · exact absurd old (Nat.lt_irrefl _)
  · exact Or.inl

theorem Advance.registerEntry (sound : broker.Sound limits) (runtime logical : Nat)
    (completesLogical : Bool) :
    Advance limits (.registerEntry runtime logical completesLogical) broker
      (broker.registerEntry limits runtime logical completesLogical).1
      (broker.registerEntry limits runtime logical completesLogical).2.1
      (broker.registerEntry limits runtime logical completesLogical).2.2 := by
  rcases sound.registerEntry_cases runtime logical completesLogical with
    ⟨error, taken⟩ | ⟨_, room, ⟨filled, taken⟩ | ⟨empty, taken⟩⟩
  · rw [taken]
    exact .idle sound (.refl _) rfl rfl rfl fun _ _ here => by cases here
  · rw [taken]
    exact {
      sound := sound.of_joined room rfl (fun _ => rfl) (sound.slot.joined filled) rfl id
      evolves := ⟨by simp [joined], Nat.le_refl _, id, fun old _ => mem_joined runtime logical old⟩
      placed := .newest (by simp [joined]) (by simp [joined])
      entry := fun entry here => by cases here; exact .inr rfl
      ticker := fun slot here => by cases here
      child := by simp
      serving := fun slot here => .inl ⟨here, fun none => by cases none⟩ }
  · rw [taken]
    exact {
      sound := @EpochBroker.Sound.of_joined runtime logical _ _ _ sound room rfl (fun _ => rfl)
        (sound.slot.ticking empty) rfl retired_ticking
      evolves := ⟨by simp [joined, ticking], Nat.le_succ _,
        retired_ticking, fun old _ => mem_joined runtime logical old⟩
      placed := .newest (by simp [joined, ticking])
        (by simp [joined, ticking])
      entry := fun entry here => by cases here; exact .inr rfl
      ticker := fun slot here => by cases here
      child := by
        intro child launched
        cases launched
        exact ⟨_, rfl, .ticking (Nat.lt_succ_self _) (sound.slot.next_odd empty)⟩
      serving := fun slot here => .inr ⟨_, rfl, here⟩ }

theorem Advance.finish (sound : broker.Sound limits)
    (placed : (Task.registered entry completesLogical).Placed broker) :
    Advance limits (.registered entry completesLogical) broker
      (.finished entry (broker.finishRegistration entry completesLogical).1)
      (broker.finishRegistration entry completesLogical).2 none := by
  have listed := placed.registered entry completesLogical rfl
  have inside := placed.known entry rfl
  rcases sound.finishRegistration_cases entry completesLogical with ⟨rest, taken⟩ | ⟨last, taken⟩
  · rw [taken]
    exact {
      sound := sound.of_others rfl rfl (sound.slot.others listed rest) rfl id
      evolves := ⟨Nat.le_refl _, Nat.le_refl _, id, fun _ distinct => by
        simp [mem_others, Ne.symm (fun same => distinct (congrArg some same))]⟩
      placed := .leaving inside (by simp [mem_others]) (by simp)
      entry := fun _ here => .inl here
      ticker := fun _ here => by cases here
      child := by simp
      serving := fun slot here => .inl ⟨here, fun none => by cases none⟩ }
  · obtain ⟨slot, known⟩ := @EpochBroker.Slot.emptied entry
      (broker.complete entry completesLogical).logicals _ sound.slot listed
    rw [taken]
    exact {
      sound := sound.of_others last.symm rfl slot rfl fun retired =>
        ⟨retired.1, fun _ here => by cases here⟩
      evolves := ⟨Nat.le_refl _, Nat.le_refl _, fun retired =>
        ⟨retired.1, fun _ here => by cases here⟩,
        fun {other} _ distinct => by
          have gone : other ∉ broker.others entry := by simp [last]
          rw [mem_others] at gone
          simpa using fun member => gone ⟨member, fun same => distinct (congrArg some same.symm)⟩⟩
      placed := .leaving inside (by simp) fun task here =>
        ⟨known task here, fun _ none => by cases none⟩
      entry := fun _ here => .inl here
      ticker := fun _ here => by cases here
      child := by simp
      serving := fun slot here => by cases here }

/-- A round of a ticker in its slot goes on: its generation is the current one only while there
is a registration to visit. -/
theorem Advance.tick {task : Nat} (sound : broker.Sound limits)
    (placed : (Task.sleeping generation task).Placed broker) (moments : List Surroundings) :
    Advance limits (.sleeping generation task) broker (broker.tick generation task moments).1
      (broker.tick generation task moments).2 none := by
  have slotted : ∀ slot, broker.ticker = some slot →
      slot.1 = broker.generation ∧ broker.registrations ≠ [] := by
    intro slot filled
    rcases sound.slot with ⟨_, empty, _⟩ | ⟨_, busy, _, full, _⟩
    · rw [empty] at filled
      cases filled
    · rw [full] at filled
      cases filled
      exact ⟨rfl, busy⟩
  rcases sound.tick_cases generation task moments with
    ⟨stale, taken⟩ | ⟨_, idle, taken⟩ | ⟨_, _, taken⟩
  · rw [taken]
    refine .idle sound (.refl _) rfl rfl rfl fun slot filled here => stale ?_
    cases here
    exact ((slotted _ filled).1).symm
  · rw [taken]
    exact .idle sound (upgradeAll_quiet _ _ _) rfl rfl rfl
      fun slot filled _ => (slotted slot filled).2 idle
  · rw [taken]
    exact .goesOn sound placed ((upgradeAll_quiet _ _ _).trans
      (publishAll_quiet _ _)) rfl rfl rfl

/-- The owner of a registration that has left the list drops its entry. -/
theorem Advance.leave {ticker : Option Nat} (sound : broker.Sound limits)
    (placed : (Task.finished entry ticker).Placed broker) (noEntry : task'.entry? = none)
    (noTicker : task'.ticker? = none) (handle : task'.handle? = none ∨ task'.handle? = ticker) :
    Advance limits (.finished entry ticker) broker task' (broker.dropEntry entry) none where
  sound := sound.dropEntry (placed.finished entry ticker rfl)
  evolves := ⟨by simp [dropEntry, modifyEntry], Nat.le_refl _, id, fun _ _ => .rfl⟩
  placed := by
    refine .unlisted noEntry ?_ (by simp [noTicker])
    rcases handle with none | same
    · simp [none]
    · rw [same]
      exact placed.handle
  entry := by simp [noEntry]
  ticker := by simp [noTicker]
  child := by simp
  serving := fun slot here => .inl ⟨here, fun none => by cases none⟩

/-- The handle of a retired ticker is dropped on the way. -/
theorem Advance.aborting {ticker : Nat}
    (advance : Advance limits task broker task' broker' none) (retired : broker'.Retired ticker) :
    Advance limits task broker task' { broker' with aborted := ticker :: broker'.aborted } none
      where
  sound := advance.sound.abort retired
  evolves := ⟨advance.evolves.entries, advance.evolves.launched, advance.evolves.retired,
    advance.evolves.members⟩
  placed := ⟨advance.placed.known, advance.placed.registered, advance.placed.finished,
    advance.placed.handle, advance.placed.ticker⟩
  entry := advance.entry
  ticker := advance.ticker
  child := by simp
  serving := advance.serving

/-- Every section of a placed task advances it. -/
theorem Task.step_advance {choice : Choice} (sound : broker.Sound limits)
    (placed : task.Placed broker)
    (taken : task.step limits choice broker = some (task', broker', launched)) :
    Advance limits task broker task' broker' launched := by
  unfold Task.step at taken
  split at taken
  · cases taken
    exact .idle sound ⟨rfl, rfl, rfl, rfl, rfl, fun _ => rfl⟩ rfl rfl rfl fun _ _ here =>
      by cases here
  · split at taken
    all_goals
      cases taken
      exact .idle sound (.refl _) rfl rfl rfl fun _ _ here => by cases here
  · rename_i runtime logical completesLogical
    have advance := Advance.registerEntry sound runtime logical completesLogical
    rwa [Option.some.inj taken] at advance
  · cases taken
    exact .finish sound placed
  · cases taken
    exact .leave sound placed rfl rfl (.inl rfl)
  · cases taken
    exact .leave sound placed rfl rfl (.inr rfl)
  · cases taken
    exact (Advance.leave sound placed rfl rfl (.inl rfl)).aborting (placed.handle _ rfl)
  · cases taken
    exact .idle sound (.refl _) rfl rfl rfl fun _ _ here => by cases here
  · cases taken
    refine Advance.aborting ?_ (placed.handle _ rfl)
    exact .idle sound (.refl _) rfl rfl rfl fun _ _ here => by cases here
  · cases taken
    exact .tick sound placed _
  · split at taken
    · rename_i dropped
      cases taken
      refine .idle sound (.refl _) rfl rfl rfl fun slot filled here => ?_
      cases here
      exact (sound.aborted _ dropped).2 _ filled rfl
    · cases taken
  · cases taken
    exact .goesOn sound placed (mapIdx_quiet _ fun _ _ => by split <;> rfl) rfl rfl rfl
  · cases taken

/-- Two tasks stand for different entries and are different tickers. -/
def Apart (first second : Task) : Prop :=
  (∀ entry, first.entry? = some entry → second.entry? ≠ some entry) ∧
    ∀ left right, first.ticker? = some left → second.ticker? = some right → left.2 ≠ right.2

theorem Apart.symm {first second : Task} (apart : Apart first second) : Apart second first :=
  ⟨fun entry here there => apart.1 entry there here,
    fun left right here there => (apart.2 right left there here).symm⟩

theorem Apart.idle {first second : Task} (noEntry : first.entry? = none)
    (noTicker : first.ticker? = none) : Apart first second := by
  simp [Apart, noEntry, noTicker]

/-- A task that advances stays apart from the others. -/
theorem Advance.apart {task other : Task}
    (advance : Advance limits task broker task' broker' launched) (placed : other.Placed broker)
    (apart : Apart task other) : Apart task' other := by
  constructor
  · intro entry here there
    rcases advance.entry entry here with same | fresh
    · exact apart.1 entry same there
    · exact Nat.ne_of_lt (placed.known entry there) fresh
  · exact fun left right here there => apart.2 left right (advance.ticker left here) there

/-- The ticker launched by a section is none of those there were. -/
theorem Advance.child_apart {task other child : Task}
    (advance : Advance limits task broker task' broker' launched) (member : child ∈ launched)
    (old : ∀ slot, other.ticker? = some slot → slot.2 < broker.launched) : Apart child other := by
  obtain ⟨-, rfl, _⟩ := advance.child child member
  constructor
  · intro entry here
    cases here
  · intro left right here there same
    cases here
    exact Nat.ne_of_gt (old right there) same

theorem entry_idle (entry : (brokerMachine limits).Entry task) :
    task.entry? = none ∧ task.handle? = none ∧ task.ticker? = none := by
  rcases entry with ⟨_, _, rfl⟩ | ⟨_, rfl⟩ <;> exact ⟨rfl, rfl, rfl⟩

theorem drift_quiet (moved : (brokerMachine limits).Drift broker broker') :
    EpochBroker.Quiet broker broker' := by
  obtain ⟨-, _, rfl⟩ := moved
  exact ⟨rfl, rfl, rfl, rfl, rfl, fun _ => rfl⟩

theorem sound_of_initial (initial : (brokerMachine limits).Initial broker) :
    broker.Sound limits := by
  obtain ⟨_, registrations, generation, ticker, _, launched, aborted⟩ := initial
  refine ⟨?_, ?_, ?_, .inl ⟨registrations, ticker, ?_⟩, ?_⟩
  · simp [registrations]
  · simp [registrations]
  · simp [registrations]
  · rw [generation, launched]
    rfl
  · simp [aborted]

/-- The broker is sound, its tasks are placed, and no two stand for the same. -/
def brokerOutline (limits : SketchEpochLimits) (allowed : Task → Choice → EpochBroker → Prop) :
    (brokerMachine limits).Outline allowed where
  Shared := EpochBroker.Sound limits
  Local := Task.Placed
  Apart := fun first second _ => Apart first second
  symmetric := Apart.symm
  initial := sound_of_initial
  entryLocal := by
    intro task broker entry _
    obtain ⟨noEntry, noHandle, noTicker⟩ := entry_idle entry
    exact .idle noEntry noHandle noTicker
  entryApart := by
    intro task other broker entry _ _
    obtain ⟨noEntry, _, noTicker⟩ := entry_idle entry
    exact .idle noEntry noTicker
  driftShared := fun sound moved => (drift_quiet moved).sound sound
  driftLocal := fun _ placed moved => placed.evolves (drift_quiet moved).evolves
    fun _ _ (none : none = some _) => by cases none
  driftApart := fun _ apart _ => apart
  own := by
    intro task choice broker task' broker' launched sound placed _ step
    have advance := Task.step_advance sound placed step.2
    refine ⟨advance.sound, advance.placed, ?_⟩
    intro child member
    obtain ⟨_, _, childPlaced⟩ := advance.child child member
    refine ⟨childPlaced, (advance.child_apart member ?_).symm⟩
    intro slot here
    exact (placed.ticker slot (advance.ticker slot here)).1
  frame := by
    intro task choice broker task' broker' launched other sound placed otherPlaced apart _ step
    have advance := Task.step_advance sound placed step.2
    refine ⟨otherPlaced.evolves advance.evolves ?_, advance.apart otherPlaced apart, ?_⟩
    · exact fun entry here there => apart.1 entry there here
    · exact fun child member => advance.child_apart member fun slot here =>
        (otherPlaced.ticker slot here).1
  frameApart := fun _ _ _ _ _ _ apart _ _ => apart

variable {allowed : Task → Choice → EpochBroker → Prop} {pool : Pool EpochBroker Task}

/-- Some thread is the ticker of a given generation and number. -/
def Ticks (pool : Pool EpochBroker Task) (id : Nat) (slot : UInt64 × Nat) : Prop :=
  ∃ task, pool.threads id = some task ∧ task.ticker? = some slot

theorem ticks_put {other : Nat}
    (distinct : other ≠ id) (ticks : Ticks pool other slot) :
    Ticks (pool.put shared id task) other slot := by
  obtain ⟨ticker, running, here⟩ := ticks
  exact ⟨ticker, (Pool.put_other distinct).trans running, here⟩

theorem ticks_put_self (here : task.ticker? = some slot) :
    Ticks (pool.put shared id task) id slot :=
  ⟨task, Pool.put_self, here⟩

/-- The ticker in the slot of a reachable broker is running. -/
theorem ticks_of_slot (reachable : (brokerMachine limits).Reachable allowed pool)
    (filled : pool.shared.ticker = some slot) : ∃ id, Ticks pool id slot := by
  refine @Machine.Reachable.induct _ _ _ (brokerMachine limits) allowed
    (fun pool => ∀ slot, pool.shared.ticker = some slot → ∃ id, Ticks pool id slot) pool
    ?_ ?_ reachable slot filled
  · intro broker initial slot filled
    cases (show broker.ticker = none from initial.2.2.2.1).symm.trans filled
  intro pool pool' reached before next slot filled
  have valid := (brokerOutline limits allowed).valid_of_reachable reached
  -- A section after which the acting task still serves leaves some task that does.
  have stays : ∀ {id task task' shared}, pool.threads id = some task →
      pool.shared.ticker = some slot → (task.ticker? = some slot → task'.ticker? = some slot) →
      ∃ other, pool.threads other ≠ none ∧ Ticks (pool.put shared id task') other slot := by
    intro id task task' shared running kept goesOn
    obtain ⟨other, ticker, found, here⟩ := before slot kept
    refine ⟨other, by simp [found], ?_⟩
    by_cases same : other = id
    · subst same
      cases running.symm.trans found
      exact ticks_put_self (goesOn here)
    · exact ticks_put same ⟨ticker, found, here⟩
  cases next with
  | enter id vacant =>
    obtain ⟨other, task, running, here⟩ := before slot filled
    exact ⟨other, ticks_put (Pool.ne_of_vacant vacant running) ⟨task, running, here⟩⟩
  | advance id running _ step =>
    have advance := Task.step_advance valid.shared (valid.threads running) step.2
    rcases advance.serving slot filled with ⟨kept, goesOn⟩ | ⟨child, member, _⟩
    · obtain ⟨other, _, ticks⟩ := stays running kept goesOn
      exact ⟨other, ticks⟩
    · cases member
  | launch id childId running vacant _ step =>
    have advance := Task.step_advance valid.shared (valid.threads running) step.2
    rcases advance.serving slot filled with ⟨kept, goesOn⟩ | ⟨_, member, here⟩
    · obtain ⟨other, there, ticks⟩ := stays running kept goesOn
      exact ⟨other, ticks_put (fun same => there (same ▸ vacant)) ticks⟩
    · cases member
      exact ⟨childId, ticks_put_self here⟩
  | drift moved =>
    exact before slot ((drift_quiet moved).ticker ▸ filled)

/-- A ticker of the current generation that fewer than 2^63 later ones followed. -/
def Current (pool : Pool EpochBroker Task) (id : Nat) : Prop :=
  ∃ task, Ticks pool id (pool.shared.generation, task) ∧ pool.shared.launched ≤ task + 2 ^ 63

/-- A broker has registrations exactly while one current ticker runs. -/
theorem registrations_iff_current (reachable : (brokerMachine limits).Reachable allowed pool) :
    pool.shared.registrations ≠ [] ↔ ∃ id, Current pool id ∧ ∀ other, Current pool other →
      other = id := by
  have valid := (brokerOutline limits allowed).valid_of_reachable reachable
  have numbered : ∀ {id slot}, Ticks pool id slot →
      slot.2 < pool.shared.launched ∧ slot.1 = UInt64.ofNat (2 * slot.2 + 1) := by
    rintro id slot ⟨task, running, here⟩
    exact (valid.threads running).ticker slot here
  rcases valid.shared.slot with ⟨idle, _, even⟩ | ⟨last, busy, launched, filled, odd⟩
  · refine ⟨fun busy => absurd idle busy, ?_⟩
    rintro ⟨id, ⟨task, ticks, _⟩, _⟩
    have values := congrArg UInt64.toNat (even.symm.trans (numbered ticks).2)
    simp only [UInt64.toNat_ofNat'] at values
    omega
  refine ⟨fun _ => ?_, fun _ => busy⟩
  obtain ⟨id, ticks⟩ := ticks_of_slot reachable filled
  refine ⟨id, ⟨last, ticks, by omega⟩, ?_⟩
  rintro other ⟨task, otherTicks, recent⟩
  have here := numbered otherTicks
  have congruent := congrArg UInt64.toNat (odd.symm.trans here.2)
  simp only [UInt64.toNat_ofNat'] at congruent
  have same : task = last := by
    omega
  by_contra distinct
  obtain ⟨_, leftRunning, left⟩ := otherTicks
  obtain ⟨_, rightRunning, right⟩ := ticks
  exact (valid.apart distinct leftRunning rightRunning).2 _ _ left right same

end KernalApi.Epoch
