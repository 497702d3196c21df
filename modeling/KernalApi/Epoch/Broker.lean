import KernalApi.Semantics.Interleaving
import Mathlib.Algebra.GroupWithZero.Nat
import Mathlib.Data.List.Basic

/-!
# The epoch broker

One ticker task per broker publishes cancellation and deadlines to every
registered execution. Registrations are weak references to entries; the ticker
is launched with the first registration, and the last one to finish bumps the
generation so that the ticker it leaves behind returns. Registering, finishing and one
round of the ticker are sections under the broker's lock.
-/

namespace KernalApi.Epoch

open Semantics

/-- Who ended a logical execution. -/
inductive Winner
  | pending
  | cancelled
  | deadlineExceeded
  | completed
deriving DecidableEq, Repr

/-- `compare_exchange` from `EPOCH_PENDING`. -/
def Winner.compareExchange (winner terminal : Winner) : Winner :=
  if winner = .pending then terminal else winner

structure LogicalEpoch where
  cancellation : Nat
  deadline : Nat
  winner : Winner

/-- An entry with the owners of its `Arc`: its registration, and the ticker tasks
that upgraded it. -/
structure EpochEntry where
  logical : Nat
  registration : Bool
  upgraded : List Nat

def EpochEntry.strongCount (entry : EpochEntry) : Nat :=
  (if entry.registration then 1 else 0) + entry.upgraded.length

/-- The clock and the cancellation tokens, which nobody here controls. -/
structure Surroundings where
  now : Nat
  isCancelled : Nat → Bool

/-- The clock goes forward and a cancelled token stays cancelled. -/
def Surroundings.Later (before after : Surroundings) : Prop :=
  before.now ≤ after.now ∧ ∀ token, before.isCancelled token = true → after.isCancelled token = true

structure SketchEpochLimits where
  wallClockDeadline : Nat
  tickInterval : Nat
  maximumActiveRegistrations : Nat
  valid : wallClockDeadline ≠ 0 ∧ tickInterval ≠ 0 ∧ maximumActiveRegistrations ≠ 0

/-- The locked state of a broker, with the logical executions and entries it
refers to by their position, the number of ticker tasks launched so far, and those
whose handle was dropped. -/
structure EpochBroker where
  runtime : Option Nat
  registrations : List Nat
  generation : UInt64
  ticker : Option (UInt64 × Nat)
  logicals : List LogicalEpoch
  entries : List EpochEntry
  launched : Nat
  aborted : List Nat
  surroundings : Surroundings

inductive SketchExecutionError
  | epochRegistrationLimitExceeded
  | foreignRuntime
deriving DecidableEq, Repr

/-- Where a registration stands, from the call that asks for it to the end of the
caller that finished it, or where a ticker task stands. -/
inductive Task
  | registerRoot (runtime cancellation : Nat)
  | registerChild (logical : Nat)
  | registerEntry (runtime logical : Nat) (completesLogical : Bool)
  | refused (error : SketchExecutionError)
  | registered (entry : Nat) (completesLogical : Bool)
  | finished (entry : Nat) (ticker : Option Nat)
  | joining (ticker : Nat)
  | sleeping (generation : UInt64) (task : Nat)
  | waking (generation : UInt64) (task : Nat) (entries : List Nat)
  | returned

/-- How a section is taken: a round of the ticker sees the surroundings anew at
every entry; a task handle is dropped, or a task whose handle was dropped ends
at its next yield. -/
inductive Choice
  | proceed
  | abort
  | round (moments : List Surroundings)

namespace EpochBroker

variable (broker : EpochBroker)

/-- `strong_count() != 0`. -/
def alive (entry : Nat) : Bool := broker.entries[entry]?.any fun entry => entry.strongCount != 0

/-- The winner of a logical execution. -/
def winner (logical : Nat) : Option Winner := broker.logicals[logical]?.map LogicalEpoch.winner

/-- The logical execution of an entry. -/
def logicalOf (entry : Nat) : Option Nat := broker.entries[entry]?.map EpochEntry.logical

def retainAlive : EpochBroker :=
  { broker with registrations := broker.registrations.filter broker.alive }

def modifyEntry (entry : Nat) (change : EpochEntry → EpochEntry) : EpochBroker :=
  { broker with entries := broker.entries.modify entry change }

def registerEntry (limits : SketchEpochLimits) (runtime logical : Nat) (completesLogical : Bool) :
    Task × EpochBroker × Option Task :=
  let broker := broker.retainAlive
  if broker.winner logical ≠ some .pending then
    (.refused .epochRegistrationLimitExceeded, broker, none)
  else if limits.maximumActiveRegistrations ≤ broker.registrations.length then
    (.refused .epochRegistrationLimitExceeded, broker, none)
  else if broker.runtime.any (· != runtime) then (.refused .foreignRuntime, broker, none)
  else
    let entry := broker.entries.length
    let broker := { broker with
      runtime := some runtime
      entries := broker.entries ++ [EpochEntry.mk logical true []]
      registrations := broker.registrations ++ [entry] }
    match broker.ticker with
    | some _ => (.registered entry completesLogical, broker, none)
    | none =>
      let generation := broker.generation + 1
      (.registered entry completesLogical,
        { broker with
          generation := generation
          ticker := some (generation, broker.launched)
          launched := broker.launched + 1 },
        some (.sleeping generation broker.launched))

/-- Cancellation wins over a deadline seen at the same look. -/
def terminal (logical : LogicalEpoch) (moment : Surroundings) : Winner :=
  if moment.isCancelled logical.cancellation then .cancelled
  else if logical.deadline ≤ moment.now then .deadlineExceeded
  else .pending

/-- The ticker looks at one entry. -/
def publish (entry : Nat) (moment : Surroundings) : EpochBroker :=
  match broker.logicalOf entry with
  | none => broker
  | some logical =>
    { broker with
      surroundings := moment
      logicals := broker.logicals.modify logical fun logical =>
        { logical with winner := logical.winner.compareExchange (terminal logical moment) } }

/-- The ticker looks at its entries in turn. -/
def publishAll : List (Nat × Surroundings) → EpochBroker → EpochBroker
  | [], broker => broker
  | (entry, moment) :: rest, broker => publishAll rest (broker.publish entry moment)

/-- Every listed entry gains the ticker task as an owner. -/
def upgradeAll (task : Nat) (entries : List Nat) : EpochBroker :=
  { broker with
    entries := broker.entries.mapIdx fun index entry =>
      if index ∈ entries then { entry with upgraded := task :: entry.upgraded } else entry }

/-- Every listed entry loses the ticker task as an owner. -/
def dropAll (task : Nat) (entries : List Nat) : EpochBroker :=
  { broker with
    entries := broker.entries.mapIdx fun index entry =>
      if index ∈ entries then { entry with upgraded := entry.upgraded.erase task } else entry }

/-- One round of the ticker under the lock. -/
def tick (generation : UInt64) (task : Nat) (moments : List Surroundings) : Task × EpochBroker :=
  if broker.generation ≠ generation then (.returned, broker)
  else
    let broker := broker.retainAlive
    let entries := broker.registrations.filter broker.alive
    let broker := publishAll (entries.zip moments) (broker.upgradeAll task entries)
    if entries.isEmpty then (.returned, broker) else (.waking generation task entries, broker)

/-- The registration of a root completes its logical execution. -/
def complete (entry : Nat) (completesLogical : Bool) : EpochBroker :=
  match completesLogical, broker.logicalOf entry with
  | true, some logical =>
    { broker with logicals := broker.logicals.modify logical fun logical =>
        { logical with winner := logical.winner.compareExchange .completed } }
  | _, _ => broker

def finishRegistration (entry : Nat) (completesLogical : Bool) : Option Nat × EpochBroker :=
  let broker := broker.complete entry completesLogical
  let broker := { broker with
    registrations := broker.registrations.filter fun candidate =>
      broker.alive candidate && candidate != entry }
  if broker.registrations.isEmpty then
    (broker.ticker.map Prod.snd, { broker with
      generation := broker.generation + 1, ticker := none })
  else (none, broker)

/-- The `Arc` of a registration is dropped. -/
def dropEntry (entry : Nat) : EpochBroker :=
  broker.modifyEntry entry fun entry => { entry with registration := false }

end EpochBroker

/-- The next section of a task, with the ticker it launches. -/
def Task.step (limits : SketchEpochLimits) (task : Task) (choice : Choice) (broker : EpochBroker) :
    Option (Task × EpochBroker × Option Task) :=
  match task, choice with
  | .registerRoot runtime cancellation, .proceed =>
    some (.registerEntry runtime broker.logicals.length true,
      { broker with logicals := broker.logicals ++
          [⟨cancellation, broker.surroundings.now + limits.wallClockDeadline, .pending⟩] }, none)
  | .registerChild logical, .proceed =>
    match broker.runtime with
    | none => some (.refused .foreignRuntime, broker, none)
    | some runtime => some (.registerEntry runtime logical false, broker, none)
  | .registerEntry runtime logical completesLogical, .proceed =>
    some (broker.registerEntry limits runtime logical completesLogical)
  | .registered entry completesLogical, .proceed =>
    let finished := broker.finishRegistration entry completesLogical
    some (.finished entry finished.1, finished.2, none)
  | .finished entry none, .proceed => some (.returned, broker.dropEntry entry, none)
  | .finished entry (some ticker), .proceed => some (.joining ticker, broker.dropEntry entry, none)
  | .finished entry (some ticker), .abort =>
    let broker := broker.dropEntry entry
    some (.returned, { broker with aborted := ticker :: broker.aborted }, none)
  | .joining _, .proceed => some (.returned, broker, none)
  | .joining ticker, .abort =>
    some (.returned, { broker with aborted := ticker :: broker.aborted }, none)
  | .sleeping generation task, .round moments =>
    let ticked := broker.tick generation task moments
    some (ticked.1, ticked.2, none)
  | .sleeping _ task, .abort =>
    if task ∈ broker.aborted then some (.returned, broker, none) else none
  | .waking generation task entries, .proceed =>
    some (.sleeping generation task, broker.dropAll task entries, none)
  | _, _ => none

/-- A round sees the surroundings move on from where they are, once per entry. -/
def Choice.Timely (choice : Choice) (broker : EpochBroker) : Prop :=
  match choice with
  | .round moments =>
    moments.length = broker.registrations.length ∧
      List.IsChain Surroundings.Later (broker.surroundings :: moments)
  | _ => True

/-- Any number of executions and their tickers around one broker. -/
def brokerMachine (limits : SketchEpochLimits) : Machine EpochBroker Task Choice where
  Initial := fun broker => broker.runtime = none ∧ broker.registrations = [] ∧
    broker.generation = 0 ∧
    broker.ticker = none ∧ broker.entries = [] ∧ broker.launched = 0 ∧ broker.aborted = []
  Entry := fun task => (∃ runtime cancellation, task = .registerRoot runtime cancellation) ∨
    ∃ logical, task = .registerChild logical
  Step := fun task choice broker task' broker' launched =>
    choice.Timely broker ∧ task.step limits choice broker = some (task', broker', launched)
  Drift := fun broker broker' => ∃ surroundings, broker.surroundings.Later surroundings ∧
    broker' = { broker with surroundings := surroundings }

end KernalApi.Epoch
