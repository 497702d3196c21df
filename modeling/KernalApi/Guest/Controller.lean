import KernalApi.Semantics.Interleaving
import Mathlib.Algebra.GroupWithZero.Nat
import Mathlib.Data.List.Sort

/-!
# Guest threads of one root execution

A root execution and its children call `thread-spawn` from their own native
threads. One call passes the epoch test, reserves a slice of fuel, is accepted
under the workers' lock, and launches a native thread; every later failure
gives back what was taken. When the root's guest code has returned,
`join_completed` closes the controller and joins until no handle is left.
-/

namespace KernalApi.Guest

open Semantics

def maxGuestThreadsV1 : Nat := 16

/-- A partition of the fuel of one execution. -/
structure SketchFuelLimits where
  total : Nat
  rootSlice : Nat
  childSlice : Nat
  valid : rootSlice ≠ 0 ∧ childSlice ≠ 0 ∧ rootSlice ≤ total ∧ childSlice ≤ total - rootSlice

def SketchFuelLimits.childSliceCapacity (limits : SketchFuelLimits) : Nat :=
  min ((limits.total - limits.rootSlice) / limits.childSlice) maxGuestThreadsV1

structure FuelExecution where
  generation : Nat
  remainingChildSlices : Nat
  childSlice : Nat

structure SessionState where
  activeRoots : Nat
  closing : Bool
  nextFuelGeneration : Nat
  fuel : Option FuelExecution

inductive ChildOutcome
  | completed
  | cancelled
  | deadlineExceeded
  | exited
  | nonzeroExit (code : Int)
  | outOfFuel
  | trapped
  | panicked
deriving DecidableEq, Repr

structure Workers where
  nextTid : Nat
  accepted : Nat
  live : Nat
  closing : Bool
  maximum : Nat
  capacityRejections : Nat
  closingRejections : Nat
  fuelRejections : Nat
  epochRejections : Nat
  handles : List Nat
  outcomes : List (Nat × ChildOutcome)

/-- The controller, with the native threads that were launched for children and
those that have ended. -/
structure ThreadController where
  session : SessionState
  workers : Workers
  launched : List Nat
  ended : List Nat

inductive SketchExecutionError
  | sessionBusy
  | sessionGenerationExhausted
  | rootExecutionLimitExceeded
deriving DecidableEq, Repr

/-- Where a guest thread stands. The last points of a child are those of its native
thread after the guest code has returned; the last points of the root are those
of `join_completed`. -/
inductive Point
  | acquire
  | refused (error : SketchExecutionError)
  | guest
  | spawning
  | reserving
  | epochRejected
  | fuelRejected
  | accepting (fuel : Nat)
  | launching (tid fuel : Nat)
  | recording (tid : Nat)
  | undoing
  | refunding
  | answered (tid : Option Nat)
  | ending (outcome : ChildOutcome)
  | exiting
  | ended
  | taking
  | joining (handles : List Nat)
  | draining
  | joined (report : List (Nat × ChildOutcome))
deriving DecidableEq

/-- A guest thread: the root, or the child of a thread id, with the fuel its store
was given and the generation of that fuel. -/
structure Actor where
  self : Option Nat
  generation : Nat
  fuel : Nat
  point : Point

/-- A thread that asks for a root execution. -/
def Actor.newRoot : Actor := ⟨none, 0, 0, .acquire⟩

/-- The native thread of a child. -/
def Actor.child (generation tid fuel : Nat) : Actor := ⟨some tid, generation, fuel, .guest⟩

def Actor.goto (actor : Actor) (point : Point) : Actor := { actor with point := point }

/-- How a section is taken. `grant` and `deny` are the answers of what is not
modelled here: the ledger of root executions, the epoch broker, the operating system. -/
inductive Choice
  | proceed
  | grant
  | deny
  | spawn
  | finish (outcome : ChildOutcome)
  | join

/-- `saturating_add(1)` on a `u32`. -/
def bump (rejections : Nat) : Nat := min (rejections + 1) (2 ^ 32 - 1)

namespace ThreadController

variable (controller : ThreadController)

/-- A root execution starts with a fresh partition of the fuel. -/
def acquireRoot (limits : SketchFuelLimits) (permitted : Bool) :
    Except SketchExecutionError Nat × ThreadController :=
  let session := controller.session
  if session.closing || session.activeRoots != 0 then (.error .sessionBusy, controller)
  else if !permitted then (.error .rootExecutionLimitExceeded, controller)
  else
    let session := { session with activeRoots := session.activeRoots + 1 }
    if 2 ^ 64 ≤ session.nextFuelGeneration + 1 then
      (.error .sessionGenerationExhausted, { controller with session := session })
    else
      let generation := session.nextFuelGeneration + 1
      (.ok generation, { controller with session := { session with
        nextFuelGeneration := generation
        fuel := some ⟨generation, limits.childSliceCapacity, limits.childSlice⟩ } })

/-- The slice of fuel a child gets, if one of this generation is left. -/
def reserveChildFuel (generation : Nat) : Option (Nat × ThreadController) :=
  match controller.session.fuel with
  | none => none
  | some fuel =>
    if fuel.generation ≠ generation then none
    else if fuel.remainingChildSlices = 0 then none
    else some (fuel.childSlice, { controller with session := { controller.session with
      fuel := some { fuel with remainingChildSlices := fuel.remainingChildSlices - 1 } } })

def refundChildFuel : ThreadController :=
  { controller with session := { controller.session with
    fuel := controller.session.fuel.map fun fuel =>
      { fuel with remainingChildSlices := min (fuel.remainingChildSlices + 1) maxGuestThreadsV1 } }
      }

/-- The section of a spawn that gives out a thread id. -/
def accept : Option Nat × ThreadController :=
  let workers := controller.workers
  if workers.closing then
    let rejected := { controller with workers := { workers with
      closingRejections := bump workers.closingRejections } }
    (none, rejected.refundChildFuel)
  else if workers.maximum ≤ workers.live || workers.maximum ≤ workers.accepted ||
      0x1fffffff < workers.nextTid then
    let rejected := { controller with workers := { workers with
      capacityRejections := bump workers.capacityRejections } }
    (none, rejected.refundChildFuel)
  else
    (some workers.nextTid, { controller with workers := { workers with
      nextTid := workers.nextTid + 1
      accepted := workers.accepted + 1
      live := workers.live + 1 } })

/-- A native thread could not be created. -/
def undo : ThreadController :=
  { controller with workers := { controller.workers with
    live := controller.workers.live - 1
    accepted := controller.workers.accepted - 1 } }

/-- A child stores its outcome, where the bound allows it. -/
def finish (tid : Nat) (outcome : ChildOutcome) : ThreadController :=
  let workers := { controller.workers with live := controller.workers.live - 1 }
  { controller with workers :=
      if workers.outcomes.length < workers.maximum then
        { workers with outcomes := workers.outcomes ++ [(tid, outcome)] }
      else workers }

/-- `join_completed` closes the controller and takes the handles there are. -/
def takeHandles : List Nat × ThreadController :=
  (controller.workers.handles,
    { controller with workers := { controller.workers with closing := true, handles := [] } })

/-- The outcomes are drained in the order of thread ids. -/
def drain : List (Nat × ChildOutcome) × ThreadController :=
  (controller.workers.outcomes.insertionSort (fun first second => first.1 ≤ second.1),
    { controller with workers := { controller.workers with
      outcomes := [], accepted := 0, closing := false } })

end ThreadController

/-- The next section of a guest thread, with the child it launches. -/
def Actor.step (limits : SketchFuelLimits) (actor : Actor) (choice : Choice)
    (controller : ThreadController) : Option (Actor × ThreadController × Option Actor) :=
  match actor.point, choice with
  | .acquire, .grant => some (acquired (controller.acquireRoot limits true))
  | .acquire, .deny => some (acquired (controller.acquireRoot limits false))
  | .guest, .spawn => some (actor.goto .spawning, controller, none)
  | .spawning, .grant => some (actor.goto .reserving, controller, none)
  | .spawning, .deny => some (actor.goto .epochRejected, controller, none)
  | .epochRejected, .proceed =>
    some (actor.goto (.answered none), { controller with workers := { controller.workers with
      epochRejections := bump controller.workers.epochRejections } }, none)
  | .reserving, .proceed =>
    match controller.reserveChildFuel actor.generation with
    | none => some (actor.goto .fuelRejected, controller, none)
    | some (fuel, controller) => some (actor.goto (.accepting fuel), controller, none)
  | .fuelRejected, .proceed =>
    some (actor.goto (.answered none), { controller with workers := { controller.workers with
      fuelRejections := bump controller.workers.fuelRejections } }, none)
  | .accepting fuel, .proceed =>
    match controller.accept with
    | (none, controller) => some (actor.goto (.answered none), controller, none)
    | (some tid, controller) => some (actor.goto (.launching tid fuel), controller, none)
  | .launching tid fuel, .grant =>
    some (actor.goto (.recording tid), { controller with launched := controller.launched ++ [tid] },
      some (.child actor.generation tid fuel))
  | .launching _ _, .deny => some (actor.goto .undoing, controller, none)
  | .recording tid, .proceed =>
    some (actor.goto (.answered (some tid)), { controller with workers := { controller.workers with
      handles := controller.workers.handles ++ [tid] } }, none)
  | .undoing, .proceed => some (actor.goto .refunding, controller.undo, none)
  | .refunding, .proceed => some (actor.goto (.answered none), controller.refundChildFuel, none)
  | .answered _, .proceed => some (actor.goto .guest, controller, none)
  | .guest, .finish outcome =>
    match actor.self with
    | none => none
    | some _ => some (actor.goto (.ending outcome), controller, none)
  | .ending outcome, .proceed =>
    match actor.self with
    | none => none
    | some tid => some (actor.goto .exiting, controller.finish tid outcome, none)
  | .exiting, .proceed =>
    match actor.self with
    | none => none
    | some tid =>
      some (actor.goto .ended, { controller with ended := controller.ended ++ [tid] }, none)
  | .guest, .join =>
    match actor.self with
    | none => some (actor.goto .taking, controller, none)
    | some _ => none
  | .taking, .proceed =>
    match controller.takeHandles with
    | ([], controller) => some (actor.goto .draining, controller, none)
    | (handle :: handles, controller) =>
      some (actor.goto (.joining (handle :: handles)), controller, none)
  | .joining [], .proceed => some (actor.goto .taking, controller, none)
  | .joining (handle :: handles), .proceed =>
    -- `handle.join()` returns when the native thread has ended.
    if handle ∈ controller.ended then some (actor.goto (.joining handles), controller, none)
    else none
  | .draining, .proceed =>
    some (actor.goto (.joined controller.drain.1), controller.drain.2, none)
  | _, _ => none
where
  acquired : Except SketchExecutionError Nat × ThreadController →
    Actor × ThreadController × Option Actor
  | (.error error, controller) => (actor.goto (.refused error), controller, none)
  | (.ok generation, controller) => (⟨none, generation, limits.rootSlice, .guest⟩, controller, none)

/-- One root execution and its children over a controller that no earlier
execution left anything in. -/
def guestMachine (limits : SketchFuelLimits) : Machine ThreadController Actor Choice where
  Initial := fun controller => controller.session.activeRoots = 0 ∧ controller.session.fuel = none ∧
    controller.workers.accepted = 0 ∧ controller.workers.live = 0 ∧
      controller.workers.closing = false ∧
    controller.workers.handles = [] ∧ controller.workers.outcomes = [] ∧
    controller.launched = [] ∧ controller.ended = []
  Entry := fun actor => actor = .newRoot
  Step := fun actor choice controller actor' controller' launched =>
    actor.step limits choice controller = some (actor', controller', launched)
  Drift := fun _ _ => False

end KernalApi.Guest
