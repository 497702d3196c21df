import KernalApi.Semantics.Schedule
import Mathlib.Data.List.Sort

/-!
# Which processes `kill_tree` signals

`kill_tree` reads the process table once and captures each PID it collects
later, so the process it then signals is the one that has the PID at that time.
The host creates, ends and adopts processes between any two steps. A creation key is
a time of the host's clock, which may be too coarse to tell two processes apart.
-/

namespace KernalApi.Platform

open Semantics List

/-- A PID with the creation key of the process that has it. -/
structure ProcessIdentity where
  pid : Nat
  generation : Nat
  deriving DecidableEq

/-- A process. Its number, which no call can see, tells it from every other one. -/
structure Process extends ProcessIdentity where
  number : Nat
  deriving DecidableEq

/-- A live process; its parent is named by the table with the PID only, and a host
that does not reparent keeps the link to a parent that is gone. -/
structure Row where
  process : Process
  parent : Option Process
  deriving DecidableEq

/-- The live processes, and how many there have been. -/
structure Host where
  live : List Row
  born : Nat

/-- The process that has a PID. -/
def Host.owner (host : Host) (pid : Nat) : Option Process :=
  (host.live.find? fun row => row.process.pid = pid).map Row.process

def Host.has (host : Host) (parent : Option Process) : Bool :=
  parent.all fun process => host.owner process.pid = some process

inductive ProcessIdentityActionError
  | staleIdentity
  | unavailable
  | host
  deriving DecidableEq

/-- Where `kill_tree` stands. A frame of `collect` is a call of `collect_descendants`:
the parent's PID, the depth and the rows still to be looked at. -/
inductive Point
  | capture
  | snapshot
  | collect (stack : List (Nat × Nat × List Row))
  | signal (remaining : List Process)
  | check (remaining : List Process)
  | finished (result : Except ProcessIdentityActionError Nat)

/-- A call. It is given the identity of its root, and knows a target by its identity
only; the processes stand for what it does not know. -/
structure Killer where
  root : Process
  point : Point := .capture
  /-- The process table as it was read. -/
  table : List Row := []
  visited : List Nat := []
  targets : List (Process × Nat) := []
  /-- The processes a signal was performed on. -/
  signaled : List Process := []

/-- What the host does, or how it answers the killer: `list` gives the table in some
order, `sort` the order of the targets, `refuse` is an error of the host, and `expire`
the end of the timeout. -/
inductive Event
  | spawn (identity : ProcessIdentity) (parent : Option Process)
  | exit (pid : Nat)
  | reparent (pid : Nat) (parent : Option Process)
  | list (table : List Row)
  | sort (targets : List (Process × Nat))
  | proceed
  | refuse (error : ProcessIdentityActionError)
  | expire
  deriving DecidableEq

def Host.step (host : Host) : Event → Option Host
  | .spawn identity parent =>
    if host.owner identity.pid = none ∧ host.has parent then
      some ⟨⟨⟨identity, host.born⟩, parent⟩ :: host.live, host.born + 1⟩
    else none
  | .exit pid => some { host with live := host.live.filter fun row => row.process.pid ≠ pid }
  | .reparent pid parent =>
    if host.has parent then
      some { host with live := host.live.map fun row =>
        if row.process.pid = pid then { row with parent := parent } else row }
    else none
  | _ => none

namespace Killer

def finish (killer : Killer) (result : Except ProcessIdentityActionError Nat) : Killer :=
  { killer with point := .finished result }

/-- How many identities were signaled. -/
def count (killer : Killer) : Nat := (killer.signaled.map Process.toProcessIdentity).dedup.length

/-- Whether a row is a child of the parent that was not visited. -/
def Shows (killer : Killer) (parent : Nat) (row : Row) : Prop :=
  row.parent.map (·.pid) = some parent ∧ row.process.pid ∉ killer.visited

instance {killer : Killer} {parent : Nat} {row : Row} : Decidable (killer.Shows parent row) :=
  inferInstanceAs (Decidable (_ ∧ _))

/-- Looks at one row; a child that was not visited is captured, and collected when found. -/
def collect (killer : Killer) (event : Event) (host : Host) (parent depth : Nat) (row : Row)
    (next : List (Nat × Nat × List Row)) : Killer :=
  if killer.Shows parent row then
    let killer := { killer with visited := row.process.pid :: killer.visited }
    match if event = .proceed then host.owner row.process.pid else none with
    | some process =>
      { killer with
        targets := killer.targets ++ [(process, depth)]
        point := .collect ((row.process.pid, depth + 1, killer.table) :: next) }
    | none => { killer with point := .collect next }
  else { killer with point := .collect next }

/-- The next step; a capture or a signal reads the host at that moment. -/
def step (killer : Killer) (event : Event) (host : Host) : Option Killer :=
  match killer.point, event with
  | .capture, .proceed =>
    match host.owner killer.root.pid with
    | none => some (killer.finish (.ok 0))
    | some current =>
      if current.toProcessIdentity = killer.root.toProcessIdentity then some
        { killer with point := .snapshot }
      else some (killer.finish (.error .staleIdentity))
  | .capture, .refuse error => some (killer.finish (.error error))
  | .snapshot, .list table =>
    if table.Perm host.live then
      some { killer with
        table := table
        targets := [(killer.root, 0)]
        point := .collect [(killer.root.pid, 1, table)] }
    else none
  | .collect [], .sort targets =>
    if targets.Perm killer.targets ∧ targets.Pairwise (fun first second => second.2 ≤ first.2) then
      some { killer with targets := targets, point := .signal (targets.map Prod.fst) }
    else none
  | .collect ((_, _, []) :: rest), .proceed => some { killer with point := .collect rest }
  | .collect ((parent, depth, row :: others) :: rest), event =>
    some (killer.collect event host parent depth row ((parent, depth, others) :: rest))
  | .signal (target :: rest), .proceed =>
    match host.owner target.pid with
    | none => some { killer with point := .signal rest }
    | some current =>
      if current.toProcessIdentity = target.toProcessIdentity then
        some { killer with signaled := current :: killer.signaled, point := .signal rest }
      else some (killer.finish (.error .staleIdentity))
  | .signal (_ :: _), .refuse error => some (killer.finish (.error error))
  | .signal [], .expire => some (killer.finish (.ok killer.count))
  | .signal [], .proceed => some { killer with point := .check (killer.targets.map Prod.fst) }
  | .check [], .proceed => some (killer.finish (.ok killer.count))
  | .check (target :: rest), event =>
    if event = .proceed ∧
        (host.owner target.pid).map Process.toProcessIdentity = some target.toProcessIdentity then
      some { killer with point := .signal (killer.targets.map Prod.fst) }
    else some { killer with point := .check rest }
  | _, _ => none

end Killer

/-- The host itself, or a call of `kill_tree`. -/
inductive Actor
  | host
  | killer (killer : Killer)

def Actor.step (actor : Actor) (event : Event) (host : Host) :
    Option (Actor × Host × Option Actor) :=
  match actor with
  | .host => (host.step event).map fun after => (.host, after, none)
  | .killer state => (state.step event host).map fun after => (.killer after, host, none)

/-- Any number of calls on a host that starts without processes. -/
def killMachine : Machine Host Actor Event where
  Initial := fun host => host = ⟨[], 0⟩
  Entry := fun actor => actor = .host ∨ ∃ root, actor = .killer { root := root }
  Step := fun actor event host actor' host' launched =>
    actor.step event host = some (actor', host', launched)
  Drift := fun _ _ => False

/-- The root, or a transitive child of it by the parents in a table. -/
inductive InTree (root : Process) (table : List Row) : Process → Prop
  | root : InTree root table root
  | child {row : Row} {parent : Process} (listed : row ∈ table) (link : row.parent = some parent)
      (tree : InTree root table parent) : InTree root table row.process

theorem InTree.listed {root process : Process} {table : List Row}
    (tree : InTree root table process) : process = root ∨ ∃ row ∈ table, row.process = process := by
  cases tree with
  | root => exact .inl rfl
  | child listed => exact .inr ⟨_, listed, rfl⟩

/-- A parent's PID in a table is that of the root, or of a listed process, only where
this is the parent. -/
def Linked (root : Process) (table : List Row) : Prop :=
  ∀ row ∈ table, ∀ parent ∈ row.parent,
    (root.pid = parent.pid → root = parent) ∧
      ∀ other ∈ table, other.process.pid = parent.pid → other.process = parent

/-- The table is read while its parents are not stale, a PID of it is captured while no
other process has it, and a target is signaled while no other process has its identity. -/
def Undisturbed (actor : Actor) (event : Event) (host : Host) : Prop :=
  match actor with
  | .host => True
  | .killer killer =>
    match killer.point, event with
    | .snapshot, .list table => Linked killer.root table
    | .collect ((parent, _, row :: _) :: _), .proceed =>
      killer.Shows parent row → ∀ process ∈ host.owner row.process.pid, process = row.process
    | .signal (target :: _), .proceed =>
      ∀ process ∈ host.owner target.pid,
        process.toProcessIdentity = target.toProcessIdentity → process = target
    | _, _ => True

instance {root : Process} {table : List Row} : Decidable (Linked root table) := by
  unfold Linked; infer_instance

instance {actor : Actor} {event : Event} {host : Host} :
    Decidable (Undisturbed actor event host) := by
  unfold Undisturbed
  repeat' split
  all_goals infer_instance

namespace Killer

/-- A call looks for the children of a process of the tree. -/
def Framed (killer : Killer) (frame : Nat × Nat × List Row) : Prop :=
  frame.2.2 ⊆ killer.table ∧ ∃ process : Process, process.pid = frame.1 ∧
    InTree killer.root killer.table process

/-- What the point of a call says beside its targets. -/
def Placed (killer : Killer) : Prop :=
  match killer.point with
  | .capture | .snapshot => killer.signaled = []
  | .collect stack => ∀ frame ∈ stack, killer.Framed frame
  | .signal remaining => ∀ target ∈ remaining, InTree killer.root killer.table target
  | _ => True

/-- Everything collected and signaled is in the tree. -/
structure Sound (killer : Killer) : Prop where
  links : Linked killer.root killer.table
  targets : ∀ target ∈ killer.targets, InTree killer.root killer.table target.1
  signaled : ∀ process ∈ killer.signaled, InTree killer.root killer.table process
  placed : killer.Placed

variable {killer killer' : Killer} {event : Event} {host : Host}

/-- A move to a point that says as much leaves the rest. -/
theorem Sound.goto (sound : killer.Sound) {point : Point}
    (placed : { killer with point := point }.Placed) : { killer with point := point }.Sound :=
  ⟨sound.links, sound.targets, sound.signaled, placed⟩

/-- The children a table shows for a process of the tree are in the tree. -/
theorem Framed.inTree {frame : Nat × Nat × List Row} (framed : killer.Framed frame)
    (links : Linked killer.root killer.table) {row : Row} (listed : row ∈ killer.table)
    (shown : row.parent.map (·.pid) = some frame.1) :
    InTree killer.root killer.table row.process := by
  obtain ⟨parent, link, same⟩ := Option.map_eq_some_iff.mp shown
  obtain ⟨root, others⟩ := links row listed parent link
  obtain ⟨process, pid, tree⟩ := framed.2
  refine .child listed link ?_
  rcases tree.listed with rfl | ⟨other, present, rfl⟩
  · rwa [← root (pid.trans same.symm)]
  · rwa [← others other present (pid.trans same.symm)]

theorem Sound.collect (sound : killer.Sound) {parent depth : Nat} {row : Row} {others : List Row}
    {rest : List (Nat × Nat × List Row)}
    (point : killer.point = .collect ((parent, depth, row :: others) :: rest))
    (undisturbed : Undisturbed (.killer killer) event host) :
    (killer.collect event host parent depth row ((parent, depth, others) :: rest)).Sound := by
  have placed := sound.placed
  simp only [Placed, point, forall_mem_cons] at placed
  obtain ⟨framed, below⟩ := placed
  have listed := framed.1 mem_cons_self
  have next : ∀ frame ∈ (parent, depth, others) :: rest, killer.Framed frame :=
    forall_mem_cons.mpr ⟨⟨fun _ member => framed.1 (mem_cons_of_mem _ member), framed.2⟩, below⟩
  unfold Killer.collect
  split
  · rename_i shows
    have tree := framed.inTree sound.links listed shows.1
    split
    · rename_i process found
      have same : process = row.process := by
        split at found
        · rename_i proceeds
          simp only [Undisturbed, point, proceeds] at undisturbed
          exact undisturbed shows process found
        · cases found
      refine ⟨sound.links, ?_, sound.signaled, forall_mem_cons.mpr ⟨⟨List.Subset.refl _, ?_⟩, next⟩⟩
      · simp only [forall_mem_append, forall_mem_singleton, same]
        exact ⟨sound.targets, tree⟩
      · exact ⟨row.process, rfl, tree⟩
    · exact ⟨sound.links, sound.targets, sound.signaled, next⟩
  · exact sound.goto next

/-- An undisturbed step keeps to the tree. -/
theorem Sound.step (sound : killer.Sound) (undisturbed : Undisturbed (.killer killer) event host)
    (taken : killer.step event host = some killer') : killer'.Sound := by
  have placed := sound.placed
  have targets : ∀ target ∈ killer.targets.map Prod.fst,
      InTree killer.root killer.table target := by
    simpa using sound.targets
  unfold Killer.step at taken
  unfold Placed at placed
  split at taken
  case h_1 _ point =>
    rw [point] at placed
    split at taken
    · cases taken
      exact sound.goto trivial
    split at taken <;> cases taken
    · exact sound.goto placed
    · exact sound.goto trivial
  case h_3 _ point =>
    rw [point] at placed
    split at taken <;> cases taken
    simp only [Undisturbed, point] at undisturbed
    refine ⟨undisturbed, ?_, by simp [placed], ?_⟩
    · simpa using .root
    · simpa [Placed, Framed] using ⟨killer.root, rfl, .root⟩
  case h_4 =>
    split at taken <;> cases taken
    rename_i sorted
    have kept := fun target member => sound.targets target (sorted.1.subset member)
    exact ⟨sound.links, kept, sound.signaled, by simpa [Placed] using kept⟩
  case h_5 _ point =>
    rw [point] at placed
    cases taken
    exact sound.goto (forall_mem_cons.mp placed).2
  case h_6 point =>
    cases taken
    exact sound.collect point undisturbed
  case h_7 _ point =>
    rw [point] at placed
    obtain ⟨target, rest⟩ := forall_mem_cons.mp placed
    split at taken
    · cases taken
      exact sound.goto rest
    rename_i current found
    split at taken <;> cases taken
    · rename_i same
      simp only [Undisturbed, point] at undisturbed
      rw [← undisturbed current found same] at target
      exact ⟨sound.links, sound.targets, forall_mem_cons.mpr ⟨target, sound.signaled⟩, rest⟩
    · exact sound.goto trivial
  case h_12 =>
    split at taken <;> cases taken
    · exact sound.goto targets
    · exact sound.goto trivial
  case h_13 => cases taken
  all_goals
    cases taken
    exact sound.goto trivial

end Killer

/-- In every run where the table is read without stale parents, no PID of it has changed
hands when it is captured and no identity of a target when it is signaled, each process
that is signaled is the root or was a transitive child of it in the table. -/
theorem killTree_onlyTree {pool : Pool Host Actor}
    (reachable : killMachine.Reachable Undisturbed pool)
    {id : Nat} {killer : Killer} (running : pool.threads id = some (.killer killer)) :
    ∀ process ∈ killer.signaled, InTree killer.root killer.table process := by
  have sound : ∀ state, Actor.killer killer = .killer state → state.Sound := by
    refine @Machine.Reachable.asserts _ _ _ killMachine Undisturbed
      (fun actor _ => ∀ state, actor = .killer state → state.Sound) pool id _ ?_ ?_ ?_ ?_ reachable
      running
    · rintro _ _ (rfl | ⟨root, rfl⟩) state same <;> cases same
      exact ⟨by simp [Linked], by simp, by simp, rfl⟩
    · exact fun before _ => before
    · intro pool id actor event actor' host' launched _ _ before undisturbed taken
      cases actor with
      | host =>
        obtain ⟨after, _, same⟩ := Option.map_eq_some_iff.mp taken
        cases same
        exact ⟨nofun, nofun⟩
      | killer state =>
        obtain ⟨after, stepped, same⟩ := Option.map_eq_some_iff.mp taken
        cases same
        refine ⟨?_, nofun⟩
        rintro _ ⟨⟩
        exact (before state rfl).step undisturbed stepped
    · exact fun _ _ _ _ before _ _ => before
  exact (sound killer rfl).signaled

/-- A process that starts at a tick of the clock. -/
def started (pid tick number : Nat) : Process := ⟨⟨pid, tick⟩, number⟩

/-- Process 1 has the child 2, both are listed, and something happens before they are captured. -/
def listed (later : List (Turn Actor Event)) (target : Process) : List (Turn Actor Event) :=
  [.enter .host, .step 0 (.spawn ⟨1, 7⟩ none), .step 0 (.spawn ⟨2, 7⟩ (some (started 1 7 0))),
   .enter (.killer { root := started 1 7 0 }), .step 1 .proceed,
   .step 1 (.list [⟨started 2 7 1, some (started 1 7 0)⟩, ⟨started 1 7 0, none⟩])] ++ later ++
  List.replicate 6 (.step 1 .proceed) ++
  [.step 1 (.sort [(target, 1), (started 1 7 0, 0)]), .step 1 .proceed]

theorem reachable_listed {test : Actor → Event → Host → Bool}
    {allowed : Actor → Event → Host → Prop}
    (permits : ∀ {actor event host}, test actor event host = true → allowed actor event host)
    {later : List (Turn Actor Event)} {target : Process} {board : Board Host Actor}
    (entering : Board.entering (listed later target) = [.host, .killer { root := started 1 7 0 }])
    (played : (⟨⟨[], 0⟩, []⟩ : Board Host Actor).play Actor.step test (listed later target) =
      some board) :
    killMachine.Reachable allowed board.pool := by
  refine Board.reachable_of_play id permits (fun actor member => ?_) ⟨_, rfl, .refl⟩ played
  rw [entering, mem_pair] at member
  exact member.imp_right fun same => ⟨_, same⟩

/-- The child exits after the table was read and an unrelated process takes its PID: it
is captured as a child of the root, and signaled. -/
theorem killTree_recycled :
    ∃ pool killer, killMachine.Reachable (fun _ _ _ => True) pool ∧
      pool.threads 1 = some (.killer killer) ∧ started 2 9 2 ∈ killer.signaled ∧
      ¬ InTree killer.root killer.table (started 2 9 2) := by
  obtain ⟨board, played, killer, running, signaled, root, table⟩ : ∃ board,
      (⟨⟨[], 0⟩, []⟩ : Board Host Actor).play Actor.step (fun _ _ _ => true)
        (listed [.step 0 (.exit 2), .step 0 (.spawn ⟨2, 9⟩ none)] (started 2 9 2)) = some board ∧
      ∃ killer, board.threads[1]? = some (.killer killer) ∧ started 2 9 2 ∈ killer.signaled ∧
        killer.root = started 1 7 0 ∧ killer.table.map Row.process =
          [started 2 7 1, started 1 7 0] :=
    ⟨_, rfl, _, rfl, mem_singleton_self _, rfl, rfl⟩
  refine ⟨board.pool, killer, reachable_listed (fun _ => trivial) rfl played, running, signaled,
    fun tree => ?_⟩
  rcases tree.listed with same | ⟨row, member, same⟩
  · rw [root] at same
    exact absurd same (by decide)
  · have found := mem_map_of_mem (f := Row.process) member
    rw [table, same] at found
    exact absurd found (by decide)

/-- Without that, the child is signaled as a child of the root. -/
theorem killTree_onlyTree_child :
    ∃ pool killer, killMachine.Reachable Undisturbed pool ∧
      pool.threads 1 = some (.killer killer) ∧ started 2 7 1 ∈ killer.signaled ∧
      InTree killer.root killer.table (started 2 7 1) := by
  obtain ⟨board, played, killer, running, signaled⟩ : ∃ board,
      (⟨⟨[], 0⟩, []⟩ : Board Host Actor).play Actor.step
      (fun actor event host => Undisturbed actor event host)
        (listed [] (started 2 7 1)) = some board ∧
      ∃ killer, board.threads[1]? = some (.killer killer) ∧ started 2 7 1 ∈ killer.signaled :=
    ⟨_, rfl, _, rfl, mem_singleton_self _⟩
  have reachable : killMachine.Reachable Undisturbed board.pool :=
    reachable_listed of_decide_eq_true rfl played
  exact ⟨board.pool, killer, reachable, running, signaled,
    killTree_onlyTree reachable running _ signaled⟩

end KernalApi.Platform
