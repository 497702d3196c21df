import KernalApi.Epoch.Ticker
import KernalApi.Semantics.Schedule
import Mathlib.Data.Finset.Card

/-!
# Verdicts on logical executions

A winner is decided once, by the first look of a ticker that finds a cancelled
token or an expired deadline, or by the registration that completes the logical execution.
-/

namespace KernalApi.Epoch

open Semantics List EpochBroker

variable {logical entry position id cycles free : Nat} {task' : Task} {choice : Choice}
  {launched : Option Task} {allowed : Task → Choice → EpochBroker → Prop} {record : LogicalEpoch}
  {entries : List Nat} {moments : List Surroundings} {moment : Surroundings} {generation : UInt64}
  {limits : SketchEpochLimits} {broker broker' : EpochBroker}

/-- Logical executions stay what they are, and a decided winner stays. -/
def Outlives (before after : List LogicalEpoch) : Prop :=
  ∀ (index : Nat) (logical : LogicalEpoch), before[index]? = some logical →
    ∃ later : LogicalEpoch, after[index]? = some later ∧
    later.cancellation = logical.cancellation ∧ later.deadline = logical.deadline ∧
    (logical.winner ≠ .pending → later.winner = logical.winner)

theorem Outlives.refl (logicals : List LogicalEpoch) : Outlives logicals logicals :=
  fun _ logical found => ⟨logical, found, rfl, rfl, fun _ => rfl⟩

theorem Outlives.trans {first second third : List LogicalEpoch} (before : Outlives first second)
    (after : Outlives second third) : Outlives first third := by
  intro index logical found
  obtain ⟨middle, middleFound, token, deadline, kept⟩ := before index logical found
  obtain ⟨last, lastFound, token', deadline', kept'⟩ := after index middle middleFound
  refine ⟨last, lastFound, token'.trans token, deadline'.trans deadline, ?_⟩
  intro decided
  have same := kept decided
  rw [kept' (by rw [same]; exact decided), same]

theorem Outlives.append (before rest : List LogicalEpoch) : Outlives before (before ++ rest) := by
  intro index logical found
  have inside := (List.getElem?_eq_some_iff.mp found).1
  exact ⟨logical, by rw [getElem?_append_left inside, found], rfl, rfl, fun _ => rfl⟩

/-- An exchange from pending never touches a decided winner. -/
theorem Outlives.exchange (before : List LogicalEpoch) (index : Nat)
    (terminal : LogicalEpoch → Winner) : Outlives before (before.modify index fun logical =>
      { logical with winner := logical.winner.compareExchange (terminal logical) }) := by
  intro other logical found
  by_cases same : index = other
  · subst same
    refine ⟨{ logical with winner := logical.winner.compareExchange (terminal logical) },
      by rw [getElem?_modify_eq, found]; rfl, rfl, rfl, ?_⟩
    exact fun decided => if_neg decided
  · exact ⟨logical, by rw [getElem?_modify_ne _ _ same, found], rfl, rfl, fun _ => rfl⟩

theorem Outlives.winner (outlives : Outlives broker.logicals broker'.logicals)
    {winner : Winner} (found : broker.winner logical = some winner) (decided : winner ≠ .pending) :
    broker'.winner logical = some winner := by
  obtain ⟨record, present, rfl⟩ := Option.map_eq_some_iff.mp found
  obtain ⟨later, laterPresent, _, _, kept⟩ := outlives logical record present
  simp [EpochBroker.winner, laterPresent, kept decided]

theorem publish_outlives (entry : Nat) (moment : Surroundings) :
    Outlives broker.logicals (broker.publish entry moment).logicals := by
  unfold publish
  split
  · exact .refl _
  exact .exchange _ _ _

theorem publishAll_outlives (visits : List (Nat × Surroundings)) (broker : EpochBroker) :
    Outlives broker.logicals (EpochBroker.publishAll visits broker).logicals := by
  induction visits generalizing broker with
  | nil => exact .refl _
  | cons visit rest ih =>
    exact (publish_outlives visit.1 visit.2).trans (ih _)

theorem tick_outlives (generation : UInt64) (task : Nat) (moments : List Surroundings) :
    Outlives broker.logicals (broker.tick generation task moments).2.logicals := by
  unfold tick
  split
  · exact .refl _
  dsimp only
  split
  all_goals exact publishAll_outlives _ (broker.retainAlive.upgradeAll task _)

theorem finishRegistration_outlives (entry : Nat) (completesLogical : Bool) :
    Outlives broker.logicals (broker.finishRegistration entry completesLogical).2.logicals := by
  have completed : Outlives broker.logicals (broker.complete entry completesLogical).logicals := by
    unfold complete
    split
    · exact .exchange _ _ _
    exact .refl _
  unfold finishRegistration
  dsimp only
  split
  · exact completed
  exact completed

theorem registerEntry_logicals (limits : SketchEpochLimits) (broker : EpochBroker)
    (runtime logical : Nat) (completesLogical : Bool) :
    (broker.registerEntry limits runtime logical completesLogical).2.1.logicals =
    broker.logicals := by
  unfold registerEntry
  dsimp only
  split
  · rfl
  split
  · rfl
  split
  · rfl
  split <;> rfl

/-- No section changes a decided winner. -/
theorem Task.step_outlives {task : Task}
    (taken : task.step limits choice broker = some (task', broker', launched)) :
    Outlives broker.logicals broker'.logicals := by
  unfold Task.step at taken
  split at taken
  · cases taken
    exact .append _ _
  · split at taken
    all_goals
      cases taken
      exact .refl _
  · rename_i runtime logical completesLogical
    have same := registerEntry_logicals limits broker runtime logical completesLogical
    rw [Option.some.inj taken] at same
    rw [show broker'.logicals = broker.logicals from same]
    exact .refl _
  · cases taken
    exact finishRegistration_outlives _ _
  · cases taken
    exact .refl _
  · cases taken
    exact .refl _
  · cases taken
    exact .refl _
  · cases taken
    exact .refl _
  · cases taken
    exact .refl _
  · cases taken
    exact tick_outlives _ _ _
  · split at taken
    · cases taken
      exact .refl _
    · cases taken
  · cases taken
    exact .refl _
  · cases taken

/-- Decided winners outlive every run. -/
theorem runs_outlive {pool pool' : Pool EpochBroker Task}
    (runs : (brokerMachine limits).Runs allowed pool pool') :
    Outlives pool.shared.logicals pool'.shared.logicals := by
  refine @Machine.Runs.relates _ _ _ (brokerMachine limits) allowed
    (fun before after => Outlives before.logicals after.logicals) pool pool' ?_ ?_ ?_ ?_ runs
  · exact fun broker => .refl broker.logicals
  · exact fun before after => before.trans after
  · rintro before after ⟨_, _, rfl⟩
    exact .refl _
  · exact fun _ step => Task.step_outlives step.2

/-- The visit at a position of a round looks at a logical execution. -/
def Sees (broker : EpochBroker) (entries : List Nat) (moments : List Surroundings)
    (logical position : Nat) (moment : Surroundings) : Prop :=
  ∃ entry, entries[position]? = some entry ∧ broker.logicalOf entry = some logical ∧
    moments[position]? = some moment

theorem publish_logicalOf (entry other : Nat) (moment : Surroundings) :
    (broker.publish entry moment).logicalOf other = broker.logicalOf other := by
  unfold publish
  split <;> rfl

/-- A look at one logical execution leaves another one as it was. -/
theorem publish_elsewhere (moment : Surroundings)
    (distinct : broker.logicalOf entry ≠ some logical) :
    (broker.publish entry moment).logicals[logical]? = broker.logicals[logical]? := by
  unfold publish
  split
  · rfl
  rename_i seen found
  have other : seen ≠ logical := by
    rintro rfl
    exact distinct found
  exact getElem?_modify_ne _ _ other

/-- A token that is found cancelled no later than the deadline is found expired decides for
cancellation. -/
theorem publishAll_cancelled (present : broker.logicals[logical]? = some record)
    (pending : record.winner = .pending)
    (sees : Sees broker entries moments logical position moment)
    (cancelled : moment.isCancelled record.cancellation = true)
    (early : ∀ earlier before, earlier < position →
      Sees broker entries moments logical earlier before → before.now < record.deadline) :
    (EpochBroker.publishAll (entries.zip moments) broker).winner logical = some .cancelled := by
  -- The visits up to the one that finds the token cancelled leave the record pending or cancelled.
  induction entries generalizing broker moments position with
  | nil =>
    obtain ⟨_, found, _⟩ := sees
    cases found
  | cons entry rest ih =>
    cases moments with
    | nil =>
      obtain ⟨_, _, _, found⟩ := sees
      cases found
    | cons first moments =>
      rw [zip_cons_cons, publishAll]
      have onward : ∀ {later}, position = later + 1 →
          (broker.publish entry first).logicals[logical]? = some record →
          (publishAll (rest.zip moments) (broker.publish entry first)).winner logical
            = some .cancelled := by
        rintro later rfl unchanged
        apply @ih later _ _ unchanged
        · obtain ⟨other, found, seen, at'⟩ := sees
          exact ⟨other, found, (publish_logicalOf entry other first).trans seen, at'⟩
        · rintro earlier before lower ⟨other, found, seen, at'⟩
          rw [publish_logicalOf] at seen
          exact early (earlier + 1) before (Nat.succ_lt_succ lower) ⟨other, found, seen, at'⟩
      by_cases here : broker.logicalOf entry = some logical
      · have exchanged : (broker.publish entry first).logicals[logical]? =
            some { record with
              winner := record.winner.compareExchange (terminal record first) } := by
          simp only [publish, here, getElem?_modify_eq, present]
          rfl
        by_cases now : first.isCancelled record.cancellation = true
        · have decided : (broker.publish entry first).winner logical = some .cancelled := by
            simp [winner, exchanged, pending, Winner.compareExchange,
              terminal, now]
          exact (publishAll_outlives _ _).winner decided (by decide)
        · cases position with
          | zero =>
            obtain ⟨_, _, _, found⟩ := sees
            cases found
            exact absurd cancelled now
          | succ =>
            have unexpired := early 0 first (Nat.succ_pos _) ⟨entry, rfl, here, rfl⟩
            have nothing : terminal record first = record.winner := by
              simp [terminal, now, Nat.not_le.mpr unexpired, pending]
            apply onward rfl
            rw [exchanged, nothing, Winner.compareExchange, ite_self]
      · cases position with
        | zero =>
          obtain ⟨_, found, seen, _⟩ := sees
          cases found
          exact absurd seen here
        | succ => exact onward rfl ((publish_elsewhere first here).trans present)

variable {pool : Pool EpochBroker Task}

/-- Registrations that are held are as many entries of the list. -/
theorem live_le_maximum (reachable : (brokerMachine limits).Reachable allowed pool)
    (ids : Finset Nat) (live : ∀ id ∈ ids, ∃ entry completesLogical,
      pool.threads id = some (.registered entry completesLogical)) :
    ids.card ≤ limits.maximumActiveRegistrations := by
  have valid := (brokerOutline limits allowed).valid_of_reachable reachable
  let entryOf : Nat → Nat := fun id => ((pool.threads id).bind Task.entry?).getD 0
  have listed : ∀ id ∈ ids, entryOf id ∈ pool.shared.registrations.toFinset := by
    intro id member
    obtain ⟨entry, completesLogical, running⟩ := live id member
    have here := (valid.threads running).registered entry completesLogical rfl
    simpa [entryOf, running, Task.entry?] using here
  have distinct : Set.InjOn entryOf ids := by
    intro first firstMember second secondMember same
    obtain ⟨left, _, leftRunning⟩ := live first firstMember
    obtain ⟨right, _, rightRunning⟩ := live second secondMember
    by_contra different
    refine (valid.apart different leftRunning rightRunning).1 left rfl ?_
    simpa [entryOf, leftRunning, rightRunning, Task.entry?] using same.symm
  calc ids.card ≤ pool.shared.registrations.toFinset.card :=
    Finset.card_le_card_of_injOn entryOf listed distinct
    _ ≤ pool.shared.registrations.length := toFinset_card_le _
    _ ≤ limits.maximumActiveRegistrations := valid.shared.bounded

theorem upgradeAll_sees {task : Nat} {upgraded : List Nat}
      :
    Sees (broker.upgradeAll task upgraded) entries moments logical position moment ↔
      Sees broker entries moments logical position moment := by
  have same : ∀ entry, (broker.upgradeAll task upgraded).logicalOf entry =
      broker.logicalOf entry := by
    intro entry
    simp only [logicalOf, upgradeAll, getElem?_mapIdx, Option.map_map]
    split <;> rfl
  simp [Sees, same]

/-- A broker has registrations exactly while one ticker of the current generation runs that was not
followed by 2^63 others, and tickers of other generations return at their next section. No more
registrations are held than the limit allows. A winner is decided once; a round that finds a token
cancelled no later than it finds the deadline expired decides for cancellation; and nothing is
registered for a logical execution that is decided. -/
theorem broker_keeps (limits : SketchEpochLimits) {pool : Pool EpochBroker Task}
    (reachable : (brokerMachine limits).Reachable (fun _ _ _ => True) pool) :
    (pool.shared.registrations ≠ [] ↔
      ∃ id, Current pool id ∧ ∀ other, Current pool other → other = id) ∧
    (∀ {id generation task choice task' broker' launched},
      pool.threads id = some (.sleeping generation task) → generation ≠ pool.shared.generation →
      (brokerMachine limits).Step (.sleeping generation task) choice pool.shared task' broker'
      launched →
      task' = .returned ∧ broker' = pool.shared) ∧
    pool.shared.registrations.length ≤ limits.maximumActiveRegistrations ∧
    (∀ ids : Finset Nat, (∀ id ∈ ids, ∃ entry completesLogical,
        pool.threads id = some (.registered entry completesLogical)) →
      ids.card ≤ limits.maximumActiveRegistrations) ∧
    (∀ {pool' logical winner}, (brokerMachine limits).Runs (fun _ _ _ => True) pool pool' →
      pool.shared.winner logical = some winner → winner ≠ .pending →
      pool'.shared.winner logical = some winner) ∧
    (∀ {id generation task moments entries broker' logical record position moment},
      pool.threads id = some (.sleeping generation task) →
      (brokerMachine limits).Step (.sleeping generation task) (.round moments) pool.shared
        (.waking generation task entries) broker' none →
      pool.shared.logicals[logical]? = some record → record.winner = .pending →
      Sees pool.shared entries moments logical position moment →
      moment.isCancelled record.cancellation = true →
      (∀ earlier before, earlier < position →
        Sees pool.shared entries moments logical earlier before → before.now < record.deadline) →
      broker'.winner logical = some .cancelled) ∧
    (∀ {id runtime logical completesLogical choice entry broker' launched},
      pool.threads id = some (.registerEntry runtime logical completesLogical) →
      (brokerMachine limits).Step (.registerEntry runtime logical completesLogical) choice
        pool.shared (.registered entry completesLogical) broker' launched →
      pool.shared.winner logical = some .pending) := by
  have valid := (brokerOutline limits (fun _ _ _ => True)).valid_of_reachable reachable
  refine ⟨registrations_iff_current reachable, ?_, valid.shared.bounded, live_le_maximum reachable,
    ?_, ?_, ?_⟩
  · rintro id generation task choice task' broker' launched _ stale ⟨_, taken⟩
    cases choice with
    | proceed => cases taken
    | abort =>
      simp only [Task.step] at taken
      split at taken
      · cases taken
        exact ⟨rfl, rfl⟩
      cases taken
    | round moments =>
      simp only [Task.step, tick, if_pos (Ne.symm stale)] at taken
      cases taken
      exact ⟨rfl, rfl⟩
  · intro pool' logical winner runs found decided
    exact (runs_outlive runs).winner found decided
  · rintro id generation task moments entries broker' logical record position moment _ ⟨_, taken⟩
      present pending sees cancelled early
    simp only [Task.step, Option.some.injEq, Prod.mk.injEq, and_true] at taken
    -- Only a round that visits every registration lets its ticker go on.
    rcases valid.shared.tick_cases generation task moments
      with ⟨_, same⟩ | ⟨_, _, same⟩ | ⟨_, _, same⟩
    all_goals
      rw [same] at taken
      cases taken.1
    obtain rfl := taken.2
    refine publishAll_cancelled present pending (upgradeAll_sees.mpr sees) cancelled ?_
    exact fun earlier before lower seen => early earlier before lower (upgradeAll_sees.mp seen)
  · rintro id runtime logical completesLogical choice entry broker' launched _ ⟨_, taken⟩
    cases choice with
    | proceed =>
      simp only [Task.step] at taken
      rcases valid.shared.registerEntry_cases runtime logical completesLogical with
        ⟨error, same⟩ | ⟨pending, _⟩
      · rw [same] at taken
        cases taken
      · exact pending
    | abort => cases taken
    | round => cases taken

/-- The limits a compiler has by default, in milliseconds. -/
def SketchEpochLimits.default : SketchEpochLimits := ⟨30000, 10, 65, by decide⟩

/-- Surroundings in which nothing is cancelled. -/
def calm (now : Nat) : Surroundings := ⟨now, fun _ => false⟩

def EpochBroker.new : EpochBroker :=
  { runtime := none, registrations := [], generation := 0, ticker := none, logicals := [],
    entries := [], launched := 0, aborted := [], surroundings := calm 0 }

theorem reachable_new :
    (brokerMachine limits).Reachable allowed (.start .new) :=
  ⟨.new, ⟨rfl, rfl, rfl, rfl, rfl, rfl, rfl⟩, .refl⟩

/-- Sections other than the rounds of a ticker. -/
def playedStep (limits : SketchEpochLimits) (task : Task) (choice : Choice) (broker : EpochBroker) :
    Option (Task × EpochBroker × Option Task) :=
  match choice with
  | .round _ => none
  | choice => task.step limits choice broker

theorem step_of_playedStep {task : Task}
    (taken : playedStep limits task choice broker = some (task', broker', launched)) :
    (brokerMachine limits).Step task choice broker task' broker' launched := by
  cases choice with
  | proceed | abort => exact ⟨trivial, taken⟩
  | round => cases taken

theorem reachable_schedule {schedule : List (Turn Task Choice)} {board : Board EpochBroker Task}
    (entries : ∀ task ∈ Board.entering schedule, (brokerMachine limits).Entry task)
    (played : (⟨.new, []⟩ : Board EpochBroker Task).play (playedStep limits)
      (fun _ _ _ => true) schedule
      = some board) : (brokerMachine limits).Reachable (fun _ _ _ => True) board.pool := by
  refine Board.reachable_of_play step_of_playedStep (fun _ => trivial) entries ?_ played
  exact reachable_new

/-- A root execution registers, and then a child of it. -/
def rootAndChild : List (Turn Task Choice) :=
  [.enter (.registerRoot 0 0), .step 0 .proceed, .step 0 .proceed,
   .enter (.registerChild 0), .step 2 .proceed, .step 2 .proceed]

theorem rootAndChild_entries :
    ∀ task ∈ Board.entering rootAndChild, (brokerMachine SketchEpochLimits.default).Entry task := by
  intro task member
  simp only [rootAndChild, Board.entering, mem_cons, not_mem_nil, or_false] at member
  rcases member with rfl | rfl
  · exact .inl ⟨0, 0, rfl⟩
  · exact .inr ⟨0, rfl⟩

/-- With a root and its child registered, one ticker serves both. -/
theorem broker_keeps_rootAndChild :
    ∃ pool, (brokerMachine SketchEpochLimits.default).Reachable (fun _ _ _ => True) pool ∧
      pool.shared.registrations = [0, 1] ∧
      ∃ id, Current pool id ∧ ∀ other, Current pool other → other = id := by
  obtain ⟨board, played, registrations⟩ : ∃ board,
      (⟨.new, []⟩ : Board EpochBroker Task).play (playedStep .default)
      (fun _ _ _ => true) rootAndChild
        = some board ∧ board.shared.registrations = [0, 1] := ⟨_, rfl, rfl⟩
  have reachable := reachable_schedule rootAndChild_entries played
  refine ⟨board.pool, reachable, registrations, (broker_keeps .default reachable).1.mp ?_⟩
  rw [Board.pool_shared, registrations]
  exact cons_ne_nil _ _

/-- An idle broker after some cycles of one registration each, with room for further threads. -/
structure Rested (pool : Pool EpochBroker Task) (cycles free : Nat) : Prop where
  reachable : (brokerMachine .default).Reachable (fun _ _ _ => True) pool
  registrations : pool.shared.registrations = []
  ticker : pool.shared.ticker = none
  launched : pool.shared.launched = cycles
  runtime : ∀ runtime ∈ pool.shared.runtime, runtime = 0
  vacant : ∀ id, free ≤ id → pool.threads id = none

/-- A broker with one registration, held by the first new thread, and its ticker asleep. -/
structure Engaged (pool : Pool EpochBroker Task) (cycles free entry : Nat) : Prop where
  reachable : (brokerMachine .default).Reachable (fun _ _ _ => True) pool
  registrations : pool.shared.registrations = [entry]
  launched : pool.shared.launched = cycles + 1
  runtime : pool.shared.runtime = some 0
  holder : pool.threads free = some (.registered entry true)
  sleeper : pool.threads (free + 1) = some (.sleeping (UInt64.ofNat (2 * cycles + 1)) cycles)
  vacant : ∀ id, free + 2 ≤ id → pool.threads id = none

/-- The first registration of an idle broker succeeds and launches a ticker. -/
theorem registerEntry_first (idle : broker.registrations = []) (empty : broker.ticker = none)
    (runtime : ∀ runtime ∈ broker.runtime, runtime = 0)
    (pending : broker.winner logical = some .pending) :
    broker.registerEntry .default 0 logical true
      = (.registered broker.entries.length true, (broker.joined 0 logical).ticking,
          some (.sleeping (broker.generation + 1) broker.launched)) := by
  have kept : broker.retainAlive = broker := by
    simp only [retainAlive, idle, filter_nil]
    rw [← idle]
  have same : broker.runtime.any (· != 0) = false := by
    cases found : broker.runtime with
    | none => rfl
    | some runtime' =>
      rw [runtime runtime' found]
      rfl
  unfold registerEntry
  simp only [kept]
  rw [if_neg (by simp [pending]), if_neg (by simp [idle, SketchEpochLimits.default]),
    if_neg (by simp [same]), empty]
  rfl

/-- A thread proceeds. -/
theorem next_proceed {task : Task} (running : pool.threads id = some task)
    (taken : task.step .default .proceed pool.shared = some (task', broker', none)) :
    (brokerMachine .default).Next (fun _ _ _ => True) pool (pool.put broker' id task') := by
  have step : (brokerMachine .default).Step task .proceed pool.shared task' broker' none :=
    ⟨trivial, taken⟩
  exact .advance id running trivial step

theorem Rested.engage (rested : Rested pool cycles free) :
    ∃ pool' entry, Engaged pool' cycles free entry ∧ ∀ id, id < free →
      pool'.threads id = pool.threads id := by
  have vacant := rested.vacant free (Nat.le_refl _)
  have later := rested.vacant (free + 1) (Nat.le_succ _)
  let named : EpochBroker := { pool.shared with logicals := pool.shared.logicals ++
    [⟨0, pool.shared.surroundings.now + 30000, .pending⟩] }
  have slot := ((brokerOutline .default (fun _ _ _ => True)).valid_of_reachable
    rested.reachable).shared.slot
  have odd := slot.next_odd rested.ticker
  rw [rested.launched] at odd
  let entry := pool.shared.entries.length
  let logical := pool.shared.logicals.length
  have registers : named.registerEntry .default 0 logical true
      = (.registered entry true, (named.joined 0 logical).ticking,
          some (.sleeping (UInt64.ofNat (2 * cycles + 1)) cycles)) := by
    rw [← odd, ← rested.launched]
    exact registerEntry_first rested.registrations rested.ticker rested.runtime
      (by simp [winner, named, logical])
  let entered := pool.put pool.shared free (.registerRoot 0 0)
  let asking := entered.put named free (.registerEntry 0 logical true)
  let after := (named.joined 0 logical).ticking
  let engaged := (asking.put after free (.registered entry true)).put after (free + 1)
    (.sleeping (UInt64.ofNat (2 * cycles + 1)) cycles)
  have runs : (brokerMachine .default).Runs (fun _ _ _ => True) pool engaged := by
    have entering : (brokerMachine .default).Next (fun _ _ _ => True) pool entered :=
      .enter free vacant (.inl ⟨0, 0, rfl⟩)
    have here : entered.threads free = some (.registerRoot 0 0) := by simp [entered, Pool.put]
    have naming : (brokerMachine .default).Next (fun _ _ _ => True) entered asking :=
      next_proceed here rfl
    refine .tail (.tail (.single entering) naming) ?_
    have there : asking.threads free = some (.registerEntry 0 logical true) := by
      simp [asking, Pool.put]
    have step : (brokerMachine .default).Step (.registerEntry 0 logical true) .proceed asking.shared
        _ _ _ :=
      ⟨trivial, congrArg some registers⟩
    refine .launch free (free + 1) there ?_ trivial step
    simpa [asking, entered, Pool.put] using later
  refine ⟨engaged, entry, ⟨rested.reachable.runs runs, ?_, ?_, ?_, ?_, ?_, ?_⟩, ?_⟩
  · simp [engaged, after, named, ticking, joined, rested.registrations, entry]
  · simp [engaged, after, named, ticking, joined, rested.launched]
  · simp [engaged, after, ticking, joined]
  · simp [engaged, Pool.put]
  · simp [engaged, Pool.put]
  · intro id beyond
    have distinct : id ≠ free ∧ id ≠ free + 1 := by omega
    simpa [engaged, asking, entered, Pool.put, distinct] using rested.vacant id (by omega)
  · intro id below
    have distinct : id ≠ free ∧ id ≠ free + 1 := by omega
    simp [engaged, asking, entered, Pool.put, distinct]

theorem Engaged.rest (engaged : Engaged pool cycles free entry) :
    ∃ pool', Rested pool' (cycles + 1) (free + 2) ∧
      pool'.threads (free + 1) = pool.threads (free + 1) ∧
      ∀ id, id < free → pool'.threads id = pool.threads id := by
  have sound := ((brokerOutline .default (fun _ _ _ => True)).valid_of_reachable
    engaged.reachable).shared
  have alone : pool.shared.others entry = [] := by simp [others, engaged.registrations]
  rcases sound.finishRegistration_cases entry true with ⟨rest, _⟩ | ⟨_, taken⟩
  · exact absurd alone rest
  have retired : ∃ ticker, pool.shared.ticker = some ticker := by
    rcases sound.slot with ⟨idle, _⟩ | ⟨_, _, _, filled, _⟩
    · rw [engaged.registrations] at idle
      cases idle
    · exact ⟨_, filled⟩
  obtain ⟨ticker, filled⟩ := retired
  let finished := (pool.shared.finishRegistration entry true).2
  let leaving := pool.put finished free (.finished entry (some ticker.2))
  let left := leaving.put (finished.dropEntry entry) free (.joining ticker.2)
  have runs : (brokerMachine .default).Runs (fun _ _ _ => True) pool left := by
    have finishing : (brokerMachine .default).Next (fun _ _ _ => True) pool leaving := by
      apply next_proceed engaged.holder
      simp [Task.step, finished, taken, filled]
    have here : leaving.threads free = some (.finished entry (some ticker.2)) := by
      simp [leaving, Pool.put]
    exact .tail (.single finishing) (next_proceed here rfl)
  refine ⟨left, ⟨engaged.reachable.runs runs, ?_, ?_, ?_, ?_, ?_⟩, ?_, ?_⟩
  · simp [left, finished, taken, dropEntry, modifyEntry]
  · simp [left, finished, taken, dropEntry, modifyEntry]
  · simp [left, finished, taken, dropEntry, modifyEntry, engaged.launched]
  · simp [left, finished, taken, dropEntry, modifyEntry, engaged.runtime]
  · intro id beyond
    have distinct : id ≠ free := by omega
    simpa [left, leaving, Pool.put, distinct] using engaged.vacant id beyond
  · simp [left, leaving, Pool.put]
  · intro id below
    have distinct : id ≠ free := by omega
    simp [left, leaving, Pool.put, distinct]

/-- The first ticker sleeps through any number of further cycles. -/
theorem rested_sleeping (cycles : Nat) :
    ∃ pool free, Rested pool (cycles + 1) free ∧ 1 < free ∧
      pool.threads 1 = some (.sleeping 1 0) := by
  induction cycles with
  | zero =>
    have start : Rested (.start .new) 0 0 :=
      ⟨reachable_new, rfl, rfl, rfl, fun _ (none : _ = some _) => (by cases none), fun _ _ => rfl⟩
    obtain ⟨first, entry, engaged, _⟩ := start.engage
    obtain ⟨pool, rested, sleeper, _⟩ := engaged.rest
    exact ⟨pool, 2, rested, by decide, sleeper.trans engaged.sleeper⟩
  | succ cycles ih =>
    obtain ⟨pool, free, rested, room, asleep⟩ := ih
    obtain ⟨busy, entry, engaged, kept⟩ := rested.engage
    obtain ⟨later, restedLater, _, keptLater⟩ := engaged.rest
    exact ⟨later, free + 2, restedLater, by omega,
      ((keptLater 1 room).trans (kept 1 room)).trans asleep⟩

/-- The broker of a root execution and its child. -/
def pairedBroker : EpochBroker :=
  { EpochBroker.new with
    runtime := some 0, registrations := [0, 1], generation := 1, ticker := some (1, 0),
    logicals := [⟨0, 30000, .pending⟩], entries := [⟨0, true, []⟩, ⟨0, true, []⟩], launched := 1 }

/-- The token is cancelled just after the deadline. -/
def lateToken : Surroundings := ⟨30000, fun _ => true⟩

/-- When 2^64 changes of the generation have passed a sleeping ticker by, it is of the current
generation again; and a round that visits two entries of one logical execution can find the deadline
expired first and then the token cancelled. -/
theorem broker_slips :
    (∃ pool, (brokerMachine .default).Reachable (fun _ _ _ => True) pool ∧
      pool.shared.registrations ≠ [] ∧
      ∃ first second older newer, first ≠ second ∧ Ticks pool first
        (pool.shared.generation, older) ∧ Ticks pool second (pool.shared.generation, newer)) ∧
    ∃ pool id generation task moments entries broker' record first second,
      (brokerMachine .default).Reachable (fun _ _ _ => True) pool ∧
      pool.threads id = some (.sleeping generation task) ∧
      (brokerMachine .default).Step (.sleeping generation task) (.round moments) pool.shared
        (.waking generation task entries) broker' none ∧
      pool.shared.logicals[0]? = some record ∧
      Sees pool.shared entries moments 0 0 first ∧ record.deadline ≤ first.now ∧
      Sees pool.shared entries moments 0 1 second ∧ second.isCancelled record.cancellation = true ∧
      broker'.winner 0 = some .deadlineExceeded := by
  constructor
  · obtain ⟨pool, free, rested, room, asleep⟩ := rested_sleeping (2 ^ 63 - 1)
    obtain ⟨busy, entry, engaged, kept⟩ := rested.engage
    have sound := ((brokerOutline .default (fun _ _ _ => True)).valid_of_reachable
      engaged.reachable).shared
    have generation : busy.shared.generation = 1 := by
      rcases sound.slot with ⟨idle, _⟩ | ⟨last, _, launched, _, odd⟩
      · rw [engaged.registrations] at idle
        cases idle
      · have number : last = 2 ^ 63 - 1 + 1 := Nat.succ.inj (launched.symm.trans engaged.launched)
        rw [odd, number]
        decide
    refine ⟨busy, engaged.reachable, by simp [engaged.registrations], 1, free + 1, 0,
      2 ^ 63 - 1 + 1, by omega, ?_, ?_⟩
    · rw [generation]
      exact ⟨_, (kept 1 room).trans asleep, rfl⟩
    · rw [generation]
      exact ⟨_, engaged.sleeper, rfl⟩
  · obtain ⟨⟨_, _⟩, played, rfl, threads⟩ : ∃ board,
        (⟨.new, []⟩ : Board EpochBroker Task).play (playedStep .default)
        (fun _ _ _ => true) rootAndChild
          = some board ∧ board.shared = pairedBroker ∧ board.threads[1]? = some (.sleeping 1 0) :=
      ⟨_, rfl, rfl, rfl⟩
    have timely : (Choice.round [calm 30000, lateToken]).Timely pairedBroker := by
      refine ⟨rfl, ?_⟩
      simp [pairedBroker, new, calm, lateToken, Surroundings.Later]
    exact ⟨Board.pool _, 1, 1, 0, [calm 30000, lateToken], [0, 1], _, ⟨0, 30000, .pending⟩,
      calm 30000,
      lateToken, reachable_schedule rootAndChild_entries played, threads, ⟨timely, rfl⟩, rfl,
      ⟨0, rfl, rfl, rfl⟩, Nat.le_refl _, ⟨1, rfl, rfl, rfl⟩, rfl, rfl⟩

end KernalApi.Epoch
