import KernalApi.Std.Checked

/-!
# Task samples

The statistics of the tasks come from a hash map, so a collection lists them in
any order, and in that order it asks the clock about those that still run. The
samples are sorted by the name of the task only, and their times are computed in
64-bit integers from seconds that the subscriber chose.
-/

namespace KernalApi.Profile.Tasks

open KernalApi.Std List

/-- A duration or a timestamp of the wire. -/
structure Time where
  seconds : Int
  nanos : Int

structure PollStats where
  busyTime : Option Time := none
  polls : Nat := 0

structure Stats where
  pollStats : Option PollStats
  scheduledTime : Option Time
  createdAt : Option Time
  droppedAt : Option Time
  wakes : Nat

structure TaskSample where
  name : List Char
  spawnStack : List (List Char)
  idleNanos : Int
  busyNanos : Int
  scheduledNanos : Int
  polls : Int
  wakes : Int
deriving DecidableEq

def Stats.poll (stat : Stats) : PollStats := stat.pollStats.getD {}

section

-- The arithmetic of the code, and in `Id` the arithmetic it stands for.
variable {m : Type → Type} [Monad m] (word : Int → m Int)

def stampNanos (stamp : Time) : m Int := do
  word ((← word (stamp.seconds * 1000000000)) + stamp.nanos)

def nanos (duration : Option Time) : m Int := duration.elim (pure 0) (stampNanos word)

/-- `now` is the clock's answer in nanoseconds, if it is past the epoch. -/
def lifetimeNanos (createdAt droppedAt : Option Time) (now : Option Int) : m Int :=
  match createdAt, droppedAt, now with
  | some created, some dropped, _ => do
    return max (← word ((← stampNanos word dropped) - (← stampNanos word created))) 0
  | some created, none, some now => do
    return max (← word (now - (← stampNanos word created))) 0
  | _, _, _ => pure 0

/-- The sample of a task that is shown under `name`. -/
def Stats.sample (stat : Stats) (name : List Char) (now : Option Int) : m TaskSample := do
  let busy ← nanos word stat.poll.busyTime
  let scheduled ← nanos word stat.scheduledTime
  let lifetime ← lifetimeNanos word stat.createdAt stat.droppedAt now
  let idle ← word ((← word (lifetime - busy)) - scheduled)
  return {
    name, spawnStack := [name], idleNanos := max idle 0, busyNanos := busy
    scheduledNanos := scheduled, polls := asI64 stat.poll.polls
    wakes := asI64 stat.wakes }

end

def isRuntimeInternal (location : List Char) : Bool :=
  let normalized := location.map fun c => if c = '\\' then '/' else c
  "/tokio-".toList <:+: normalized && "/src/runtime/".toList <:+: normalized

variable (spawned : Nat → Option (List Char)) (clock : Nat → Option Int)

def shown (task : Nat × Stats) : Bool :=
  (spawned task.1).all fun location => !isRuntimeInternal location

def nameOf (id : Nat) : List Char := (spawned id).getD ("task#".toList ++ Nat.toDigits 10 id)

/-- The clock is asked about a task that still runs. -/
def Stats.asks (stat : Stats) : Bool := stat.createdAt.isSome && stat.droppedAt.isNone

/-- The tasks that are shown, each with how often the clock has been asked before it. -/
def turns : Nat → List (Nat × Stats) → List ((Nat × Stats) × Nat)
  | _, [] => []
  | asked, task :: rest =>
    if shown spawned task then (task, asked) :: turns (asked + task.2.asks.toNat) rest
    else turns asked rest

/-- The order of the samples. -/
abbrev ByName (first second : TaskSample) : Prop := first.name ≤ second.name

/-- `join`, on the entries of `stats` in the order in which the map yields them; `clock` gives
the clock's answers in turn, as `i64`. -/
def join (checks : Bool) (stats : List (Nat × Stats)) : Option (List TaskSample) := do
  let samples ← (turns spawned 0 stats).mapM fun turn =>
    turn.1.2.sample (i64 checks) (nameOf spawned turn.1.1) (clock turn.2)
  return samples.insertionSort ByName

/-- The sample of a task in exact arithmetic. -/
def exactSample (turn : (Nat × Stats) × Nat) : TaskSample :=
  Id.run (turn.1.2.sample pure (nameOf spawned turn.1.1) (clock turn.2))

/-- The samples of all tasks that are shown, in the order of the map. -/
def samples (stats : List (Nat × Stats)) : List TaskSample :=
  (turns spawned 0 stats).map (exactSample spawned clock)

/-- The nanoseconds of a time fit a word. -/
def Time.InRange (time : Time) : Prop :=
  Fits (time.seconds * 1000000000) ∧ Fits (time.seconds * 1000000000 + time.nanos)

/-- What is computed for the lifetime of a task fits. -/
def LifetimeInRange : Option Time → Option Time → Option Int → Prop
  | some created, some dropped, _ => dropped.InRange ∧ created.InRange ∧
    Fits (Id.run (stampNanos pure dropped) - Id.run (stampNanos pure created))
  | some created, none, some now => created.InRange ∧
    Fits (now - Id.run (stampNanos pure created))
  | _, _, _ => True

/-- Everything that is computed for the sample of a task fits. -/
def Stats.InRange (stat : Stats) (now : Option Int) : Prop :=
  let busy := Id.run (nanos pure stat.poll.busyTime)
  let scheduled := Id.run (nanos pure stat.scheduledTime)
  let lifetime := Id.run (lifetimeNanos pure stat.createdAt stat.droppedAt now)
  (∀ time ∈ stat.poll.busyTime, time.InRange) ∧ (∀ time ∈ stat.scheduledTime, time.InRange) ∧
    LifetimeInRange stat.createdAt stat.droppedAt now ∧
    Fits (lifetime - busy) ∧ Fits (lifetime - busy - scheduled)

/-- Two tasks in turn can be interchanged: under one name each has the other's sample, and under
two the sample of neither depends on whether the clock was asked about the other before. -/
def Interchange (asked : Nat) (first second : Nat × Stats) : Prop :=
  let sample (task : Nat × Stats) (asked : Nat) := exactSample spawned clock (task, asked)
  let afterFirst := asked + first.2.asks.toNat
  let afterSecond := asked + second.2.asks.toNat
  if nameOf spawned first.1 = nameOf spawned second.1 then
    sample first asked = sample second asked ∧ sample second afterFirst = sample first afterSecond
  else sample first asked = sample first afterSecond ∧
    sample second afterFirst = sample second asked

section Arithmetic

variable {checks : Bool}

theorem stampNanos_computes (time : Time) :
    Computes checks (stampNanos (i64 checks) time) time.InRange (Id.run (stampNanos pure time)) :=
  (Computes.word _).bind (.word _)

theorem nanos_computes (duration : Option Time) :
    Computes checks (nanos (i64 checks) duration) (∀ time ∈ duration, time.InRange)
      (Id.run (nanos pure duration)) := by
  cases duration with
  | none => simpa [nanos] using Computes.ofSome (0 : Int)
  | some time => simpa [nanos] using stampNanos_computes time

theorem lifetimeNanos_computes (created dropped : Option Time) (now : Option Int) :
    Computes checks (lifetimeNanos (i64 checks) created dropped now)
      (LifetimeInRange created dropped now) (Id.run (lifetimeNanos pure created dropped now)) := by
  match created, dropped, now with
  | some created, some dropped, _ =>
    exact (stampNanos_computes dropped).bind
      ((stampNanos_computes created).bind (Computes.word _).map)
  | some created, none, some _ => exact (stampNanos_computes created).bind (Computes.word _).map
  | some _, none, none | none, some _, _ | none, none, _ => exact .ofSome _

theorem sample_computes (stat : Stats) (name : List Char) (now : Option Int) :
    Computes checks (stat.sample (i64 checks) name now) (stat.InRange now)
      (Id.run (stat.sample pure name now)) :=
  (nanos_computes _).bind ((nanos_computes _).bind ((lifetimeNanos_computes _ _ _).bind
    ((Computes.word _).bind (Computes.word _).map)))

theorem join_computes (stats : List (Nat × Stats)) :
    Computes checks (join spawned clock checks stats)
      (∀ turn ∈ turns spawned 0 stats, turn.1.2.InRange (clock turn.2))
      ((samples spawned clock stats).insertionSort ByName) :=
  (Computes.mapM (fun _ => sample_computes _ _ _) _).map

end Arithmetic

section Order

variable {spawned clock} {list other : List TaskSample}

instance : Std.Total ByName := ⟨fun first second => Std.Total.total first.name second.name⟩

instance : IsTrans TaskSample ByName := ⟨fun _ _ _ before after => Std.le_trans before after⟩

/-- Sorting keeps the order of the samples of one name. -/
theorem filter_insertionSort (list : List TaskSample) (name : List Char) :
    (list.insertionSort ByName).filter (·.name = name) = list.filter (·.name = name) := by
  have alike : (list.filter (·.name = name)).Pairwise ByName := by
    refine pairwise_of_forall_mem_list fun first here second there => ?_
    simp only [mem_filter, decide_eq_true_eq] at here there
    exact (here.2.trans there.2.symm).le
  have kept := (sublist_insertionSort alike filter_sublist).filter (·.name = name)
  rw [filter_filter] at kept
  simp only [Bool.and_self] at kept
  exact (kept.eq_of_length ((perm_insertionSort _ list).filter _).length_eq.symm).symm

/-- Neighbours of two names can change places. -/
theorem insertionSort_swap (before after : List TaskSample) {first second : TaskSample}
    (differ : first.name ≠ second.name) :
    (before ++ first :: second :: after).insertionSort ByName =
      (before ++ second :: first :: after).insertionSort ByName := by
  have inserted (sorted : List TaskSample) :
      (sorted.orderedInsert ByName second).orderedInsert ByName first =
        (sorted.orderedInsert ByName first).orderedInsert ByName second := by
    induction sorted with
    | nil => grind [orderedInsert]
    | cons sample sorted ih => grind [orderedInsert]
  simp only [insertionSort, foldr_append, foldr_cons, inserted]

/-- How often the clock is asked. -/
def asked (spawned : Nat → Option (List Char)) (tasks : List (Nat × Stats)) : Nat :=
  tasks.countP fun task => shown spawned task && task.2.asks

theorem turns_append (before after : List (Nat × Stats)) (start : Nat) :
    turns spawned start (before ++ after) =
      turns spawned start before ++ turns spawned (start + asked spawned before) after := by
  induction before generalizing start with
  | nil => simp [turns, asked]
  | cons task before ih =>
    rw [cons_append, turns, turns]
    cases visible : shown spawned task with
    | false => simp [ih, asked, visible]
    | true =>
      cases running : task.2.asks <;>
        simp [ih, asked, visible, running, Nat.add_assoc, Nat.add_comm 1]

/-- Two orders that differ in two neighbours give one list exactly if these can be
interchanged. -/
theorem swap_iff (before after : List (Nat × Stats)) {first second : Nat × Stats}
    (here : shown spawned first = true) (there : shown spawned second = true) :
    (samples spawned clock (before ++ first :: second :: after)).insertionSort ByName =
        (samples spawned clock (before ++ second :: first :: after)).insertionSort ByName ↔
      Interchange spawned clock (asked spawned before) first second := by
  have last := Nat.add_right_comm (asked spawned before) first.2.asks.toNat second.2.asks.toNat
  have named (task : Nat × Stats) (index : Nat) :
      (exactSample spawned clock (task, index)).name = nameOf spawned task.1 := rfl
  simp only [samples, turns_append, turns, here, there, if_true, map_append, map_cons,
    Nat.zero_add, Interchange, last]
  constructor
  · intro same
    have mine (name : List Char) := congrArg (filter (·.name = name)) same
    simp only [filter_insertionSort, filter_append, append_cancel_left_eq, filter_cons,
      named] at mine
    split
    next equal => simpa [equal] using mine (nameOf spawned first.1)
    next differ =>
      exact ⟨by simpa [Ne.symm differ] using mine (nameOf spawned first.1),
        by simpa [differ] using mine (nameOf spawned second.1)⟩
  · split
    · rintro ⟨one, two⟩
      rw [one, two]
    next differ =>
      rintro ⟨one, two⟩
      rw [one, two]
      exact insertionSort_swap _ _ differ

/-- Where neighbours can always be interchanged, every order gives one list. -/
theorem samples_perm {stats : List (Nat × Stats)}
    (swaps : ∀ before first second after, stats.Perm (before ++ first :: second :: after) →
      shown spawned first = true → shown spawned second = true →
        Interchange spawned clock (asked spawned before) first second)
    {list other : List (Nat × Stats)} (order : list.Perm other) (before : List (Nat × Stats))
    (whole : stats.Perm (before ++ list)) :
    (samples spawned clock (before ++ list)).insertionSort ByName =
      (samples spawned clock (before ++ other)).insertionSort ByName := by
  induction order generalizing before with
  | nil => rfl
  | cons task _ ih => simpa using ih (before ++ [task]) (by simpa using whole)
  | swap second first after =>
    by_cases both : shown spawned first = true ∧ shown spawned second = true
    · exact (swap_iff before after both.1 both.2).mpr (swaps _ _ _ _ whole both.1 both.2)
    · simp only [samples, turns_append, turns]
      split <;> split <;> simp_all
  | trans left _ first second =>
    exact (first before whole).trans (second before (whole.trans (left.append_left before)))

end Order

/-- Every order of the map gives one list, with or without overflow checks: one sample for each
task that is not the runtime's, with its exact times, sorted by name; this exactly if all that is
computed fits, and any two tasks the map yields in turn can be interchanged. -/
theorem join_orderless (stats : List (Nat × Stats)) :
    (∀ checks other, stats.Perm other →
      join spawned clock checks other = some ((samples spawned clock stats).insertionSort ByName)) ↔
    (∀ other, stats.Perm other →
      ∀ turn ∈ turns spawned 0 other, turn.1.2.InRange (clock turn.2)) ∧
    ∀ before first second after, stats.Perm (before ++ first :: second :: after) →
      shown spawned first = true → shown spawned second = true →
        Interchange spawned clock (asked spawned before) first second := by
  constructor
  · intro orderless
    have ranged (other) (order : stats.Perm other) :
        ∀ turn ∈ turns spawned 0 other, turn.1.2.InRange (clock turn.2) := by
      by_contra beyond
      cases ((join_computes spawned clock other).stops rfl beyond).symm.trans
        (orderless true other order)
    have sorted (other) (order : stats.Perm other) :
        (samples spawned clock other).insertionSort ByName =
          (samples spawned clock stats).insertionSort ByName :=
      Option.some.inj (((join_computes spawned clock other).exact_ (ranged other order)).symm.trans
        (orderless true other order))
    refine ⟨ranged, fun before first second after order here there => ?_⟩
    rw [← swap_iff before after here there, sorted _ order,
      sorted _ (order.trans ((Perm.swap second first after).append_left before))]
  · rintro ⟨ranged, swaps⟩ checks other order
    rw [(join_computes spawned clock other).exact_ (ranged other order)]
    exact congrArg some (samples_perm swaps order [] (.refl _)).symm

/-- A task that has waited for a second. -/
def waited (polls : Nat) : Stats := ⟨some ⟨none, polls⟩, none, some ⟨1, 0⟩, some ⟨2, 0⟩, 0⟩

/-- Two tasks of one spawn site stand in the order of the map, and a busy time of 2^34
seconds has no number of nanoseconds, or a negative one. -/
theorem join_follows_map :
    join (fun _ => some ['a']) (fun _ => none) true [(1, waited 1), (2, waited 2)] ≠
        join (fun _ => some ['a']) (fun _ => none) true [(2, waited 2), (1, waited 1)] ∧
      nanos (i64 true) (some ⟨2 ^ 34, 0⟩) = none ∧ ∃ few < 0,
        nanos (i64 false) (some ⟨2 ^ 34, 0⟩) = some few :=
  ⟨by decide, by decide, -1266874889709551616, by decide, by decide⟩

end KernalApi.Profile.Tasks
