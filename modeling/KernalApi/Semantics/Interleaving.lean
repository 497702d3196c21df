import Mathlib.Logic.Function.Basic
import Mathlib.Logic.Relation
import Mathlib.Tactic.Common

/-!
# Threads over one lock-protected state

A `Machine` describes what one thread does in one critical section, under a name. A `Pool`
is the shared state with every live thread, and `Machine.Next` lets any thread
take its next section, lets a new thread enter, and lets the surroundings
drift. `allowed` restricts the named sections a run may take, so a conditional result
is a result about every run whose sections all meet the condition.

`Outline` packages one interference-free proof: a shared invariant, an
assertion attached to each thread, and a relation between distinct threads.
-/

namespace KernalApi.Semantics

/-- One thread's critical sections, and the moves of its surroundings. -/
structure Machine (σ τ γ : Type) where
  Initial : σ → Prop
  /-- Program points at which a new thread may appear. -/
  Entry : τ → Prop
  /-- One critical section under its name, with the thread it launches, if any. -/
  Step : τ → γ → σ → τ → σ → Option τ → Prop
  /-- Changes of the shared state made by nobody in the pool. -/
  Drift : σ → σ → Prop

/-- The shared state together with every live thread. -/
structure Pool (σ τ : Type) where
  shared : σ
  threads : Nat → Option τ

namespace Pool

variable {σ τ : Type}

/-- A pool without threads. -/
def start (shared : σ) : Pool σ τ := ⟨shared, fun _ => none⟩

/-- Place a thread at a program point, over a new shared state. -/
def put (pool : Pool σ τ) (shared : σ) (id : Nat) (thread : τ) : Pool σ τ :=
  ⟨shared, Function.update pool.threads id (some thread)⟩

@[simp] theorem put_shared (pool : Pool σ τ) (shared : σ) (id : Nat) (thread : τ) :
    (pool.put shared id thread).shared = shared := rfl

variable {pool : Pool σ τ} {shared : σ} {id other : Nat} {thread current : τ}

theorem put_self : (pool.put shared id thread).threads id = some thread := Function.update_self ..

theorem put_other (distinct : other ≠ id) :
    (pool.put shared id thread).threads other = pool.threads other :=
    Function.update_of_ne distinct ..

theorem ne_of_vacant (vacant : pool.threads id = none) (there : pool.threads other = some current) :
    other ≠ id := by
  rintro rfl
  cases vacant.symm.trans there

/-- A thread found after `put` is the placed one or one that was there before. -/
theorem put_cases (found : (pool.put shared id thread).threads other = some current) :
    other = id ∧ current = thread ∨ other ≠ id ∧ pool.threads other = some current := by
  by_cases same : other = id
  · subst same
    exact .inl ⟨rfl, Option.some.inj (found.symm.trans put_self)⟩
  · exact .inr ⟨same, (put_other same).symm.trans found⟩

end Pool

namespace Machine

variable {σ τ γ : Type} {machine : Machine σ τ γ} {allowed : τ → γ → σ → Prop}

/-- One move of the whole pool. -/
inductive Next (machine : Machine σ τ γ) (allowed : τ → γ → σ → Prop) :
    Pool σ τ → Pool σ τ → Prop where
  | enter {pool : Pool σ τ} {thread : τ} (id : Nat) (vacant : pool.threads id = none)
      (entry : machine.Entry thread) :
      Next machine allowed pool (pool.put pool.shared id thread)
  | advance {pool : Pool σ τ} {thread thread' : τ} {label : γ} {shared' : σ} (id : Nat)
    (running : pool.threads id = some thread) (permitted : allowed thread label pool.shared)
      (step : machine.Step thread label pool.shared thread' shared' none) :
      Next machine allowed pool (pool.put shared' id thread')
  | launch {pool : Pool σ τ} {thread thread' child : τ} {label : γ} {shared' : σ}
      (id childId : Nat)
    (running : pool.threads id = some thread) (vacant : pool.threads childId = none)
      (permitted : allowed thread label pool.shared)
      (step : machine.Step thread label pool.shared thread' shared' (some child)) :
      Next machine allowed pool ((pool.put shared' id thread').put shared' childId child)
  | drift {pool : Pool σ τ} {shared' : σ} (moved : machine.Drift pool.shared shared') :
      Next machine allowed pool ⟨shared', pool.threads⟩

/-- Any number of moves. -/
abbrev Runs (machine : Machine σ τ γ) (allowed : τ → γ → σ → Prop) :
    Pool σ τ → Pool σ τ → Prop :=
  Relation.ReflTransGen (machine.Next allowed)

/-- Pools some run of allowed sections reaches from an initial state. -/
def Reachable (machine : Machine σ τ γ) (allowed : τ → γ → σ → Prop) (pool : Pool σ τ) : Prop :=
  ∃ shared, machine.Initial shared ∧ machine.Runs allowed (.start shared) pool

/-- Continuing a reachable pool stays reachable. -/
theorem Reachable.runs {pool pool' : Pool σ τ} (reachable : machine.Reachable allowed pool)
    (runs : machine.Runs allowed pool pool') : machine.Reachable allowed pool' := by
  obtain ⟨shared, initial, prior⟩ := reachable
  exact ⟨shared, initial, prior.trans runs⟩

/-- An assertion on pools that every move from a reachable pool preserves. -/
theorem Reachable.induct {holds : Pool σ τ → Prop} {pool : Pool σ τ}
    (initial : ∀ {shared}, machine.Initial shared → holds (.start shared))
    (next : ∀ {pool pool'}, machine.Reachable allowed pool → holds pool →
      machine.Next allowed pool pool' → holds pool')
    (reachable : machine.Reachable allowed pool) : holds pool := by
  obtain ⟨shared, valid, runs⟩ := reachable
  induction runs with
  | refl => exact initial valid
  | tail prior move ih =>
    exact next ⟨shared, valid, prior⟩ ih move

/-- Every move is one drift or one allowed section, seen from the shared state. -/
theorem Next.shared {pool pool' : Pool σ τ} (next : machine.Next allowed pool pool') :
    pool'.shared = pool.shared ∨ machine.Drift pool.shared pool'.shared ∨
      ∃ id thread label thread' launched, pool.threads id = some thread ∧
        allowed thread label pool.shared ∧
        machine.Step thread label pool.shared thread' pool'.shared launched := by
  cases next with
  | enter => exact .inl rfl
  | advance id running permitted step | launch id _ running _ permitted step =>
    exact .inr (.inr ⟨id, _, _, _, _, running, permitted, step⟩)
  | drift moved => exact .inr (.inl moved)

/-- A move leaves a given thread where it is or is one of its sections. -/
theorem Next.follow {pool pool' : Pool σ τ} {id : Nat} {thread : τ}
    (next : machine.Next allowed pool pool') (running : pool.threads id = some thread) :
    pool'.threads id = some thread ∨
      ∃ label thread' launched, allowed thread label pool.shared ∧
        machine.Step thread label pool.shared thread' pool'.shared launched ∧
        pool'.threads id = some thread' := by
  cases next with
  | enter other vacant =>
    exact .inl ((Pool.put_other (Pool.ne_of_vacant vacant running)).trans running)
  | advance other present permitted step =>
    by_cases same : id = other
    · subst same
      cases running.symm.trans present
      exact .inr ⟨_, _, _, permitted, step, Pool.put_self⟩
    · exact .inl ((Pool.put_other same).trans running)
  | launch other child present vacant permitted step =>
    rw [Pool.put_other (Pool.ne_of_vacant vacant running)]
    by_cases same : id = other
    · subst same
      cases running.symm.trans present
      exact .inr ⟨_, _, _, permitted, step, Pool.put_self⟩
    · exact .inl ((Pool.put_other same).trans running)
  | drift => exact .inl running

/-- A relation that every section and every drift respects relates the two ends
of any run. -/
theorem Runs.relates {relation : σ → σ → Prop} {pool pool' : Pool σ τ}
    (reflexive : ∀ shared, relation shared shared)
    (transitive : ∀ {a b c}, relation a b → relation b c → relation a c)
    (drift : ∀ {shared shared'}, machine.Drift shared shared' → relation shared shared')
    (step : ∀ {thread label shared thread' shared' launched}, allowed thread label shared →
      machine.Step thread label shared thread' shared' launched → relation shared shared')
    (runs : machine.Runs allowed pool pool') : relation pool.shared pool'.shared := by
  induction runs with
  | refl => exact reflexive _
  | tail _ next ih =>
    refine transitive ih ?_
    rcases next.shared with same | moved | ⟨_, _, _, _, _, _, permitted, section'⟩
    · rw [same]
      exact reflexive _
    · exact drift moved
    · exact step permitted section'

/-- A shared invariant that every section preserves holds in every reachable pool. -/
theorem Reachable.invariant {holds : σ → Prop} {pool : Pool σ τ}
    (initial : ∀ {shared}, machine.Initial shared → holds shared)
    (drift : ∀ {shared shared'}, holds shared → machine.Drift shared shared' → holds shared')
    (step : ∀ {thread label shared thread' shared' launched}, holds shared →
      allowed thread label shared → machine.Step thread label shared thread' shared' launched →
        holds shared')
    (reachable : machine.Reachable allowed pool) : holds pool.shared := by
  obtain ⟨shared, valid, runs⟩ := reachable
  exact @Runs.relates σ τ γ machine allowed (fun before after => holds before → holds after) _ _
    (fun _ => id) (fun first second => second ∘ first)
    (fun moved before => drift before moved)
    (fun permitted section' before => step before permitted section') runs (initial valid)

/-- An assertion attached to each thread, where the sections of other threads may be judged by the
whole reachable pool they are taken in. -/
theorem Reachable.asserts {asserted : τ → σ → Prop} {pool : Pool σ τ} {id : Nat} {thread : τ}
    (entry : ∀ {thread shared}, machine.Entry thread → asserted thread shared)
    (drift : ∀ {thread shared shared'}, asserted thread shared → machine.Drift shared shared' →
      asserted thread shared')
    (own : ∀ {pool id thread label thread' shared' launched}, machine.Reachable allowed pool →
      pool.threads id = some thread → asserted thread pool.shared →
        allowed thread label pool.shared →
      machine.Step thread label pool.shared thread' shared' launched →
      asserted thread' shared' ∧ ∀ child ∈ launched, asserted child shared')
    (frame : ∀ {pool id other thread current label thread' shared' launched},
      machine.Reachable allowed pool →
      pool.threads id = some thread → other ≠ id → pool.threads other = some current →
      asserted current pool.shared → allowed thread label pool.shared →
      machine.Step thread label pool.shared thread' shared' launched → asserted current shared')
    (reachable : machine.Reachable allowed pool) (running : pool.threads id = some thread) :
    asserted thread pool.shared := by
  refine @Reachable.induct _ _ _ _ _
    (fun pool => ∀ {id thread}, pool.threads id = some thread → asserted thread pool.shared)
    _ ?_ ?_ reachable
    _ _ running
  · intro shared _ id thread found
    simp [Pool.start] at found
  intro pool pool' reached before next
  cases next with
  | enter _ _ valid =>
    intro other current found
    rcases Pool.put_cases found with ⟨_, rfl⟩ | ⟨_, found⟩
    · exact entry valid
    · exact before found
  | advance _ running permitted taken =>
    intro other current found
    rcases Pool.put_cases found with ⟨_, rfl⟩ | ⟨distinct, found⟩
    · exact (own reached running (before running) permitted taken).1
    · exact frame reached running distinct found (before found) permitted taken
  | launch _ _ running _ permitted taken =>
    intro other current found
    have after := own reached running (before running) permitted taken
    rcases Pool.put_cases found with ⟨_, rfl⟩ | ⟨_, found⟩
    · exact after.2 _ rfl
    · rcases Pool.put_cases found with ⟨_, rfl⟩ | ⟨distinct, found⟩
      · exact after.1
      · exact frame reached running distinct found (before found) permitted taken
  | drift moved => exact fun found => drift (before found) moved

/-- An interference-free proof outline. `Shared` is an invariant of the state,
`Local` is asserted at a thread's program point, and `Apart` relates any two
distinct threads. -/
structure Outline (machine : Machine σ τ γ) (allowed : τ → γ → σ → Prop) where
  Shared : σ → Prop
  Local : τ → σ → Prop
  Apart : τ → τ → σ → Prop
  symmetric : ∀ {first second shared}, Apart first second shared → Apart second first shared
  initial : ∀ {shared}, machine.Initial shared → Shared shared
  entryLocal : ∀ {thread shared}, machine.Entry thread → Shared shared → Local thread shared
  entryApart : ∀ {thread other shared}, machine.Entry thread → Shared shared →
    Local other shared → Apart thread other shared
  driftShared : ∀ {shared shared'}, Shared shared → machine.Drift shared shared' → Shared shared'
  driftLocal : ∀ {thread shared shared'}, Shared shared → Local thread shared →
    machine.Drift shared shared' → Local thread shared'
  driftApart : ∀ {first second shared shared'}, Shared shared → Apart first second shared →
    machine.Drift shared shared' → Apart first second shared'
  /-- What a thread's own section establishes. -/
  own : ∀ {thread label shared thread' shared' launched}, Shared shared → Local thread shared →
    allowed thread label shared → machine.Step thread label shared thread' shared' launched →
    Shared shared' ∧ Local thread' shared' ∧
      ∀ child ∈ launched, Local child shared' ∧ Apart thread' child shared'
  /-- What a section leaves true of another thread. -/
  frame : ∀ {thread label shared thread' shared' launched other}, Shared shared →
    Local thread shared → Local other shared → Apart thread other shared →
    allowed thread label shared → machine.Step thread label shared thread' shared' launched →
    Local other shared' ∧ Apart thread' other shared' ∧
      ∀ child ∈ launched, Apart child other shared'
  /-- What a section leaves true between two other threads. -/
  frameApart : ∀ {thread label shared thread' shared' launched first second}, Shared shared →
    Local thread shared → Local first shared → Local second shared →
    Apart thread first shared → Apart thread second shared → Apart first second shared →
    allowed thread label shared → machine.Step thread label shared thread' shared' launched →
    Apart first second shared'

namespace Outline

/-- The three parts of an outline at one pool. -/
structure Valid (outline : machine.Outline allowed) (pool : Pool σ τ) : Prop where
  shared : outline.Shared pool.shared
  threads : ∀ {id thread}, pool.threads id = some thread → outline.Local thread pool.shared
  apart : ∀ {first second left right}, first ≠ second → pool.threads first = some left →
    pool.threads second = some right → outline.Apart left right pool.shared

variable (outline : machine.Outline allowed)

/-- A thread placed over a new shared state keeps the outline valid when it and what was there
agree with that state and each other. -/
theorem Valid.put {outline : machine.Outline allowed} {pool : Pool σ τ} {shared' : σ} {thread : τ}
    {id : Nat} (shared : outline.Shared shared') (here : outline.Local thread shared')
    (others : ∀ {other current}, other ≠ id → pool.threads other = some current →
      outline.Local current shared' ∧ outline.Apart thread current shared')
    (between : ∀ {first second left right}, first ≠ second → first ≠ id → second ≠ id →
      pool.threads first = some left → pool.threads second = some right →
      outline.Apart left right shared') : outline.Valid (pool.put shared' id thread) where
  shared := shared
  threads := by
    intro other current found
    rcases Pool.put_cases found with ⟨_, rfl⟩ | ⟨distinct, found⟩
    · exact here
    · exact (others distinct found).1
  apart := by
    intro first second left right distinct leftFound rightFound
    rcases Pool.put_cases leftFound with ⟨leftSame, rfl⟩ | ⟨leftOther, leftBefore⟩ <;>
      rcases Pool.put_cases rightFound with ⟨rightSame, rfl⟩ | ⟨rightOther, rightFound⟩
    · exact absurd (leftSame.trans rightSame.symm) distinct
    · exact (others rightOther rightFound).2
    · exact outline.symmetric (others leftOther leftBefore).2
    · exact between distinct leftOther rightOther leftBefore rightFound

/-- A thread entering at an entry point keeps the outline valid. -/
theorem Valid.enter {outline : machine.Outline allowed} {pool : Pool σ τ} {thread : τ} {id : Nat}
    (valid : outline.Valid pool) (entry : machine.Entry thread) :
    outline.Valid (pool.put pool.shared id thread) := by
  refine .put valid.shared (outline.entryLocal entry valid.shared) ?_
    fun distinct _ _ => valid.apart distinct
  intro other current _ found
  have there := valid.threads found
  exact ⟨there, outline.entryApart entry valid.shared there⟩

section Section

variable {outline : machine.Outline allowed} {pool : Pool σ τ} {thread thread' child : τ}
  {label : γ} {shared' : σ} {launched : Option τ} {id childId : Nat}

/-- A section keeps the outline valid for the threads that were already there. -/
theorem Valid.advance (valid : outline.Valid pool) (running : pool.threads id = some thread)
    (permitted : allowed thread label pool.shared)
    (step : machine.Step thread label pool.shared thread' shared' launched) :
    outline.Valid (pool.put shared' id thread') := by
  have here := valid.threads running
  obtain ⟨shared, ownLocal, _⟩ := outline.own valid.shared here permitted step
  refine .put shared ownLocal ?_ ?_
  · intro other current distinct found
    have framed := outline.frame valid.shared here (valid.threads found)
      (valid.apart distinct.symm running found) permitted step
    exact ⟨framed.1, framed.2.1⟩
  · intro first second left right distinct leftOther rightOther leftFound rightFound
    exact outline.frameApart valid.shared here (valid.threads leftFound)
      (valid.threads rightFound) (valid.apart leftOther.symm running leftFound)
      (valid.apart rightOther.symm running rightFound)
      (valid.apart distinct leftFound rightFound) permitted step

/-- A section that launches a thread keeps the outline valid. -/
theorem Valid.launch (valid : outline.Valid pool) (running : pool.threads id = some thread)
    (permitted : allowed thread label pool.shared)
    (step : machine.Step thread label pool.shared thread' shared' (some child)) :
    outline.Valid ((pool.put shared' id thread').put shared' childId child) := by
  have here := valid.threads running
  have advanced := valid.advance running permitted step
  obtain ⟨_, _, launched⟩ := outline.own valid.shared here permitted step
  obtain ⟨childLocal, childApart⟩ := launched child rfl
  refine .put advanced.shared childLocal ?_ fun distinct _ _ => advanced.apart distinct
  intro other current _ found
  refine ⟨advanced.threads found, ?_⟩
  rcases Pool.put_cases found with ⟨_, rfl⟩ | ⟨distinct, found⟩
  · exact outline.symmetric childApart
  · exact (outline.frame valid.shared here (valid.threads found)
      (valid.apart distinct.symm running found) permitted step).2.2 child rfl

end Section

/-- Every move keeps the outline valid. -/
theorem Valid.next {outline : machine.Outline allowed} {pool pool' : Pool σ τ}
    (valid : outline.Valid pool) (next : machine.Next allowed pool pool') :
    outline.Valid pool' := by
  cases next with
  | enter id _ entry => exact valid.enter entry
  | advance id running permitted step => exact valid.advance running permitted step
  | launch id childId running vacant permitted step =>
    exact valid.launch running permitted step
  | drift moved =>
    exact ⟨outline.driftShared valid.shared moved,
      fun running => outline.driftLocal valid.shared (valid.threads running) moved,
      fun distinct left right =>
        outline.driftApart valid.shared (valid.apart distinct left right) moved⟩

/-- An outline is valid in every reachable pool. -/
theorem valid_of_reachable {pool : Pool σ τ} (reachable : machine.Reachable allowed pool) :
    outline.Valid pool := by
  obtain ⟨shared, initial, runs⟩ := reachable
  induction runs with
  | refl =>
    exact ⟨outline.initial initial, fun running => by simp [Pool.start] at running,
      fun _ running => by simp [Pool.start] at running⟩
  | tail _ next ih => exact ih.next next

end Outline

end Machine

end KernalApi.Semantics
