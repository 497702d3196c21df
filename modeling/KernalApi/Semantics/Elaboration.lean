import KernalApi.Semantics.Interleaving

/-!
# Machines that keep a record

A proof about a run often needs to know something that the state has forgotten.
`Elaborates` relates a machine to one that carries more: every run of either
machine is seen as a run of the other. `Machine.recording` adds a record to the
shared state, and `Machine.logging` gives every thread a log of its own.
-/

namespace KernalApi.Semantics

namespace Pool

variable {σ τ σ' τ' : Type}

/-- A pool seen through its shared state and through each of its threads. -/
def map (shared : σ' → σ) (thread : τ' → τ) (pool : Pool σ' τ') : Pool σ τ :=
  ⟨shared pool.shared, fun id => (pool.threads id).map thread⟩

variable {shared : σ' → σ} {thread : τ' → τ}

@[simp] theorem map_shared (pool : Pool σ' τ') :
    (pool.map shared thread).shared = shared pool.shared := rfl

@[simp] theorem map_threads (pool : Pool σ' τ') (id : Nat) :
    (pool.map shared thread).threads id = (pool.threads id).map thread := rfl

theorem map_put (pool : Pool σ' τ') (state : σ') (id : Nat) (current : τ') :
    (pool.put state id current).map shared thread =
      (pool.map shared thread).put (shared state) id (thread current) :=
  congrArg (Pool.mk _) (Function.comp_update (Option.map thread) pool.threads id (some current))

end Pool

namespace Machine

variable {σ τ σ' τ' γ : Type}

/-- A machine that carries more than another and takes the same steps. -/
structure Elaborates (fine : Machine σ' τ' γ) (coarse : Machine σ τ γ) (shared : σ' → σ)
    (thread : τ' → τ) : Prop where
  initial : ∀ {state}, fine.Initial state → coarse.Initial (shared state)
  entry : ∀ {point}, fine.Entry point → coarse.Entry (thread point)
  step : ∀ {point label state point' state' launched},
    fine.Step point label state point' state' launched →
    coarse.Step (thread point) label (shared state) (thread point') (shared state')
      (launched.map thread)
  drift : ∀ {state state'}, fine.Drift state state' → coarse.Drift (shared state) (shared state')
  coversInitial : ∀ {state}, coarse.Initial state → ∃ state', fine.Initial state' ∧
    shared state' = state
  coversEntry : ∀ {point}, coarse.Entry point → ∃ point', fine.Entry point' ∧ thread point' = point
  coversStep : ∀ {point label state next after launched},
    coarse.Step (thread point) label (shared state) next after launched →
    ∃ next' after' launched', fine.Step point label state next' after' launched' ∧
      thread next' = next ∧ shared after' = after ∧ launched'.map thread = launched
  coversDrift : ∀ {state after}, coarse.Drift (shared state) after →
    ∃ after', fine.Drift state after' ∧ shared after' = after

namespace Elaborates

variable {fine : Machine σ' τ' γ} {coarse : Machine σ τ γ} {shared : σ' → σ} {thread : τ' → τ}
  {allowed : τ → γ → σ → Prop}

/-- Each move of the finer machine is a move of the coarser one. -/
theorem next (elaborates : fine.Elaborates coarse shared thread) {pool pool' : Pool σ' τ'}
    (next : fine.Next (fun point label state => allowed (thread point) label (shared state))
      pool pool') :
    coarse.Next allowed (pool.map shared thread) (pool'.map shared thread) := by
  cases next with
  | enter id vacant entry =>
    rw [Pool.map_put]
    exact .enter id (by simp [vacant]) (elaborates.entry entry)
  | advance id running permitted step =>
    rw [Pool.map_put]
    exact .advance id (by simp [running]) permitted (elaborates.step step)
  | launch id childId running vacant permitted step =>
    rw [Pool.map_put, Pool.map_put]
    exact .launch id childId (by simp [running]) (by simp [vacant]) permitted (elaborates.step step)
  | drift moved => exact .drift (elaborates.drift moved)

/-- Pools the finer machine reaches are reached by the coarser one. -/
theorem reachable (elaborates : fine.Elaborates coarse shared thread) {pool : Pool σ' τ'}
    (reachable : fine.Reachable (fun point label state =>
      allowed (thread point) label (shared state)) pool) :
    coarse.Reachable allowed (pool.map shared thread) := by
  obtain ⟨state, initial, runs⟩ := reachable
  refine ⟨shared state, elaborates.initial initial, ?_⟩
  induction runs with
  | refl => exact .refl
  | tail _ move ih => exact ih.tail (elaborates.next move)

/-- A thread seen in the coarser pool is there in the finer one. -/
theorem running {pool : Pool σ' τ'} {id : Nat} {point : τ}
    (found : (pool.map shared thread).threads id = some point) :
    ∃ point', pool.threads id = some point' ∧ thread point' = point := by
  simpa using found

/-- Each move of the coarser machine is the view of a move of the finer one. -/
theorem covers_next (elaborates : fine.Elaborates coarse shared thread) {pool : Pool σ' τ'}
    {view : Pool σ τ} (next : coarse.Next allowed (pool.map shared thread) view) :
    ∃ pool', fine.Next (fun point label state => allowed (thread point) label (shared state))
      pool pool' ∧ pool'.map shared thread = view := by
  cases next with
  | enter id vacant entry =>
    obtain ⟨point, entry', rfl⟩ := elaborates.coversEntry entry
    exact ⟨_, .enter id (by simpa using vacant) entry', Pool.map_put _ _ _ _⟩
  | advance id found permitted step =>
    obtain ⟨point, present, rfl⟩ := running found
    obtain ⟨next', after', launched, taken, rfl, rfl, none⟩ := elaborates.coversStep step
    obtain rfl := Option.map_eq_none_iff.mp none
    exact ⟨_, .advance id present permitted taken, Pool.map_put _ _ _ _⟩
  | launch id childId found vacant permitted step =>
    obtain ⟨point, present, rfl⟩ := running found
    obtain ⟨next', after', launched, taken, rfl, rfl, some⟩ := elaborates.coversStep step
    obtain ⟨child, rfl, rfl⟩ := Option.map_eq_some_iff.mp some
    refine ⟨_, .launch id childId present (by simpa using vacant) permitted taken, ?_⟩
    rw [Pool.map_put, Pool.map_put]
  | drift moved =>
    obtain ⟨after', taken, rfl⟩ := elaborates.coversDrift moved
    exact ⟨_, .drift taken, rfl⟩

/-- Every pool the coarser machine reaches is the view of one the finer machine reaches. -/
theorem covers (elaborates : fine.Elaborates coarse shared thread) {view : Pool σ τ}
    (reachable : coarse.Reachable allowed view) :
    ∃ pool, fine.Reachable (fun point label state => allowed (thread point) label (shared state))
      pool ∧ pool.map shared thread = view := by
  obtain ⟨state, initial, runs⟩ := reachable
  obtain ⟨state', initial', rfl⟩ := elaborates.coversInitial initial
  induction runs with
  | refl => exact ⟨.start state', ⟨state', initial', .refl⟩, rfl⟩
  | tail _ move ih =>
    obtain ⟨pool, reached, rfl⟩ := ih
    obtain ⟨pool', taken, view⟩ := elaborates.covers_next move
    exact ⟨pool', reached.runs (.single taken), view⟩

end Elaborates

/-- The machine whose shared state carries a record of its sections. -/
def recording {ρ : Type} (machine : Machine σ τ γ) (blank : ρ) (observe : τ → γ → σ → ρ → ρ) :
    Machine (σ × ρ) τ γ where
  Initial state := machine.Initial state.1 ∧ state.2 = blank
  Entry := machine.Entry
  Step thread label state thread' state' launched :=
    machine.Step thread label state.1 thread' state'.1 launched ∧
      state'.2 = observe thread label state.1 state.2
  Drift state state' := machine.Drift state.1 state'.1 ∧ state'.2 = state.2

theorem recording_elaborates {ρ : Type} (machine : Machine σ τ γ) (blank : ρ)
    (observe : τ → γ → σ → ρ → ρ) :
    (machine.recording blank observe).Elaborates machine Prod.fst id where
  initial valid := valid.1
  entry valid := valid
  step taken := by simpa using taken.1
  drift moved := moved.1
  coversInitial valid := ⟨(_, blank), ⟨valid, rfl⟩, rfl⟩
  coversEntry valid := ⟨_, valid, rfl⟩
  coversStep {point label state next after launched} taken :=
    ⟨next, (after, observe point label state.1 state.2), launched, ⟨taken, rfl⟩, rfl, rfl, by simp⟩
  coversDrift {state after} moved := ⟨(after, state.2), ⟨moved, rfl⟩, rfl⟩

end Machine

end KernalApi.Semantics
