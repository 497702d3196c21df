import KernalApi.Semantics.Interleaving
import Mathlib.Algebra.BigOperators.Finprod
import Mathlib.Algebra.Order.Group.Multiset

/-!
# What the threads of a pool hold together

Each thread holds something of its own, such as a credit it will give back.
`Pool.holdings` adds up what all threads hold, in any commutative monoid. The
rule `Reachable.accounts` relates the shared state to this total: it asks of each
section only what it does to the state and to its own thread's share.
-/

namespace KernalApi.Semantics

namespace Pool

variable {σ τ M : Type} [AddCommMonoid M] (held : τ → M)

/-- What the thread under an identifier holds. -/
def share (pool : Pool σ τ) (id : Nat) : M := (pool.threads id).elim 0 held

/-- What all threads hold. -/
noncomputable def holdings (pool : Pool σ τ) : M := ∑ᶠ id, pool.share held id

/-- What all threads but one hold. -/
noncomputable def others (pool : Pool σ τ) (id : Nat) : M :=
  ∑ᶠ (other : Nat) (_ : other ≠ id), pool.share held other

/-- Only finitely many threads have entered. -/
def FewThreads (pool : Pool σ τ) : Prop := {id | pool.threads id ≠ none}.Finite

variable {held} {pool : Pool σ τ} {shared : σ} {id : Nat} {thread : τ}

theorem FewThreads.put (few : pool.FewThreads) (shared : σ) (id : Nat) (thread : τ) :
    (pool.put shared id thread).FewThreads := by
  refine (Set.Finite.insert id few).subset ?_
  intro other present
  by_cases same : other = id
  · exact .inl same
  · simp only [Pool.put, Set.mem_ofPred_eq, Function.update_of_ne same] at present
    exact .inr present

theorem FewThreads.finite_support (few : pool.FewThreads) :
    (Function.support (pool.share held)).Finite := by
  apply few.subset
  intro id held absent
  exact held (by simp [share, absent])

@[simp] theorem holdings_start (shared : σ) : (start shared : Pool σ τ).holdings held = 0 := by
  simp [holdings, share, start]

/-- The total is one thread's share and that of the others. -/
theorem holdings_eq (few : pool.FewThreads) (id : Nat) :
    pool.holdings held = pool.share held id + pool.others held id :=
  (add_finsum_cond_ne id few.finite_support).symm

/-- The total is what one thread holds and what the others do. -/
theorem holdings_running (few : pool.FewThreads) (running : pool.threads id = some thread) :
    pool.holdings held = held thread + pool.others held id := by
  rw [holdings_eq few id, share, running, Option.elim_some]

/-- Placing a thread exchanges its share. -/
theorem holdings_put (few : pool.FewThreads) :
    (pool.put shared id thread).holdings held = held thread + pool.others held id := by
  have others : (pool.put shared id thread).others held id = pool.others held id :=
    finsum_congr fun other => finsum_congr fun distinct => by
      simp [share, put, Function.update_of_ne distinct]
  rw [holdings_running (few.put shared id thread) put_self, others]

/-- A vacant place holds nothing. -/
theorem others_of_vacant (few : pool.FewThreads) (vacant : pool.threads id = none) :
    pool.others held id = pool.holdings held := by
  rw [holdings_eq few id]
  simp [share, vacant]

/-- Threads that hold nothing hold nothing together. -/
theorem holdings_eq_zero (none : ∀ {id thread}, pool.threads id = some thread → held thread = 0) :
    pool.holdings held = 0 := by
  refine finsum_eq_zero_of_forall_eq_zero fun id => ?_
  cases found : pool.threads id with
  | none => simp [share, found]
  | some => simp [share, found, none found]

/-- Where the others hold nothing, the total is one thread's. -/
theorem holdings_eq_of_alone (few : pool.FewThreads) (running : pool.threads id = some thread)
    (none : ∀ {other current}, other ≠ id → pool.threads other = some current → held current = 0) :
    pool.holdings held = held thread := by
  have others : pool.others held id = 0 := by
    refine finsum_eq_zero_of_forall_eq_zero fun other => ?_
    have each : ∀ _ : other ≠ id, pool.share held other = 0 := by
      intro distinct
      cases found : pool.threads other with
      | none => simp [share, found]
      | some => simp [share, found, none distinct found]
    exact (finsum_congr each).trans finsum_zero
  rw [holdings_running few running, others, add_zero]

/-- A homomorphism takes the total to the total of the images. -/
theorem map_holdings {N : Type} [AddCommMonoid N] (image : M →+ N) (few : pool.FewThreads) :
    image (pool.holdings held) = pool.holdings (fun thread => image (held thread)) := by
  rw [holdings, image.map_finsum few.finite_support]
  refine finsum_congr fun id => ?_
  cases found : pool.threads id with
  | none | some => simp [share, found]

/-- What is in the total is held by some thread. -/
theorem exists_of_mem_holdings {α : Type} [DecidableEq α] {held : τ → Multiset α} {item : α}
    (few : pool.FewThreads) (member : item ∈ pool.holdings held) :
    ∃ id thread, pool.threads id = some thread ∧ item ∈ held thread := by
  by_contra nobody
  have counted : (pool.holdings held).count item = ∑ᶠ id, (pool.share held id).count item :=
    (Multiset.countAddMonoidHom item).map_finsum few.finite_support
  have zero : ∑ᶠ id, (pool.share held id).count item = 0 := by
    refine finsum_eq_zero_of_forall_eq_zero fun id => ?_
    rw [Multiset.count_eq_zero]
    intro here
    cases found : pool.threads id with
    | none => simp [share, found] at here
    | some thread =>
      simp only [share, found] at here
      exact nobody ⟨id, thread, found, here⟩
  rw [zero] at counted
  exact Multiset.count_ne_zero.mpr member counted

end Pool

namespace Machine

variable {σ τ γ M : Type} [AddCommMonoid M] {machine : Machine σ τ γ}
  {allowed : τ → γ → σ → Prop} {held : τ → M}

theorem Reachable.few {pool : Pool σ τ} (reachable : machine.Reachable allowed pool) :
    pool.FewThreads := by
  apply reachable.induct (fun _ => by simp [Pool.FewThreads, Pool.start])
  intro pool pool' _ few next
  cases next with
  | enter | advance => exact few.put _ _ _
  | launch => exact (few.put _ _ _).put _ _ _
  | drift => exact few

/-- A relation between the shared state and what the threads hold, kept by each
section with its own thread's share and that of a thread it launches. -/
theorem Reachable.accounts {holds : σ → M → Prop} {pool : Pool σ τ}
    (initial : ∀ {shared}, machine.Initial shared → holds shared 0)
    (entry : ∀ {thread}, machine.Entry thread → held thread = 0)
    (drift : ∀ {shared shared' total}, machine.Drift shared shared' → holds shared total →
      holds shared' total)
    (step : ∀ {pool id thread label thread' shared' launched rest},
      machine.Reachable allowed pool → pool.threads id = some thread →
      allowed thread label pool.shared →
      machine.Step thread label pool.shared thread' shared' launched →
      holds pool.shared (held thread + rest) →
      holds shared' (held thread' + launched.elim 0 held + rest))
    (reachable : machine.Reachable allowed pool) : holds pool.shared (pool.holdings held) := by
  refine @Reachable.induct _ _ _ _ _ (fun pool => holds pool.shared (pool.holdings held)) _ ?_ ?_
    reachable
  · intro shared valid
    rw [Pool.holdings_start]
    exact initial valid
  intro pool pool' reachable before next
  have few := reachable.few
  cases next with
  | enter id vacant valid =>
    rw [Pool.holdings_put few, entry valid, zero_add, Pool.others_of_vacant few vacant]
    exact before
  | advance id running permitted taken =>
    rw [Pool.holdings_running few running] at before
    have after := step reachable running permitted taken before
    rw [Pool.holdings_put few]
    simpa using after
  | launch id childId running vacant permitted taken =>
    rename_i thread thread' child label shared'
    have placed := few.put shared' id thread'
    have stillVacant : (pool.put shared' id thread').threads childId = none :=
      (Pool.put_other (Pool.ne_of_vacant vacant running).symm).trans vacant
    rw [Pool.holdings_running few running] at before
    have after := step reachable running permitted taken before
    rw [Pool.holdings_put placed, Pool.others_of_vacant placed stillVacant,
      Pool.holdings_put few, ← add_assoc, add_comm (held child)]
    exact after
  | drift moved => exact drift moved before

/-- What one thread holds is part of the total. -/
theorem Reachable.share_le {pool : Pool σ τ} {id : Nat} {thread : τ}
    (reachable : machine.Reachable allowed pool) (running : pool.threads id = some thread) :
    ∃ rest, pool.holdings held = held thread + rest :=
  ⟨_, Pool.holdings_running reachable.few running⟩

end Machine

end KernalApi.Semantics
