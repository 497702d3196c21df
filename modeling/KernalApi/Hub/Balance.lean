import KernalApi.Hub.Accounts
import KernalApi.Semantics.Elaboration

/-!
# The balance of credits

An `Audit` remembers what is charged to the hub without a live object to account
for it. `Balanced` equates the counters with what the native objects hold and
what the audit remembers, and every step of the hub keeps the equation.
-/

namespace KernalApi.Hub

open KernalApi.Std Semantics Credit
open Credit (weigh)

variable {budget : Nat} {section' : Section} {allowed : Thread → Move → State → Prop}
  {pool : Pool (State × Audit) Thread} {hub : OperationHub}

/-- What is charged without a live object: the jobs that ended without
acknowledging the end of their pipes, and the bytes of leases that were dropped
while their budget was draining and are not yet released. -/
structure Audit where
  lost : Nat := 0
  drained : Nat → Nat := fun _ => 0

namespace Audit

/-- The drained bytes after a move from a state. -/
def drain (state : State) (drained : Nat → Nat) : Move → Nat → Nat
  | .locked (.dropLease budget bytes) =>
    if (state.budgets.get? budget).any Budget.draining then
      Function.update drained budget (drained budget + bytes)
    else drained
  | .locked (.finishTeardown budget) =>
    if (Hub.finishTeardown state budget).2.isOk then Function.update drained budget 0
    else drained
  | _ => drained

/-- The audit after a move of a thread from a state. -/
def observe (thread : Thread) (move : Move) (state : State) (audit : Audit) : Audit where
  lost := audit.lost + weigh Credit.jobs (thread.forfeits state move)
  drained := drain state audit.drained move

end Audit

/-- The hub with its audit. -/
def audited (hub : OperationHub) : Semantics.Machine (State × Audit) Thread Move :=
  (machine hub).recording {} Audit.observe

/-- The counters are what the native objects hold and what the audit remembers. -/
structure Balanced (accounts : Accounts) (audit : Audit) (objects : Multiset Credit) : Prop where
  native : accounts.native =
    weigh Credit.chunkBytes objects + accounts.budgets.sum Budget.chargedBytes
  output : accounts.output = maxProcessOutputChunk * weigh Credit.reads objects
  processes : accounts.processes =
    nativeProcessOutputAllowance * (weigh Credit.jobs objects + audit.lost)
  budget : ∀ {budget credits}, accounts.budgets.get? budget = some credits →
    credits.resources = weigh (Credit.leases budget) objects ∧
      credits.chargedBytes = weigh (Credit.leaseBytes budget) objects + audit.drained budget ∧
      (credits.draining = false → audit.drained budget = 0)
  unopened : ∀ {budget}, accounts.budgets.get? budget = none →
    weigh (Credit.leases budget) objects = 0 ∧ weigh (Credit.leaseBytes budget) objects = 0 ∧
      audit.drained budget = 0

section Steps

variable {accounts : Accounts} {audit : Audit} {held rest next forfeited : Multiset Credit}

/-- What a thread forfeits is at most a job. -/
theorem Thread.forfeits_weigh (state : State) (thread : Thread) (move : Move)
    {measure : Credit → Nat} (jobless : measure .job = 0) :
    weigh measure (thread.forfeits state move) = 0 := by
  unfold Thread.forfeits
  split
  · simp [jobless]
  rfl

/-- Posting the credit a thread gains and gives back keeps the balance. -/
theorem Balanced.post {takes gives : Multiset Credit} {lost : Nat}
    (balanced : Balanced accounts audit (held + rest))
    (account : held + takes = next + gives + forfeited)
    (jobs : ∀ measure : Credit → Nat, measure .job = 0 → weigh measure forfeited = 0)
    (leaseless : ∀ budget, weigh (Credit.leases budget) takes = 0 ∧
      weigh (Credit.leaseBytes budget) takes = 0 ∧ weigh (Credit.leases budget) gives = 0 ∧
      weigh (Credit.leaseBytes budget) gives = 0)
    (counted : lost = audit.lost + weigh Credit.jobs forfeited) :
    Balanced (accounts.post takes gives) ⟨lost, audit.drained⟩ (next + rest) := by
  have weighed : ∀ measure, weigh measure held + weigh measure takes =
      weigh measure next + weigh measure gives + weigh measure forfeited := by
    intro measure
    have equal := congrArg (weigh measure) account
    simpa using equal
  have leases : ∀ budget, weigh (leases budget) (next + rest) =
        weigh (leases budget) (held + rest) ∧
      weigh (leaseBytes budget) (next + rest) =
        weigh (leaseBytes budget) (held + rest) := by
    intro budget
    have counts := weighed (leases budget)
    have bytes := weighed (leaseBytes budget)
    have nothing := leaseless budget
    have noCount := jobs (leases budget) rfl
    have noBytes := jobs (leaseBytes budget) rfl
    simp only [weigh_add]
    omega
  refine ⟨?_, ?_, ?_, ?_, ?_⟩
  · have chunks := weighed chunkBytes
    have none := jobs chunkBytes rfl
    have before := balanced.native
    simp only [Accounts.post, weigh_add] at before ⊢
    omega
  · have reads := congrArg (maxProcessOutputChunk * ·) (weighed reads)
    have none := jobs Credit.reads rfl
    have before := balanced.output
    simp only [Accounts.post, weigh_add, Nat.mul_add, none] at before reads ⊢
    omega
  · have counts := congrArg (nativeProcessOutputAllowance * ·) (weighed Credit.jobs)
    have before := balanced.processes
    simp only [Accounts.post, weigh_add, Nat.mul_add, counted] at before counts ⊢
    omega
  · intro budget credits found
    rw [(leases budget).1, (leases budget).2]
    exact balanced.budget found
  · intro budget absent
    rw [(leases budget).1, (leases budget).2]
    exact balanced.unopened absent

/-- Rewriting one budget keeps the balance when its leases and the drained bytes
account for the new entry. -/
theorem Balanced.exchange {objects objects' : Multiset Credit} {audit' : Audit}
    {native : Nat} {new : Budget} (balanced : Balanced accounts audit objects)
    (charged : native + (accounts.budgets.get? budget).elim 0 Budget.chargedBytes =
      accounts.native + new.chargedBytes)
    (alike : ∀ measure : Credit → Nat, (∀ bytes, measure (.lease budget bytes) = 0) →
      weigh measure objects' = weigh measure objects)
    (lost : audit'.lost = audit.lost)
    (others : ∀ other, other ≠ budget → audit'.drained other = audit.drained other)
    (count : new.resources = weigh (Credit.leases budget) objects')
    (bytes : new.chargedBytes = weigh (Credit.leaseBytes budget) objects' + audit'.drained budget)
    (settled : new.draining = false → audit'.drained budget = 0) :
    Balanced { accounts with native, budgets := accounts.budgets.insert budget new } audit'
      objects' := by
  have elsewhere : ∀ {other}, other ≠ budget →
      weigh (leases other) objects' = weigh (leases other) objects ∧
      weigh (leaseBytes other) objects' = weigh (leaseBytes other) objects := by
    intro other distinct
    exact ⟨alike _ fun _ => by simp [leases, distinct.symm],
      alike _ fun _ => by simp [leaseBytes, distinct.symm]⟩
  refine ⟨?_, ?_, ?_, ?_, ?_⟩
  · have total := SortedMap.sum_insert_exchange accounts.budgets budget new Budget.chargedBytes
    have before := balanced.native
    have chunks := alike chunkBytes fun _ => rfl
    simp only at before ⊢
    omega
  · rw [alike reads fun _ => rfl]
    exact balanced.output
  · rw [alike jobs fun _ => rfl, lost]
    exact balanced.processes
  · intro other credits stored
    rcases SortedMap.insert_before stored with ⟨rfl, rfl⟩ | ⟨distinct, stored⟩
    · exact ⟨count, bytes, settled⟩
    · rw [(elsewhere distinct).1, (elsewhere distinct).2, others other distinct]
      exact balanced.budget stored
  · intro other absent
    by_cases same : other = budget
    · simp [same] at absent
    · rw [(elsewhere same).1, (elsewhere same).2, others other same]
      exact balanced.unopened (by simpa [same] using absent)

variable {state : State} {objects : Multiset Credit}

theorem Balanced.openBudget (balanced : Balanced state.accounts audit objects) (budget : Nat) :
    Balanced (Hub.openBudget state budget).accounts audit objects := by
  unfold Hub.openBudget
  split
  next absent =>
    have gone : state.accounts.budgets.get? budget = none := absent
    obtain ⟨counts, bytes, drained⟩ := balanced.unopened gone
    refine balanced.exchange ?_ (fun _ _ => rfl) rfl (fun _ _ => rfl) counts.symm ?_
      (fun _ => drained)
    · rw [gone]
      rfl
    · rw [bytes, drained]
  next => exact balanced

theorem Balanced.beginTeardown (balanced : Balanced state.accounts audit objects) (budget : Nat) :
    Balanced (Hub.beginTeardown state budget).accounts audit objects := by
  cases stored : state.budgets.get? budget with
  | none =>
    have same : (Hub.beginTeardown state budget).accounts = state.accounts := by
      simp [Hub.beginTeardown, SortedMap.modify_of_absent stored]
    rw [same]
    exact balanced
  | some credits =>
    have found : state.accounts.budgets.get? budget = some credits := stored
    obtain ⟨counts, bytes, _⟩ := balanced.budget found
    have same : (Hub.beginTeardown state budget).accounts = { state.accounts with
        budgets := state.accounts.budgets.insert budget { credits with draining := true } } := by
      simp only [Hub.beginTeardown, State.accounts, SortedMap.modify_eq_insert stored]
    rw [same]
    refine balanced.exchange ?_ (fun _ _ => rfl) rfl (fun _ _ => rfl) counts bytes ?_
    · simp [found]
    · simp

/-- Leasing bytes of a budget that is not draining. -/
theorem Balanced.lease {credits : Budget} (balanced : Balanced accounts audit objects)
    (stored : accounts.budgets.get? budget = some credits) (bytes : Nat) :
    Balanced { accounts with
        native := accounts.native + bytes
        budgets := accounts.budgets.insert budget
          { credits with
            chargedBytes := credits.chargedBytes + bytes
            resources := credits.resources + 1 } } audit
      ({.lease budget bytes} + objects) := by
  obtain ⟨counts, charged, settled⟩ := balanced.budget stored
  refine balanced.exchange ?_ ?_ rfl (fun _ _ => rfl) ?_ ?_ settled
  · simp only [stored, Option.elim_some]
    omega
  · intro measure nothing
    rw [weigh_add, weigh_singleton, nothing, Nat.zero_add]
  · simp only [weigh_add, weigh_singleton, leases, if_true]
    omega
  · simp only [weigh_add, weigh_singleton, leaseBytes, if_true]
    omega

/-- Dropping a lease returns its bytes, or leaves them to the draining budget. -/
theorem Balanced.dropLease {bytes : Nat}
    (balanced : Balanced state.accounts audit ({.lease budget bytes} + objects)) :
    Balanced (Hub.dropLease state budget bytes).1.accounts
      ⟨audit.lost, Audit.drain state audit.drained (.locked (.dropLease budget bytes))⟩
      objects := by
  have here : weigh (leases budget) ({.lease budget bytes} + objects) =
      1 + weigh (leases budget) objects := by
    rw [weigh_add, weigh_singleton, leases, if_pos rfl]
  have hereBytes : weigh (leaseBytes budget) ({.lease budget bytes} + objects) =
      bytes + weigh (leaseBytes budget) objects := by
    rw [weigh_add, weigh_singleton, leaseBytes, if_pos rfl]
  have alike : ∀ measure : Credit → Nat, (∀ bytes, measure (.lease budget bytes) = 0) →
      weigh measure objects = weigh measure ({.lease budget bytes} + objects) := by
    intro measure nothing
    rw [weigh_add, weigh_singleton, nothing, Nat.zero_add]
  cases stored : state.budgets.get? budget with
  | none =>
    have gone : state.accounts.budgets.get? budget = none := stored
    have nothing := (balanced.unopened gone).1
    omega
  | some credits =>
    have found : state.accounts.budgets.get? budget = some credits := stored
    obtain ⟨counts, charged, settled⟩ := balanced.budget found
    have total := SortedMap.le_sum found Budget.chargedBytes
    have native := balanced.native
    unfold Hub.dropLease
    simp only [stored, Audit.drain, Option.any_some]
    split
    next draining =>
      refine balanced.exchange ?_ alike rfl ?_ ?_ ?_ ?_
      · rw [found]
        rfl
      · intro other distinct
        simp only [Function.update_of_ne distinct]
      · simp only
        omega
      · simp only [Function.update_self]
        omega
      · intro settled
        rw [draining] at settled
        cases settled
    next open' =>
      have flowing : credits.draining = false := by simpa using open'
      have none := settled flowing
      refine balanced.exchange ?_ alike rfl (fun _ _ => rfl) ?_ ?_ fun _ => none
      · have counter : state.accounts.native = state.nativeTransferCapacity := rfl
        rw [found]
        simp only [Option.elim_some]
        omega
      all_goals
        simp only
        omega

/-- Finishing a teardown releases what its leases left behind. -/
theorem Balanced.finishTeardown (balanced : Balanced state.accounts audit objects) :
    Balanced (Hub.finishTeardown state budget).1.accounts
      ⟨audit.lost, Audit.drain state audit.drained (.locked (.finishTeardown budget))⟩ objects := by
  simp only [Audit.drain]
  unfold Hub.finishTeardown
  cases stored : state.budgets.get? budget with
  | none => exact balanced
  | some credits =>
    have found : state.accounts.budgets.get? budget = some credits := stored
    obtain ⟨counts, -, settled⟩ := balanced.budget found
    simp only
    split
    · exact balanced
    rename_i ready
    have drained : credits.draining = true := by
      by_contra open'
      exact ready (.inl (by simpa using open'))
    have unused : credits.resources = 0 := by
      by_contra some'
      exact ready (.inr some')
    have nothing := weigh_leaseBytes_of_none (counts.symm.trans unused)
    split
    · exact balanced
    have counter : state.accounts.native = state.nativeTransferCapacity := rfl
    refine balanced.exchange ?_ (fun _ _ => rfl) rfl ?_ counts ?_ ?_
    · rw [found]
      simp only [Option.elim_some]
      omega
    · intro other distinct
      exact Function.update_of_ne distinct _ _
    · exact (by simp [nothing] :
        0 = weigh (leaseBytes budget) objects + Function.update audit.drained budget 0 budget)
    · intro open'
      rw [drained] at open'
      cases open'

end Steps

theorem Section.leaseless (plain : section'.budgeting = false) (answer : Answer) (budget : Nat) :
    weigh (Credit.leases budget) (section'.takes answer) = 0 ∧
      weigh (Credit.leaseBytes budget) (section'.takes answer) = 0 ∧
      weigh (Credit.leases budget) (section'.gives answer) = 0 ∧
      weigh (Credit.leaseBytes budget) (section'.gives answer) = 0 := by
  cases section' with
  | acquireLease | dropLease => cases plain
  | readChunk | beginOutput | submitOutput | spawn =>
    cases answer <;> simp [takes, gives, leases, leaseBytes]
  | publishOutput | releaseNativeOutput =>
    simp only [takes, gives]
    split <;> simp [leases, leaseBytes]
  | _ => exact ⟨rfl, rfl, rfl, rfl⟩

theorem Audit.drain_of_plain (plain : section'.budgeting = false)
    (state : State) (drained : Nat → Nat) :
    Audit.drain state drained (.locked section') = drained := by
  cases section' <;> first | rfl | cases plain

theorem Thread.forfeits_of_budgeting (budgets : section'.budgeting = true)
    (state : State) (thread : Thread) : thread.forfeits state (.locked section') = 0 := by
  cases section' with
  | openBudget | acquireLease | dropLease | beginTeardown | finishTeardown =>
    cases thread <;> rfl
  | _ => cases budgets

/-- One step of the hub keeps the balance. -/
theorem Balanced.step {thread thread' : Thread} {move : Move} {state state' : State}
    {launched : Option Thread} {audit : Audit} {rest : Multiset Credit} (even : thread.even)
    (step : (machine hub).Step thread move state thread' state' launched)
    (balanced : Balanced state.accounts audit (thread.credits + rest)) :
    Balanced state'.accounts (audit.observe thread move state)
      (thread'.credits + launched.elim 0 Thread.credits + rest) := by
  obtain ⟨account, _⟩ := Thread.step_balance even step
  have forfeits : ∀ measure : Credit → Nat, measure .job = 0 →
      weigh measure (thread.forfeits state move) = 0 :=
    fun _ jobless => Thread.forfeits_weigh state thread move jobless
  obtain ⟨choice, moves, step⟩ := step
  rcases Thread.step_cases step with ⟨outside, rfl, _⟩ | ⟨section', locked, rfl, _⟩
  · cases moves.symm.trans outside
    exact balanced.post account forfeits (fun _ => ⟨rfl, rfl, rfl, rfl⟩) rfl
  · cases moves.symm.trans locked
    by_cases plain : section'.budgeting = false
    · have posted := balanced.post account forfeits
        (fun budget => section'.leaseless plain _ budget) rfl
      rw [Audit.observe, Audit.drain_of_plain plain, section'.run_posts hub state plain]
      exact posted
    · have budgets : section'.budgeting = true := by simpa using plain
      have unforfeited := thread.forfeits_of_budgeting budgets state
      have observed : audit.observe thread (.locked section') state =
          ⟨audit.lost, Audit.drain state audit.drained (.locked section')⟩ := by
        simp [Audit.observe, unforfeited]
      rw [observed]
      rw [unforfeited] at account
      have unmoved : section'.takes (section'.run hub state).2 = 0 →
          Section.gives section' (section'.run hub state).2 = 0 →
          Balanced state.accounts audit
            (thread'.credits + launched.elim 0 Thread.credits + rest) := by
        intro took gave
        have held : thread.credits = thread'.credits + launched.elim 0 Thread.credits := by
          simpa [Move.takes, Move.gives, took, gave] using account
        rwa [held] at balanced
      cases section' with
      | openBudget budget => exact (unmoved rfl rfl).openBudget budget
      | beginTeardown budget => exact (unmoved rfl rfl).beginTeardown budget
      | finishTeardown => exact (unmoved rfl rfl).finishTeardown
      | acquireLease budget bytes =>
        revert account unmoved
        simp only [Section.run, answering, Move.takes, Move.gives, acquireLease]
        split
        · exact fun _ unmoved => unmoved rfl rfl
        rename_i credits stored
        split_ifs
        all_goals try exact fun _ unmoved => unmoved rfl rfl
        intro account _
        have leased := balanced.lease stored bytes
        have held : thread.credits + {.lease budget bytes} =
            thread'.credits + launched.elim 0 Thread.credits := by
          simpa [Section.takes, Section.gives, Answer.of, unit, Answer.isFailure] using account
        rw [← held, add_right_comm, add_comm (thread.credits + rest)]
        exact leased
      | dropLease budget bytes =>
        have held : thread.credits = {.lease budget bytes} +
            (thread'.credits + launched.elim 0 Thread.credits) := by
          rw [add_comm]
          simpa [Move.takes, Move.gives, Section.takes, Section.gives] using account
        rw [held, add_assoc] at balanced
        exact balanced.dropLease
      | _ => cases budgets

/-- The audit restricts no run. -/
theorem audited_elaborates (hub : OperationHub) :
    (audited hub).Elaborates (machine hub) Prod.fst id :=
  Machine.recording_elaborates _ _ _

/-- In every reachable pool the counters are what the native objects hold and
what the audit remembers. -/
theorem Balanced.of_reachable
    (reachable : (audited hub).Reachable (fun thread move state => allowed thread move state.1)
      pool) :
    Balanced pool.shared.1.accounts pool.shared.2 (pool.holdings Thread.credits) := by
  refine @Machine.Reachable.accounts _ _ _ _ _ _ _ Thread.credits
    (fun shared objects => Balanced shared.1.accounts shared.2 objects) _ ?_ ?_ ?_ ?_ reachable
  · rintro ⟨state, audit⟩ ⟨⟨-, _, rfl⟩, rfl⟩
    exact ⟨rfl, rfl, rfl, fun found => by simp [State.accounts] at found, fun _ => ⟨rfl, rfl, rfl⟩⟩
  · rintro thread ⟨call, rfl⟩
    exact call.even.2
  · rintro ⟨state, audit⟩ ⟨state', audit'⟩ total ⟨moved, kept⟩ balanced
    obtain rfl : state' = state.drift := moved
    obtain rfl : audit' = audit := kept
    have same : state.drift.accounts = state.accounts :=
      Section.run_accounts hub state .drawToken rfl rfl
    rw [same]
    exact balanced
  · rintro pool id thread move thread' ⟨state', audit'⟩ launched rest reached running _
      ⟨taken, observed⟩ balanced
    have even := Thread.even_of_reachable ((audited_elaborates hub).reachable reached)
      (by simpa using running)
    obtain rfl : audit' = _ := observed
    exact balanced.step even taken

end KernalApi.Hub
