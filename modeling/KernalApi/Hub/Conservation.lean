import KernalApi.Hub.Attendance
import KernalApi.Hub.Schedule

/-!
# Conservation of credits

The counters of the hub, the charges of the component budgets and the busy flags
of the compiler processes are what the live native objects hold. So no section
that gives capacity back can take more from a counter than is there.
-/

namespace KernalApi.Hub

open KernalApi.Std Semantics Credit
open Credit (weigh)

variable {section' : Section} {pool : Pool State Thread}
  {hub : OperationHub} {allowed : Thread → Move → State → Prop}

/-- The output reads of a process that are pending or not yet collected: wire
reads by their operations, native reads by their leases. -/
def State.outstandingReads (state : State) (objects : Multiset Credit) (process : OpaqueToken) :
    Nat :=
  (state.wireReads process).card + weigh (Credit.nativeReads process) objects

/-- The counters of a state are the credit that the live objects hold. -/
structure Conserved (state : State) (audit : Audit) (objects : Multiset Credit) : Prop where
  output : state.reservedProcessOutputBytes = maxProcessOutputChunk * weigh Credit.reads objects
  native : state.nativeTransferCapacity =
    weigh Credit.chunkBytes objects + state.budgets.sum Budget.chargedBytes
  budget : ∀ {budget credits}, state.budgets.get? budget = some credits →
    credits.chargedBytes = weigh (Credit.leaseBytes budget) objects + audit.drained budget
  busy : ∀ {process busy}, state.busy? process = some busy →
    (busy = true ↔ state.outstandingReads objects process = 1) ∧
      state.outstandingReads objects process ≤ 1

/-- What a section takes from a counter is there. -/
def Section.covered (state : State) : Section → Prop
  | .releaseNative capacity => capacity ≤ state.nativeTransferCapacity
  | .publishOutput _ _ _ | .dropOutput _ _ _ _ =>
    maxProcessOutputChunk ≤ state.reservedProcessOutputBytes
  | .releaseNativeOutput =>
    nativeProcessOutputAllowance ≤ state.reservedNativeProcessOutputBytes
  | .dropLease budget bytes => ∃ credits, state.budgets.get? budget = some credits ∧
      1 ≤ credits.resources ∧ bytes ≤ credits.chargedBytes ∧ bytes ≤ state.nativeTransferCapacity
  | .finishTeardown budget => ∀ credits, state.budgets.get? budget = some credits →
      credits.chargedBytes ≤ state.nativeTransferCapacity
  | _ => True

/-- A thread holds what its next section gives back. -/
theorem Thread.gives_le_credits {thread : Thread} {choice : Choice}
    (moves : thread.move hub choice = some (.locked section')) (even : thread.even) :
    Section.gives section' .done ≤ thread.credits := by
  unfold move at moves
  split at moves
  all_goals first
    | (cases moves; done)
    | (cases moves; exact Multiset.zero_le _)
    | (cases moves; exact Multiset.le_add_right _ _)
    | (cases moves; exact even.2.1 ▸ Multiset.zero_le _)
    | (cases moves; exact le_refl _)
    | (split at moves <;> cases moves; exact Multiset.zero_le _)

section Balance

variable {state : State} {audit : Audit} {objects : Multiset Credit}

/-- A section that gives back what a live object holds is covered. -/
theorem Section.covered_of_balanced (balanced : Balanced state.accounts audit objects)
    (held : Section.gives section' .done ≤ objects) : Section.covered state section' := by
  have member : ∀ {credit : Credit}, {credit} ≤ objects → credit ∈ objects :=
    fun single => Multiset.singleton_le.mp single
  have native : state.nativeTransferCapacity =
      weigh chunkBytes objects + state.budgets.sum Budget.chargedBytes := balanced.native
  have output : state.reservedProcessOutputBytes =
      maxProcessOutputChunk * weigh reads objects := balanced.output
  have reading : ∀ {process wire}, read process wire ∈ objects →
      maxProcessOutputChunk ≤ state.reservedProcessOutputBytes := by
    intro process wire live
    have one : 1 ≤ weigh reads objects := le_weigh reads live
    rw [output]
    exact Nat.le_mul_of_pos_right _ one
  cases section' with
  | releaseNative capacity =>
    have part : capacity ≤ weigh chunkBytes objects :=
      le_weigh chunkBytes (member held)
    change capacity ≤ state.nativeTransferCapacity
    omega
  | publishOutput | dropOutput => exact reading (member held)
  | releaseNativeOutput =>
    have one : 1 ≤ weigh jobs objects := le_weigh jobs (member held)
    have processes : state.reservedNativeProcessOutputBytes =
      nativeProcessOutputAllowance * (weigh jobs objects + audit.lost) := balanced.processes
    change nativeProcessOutputAllowance ≤ state.reservedNativeProcessOutputBytes
    rw [processes]
    exact Nat.le_mul_of_pos_right _ (Nat.add_pos_left one _)
  | dropLease budget bytes =>
    have live := member held
    have counted : 1 ≤ weigh (leases budget) objects := by
      have one := le_weigh (leases budget) live
      simpa [leases] using one
    have weighed : bytes ≤ weigh (leaseBytes budget) objects := by
      have part := le_weigh (leaseBytes budget) live
      simpa [leaseBytes] using part
    cases stored : state.budgets.get? budget with
    | none =>
      have none := (balanced.unopened
        (show state.accounts.budgets.get? budget = none from stored)).1
      omega
    | some credits =>
      obtain ⟨resources, charged, _⟩ := balanced.budget
        (show state.accounts.budgets.get? budget = some credits from stored)
      have part : credits.chargedBytes ≤ state.budgets.sum Budget.chargedBytes :=
        SortedMap.le_sum stored _
      exact ⟨credits, stored, by omega, by omega, by omega⟩
  | finishTeardown budget =>
    intro credits stored
    have part : credits.chargedBytes ≤ state.budgets.sum Budget.chargedBytes :=
      SortedMap.le_sum stored _
    omega
  | _ => trivial

end Balance

/-- A pool with an audit of a run that leads to it. -/
def Audited (hub : OperationHub) (allowed : Thread → Move → State → Prop) (pool : Pool State Thread)
    (audit : Audit) : Prop :=
  (audited hub).Reachable (fun thread move state => allowed thread move state.1)
    ⟨(pool.shared, audit), pool.threads⟩

theorem Audited.exists_of_reachable
    (reachable : (machine hub).Reachable allowed pool) :
    ∃ audit, Audited hub allowed pool audit := by
  obtain ⟨fine, reached, rfl⟩ := (audited_elaborates hub).covers reachable
  refine ⟨fine.shared.2, ?_⟩
  have threads : (fine.map Prod.fst id).threads = fine.threads := by
    funext id
    simp
  unfold Audited
  rw [threads]
  exact reached

theorem Audited.balanced {audit : Audit} (run : Audited hub allowed pool audit) :
    Balanced pool.shared.accounts audit (pool.holdings Thread.credits) :=
  Balanced.of_reachable run

/-- In every reachable pool, under the audit of every run that leads to it, the
counters are the credit of the live objects, and the next section of every
thread takes no more from a counter than is there. -/
theorem credits_conserved {pool : Pool State Thread}
    (reachable : (machine hub).Reachable allowed pool) :
    (∃ audit, Audited hub allowed pool audit) ∧
      (∀ audit, Audited hub allowed pool audit →
        Conserved pool.shared audit (pool.holdings Thread.credits)) ∧
      ∀ id thread choice section', pool.threads id = some thread →
        thread.move hub choice = some (.locked section') → section'.covered pool.shared := by
  obtain ⟨audit, run⟩ := Audited.exists_of_reachable reachable
  refine ⟨⟨audit, run⟩, ?_, ?_⟩
  · intro audit run
    refine ⟨run.balanced.output, run.balanced.native, fun found => (run.balanced.budget found).2.1,
      ?_⟩
    intro process busy found
    rw [State.outstandingReads, (Attended.of_reachable reachable).busy found]
    cases busy <;> simp
  intro id thread choice section' running moves
  have even := Thread.even_of_reachable reachable running
  have held := Thread.gives_le_credits moves even
  obtain ⟨rest, total⟩ :
      ∃ rest, pool.holdings Thread.credits = thread.credits + rest := reachable.share_le running
  refine Section.covered_of_balanced run.balanced (held.trans ?_)
  rw [total]
  exact Multiset.le_add_right _ _

/-- A configuration that lets a compiler run: a sketch of one mebibyte. -/
def OperationHub.compiling : OperationHub :=
  { OperationHub.small with
    blobLimits := { OperationHub.small.blobLimits with
      maximumSketchBytes := 1048576
      maximumTransferBytes := 3145732
      blob_le_sketch := by decide
      transferCovers := by decide
      transferRepresentable := by decide } }

/-- A compiler is granted, spawned and published, and a native caller begins to
read its output while a component holds a lease of three bytes. -/
def readingCompiler : List Turn :=
  [.run (.grantCompiler 0 ⟨true, true, true, true⟩ 1 none),
    .call (.submitCompilerSpawn 0 2) [.proceed], .resume 2 [.proceed],
    .call (.beginCompilerOutput 0 4) [.proceed], .run (.newBudget 7),
    .call (.acquireLease 7 3) [.proceed]]

theorem credits_conserved_readingCompiler :
    ∃ pool, (machine .compiling).Reachable (fun _ _ _ => True) pool ∧
      pool.shared.reservedProcessOutputBytes = 65536 ∧ pool.shared.busy? 4 = some true ∧
      pool.shared.outstandingReads (pool.holdings Thread.credits) 4 = 1 ∧
      ∃ audit, Conserved pool.shared audit (pool.holdings Thread.credits) := by
  have played : Board.plays .compiling (fun _ _ _ => true) readingCompiler (fun board =>
      board.state.reservedProcessOutputBytes = 65536 && board.state.busy? 4 = some true) =
        true := by
    decide +kernel
  obtain ⟨board, _, reachable, goal⟩ :=
    Board.reachable_of_plays (fun _ _ _ => True) (fun _ _ _ _ => trivial) played
  simp only [Bool.and_eq_true, decide_eq_true_eq] at goal
  obtain ⟨⟨audit, run⟩, conserved, _⟩ := credits_conserved reachable
  have kept := conserved audit run
  exact ⟨board.pool, reachable, goal.1, goal.2, (kept.busy goal.2).1.mp rfl, audit, kept⟩

end KernalApi.Hub
