import KernalApi.Hub.Invariant
import KernalApi.Semantics.Accounting

/-!
# The credits native objects hold

A chunk, an output read, a compiler job and a component lease each hold capacity
that is charged to the hub until the object is gone. `Thread.credits` says what
the object at a program point holds. A thread gains a credit only from the answer
of the section that charged it, and loses one only with the section that gives it
back; a compiler job that ends without acknowledgement keeps its charge for good.
-/

namespace KernalApi.Hub

open Semantics

variable {hub : OperationHub}

/-- A native object that holds capacity of the hub. -/
inductive Credit where
  /-- A `NativeBlobChunk`. -/
  | chunk (capacity : Nat)
  /-- A `CompilerOutputRead` that still owns its reservation; on the wire it
  belongs to a job, else to a native caller. -/
  | read (process : OpaqueToken) (wire : Bool)
  /-- A compiler job that has not acknowledged the end of its native pipes. -/
  | job
  /-- A `ComponentResourceLease`. -/
  | lease (budget bytes : Nat)
deriving DecidableEq, Repr

namespace Section

/-- The credit a section hands to its thread. -/
def takes : Section → Answer → Multiset Credit
  | .readChunk _ _ _ _, .chunk data => {.chunk data.capacity}
  | .beginOutput _ process, .token _ => {.read process false}
  | .submitOutput _ process, .token _ => {.read process true}
  | .spawn _ _, .pair _ _ => {.job}
  | .acquireLease budget bytes, answer => if answer.isFailure then 0 else {.lease budget bytes}
  | _, _ => 0

/-- The credit a section takes back. -/
def gives : Section → Answer → Multiset Credit
  | .releaseNative capacity, _ => {.chunk capacity}
  | .dropOutput _ process wire _, _ => {.read process wire}
  | .dropLease budget bytes, _ => {.lease budget bytes}
  | .publishOutput _ process _, answer => if answer.isFailure then 0 else {.read process true}
  | .releaseNativeOutput, answer => if answer.isFailure then 0 else {.job}
  | _, _ => 0

/-- Sections whose answer decides about a credit. -/
def settlesCredit : Section → Bool
  | .readChunk _ _ _ _ | .spawn _ _ | .beginOutput _ _ | .submitOutput _ _ | .acquireLease _ _
  | .dropLease _ _ | .releaseNativeOutput | .publishOutput _ _ _ => true
  | _ => false

variable (sink : Encoder) (operation : OpaqueToken) (bytes : Bytes) (succeeded : Bool)

theorem takes_of_plain {section' : Section} (plain : section'.settlesCredit = false)
    (answer : Answer) : section'.takes answer = 0 := by
  cases section' <;> first | rfl | cases plain

theorem gives_of_plain {section' : Section} (plain : section'.settlesCredit = false)
    (answer : Answer) : section'.gives answer = section'.gives .done := by
  cases section' <;> first | rfl | cases plain

end Section

namespace Thread

/-- The credits of the native object at a program point. -/
def credits : Thread → Multiset Credit
  | .attempt section' next _ => section'.gives .done + next.credits
  | .test _ yes _ _ => yes.credits
  | .pumpWrites next _ | .pumpTail _ next _ => next.credits
  | .chunk capacity => {.chunk capacity}
  | .commitWrite _ _ data => {.chunk data.capacity}
  | .outputLease _ process | .outputReady _ process => {.read process false}
  | .outputJob _ process | .outputReceived _ process _ => {.read process true}
  | .supervise _ _ | .supervising _ _ | .cleaning _ => {.job}
  | .lease budget bytes => {.lease budget bytes}
  | _ => 0

/-- Whichever way a sequence goes on, it goes on with the same credits. -/
def even : Thread → Prop
  | .attempt section' next failed => section'.settlesCredit = false ∧
      next.credits = failed.credits ∧ next.even ∧ failed.even
  | .test section' yes no failed => section'.settlesCredit = false ∧ section'.gives .done = 0 ∧
      yes.credits = no.credits ∧ yes.credits = failed.credits ∧ yes.even ∧ no.even ∧ failed.even
  | .pumpWrites next failed | .pumpTail _ next failed =>
    next.credits = failed.credits ∧ next.even ∧ failed.even
  | _ => True

section Composed

@[simp] theorem commitEnd_balance (commit : Commit) (replaced : Bool) :
    (commitEnd commit replaced).credits = 0 ∧ (commitEnd commit replaced).even := by
  unfold commitEnd
  split
  · exact ⟨rfl, trivial⟩
  split <;> simp [credits, even, Section.gives, Section.settlesCredit]

@[simp] theorem encoderTail_balance :
    (encoderTail sink bytes).credits = 0 ∧ (encoderTail sink bytes).even := by
  unfold encoderTail
  simp only
  split <;> exact ⟨rfl, trivial⟩

@[simp] theorem encoderWrite_balance :
    (encoderWrite sink bytes).credits = 0 ∧ (encoderWrite sink bytes).even := by
  unfold encoderWrite
  split
  · exact ⟨rfl, trivial⟩
  split <;> exact ⟨rfl, trivial⟩

end Composed

end Thread


/-! ### Steps -/

/-- The credit a move hands to its thread. -/
def Move.takes (hub : OperationHub) (state : State) : Move → Multiset Credit
  | .locked section' => section'.takes (section'.run hub state).2
  | .outside => 0

/-- The credit a move takes back. -/
def Move.gives (hub : OperationHub) (state : State) : Move → Multiset Credit
  | .locked section' => section'.gives (section'.run hub state).2
  | .outside => 0

/-- A compiler job ends here without acknowledging the end of its pipes. -/
def Thread.loses (state : State) : Thread → Move → Bool
  | .supervise _ _, .locked (.terminal _ result) => decide (result.terminal = .rejected)
  | .cleaning _, .locked .releaseNativeOutput =>
    decide (state.reservedNativeProcessOutputBytes < nativeProcessOutputAllowance)
  | .cleaning _, .outside => true
  | _, _ => false

/-- The charge a move leaves behind without an owner. -/
def Thread.forfeits (state : State) (thread : Thread) (move : Move) : Multiset Credit :=
  if thread.loses state move then {.job} else 0

namespace Thread

variable {thread : Thread} {choice : Choice} {section' : Section} {state : State}

attribute [local simp] resumeLocked resumeOutside credits even forfeits loses encoderFailed
  Section.takes
  Section.gives Section.settlesCredit pumpBoth pumpQuietly closing dropChunk finishing endJob
    dropEncoder
  dropLease waitEnd waitPublish

/-- The end of a section leaves its thread even, with the credits it should have. -/
def Balances (hub : OperationHub) (state : State) (section' : Section) (thread : Thread)
    (choice : Choice) (answer : Answer) : Prop :=
  thread.credits + section'.takes answer =
      (thread.resumeLocked hub choice answer).1.credits +
        (thread.resumeLocked hub choice answer).2.elim 0 credits + section'.gives answer +
        thread.forfeits state (.locked section') ∧
    (thread.resumeLocked hub choice answer).1.even ∧
    ∀ child ∈ (thread.resumeLocked hub choice answer).2, child.even

/-- Whether a thread is composed of others. -/
def composed : Thread → Bool
  | .attempt _ _ _ | .test _ _ _ _ | .pumpWrites _ _ | .pumpTail _ _ _ => true
  | _ => false

/-- Whether a thread waits for the outcome of its submission. -/
def submits : Thread → Bool
  | .openSubmit .. | .dispatchSubmit .. | .encoderCreate .. | .suspending .. | .externalSubmit
    .. | .clockSubmit ..
  | .sealSubmit .. | .writeSubmit .. | .readSubmit .. | .commitSubmit .. | .spawnSubmit
    .. | .outputSubmit ..
  | .waitSubmit .. | .closeSubmit .. => true
  | _ => false

attribute [local simp] Balances

theorem balances_of_composed (composed : thread.composed = true)
    (moves : thread.move hub choice = some (.locked section')) (even : thread.even)
    {answer : Answer} :
    Balances hub state section' thread choice answer := by
  cases thread with
  | attempt plain next failed =>
    cases moves
    obtain ⟨free, same, later⟩ := even
    simp only [Balances, resumeLocked, Section.takes_of_plain free,
      Section.gives_of_plain free answer]
    split
    · simp [same, later, add_comm]
    simp [later, add_comm]
  | test plain yes no failed =>
    cases moves
    obtain ⟨free, nothing, sameNo, sameFailed, later⟩ := even
    rw [Balances, Section.takes_of_plain free, Section.gives_of_plain free answer, nothing]
    cases answer with
    | flag value => cases value <;> simp [sameNo, later]
    | _ => simp [sameFailed, later]
  | pumpWrites next failed =>
    cases moves
    cases answer <;> simp [even.1, even.2]
  | pumpTail progressed next failed =>
    cases moves
    cases answer with
    | flag =>
      simp only [Balances, resumeLocked]
      split <;> simp [even.1, even.2]
    | _ => simp [even.1, even.2]
  | _ => cases composed

theorem balances_of_submits (submits : thread.submits = true)
    (moves : thread.move hub choice = some (.locked section')) {answer : Answer} :
    Balances hub state section' thread choice answer := by
  cases thread with
  | openSubmit store grant resource =>
    cases grant <;> cases moves <;> cases answer <;> simp
  | dispatchSubmit dispatch =>
    cases moves
    cases answer <;>
      (simp only [Balances, resumeLocked]
       split <;> simp)
  | encoderCreate store operation maximumBytes =>
    cases moves
    cases operation <;> cases answer <;> simp
  | suspending operation store stream =>
    cases moves
    cases answer with
    | deferred completion =>
      cases completion <;> cases stream <;> simp
    | _ => simp
  | externalSubmit | clockSubmit | sealSubmit | writeSubmit | readSubmit | commitSubmit
  | spawnSubmit
  | outputSubmit | waitSubmit | closeSubmit =>
    cases moves
    cases answer <;> simp
  | _ => cases submits

theorem balances_resumeLocked (moves : thread.move hub choice = some (.locked section'))
    (even : thread.even) {answer : Answer} (answered : answer = (section'.run hub state).2) :
    Balances hub state section' thread choice answer := by
  cases thread with
  | returned => cases moves
  | attempt | test | pumpWrites | pumpTail => exact balances_of_composed rfl moves even
  | openSubmit | dispatchSubmit | encoderCreate | suspending | externalSubmit | clockSubmit
  | sealSubmit | writeSubmit | readSubmit | commitSubmit | spawnSubmit | outputSubmit | waitSubmit
  | closeSubmit =>
    exact balances_of_submits rfl moves
  | supervise operation process =>
    cases choice with
    | proceed =>
      cases moves
      simp only [Balances, resumeLocked]
      split <;> simp
    | finish terminal =>
      simp only [move] at moves
      split at moves
      next named =>
        cases moves
        rcases named with rfl | rfl <;> simp
      next => cases moves
    | _ => cases moves
  | cleaning operation =>
    cases choice with
    | proceed =>
      cases moves
      subst answered
      simp only [Balances, resumeLocked, Section.run, answering, releaseNativeProcessOutput]
      split
      next short =>
        simp [Answer.of, Answer.isFailure, short]
      rename_i enough
      simp [Answer.of, unit, Answer.isFailure, enough]
    | _ => cases moves
  | arming | completeJob =>
    cases moves
    cases answer with
    | flag value => cases value <;> simp
    | _ => simp
  | dispatchAttach | openAttach | clockBind | encoderBind | encoderFinish | commitLaunch
  | commitCheck | commitPath | commitStart | commitLoop | commitFinal | commitRelease
  | outputReceived | leaseAcquire =>
    cases moves
    simp only [Balances, resumeLocked]
    split <;> simp_all
  | commitTemporary commit tries =>
    cases moves
    simp only [Balances, resumeLocked]
    split_ifs <;> simp
  | outputLease | waitJob =>
    cases choice <;> cases moves
    all_goals
      simp only [Balances, resumeLocked]
      split <;> simp
  | outputJob operation process =>
    cases choice with
    | received event =>
      cases moves
      cases answer <;> simp
    | giveUp =>
      cases moves
      subst answered
      simp [Section.run]
    | _ => cases moves
  | lease budget bytes =>
    cases choice with
    | giveUp =>
      cases moves
      cases answer with
      | flag value =>
        cases value <;> simp
      | _ => simp
    | _ => cases moves
  | closeJob operation =>
    cases choice with
    | finish terminal =>
      simp only [move] at moves
      split at moves
      · cases moves
        simp
      cases moves
    | _ => cases moves
  | supervising operation process =>
    cases choice with
    | finish terminal =>
      cases terminal with
      | timedOut =>
        cases moves
        simp only [Balances, resumeLocked]
        split <;> simp
      | _ => cases moves
    | _ => cases moves
  | encoderZeros sink zeros total bytes =>
    cases zeros with
    | nil => cases moves
    | cons zero zeros =>
      cases moves
      simp only [Balances, resumeLocked]
      split <;> simp
  | encoderAppend sink rest total finish =>
    cases rest with
    | nil => cases moves
    | cons byte rest =>
      cases moves
      simp only [Balances, resumeLocked]
      split <;> simp
  | encoderOverwrite sink bytes =>
    simp only [move] at moves
    split at moves
    · cases moves
    cases moves
    simp only [Balances, resumeLocked]
    split <;> simp
  | outputReady | opening | external | chunk | clock | idleTimer | commitReplace | waiting =>
    cases choice <;> cases moves <;> simp
  | encoder | encoderFill => cases choice <;> cases moves
  | commitWrite | commitDone => cases moves
  | _ =>
    cases moves
    cases answer <;> simp

/-- Work outside the lock moves no credit, but a job may end there for good. -/
theorem balance_resumeOutside (hub : OperationHub) (thread : Thread) (choice : Choice)
    (moves : thread.move hub choice = some .outside) (state : State) :
    thread.credits = (thread.resumeOutside hub choice).1.credits +
      (thread.resumeOutside hub choice).2.elim 0 credits + thread.forfeits state .outside ∧
    (thread.resumeOutside hub choice).1.even ∧
      ∀ child ∈ (thread.resumeOutside hub choice).2, child.even := by
  cases thread with
  | external store operation =>
    cases choice with
    | capture =>
      simp only [resumeOutside]
      split <;> simp
    | _ => cases moves
  | encoder sink =>
    cases choice with
    | write => simp
    | seek | publish =>
      simp only [resumeOutside]
      split <;> simp
    | giveUp => simp
    | _ => cases moves
  | encoderFill =>
    simp only [resumeOutside]
    split <;> simp
  | commitWrite =>
    simp only [resumeOutside]
    split_ifs <;> simp
  | clock | idleTimer | encoderZeros | encoderOverwrite | encoderAppend | commitReplace
  | commitDone | supervise | supervising | cleaning | outputReady | waitJob | waiting | closeJob =>
    simp
  | openSubmit _ grant => cases grant <;> cases moves
  | _ => cases choice <;> cases moves

/-- One step accounts for every credit: what the thread held and was handed is
what it and its launched job hold, what it gave back, and what it forfeited. Both go on even. -/
theorem step_balance {thread' : Thread} {move : Move} {state' : State} {launched : Option Thread}
    (even : thread.even) (step : (machine hub).Step thread move state thread' state' launched) :
    thread.credits + move.takes hub state =
      thread'.credits + launched.elim 0 credits + move.gives hub state +
        thread.forfeits state move ∧ thread'.even ∧ ∀ child ∈ launched, child.even := by
  obtain ⟨choice, moves, step⟩ := step
  rcases Thread.step_cases step with ⟨outside, _, resumed⟩ | ⟨section', locked, _, resumed⟩
  · cases moves.symm.trans outside
    have account := balance_resumeOutside hub thread choice outside state
    rw [resumed] at account
    simpa [Move.takes, Move.gives] using account
  · cases moves.symm.trans locked
    have account := balances_resumeLocked locked even (@rfl _ (section'.run hub state).2)
    rw [Balances, resumed] at account
    exact account

end Thread

/-- Calls start without a credit. -/
theorem Call.even (call : Call) : (call.thread hub).even ∧ (call.thread hub).credits = 0 := by
  all_goals
    simp only [Call.thread, Call.once, Call.thenBoth, Call.thenWrites]
    repeat' split
  all_goals simp [Thread.even, Thread.credits, Section.gives, Section.settlesCredit,
    Thread.pumpBoth]

/-- The threads of every reachable pool are even. -/
theorem Thread.even_of_reachable {allowed : Thread → Move → State → Prop}
    {pool : Pool State Thread} {id : Nat} {thread : Thread}
    (reachable : (machine hub).Reachable allowed pool) (running : pool.threads id = some thread) :
    thread.even := by
  refine @Machine.Reachable.asserts _ _ _ _ _ (fun thread _ => thread.even) _ _ _ ?_
    (fun even _ => even) ?_ (fun _ _ _ _ even _ _ => even) reachable running
  · rintro thread _ ⟨call, rfl⟩
    exact call.even.1
  · exact fun _ _ even _ step => (step_balance even step).2

end KernalApi.Hub
