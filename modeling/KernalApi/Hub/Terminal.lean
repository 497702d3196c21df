import KernalApi.Hub.Record
import KernalApi.Hub.Schedule

/-!
# One terminal result, consumed once

A published result stays until its operation is removed, except that a
completed output read or wait may still be revoked. A token is removed at most
once, every section that hands out a result removes the operation, and calls
that name a removed token fail.
-/

namespace KernalApi.Hub

open Semantics List

variable {old new : OperationSlot} {result : TerminalResult} {pool later : Pool State Thread}
  {capacity : Nat} {section' : Section} {thread : Thread}
  {hub : OperationHub} {change : Change} {before after : State}
  {allowed : Thread → Move → State → Prop}

/-! ### A result stays -/

/-- An ended operation keeps its result, or a completed observation is revoked. -/
def OperationSlot.Follows (old new : OperationSlot) : Prop :=
  ∀ result, old.terminal = some result → new.revocable = old.revocable ∧
    ∃ later, new.terminal = some later ∧
      (later = result ∨ old.revocable = true ∧ result.terminal = .completed ∧
        later.terminal ≠ .completed)

namespace OperationSlot.Follows

theorem refl (slot : OperationSlot) : slot.Follows slot :=
  fun result ended => ⟨rfl, result, ended, .inl rfl⟩

theorem trans {first second third : OperationSlot} (earlier : first.Follows second)
    (later : second.Follows third) : first.Follows third := by
  intro result ended
  obtain ⟨kind, middle, middleEnded, middleCases⟩ := earlier result ended
  obtain ⟨laterKind, final, finalEnded, finalCases⟩ := later middle middleEnded
  refine ⟨laterKind.trans kind, final, finalEnded, ?_⟩
  rcases middleCases with rfl | ⟨revocable, completed, revoked⟩
  · rwa [kind] at finalCases
  -- A revoked observation is not completed any more, so it cannot change again.
  rcases finalCases with rfl | ⟨_, again, _⟩
  · exact .inr ⟨revocable, completed, revoked⟩
  · exact absurd again revoked

/-- Nothing is required of an operation that is still pending. -/
theorem of_pending (pending : old.terminal = none) : old.Follows new :=
  fun result ended => absurd (pending.symm.trans ended) (by simp)

theorem settle (replaceable : old.terminal = none ∨ old.replaceReady result = true) :
    old.Follows (old.settle result) := by
  rcases replaceable with pending | ready
  · exact of_pending pending
  · intro published ended
    refine ⟨rfl, result, rfl, .inr ?_⟩
    simpa [replaceReady, readyRead, ended, and_assoc] using ready

theorem shutDown (old : OperationSlot) {terminal : Terminal} (revokes : terminal ≠ .completed) :
    old.Follows (old.shutDown ⟨terminal, none⟩) := by
  intro result ended
  unfold OperationSlot.shutDown
  split
  next ready =>
    refine ⟨rfl, _, rfl, .inr ?_⟩
    simp only [ended, Option.isNone_some, Bool.false_or] at ready
    simp only [readyRead, ended, Option.any_some, Bool.and_eq_true, decide_eq_true_eq] at ready
    exact ⟨ready.1, ready.2, revokes⟩
  next => exact ⟨rfl, result, ended, .inl rfl⟩

/-- Only the marks of a submission can reach an ended operation. -/
theorem amend {amendment : Amendment} (pending : old.terminal = none ∨ amendment.marks = true) :
    old.Follows (amendment.apply old) := by
  rcases pending with pending | marks
  · exact of_pending pending
  cases amendment with
  | writes | pulls => exact fun result ended => ⟨rfl, result, ended, .inl rfl⟩
  | _ => cases marks

end OperationSlot.Follows

variable {token : OpaqueToken}

theorem OperationStep.follows (step : OperationStep change token old new) : old.Follows new := by
  cases step with
  | same => exact .refl old
  | amend amendment pending => exact .amend pending
  | stage _ _ pending | accept pending | answer _ pending | deliver _ pending =>
    exact .of_pending pending
  | settle result replaceable => exact .settle replaceable
  | shutDown _ _ revokes => exact .shutDown old revokes

theorem Effect.operations_descend (effect : Effect hub change before after) :
    Descends State.operations OperationSlot.Follows before after :=
  effect.descends fun found => (effect.operation_before found).imp (·.2.1)
    fun ⟨old, there, step⟩ => ⟨old, there, step.follows⟩

/-- What happens to the operations between two states: known tokens that are
absent stay absent, and present ones are removed or keep their result. -/
structure Settles (before after : State) : Prop where
  later : before.nextOpaqueToken ≤ after.nextOpaqueToken
  absent : ∀ {token}, token ≤ before.nextOpaqueToken → before.operations.get? token = none →
    after.operations.get? token = none
  present : ∀ {token old}, token ≤ before.nextOpaqueToken →
    before.operations.get? token = some old → after.operations.get? token = none ∨
      ∃ new, after.operations.get? token = some new ∧ old.Follows new

namespace Settles

theorem of_descends (descends : Descends State.operations OperationSlot.Follows before after) :
    Settles before after where
  later := descends.later
  absent := descends.absent
  present := by
    intro token old known found
    cases reached : after.operations.get? token with
    | none => exact .inl rfl
    | some new =>
      obtain ⟨first, there, follows⟩ := descends.entry known reached
      cases found.symm.trans there
      exact .inr ⟨new, rfl, follows⟩

theorem effect (effect : Effect hub change before after) : Settles before after :=
  .of_descends effect.operations_descend

theorem of_runs (runs : (machine hub).Runs allowed pool later) : Settles pool.shared later.shared :=
  .of_descends (.of_runs .refl .trans (·.operations_descend) runs)

end Settles

/-! ### A token is removed once -/

/-- Removed tokens are gone for good, and none is removed twice. -/
structure Departed (state : State) : Prop where
  drawn : Drawn state
  gone : ∀ {token}, .removed token ∈ state.history →
    token ≤ state.nextOpaqueToken ∧ state.operations.get? token = none
  once : ∀ token, state.history.count (.removed token) ≤ 1

variable {state : State}

/-- A removal is recorded by the effect that removes. -/
theorem Recorded.removed {events : List Event}
    (recorded : Recorded state change events) (member : .removed token ∈ events) :
    change = .remove token ∧ events = [.removed token] := by
  cases recorded with
  | remove =>
    simp only [mem_singleton, Event.removed.injEq] at member
    subst member
    exact ⟨rfl, rfl⟩
  | _ => simp at member

theorem Departed.effect (departed : Departed before) (effect : Effect hub change before after) :
    Departed after := by
  have settles := Settles.effect effect
  obtain ⟨events, appended, recorded⟩ := effect.recorded
  refine ⟨departed.drawn.effect effect, ?_, ?_⟩
  · intro token member
    rw [appended, mem_append] at member
    rcases member with older | newer
    · obtain ⟨known, absent⟩ := departed.gone older
      exact ⟨known.trans settles.later, settles.absent known absent⟩
    obtain ⟨rfl, _⟩ := recorded.removed newer
    cases effect with
    | remove found =>
      exact ⟨(departed.drawn.operations found).trans settles.later, by simp⟩
  · intro token
    rw [appended, count_append]
    by_cases newer : .removed token ∈ events
    · obtain ⟨rfl, rfl⟩ := recorded.removed newer
      have fresh : .removed token ∉ before.history := by
        intro older
        have absent := (departed.gone older).2
        cases effect with
        | remove found =>
          rw [absent] at found
          cases found
      simp [count_eq_zero_of_not_mem fresh]
    · rw [count_eq_zero_of_not_mem newer]
      exact departed.once token

theorem Departed.of_reachable (reachable : (machine hub).Reachable allowed pool) :
    Departed pool.shared :=
  reachable_preserves Departed licensed_true
    (fun drawn _ => ⟨.initial drawn, fun member => by simp at member, by simp⟩)
    (fun _ effect departed => departed.effect effect) reachable

/-! ### Handing out a result -/

/-- The operation a collecting or abandoning section consumes. -/
def Section.consumes : Section → Option OpaqueToken
  | .takeTerminal operation _ | .abandonSpawn _ operation => some operation
  | .collectRead _ token _ | .collectOutput _ token _ | .collectWait _ token
  | .abandonTransfer _ token | .abandonOutput _ token | .abandonScalar _ token _
  | .abandonHashOperation _ token => some token
  | _ => none

/-- The terminal reason an answer hands out. -/
def Answer.terminal : Answer → Option Terminal
  | .result collected => collected.map TerminalResult.terminal
  | .read collected => collected.map Prod.fst
  | .output collected => collected.map Prod.fst
  | .exit collected => collected.map Prod.fst
  | _ => none

/-- Whether a consuming section took its operation: it handed out a result, or
it abandoned the operation. -/
def Answer.consumed : Answer → Bool
  | .done => true
  | answer => answer.terminal.isSome

/-- What a successful collection or abandonment has done. -/
structure Consumed (state : State) (token : OpaqueToken) (outcome : State × Answer) : Prop where
  present : ∃ operation, state.operations.get? token = some operation ∧
    ∀ terminal ∈ outcome.2.terminal, ∃ result, operation.terminal = some result ∧
      result.terminal = terminal
  removed : .removed token ∈ outcome.1.history

theorem removeOperation_recorded {operation : OperationSlot}
    (found : state.operations.get? token = some operation) :
    .removed token ∈ (state.removeOperation token).history := by
  rw [State.removeOperation_history found]
  exact mem_append_right _ mem_cons_self

/-- Revoking a resource keeps what the history has. -/
theorem closeIfLive_history (hub : OperationHub) (resource : OpaqueToken)
    (terminal : Terminal) {event : Event} (recorded : event ∈ state.history) :
    event ∈ (closeIfLive state resource terminal).1.history := by
  have effects : Effects hub (Change.revoking resource terminal) state
      (closeIfLive state resource terminal).1 := closeIfLive_effects resource terminal
  refine effects.preserves (fun state => event ∈ state.history)
    (fun _ effect recorded => ?_) recorded
  obtain ⟨events, appended, _⟩ := effect.recorded
  rw [appended]
  exact mem_append_left _ recorded

namespace Consumed

variable {state : State} {token : OpaqueToken} {operation : OperationSlot}
  {outcome : State × Answer}

/-- A collector hands out the published result. -/
theorem collect (found : state.operations.get? token = some operation)
    (ended : operation.terminal = some result) (handed : outcome.2.terminal = some result.terminal)
    (removed : .removed token ∈ outcome.1.history) : Consumed state token outcome := by
  refine ⟨⟨operation, found, fun terminal member => ⟨result, ended, ?_⟩⟩, removed⟩
  rw [handed] at member
  exact Option.mem_some_iff.mp member

/-- An abandoning section hands out nothing. -/
theorem abandon (found : state.operations.get? token = some operation)
    (nothing : outcome.2.terminal = none) (removed : .removed token ∈ outcome.1.history) :
    Consumed state token outcome := by
  refine ⟨⟨operation, found, fun terminal member => ?_⟩, removed⟩
  rw [nothing] at member
  cases member

end Consumed

/-- The outcome consumes the operation, if its answer says so. -/
def Consumes (state : State) (token : OpaqueToken) (outcome : State × Answer) : Prop :=
  outcome.2.consumed = true → Consumed state token outcome

theorem Consumes.refused {outcome : State × Answer}
    (refused : outcome.2.consumed = false) : Consumes state token outcome :=
  fun consumed => absurd (refused.symm.trans consumed) Bool.false_ne_true

/-- The answer of a section without a value to report hands out nothing. -/
theorem Answer.terminal_unit (outcome : Except HubError Unit) :
    (Answer.of unit outcome).terminal = none := by
  cases outcome <;> rfl

section Consumers

variable {state : State} {token : OpaqueToken} {store : Store}

theorem abandonHashOperation_consumed (hub : OperationHub) :
    Consumes state token (answering unit (abandonHashOperation state store token)) := by
  unfold abandonHashOperation
  split
  · exact .refused rfl
  rename_i operation found
  split
  · exact .refused rfl
  split
  · exact .refused rfl
  simp only
  split
  · exact fun _ => .abandon found rfl (removeOperation_recorded found)
  rename_i resource _
  -- Revoking the resource if it is live is what `closeIfLive` does.
  have closed := closeIfLive_history hub resource .closed (removeOperation_recorded found)
  unfold closeIfLive at closed
  split
  next absent =>
    exact fun _ => .abandon found rfl (removeOperation_recorded found)
  rename_i present
  simp only [present] at closed
  exact fun _ => .abandon found (Answer.terminal_unit _) closed

end Consumers

/-- A section that consumes an operation has found it, hands out its published
result if any, and removes it. -/
theorem Section.consumed (names : section'.consumes = some token)
    (consumed : (section'.run hub state).2.consumed = true) :
    Consumed state token (section'.run hub state) := by
  suffices consumes : Consumes state token (section'.run hub state) from consumes consumed
  -- Each call refuses in every branch but the one that found the operation and removes it.
  cases section' <;> cases names
  case takeTerminal | collectRead | collectOutput | collectWait =>
    simp only [run, Hub.takeTerminal, collectBlobRead, collectCompilerOutput, collectCompilerWait]
    repeat' split
    all_goals first
      | exact .refused rfl
      | exact fun _ => .collect (by assumption) (by assumption) rfl
          (removeOperation_recorded (by assumption))
  case abandonTransfer | abandonScalar =>
    simp only [run, Hub.abandonTransfer, abandonCompilerScalar]
    repeat' split
    all_goals first
      | exact .refused rfl
      | exact fun _ => .abandon (by assumption) rfl (removeOperation_recorded (by assumption))
  case abandonOutput | abandonSpawn =>
    simp only [run, abandonCompilerOutput, abandonCompilerSpawn]
    repeat' split
    all_goals first
      | exact .refused rfl
      | exact fun _ => .abandon (by assumption) (Answer.terminal_unit _)
          (closeIfLive_history hub _ _ (removeOperation_recorded (by assumption)))
  case abandonHashOperation => exact abandonHashOperation_consumed hub

/-! ### Calls that name a removed token -/

/-- The operation a call names. -/
def Call.operation : Call → Option OpaqueToken
  | .poll _ operation | .observeTerminal _ operation | .suspend _ operation
  | .suspendStream _ operation | .cancel _ operation | .abandonTransfer _ operation
  | .collectBlobRead _ operation _ | .abandonCompilerSpawn _ operation
  | .collectCompilerOutput _ operation _ | .abandonCompilerOutput _ operation
  | .collectCompilerWait _ operation | .abandonCompilerScalar _ operation _
  | .abandonHashOperation _ operation => some operation
  | _ => none

/-- The operation without which a section refuses. -/
def Section.requires : Section → Option OpaqueToken
  | .takeTerminal operation _ | .takeOwner operation _ | .suspend operation _
  | .armIdleTimer operation _ | .terminal operation _ | .completeAfterSuspend operation _
  | .finishDeferred operation _ | .attach operation _ | .bindProducer _ operation
  | .bindEncoder _ operation _ | .finishEncoder _ _ (some operation)
  | .checkOutput _ _ _ (some operation) | .replaceOutput _ _ _ _ (some operation) _
  | .stageWrite operation _ _ | .stageRead operation _ | .collectRead _ operation _
  | .abandonTransfer _ operation | .publishCompiler operation _ | .abandonSpawn _ operation
  | .receive operation _ _ | .collectNative operation _ | .publishOutput operation _ _
  | .collectOutput _ operation _ | .abandonOutput _ operation | .collectWait _ operation
  | .abandonScalar _ operation _ | .abandonHashOperation _ operation => some operation
  | _ => none

/-- The sections that answer no for an operation that is gone. -/
def Section.denies : Section → Option OpaqueToken
  | .pollsBlobRead operation | .finishExternalOpen operation _ | .cancelOutput _ operation =>
    some operation
  | _ => none

/-- The commit and capture checks refuse an operation that is gone. -/
theorem checks_refuse (store : Store) (blob : Option OpaqueToken)
    (borrows : OperationSlot → Bool) (absent : state.operations.get? token = none) :
    validateCaptureOperation state store token blob = .error .closed ∧
      checkCommitOperation state store (some token) borrows = .error .closed := by
  simp [validateCaptureOperation, checkCommitOperation, absent]

theorem Section.refuses (hub : OperationHub) (requires : section'.requires = some token)
    (absent : state.operations.get? token = none) :
    (section'.run hub state).2.isFailure = true := by
  cases section' <;> try cases requires
  -- The commit and capture sections test the operation through a check of their own.
  case bindEncoder store blob =>
      simp only [run, Hub.bindEncoder, (checks_refuse store none default absent).1]
      rfl
  case finishEncoder store blob operation =>
      cases operation <;> cases requires
      simp only [run, finishInner, checkFinishOperation,
        (checks_refuse store (some blob) default absent).1]
      split <;> rfl
  case checkOutput store blob output operation =>
      cases operation <;> cases requires
      simp only [run, checkOutputOperation, (checks_refuse store none _ absent).2]
      split <;> rfl
  case replaceOutput store blob output content operation replaces =>
      cases operation <;> cases requires
      simp only [run, replaceOutputOperation, (checks_refuse store none _ absent).2]
      split <;> rfl
  -- Both submissions and the collection of a read test a budget first.
  case stageWrite length copy =>
      simp only [run, stageBlobWrite, absent]
      split_ifs <;> rfl
  case stageRead maximum =>
      simp only [run, stageBlobRead, absent]
      split_ifs <;> rfl
  case collectRead store capacity =>
      simp only [run, collectBlobRead, absent]
      split_ifs <;> rfl
  case publishCompiler process =>
      simp [run, answering, Hub.publishCompiler, absent, Answer.of, Answer.isFailure]
  all_goals
    simp only [run, Hub.takeTerminal, Hub.takeOwner, Hub.suspend, Hub.armIdleTimer, terminalLocked,
      Hub.completeAfterSuspend, finishDeferredCompletion, attachCreatedResource,
      bindProducerCancellation, Hub.abandonTransfer, abandonCompilerSpawn, receiveEvent,
      collectNativeOutput, Hub.publishOutput, collectCompilerOutput, abandonCompilerOutput,
      collectCompilerWait, abandonCompilerScalar, Hub.abandonHashOperation, absent]
    rfl

theorem Section.denied (hub : OperationHub)
    (denies : section'.denies = some token) (absent : state.operations.get? token = none) :
    (section'.run hub state).2 = .flag false := by
  cases section' <;> cases denies
  case pollsBlobRead => simp [run, Hub.pollsBlobRead, absent]
  case finishExternalOpen => simp [run, Hub.finishExternalOpen, absent]
  case cancelOutput => simp [run, answering, cancelCompilerOutput, absent, Answer.of]

/-- Program points from which a call on an absent operation can only fail. -/
inductive Doomed (token : OpaqueToken) : Thread → Prop where
  | returned : Doomed token (.returned false)
  | attempt {section' : Section} (next : Thread) (requires : section'.requires = some token) :
      Doomed token (.attempt section' next (.returned false))
  | test {section' : Section} {no : Thread} (yes failed : Thread)
      (denies : section'.denies = some token) (rest : Doomed token no) :
      Doomed token (.test section' yes no failed)
  | suspending (store : Store) (stream : Bool) : Doomed token (.suspending token store stream)

/-- A call that names an operation starts at such a point. -/
theorem Call.doomed {call : Call} (names : call.operation = some token) :
    Doomed token (call.thread hub) := by
  cases call <;> cases names
  case poll | cancel => exact .test _ _ rfl (.attempt _ rfl)
  case suspend | suspendStream => exact .suspending _ _
  all_goals exact .attempt _ rfl

/-- A section leads from such a point to such a point. -/
theorem Doomed.step {thread' : Thread} {move : Move}
    {state state' : State} {launched : Option Thread} (doomed : Doomed token thread)
    (absent : state.operations.get? token = none)
    (step : (machine hub).Step thread move state thread' state' launched) :
    Doomed token thread' := by
  obtain ⟨choice, _, step⟩ := step
  cases doomed with
  | returned => cases step
  | @attempt section' next requires =>
    have refused := Section.refuses hub requires absent
    simp only [Thread.step, Thread.move, Thread.resumeLocked, if_pos refused] at step
    cases step
    exact .returned
  | @test section' no yes failed denies rest =>
    have denied := Section.denied hub denies absent
    simp only [Thread.step, Thread.move, denied] at step
    cases step
    exact rest
  | suspending store stream =>
    have refused : (Section.suspend token store).run hub state = (state, .failed .invalid) := by
      simp [Section.run, answering, Hub.suspend, absent, Answer.of]
    simp only [Thread.step, Thread.move, refused] at step
    cases step
    exact .returned

/-- A run in which the operation stays absent keeps the call at such points. -/
theorem Doomed.runs {id : Nat} (runs : (machine hub).Runs allowed pool later)
    (absent : pool.shared.operations.get? token = none)
    (drawn : token ≤ pool.shared.nextOpaqueToken)
    (running : pool.threads id = some thread) (doomed : Doomed token thread) :
    ∃ thread', later.threads id = some thread' ∧ Doomed token thread' := by
  induction runs with
  | refl => exact ⟨thread, running, doomed⟩
  | tail runs next ih =>
    obtain ⟨current, present, doomed⟩ := ih
    have gone := (Settles.of_runs runs).absent drawn absent
    rcases next.follow present with still | ⟨_, thread', _, _, step, reached⟩
    · exact ⟨current, still, doomed⟩
    · exact ⟨thread', reached, doomed.step gone step⟩

/-- From any reachable pool on: a published result stays or, for a completed
output read or wait, is revoked; a token is removed once; a section that hands
out a result or abandons an operation removes it; and a removed token stays out
of the table, so that sections and calls that name it fail. -/
theorem terminal_consumedOnce (reachable : (machine hub).Reachable (fun _ _ _ => True) pool)
    (runs : (machine hub).Runs (fun _ _ _ => True) pool later) :
    (∀ token operation result, pool.shared.operations.get? token = some operation →
        operation.terminal = some result →
        later.shared.operations.get? token = none ∨
          ∃ operation' result', later.shared.operations.get? token = some operation' ∧
            operation'.terminal = some result' ∧
            (result' = result ∨ operation.revocable = true ∧ result.terminal = .completed ∧
              result'.terminal ≠ .completed)) ∧
      (∀ token, later.shared.history.count (.removed token) ≤ 1) ∧
      (∀ section' token, Section.consumes section' = some token →
        (section'.run hub pool.shared).2.consumed = true →
        .removed token ∉ pool.shared.history ∧
          Consumed pool.shared token (section'.run hub pool.shared)) ∧
      ∀ token, .removed token ∈ pool.shared.history →
        later.shared.operations.get? token = none ∧
          (∀ section', Section.requires section' = some token →
            (section'.run hub later.shared).2.isFailure = true) ∧
          (∀ section', Section.denies section' = some token →
            (section'.run hub later.shared).2 = .flag false) ∧
          ∀ id call, Call.operation call = some token →
            pool.threads id = some (call.thread hub) →
            later.threads id ≠ some (.returned true) := by
  have departed := Departed.of_reachable reachable
  have settles := Settles.of_runs runs
  refine ⟨?_, (Departed.of_reachable (reachable.runs runs)).once, ?_, ?_⟩
  · intro token operation result found ended
    rcases settles.present (departed.drawn.operations found) found with gone | ⟨new, kept, follows⟩
    · exact .inl gone
    · obtain ⟨_, result', ended', changed⟩ := follows result ended
      exact .inr ⟨new, result', kept, ended', changed⟩
  · intro section' token names consumed
    have taken := section'.consumed names consumed
    refine ⟨fun removed => ?_, taken⟩
    obtain ⟨operation, found, _⟩ := taken.present
    rw [(departed.gone removed).2] at found
    cases found
  · intro token removed
    obtain ⟨known, absent⟩ := departed.gone removed
    have gone := settles.absent known absent
    refine ⟨gone, fun section' requires => section'.refuses hub requires gone,
      fun section' denies => section'.denied hub denies gone, ?_⟩
    intro id call names running returned
    obtain ⟨thread, reached, doomed⟩ := Doomed.runs runs absent known running (Call.doomed names)
    cases returned.symm.trans reached
    cases doomed

/-- A clock expires and is polled. -/
def polledClock : List Turn :=
  [.call (.clockSleep 0) [.proceed, .proceed, .proceed], .resume 1 [.proceed, .proceed],
    .run (.poll 0 2)]

theorem terminal_polledClock :
    ∃ pool later id, (machine .small).Reachable (fun _ _ _ => True) pool ∧
      (machine .small).Runs (fun _ _ _ => True) pool later ∧
      .removed 2 ∈ pool.shared.history ∧
      pool.threads id = some ((Call.poll 0 2).thread .small) ∧
      later.threads id ≠ some (.returned true) ∧
      later.shared.history.count (.removed 2) ≤ 1 ∧ later.shared.operations.get? 2 = none := by
  have played : Board.plays .small (fun _ _ _ => true) polledClock
      (fun board => .removed 2 ∈ board.state.history ∧
        (board.turn .small (fun _ _ _ => true) (.run (.poll 0 2))).isSome) = true := by
    decide +kernel
  obtain ⟨board, _, reachable, goal⟩ :=
    Board.reachable_of_plays (fun _ _ _ => True) (fun _ _ _ _ => trivial) played
  obtain ⟨removed, continued⟩ := of_decide_eq_true goal
  obtain ⟨later, polled⟩ := Option.isSome_iff_exists.mp continued
  -- A second poll of the same token enters and runs to its end.
  let entered : Board := ⟨board.state, board.threads ++ [(Call.poll 0 2).thread .small]⟩
  have present : entered.threads[board.threads.length]? = some ((Call.poll 0 2).thread .small) :=
    getElem?_concat_length
  have enters : (machine .small).Reachable (fun _ _ _ => True) entered.pool := by
    refine reachable.runs (.single ?_)
    rw [Board.pool_append]
    exact .enter _ (Board.pool_vacant _ _) ⟨.poll 0 2, rfl⟩
  have runs := @Board.advance_runs .small _ (fun _ _ _ => True) entered later
    (fun _ _ _ _ => trivial) _ _ polled
  obtain ⟨_, once, _, gone⟩ := terminal_consumedOnce enters runs
  obtain ⟨absent, _, _, fails⟩ := gone 2 removed
  exact ⟨entered.pool, later.pool, board.threads.length, enters, runs, removed, present,
    fails _ (.poll 0 2) rfl present, once 2, absent⟩

end KernalApi.Hub
