import KernalApi.Hub.Conservation
import KernalApi.Hub.Ledger
import KernalApi.Hub.Record

/-!
# Teardown is final

Closing the hub empties the resource table and ends every operation. No effect
can start from such a state and bring a resource, a pending operation or a
completion back, so what is charged afterwards is the credit of native objects
alone.
-/

namespace KernalApi.Hub

open KernalApi.Std Semantics SortedMap OperationSlot
open Credit (weigh)

variable {hub : OperationHub} {change : Change} {before after : State}
  {allowed : Thread → Move → State → Prop}

/-- A closed hub without resources, all of whose operations have ended and hold
nothing. -/
structure TornDown (state : State) : Prop where
  closed : state.closed = true
  resources : ∀ token, state.resources.get? token = none
  ended : ∀ {token operation}, state.operations.get? token = some operation →
    operation.terminal ≠ none ∧ operation.retained = 0

/-- Events that may still be recorded after the hub was closed. -/
def Event.late : Event → Prop
  | .issued _ _ _ | .submitted _ _ => False
  | .terminated _ result => result.terminal ≠ .completed
  | _ => True

/-- What may change between two states of a closed hub: operations leave, results
that were not yet collected are replaced by failures, and nothing is admitted. -/
structure Late (before after : State) : Prop where
  operations : ∀ {token new}, after.operations.get? token = some new →
    ∃ old, before.operations.get? token = some old ∧
      ∀ result ∈ new.terminal, result.terminal = .completed → old.terminal = some result
  history : ∃ events, after.history = before.history ++ events ∧ ∀ event ∈ events, event.late

namespace Late

theorem refl (state : State) : Late state state :=
  ⟨fun {_ new} found => ⟨new, found, fun _ stored _ => stored⟩, [], by simp, by simp⟩

theorem trans {first second third : State} (earlier : Late first second)
    (later : Late second third) : Late first third := by
  constructor
  · intro token new found
    obtain ⟨middle, middleFound, fromMiddle⟩ := later.operations found
    obtain ⟨old, oldFound, fromOld⟩ := earlier.operations middleFound
    refine ⟨old, oldFound, fun result stored completed => ?_⟩
    exact fromOld result (fromMiddle result stored completed) completed
  · obtain ⟨first, appended, firstLate⟩ := earlier.history
    obtain ⟨second, appended', secondLate⟩ := later.history
    refine ⟨first ++ second, by rw [appended', appended, List.append_assoc], ?_⟩
    intro event member
    rcases List.mem_append.mp member with member | member
    · exact firstLate event member
    · exact secondLate event member

end Late

/-! ### Effects on a closed hub -/

theorem Amendment.terminal_apply (amendment : Amendment) (slot : OperationSlot) :
    (amendment.apply slot).terminal = slot.terminal := by
  cases amendment <;> rfl

theorem OperationSlot.terminal_shutDown (slot : OperationSlot) (result : TerminalResult) :
    (slot.shutDown result).terminal ≠ none ∧
      ((slot.shutDown result).terminal = some result ∨
        (slot.shutDown result).terminal = slot.terminal) := by
  unfold shutDown
  split
  next => exact ⟨by simp, .inl rfl⟩
  rename_i kept
  refine ⟨?_, .inr rfl⟩
  intro pending
  simp [show slot.terminal = none from pending] at kept

/-- An ended operation that holds nothing stays ended, and is not completed later. -/
theorem OperationStep.late {token : OpaqueToken} {old new : OperationSlot}
    (step : OperationStep change token old new) (ended : old.terminal ≠ none)
    (nothing : old.retained = 0) :
    (new.terminal ≠ none ∧ new.retained = 0) ∧
      ∀ result ∈ new.terminal, result.terminal = .completed → old.terminal = some result := by
  cases step with
  | same => exact ⟨⟨ended, nothing⟩, fun _ stored _ => stored⟩
  | amend amendment =>
    rw [Amendment.terminal_apply, Amendment.retained_apply]
    exact ⟨⟨ended, nothing⟩, fun _ stored _ => stored⟩
  | stage _ _ pending | accept pending | answer _ pending | deliver _ pending =>
    exact absurd pending ended
  | settle result replaceable =>
    have replaces := replaceable.resolve_left ended
    refine ⟨⟨by simp [OperationSlot.settle], Nat.le_zero.mp (nothing ▸ old.retained_settle_le _)⟩,
      ?_⟩
    rintro result ⟨⟩ completed
    simp [replaceReady, completed] at replaces
  | shutDown _ terminal revokes =>
    refine ⟨⟨(old.terminal_shutDown _).1, Nat.le_zero.mp (nothing ▸ old.retained_shutDown_le _)⟩,
      ?_⟩
    intro result stored completed
    rcases (old.terminal_shutDown ⟨terminal, none⟩).2 with same | kept
    · rw [same] at stored
      cases stored
      exact absurd completed revokes
    · rw [← kept]
      exact stored

/-- Only closing moves the closed flag. -/
theorem Effect.closed_eq (effect : Effect hub change before after)
    (other : ∀ terminal, change ≠ .shutDown terminal) : after.closed = before.closed := by
  cases effect with
  | tally same => simp [State.core_frame same]
  | takeSlot taken | create resource opened room taken => simp [takeSlot_frame taken]
  | accept | answer | settle | remove | revoke | discard => simp
  | shutDown terminal => exact absurd rfl (other terminal)
  | _ => rfl

namespace TornDown

variable (torn : TornDown before) (happens : Effect hub change before after)

include torn happens

/-- A closed hub admits nothing. -/
theorem unadmitted : (∀ token resource, change ≠ .create token resource) ∧
    ∀ token operation, change ≠ .submit token operation := by
  constructor
  · rintro token resource rfl
    cases happens with
    | create _ opened => simp [torn.closed] at opened
  · rintro token operation rfl
    cases happens with
    | submit _ _ _ _ _ opened => simp [torn.closed] at opened

theorem operation_before {token : OpaqueToken} {new : OperationSlot}
    (found : after.operations.get? token = some new) :
    ∃ old, before.operations.get? token = some old ∧ OperationStep change token old new :=
  (happens.operation_before found).resolve_left fun made => (torn.unadmitted happens).2 _ _ made.1

/-- Nothing brings a closed hub back. -/
theorem effect : TornDown after := by
  refine ⟨?_, fun token => ?_, fun found => ?_⟩
  · by_cases shuts : ∃ terminal, change = .shutDown terminal
    · obtain ⟨terminal, rfl⟩ := shuts
      cases happens
      rfl
    · rw [happens.closed_eq fun terminal named => shuts ⟨terminal, named⟩]
      exact torn.closed
  · refine Option.eq_none_iff_forall_ne_some.mpr fun new found => ?_
    rcases happens.resource_before found with ⟨made, _⟩ | ⟨old, there, _⟩
    · exact (torn.unadmitted happens).1 _ _ made
    · cases (torn.resources token).symm.trans there
  · obtain ⟨old, there, step⟩ := torn.operation_before happens found
    exact (step.late (torn.ended there).1 (torn.ended there).2).1

/-- What happens to a closed hub comes too late to admit or complete anything. -/
theorem late : Late before after := by
  constructor
  · intro token new found
    obtain ⟨old, there, step⟩ := torn.operation_before happens found
    exact ⟨old, there, (step.late (torn.ended there).1 (torn.ended there).2).2⟩
  · obtain ⟨events, appended, recorded⟩ := happens.recorded
    refine ⟨events, appended, ?_⟩
    cases recorded with
    | create token resource => exact absurd rfl ((torn.unadmitted happens).1 token resource)
    | submit token operation => exact absurd rfl ((torn.unadmitted happens).2 token operation)
    | accept waiting pending | answer waiting pending => exact absurd pending (torn.ended waiting).1
    | settle result found replaceable =>
      have replaces := replaceable.resolve_left (torn.ended found).1
      simp only [List.mem_singleton, forall_eq]
      intro completed
      simp [replaceReady, completed] at replaces
    | shutDown =>
      intro event member
      obtain ⟨token, _, rfl⟩ := List.mem_map.mp member
      cases happens with
      | shutDown _ revokes => exact revokes
    | _ => simp [Event.late]

end TornDown

/-! ### Closing -/

/-- An operation that has ended holds no input. -/
def Cleared (state : State) : Prop :=
  ∀ token operation, state.operations.get? token = some operation → operation.terminal ≠ none →
    operation.pendingBlobWrite = none

theorem OperationStep.cleared {token : OpaqueToken} {old new : OperationSlot}
    (step : OperationStep change token old new)
    (cleared : old.terminal ≠ none → old.pendingBlobWrite = none)
    (ended : new.terminal ≠ none) : new.pendingBlobWrite = none := by
  cases step with
  | same => exact cleared ended
  | amend amendment =>
    cases amendment <;> exact cleared ended
  | stage length copy pending | deliver event pending => exact absurd pending ended
  | accept => rfl
  | answer => rfl
  | settle => rfl
  | shutDown slot terminal =>
    unfold OperationSlot.shutDown at ended ⊢
    split
    next => rfl
    rename_i kept
    rw [if_neg kept] at ended
    exact cleared ended

theorem Cleared.effect (cleared : Cleared before) (effect : Effect hub change before after) :
    Cleared after := by
  intro token new found ended
  rcases effect.operation_before found with ⟨rfl, _⟩ | ⟨old, oldFound, step⟩
  · cases effect
    rfl
  · exact step.cleared (cleared token old oldFound) ended

/-- Closing the hub tears it down. -/
theorem Cleared.close (cleared : Cleared before) (terminal : Terminal) :
    TornDown (closeLocked before terminal) := by
  refine ⟨rfl, fun token => by simp [closeLocked], ?_⟩
  intro token new found
  simp only [closeLocked, get?_mapValues] at found
  obtain ⟨old, oldFound, rfl⟩ := Option.map_eq_some_iff.mp found
  refine ⟨(old.terminal_shutDown _).1, ?_⟩
  unfold shutDown
  split
  next => simp [retained]
  rename_i kept
  have ended : old.terminal ≠ none := by
    intro pending
    simp [pending] at kept
  simp [retained, cleared token old oldFound ended]

/-- A reachable hub that is closed is torn down. -/
theorem TornDown.of_reachable {pool : Pool State Thread}
    (reachable : (machine hub).Reachable allowed pool) (closed : pool.shared.closed = true) :
    TornDown pool.shared := by
  refine (reachable_preserves
    (fun state => Cleared state ∧ (state.closed = true → TornDown state)) licensed_true ?_ ?_
    reachable).2 closed
  · intro drawn _
    exact ⟨fun token operation found => by simp at found, fun closed => by cases closed⟩
  rintro change before after _ effect ⟨cleared, torn⟩
  refine ⟨cleared.effect effect, fun closed => ?_⟩
  by_cases shuts : ∃ terminal, change = .shutDown terminal
  · obtain ⟨terminal, rfl⟩ := shuts
    cases effect
    exact cleared.close terminal
  · rw [effect.closed_eq fun terminal named => shuts ⟨terminal, named⟩] at closed
    exact (torn closed).effect effect

/-! ### After the close -/

/-- The credit of the live chunks, the component budgets, the output leases that
were not transferred and the compiler jobs that were not acknowledged. -/
def State.nativeCredit (state : State) (audit : Audit) (objects : Multiset Credit) : Nat :=
  weigh Credit.chunkBytes objects + state.budgets.sum Budget.chargedBytes +
    maxProcessOutputChunk * weigh Credit.reads objects +
    nativeProcessOutputAllowance * (weigh Credit.jobs objects + audit.lost)

/-- Only native credit is charged to a hub that is torn down. -/
theorem TornDown.held_eq {state : State} {audit : Audit} {objects : Multiset Credit}
    (torn : TornDown state) (balanced : Balanced state.accounts audit objects) :
    state.held = state.nativeCredit audit objects := by
  have resources : state.resources = .empty := ext fun token => by simp [torn.resources]
  have operations : state.operations.sum retained = 0 :=
    sum_eq_zero fun _ _ found => (torn.ended found).2
  have native : state.nativeTransferCapacity =
      weigh Credit.chunkBytes objects + state.budgets.sum Budget.chargedBytes := balanced.native
  have output : state.reservedProcessOutputBytes =
      maxProcessOutputChunk * weigh Credit.reads objects := balanced.output
  have processes : state.reservedNativeProcessOutputBytes =
      nativeProcessOutputAllowance * (weigh Credit.jobs objects + audit.lost) := balanced.processes
  simp only [State.held, State.nativeCredit, resources, sum_empty, operations, native,
    output, processes, zero_add]

/-- Once the hub is closed, in every later state it has no resource, no pending
operation and no buffered bytes, it has admitted and completed nothing since, and
what is charged is the native credit, cut off at the largest word. It is zero
when that credit has been released. -/
theorem teardown_final {pool later : Pool State Thread}
    (reachable : (machine hub).Reachable allowed pool) (closed : pool.shared.closed = true)
    (runs : (machine hub).Runs allowed pool later) :
    TornDown later.shared ∧ Late pool.shared later.shared ∧ later.shared.bufferedBlobBytes = 0 ∧
      (∃ audit, Audited hub allowed later audit) ∧
      ∀ audit, Audited hub allowed later audit →
        later.shared.transferCapacity =
          min (later.shared.nativeCredit audit (later.holdings Thread.credits)) usizeMax ∧
        (later.shared.nativeCredit audit (later.holdings Thread.credits) = 0 →
          later.shared.transferCapacity = 0) := by
  have torn := TornDown.of_reachable reachable closed
  have reached := reachable.runs runs
  have carried : TornDown later.shared ∧ Late pool.shared later.shared := by
    refine runs_relate (fun before after => TornDown before → TornDown after ∧ Late before after)
      licensed_true (fun state torn => ⟨torn, .refl state⟩) ?_ ?_ runs torn
    · intro first second third earlier next torn
      obtain ⟨middle, before⟩ := earlier torn
      obtain ⟨final, after⟩ := next middle
      exact ⟨final, before.trans after⟩
    · exact fun _ effect torn => ⟨torn.effect effect, torn.late effect⟩
  refine ⟨carried.1, carried.2, ?_, Audited.exists_of_reachable reached, ?_⟩
  · rw [(Ledger.of_reachable reached).2.total]
    refine sum_eq_zero fun token resource found => ?_
    rw [carried.1.resources] at found
    cases found
  · intro audit run
    rw [State.transferCapacity_eq, carried.1.held_eq run.balanced]
    exact ⟨rfl, fun released => by simp [released]⟩

/-- The compiler of `readingCompiler` is still read when the hub is closed. -/
def closedCompiler : List Turn := readingCompiler ++ [.run (.closeAll .cancelled)]

/-- The reader gives up, the component drops its lease, and the job acknowledges
the end of its process. -/
def releasedCompiler : List Turn :=
  [.resume 3 (.giveUp :: List.replicate 16 .proceed),
    .resume 5 (.giveUp :: List.replicate 16 .proceed),
    .resume 2 (.giveUp :: List.replicate 16 .proceed)]

theorem teardown_final_releasedCompiler :
    ∃ pool later, (machine .compiling).Reachable (fun _ _ _ => True) pool ∧
      pool.shared.closed = true ∧ pool.shared.transferCapacity = 524291 ∧
      (machine .compiling).Runs (fun _ _ _ => True) pool later ∧ TornDown later.shared ∧
      later.shared.transferCapacity = 0 := by
  have played : Board.plays .compiling (fun _ _ _ => true) closedCompiler (fun board =>
      board.state.closed && board.state.transferCapacity = 524291 &&
        (board.play .compiling (fun _ _ _ => true) releasedCompiler).any fun final =>
          final.state.transferCapacity = 0) = true := by
    decide +kernel
  have sound : Board.Sound (fun _ _ _ => true) fun _ _ _ => True := fun _ _ _ _ => trivial
  obtain ⟨board, _, reachable, goal⟩ := Board.reachable_of_plays (fun _ _ _ => True) sound played
  simp only [Bool.and_eq_true, decide_eq_true_eq, Option.any_eq_true] at goal
  obtain ⟨⟨closed, charged⟩, final, finished, released⟩ := goal
  have runs := Board.play_runs sound finished
  exact ⟨board.pool, final.pool, reachable, closed, charged, runs,
    (teardown_final reachable closed runs).1, released⟩

end KernalApi.Hub
