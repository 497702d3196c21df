import KernalApi.Std.Trace
import KernalApi.Worker.Outcome

/-!
# Parent-side receive sequencing

`ParentReceivePhase` accepts the messages of a worker and the results of the
writer thread in any order they arrive. The supervisor's loop queues the upload
as soon as the phase asks for it; the drain after an observed exit does not. What
the phase has accepted is told by its flags alone, so a terminal report is
believed only at the end of the one sequence the protocol has.
-/

namespace KernalApi.Worker

open KernalApi.Std List

variable {next : ParentReceivePhase} {target : Target}

structure ParentReceivePhase where
  requestId : UInt64
  helloAcked : Bool := false
  uploadQueued : Bool := false
  uploadComplete : Bool := false
  executeAckDeferred : Bool := false
  executeAcked : Bool := false
  traceReceived : Bool := false
  deriving DecidableEq

inductive ParentReceiveAction (target : Target) where
  | queueUpload
  | awaitingUpload
  | executeAcknowledged
  | traceReceived
  | terminal (message : Message target)
  deriving DecidableEq

namespace ParentReceivePhase

def new (requestId : UInt64) : ParentReceivePhase := { requestId }

def queueUpload (phase : ParentReceivePhase) : ParentReceivePhase :=
  { phase with uploadQueued := true }

/-- The writer's result; a refused one leaves the phase as it is. -/
def upload (phase : ParentReceivePhase) (result : Except Unit Unit) :
    ParentReceivePhase × Except SketchWorkerFailure Unit :=
  if !result.isOk || !phase.helloAcked || !phase.uploadQueued || phase.uploadComplete then
    (phase, .error .protocol)
  else
    ({ phase with
        uploadComplete := true
        executeAcked := phase.executeAcked || phase.executeAckDeferred }, .ok ())

/-- A message of the worker; a refused one leaves the phase as it is. -/
def receive (phase : ParentReceivePhase) (message : Message target) :
    ParentReceivePhase × Except SketchWorkerFailure (ParentReceiveAction target) :=
  if message.requestId ≠ phase.requestId then (phase, .error .protocol)
  else
    match message with
    | .trace _ _ =>
      if phase.executeAcked && !phase.traceReceived then
        ({ phase with traceReceived := true }, .ok .traceReceived)
      else (phase, .error .protocol)
    | .helloAck _ =>
      if !phase.helloAcked then ({ phase with helloAcked := true }, .ok .queueUpload)
      else (phase, .error .protocol)
    | .executeAck _ =>
      if phase.helloAcked && phase.uploadQueued && !phase.executeAckDeferred &&
          !phase.executeAcked then
        if phase.uploadComplete then
          ({ phase with executeAcked := true }, .ok .executeAcknowledged)
        else ({ phase with executeAckDeferred := true }, .ok .awaitingUpload)
      else (phase, .error .protocol)
    | .terminal requestId kind detail diagnostic counters =>
      if phase.executeAcked then
        (phase, .ok (.terminal (.terminal requestId kind detail diagnostic counters)))
      else (phase, .error .protocol)
    | _ => (phase, .error .protocol)

end ParentReceivePhase

/-- What the supervisor feeds to a phase: a message taken by its loop, a message
drained after the worker's exit, a result of the writer. -/
inductive PhaseEvent (target : Target) where
  | received (message : Message target)
  | drained (message : Message target)
  | uploaded (result : Except Unit Unit)

/-- What a phase has accepted, and the queuing of the upload. -/
inductive PhaseFact (target : Target) where
  | accepted (message : Message target)
  | queued
  | uploaded
  deriving DecidableEq

/-- The facts an accepted message adds. The loop queues the upload as soon as the
phase asks for it. -/
def ParentReceivePhase.handle (phase : ParentReceivePhase) (message : Message target)
    (queues : Bool) : ParentReceivePhase × Except SketchWorkerFailure (List (PhaseFact target)) :=
  match phase.receive message with
  | (phase, .error failure) => (phase, .error failure)
  | (phase, .ok .queueUpload) =>
    if queues then (phase.queueUpload, .ok [.accepted message, .queued])
    else (phase, .ok [.accepted message])
  | (phase, .ok _) => (phase, .ok [.accepted message])

def ParentReceivePhase.feed (phase : ParentReceivePhase) :
    PhaseEvent target → ParentReceivePhase × Except SketchWorkerFailure (List (PhaseFact target))
  | .received message => phase.handle message true
  | .drained message => phase.handle message false
  | .uploaded result =>
    match phase.upload result with
    | (phase, .error failure) => (phase, .error failure)
    | (phase, .ok ()) => (phase, .ok [.uploaded])

/-- Feed events one after the other, also after a refusal, and collect what is
accepted. -/
def ParentReceivePhase.feedAll (phase : ParentReceivePhase) :
    List (PhaseEvent target) → ParentReceivePhase × List (PhaseFact target)
  | [] => (phase, [])
  | event :: events =>
    let (next, outcome) := phase.feed event
    let (last, facts) := next.feedAll events
    (last, (outcome.toOption.getD []) ++ facts)

section Story

/-- The part a fact plays in the protocol. -/
inductive PhaseMark where
  | helloAcked
  | queued
  | uploaded
  | executeAcked
  | traced
  | reported
  | foreign
  deriving DecidableEq

def PhaseFact.mark : PhaseFact target → PhaseMark
  | .queued => .queued
  | .uploaded => .uploaded
  | .accepted (.helloAck _) => .helloAcked
  | .accepted (.executeAck _) => .executeAcked
  | .accepted (.trace _ _) => .traced
  | .accepted (.terminal _ _ _ _ _) => .reported
  | .accepted _ => .foreign

/-- The parts played before the reports, in their order. -/
def progress (facts : List (PhaseFact target)) : List PhaseMark :=
  (facts.map PhaseFact.mark).filter (· ≠ .reported)

/-- How far the one sequence of the protocol has come. The upload's result and
the acknowledgement of the execution come in either order. -/
inductive PhaseStage where
  | fresh
  | greeted
  | queued
  | uploaded
  | deferred
  | ready (late traced : Bool)

namespace PhaseStage

def phase (requestId : UInt64) : PhaseStage → ParentReceivePhase
  | .fresh => { requestId }
  | .greeted => { requestId, helloAcked := true }
  | .queued => { requestId, helloAcked := true, uploadQueued := true }
  | .uploaded => { requestId, helloAcked := true, uploadQueued := true, uploadComplete := true }
  | .deferred => { requestId, helloAcked := true, uploadQueued := true, executeAckDeferred := true }
  | .ready late traced =>
    { requestId, helloAcked := true, uploadQueued := true, uploadComplete := true
      executeAckDeferred := late, executeAcked := true, traceReceived := traced }

def story : PhaseStage → List PhaseMark
  | .fresh => []
  | .greeted => [.helloAcked]
  | .queued => [.helloAcked, .queued]
  | .uploaded => [.helloAcked, .queued, .uploaded]
  | .deferred => [.helloAcked, .queued, .executeAcked]
  | .ready false false => [.helloAcked, .queued, .uploaded, .executeAcked]
  | .ready false true => [.helloAcked, .queued, .uploaded, .executeAcked, .traced]
  | .ready true false => [.helloAcked, .queued, .executeAcked, .uploaded]
  | .ready true true => [.helloAcked, .queued, .executeAcked, .uploaded, .traced]

end PhaseStage

namespace ParentReceivePhase

/-- What one event can make a phase accept. -/
inductive Accepts (phase : ParentReceivePhase) : List (PhaseFact target) → ParentReceivePhase → Prop
  | refused : Accepts phase [] phase
  | hello (first : phase.helloAcked = false) :
      Accepts phase [.accepted (.helloAck phase.requestId), .queued]
        { phase with helloAcked := true, uploadQueued := true }
  | helloDrained (first : phase.helloAcked = false) :
      Accepts phase [.accepted (.helloAck phase.requestId)] { phase with helloAcked := true }
  | uploaded (hello : phase.helloAcked = true) (queued : phase.uploadQueued = true)
      (first : phase.uploadComplete = false) :
      Accepts phase [.uploaded]
        { phase with
          uploadComplete := true
          executeAcked := phase.executeAcked || phase.executeAckDeferred }
  | acknowledged (hello : phase.helloAcked = true) (queued : phase.uploadQueued = true)
      (undeferred : phase.executeAckDeferred = false) (first : phase.executeAcked = false)
      (complete : phase.uploadComplete = true) :
      Accepts phase [.accepted (.executeAck phase.requestId)] { phase with executeAcked := true }
  | deferred (hello : phase.helloAcked = true) (queued : phase.uploadQueued = true)
      (undeferred : phase.executeAckDeferred = false) (first : phase.executeAcked = false)
      (incomplete : phase.uploadComplete = false) :
      Accepts phase [.accepted (.executeAck phase.requestId)]
        { phase with executeAckDeferred := true }
  | trace (text : String) (acked : phase.executeAcked = true)
      (first : phase.traceReceived = false) :
      Accepts phase [.accepted (.trace phase.requestId text)] { phase with traceReceived := true }
  | terminal (kind : TerminalKind) (detail : TerminalDetail) (diagnostic : String)
      (counters : FinalCounters) (acked : phase.executeAcked = true) :
      Accepts phase [.accepted (.terminal phase.requestId kind detail diagnostic counters)] phase

/-- The facts an event adds; a refusal adds none. -/
def accepted (outcome : Except SketchWorkerFailure (List (PhaseFact target))) :
    List (PhaseFact target) := outcome.toOption.getD []

@[simp] theorem accepted_error (failure : SketchWorkerFailure) :
    accepted (.error failure : Except _ (List (PhaseFact target))) = [] := rfl

@[simp] theorem accepted_ok (facts : List (PhaseFact target)) : accepted (.ok facts) = facts := rfl

theorem handle_accepts (phase : ParentReceivePhase) (message : Message target) (queues : Bool) :
    phase.Accepts (accepted (phase.handle message queues).2) (phase.handle message queues).1 := by
  by_cases own : message.requestId = phase.requestId
  · cases message with
    | helloAck requestId =>
      cases own
      by_cases first : phase.helloAcked = false
      · cases queues with
        | true => simpa [handle, receive, Message.requestId, first] using .hello first
        | false => simpa [handle, receive, Message.requestId, first] using .helloDrained first
      · simpa [handle, receive, first] using .refused
    | executeAck requestId =>
      cases own
      by_cases guarded : phase.helloAcked = true ∧ phase.uploadQueued = true ∧
          phase.executeAckDeferred = false ∧ phase.executeAcked = false
      · obtain ⟨hello, queued, undeferred, first⟩ := guarded
        cases complete : phase.uploadComplete with
        | true =>
          have step : phase.Accepts
              [PhaseFact.accepted (.executeAck phase.requestId : Message target)] _ :=
            .acknowledged hello queued undeferred first complete
          simpa [handle, receive, Message.requestId, hello, queued, undeferred, first, complete]
            using step
        | false =>
          have step : phase.Accepts
              [PhaseFact.accepted (.executeAck phase.requestId : Message target)] _ :=
            .deferred hello queued undeferred first complete
          simpa [handle, receive, Message.requestId, hello, queued, undeferred, first, complete]
            using step
      · have refused : (phase.helloAcked && phase.uploadQueued && !phase.executeAckDeferred &&
            !phase.executeAcked) = false := by
          simpa using guarded
        simpa [handle, receive, refused] using .refused
    | trace requestId text =>
      cases own
      cases acked : phase.executeAcked with
      | true =>
        by_cases first : phase.traceReceived = false
        · have step : phase.Accepts
              [PhaseFact.accepted (.trace phase.requestId text : Message target)] _ :=
            .trace text acked first
          simpa [handle, receive, Message.requestId, acked, first] using step
        · simpa [handle, receive, first] using .refused
      | false => simpa [handle, receive, acked] using .refused
    | terminal requestId kind detail diagnostic counters =>
      cases own
      cases acked : phase.executeAcked with
      | true =>
        simpa [handle, receive, Message.requestId, acked] using
          .terminal kind detail diagnostic counters acked
      | false => simpa [handle, receive, acked] using .refused
    | _ => simpa [handle, receive] using .refused
  · simpa [handle, receive, own] using .refused

theorem feed_accepts (phase : ParentReceivePhase) (event : PhaseEvent target) :
    phase.Accepts (accepted (phase.feed event).2) (phase.feed event).1 := by
  cases event with
  | received message => exact phase.handle_accepts message true
  | drained message => exact phase.handle_accepts message false
  | uploaded result =>
    cases result with
    | error => exact .refused
    | ok _ =>
      cases hello : phase.helloAcked with
      | false => simpa [feed, upload, hello] using .refused
      | true =>
        cases queued : phase.uploadQueued with
        | false => simpa [feed, upload, queued] using .refused
        | true =>
          cases first : phase.uploadComplete with
          | true => simpa [feed, upload, first] using .refused
          | false =>
            have step : phase.Accepts [(PhaseFact.uploaded : PhaseFact target)] _ :=
              .uploaded hello queued first
            simpa [feed, upload, Except.toBool, hello, queued, first] using step

/-- Accepting moves one stage on, which adds the accepted part to the story. -/
theorem Accepts.stage {requestId : UInt64} {stage : PhaseStage}
    {new : List (PhaseFact target)} (step : (stage.phase requestId).Accepts new next) :
    ∃ later : PhaseStage, next = later.phase requestId ∧
      later.story = stage.story ++ progress new := by
  cases step with
  | refused => exact ⟨stage, rfl, (append_nil _).symm⟩
  | terminal =>
    exact ⟨stage, rfl, (append_nil _).symm⟩
  | hello first =>
    cases stage with
    | fresh => exact ⟨.queued, rfl, rfl⟩
    | _ => cases first
  | helloDrained first =>
    cases stage with
    | fresh => exact ⟨.greeted, rfl, rfl⟩
    | _ => cases first
  | uploaded hello queued first =>
    cases stage with
    | fresh => cases hello
    | greeted => cases queued
    | queued => exact ⟨.uploaded, rfl, rfl⟩
    | deferred => exact ⟨.ready true false, rfl, rfl⟩
    | _ => cases first
  | acknowledged hello queued undeferred first complete =>
    cases stage with
    | uploaded => exact ⟨.ready false false, rfl, rfl⟩
    | ready _ _ => cases first
    | _ => cases complete
  | deferred hello queued undeferred first incomplete =>
    cases stage with
    | fresh => cases hello
    | greeted => cases queued
    | queued => exact ⟨.deferred, rfl, rfl⟩
    | uploaded => cases incomplete
    | deferred => cases undeferred
    | ready _ _ => cases first
  | trace text acked first =>
    cases stage with
    | ready late traced =>
      cases traced with
      | true => cases first
      | false =>
        cases late with
        | false => exact ⟨.ready false true, rfl, rfl⟩
        | true => exact ⟨.ready true true, rfl, rfl⟩
    | _ => cases acked

theorem Accepts.own {phase : ParentReceivePhase} {new : List (PhaseFact target)}
    (step : phase.Accepts new next) {message : Message target}
    (member : .accepted message ∈ new) : message.requestId = phase.requestId := by
  cases step <;> simp only [mem_cons, not_mem_nil, PhaseFact.accepted.injEq,
    reduceCtorEq, or_false] at member <;> subst member <;> rfl

/-- The parts played when a report may be believed. -/
def Sequenced (marks : List PhaseMark) : Prop :=
  ∃ trace, (trace = [] ∨ trace = [.traced]) ∧
    (marks = [.helloAcked, .queued, .uploaded, .executeAcked] ++ trace ∨
      marks = [.helloAcked, .queued, .executeAcked, .uploaded] ++ trace)

/-- A report comes after the whole sequence. -/
def Believed (earlier : List (PhaseFact target)) (fact : PhaseFact target) : Prop :=
  fact.mark = .reported → Sequenced (progress earlier)

theorem sequenced_ready (late traced : Bool) : Sequenced (PhaseStage.ready late traced).story := by
  cases late <;> cases traced
  · exact ⟨[], .inl rfl, .inl rfl⟩
  · exact ⟨[.traced], .inr rfl, .inl rfl⟩
  · exact ⟨[], .inl rfl, .inr rfl⟩
  · exact ⟨[.traced], .inr rfl, .inr rfl⟩

/-- Accepting a report needs the whole sequence before it. -/
theorem Accepts.believed {requestId : UInt64} {stage : PhaseStage}
    {past new : List (PhaseFact target)} (step : (stage.phase requestId).Accepts new next)
    (told : progress past = stage.story) (justified : Justified Believed past) :
    Justified Believed (past ++ new) := by
  cases step with
  | terminal kind detail diagnostic counters acked =>
    refine justified.concat fun _ => ?_
    cases stage with
    | ready late traced =>
      rw [told]
      exact sequenced_ready late traced
    | _ => cases acked
  | refused =>
    rw [append_nil]
    exact justified
  | hello =>
    have greeted : Justified Believed
        (past ++ [.accepted (.helloAck (stage.phase requestId).requestId)]) :=
      justified.concat nofun
    have queued : Justified Believed (_ ++ [.queued]) := greeted.concat nofun
    rwa [append_assoc] at queued
  | _ => exact justified.concat nofun

/-- What is known of a phase by all it has accepted. -/
structure Told (requestId : UInt64) (phase : ParentReceivePhase)
    (facts : List (PhaseFact target)) : Prop where
  staged : ∃ stage : PhaseStage, phase = stage.phase requestId ∧ progress facts = stage.story
  believed : Justified Believed facts
  own : ∀ message, .accepted message ∈ facts → message.requestId = requestId

theorem Told.accepts {requestId : UInt64} {phase : ParentReceivePhase}
    {past facts : List (PhaseFact target)} (told : Told requestId phase past)
    (step : phase.Accepts facts next) : Told requestId next (past ++ facts) := by
  obtain ⟨stage, rfl, story⟩ := told.staged
  refine ⟨?_, step.believed story told.believed, fun message member => ?_⟩
  · obtain ⟨later, reached, grown⟩ := step.stage
    exact ⟨later, reached, by simp [grown, ← story, progress]⟩
  · rcases mem_append.mp member with old | recent
    · exact told.own message old
    · rw [step.own recent]
      cases stage <;> rfl

theorem Told.feedAll {requestId : UInt64} (events : List (PhaseEvent target)) :
    ∀ {phase : ParentReceivePhase} {past : List (PhaseFact target)}, Told requestId phase past →
      Told requestId (phase.feedAll events).1 (past ++ (phase.feedAll events).2) := by
  induction events with
  | nil =>
    intro phase past told
    rw [ParentReceivePhase.feedAll, append_nil]
    exact told
  | cons event events ih =>
    intro phase past told
    have fed := ih (told.accepts (phase.feed_accepts event))
    rwa [append_assoc] at fed

/-- No part but the report is played twice. -/
theorem Told.count {requestId : UInt64} {phase : ParentReceivePhase}
    {facts : List (PhaseFact target)} (told : Told requestId phase facts) (mark : PhaseMark)
    (progressing : mark ≠ .reported) : (facts.map PhaseFact.mark).count mark ≤ 1 := by
  obtain ⟨stage, -, story⟩ := told.staged
  have counted : (progress facts).count mark = (facts.map PhaseFact.mark).count mark :=
    count_filter (by simpa using progressing)
  rw [← counted, story]
  cases stage with
  | ready late traced => cases late <;> cases traced <;> cases mark <;> decide
  | _ => cases mark <;> decide

/-- Whatever is fed to a phase in whatever order, everything it accepts carries its
request identifier, a report is accepted only after the greeting, the queuing of the
upload, and both the upload's success and the acknowledgement of the execution, with at
most one trace after them, and nothing but a report is accepted twice. -/
theorem accepted_in_sequence (requestId : UInt64) (events : List (PhaseEvent target)) :
    let facts := ((new requestId).feedAll events).2
    (∀ message, .accepted message ∈ facts → message.requestId = requestId) ∧
      (∀ earlier report later, facts = earlier ++ report :: later → report.mark = .reported →
        Sequenced (progress earlier)) ∧
      ∀ mark, mark ≠ .reported → (facts.map PhaseFact.mark).count mark ≤ 1 := by
  have start : Told requestId (new requestId) ([] : List (PhaseFact target)) :=
    ⟨⟨.fresh, rfl, rfl⟩, .nil, nofun⟩
  have told := Told.feedAll events start
  exact ⟨told.own, told.believed, told.count⟩

end ParentReceivePhase

end Story

section Schedules

variable (requestId : UInt64) (trace : Option String) (kind : TerminalKind)
  (detail : TerminalDetail) (diagnostic : String) (counters : FinalCounters)

/-- The outcome of every event fed to a phase. -/
def ParentReceivePhase.outcomes (phase : ParentReceivePhase) :
    List (PhaseEvent target) → List (Except SketchWorkerFailure (List (PhaseFact target)))
  | [] => []
  | event :: events => (phase.feed event).2 :: (phase.feed event).1.outcomes events

variable (target) in
/-- What a worker sends when all goes well. -/
def answers : List (Message target) :=
  [.helloAck requestId, .executeAck requestId] ++
    (trace.map fun text => .trace requestId text).toList ++
    [.terminal requestId kind detail diagnostic counters]

/-- The read lane with the writer's success delivered after its first messages. -/
def uploadedAfter (count : Nat) (reads : List (Message target)) : List (PhaseEvent target) :=
  (reads.take count).map .received ++ .uploaded (.ok ()) :: (reads.drop count).map .received

/-- No event is refused and the report is accepted. -/
def Welcomed (phase : ParentReceivePhase) (events : List (PhaseEvent target))
    (report : Message target) : Prop :=
  (∀ outcome ∈ phase.outcomes events, ∃ facts, outcome = .ok facts) ∧
    .ok [.accepted report] ∈ phase.outcomes events

open ParentReceivePhase in
attribute [local simp] outcomes new feed handle receive upload queueUpload Message.requestId
  Except.isOk Except.toBool

/-- The writer's success may come anywhere after the upload was queued, which the
greeting does. A worker that did everything right is accepted exactly when that success
comes before its trace and its report. -/
theorem welcomed_iff_uploaded_early (count : Nat) (queued : 1 ≤ count)
    (inside : count ≤ (answers target requestId trace kind detail diagnostic counters).length) :
    Welcomed (.new requestId)
        (uploadedAfter count (answers target requestId trace kind detail diagnostic counters))
        (.terminal requestId kind detail diagnostic counters) ↔
      count ≤ 2 := by
  cases trace with
  | none =>
    have bounded : count ≤ 3 := inside
    obtain rfl | rfl | rfl : count = 1 ∨ count = 2 ∨ count = 3 := by omega
    all_goals simp [Welcomed, uploadedAfter, answers]
  | some text =>
    have bounded : count ≤ 4 := inside
    obtain rfl | rfl | rfl | rfl : count = 1 ∨ count = 2 ∨ count = 3 ∨ count = 4 := by omega
    all_goals simp [Welcomed, uploadedAfter, answers]

/-- The success comes directly after the acknowledgement of the execution. -/
theorem welcomed_after_acknowledgement :
    Welcomed (.new 1)
      (uploadedAfter 2 (answers .unix 1 (some "line") .completed .none "" { }))
      (.terminal 1 .completed .none "" { }) :=
  (welcomed_iff_uploaded_early 1 (some "line") .completed .none "" { } 2 (by decide)
    (by decide)).mpr (by decide)

/-- The report overtakes the writer's success and is refused. -/
theorem report_overtaking_upload :
    (ParentReceivePhase.new 1).outcomes
        (uploadedAfter 3 (answers .unix 1 none .completed .none "" { })) =
      [.ok [.accepted (.helloAck 1), .queued], .ok [.accepted (.executeAck 1)],
        .error .protocol, .ok [.uploaded]] := by
  decide

end Schedules

end KernalApi.Worker
