import KernalApi.Worker.RoundTrip

/-!
# From an execution result to the parent's terminal

The worker maps the result of an execution to a terminal message, and the parent
maps the message it reads to the terminal it returns. `corresponding` says what
the two maps are for; they agree with it on the results that the terminal rules
let through and that the encoding keeps apart.
-/

namespace KernalApi.Worker

open KernalApi.Std

variable {result : ExecutionResult}

structure ThreadSpawnRejectionSummary where
  capacity : UInt32 := 0
  closing : UInt32 := 0
  fuel : UInt32 := 0
  epoch : UInt32 := 0
  deriving DecidableEq

def ThreadSpawnRejectionSummary.isEmpty (summary : ThreadSpawnRejectionSummary) : Bool :=
  summary.capacity == 0 && summary.closing == 0 && summary.fuel == 0 && summary.epoch == 0

inductive ThreadedRootOutcome where
  | started
  | startedWithThreadRejections (summary : ThreadSpawnRejectionSummary)
  | exited
  | exitedWithThreadRejections (summary : ThreadSpawnRejectionSummary)
  deriving DecidableEq

inductive ThreadedChildOutcomeKind where
  | completed
  | cancelled
  | deadlineExceeded
  | exited
  | nonzeroExit (code : Int32)
  | outOfFuel
  | trapped
  | panicked
  deriving DecidableEq

structure ThreadedChildOutcome where
  tid : Int32
  kind : ThreadedChildOutcomeKind
  deriving DecidableEq

inductive SketchExecutionError where
  | threadedProfileRequired
  | sharedMemoryLimitExceeded
  | rootExecutionLimitExceeded
  | sessionBusy
  | outOfFuel
  | cancelled
  | deadlineExceeded
  | epochRegistrationLimitExceeded
  | foreignRuntime
  | blockingTaskFailed
  | containmentRequired
  | sharedMemoryUnavailable
  | prelinkFailed
  | outputGrantRejected
  | outputCleanupFailed
  | webviewGrantRejected
  | webviewCleanupFailed
  | nonzeroExit (code : Int32)
  | childNonzeroExit (code : Int32)
  | childTrapped
  | childPanicked
  | childOutcomes (outcomes : List ThreadedChildOutcome)
  | validationReportInvalid
  | sessionGenerationExhausted
  | trapped
  deriving DecidableEq

def SketchExecutionError.code : SketchExecutionError → String
  | .threadedProfileRequired => "threaded-profile-required"
  | .sharedMemoryLimitExceeded => "shared-memory-limit-exceeded"
  | .rootExecutionLimitExceeded => "root-execution-limit-exceeded"
  | .sessionBusy => "session-busy"
  | .outOfFuel => "out-of-fuel"
  | .cancelled => "cancelled"
  | .deadlineExceeded => "deadline-exceeded"
  | .epochRegistrationLimitExceeded => "epoch-registration-limit-exceeded"
  | .foreignRuntime => "foreign-runtime"
  | .blockingTaskFailed => "blocking-task-failed"
  | .containmentRequired => "containment-required"
  | .sharedMemoryUnavailable => "shared-memory-unavailable"
  | .prelinkFailed => "prelink-failed"
  | .outputGrantRejected => "output-grant-rejected"
  | .outputCleanupFailed => "output-cleanup-failed"
  | .webviewGrantRejected => "webview-grant-rejected"
  | .webviewCleanupFailed => "webview-cleanup-failed"
  | .nonzeroExit _ => "nonzero-exit"
  | .childNonzeroExit _ => "child-nonzero-exit"
  | .childTrapped => "child-trapped"
  | .childPanicked => "child-panicked"
  | .childOutcomes _ => "child-outcomes"
  | .validationReportInvalid => "validation-report-invalid"
  | .sessionGenerationExhausted => "session-generation-exhausted"
  | .trapped => "trapped"

/-- The result of an execution in the worker. -/
abbrev ExecutionResult := Except SketchExecutionError ThreadedRootOutcome

section Worker

def rejections (rootOutcome : RootOutcome) (value : ThreadSpawnRejectionSummary) :
    TerminalDetail where
  rootOutcome
  capacityRejections := value.capacity
  closingRejections := value.closing
  fuelRejections := value.fuel
  epochRejections := value.epoch

def mapResult : ExecutionResult → TerminalKind × TerminalDetail × String
  | .ok .started => (.completed, { rootOutcome := .started }, "started")
  | .ok .exited => (.completed, { rootOutcome := .exited }, "exited")
  | .ok (.startedWithThreadRejections summary) =>
    (.completed, rejections .startedWithThreadRejections summary, "started")
  | .ok (.exitedWithThreadRejections summary) =>
    (.completed, rejections .exitedWithThreadRejections summary, "exited")
  | .error .cancelled => (.cancelled, .none, "cancelled")
  | .error .deadlineExceeded => (.deadlineExceeded, .none, "deadline-exceeded")
  | .error .outOfFuel => (.outOfFuel, .none, "out-of-fuel")
  | .error .trapped => (.trapped, .none, "trapped")
  | .error (.nonzeroExit code) => (.nonzeroExit, { statusCode := some code }, "nonzero-exit")
  | .error (.childNonzeroExit code) =>
    (.childFailure, { statusCode := some code }, "child-nonzero-exit")
  | .error .childTrapped => (.childFailure, .none, "child-failure")
  | .error .childPanicked => (.childFailure, .none, "child-failure")
  | .error (.childOutcomes _) => (.childFailure, .none, "child-failure")
  | .error error => (.workerFailure, .none, error.code)

def countersAreZero (value : FinalCounters) : Bool :=
  value.activeRoots == 0 && value.liveStores == 0 && value.liveInstances == 0 &&
    value.activeEpochRegistrations == 0 && value.liveThreads == 0

/-- Keep the first `maxDiagnosticBytes` bytes of a text; a cut inside a character
is a fault. -/
def bound (text : String) : Option String :=
  if (asBytes text).length ≤ maxDiagnosticBytes then some text
  else (fromUtf8 ((asBytes text).take maxDiagnosticBytes)).toOption

/-- The terminal message a worker writes after an execution. -/
def terminalOf {target : Target} (requestId : UInt64) (result : ExecutionResult)
    (counters : FinalCounters) : Option (Message target) :=
  let (kind, detail, diagnostic) :=
    if countersAreZero counters then mapResult result
    else (.workerFailure, .none, "nonzero-worker-counters")
  (bound diagnostic).map fun diagnostic => .terminal requestId kind detail diagnostic counters

end Worker

section Parent

inductive SketchWorkerStopReason where
  | cancelled
  | deadlineExceeded
  deriving DecidableEq

inductive SketchWorkerFailure where
  | invalidConfiguration
  | launch
  | protocol
  | unexpectedExit
  | containmentCleanup
  | childFailure
  | workerReportedFailure
  | workerForcedContainment
  | outputGrant
  | outputCommit
  | outputCleanup
  | outputCommittedCleanup
  deriving DecidableEq

inductive SketchWorkerTerminal where
  | completed (outcome : ThreadedRootOutcome)
  | stopped (reason : SketchWorkerStopReason)
  | forcedContainment (trigger : SketchWorkerStopReason)
  | execution (error : SketchExecutionError)
  | failure (failure : SketchWorkerFailure)
  deriving DecidableEq

def mapTerminal {target : Target} (message : Message target) (id : UInt64) :
    Except SketchWorkerFailure SketchWorkerTerminal :=
  match message with
  | .terminal requestId kind detail _ counters =>
    if requestId ≠ id || !countersAreZero counters then .error .protocol
    else
      let rejected : ThreadSpawnRejectionSummary := {
        capacity := detail.capacityRejections
        closing := detail.closingRejections
        fuel := detail.fuelRejections
        epoch := detail.epochRejections }
      match kind with
      | .completed =>
        match detail.rootOutcome with
        | .started => .ok (.completed .started)
        | .exited => .ok (.completed .exited)
        | .startedWithThreadRejections =>
          .ok (.completed (.startedWithThreadRejections rejected))
        | .exitedWithThreadRejections =>
          .ok (.completed (.exitedWithThreadRejections rejected))
        | .none => .error .protocol
      | .cancelled => .ok (.stopped .cancelled)
      | .deadlineExceeded => .ok (.stopped .deadlineExceeded)
      | .outOfFuel => .ok (.execution .outOfFuel)
      | .trapped => .ok (.execution .trapped)
      | .nonzeroExit =>
        match detail.statusCode with
        | some code => .ok (.execution (.nonzeroExit code))
        | none => .error .protocol
      | .childFailure =>
        match detail.statusCode with
        | some code => .ok (.execution (.childNonzeroExit code))
        | none => .ok (.failure .childFailure)
      | .workerFailure => .ok (.failure .workerReportedFailure)
      | .protocolFailure => .ok (.failure .protocol)
      | .forcedContainment => .ok (.failure .workerForcedContainment)
  | _ => .error .protocol

end Parent

/-- The terminal that stands for an execution result. -/
def corresponding : ExecutionResult → SketchWorkerTerminal
  | .ok outcome => .completed outcome
  | .error .cancelled => .stopped .cancelled
  | .error .deadlineExceeded => .stopped .deadlineExceeded
  | .error .outOfFuel => .execution .outOfFuel
  | .error .trapped => .execution .trapped
  | .error (.nonzeroExit code) => .execution (.nonzeroExit code)
  | .error (.childNonzeroExit code) => .execution (.childNonzeroExit code)
  | .error .childTrapped => .failure .childFailure
  | .error .childPanicked => .failure .childFailure
  | .error (.childOutcomes _) => .failure .childFailure
  | .error _ => .failure .workerReportedFailure

/-- The results whose report the terminal rules admit and the encoding keeps. -/
def Reportable : ExecutionResult → Prop
  | .ok (.startedWithThreadRejections summary) => summary.isEmpty = false
  | .ok (.exitedWithThreadRejections summary) => summary.isEmpty = false
  | .error (.nonzeroExit code) => code ≠ noStatusCode
  | .error (.childNonzeroExit _) => False
  | _ => True

/-- The report is written, read back from the stream and mapped to the terminal
that stands for the result. -/
def Delivered (target : Target) (requestId : UInt64) (result : ExecutionResult) : Prop :=
  ∃ (written read : Message target) (frame : List UInt8),
    terminalOf requestId result {} = some written ∧ encode written = .ok frame ∧
      (∀ following, readMessage (frame ++ following) = (.ok read, following)) ∧
      mapTerminal read requestId = .ok (corresponding result)

section Encoding

variable {target : Target} {requestId : UInt64} {kind : TerminalKind} {detail : TerminalDetail}
  {diagnostic : String} {counters : FinalCounters}

def detailBytes (detail : TerminalDetail) : List UInt8 :=
  [detail.rootOutcome.code] ++ (leBytes 4 detail.capacityRejections.toNat ++
    (leBytes 4 detail.closingRejections.toNat ++ (leBytes 4 detail.fuelRejections.toNat ++
      (leBytes 4 detail.epochRejections.toNat ++
        leBytes 4 (detail.statusCode.getD noStatusCode).toUInt32.toNat))))

theorem emits_detail (detail : TerminalDetail) : Emits (putDetail detail) (detailBytes detail) :=
  .seq (emits_putBytes _) (.seq (emits_putBytes _) (.seq (emits_putBytes _)
    (.seq (emits_putBytes _) (.seq (emits_putBytes _) (emits_putBytes _)))))

def counterBytes (counters : FinalCounters) : List UInt8 :=
  leBytes 8 counters.activeRoots.toNat ++ (leBytes 8 counters.liveStores.toNat ++
    (leBytes 8 counters.liveInstances.toNat ++
      (leBytes 8 counters.activeEpochRegistrations.toNat ++
        (leBytes 8 counters.liveThreads.toNat ++ []))))

theorem emits_counters (counters : FinalCounters) :
    Emits (putCounters counters) (counterBytes counters) :=
  .seq (emits_putBytes _) (.seq (emits_putBytes _) (.seq (emits_putBytes _)
    (.seq (emits_putBytes _) (.seq (emits_putBytes _) fun out => by rw [List.append_nil]; rfl))))

/-- The payload of a terminal message. -/
def terminalBytes (requestId : UInt64) (kind : TerminalKind) (detail : TerminalDetail)
    (diagnostic : String) (counters : FinalCounters) : List UInt8 :=
  leBytes 8 requestId.toNat ++ ([kind.code] ++ (detailBytes detail ++
    (leBytes 2 (UInt16.ofNat (asBytes diagnostic).length).toNat ++
      (asBytes diagnostic ++ counterBytes counters))))

theorem emits_terminal (valid : detail.validate kind = .ok ())
    (short : (asBytes diagnostic).length ≤ maxDiagnosticBytes) :
    Emits (putPayload (.terminal requestId kind detail diagnostic counters : Message target))
      (terminalBytes requestId kind detail diagnostic counters) := by
  have small : ¬ maxDiagnosticBytes < (asBytes diagnostic).length := Nat.not_lt.mpr short
  have body : putBody (.terminal requestId kind detail diagnostic counters : Message target) =
      (do
        putU8 kind.code
        putDetail detail
        putU16 (UInt16.ofNat (asBytes diagnostic).length)
        putBytes (asBytes diagnostic)
        putCounters counters) := by
    simp only [putBody, valid, if_neg small]
    rfl
  refine .seq (emits_putBytes _) ?_
  rw [body]
  exact .seq (emits_putBytes _) (.seq (emits_detail detail) (.seq (emits_putBytes _)
    (.seq (emits_putBytes _) (emits_counters counters))))

/-- A valid terminal with a short diagnostic is always encoded. -/
theorem encode_terminal (nonzero : requestId ≠ 0) (valid : detail.validate kind = .ok ())
    (short : (asBytes diagnostic).length ≤ maxDiagnosticBytes) :
    encode (.terminal requestId kind detail diagnostic counters : Message target) =
      .ok (frameOf .terminal (terminalBytes requestId kind detail diagnostic counters)) := by
  refine encode_ok.mpr ⟨nonzero, _, emits_terminal valid short [], ?_, rfl⟩
  have limit : maxDiagnosticBytes + 72 ≤ maxFramePayload := by decide
  simp only [List.nil_append, terminalBytes, detailBytes, counterBytes, List.length_append,
    length_leBytes, List.length_cons, List.length_nil]
  omega

/-- An invalid terminal is never encoded. -/
theorem encode_invalid {frame : List UInt8}
    (encoded : encode (.terminal requestId kind detail diagnostic counters : Message target) =
      .ok frame) : detail.validate kind = .ok () := by
  obtain ⟨_, payload, written, _⟩ := encode_ok.mp encoded
  obtain ⟨_, _, _, body⟩ := stateT_bind_ok.mp written
  obtain ⟨_, _, checked, _⟩ := stateT_bind_ok.mp body
  exact (liftM_ok.mp checked).1

/-- A report of the smallest exit code is not decoded: its status is read as an
absent one, which the terminal rules refuse. -/
theorem decode_minimumExit (read : Message target) :
    decode (frameOf .terminal (terminalBytes requestId .nonzeroExit
      { statusCode := some noStatusCode } diagnostic counters)) ≠ .ok read := by
  intro decoded
  obtain ⟨kind, payload, same, _, taken⟩ := decode_ok.mp decoded
  obtain ⟨rfl, rfl⟩ := frameOf_injective same
  obtain ⟨found, rest, idRead, body⟩ := stateT_bind_ok.mp taken
  have word : Codec (fun _ => True) _ putU64 takeU64 := codec_u64
  rw [terminalBytes, word.reads requestId trivial (emits_putBytes _) trivial] at idRead
  cases idRead
  split at body
  · cases body
  obtain ⟨kind, rest, kindRead, body⟩ := stateT_bind_ok.mp body
  have byte : Codec (fun _ => True) _ _ takeTerminalKind := codec_terminalKind
  rw [byte.reads .nonzeroExit trivial (emits_putBytes _) trivial] at kindRead
  cases kindRead
  obtain ⟨detail, rest, detailRead, body⟩ := stateT_bind_ok.mp body
  -- The bytes of the detail are those of a detail without a status code.
  have absent : detailBytes { statusCode := some noStatusCode } = detailBytes {} := rfl
  have silent : ({} : TerminalDetail).statusCode ≠ some noStatusCode := by decide
  have fields : Codec (fun _ => True) _ putDetail takeDetail := codec_detail
  rw [absent, fields.reads {} silent (emits_detail {}) trivial] at detailRead
  cases detailRead
  obtain ⟨_, _, checked, _⟩ := stateT_bind_ok.mp body
  cases (liftM_ok.mp checked).1

end Encoding

section Fidelity

variable {target : Target} {requestId : UInt64}

theorem length_diagnostic (result : ExecutionResult) :
    (asBytes (mapResult result).2.2).length ≤ maxDiagnosticBytes := by
  cases result with
  | ok outcome => cases outcome <;> exact Nat.le_of_ble_eq_true rfl
  | error error => cases error <;> exact Nat.le_of_ble_eq_true rfl

/-- The terminal a worker writes after an execution that left no counters. -/
theorem terminalOf_zero (result : ExecutionResult) :
    (terminalOf requestId result {} : Option (Message target)) =
      some (.terminal requestId (mapResult result).1 (mapResult result).2.1
        (mapResult result).2.2 {}) := by
  have zero : countersAreZero {} = true := rfl
  simp only [terminalOf, zero, if_true, bound, if_pos (length_diagnostic result), Option.map_some]

/-- A valid report whose status code can be told apart is delivered. -/
theorem delivered_of_valid (nonzero : requestId ≠ 0)
    (valid : (mapResult result).2.1.validate (mapResult result).1 = .ok ())
    (present : (mapResult result).2.1.statusCode ≠ some noStatusCode)
    (mapped : mapTerminal (.terminal requestId (mapResult result).1 (mapResult result).2.1
      (mapResult result).2.2 {} : Message target) requestId = .ok (corresponding result)) :
    Delivered target requestId result := by
  have encoded : encode (.terminal requestId (mapResult result).1 (mapResult result).2.1
      (mapResult result).2.2 {} : Message target) = .ok _ :=
    encode_terminal nonzero valid (length_diagnostic result)
  refine ⟨_, _, _, terminalOf_zero result, encoded, ?_, mapped⟩
  intro following
  exact readMessage_ok.mpr ⟨_, (decode_encoded encoded).mpr present, rfl⟩

theorem delivered_of_silent (nonzero : requestId ≠ 0)
    (valid : (mapResult result).2.1.validate (mapResult result).1 = .ok ())
    (silent : (mapResult result).2.1.statusCode = none)
    (mapped : mapTerminal (.terminal requestId (mapResult result).1 (mapResult result).2.1
      (mapResult result).2.2 {} : Message target) requestId = .ok (corresponding result)) :
    Delivered target requestId result := by
  refine delivered_of_valid nonzero valid ?_ mapped
  rw [silent]
  exact nofun

/-- A report with its own request id and no counters is mapped by its kind. -/
theorem mapTerminal_self (kind : TerminalKind) (detail : TerminalDetail) (diagnostic : String) :
    mapTerminal (.terminal requestId kind detail diagnostic {} : Message target) requestId =
      mapTerminal (.terminal 1 kind detail diagnostic {} : Message target) 1 := by
  simp [mapTerminal]

/-- A summary of rejections is reported with a completion exactly when it is not
empty. -/
theorem validate_rejections {outcome : RootOutcome} (with' : outcome.withRejections = true)
    (summary : ThreadSpawnRejectionSummary) :
    (rejections outcome summary).validate .completed = .ok () ↔ summary.isEmpty = false := by
  have counts : (rejections outcome summary).counts = !summary.isEmpty := by
    simp only [ThreadSpawnRejectionSummary.isEmpty, Bool.not_and]
    rfl
  have status : (rejections outcome summary).statusCode = none := rfl
  have same : (rejections outcome summary).rootOutcome = outcome := rfl
  have present : (outcome == .none) = false := by
    cases outcome <;> first | rfl | cases with'
  cases empty : summary.isEmpty <;>
    simp [TerminalDetail.validate, counts, status, same, present, with', empty]

/-- A report of the smallest exit code never reaches the parent. -/
theorem not_delivered_minimumExit (nonzero : requestId ≠ 0) :
    ¬ Delivered target requestId (.error (.nonzeroExit noStatusCode)) := by
  rintro ⟨written, read, frame, reported, encoded, reads, _⟩
  rw [terminalOf_zero] at reported
  cases reported
  obtain ⟨other, decoded, same⟩ := readMessage_ok.mp (reads [])
  rw [List.append_nil, List.append_nil] at same
  subst same
  rw [encode_terminal nonzero (encode_invalid encoded) (length_diagnostic _)] at encoded
  cases encoded
  exact decode_minimumExit read decoded

/-- A result reaches the parent unchanged exactly when it is reportable. -/
theorem delivered_iff_reportable (target : Target) (requestId : UInt64) (nonzero : requestId ≠ 0)
    (result : ExecutionResult) : Delivered target requestId result ↔ Reportable result := by
  constructor
  · intro delivered
    obtain ⟨written, _, frame, reported, encoded, _⟩ := id delivered
    rw [terminalOf_zero] at reported
    cases reported
    have valid := encode_invalid encoded
    cases result with
    | ok outcome =>
      cases outcome with
      | startedWithThreadRejections summary | exitedWithThreadRejections summary =>
        exact (validate_rejections rfl summary).mp valid
      | _ => trivial
    | error error =>
      cases error with
      | nonzeroExit code =>
        rintro rfl
        exact not_delivered_minimumExit nonzero delivered
      | _ => trivial
  · intro reportable
    cases result with
    | ok outcome =>
      cases outcome with
      | started | exited => exact delivered_of_silent nonzero rfl rfl (mapTerminal_self _ _ _)
      | startedWithThreadRejections summary | exitedWithThreadRejections summary =>
        exact delivered_of_silent nonzero ((validate_rejections rfl summary).mpr reportable) rfl
          (mapTerminal_self _ _ _)
    | error error =>
      cases error with
      | childNonzeroExit => exact reportable.elim
      | nonzeroExit code =>
        have present : some code ≠ some noStatusCode := fun same =>
          reportable (Option.some.inj same)
        exact delivered_of_valid nonzero rfl present (mapTerminal_self _ _ _)
      | _ => exact delivered_of_silent nonzero rfl rfl (mapTerminal_self _ _ _)

theorem delivered_nonzeroExit :
    Reportable (.error (.nonzeroExit (-9))) ∧ Delivered .unix 1 (.error (.nonzeroExit (-9))) := by
  have reportable : Reportable (.error (.nonzeroExit (-9))) := by
    simp only [Reportable]
    decide
  exact ⟨reportable, (delivered_iff_reportable .unix 1 (by decide) _).mpr reportable⟩

/-- The terminal rules refuse every report of a child that exited with a code, so the worker ends
without one; and the parent cannot read the report of a guest that exited with the smallest code. -/
theorem childNonzeroExit_lost :
    (terminalOf 1 (.error (.childNonzeroExit 7)) {} : Option (Message .unix)).map encode =
        some (.error .invalidTerminal) ∧
      ¬ Delivered .unix 1 (.error (.childNonzeroExit 7)) ∧
      ¬ Delivered .unix 1 (.error (.nonzeroExit noStatusCode)) := by
  refine ⟨by decide +kernel, ?_, not_delivered_minimumExit (by decide)⟩
  rintro ⟨written, _, frame, reported, encoded, _⟩
  rw [terminalOf_zero] at reported
  cases reported
  cases encode_invalid encoded

end Fidelity

end KernalApi.Worker
