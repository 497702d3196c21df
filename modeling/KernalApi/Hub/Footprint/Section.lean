import KernalApi.Hub.Footprint.Process
import KernalApi.Hub.Section

/-!
# The effects of each critical section

`Section.writes` lists the effects a section may have when it starts from a
given state, and `Section.run_effects` proves that running the section is a
chain of such effects.
-/

namespace KernalApi.Hub

open Change

variable {hub : OperationHub}

/-- The effects a section may have. -/
def Section.writes (start : State) : Section → Change → Prop
  | .create store _ _ _ _ origin, change => change.creating store origin
  | .submit store resource _ rights purpose, change =>
    change.submitting store resource rights purpose
  | .attach operation resource, change => change = .amend operation (.attach resource) ∨
      change = .remove operation ∨ change = .discard resource
  | .activate resource _, change => change = .alter resource .activate
  | .terminal operation result, change => ∃ slot, change = .settle operation slot result
  | .close resource reason, change => change.revoking resource reason.val
  | .reclaim resource, change => change.revoking resource .closed
  | .closeAll reason, change => change = .shutDown reason.val
  | .suspend operation _, change => change = .tally ∨ change = .amend operation .park
  | .completeAfterSuspend operation deferred, change =>
    change = .amend operation (.defer deferred)
  | .finishDeferred operation deferred, change => change.finishing operation deferred
  | .takeTerminal operation _, change => change = .remove operation ∨ change = .tally
  | .armIdleTimer operation _, change => change = .amend operation .armTimer
  | .bindProducer _ operation, change => change = .amend operation .bindProducer
  | .finishExternalOpen operation resource, change =>
    ∃ slot, slot.createdResource = some resource ∧
      change = .settle operation slot ⟨.completed, some resource⟩
  | .acquireClock, change => change = .tally
  | .releaseClock, change => change = .tally
  | .blobWrite _ blob bytes _, change => change = .tally ∨ change = .reserve blob ∨
      change = .write blob bytes
  | .readChunk _ blob _ committing, change => change = .tally ∨ change = .pull blob committing
  | .releaseNative _, change => change = .release
  | .stageWrite operation length copy, change => change = .remove operation ∨
      change = .amend operation .writes ∨ change = .stage operation length copy
  | .stageRead operation maximum, change => change = .remove operation ∨
      change = .amend operation (.pulls maximum)
  | .writePass, change => change.driving
  | .readPass, change => change.answering
  | .collectRead _ token _, change => change = .remove token ∨ change = .tally
  | .abandonTransfer _ token, change => change = .remove token
  | .abandonBlob _ token, change => change.revoking token .closed
  | .sealBlob _ blob _, change => change = .sealing blob
  | .bindEncoder _ operation blob, change => change = .amend operation (.attach blob)
  | .overwriteEncoded _ blob _ _, change => change = .overwrite blob
  | .finishEncoder _ blob operation, change => change.publishing blob operation
  | .startCommit _ blob, change => change = .claim blob
  | .replaceOutput _ blob output content operation _, change =>
    change = .replace blob output operation content ∨ change.committing blob output operation
  | .acquireOutputJob operation, change => change = .remove operation ∨ change = .tally
  | .releaseOutputJob, change => change = .tally
  | .drawToken, change => change = .draw
  | .grantCompiler store _ _ _, change => change.granting start store
  | .spawn store grant, change => change.spawning start store grant
  | .closeCompiler _ process, change => change.revoking process .closed
  | .publishCompiler operation process, change => change = .alter process .startSession ∨
      ∃ slot, slot.terminal = none ∧ change = .settle operation slot ⟨.completed, some process⟩
  | .releaseNativeOutput, change => change = .release
  | .abandonSpawn _ operation, change => change = .remove operation ∨
      ∃ slot process, start.operations.get? operation = some slot ∧ slot.isCompilerSpawn = true ∧
        slot.createdResource = some process ∧ change.revoking process .closed
  | .beginOutput store process, change => change.beginning start store process
  | .submitOutput store process, change => change.beginning start store process
  | .receive _ process _, change => ∃ count, change = .alter process (.chargeOutput count)
  | .collectNative operation _, change =>
    ∃ slot, start.operations.get? operation = some slot ∧
      change = .settle operation slot ⟨.completed, none⟩
  | .publishOutput operation _ _, change => change = .deliver operation ∨
      ∃ slot, slot.isCompilerRead = true ∧ change = .settle operation slot ⟨.completed, none⟩
  | .dropOutput operation process _ _, change => change.droppingOutput operation process
  | .collectOutput _ token _, change => change = .remove token ∨ change = .tally ∨
      ∃ process, change = .alter process (.outputBusy false)
  | .abandonOutput _ token, change => change = .remove token ∨
      ∃ slot process, start.operations.get? token = some slot ∧ slot.resource = some process ∧
        change.revoking process .closed
  | .cancelOutput _ token, change =>
    ∃ slot process, start.operations.get? token = some slot ∧ slot.resource = some process ∧
      change.revoking process .cancelled
  | .submitWait store process, change => change.observing start store (some process) .wait .wait
  | .publishWait operation _, change => (∃ exit, change = .amend operation (.exits exit)) ∨
      ∃ slot terminal, slot.terminal = none ∧ change = .settle operation slot ⟨terminal, none⟩
  | .dropScalar operation, change => ∃ slot, change = .settle operation slot ⟨.closed, none⟩
  | .submitClose store process, change => change.closingProcess start store process
  | .collectWait _ token, change => change = .remove token ∨ change = .tally
  | .abandonScalar _ token _, change => change = .remove token
  | .abandonCompilerResource _ token _, change => change.revoking token .closed
  | .finishJob _ _, change => change = .tally
  | .pollJobs, change => change = .tally
  | .hashCreate store, change => change.hashing start store
  | .hashUpdate store hash _, change => change.absorbing start store hash
  | .abandonHashOperation _ token, change => change = .remove token ∨
      ∃ slot resource, start.operations.get? token = some slot ∧ slot.isHashOperation = true ∧
        slot.createdResource.or slot.resource = some resource ∧ change.revoking resource .closed
  | .finishHash _ token, change => change.revoking token .closed
  | .abandonHash _ token, change => change.revoking token .closed
  | .openBudget _, change => change = .tally
  | .acquireLease _ _, change => change.leasing
  | .dropLease _ _, change => change.leasing
  | .beginTeardown _, change => change = .tally
  | .finishTeardown _, change => change.leasing
  -- The remaining sections only look.
  | _, _ => False

/-- Running a section is a chain of the effects it may have. -/
theorem Section.run_effects (section' : Section) (state : State) :
    Effects hub (section'.writes state) state (section'.run hub state).1 := by
  cases section' with
  | create => exact (createResourceValueLocked_effects _ _ _ _ _ _).weaken fun _ => And.left
  | submit => exact submitLocked_effects _ _ _ _ _
  | attach => exact attachCreatedResource_effects _ _ (.inl rfl) (.inr (.inl rfl)) (.inr (.inr rfl))
  | activate resource =>
    simp only [run, activateGranted]
    split
    · exact .refl
    exact .single rfl (.alter resource .activate)
  | terminal => exact terminalLocked_effects _ _ fun slot _ => ⟨slot, rfl⟩
  | close | reclaim => exact closeResourceWithTerminalLocked_effects _ _
  | closeAll reason => exact .single rfl (.shutDown reason.val reason.property)
  | suspend => exact suspend_effects _ _ (.inl rfl) (.inr rfl)
  | completeAfterSuspend _ deferred =>
    simp only [run, Hub.completeAfterSuspend]
    split
    · exact .refl
    rename_i operation found
    split
    · exact .refl
    rename_i pending
    split
    · exact .refl
    have waiting : operation.terminal = none := by simpa using pending
    exact amend_effects (.defer deferred) found (.inl waiting) rfl
  | finishDeferred => exact finishDeferredCompletion_effects _ _
  | takeTerminal => exact takeTerminal_effects _ _ (.inl rfl) (.inr rfl)
  | armIdleTimer => exact armIdleTimer_effects _ _ rfl
  | bindProducer => exact bindProducerCancellation_effects _ _ rfl
  | finishExternalOpen =>
    exact finishExternalOpen_effects _ _ fun slot created => ⟨slot, created, rfl⟩
  | acquireClock =>
    simp only [run, Hub.acquireClock]
    split
    · exact .single rfl (.tally rfl)
    exact .refl
  | releaseClock | releaseOutputJob | beginTeardown => exact .single rfl (.tally rfl)
  | blobWrite => exact blobWriteInner_effects _ _ _ _ (.inl rfl) (.inr (.inl rfl)) (.inr (.inr rfl))
  | readChunk => exact readBlobChunk_effects _ _ _ _ (.inl rfl) (.inr rfl)
  | releaseNative capacity =>
    exact .single rfl (.release (Nat.sub_le _ capacity) (Nat.le_refl _) (Nat.le_refl _))
  | stageWrite => exact stageBlobWrite_effects _ _ _ (.inl rfl) (.inr (.inl rfl)) (.inr (.inr rfl))
  | stageRead operation maximum =>
    simp only [run, stageBlobRead]
    split
    · exact removeOperation_effects operation (.inl rfl)
    split
    · exact .refl
    next slot found => exact amend_effects (.pulls maximum) found (.inr rfl) (.inr rfl)
  | writePass => exact driveBlobWritePass_effects
  | readPass => exact driveBlobReadPass_effects
  | collectRead => exact collectBlobRead_effects _ _ _ (.inl rfl) (.inr rfl)
  | abandonTransfer _ token =>
    simp only [run, Hub.abandonTransfer]
    split
    · exact .refl
    split_ifs
    · exact .refl
    · exact .refl
    exact removeOperation_effects token rfl
  | abandonBlob =>
    simp only [run, Hub.abandonBlob]
    split
    · exact .refl
    split_ifs
    · exact .refl
    · exact .refl
    exact closeResourceWithTerminalLocked_effects _ _
  | sealBlob =>
    simp only [run, Hub.sealBlob]
    split
    · exact .refl
    rename_i resource found
    split
    · exact .refl
    rename_i valid
    split
    · exact .single rfl (.sealing found (validateResource_usable valid))
    exact .refl
  | bindEncoder _ _ blob =>
    simp only [run, Hub.bindEncoder]
    split
    · exact .refl
    rename_i valid
    obtain ⟨operation, found, waiting, _⟩ := validateCaptureOperation_pending valid
    exact amend_effects (.attach blob) found (.inl waiting) rfl
  | overwriteEncoded => exact overwriteEncoded_effects _ _ _ _ rfl
  | finishEncoder => exact finishInner_effects _ _ _
  | startCommit => exact startCommit_effects _ _ rfl
  | replaceOutput =>
    exact replaceOutputOperation_effects _ _ _ _ _ _ (.inl rfl) fun _ name => .inr name
  | acquireOutputJob operation =>
    simp only [run, Hub.acquireOutputJob]
    split
    · exact removeOperation_effects operation (.inl rfl)
    split
    · exact removeOperation_effects operation (.inl rfl)
    exact .single (.inr rfl) (.tally rfl)
  | drawToken => exact nextToken_effects rfl
  | grantCompiler => exact (grantCompilerWithCache_effects _ _ _ _).weaken fun _ => And.left
  | spawn => exact (submitCompilerSpawn_effects _ _).weaken fun _ => And.left
  | closeCompiler =>
    simp only [run, Hub.closeCompiler]
    split
    · exact .refl
    exact closeResourceWithTerminalLocked_effects _ _
  | publishCompiler =>
    exact publishCompiler_effects _ _ (.inl rfl) fun slot pending => .inr ⟨slot, pending, rfl⟩
  | releaseNativeOutput =>
    simp only [run, releaseNativeProcessOutput]
    split
    · exact .refl
    exact .single rfl (.release (Nat.le_refl _) (Nat.le_refl _) (Nat.sub_le _ _))
  | abandonSpawn => exact abandonCompilerSpawn_effects _ _
  | beginOutput => exact beginCompilerOutputLocked_effects _ _
  | submitOutput => exact submitCompilerOutput_effects _ _
  | receive => exact receiveEvent_effects _ _ _ fun count => ⟨count, rfl⟩
  | collectNative => exact collectNativeOutput_effects _ _ fun slot found => ⟨slot, found, rfl⟩
  | publishOutput =>
    exact publishOutput_effects _ _ _ (.inl rfl) fun slot reads => .inr ⟨slot, reads, rfl⟩
  | dropOutput => exact dropOutputRead_effects _ _ _ _
  | collectOutput =>
    exact collectCompilerOutput_effects _ _ _ (.inl rfl) (fun process => .inr (.inr ⟨process, rfl⟩))
      (.inr (.inl rfl))
  | abandonOutput => exact abandonCompilerOutput_effects _ _
  | cancelOutput => exact cancelCompilerOutput_effects _ _
  | submitWait => exact submitCompilerWait_effects _ _
  | publishWait => exact publishWait_effects _ _
  | dropScalar operation =>
    simp only [run, dropScalarProducer]
    split
    · exact .refl
    split
    · exact .refl
    exact terminalLocked_effects operation _ fun slot _ => ⟨slot, rfl⟩
  | submitClose => exact submitCompilerClose_effects _ _
  | collectWait => exact collectCompilerWait_effects _ _ (.inl rfl) (.inr rfl)
  | abandonScalar _ token =>
    simp only [run, abandonCompilerScalar]
    split
    · exact .refl
    split_ifs
    all_goals first | exact .refl | exact removeOperation_effects token rfl
  | abandonCompilerResource =>
    simp only [run, Hub.abandonCompilerResource]
    split
    · exact .refl
    split
    · exact .refl
    exact closeResourceWithTerminalLocked_effects _ _
  | finishJob => exact .single rfl (.tally rfl)
  | pollJobs => exact .single rfl (.tally rfl)
  | hashCreate => exact (submitHashCreate_effects _).weaken fun _ => And.left
  | hashUpdate => exact submitHashUpdate_effects _ _ _
  | abandonHashOperation => exact abandonHashOperation_effects _ _
  | finishHash => exact finishHash_effects _ _
  | abandonHash =>
    simp only [run, Hub.abandonHash]
    split
    · exact .refl
    split
    · exact .refl
    exact closeResourceWithTerminalLocked_effects _ _
  | openBudget =>
    simp only [run, Hub.openBudget]
    split
    · exact .single rfl (.tally rfl)
    exact .refl
  | acquireLease => exact acquireLease_effects _ _
  | dropLease => exact dropLease_effects _ _
  | finishTeardown => exact finishTeardown_effects _
  | _ => exact .refl

/-- A staged copy comes from the section that stages it. -/
theorem Section.writes_stage {section' : Section} {start : State} {token : OpaqueToken}
    {length : Nat} {copy : ByteBuffer}
    (writes : section'.writes start (.stage token length copy)) : section' =
      .stageWrite token length copy := by
  cases section' <;>
    simp_all [Section.writes, creating, spending, submitting, revoking,
      finishing, driving, Change.answering, publishing, committing,
      granting, spawning, beginning, droppingOutput, Change.observing,
      closingProcess, hashing, absorbing, leasing]

end KernalApi.Hub
