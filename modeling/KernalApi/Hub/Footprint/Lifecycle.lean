import KernalApi.Hub.Footprint.Transfer

/-!
# Effects of lifecycle, encoder and commit sections
-/

namespace KernalApi.Hub

open KernalApi.Std

variable {permitted : Change → Prop} {store : Store} {hub : OperationHub} {state : State}

/-! ### The lifecycle of an operation -/

theorem suspend_effects (token : OpaqueToken) (store : Store)
    (tally : permitted .tally) (parked : permitted (.amend token .park)) :
    Effects hub permitted state (suspend state token store).1 := by
  unfold suspend
  split
  · exact .refl
  rename_i operation found
  split
  · exact .refl
  have counted : Effects hub permitted state
      { state with suspends := saturatingAdd state.suspends 1 } :=
    .single tally (.tally rfl)
  split
  · exact counted
  rename_i pending
  have waiting : operation.terminal = none := by simpa using pending
  have stillFound : { state with
      suspends := saturatingAdd state.suspends 1 }.operations.get? token = some operation := found
  exact counted.trans (amend_effects .park stillFound (.inl waiting) parked)

/-- The names of the effects of finishing a deferred completion. -/
def Change.finishing (token : OpaqueToken) (deferred : DeferredCompletion) (change : Change) :
    Prop :=
  (∃ operation, change = .settle token operation deferred.result) ∨
    ∃ resource, deferred.revoke = some resource ∧ change.revoking resource .closed

theorem finishDeferredCompletion_effects (token : OpaqueToken) (deferred : DeferredCompletion) :
    Effects hub (Change.finishing token deferred) state
      (finishDeferredCompletion state token deferred).1 := by
  have settled : ∀ middle : State, Effects hub (Change.finishing token deferred) middle
      (terminalLocked middle token deferred.result).1 := by
    intro middle
    exact terminalLocked_effects token deferred.result fun operation _ => .inl ⟨operation, rfl⟩
  unfold finishDeferredCompletion
  split
  · exact .refl
  split
  · exact .refl
  split
  · split <;> exact (settled state).ends (by assumption)
  rename_i resource revoke
  have closed : Effects hub (Change.finishing token deferred) state
      (closeResourceWithTerminalLocked state resource .closed).1 :=
    (closeResourceWithTerminalLocked_effects resource .closed).weaken
      fun change name => .inr ⟨resource, revoke, name⟩
  split
  next after error equal => exact closed.ends equal
  rename_i middle equal
  rw [equal] at closed
  have both := closed.trans (settled middle)
  split <;> exact both.ends (by assumption)

theorem takeTerminal_effects (token : OpaqueToken) (store : Store)
    (removed : permitted (.remove token)) (tally : permitted .tally) :
    Effects hub permitted state (takeTerminal state token store).1 := by
  unfold takeTerminal
  split
  · exact .refl
  split
  · exact .refl
  split
  · exact .refl
  split
  · exact .refl
  exact (removeOperation_effects token removed).tail tally (.tally rfl)

theorem armIdleTimer_effects (token : OpaqueToken) (store : Store)
    (armed : permitted (.amend token .armTimer)) :
    Effects hub permitted state (armIdleTimer state token store).1 := by
  unfold armIdleTimer
  split
  · exact .refl
  rename_i operation found
  split
  next due =>
    have waiting : operation.terminal = none := by simpa using due.2.1
    split
    · exact .refl
    split
    · exact .refl
    exact amend_effects .armTimer found (.inl waiting) armed
  · exact .refl

theorem bindProducerCancellation_effects (store : Store) (token : OpaqueToken)
    (bound : permitted (.amend token .bindProducer)) :
    Effects hub permitted state (bindProducerCancellation state store token).1 := by
  unfold bindProducerCancellation
  split
  · exact .refl
  rename_i operation found
  split
  · exact .refl
  split
  · exact .refl
  split
  · exact .refl
  rename_i pending
  have waiting : operation.terminal = none := by simpa using pending
  exact amend_effects .bindProducer found (.inl waiting) bound

theorem finishExternalOpen_effects (token resource : OpaqueToken)
    (settled : ∀ operation, operation.createdResource = some resource →
      permitted (.settle token operation ⟨.completed, some resource⟩)) :
    Effects hub permitted state (finishExternalOpen state token resource).1 := by
  unfold finishExternalOpen
  split
  · exact .refl
  rename_i guards
  have published : Effects hub permitted state
      (terminalLocked state token ⟨.completed, some resource⟩).1 := by
    refine terminalLocked_effects token _ fun operation found => settled operation ?_
    by_contra unbound
    apply guards
    simp [found, unbound]
  split <;> exact published.ends (by assumption)

/-! ### Encoders and commits -/

/-- A capture operation that passed its check is pending and usable. -/
theorem validateCaptureOperation_pending {token : OpaqueToken}
    {blob : Option OpaqueToken} (valid : validateCaptureOperation state store token blob = .ok ()) :
    ∃ operation, state.operations.get? token = some operation ∧ operation.terminal = none ∧
      operation.requiredRights = externalWebviewRightCapture := by
  unfold validateCaptureOperation at valid
  split_ifs at valid
  split at valid
  · cases valid
  rename_i operation found
  split_ifs at valid with _ pending _ rights
  exact ⟨operation, found, by simpa using pending, by simpa using rights⟩

theorem overwriteEncoded_effects (store : Store) (blob : OpaqueToken) (position : Nat)
    (bytes : Bytes) (overwritten : permitted (.overwrite blob)) :
    Effects hub permitted state (overwriteEncoded state store blob position bytes).1 := by
  unfold overwriteEncoded
  split
  · exact .refl
  split
  · exact .refl
  rename_i resource found
  split
  · exact .refl
  split
  · exact .refl
  rename_i hidden
  split
  next buffer value =>
    have reserved : resource.reserved = true := by simpa using hidden
    have effect := Effects.single overwritten
      (@Effect.overwrite hub state blob resource buffer position bytes found reserved value)
    split <;> exact effect
  · exact .refl

/-- The names of the effects of publishing an encoded blob. -/
def Change.publishing (blob : OpaqueToken) (operation : Option OpaqueToken) : Change → Prop
  | .encode token reserved => token = blob ∧ reserved = operation.isSome
  | .amend token amendment => operation = some token ∧ amendment = .attach blob
  | .settle token slot result => operation = some token ∧ slot.createdResource = some blob ∧
      slot.requiredRights = externalWebviewRightCapture ∧ result = ⟨.completed, some blob⟩
  | _ => False

theorem finishInner_effects (store : Store) (blob : OpaqueToken) (operation : Option OpaqueToken) :
    Effects hub (Change.publishing blob operation) state
      (finishInner state store blob operation).1 := by
  unfold finishInner
  split
  · exact .refl
  split
  · exact .refl
  rename_i valid
  split
  · exact .refl
  rename_i resource found
  split
  · exact .refl
  split
  · exact .refl
  rename_i hidden
  have reserved : resource.reserved = true := by simpa using hidden
  split
  next buffer closedToWriters value =>
    cases operation with
    | none =>
      exact Effects.refl.next (.encode false found reserved value) ⟨rfl, rfl⟩
    | some token =>
      obtain ⟨pending, waiting, unended, rights⟩ := validateCaptureOperation_pending valid
      have encoded : Effects hub (Change.publishing blob (some token)) state
          (state.publishEncoded blob buffer true) :=
        Effects.refl.next (.encode true found reserved value) ⟨rfl, rfl⟩
      have stillWaiting : (state.publishEncoded blob buffer true).operations.get? token =
          some pending := waiting
      have attached := encoded.trans (amend_effects (.attach blob) stillWaiting
        (.inl unended) ⟨rfl, rfl⟩)
      have boundSlot : ((state.publishEncoded blob buffer true).modifyOperation token
          (Amendment.attach blob).apply).operations.get? token =
            some { pending with createdResource := some blob } := by
        simp [waiting, Amendment.apply]
      have published : Effects hub (Change.publishing blob (some token)) state
          (terminalLocked ((state.publishEncoded blob buffer true).modifyOperation token
            fun slot => { slot with createdResource := some blob }) token
              ⟨.completed, some blob⟩).1 :=
        attached.trans (terminalLocked_effects token _ fun slot slotFound => by
          rw [boundSlot] at slotFound
          cases slotFound
          exact ⟨rfl, rfl, rights, rfl⟩)
      simp only
      split <;> exact published.ends (by assumption)
  · exact .refl

theorem startCommit_effects (store : Store) (blob : OpaqueToken)
    (claimed : permitted (.claim blob)) :
    Effects hub permitted state (startCommit state store blob).1 := by
  unfold startCommit
  split
  · exact .refl
  rename_i unborrowed
  split
  · exact .refl
  rename_i resource found
  split
  · exact .refl
  rename_i valid
  split
  · exact .refl
  rename_i unclaimed
  split
  next buffer value =>
    refine .single claimed (.claim found (validateResource_usable valid)
      (by simpa using unclaimed) value ?_)
    intro token operation waiting borrows pending
    apply unborrowed
    rw [List.any_eq_true]
    exact ⟨operation, SortedMap.mem_values.mpr ⟨token, waiting⟩, by simp [borrows, pending]⟩
  · exact .refl

/-- The names of the effects that follow a replacement. -/
def Change.committing (blob output : OpaqueToken) (operation : Option OpaqueToken)
    (change : Change) : Prop :=
  (∃ token slot, operation = some token ∧ change = .settle token slot ⟨.completed, none⟩) ∨
    change.revoking blob .closed ∨ change.revoking output .closed

theorem settleCommit_effects (blob output : OpaqueToken) (operation : Option OpaqueToken) :
    Effects hub (Change.committing blob output operation) state
      (settleCommit state blob output operation).1 := by
  have completed : Effects hub (Change.committing blob output operation) state
      (completeCommit state operation).1 := by
    cases operation with
    | none => exact .refl
    | some token =>
      exact terminalLocked_effects token _ fun slot _ => .inl ⟨token, slot, rfl, rfl⟩
  have closedBlob : ∀ middle : State, Effects hub (Change.committing blob output operation) middle
      (closeResourceWithTerminalLocked middle blob .closed).1 := fun middle =>
    (closeResourceWithTerminalLocked_effects blob .closed).weaken fun _ name => .inr (.inl name)
  have closedOutput : ∀ middle : State,
      Effects hub (Change.committing blob output operation) middle
        (closeResourceWithTerminalLocked middle output .closed).1 := fun middle =>
    (closeResourceWithTerminalLocked_effects output .closed).weaken fun _ name => .inr (.inr name)
  unfold settleCommit
  split
  next after error equal => exact completed.ends equal
  rename_i first woke firstEqual
  rw [firstEqual] at completed
  have afterBlob := completed.trans (closedBlob first)
  split
  next after error equal => exact afterBlob.ends equal
  rename_i second secondEqual
  rw [secondEqual] at afterBlob
  have afterOutput := afterBlob.trans (closedOutput second)
  split <;> exact afterOutput.ends (by assumption)

/-- A commit operation that passed its check is still waiting. -/
theorem checkCommitOperation_waiting {operation : Option OpaqueToken}
    {borrows : OperationSlot → Bool}
    (valid : checkCommitOperation state store operation borrows = .ok ()) :
    ∀ token ∈ operation, ∃ slot, state.operations.get? token = some slot ∧
      slot.terminal = none := by
  intro token member
  cases member
  unfold checkCommitOperation at valid
  simp only at valid
  split at valid
  · cases valid
  rename_i slot found
  split_ifs at valid with passed
  refine ⟨slot, found, ?_⟩
  by_contra ended
  exact passed (.inr (.inr (Option.isSome_iff_ne_none.mpr ended)))

/-- A replacement: nothing, or the replacement and what follows it. -/
theorem replaceOutputOperation_effects (store : Store) (blob output : OpaqueToken)
    (content : Bytes) (operation : Option OpaqueToken) (replaces : Bool)
    (replaced : permitted (.replace blob output operation content))
    (settled : ∀ change, change.committing blob output operation → permitted change) :
    Effects hub permitted state
      (replaceOutputOperation state store blob output content operation replaces).1 := by
  unfold replaceOutputOperation
  split
  · exact .refl
  rename_i opened
  split
  · exact .refl
  rename_i waiting
  split
  · exact .refl
  rename_i authority
  split
  · exact .refl
  rename_i destination outputFound
  split
  · exact .refl
  split
  next path value =>
    split
    · exact .refl
    have blobLive : ∃ source, state.resources.get? blob = some source := by
      unfold checkAuthority at authority
      split at authority
      · cases authority
      next source found => exact ⟨source, found⟩
    obtain ⟨source, blobFound⟩ := blobLive
    have first : Effects hub permitted state
        (state.record (.replaced path blob output operation content)) :=
      .single replaced (.replace content (by simpa using opened) blobFound outputFound
        value (checkCommitOperation_waiting waiting))
    exact first.trans ((settleCommit_effects blob output operation).weaken settled)
  · exact .refl

end KernalApi.Hub
