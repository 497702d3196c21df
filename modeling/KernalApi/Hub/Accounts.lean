import KernalApi.Hub.Credit

/-!
# The counters behind the credits

Three counters and the component budgets say how much capacity native objects
hold. Most sections leave them alone, and by `Section.run_posts` each of the
others moves exactly the credit that its thread gains or gives back. The budgets
are changed by the sections of component leases only.
-/

namespace KernalApi.Hub

open KernalApi.Std Change State

variable {section' : Section} {start : State}
  {hub : OperationHub} {change : Change} {before after : State}

/-- The counters that native objects are charged to. -/
structure Accounts where
  native : Nat
  output : Nat
  processes : Nat
  budgets : SortedMap Nat Budget

/-- The counters of a state. -/
def State.accounts (state : State) : Accounts where
  native := state.nativeTransferCapacity
  output := state.reservedProcessOutputBytes
  processes := state.reservedNativeProcessOutputBytes
  budgets := state.budgets

/-! ### Effects -/

/-- The effects that move a counter. -/
def Change.meters : Change → Bool
  | .pull _ _ | .charge | .release | .deliver _ => true
  | _ => false

/-- Other effects leave the counters alone. -/
theorem Effect.counters (effect : Effect hub change before after) (plain : change.meters = false) :
    after.nativeTransferCapacity = before.nativeTransferCapacity ∧
      after.reservedProcessOutputBytes = before.reservedProcessOutputBytes ∧
      after.reservedNativeProcessOutputBytes = before.reservedNativeProcessOutputBytes := by
  cases effect with
  | tally same => simp [core_frame same]
  | takeSlot taken | create resource opened room taken => simp [takeSlot_frame taken]
  | pull | charge | release | deliver => cases plain
  | _ => simp [closeLocked]

/-- Only sections that change the budgets themselves touch them. -/
theorem Effect.budgets (effect : Effect hub change before after) (plain : change ≠ .tally) :
    after.budgets = before.budgets := by
  cases effect with
  | tally => exact absurd rfl plain
  | takeSlot taken | create resource opened room taken => simp [takeSlot_frame taken]
  | remove | discard => simp
  | revoke => simp [State.tombstone]
  | settle | accept | answer => simp only [State.settleOperation_frame] <;> rfl
  | _ => rfl

theorem Effects.budgets {permitted : Change → Prop} (effects : Effects hub permitted before after)
    (plain : ¬ permitted .tally) : after.budgets = before.budgets :=
  effects.relates (fun first second => second.budgets = first.budgets) (fun _ => rfl)
    (fun earlier later => later.trans earlier)
    (fun name effect => effect.budgets fun tally => plain (tally ▸ name))

/-! ### Sections that count -/

section Budgets

variable (hub) (state : State) (store : Store) (process token blob : OpaqueToken)

/-- Read the budgets of a function's state off its whole outcome. -/
theorem budgets_of_eq {α : Type} {outcome : State × α} {answer : α} {budgets : SortedMap Nat Budget}
    (kept : outcome.1.budgets = budgets) (equal : outcome = (after, answer)) :
    after.budgets = budgets := by
  rw [equal] at kept
  exact kept

theorem terminalLocked_budgets (result : TerminalResult) :
    (terminalLocked state token result).1.budgets = state.budgets := by
  rcases terminalLocked_cases state token result with
    ⟨_, equal⟩ | ⟨_, _, _, _, equal⟩ | ⟨settled, _, _, equal⟩
  · rw [equal]
  · rw [equal]
  · simp [equal]

theorem submitLocked_budgets (resource : Option OpaqueToken) (kind rights : Nat)
    (purpose : Purpose) :
    (submitLocked hub state store resource kind rights purpose).1.budgets = state.budgets :=
  (submitLocked_effects store resource kind rights purpose).budgets id

variable {hub state} in
theorem tryReserveExact_budgets {buffer grown : ByteBuffer} {additional : Nat}
    (granted : tryReserveExact hub state buffer additional = some (after, grown)) :
    after.budgets = state.budgets := by
  unfold tryReserveExact at granted
  split at granted
  · cases granted
    rfl
  split at granted
  · cases granted
  cases granted
  rfl

theorem reserveBlobCapacity_budgets (additional maximum transferMaximum : Nat) :
    (reserveBlobCapacity hub state blob additional maximum transferMaximum).1.budgets =
      state.budgets := by
  unfold reserveBlobCapacity
  split
  · rfl
  split
  · split
    · rfl
    · simp only
      split
      · rfl
      split
      · rfl
      next granted => exact (tryReserveExact_budgets granted :)
  · rfl

theorem blobWriteInner_budgets (bytes : Bytes) (unpublished : Bool) :
    (blobWriteInner hub state store blob bytes unpublished).1.budgets = state.budgets := by
  unfold blobWriteInner
  split
  · rfl
  split <;> exact (budgets_of_eq (reserveBlobCapacity_budgets hub state blob _ _ _)
    (by assumption) :)

theorem driveBlobWrite_budgets : (driveBlobWrite hub state token).1.budgets = state.budgets := by
  unfold driveBlobWrite
  split
  · rfl
  split
  · split
    · rfl
    · exact terminalLocked_budgets _ _ _
    · split
      next equal => exact budgets_of_eq (reserveBlobCapacity_budgets hub state _ _ _ _) equal
      all_goals
        rw [terminalLocked_budgets]
        exact (budgets_of_eq (reserveBlobCapacity_budgets hub state _ _ _ _) (by assumption) :)
  · rfl

theorem driveBlobRead_budgets : (driveBlobRead hub state token).1.budgets = state.budgets := by
  unfold driveBlobRead
  split
  · rfl
  split
  · split
    · split
      · rfl
      · simp only
        split
        · rfl
        rw [terminalLocked_budgets]
        rfl
    · rfl
  · rfl

/-- A pass keeps what each of its visits keeps. -/
theorem drivePass_budgets {visit : State → OpaqueToken → State × Except HubError Bool}
    (keeps : ∀ state token, (visit state token).1.budgets = state.budgets)
    (tokens : List OpaqueToken) (state : State) (progressed : Bool) :
    (drivePass visit tokens state progressed).1.budgets = state.budgets := by
  induction tokens generalizing state progressed with
  | nil => rfl
  | cons token rest ih =>
    unfold drivePass
    split
    next equal => exact budgets_of_eq (keeps state token) equal
    next equal => exact (ih _ _).trans (budgets_of_eq (keeps state token) equal)

theorem admitCompilerScalar_budgets :
    (admitCompilerScalar hub state).1.budgets = state.budgets := by
  unfold admitCompilerScalar
  split
  · rfl
  simp only
  split
  · rfl
  split <;> rfl

/-- Behind an admission the budgets are those of what follows it. -/
theorem admitted_budgets {α : Type} {follows : State → State × Except HubError α}
    (keeps : ∀ middle, (follows middle).1.budgets = middle.budgets) :
    (match admitCompilerScalar hub state with
      | (middle, .error error) => (middle, Except.error error)
      | (middle, .ok ()) => follows middle).1.budgets = state.budgets := by
  rw [← admitCompilerScalar_budgets hub state]
  split
  next equal => rw [equal]
  next equal => rw [equal, keeps]

theorem submitCompilerWait_budgets :
    (submitCompilerWait hub state store process).1.budgets = state.budgets := by
  refine admitted_budgets hub state fun middle => ?_
  split <;> exact (budgets_of_eq (submitLocked_budgets hub middle store _ _ _ _) (by assumption) :)

theorem submitCompilerClose_budgets :
    (submitCompilerClose hub state store process).1.budgets = state.budgets := by
  refine admitted_budgets hub state fun middle => ?_
  split
  · rfl
  split
  next equal => exact budgets_of_eq (submitLocked_budgets hub middle store _ _ _ _) equal
  rename_i equal
  have submitted := budgets_of_eq (submitLocked_budgets hub middle store _ _ _ _) equal
  have closed (state : State) :=
    (@closeResourceWithTerminalLocked_effects hub state process .closed).budgets id
  simp only
  split
  next last => exact (budgets_of_eq (closed _) last).trans submitted
  next last => exact ((budgets_of_eq (closed _) last).trans submitted :)

end Budgets

/-! ### Sections -/

/-- Sections that may move a counter. -/
def Section.meters : Section → Bool
  | .readChunk _ _ _ _ | .releaseNative _ | .spawn _ _ | .releaseNativeOutput | .beginOutput _ _
  | .submitOutput _ _ | .publishOutput _ _ _ | .dropOutput _ _ _ _ | .acquireLease _ _
  | .dropLease _ _ | .finishTeardown _ => true
  | _ => false

/-- Sections that may count, tidy job lists or keep statistics. -/
def Section.tallies : Section → Bool
  | .suspend _ _ | .takeTerminal _ _ | .acquireClock | .releaseClock | .blobWrite _ _ _ _
  | .readChunk _ _ _ _ | .writePass | .readPass | .collectRead _ _ _ | .acquireOutputJob _
  | .releaseOutputJob | .spawn _ _ | .beginOutput _ _ | .submitOutput _ _ | .collectOutput _ _ _
  | .submitWait _ _ | .submitClose _ _ | .collectWait _ _ | .finishJob _ _ | .pollJobs
  | .openBudget _ | .acquireLease _ _ | .dropLease _ _ | .beginTeardown _ | .finishTeardown _ =>
    true
  | _ => false

theorem Section.meters_of_writes (writes : section'.writes start change)
    (moves : change.meters = true) : Section.meters section' = true := by
  cases change with
  | pull | charge | release | deliver =>
    cases section' <;> first
      | rfl
      | (exfalso
         simp [Section.writes, creating, submitting, spending,
          revoking, finishing, publishing, committing,
          driving, Change.answering, granting, Change.observing,
          closingProcess, hashing, absorbing] at writes)
  | _ => cases moves

theorem Section.tallies_of_writes
    (writes : section'.writes start .tally) : section'.tallies = true := by
  cases section' <;> first
    | rfl
    | (exfalso
       simp [Section.writes, creating, submitting, spending, revoking,
        finishing, publishing, committing, granting,
        droppingOutput, hashing, absorbing] at writes)

/-- Sections of the component budgets. -/
def Section.budgeting : Section → Bool
  | .openBudget _ | .acquireLease _ _ | .dropLease _ _ | .beginTeardown _ | .finishTeardown _ =>
    true
  | _ => false

/-- Sections that move no counter and are not about the budgets leave them alone. -/
theorem Section.run_budgets (hub : OperationHub) (state : State) (section' : Section)
    (still : section'.meters = false) (plain : section'.budgeting = false) :
    (section'.run hub state).1.budgets = state.budgets := by
  by_cases tallies : section'.tallies = true
  · cases section' with
    | suspend | acquireClock =>
      simp only [run, answering, Hub.suspend, Hub.acquireClock]
      repeat' split
      all_goals rfl
    | takeTerminal | collectRead | acquireOutputJob | collectOutput | collectWait =>
      simp only [run, answering, Hub.takeTerminal, collectBlobRead, Hub.acquireOutputJob,
        collectCompilerOutput, collectCompilerWait]
      repeat' split
      all_goals first | rfl | simp
    | blobWrite store blob bytes unpublished =>
      exact blobWriteInner_budgets hub state store blob bytes unpublished
    | writePass => exact drivePass_budgets (driveBlobWrite_budgets hub) _ _ _
    | readPass => exact drivePass_budgets (driveBlobRead_budgets hub) _ _ _
    | submitWait store process => exact submitCompilerWait_budgets hub state store process
    | submitClose store process => exact submitCompilerClose_budgets hub state store process
    | openBudget | acquireLease | dropLease | beginTeardown | finishTeardown => cases plain
    | readChunk | spawn | beginOutput | submitOutput => cases still
    | _ => first | rfl | cases tallies
  · have effects : Effects hub (section'.writes state) state (section'.run hub state).1 :=
      Section.run_effects section' state
    exact effects.budgets fun writes => tallies (section'.tallies_of_writes writes)

/-- Sections that move no counter and no budget leave the accounts alone. -/
theorem Section.run_accounts (hub : OperationHub) (state : State) (section' : Section)
    (still : section'.meters = false) (plain : section'.budgeting = false) :
    (section'.run hub state).1.accounts = state.accounts := by
  have effects : Effects hub (section'.writes state) state (section'.run hub state).1 :=
    Section.run_effects section' state
  have counters := effects.relates
    (fun first second => second.nativeTransferCapacity = first.nativeTransferCapacity ∧
      second.reservedProcessOutputBytes = first.reservedProcessOutputBytes ∧
      second.reservedNativeProcessOutputBytes = first.reservedNativeProcessOutputBytes)
    (fun _ => ⟨rfl, rfl, rfl⟩)
    (fun earlier later => ⟨later.1.trans earlier.1, later.2.1.trans earlier.2.1,
      later.2.2.trans earlier.2.2⟩)
    (fun {change} _ _ writes effect => effect.counters (by
      by_contra moves
      have moved := section'.meters_of_writes writes (by simpa using moves)
      rw [still] at moved
      cases moved))
  simp [accounts, counters, section'.run_budgets hub state still plain]

/-! ### What each credit weighs -/

namespace Credit

/-- The native transfer capacity of a chunk. -/
def chunkBytes : Credit → Nat
  | .chunk capacity => capacity
  | _ => 0

/-- The output reservation of a read. -/
def reads : Credit → Nat
  | .read _ _ => 1
  | _ => 0

def jobs : Credit → Nat
  | .job => 1
  | _ => 0

/-- The leases of one budget, counted. -/
def leases (budget : Nat) : Credit → Nat
  | .lease owner _ => if owner = budget then 1 else 0
  | _ => 0

/-- The leases of one budget, in bytes. -/
def leaseBytes (budget : Nat) : Credit → Nat
  | .lease owner bytes => if owner = budget then bytes else 0
  | _ => 0

/-- The weight of all objects together. -/
def weigh (measure : Credit → Nat) (objects : Multiset Credit) : Nat := (objects.map measure).sum

variable (measure : Credit → Nat) (objects more : Multiset Credit)

@[simp] theorem weigh_zero : weigh measure 0 = 0 := rfl

@[simp] theorem weigh_singleton (credit : Credit) : weigh measure {credit} = measure credit := by
  simp [weigh]

@[simp] theorem weigh_add :
    weigh measure (objects + more) = weigh measure objects + weigh measure more := by
  simp [weigh]

variable {objects}

/-- A budget without leases has no leased bytes. -/
theorem weigh_leaseBytes_of_none {budget : Nat} (none : weigh (leases budget) objects = 0) :
    weigh (leaseBytes budget) objects = 0 := by
  induction objects using Multiset.induction_on with
  | empty => rfl
  | cons credit rest ih =>
    rw [← Multiset.singleton_add, weigh_add, weigh_singleton] at none ⊢
    have here : leaseBytes budget credit = 0 := by
      cases credit with
      | lease owner bytes =>
        by_cases same : owner = budget
        · simp [leases, same] at none
        · simp [leaseBytes, same]
      | _ => rfl
    omega

/-- An object that is there weighs no more than all together. -/
theorem le_weigh {credit : Credit} (member : credit ∈ objects) :
    measure credit ≤ weigh measure objects := by
  obtain ⟨-, rfl⟩ := Multiset.exists_cons_of_mem member
  simp [weigh]

end Credit

open Credit (weigh)

/-- The accounts after a section that is not about the budgets: up by the credit
it hands out, down by the credit it takes back. -/
def Accounts.post (accounts : Accounts) (takes gives : Multiset Credit) : Accounts where
  native := accounts.native + weigh Credit.chunkBytes takes - weigh Credit.chunkBytes gives
  output := accounts.output + maxProcessOutputChunk * weigh Credit.reads takes -
    maxProcessOutputChunk * weigh Credit.reads gives
  processes := accounts.processes + nativeProcessOutputAllowance * weigh Credit.jobs takes -
    nativeProcessOutputAllowance * weigh Credit.jobs gives
  budgets := accounts.budgets

@[simp] theorem Accounts.post_nothing (accounts : Accounts) : accounts.post 0 0 = accounts := by
  simp [Accounts.post]

attribute [local simp] Accounts.post Credit.chunkBytes Credit.reads Credit.jobs

section Posts

variable (hub) (state : State) (store : Store) (operation process blob : OpaqueToken)

/-- The counters of a submission are those before it. -/
theorem submitLocked_accounts (resource : Option OpaqueToken) (kind rights : Nat)
    (purpose : Purpose) :
    (submitLocked hub state store resource kind rights purpose).1.accounts = state.accounts :=
  Section.run_accounts hub state (.submit store resource kind rights purpose) rfl rfl

theorem createResourceValueLocked_accounts (kind rights : Nat) (shareable : Bool)
    (fresh : FreshValue) (origin : Origin) :
    (createResourceValueLocked hub state store kind rights shareable fresh origin).1.accounts =
      state.accounts :=
  Section.run_accounts hub state (.create store kind rights shareable fresh origin) rfl rfl

theorem terminalLocked_accounts (hub : OperationHub) (state : State) (token : OpaqueToken)
    (result : TerminalResult) : (terminalLocked state token result).1.accounts = state.accounts :=
  Section.run_accounts hub state (.terminal token result) rfl rfl

theorem removeOperation_accounts : (state.removeOperation operation).accounts = state.accounts := by
  simp [accounts]

theorem admitCompilerScalar_accounts :
    (admitCompilerScalar hub state).1.accounts = state.accounts := by
  have frame := core_frame (admitCompilerScalar_core hub state)
  simp [accounts, frame, admitCompilerScalar_budgets]

/-- Read the accounts of a function's state off its whole outcome. -/
theorem accounts_of_eq {α : Type} {outcome : State × α} {answer : α} {accounts : Accounts}
    (kept : outcome.1.accounts = accounts) (equal : outcome = (after, answer)) :
    after.accounts = accounts := by
  rw [equal] at kept
  exact kept

/-- An outcome that leaves the accounts alone if it is an error and posts credit otherwise. -/
structure Posts {α : Type} (takes gives : α → Multiset Credit)
    (outcome : State × Except HubError α) : Prop where
  refused : ∀ {error}, outcome.2 = .error error → outcome.1.accounts = state.accounts
  moved : ∀ {value}, outcome.2 = .ok value →
    outcome.1.accounts = state.accounts.post (takes value) (gives value)

section Outcome

variable {α : Type} {state} {takes gives : α → Multiset Credit}
  {outcome : State × Except HubError α} {error : HubError} {value : α}

theorem Posts.kept (same : after.accounts = state.accounts) :
    Posts state takes gives (after, .error error) :=
  ⟨fun _ => same, nofun⟩

theorem Posts.posted (moved : after.accounts = state.accounts.post (takes value) (gives value)) :
    Posts state takes gives (after, .ok value) := by
  refine ⟨nofun, fun equal => ?_⟩
  cases equal
  exact moved

theorem Posts.unless {guard : Prop} [Decidable guard] (posts : Posts state takes gives outcome) :
    Posts state takes gives (if guard then (state, .error error) else outcome) := by
  split
  · exact .kept rfl
  · exact posts

/-- The outcome as the answer of a section that takes and gives nothing on an error. -/
theorem Posts.answer {report : α → Answer} (posts : Posts state takes gives outcome)
    (unpaid : ∀ error, section'.takes (.failed error) = 0 ∧ section'.gives (.failed error) = 0)
    (paid : ∀ value, takes value = section'.takes (.of report (.ok value)) ∧
      gives value = section'.gives (.of report (.ok value))) :
    outcome.1.accounts = state.accounts.post (section'.takes (.of report outcome.2))
      (section'.gives (.of report outcome.2)) := by
  obtain ⟨after, error | value⟩ := outcome
  · simp only [Answer.of, unpaid error]
    exact posts.refused rfl
  · rw [← (paid value).1, ← (paid value).2]
    exact posts.moved rfl

end Outcome

theorem beginCompilerOutputLocked_posts (wire : Bool) :
    Posts state (fun _ => {.read process wire}) (fun _ => 0)
      (beginCompilerOutputLocked hub state store process) := by
  unfold beginCompilerOutputLocked
  split
  · exact .kept rfl
  refine .unless (.unless (.unless ?_))
  split
  next refused => exact .kept (accounts_of_eq (submitLocked_accounts hub _ _ _ _ _ _) refused)
  next reached token submitted =>
    refine .posted ?_
    rw [← accounts_of_eq (submitLocked_accounts hub _ _ _ _ _ _) submitted]
    simp [accounts]

theorem submitCompilerOutput_posts (wire : Bool) :
    Posts state (fun _ => {.read process wire}) (fun _ => 0)
      (submitCompilerOutput hub state store process) := by
  unfold submitCompilerOutput
  split
  next refused => exact .kept (accounts_of_eq (admitCompilerScalar_accounts hub state) refused)
  rename_i middle admitted
  have same := accounts_of_eq (admitCompilerScalar_accounts hub state) admitted
  have posts := beginCompilerOutputLocked_posts hub middle store process wire
  split
  next refused =>
    rw [refused] at posts
    exact .kept ((posts.refused rfl).trans same)
  next begun =>
    rw [begun] at posts
    refine .posted ?_
    rw [← same]
    exact posts.moved rfl

theorem submitCompilerSpawn_posts (grant : OpaqueToken) :
    Posts state (fun _ => {.job}) (fun _ => 0) (submitCompilerSpawn hub state store grant) := by
  unfold submitCompilerSpawn
  split
  · exact .kept rfl
  simp only
  split
  · exact .kept rfl
  have submission := submitLocked_accounts hub (pollProcessJobs state)
  split
  next refused => exact .kept (accounts_of_eq (submission _ _ _ _ _) refused)
  rename_i reached operation submitted
  have same := accounts_of_eq (submission _ _ _ _ _) submitted
  split
  next refused =>
    have kept := accounts_of_eq (createResourceValueLocked_accounts hub _ _ _ _ _ _ _) refused
    exact .kept ((removeOperation_accounts _ _).trans (kept.trans same))
  rename_i final process created
  have total := (accounts_of_eq (createResourceValueLocked_accounts hub _ _ _ _ _ _ _)
    created).trans same
  change accounts final = state.accounts at total
  refine .posted ?_
  rw [← total]
  simp [accounts]

/-- Publishing a result fails only for a token without an operation. -/
theorem terminalLocked_absent {state : State} {token : OpaqueToken} {result : TerminalResult}
    {error : HubError} (refused : terminalLocked state token result = (after, .error error)) :
    state.operations.get? token = none := by
  rcases terminalLocked_cases state token result with
    ⟨absent, _⟩ | ⟨_, _, _, _, equal⟩ | ⟨_, _, _, equal⟩
  · exact absent
  all_goals
    rw [equal] at refused
    cases refused

theorem publishOutput_posts (hub : OperationHub) (state : State) (operation process : OpaqueToken)
    (event : Option ProcessOutputEvent) (wire : Bool) :
    Posts state (fun _ => 0) (fun _ => {.read process wire})
      (publishOutput state operation process event) := by
  unfold publishOutput
  split
  · exact .kept rfl
  rename_i slot found
  refine .unless ?_
  split
  · exact .kept rfl
  refine .unless ?_
  simp only
  split
  next refused =>
    -- The operation is still in the table, so publishing cannot fail.
    have absent := terminalLocked_absent refused
    simp [found] at absent
  next settled =>
    have published := accounts_of_eq (terminalLocked_accounts hub _ _ _) settled
    refine .posted ?_
    rw [published]
    simp [accounts]

theorem dropOutputRead_posts (hub : OperationHub) (state : State) (operation process : OpaqueToken)
    (wirePending completed : Bool) :
    (dropOutputRead state operation process wirePending completed).accounts =
      { state.accounts with output := state.accounts.output - maxProcessOutputChunk } := by
  have ended : (if wirePending then (terminalLocked state operation ⟨.closed, none⟩).1
      else state.removeOperation operation).accounts = state.accounts := by
    split
    · exact terminalLocked_accounts hub _ _ _
    exact removeOperation_accounts _ _
  have closed : ∀ middle : State, (if completed then middle
      else (closeIfLive middle process .closed).1).accounts = middle.accounts := by
    intro middle
    split
    · rfl
    unfold closeIfLive
    split
    · rfl
    exact Section.run_accounts hub middle (.reclaim process) rfl rfl
  rw [← ended]
  exact congrArg (fun accounts : Accounts =>
    { accounts with output := accounts.output - maxProcessOutputChunk }) (closed _)

theorem readBlobChunk_posts (maximum : Nat) (committing : Bool) :
    Posts state (fun data => {.chunk data.capacity}) (fun _ => 0)
      (readBlobChunk hub state store blob maximum committing) := by
  refine .unless ?_
  split
  · exact .kept rfl
  refine .unless ?_
  split
  · exact .kept rfl
  split
  · refine .unless ?_
    refine .posted ?_
    rfl
  · exact .kept rfl

end Posts

/-- A section that is not about the budgets posts the credit it moves. -/
theorem Section.run_posts (hub : OperationHub) (state : State) (section' : Section)
    (plain : section'.budgeting = false) :
    (section'.run hub state).1.accounts =
      state.accounts.post (section'.takes (section'.run hub state).2)
        (section'.gives (section'.run hub state).2) := by
  have unmoved : ∀ {takes gives : Multiset Credit}, takes = 0 → gives = 0 →
      state.accounts = state.accounts.post takes gives := by
    rintro _ _ rfl rfl
    exact (Accounts.post_nothing _).symm
  by_cases meters : section'.meters = true
  · cases section' with
    | readChunk store blob maximum committing =>
      exact (readBlobChunk_posts hub state store blob maximum committing).answer
        (fun _ => ⟨rfl, rfl⟩) fun _ => ⟨rfl, rfl⟩
    | releaseNative capacity =>
      rfl
    | spawn store grant =>
      exact (submitCompilerSpawn_posts hub state store grant).answer
        (fun _ => ⟨rfl, rfl⟩) fun _ => ⟨rfl, rfl⟩
    | releaseNativeOutput =>
      simp only [run, releaseNativeProcessOutput]
      split
      · exact unmoved rfl rfl
      rfl
    | beginOutput store process =>
      exact (beginCompilerOutputLocked_posts hub state store process _).answer
        (fun _ => ⟨rfl, rfl⟩) fun _ => ⟨rfl, rfl⟩
    | submitOutput store process =>
      exact (submitCompilerOutput_posts hub state store process _).answer
        (fun _ => ⟨rfl, rfl⟩) fun _ => ⟨rfl, rfl⟩
    | publishOutput operation process event =>
      exact (publishOutput_posts hub state operation process event _).answer
        (fun _ => ⟨rfl, rfl⟩) fun _ => ⟨rfl, rfl⟩
    | dropOutput =>
      simp only [run]
      rw [dropOutputRead_posts hub]
      simp [takes, gives]
    | acquireLease | dropLease | finishTeardown => cases plain
    | _ => cases meters
  · have still : section'.meters = false := by simpa using meters
    have nothing : section'.takes (section'.run hub state).2 = 0 ∧
        Section.gives section' (section'.run hub state).2 = 0 := by
      cases section' <;> first | exact ⟨rfl, rfl⟩ | cases still
    rw [section'.run_accounts hub state still plain]
    exact unmoved nothing.1 nothing.2

end KernalApi.Hub
