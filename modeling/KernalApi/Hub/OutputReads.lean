import KernalApi.Hub.Balance
import KernalApi.Hub.Slots

/-!
# Output reads of a compiler process

A process serves one output read at a time and is busy while it does. A read on
the wire is outstanding while its operation is in the table, a native read while
its lease lives. `Attended` counts both against the busy flag of each live
process. Few sections touch what it counts; the others leave it `Undisturbed`.
-/

namespace KernalApi.Hub

open Section
open Credit (weigh)

variable {objects : Multiset Credit} {permitted : Change → Prop} {purpose : Purpose}
  {hub : OperationHub} {change : Change} {before after : State}

/-- Whether a process has an output read in flight; nothing for other resources. -/
def ResourceValue.busy? : ResourceValue → Option Bool
  | .compilerProcess process => some process.outputBusy
  | _ => none

namespace State

/-- The busy flag of a live process. -/
def busy? (state : State) (process : OpaqueToken) : Option Bool :=
  (state.resources.get? process).bind fun slot => slot.value.busy?

/-- The process a wire read in the table borrows. -/
def wire? (state : State) (token : OpaqueToken) : Option OpaqueToken :=
  (state.operations.get? token).bind fun slot =>
    if slot.isCompilerRead then slot.resource else none

/-- The wire reads of a process that are pending or not yet collected. -/
def wireReads (state : State) (process : OpaqueToken) : Finset OpaqueToken :=
  (state.operationsWhere fun slot =>
    slot.isCompilerRead && decide (slot.resource = some process)).toFinset

theorem mem_wireReads {state : State} {process token : OpaqueToken} :
    token ∈ state.wireReads process ↔ state.wire? token = some process := by
  cases stored : state.operations.get? token with
  | none => simp [wireReads, wire?, operationsWhere, stored]
  | some slot => cases reads : slot.isCompilerRead <;>
      simp [wireReads, wire?, operationsWhere, stored]

/-- The operation under a token, while there is one, is no wire read. -/
def Unread (state : State) (token : OpaqueToken) : Prop :=
  ∀ operation, state.operations.get? token = some operation → operation.isCompilerRead = false

theorem Unread.wire {state : State} {token : OpaqueToken} (unread : state.Unread token) :
    state.wire? token = none := by
  cases stored : state.operations.get? token with
  | none => simp [wire?, stored]
  | some slot => simp [wire?, stored, unread slot stored]

/-- An issued token whose operation is no wire read. -/
structure Native (state : State) (token : OpaqueToken) : Prop where
  known : token ≤ state.nextOpaqueToken
  unread : state.Unread token

end State

/-- A native read of a process. -/
def Credit.nativeReads (process : OpaqueToken) : Credit → Nat
  | .read served false => if served = process then 1 else 0
  | _ => 0

/-- A read of a process, native or on the wire. -/
def Credit.readsOf (process : OpaqueToken) : Credit → Nat
  | .read served _ => if served = process then 1 else 0
  | _ => 0

theorem Credit.nativeReads_le (process : OpaqueToken) (objects : Multiset Credit) :
    weigh (Credit.nativeReads process) objects ≤ weigh (Credit.readsOf process) objects := by
  refine Multiset.sum_map_le_sum_map _ _ fun credit _ => ?_
  cases credit with
  | read served wire => cases wire <;> simp [Credit.nativeReads, Credit.readsOf]
  | _ => exact Nat.le_refl _

/-- Each live process is busy exactly while it has one output read outstanding. -/
structure Attended (state : State) (objects : Multiset Credit) : Prop where
  busy : ∀ {process busy}, state.busy? process = some busy →
    (state.wireReads process).card + weigh (Credit.nativeReads process) objects =
      if busy then 1 else 0
  /-- Nothing reads from a process that does not exist yet. -/
  unissued : ∀ {process}, state.nextOpaqueToken < process →
    state.wireReads process = ∅ ∧ weigh (Credit.readsOf process) objects = 0

variable {process : OpaqueToken}

/-- A process that does not exist yet has no native read either. -/
theorem Attended.nothing {state : State}
    (attended : Attended state objects) (fresh : state.nextOpaqueToken < process) :
    state.wireReads process = ∅ ∧ weigh (Credit.nativeReads process) objects = 0 := by
  obtain ⟨none, nothing⟩ := attended.unissued fresh
  exact ⟨none, Nat.le_zero.mp (nothing ▸ Credit.nativeReads_le process objects)⟩

/-- The busy flags and wire reads of all processes but some are as they were. -/
structure Undisturbed (except : OpaqueToken → Prop) (before after : State) : Prop where
  later : before.nextOpaqueToken ≤ after.nextOpaqueToken
  busy : ∀ {process busy}, ¬ except process → after.busy? process = some busy →
    before.busy? process = some busy ∨ before.nextOpaqueToken < process ∧ busy = false
  reads : ∀ {process}, ¬ except process → after.wireReads process = before.wireReads process

namespace Undisturbed

variable {except : OpaqueToken → Prop} {first second third : State}

theorem refl (state : State) : Undisturbed except state state :=
  ⟨Nat.le_refl _, fun _ found => .inl found, fun _ => rfl⟩

theorem trans (earlier : Undisturbed except first second)
    (next : Undisturbed except second third) : Undisturbed except first third := by
  refine ⟨earlier.later.trans next.later, ?_, fun kept =>
    (next.reads kept).trans (earlier.reads kept)⟩
  intro process busy kept found
  rcases next.busy kept found with middle | ⟨fresh, idle⟩
  · exact earlier.busy kept middle
  · exact .inr ⟨Nat.lt_of_le_of_lt earlier.later fresh, idle⟩

end Undisturbed

/-- What is left undisturbed stays attended to, with the same native reads. -/
theorem Attended.undisturbed {objects' : Multiset Credit}
    (attended : Attended before objects) (kept : Undisturbed (fun _ => False) before after)
    (native : ∀ process, weigh (Credit.nativeReads process) objects' =
      weigh (Credit.nativeReads process) objects)
    (fewer : ∀ process, weigh (Credit.readsOf process) objects' ≤
      weigh (Credit.readsOf process) objects) : Attended after objects' := by
  constructor
  · intro process busy found
    rw [kept.reads id, native]
    rcases kept.busy id found with present | ⟨fresh, rfl⟩
    · exact attended.busy present
    · obtain ⟨none, nothing⟩ := attended.nothing fresh
      simp [none, nothing]
  · intro process fresh
    obtain ⟨none, nothing⟩ := attended.unissued (Nat.lt_of_le_of_lt kept.later fresh)
    exact ⟨(kept.reads id).trans none, Nat.le_zero.mp (nothing ▸ fewer process)⟩

/-! ### Effects -/

/-- The busy flag after an update that leaves it alone. -/
theorem Alteration.busy_apply (alteration : Alteration) (slot : ResourceSlot)
    (plain : ∀ busy, alteration ≠ .outputBusy busy) :
    (alteration.apply slot).value.busy? = slot.value.busy? := by
  cases alteration with
  | activate => rfl
  | outputBusy busy => exact absurd rfl (plain busy)
  | _ =>
    simp only [Alteration.apply, ResourceSlot.consumeGrant, ResourceSlot.startSession,
      ResourceSlot.chargeOutput, ResourceSlot.absorb]
    split
    next value => simp [value, ResourceValue.busy?]
    next => rfl

variable {token : OpaqueToken}

theorem ResourceStep.busy {old new : ResourceSlot}
    (plain : ∀ busy, change ≠ .alter token (.outputBusy busy))
    (step : ResourceStep change token old new) : new.value.busy? = old.value.busy? := by
  cases step with
  | alter alteration =>
    apply alteration.busy_apply old
    rintro busy rfl
    exact plain busy rfl
  | sealing _ value | encode _ _ value | overwrite _ _ _ value | reserve value | write _ value
  | accept _ _ value | pull _ _ value | answer _ _ value => simp [value, ResourceValue.busy?]
  | _ => rfl

theorem OperationStep.isCompilerRead {old new : OperationSlot}
    (plain : change ≠ .amend token .compilerRead) (step : OperationStep change token old new) :
    new.isCompilerRead = old.isCompilerRead := by
  cases step with
  | amend amendment =>
    cases amendment with
    | compilerRead => exact absurd rfl plain
    | _ => rfl
  | shutDown =>
    unfold OperationSlot.shutDown
    split <;> rfl
  | _ => rfl

/-- A busy flag after an effect elsewhere was there before, or is that of a new process. -/
theorem Effect.busy_before (effect : Effect hub change before after)
    {busy : Bool} (plain : ∀ busy, change ≠ .alter process (.outputBusy busy))
    (found : after.busy? process = some busy) :
    before.busy? process = some busy ∨ process = before.nextOpaqueToken + 1 ∧
      ∃ resource, change = .create process resource ∧ resource.value.busy? = some busy := by
  obtain ⟨new, newFound, value⟩ := Option.bind_eq_some_iff.mp found
  rcases effect.resource_before newFound with ⟨created, fresh, _⟩ | ⟨old, oldFound, step⟩
  · exact .inr ⟨fresh, new, created, value⟩
  · refine .inl (Option.bind_eq_some_iff.mpr ⟨old, oldFound, ?_⟩)
    rw [← step.busy plain]
    exact value

/-- An operation stays off the wire unless it is put there. -/
theorem State.Unread.effect (unread : before.Unread token)
    (effect : Effect hub change before after) (plain : change ≠ .amend token .compilerRead) :
    after.Unread token := by
  intro operation found
  rcases effect.operation_before found with ⟨rfl, _⟩ | ⟨old, oldFound, step⟩
  · cases effect
    rfl
  · rw [step.isCompilerRead plain]
    exact unread old oldFound

/-- An effect elsewhere leaves the wire read under a token alone. -/
theorem Effect.wire_eq (drawn : Drawn before) (effect : Effect hub change before after)
    (plain : change ≠ .amend token .compilerRead)
    (kept : change = .remove token → before.Unread token) :
    after.wire? token = before.wire? token := by
  have place := effect.operationAt token
  have fresh : ∀ {operation}, change = .submit token operation →
      before.operations.get? token = none ∧ operation.isCompilerRead = false := by
    rintro operation rfl
    cases effect
    exact ⟨drawn.operation_absent (Nat.lt_succ_self _), rfl⟩
  by_cases removes : change = .remove token
  · rw [(kept removes).wire]
    subst removes
    cases effect with
    | remove => simp [State.wire?]
  · unfold State.wire?
    generalize before.operations.get? token = stored at place fresh ⊢
    generalize after.operations.get? token = reached at place ⊢
    cases place with
    | absent => rfl
    | submit =>
      obtain ⟨rfl, unread⟩ := fresh rfl
      simp [unread]
    | stay step => simp [step.isCompilerRead plain, step.kept.resource]
    | remove => exact absurd rfl removes

/-- The purpose a marking amendment belongs to. -/
def Amendment.purpose? : Amendment → Option Purpose
  | .writes => some .write
  | .pulls _ => some .read
  | .compilerRead => some .outputRead
  | .compilerSpawn _ => some .spawn
  | .wait => some .wait
  | .closeProcess => some .closeProcess
  | .hashes | .hashCreate _ => some .hash
  | _ => none

/-- Effects that give the operation under a token the mark of a purpose. -/
def Change.marks (token : OpaqueToken) (purpose : Purpose) : Change → Prop
  | .amend named amendment => named = token ∧ amendment.purpose? = some purpose
  | .stage named _ _ => named = token ∧ purpose = .write
  | _ => False

/-- An operation without the mark of a blob transfer, a spawn, a wait, a close or a hash. -/
structure OperationSlot.Unmarked (slot : OperationSlot) : Prop where
  writes : slot.isBlobWrite = false
  pulls : slot.isBlobRead = false
  spawns : slot.isCompilerSpawn = false
  scalar : slot.compilerScalar = none
  hashes : slot.isHashOperation = false

theorem OperationStep.unmarked {old new : OperationSlot}
    (step : OperationStep change token old new) (unmarked : old.Unmarked)
    (plain : ∀ purpose, change.marks token purpose → purpose = .outputRead) : new.Unmarked := by
  obtain ⟨writes, pulls, spawns, scalar, hashes⟩ := unmarked
  cases step with
  | amend amendment =>
    cases amendment <;>
      first | exact ⟨writes, pulls, spawns, scalar, hashes⟩ | cases plain _ ⟨rfl, rfl⟩
  | stage => cases plain _ ⟨rfl, rfl⟩
  | shutDown =>
    unfold OperationSlot.shutDown
    split <;> exact ⟨writes, pulls, spawns, scalar, hashes⟩
  | _ => exact ⟨writes, pulls, spawns, scalar, hashes⟩

/-- Wire reads carry no other mark. -/
def State.Marked (state : State) : Prop :=
  ∀ {token operation}, state.operations.get? token = some operation →
    operation.isCompilerRead = true → operation.Unmarked

/-- Effects that move no busy flag and no wire read of the state they start from. -/
def Change.calm (start : State) : Change → Prop
  | .amend _ amendment => amendment ≠ .compilerRead
  | .alter _ alteration => ∀ busy, alteration ≠ .outputBusy busy
  | .remove token => start.Unread token
  | _ => True

/-- A chain of calm effects disturbs no process, if the processes it creates are idle. -/
theorem Effects.undisturbed {start : State} (drawn : Drawn start)
    (effects : Effects hub permitted start after)
    (calm : ∀ change, permitted change → change.calm start)
    (idle : ∀ {process}, start.nextOpaqueToken < process → after.busy? process ≠ some true) :
    Undisturbed (fun _ => False) start after := by
  have carried := effects.preserves
    (fun middle => Drawn middle ∧ start.nextOpaqueToken ≤ middle.nextOpaqueToken ∧
      (∀ token, start.Unread token → middle.Unread token) ∧
      (∀ token, middle.wire? token = start.wire? token) ∧
      ∀ {process busy}, middle.busy? process = some busy →
        start.busy? process = some busy ∨ start.nextOpaqueToken < process) ?_
    ⟨drawn, Nat.le_refl _, fun _ unread => unread, fun _ => rfl, fun found => .inl found⟩
  · obtain ⟨_, later, _, wire, busy⟩ := carried
    refine ⟨later, ?_, ?_⟩
    · intro process flag _ found
      rcases busy found with present | fresh
      · exact .inl present
      refine .inr ⟨fresh, ?_⟩
      cases flag with
      | false => rfl
      | true => exact absurd found (idle fresh)
    · intro process _
      ext token
      rw [State.mem_wireReads, State.mem_wireReads, wire]
  · rintro change before after name effect ⟨drawn, later, unread, wire, busy⟩
    have quiet := calm change name
    have plain : ∀ token, change ≠ .amend token .compilerRead := by
      rintro token rfl
      exact quiet rfl
    refine ⟨drawn.effect effect, later.trans effect.nextOpaqueToken_le,
      fun token clear => (unread token clear).effect effect (plain token), fun token => ?_, ?_⟩
    · rw [effect.wire_eq drawn (plain token), wire]
      rintro rfl
      exact unread token quiet
    intro process flag found
    have elsewhere : ∀ busy, change ≠ .alter process (.outputBusy busy) := by
      rintro other rfl
      exact quiet other rfl
    rcases effect.busy_before elsewhere found with present | ⟨fresh, _⟩
    · exact busy present
    · refine .inr ?_
      rw [fresh]
      exact Nat.lt_succ_of_le later

/-- A chain that creates nothing busy and sets no busy flag raises none. -/
theorem Effects.busy_before (effects : Effects hub permitted before after)
    (idle : ∀ {token resource}, permitted (.create token resource) →
      resource.value.busy? ≠ some true)
    (plain : ∀ token busy, ¬ permitted (.alter token (.outputBusy busy)))
    (found : after.busy? process = some true) : before.busy? process = some true := by
  refine effects.relates
    (fun first second => second.busy? process = some true → first.busy? process = some true)
    (fun _ => id) (fun earlier later => earlier ∘ later) ?_ found
  intro change first second name effect found
  have elsewhere : ∀ busy, change ≠ .alter process (.outputBusy busy) := by
    rintro busy rfl
    exact plain _ _ name
  rcases effect.busy_before elsewhere found with present | ⟨_, resource, rfl, raised⟩
  · exact present
  · exact absurd raised (idle name)

/-! ### Sections -/

/-- Sections that begin, collect or give up an output read. -/
def Section.outputs : Section → Bool
  | .beginOutput _ _ | .submitOutput _ _ | .collectOutput _ _ _ | .abandonOutput _ _
  | .dropOutput _ _ _ _ => true
  | _ => false

/-- The operation a section may take out of the table. -/
def Section.removes : Section → Option OpaqueToken
  | .attach operation _ | .takeTerminal operation _ | .stageWrite operation _ _
  | .stageRead operation _ | .acquireOutputJob operation => some operation
  | .collectRead _ token _ | .abandonTransfer _ token | .abandonSpawn _ token
  | .collectWait _ token | .abandonScalar _ token _ | .abandonHashOperation _ token => some token
  | _ => none

attribute [local simp] Change.finishing Change.revoking Change.committing Change.closingProcess
  Change.observing Change.submitting Change.spending

section Writes

variable {section' : Section} {start : State} {token : OpaqueToken}

/-- The purpose of the operations a section both submits and marks. -/
def Section.submits : Section → Option Purpose
  | .spawn _ _ => some .spawn
  | .beginOutput _ _ | .submitOutput _ _ => some .outputRead
  | .submitWait _ _ => some .wait
  | .submitClose _ _ => some .closeProcess
  | .hashCreate _ | .hashUpdate _ _ _ => some .hash
  | _ => none

/-- The operation of its own thread that a section marks. -/
def Section.stages : Section → Option OpaqueToken
  | .stageWrite operation _ _ | .stageRead operation _ => some operation
  | _ => none

theorem Section.writes_amend {amendment : Amendment}
    (writes : section'.writes start (.amend token amendment))
    (marks : amendment.purpose? = some purpose) :
    start.nextOpaqueToken < token ∧ section'.submits = some purpose ∨
      purpose ≠ .outputRead ∧ section'.stages = some token := by
  cases section' with
  | stageWrite | stageRead =>
    simp only [Section.writes, reduceCtorEq, false_or, or_false] at writes
    obtain ⟨rfl, rfl⟩ := writes
    cases marks
    exact .inr ⟨by decide, rfl⟩
  | spawn | hashCreate =>
    obtain ⟨fresh, process, _, rfl⟩ := writes
    exact .inl ⟨fresh, marks⟩
  | beginOutput | submitOutput =>
    obtain ⟨fresh, rfl | rfl⟩ := writes
    · cases marks
    · exact .inl ⟨fresh, marks⟩
  | submitWait | hashUpdate =>
    obtain ⟨fresh, rfl⟩ := writes
    exact .inl ⟨fresh, marks⟩
  | submitClose =>
    rcases writes with ⟨fresh, rfl⟩ | writes
    · exact .inl ⟨fresh, marks⟩
    · exact writes.elim
  | attach | completeAfterSuspend | suspend | armIdleTimer | bindProducer | bindEncoder =>
    simp only [Section.writes, reduceCtorEq, false_or, or_false] at writes
    obtain ⟨_, rfl⟩ := writes
    cases marks
  | finishEncoder =>
    obtain ⟨_, rfl⟩ := writes
    cases marks
  | publishWait =>
    rcases writes with ⟨exit, named⟩ | ⟨slot, terminal, _, named⟩ <;> cases named
    cases marks
  | _ =>
    first | exact writes.elim | simp [Section.writes] at writes

/-- A mark is set on an operation the section submits, or on one of its thread. -/
theorem Section.writes_marks (writes : section'.writes start change)
    (marks : change.marks token purpose) :
    start.nextOpaqueToken < token ∧ section'.submits = some purpose ∨
      purpose ≠ .outputRead ∧ section'.stages = some token := by
  cases change with
  | amend =>
    obtain ⟨rfl, marks⟩ := marks
    exact writes_amend writes marks
  | stage =>
    obtain ⟨rfl, rfl⟩ := marks
    rw [writes_stage writes]
    exact .inr ⟨by decide, rfl⟩
  | _ => exact marks.elim

/-- A read is put on the wire with its submission. -/
theorem Section.writes_compilerRead (writes : section'.writes start (.amend token .compilerRead)) :
    start.nextOpaqueToken < token ∧ section'.submits = some .outputRead := by
  rcases writes_marks writes ⟨rfl, rfl⟩ with fresh | ⟨named, _⟩
  · exact fresh
  · exact absurd rfl named

theorem Section.outputs_of_submits (submits : section'.submits = some .outputRead) :
    Section.outputs section' = true ∧ section'.stages = none := by
  cases section' <;> first | exact ⟨rfl, rfl⟩ | cases submits

theorem Section.outputs_of_outputBusy {busy : Bool}
    (writes : section'.writes start (.alter token (.outputBusy busy))) :
    Section.outputs section' = true := by
  cases section' with
  | beginOutput | submitOutput | collectOutput | abandonOutput | dropOutput => rfl
  | activate | publishCompiler | receive | spawn | grantCompiler | hashUpdate =>
    simp [Section.writes, Change.spawning, Change.granting, Change.absorbing] at writes
  | _ =>
    first | exact writes.elim | simp [Section.writes] at writes

/-- What a section removes is an operation it names or one of its own. -/
theorem Section.writes_remove (plain : section'.outputs = false)
    (writes : section'.writes start (.remove token)) :
    start.nextOpaqueToken < token ∨ section'.removes = some token := by
  cases section' with
  | beginOutput | submitOutput | collectOutput | abandonOutput | dropOutput => cases plain
  | spawn | hashCreate => exact .inl writes
  | attach | takeTerminal | stageWrite | stageRead | acquireOutputJob | collectRead
  | abandonTransfer | abandonSpawn | collectWait | abandonScalar | abandonHashOperation =>
    refine .inr ?_
    simp only [Section.writes, Change.remove.injEq, reduceCtorEq, or_false, false_or,
      Change.revoking, and_false, exists_false] at writes
    rw [writes]
    rfl
  | _ =>
    first | exact writes.elim | simp [Section.writes] at writes

/-- A section without output reads is calm, if it removes no wire read. -/
theorem Section.writes_calm (drawn : Drawn start) (plain : section'.outputs = false)
    (spares : ∀ token ∈ section'.removes, start.Unread token)
    (writes : section'.writes start change) : change.calm start := by
  cases change with
  | amend token amendment =>
    rintro rfl
    have outputs := (outputs_of_submits (writes_compilerRead writes).2).1
    rw [plain] at outputs
    cases outputs
  | alter token alteration =>
    rintro busy rfl
    have outputs := outputs_of_outputBusy writes
    rw [plain] at outputs
    cases outputs
  | remove token =>
    rcases writes_remove plain writes with fresh | named
    · intro operation found
      rw [drawn.operation_absent fresh] at found
      cases found
    · exact spares token named
  | _ => trivial

end Writes

/-- Busy flags are read off the resource table alone. -/
theorem State.busy?_of_resources {first second : State}
    (same : first.resources = second.resources) : first.busy? process = second.busy? process := by
  simp [State.busy?, same]

/-- A section that creates something. -/
def Section.creates : Section → Bool
  | .create _ _ _ _ _ _ | .grantCompiler _ _ _ _ | .spawn _ _ | .hashCreate _ => true
  | _ => false

theorem Section.creates_of_writes {section' : Section} {start : State}
    {resource : ResourceSlot} (writes : section'.writes start (.create token resource)) :
    Section.creates section' = true := by
  cases section' with
  | create | grantCompiler | spawn | hashCreate => rfl
  | _ =>
    first | exact writes.elim | simp [Section.writes] at writes

/-- What a section must know about the values it is given: a created process is
idle, and the operations it may remove for its own thread are off the wire. -/
def Section.native (state : State) : Section → Prop
  | .create _ _ _ _ fresh _ => fresh.value.busy? ≠ some true
  | .attach operation _ | .stageWrite operation _ _ | .stageRead operation _
  | .acquireOutputJob operation => state.Native operation
  | .dropOutput operation _ wire completed =>
    if wire then completed = false else state.Native operation
  | _ => True

section Plain

variable {section' : Section} {state : State}

/-- Processes that a section creates are idle. -/
theorem Section.run_idle (drawn : Drawn state) (plain : section'.outputs = false)
    (native : section'.native state) {process : OpaqueToken}
    (fresh : state.nextOpaqueToken < process) :
    (section'.run hub state).1.busy? process ≠ some true := by
  intro found
  obtain ⟨value, idle, effects⟩ : ∃ value : ResourceValue, value.busy? ≠ some true ∧
      Effects hub (fun change => section'.writes state change ∧ change.making value) state
        (section'.run hub state).1 := by
    by_cases creates : section'.creates = true
    · cases section' with
      | create => exact ⟨_, native, createResourceValueLocked_effects _ _ _ _ _ _⟩
      | grantCompiler =>
        exact ⟨_, by simp [ResourceValue.busy?], grantCompilerWithCache_effects _ _ _ _⟩
      | spawn => exact ⟨_, by simp [ResourceValue.busy?], submitCompilerSpawn_effects _ _⟩
      | hashCreate => exact ⟨_, by simp [ResourceValue.busy?], submitHashCreate_effects _⟩
      | _ => cases creates
    · refine ⟨.externalWebview, by simp [ResourceValue.busy?],
        (run_effects section' state).weaken fun change writes => ⟨writes, ?_⟩⟩
      cases change with
      | create => exact absurd (creates_of_writes writes) creates
      | _ => trivial
  have before := effects.busy_before (fun made => made.2 ▸ idle) ?_ found
  · simp [State.busy?, drawn.resource_absent fresh] at before
  · rintro token busy ⟨writes, _⟩
    have outputs := outputs_of_outputBusy writes
    rw [plain] at outputs
    cases outputs

/-- A wire read is out of reach of the calls that collect other operations. -/
theorem Section.run_of_wire {token : OpaqueToken} {operation : OperationSlot}
    (plain : section'.outputs = false) (native : section'.native state) (marked : state.Marked)
    (removes : section'.removes = some token)
    (found : state.operations.get? token = some operation)
    (reads : operation.isCompilerRead = true) :
    (section'.run hub state).1 = state := by
  obtain ⟨unwritten, unpulled, unspawned, unscaled, unhashed⟩ := marked found reads
  have onWire : ¬ state.Unread token := by
    intro unread
    rw [unread operation found] at reads
    cases reads
  cases section' with
  | attach | stageWrite | stageRead | acquireOutputJob =>
    cases removes
    exact absurd (State.Native.unread native) onWire
  | takeTerminal =>
    cases removes
    have revocable : operation.revocable = true := by simp [OperationSlot.revocable, reads]
    simp only [run, Hub.takeTerminal, found]
    split_ifs <;> rfl
  | collectRead | abandonTransfer | abandonSpawn | collectWait | abandonScalar
  | abandonHashOperation =>
    cases removes
    simp only [run, collectBlobRead, Hub.abandonTransfer, abandonCompilerSpawn,
      collectCompilerWait, abandonCompilerScalar, Hub.abandonHashOperation, found]
    split_ifs <;> first | rfl | simp_all
  | _ => cases removes

/-- Sections without output reads disturb no process. -/
theorem Section.undisturbed (drawn : Drawn state) (marked : state.Marked)
    (plain : section'.outputs = false) (native : section'.native state) :
    Undisturbed (fun _ => False) state (section'.run hub state).1 := by
  by_cases spares : ∀ token ∈ section'.removes, state.Unread token
  · refine Effects.undisturbed drawn (run_effects section' state) ?_
      (run_idle drawn plain native)
    exact fun change writes => writes_calm drawn plain spares writes
  simp only [State.Unread, not_forall, Bool.not_eq_false] at spares
  obtain ⟨token, removes, operation, found, reads⟩ := spares
  rw [run_of_wire plain native marked removes found reads]
  exact .refl state

/-- What a section submits in the course of a run: bare operations if they are reads, no reads if
they are others. -/
def Section.Submitted (section' : Section) (start state : State) : Prop :=
  ∀ {token operation}, start.nextOpaqueToken < token →
    state.operations.get? token = some operation →
    (section'.submits = some .outputRead → operation.Unmarked) ∧
      (section'.submits ≠ some .outputRead → operation.isCompilerRead = false)

/-- One effect of a section keeps wire reads free of other marks. -/
theorem State.Marked.effect {start : State} (writes : section'.writes start change)
    (effect : Effect hub change before after) (marked : before.Marked)
    (submitted : section'.Submitted start before)
    (staged : ∀ token ∈ section'.stages, before.Unread token) :
    after.Marked ∧ section'.Submitted start after ∧
      ∀ token ∈ section'.stages, after.Unread token := by
  have unwritten : ∀ {token}, change = .amend token .compilerRead →
      start.nextOpaqueToken < token ∧ section'.submits = some .outputRead := by
    rintro token rfl
    exact writes_compilerRead writes
  refine ⟨?_, ?_, ?_⟩
  · intro token new found reads
    rcases effect.operation_before found with ⟨rfl, _⟩ | ⟨old, oldFound, step⟩
    · cases effect
      cases reads
    by_cases named : change = .amend token .compilerRead
    · obtain ⟨fresh, submits⟩ := unwritten named
      apply step.unmarked ((submitted fresh oldFound).1 submits)
      subst named
      rintro purpose ⟨_, ⟨⟩⟩
      rfl
    · rw [step.isCompilerRead named] at reads
      refine step.unmarked (marked oldFound reads) fun purpose marks => ?_
      by_contra other
      rcases writes_marks writes marks with ⟨fresh, submits⟩ | ⟨_, stages⟩
      · have unread := (submitted fresh oldFound).2
          (by rw [submits]; exact mt Option.some.inj other)
        rw [unread] at reads
        cases reads
      · rw [staged token stages old oldFound] at reads
        cases reads
  · intro token new fresh found
    rcases effect.operation_before found with ⟨rfl, _⟩ | ⟨old, oldFound, step⟩
    · cases effect
      exact ⟨fun _ => ⟨rfl, rfl, rfl, rfl, rfl⟩, fun _ => rfl⟩
    refine ⟨fun submits => ?_, fun others => ?_⟩
    · refine step.unmarked ((submitted fresh oldFound).1 submits) fun purpose marks => ?_
      rcases writes_marks writes marks with ⟨_, same⟩ | ⟨_, stages⟩
      · exact Option.some.inj (same.symm.trans submits)
      · cases stages.symm.trans (outputs_of_submits submits).2
    · rw [step.isCompilerRead fun named => others (unwritten named).2]
      exact (submitted fresh oldFound).2 others
  · intro token stages
    refine (staged token stages).effect effect fun named => ?_
    cases (Option.mem_def.mp stages).symm.trans (outputs_of_submits (unwritten named).2).2

/-- Sections keep wire reads free of other marks. -/
theorem State.Marked.section (drawn : Drawn state) (marked : state.Marked)
    (native : section'.native state) : (section'.run hub state).1.Marked := by
  have effects : Effects hub (section'.writes state) state (section'.run hub state).1 :=
    run_effects section' state
  have staged : ∀ token ∈ section'.stages, state.Unread token := by
    intro token stages
    cases section' with
    | stageWrite | stageRead =>
      cases stages
      exact State.Native.unread native
    | _ => cases stages
  have carried := effects.preserves
    (fun middle => middle.Marked ∧ section'.Submitted state middle ∧
      ∀ token ∈ section'.stages, middle.Unread token)
    (fun writes effect kept => State.Marked.effect writes effect (fun found => kept.1 found)
      (fun fresh => kept.2.1 fresh) kept.2.2) ⟨marked, ?_, staged⟩
  · intro token operation found
    exact carried.1 found
  · intro token operation fresh found
    rw [drawn.operation_absent fresh] at found
    cases found

end Plain

end KernalApi.Hub
