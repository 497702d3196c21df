import KernalApi.Hub.Invariant

/-!
# What one effect does to one slot

`ResourceAt` and `OperationAt` say what an effect makes of the slot under one
token: nothing, a new slot, a changed slot, or an empty place. Identity and
owner of a slot never change, and tokens in the tables were drawn from the
counter.
-/

namespace KernalApi.Hub

open KernalApi.Std Semantics State SortedMap

variable {state : State} {hub : OperationHub} {change : Change} {before after : State}

/-! ### Resources -/

/-- What an effect makes of a resource that stays in the table. -/
inductive ResourceStep : Change → OpaqueToken → ResourceSlot → ResourceSlot → Prop where
  | same {change : Change} {token : OpaqueToken} (slot : ResourceSlot) :
      ResourceStep change token slot slot
  | alter {token : OpaqueToken} (alteration : Alteration) (slot : ResourceSlot) :
      ResourceStep (.alter token alteration) token slot (alteration.apply slot)
  | sealing {token : OpaqueToken} {slot : ResourceSlot} {buffer : ByteBuffer}
      {closedToWriters : Bool} (usable : slot.reserved = false)
      (value : slot.value = .blob buffer closedToWriters) :
      ResourceStep (.sealing token) token slot { slot with value := .blob buffer true }
  | encode {token : OpaqueToken} {slot : ResourceSlot} {buffer : ByteBuffer}
      {closedToWriters : Bool} (reserved : Bool) (hidden : slot.reserved = true)
      (value : slot.value = .blob buffer closedToWriters) :
      ResourceStep (.encode token reserved) token slot
        { slot with
          value := .blob buffer true
          identity := { slot.identity with rights := blobRightRead }
          reserved }
  | overwrite {token : OpaqueToken} {slot : ResourceSlot} {buffer : ByteBuffer} (position : Nat)
      (bytes : Bytes) (hidden : slot.reserved = true) (value : slot.value = .blob buffer false) :
      ResourceStep (.overwrite token) token slot
        { slot with value := .blob (buffer.overwrite position bytes) false }
  | claim {token : OpaqueToken} {slot : ResourceSlot} {buffer : ByteBuffer}
      (usable : slot.reserved = false) (unclaimed : slot.committing = false)
      (value : slot.value = .blob buffer true) :
      ResourceStep (.claim token) token slot { slot with committing := true }
  | reserve {token : OpaqueToken} {slot : ResourceSlot} {buffer grown : ByteBuffer}
      {closedToWriters : Bool} (value : slot.value = .blob buffer closedToWriters)
      (bytes : grown.bytes = buffer.bytes) :
      ResourceStep (.reserve token) token slot { slot with value := .blob grown closedToWriters }
  | write {token : OpaqueToken} {slot : ResourceSlot} {buffer : ByteBuffer} (bytes : Bytes)
      (value : slot.value = .blob buffer false) :
      ResourceStep (.write token bytes) token slot
        { slot with value := .blob (buffer.extend bytes) false }
  /-- The accepted operation may be the one that created the blob. -/
  | accept {operation token : OpaqueToken} {slot : ResourceSlot} {buffer : ByteBuffer}
      (bytes : Bytes) (reserved : Bool) (value : slot.value = .blob buffer false)
      (less : reserved = slot.reserved ∨ reserved = false) :
      ResourceStep (.accept operation) token slot
        { slot with value := .blob (buffer.extend bytes) false, reserved }
  | pull {token : OpaqueToken} {slot : ResourceSlot} {buffer : ByteBuffer}
      {closedToWriters : Bool} (count : Nat) (usable : slot.reserved = false)
      (value : slot.value = .blob buffer closedToWriters) :
      ResourceStep (.pull token slot.committing) token slot
        { slot with value := .blob (buffer.drain count) closedToWriters }
  | answer {operation token : OpaqueToken} {slot : ResourceSlot} {buffer : ByteBuffer}
      {closedToWriters : Bool} (count : Nat) (reserved : Bool)
      (value : slot.value = .blob buffer closedToWriters)
      (less : reserved = slot.reserved ∨ reserved = false) :
      ResourceStep (.answer operation) token slot
        { slot with value := .blob (buffer.drain count) closedToWriters, reserved }
  /-- The resource a completed operation created becomes usable. -/
  | settle {operation token : OpaqueToken} {slot : ResourceSlot} {ended : OperationSlot}
      {result : TerminalResult} (created : ended.createdResource = some token)
      (completed : result.terminal = .completed) :
      ResourceStep (.settle operation ended result) token slot { slot with reserved := false }
  | acceptOther {operation token : OpaqueToken} (slot : ResourceSlot) :
      ResourceStep (.accept operation) token slot { slot with reserved := false }
  | answerOther {operation token : OpaqueToken} (slot : ResourceSlot) :
      ResourceStep (.answer operation) token slot { slot with reserved := false }

/-- Whether an effect takes a resource out of the table. -/
def Change.drops (token : OpaqueToken) : Change → Prop
  | .revoke revoked => revoked = token
  | .discard discarded => discarded = token
  | .settle _ ended result => ended.createdResource = some token ∧ result.terminal ≠ .completed
  | .shutDown _ => True
  | _ => False

/-- What an effect makes of the place of one resource. -/
inductive ResourceAt : Change → OpaqueToken → Option ResourceSlot → Option ResourceSlot → Prop where
  | absent {change : Change} {token : OpaqueToken} : ResourceAt change token none none
  | create {token : OpaqueToken} (old : Option ResourceSlot) (resource : ResourceSlot) :
      ResourceAt (.create token resource) token old (some resource)
  | stay {change : Change} {token : OpaqueToken} {old new : ResourceSlot}
      (step : ResourceStep change token old new) : ResourceAt change token (some old) (some new)
  | drop {change : Change} {token : OpaqueToken} (old : ResourceSlot) (drops : change.drops token) :
      ResourceAt change token (some old) none

namespace ResourceAt

variable {map : SortedMap OpaqueToken ResourceSlot} {key token : OpaqueToken}

theorem same (place : Option ResourceSlot) : ResourceAt change token place place := by
  cases place with
  | none => exact .absent
  | some slot => exact .stay (.same slot)

variable {update : ResourceSlot → ResourceSlot}

theorem modify (step : ∀ slot, map.get? key = some slot →
    ResourceStep change key slot (update slot)) :
    ResourceAt change token (map.get? token) ((map.modify key update).get? token) :=
  modify_relates same fun slot found => .stay (step slot found)

theorem modify_found {slot : ResourceSlot}
    (found : map.get? key = some slot) (step : ResourceStep change key slot (update slot)) :
    ResourceAt change token (map.get? token) ((map.modify key update).get? token) := by
  refine modify fun other present => ?_
  cases found.symm.trans present
  exact step

theorem erase (drops : change.drops key) :
    ResourceAt change token (map.get? token) ((map.erase key).get? token) := by
  rw [get?_erase]
  by_cases here : token = key
  · subst here
    rw [if_pos rfl]
    cases map.get? token with
    | none => exact .absent
    | some slot => exact .drop slot drops
  · rw [if_neg here]
    exact same _

/-- Settling an operation touches only the resource it created. -/
theorem settleOperation (state : State) (operation : OpaqueToken) (ended : OperationSlot)
    (result : TerminalResult) :
    ResourceAt (.settle operation ended result) token (state.resources.get? token)
      ((state.settleOperation operation ended result).resources.get? token) := by
  rcases settleOperation_resource_cases state operation ended result with
    ⟨_, equal⟩ | ⟨created, creates, completed, equal⟩ | ⟨created, creates, failed, equal⟩
  · rw [equal]
    exact same _
  · rw [equal]
    exact modify fun slot _ => .settle creates completed
  · rw [equal, dropResource_resources]
    exact erase ⟨creates, failed⟩

/-- A completed operation leaves every resource in the table, and may have made
one of them usable. -/
theorem completeOperation (state : State) (operation : OpaqueToken) (ended : OperationSlot)
    (resource : Option OpaqueToken) {slot : ResourceSlot}
    (found : state.resources.get? token = some slot) :
    ∃ reserved, (reserved = slot.reserved ∨ reserved = false) ∧
      (state.settleOperation operation ended ⟨.completed, resource⟩).resources.get? token =
        some { slot with reserved } := by
  have place : ResourceAt (.settle operation ended ⟨.completed, resource⟩) token
      (state.resources.get? token) _ :=
    settleOperation state operation ended ⟨.completed, resource⟩
  rw [found] at place
  generalize (state.settleOperation operation ended ⟨.completed, resource⟩).resources.get? token =
    reached at place
  cases place with
  | stay step =>
    cases step with
    | same => exact ⟨slot.reserved, .inl rfl, rfl⟩
    | settle => exact ⟨false, .inr rfl, rfl⟩
  | drop _ drops => exact absurd rfl drops.2

/-- An effect that changes one blob and then completes an operation. -/
theorem completing {blob operation : OpaqueToken} {ended : OperationSlot}
    {resource : Option OpaqueToken} (resources : state.resources = map.modify blob update)
    (here : ∀ slot reserved, map.get? blob = some slot →
      (reserved = (update slot).reserved ∨ reserved = false) →
      ResourceStep change blob slot { update slot with reserved })
    (there : ∀ slot, ResourceStep change token slot { slot with reserved := false }) :
    ResourceAt change token (map.get? token)
      ((state.settleOperation operation ended ⟨.completed, resource⟩).resources.get? token) := by
  have lookup : state.resources.get? token =
      if token = blob then (map.get? token).map update else map.get? token := by
    rw [resources, get?_modify]
  cases stored : map.get? token with
  | none =>
    have place : ResourceAt (.settle operation ended ⟨.completed, resource⟩) token
        (state.resources.get? token) _ :=
      settleOperation state operation ended ⟨.completed, resource⟩
    have absent : state.resources.get? token = none := by simp [lookup, stored]
    rw [absent] at place
    generalize (state.settleOperation operation ended ⟨.completed, resource⟩).resources.get? token =
      reached at place ⊢
    cases place
    exact .absent
  | some slot =>
    by_cases same : token = blob
    · subst same
      have found : state.resources.get? token = some (update slot) := by simp [lookup, stored]
      obtain ⟨reserved, less, reached⟩ := completeOperation state operation ended resource found
      rw [reached]
      exact .stay (here slot reserved stored less)
    · have found : state.resources.get? token = some slot := by simp [lookup, stored, same]
      obtain ⟨reserved, less, reached⟩ := completeOperation state operation ended resource found
      rw [reached]
      rcases less with rfl | rfl
      · exact .stay (.same slot)
      · exact .stay (there slot)

end ResourceAt

/-- What each effect makes of the place of one resource. -/
theorem Effect.resourceAt (effect : Effect hub change before after) (token : OpaqueToken) :
    ResourceAt change token (before.resources.get? token) (after.resources.get? token) := by
  cases effect with
  | tally same =>
    rw [(core_frame same).1]
    exact .same _
  | takeSlot taken =>
    rw [(takeSlot_frame taken).1]
    exact .same _
  | create resource opened room taken =>
    simp only [record, (takeSlot_frame taken).1, get?_insert]
    split
    next here =>
      subst here
      exact .create _ resource
    next => exact .same _
  | alter altered alteration => exact .modify fun slot _ => .alter alteration slot
  | sealing found usable =>
    refine .modify_found found ?_
    split
    next value => exact .sealing usable value
    next => exact .same _
  | encode reserved found hidden value => exact .modify_found found (.encode reserved hidden value)
  | overwrite position bytes found hidden value =>
    refine .modify_found found ?_
    rw [ResourceSlot.withBuffer_blob value]
    exact .overwrite position bytes hidden value
  | claim found usable unclaimed value => exact .modify_found found (.claim usable unclaimed value)
  | reserve additional found value within bytes =>
    refine .modify_found found ?_
    rw [ResourceSlot.withBuffer_blob value]
    exact .reserve value bytes
  | write bytes found value =>
    rw [acceptBytes_resources found value]
    exact .modify_found found (.write bytes value)
  | accept waiting pending borrows input found value room blobLimit sketchLimit =>
    rename_i accepted blob operation resource buffer data
    have stillFound : (before.modifyOperation accepted fun slot =>
        { slot with pendingBlobWrite := none }).resources.get? blob = some resource := found
    refine ResourceAt.completing (acceptBytes_resources stillFound value _ _) ?_ .acceptOther
    intro slot reserved present less
    cases found.symm.trans present
    exact .accept data.bytes reserved value less
  | pull count capacity found usable value =>
    simp only [drainBlob_resources found value]
    exact .modify_found found (.pull count usable value)
  | answer waiting pending borrows request found value readable bytes within exact =>
    rename_i answered blob operation resource buffer chunk closedToWriters maximum
    refine ResourceAt.completing
      (drainBlob_resources found value (.operation answered) _) ?_ .answerOther
    intro slot reserved present less
    cases found.symm.trans present
    exact .answer _ reserved value less
  | settle => exact .settleOperation _ _ _ _
  | remove =>
    rw [(removeOperation_frame _ _).1]
    exact .same _
  | revoke =>
    simp only [tombstone, dropResource_resources]
    exact .erase rfl
  | discard =>
    simp only [dropResource_resources]
    exact .erase rfl
  | shutDown terminal =>
    cases before.resources.get? token with
    | none => exact .absent
    | some slot => exact .drop slot trivial
  | _ => exact .same _

/-! ### Operations -/

/-- What an effect makes of an operation that stays in the table. -/
inductive OperationStep : Change → OpaqueToken → OperationSlot → OperationSlot → Prop where
  | same {change : Change} {token : OpaqueToken} (slot : OperationSlot) :
      OperationStep change token slot slot
  | amend {token : OpaqueToken} {slot : OperationSlot} (amendment : Amendment)
      (pending : slot.terminal = none ∨ amendment.marks = true) :
      OperationStep (.amend token amendment) token slot (amendment.apply slot)
  | stage {token : OpaqueToken} {slot : OperationSlot} (length : Nat) (copy : ByteBuffer)
      (pending : slot.terminal = none) :
      OperationStep (.stage token length copy) token slot
        { slot with isBlobWrite := true, pendingBlobWrite := some copy }
  | accept {token blob : OpaqueToken} {slot : OperationSlot} {data : ByteBuffer}
      (pending : slot.terminal = none) (borrows : slot.resource = some blob)
      (input : slot.pendingBlobWrite = some data) :
      OperationStep (.accept token) token slot (slot.settle ⟨.completed, none⟩)
  | answer {token blob : OpaqueToken} {slot : OperationSlot} {maximum : PullBytes}
      (chunk : ByteBuffer) (pending : slot.terminal = none) (borrows : slot.resource = some blob)
      (request : slot.pendingBlobRead = some maximum) :
      OperationStep (.answer token) token slot
        ({ slot with blobReadResult := some chunk }.settle ⟨.completed, none⟩)
  | settle {token : OpaqueToken} {slot : OperationSlot} (result : TerminalResult)
      (replaceable : slot.terminal = none ∨ slot.replaceReady result = true) :
      OperationStep (.settle token slot result) token slot (slot.settle result)
  | deliver {token : OpaqueToken} {slot : OperationSlot} (event : Option ProcessOutputEvent)
      (pending : slot.terminal = none) :
      OperationStep (.deliver token) token slot { slot with compilerOutput := some event }
  | shutDown {token : OpaqueToken} (slot : OperationSlot) (terminal : Terminal)
      (revokes : terminal ≠ .completed) :
      OperationStep (.shutDown terminal) token slot (slot.shutDown ⟨terminal, none⟩)

/-- What an effect makes of the place of one operation. -/
inductive OperationAt : Change → OpaqueToken → Option OperationSlot → Option OperationSlot →
    Prop where
  | absent {change : Change} {token : OpaqueToken} : OperationAt change token none none
  | submit {token : OpaqueToken} (old : Option OperationSlot) (operation : OperationSlot) :
      OperationAt (.submit token operation) token old (some operation)
  | stay {change : Change} {token : OpaqueToken} {old new : OperationSlot}
      (step : OperationStep change token old new) : OperationAt change token (some old) (some new)
  | remove {token : OpaqueToken} (old : OperationSlot) :
      OperationAt (.remove token) token (some old) none

namespace OperationAt

variable {map : SortedMap OpaqueToken OperationSlot} {key token : OpaqueToken}

theorem same (place : Option OperationSlot) : OperationAt change token place place := by
  cases place with
  | none => exact .absent
  | some slot => exact .stay (.same slot)

theorem modify {slot : OperationSlot} {update : OperationSlot → OperationSlot}
    (found : map.get? key = some slot) (step : OperationStep change key slot (update slot)) :
    OperationAt change token (map.get? token) ((map.modify key update).get? token) := by
  refine modify_relates same fun other present => ?_
  cases found.symm.trans present
  exact .stay step

/-- Two updates of the same operation. -/
theorem modify_modify {slot : OperationSlot} {first second : OperationSlot → OperationSlot}
    (found : map.get? key = some slot)
    (step : OperationStep change key slot (second (first slot))) :
    OperationAt change token (map.get? token)
      (((map.modify key first).modify key second).get? token) := by
  have fused : (map.modify key first).modify key second =
      map.modify key fun slot => second (first slot) := by
    apply ext
    intro other
    by_cases here : other = key
    · simp [here, Function.comp_def]
    · simp [here]
  rw [fused]
  exact modify found step

end OperationAt

/-- What each effect makes of the place of one operation. -/
theorem Effect.operationAt (effect : Effect hub change before after) (token : OpaqueToken) :
    OperationAt change token (before.operations.get? token) (after.operations.get? token) := by
  cases effect with
  | tally same =>
    rw [(core_frame same).2.1]
    exact .same _
  | takeSlot taken =>
    rw [(takeSlot_frame taken).2.1]
    exact .same _
  | create resource opened room taken =>
    simp only [(takeSlot_frame taken).2.1]
    exact .same _
  | submit =>
    simp only [record, get?_insert]
    split
    next here =>
      subst here
      exact .submit _ _
    next => exact .same _
  | amend amendment found pending => exact .modify found (.amend amendment pending)
  | stage length copy found pending within => exact .modify found (.stage length copy pending)
  | accept waiting pending borrows input found value room blobLimit sketchLimit =>
    simp only [settleOperation_operations, acceptBytes_operations,
      modifyOperation_operations]
    exact .modify_modify waiting (.accept pending borrows input)
  | answer waiting pending borrows request found value readable bytes within exact =>
    simp only [settleOperation_operations, modifyOperation_operations,
      drainBlob_operations]
    exact .modify_modify waiting (.answer _ pending borrows request)
  | settle result found replaceable =>
    simp only [settleOperation_operations]
    exact .modify found (.settle result replaceable)
  | remove found =>
    rename_i removed operation
    simp only [removeOperation_operations, get?_erase]
    split
    next here =>
      subst here
      rw [found]
      exact .remove operation
    next => exact .same _
  | revoke =>
    simp only [tombstone, dropResource_frame]
    exact .same _
  | discard =>
    simp only [dropResource_frame]
    exact .same _
  | deliver event found pending reserved => exact .modify found (.deliver event pending)
  | shutDown terminal revokes =>
    simp only [closeLocked, get?_mapValues]
    cases before.operations.get? token with
    | none => exact .absent
    | some slot => exact .stay (.shutDown slot terminal revokes)
  | _ => exact .same _

/-! ### What never changes -/

/-- The fields of a resource that nothing changes after its creation. -/
structure ResourceSlot.Same (old new : ResourceSlot) : Prop where
  scope : new.identity.scope = old.identity.scope
  slot : new.identity.slot = old.identity.slot
  generation : new.identity.generation = old.identity.generation
  kind : new.identity.kind = old.identity.kind
  owner : new.owner = old.owner
  shareable : new.shareable = old.shareable
  origin : new.origin = old.origin

theorem ResourceSlot.Same.refl (slot : ResourceSlot) : slot.Same slot :=
  ⟨rfl, rfl, rfl, rfl, rfl, rfl, rfl⟩

theorem ResourceSlot.Same.trans {first second third : ResourceSlot} (earlier : first.Same second)
    (later : second.Same third) : first.Same third :=
  ⟨later.scope.trans earlier.scope, later.slot.trans earlier.slot,
    later.generation.trans earlier.generation, later.kind.trans earlier.kind,
    later.owner.trans earlier.owner, later.shareable.trans earlier.shareable,
    later.origin.trans earlier.origin⟩

theorem ResourceSlot.Same.modify {map : SortedMap OpaqueToken ResourceSlot}
    {key token : OpaqueToken} {update : ResourceSlot → ResourceSlot} {new : ResourceSlot}
    (found : (map.modify key update).get? token = some new)
    (updated : ∀ slot : ResourceSlot, slot.Same (update slot)) :
    ∃ old, map.get? token = some old ∧ old.Same new := by
  rcases modify_before found with ⟨rfl, old, oldFound, rfl⟩ | ⟨_, present⟩
  · exact ⟨old, oldFound, updated old⟩
  · exact ⟨new, present, refl new⟩

variable {token : OpaqueToken}

/-- The fields of an operation that nothing changes after its submission. -/
structure OperationSlot.Same (old new : OperationSlot) : Prop where
  owner : new.owner = old.owner
  resource : new.resource = old.resource
  requiredRights : new.requiredRights = old.requiredRights
  purpose : new.purpose = old.purpose

theorem OperationStep.kept {old new : OperationSlot}
    (step : OperationStep change token old new) : old.Same new := by
  cases step with
  | amend amendment => cases amendment <;> exact ⟨rfl, rfl, rfl, rfl⟩
  | shutDown =>
    unfold OperationSlot.shutDown
    split <;> exact ⟨rfl, rfl, rfl, rfl⟩
  | _ => exact ⟨rfl, rfl, rfl, rfl⟩

/-- What becomes of a resource that stays in the table: it remains what it was to its
owner, published and claimed. -/
structure ResourceSlot.Ages (old new : ResourceSlot) : Prop where
  same : old.Same new
  published : old.reserved = false → new.reserved = false
  claimed : old.committing = true → new.committing = true

theorem ResourceSlot.Ages.refl (slot : ResourceSlot) : slot.Ages slot :=
  ⟨.refl slot, id, id⟩

theorem ResourceSlot.Ages.trans {first second third : ResourceSlot} (earlier : first.Ages second)
    (later : second.Ages third) : first.Ages third where
  same := earlier.same.trans later.same
  published := later.published ∘ earlier.published
  claimed := later.claimed ∘ earlier.claimed

theorem ResourceStep.ages {old new : ResourceSlot} (step : ResourceStep change token old new) :
    old.Ages new := by
  cases step with
  | alter alteration =>
    cases alteration with
    | activate => exact ⟨by constructor <;> rfl, fun _ => rfl, id⟩
    | _ =>
      simp only [Alteration.apply, ResourceSlot.consumeGrant, ResourceSlot.startSession,
        ResourceSlot.setOutputBusy, ResourceSlot.chargeOutput, ResourceSlot.absorb]
      split
      next => exact ⟨by constructor <;> rfl, id, id⟩
      next => exact .refl old
  | _ => exact ⟨by constructor <;> rfl, by grind, by simp_all⟩

/-- A resource found after an effect is the created one or was there before. -/
theorem Effect.resource_before (effect : Effect hub change before after)
    {new : ResourceSlot} (found : after.resources.get? token = some new) :
    (change = .create token new ∧ token = before.nextOpaqueToken + 1 ∧
        after.nextOpaqueToken = token) ∨
      ∃ old, before.resources.get? token = some old ∧ ResourceStep change token old new := by
  have place := effect.resourceAt token
  rw [found] at place
  generalize equal : before.resources.get? token = stored at place
  cases place with
  | create =>
    refine .inl ⟨rfl, ?_⟩
    cases effect
    exact ⟨rfl, rfl⟩
  | stay step => exact .inr ⟨_, rfl, step⟩

/-- An operation found after an effect is the submitted one or was there before. -/
theorem Effect.operation_before (effect : Effect hub change before after)
    {new : OperationSlot} (found : after.operations.get? token = some new) :
    (change = .submit token new ∧ token = before.nextOpaqueToken + 1 ∧
        after.nextOpaqueToken = token) ∨
      ∃ old, before.operations.get? token = some old ∧ OperationStep change token old new := by
  have place := effect.operationAt token
  rw [found] at place
  generalize equal : before.operations.get? token = stored at place
  cases place with
  | submit =>
    refine .inl ⟨rfl, ?_⟩
    cases effect
    exact ⟨rfl, rfl⟩
  | stay step => exact .inr ⟨_, rfl, step⟩

/-! ### Entries over a run -/

section Descent

variable {α : Type} {table : State → SortedMap OpaqueToken α} {relation : α → α → Prop}
  {allowed : Thread → Move → State → Prop} {pool later : Pool State Thread}

/-- What stands under a token drawn before comes from what stood there. -/
structure Descends (table : State → SortedMap OpaqueToken α) (relation : α → α → Prop)
    (before after : State) : Prop where
  later : before.nextOpaqueToken ≤ after.nextOpaqueToken
  entry : ∀ {token new}, token ≤ before.nextOpaqueToken → (table after).get? token = some new →
    ∃ old, (table before).get? token = some old ∧ relation old new

/-- A token that is out of the table stays out. -/
theorem Descends.absent (descends : Descends table relation before after)
    (known : token ≤ before.nextOpaqueToken) (absent : (table before).get? token = none) :
    (table after).get? token = none := by
  refine Option.eq_none_iff_forall_ne_some.mpr fun new found => ?_
  obtain ⟨old, there, _⟩ := descends.entry known found
  cases absent.symm.trans there

theorem Effect.descends (effect : Effect hub change before after)
    (entry : ∀ {token new}, (table after).get? token = some new →
      token = before.nextOpaqueToken + 1 ∨
      ∃ old, (table before).get? token = some old ∧ relation old new) :
    Descends table relation before after := by
  refine ⟨effect.nextOpaqueToken_le, fun known found => (entry found).resolve_left ?_⟩
  rintro rfl
  exact Nat.not_succ_le_self _ known

/-- A relation that every effect respects relates the entries of a table over a run. -/
theorem Descends.of_runs (reflexive : ∀ slot, relation slot slot)
    (transitive : ∀ {first second third}, relation first second → relation second third →
      relation first third)
    (effect : ∀ {change before after}, Effect hub change before after →
      Descends table relation before after)
    (runs : (machine hub).Runs allowed pool later) :
    Descends table relation pool.shared later.shared := by
  refine runs_relate _ licensed_true
    (fun _ => ⟨Nat.le_refl _, fun _ found => ⟨_, found, reflexive _⟩⟩) ?_ (fun _ => effect) runs
  intro first second third earlier next
  refine ⟨earlier.later.trans next.later, fun known found => ?_⟩
  obtain ⟨middle, found, recent⟩ := next.entry (known.trans earlier.later) found
  obtain ⟨old, found, past⟩ := earlier.entry known found
  exact ⟨old, found, transitive past recent⟩

end Descent

/-! ### Tokens in the tables -/

/-- Every token in a table was drawn from the counter. -/
structure Drawn (state : State) : Prop where
  resources : ∀ {token resource}, state.resources.get? token = some resource →
    token ≤ state.nextOpaqueToken
  operations : ∀ {token operation}, state.operations.get? token = some operation →
    token ≤ state.nextOpaqueToken

theorem Drawn.effect (drawn : Drawn before) (effect : Effect hub change before after) :
    Drawn after := by
  have later := effect.nextOpaqueToken_le
  constructor
  · intro token resource found
    rcases effect.resource_before found with ⟨_, _, same⟩ | ⟨old, oldFound, _⟩
    · exact Nat.le_of_eq same.symm
    · exact (drawn.resources oldFound).trans later
  · intro token operation found
    rcases effect.operation_before found with ⟨_, _, same⟩ | ⟨old, oldFound, _⟩
    · exact Nat.le_of_eq same.symm
    · exact (drawn.operations oldFound).trans later

theorem Drawn.initial (drawn : Nat) : Drawn { nextOpaqueToken := drawn } :=
  ⟨fun found => by simp at found, fun found => by simp at found⟩

/-- The token a creation uses is not in the table yet. -/
theorem Drawn.resource_absent (drawn : Drawn before)
    (later : before.nextOpaqueToken < token) : before.resources.get? token = none := by
  by_contra present
  obtain ⟨resource, found⟩ := Option.ne_none_iff_exists'.mp present
  exact absurd (drawn.resources found) (Nat.not_le.mpr later)

theorem Drawn.operation_absent (drawn : Drawn before)
    (later : before.nextOpaqueToken < token) : before.operations.get? token = none := by
  by_contra present
  obtain ⟨operation, found⟩ := Option.ne_none_iff_exists'.mp present
  exact absurd (drawn.operations found) (Nat.not_le.mpr later)

/-! ### Resources that are gone -/

/-- Without a creation a missing resource stays missing. -/
theorem Effects.resource_gone {permitted : Change → Prop}
    (effects : Effects hub permitted before after)
    (uncreating : ∀ token resource, ¬ permitted (.create token resource))
    (gone : before.resources.get? token = none) : after.resources.get? token = none := by
  refine effects.preserves (fun middle => middle.resources.get? token = none) ?_ gone
  intro change before after name effect gone
  by_contra present
  obtain ⟨resource, found⟩ := Option.ne_none_iff_exists'.mp present
  rcases effect.resource_before found with ⟨rfl, _⟩ | ⟨old, oldFound, _⟩
  · exact uncreating _ _ name
  · rw [gone] at oldFound
    cases oldFound

theorem terminateAll_gone (hub : OperationHub) (result : TerminalResult) (tokens : List OpaqueToken)
    (gone : state.resources.get? token = none) :
    (terminateAll result tokens state).1.resources.get? token = none := by
  induction tokens generalizing state with
  | nil => exact gone
  | cons ended rest ih =>
    have head : Effects hub (fun change => ∃ slot, change = .settle ended slot result) state
        (terminalLocked state ended result).1 :=
      terminalLocked_effects ended result fun slot _ => ⟨slot, rfl⟩
    have still := head.resource_gone (by rintro token - ⟨_, ⟨⟩⟩) gone
    unfold terminateAll
    split
    next equal => rwa [equal] at still
    rename_i equal
    rw [equal] at still
    exact ih still

/-- A revoked resource is not in the table. -/
theorem closeIfLive_gone (hub : OperationHub) (state : State) (token : OpaqueToken)
    (terminal : Terminal) : (closeIfLive state token terminal).1.resources.get? token = none := by
  unfold closeIfLive
  split
  next gone => exact gone
  next =>
    unfold closeResourceWithTerminalLocked
    split
    next gone => split <;> exact gone
    next => exact terminateAll_gone hub _ _ (by simp)

end KernalApi.Hub
