import KernalApi.Hub.Frame

/-!
# Effects of the table functions

Everything the `_locked` functions can do, as case lemmas, and the chain of
elementary effects each of them is.
-/

namespace KernalApi.Hub

open KernalApi.Std

variable {permitted : Change → Prop} {after : State} {hub : OperationHub} {state : State}

/-! ### Ending operations and revoking resources -/

/-- Everything `terminal_locked` can do. -/
theorem terminalLocked_cases (state : State) (token : OpaqueToken) (result : TerminalResult) :
    (state.operations.get? token = none ∧
        terminalLocked state token result = (state, .error .invalid)) ∨
      (∃ operation, state.operations.get? token = some operation ∧ operation.terminal ≠ none ∧
        operation.replaceReady result = false ∧
        terminalLocked state token result = (state, .ok false)) ∨
      ∃ operation, state.operations.get? token = some operation ∧
        (operation.terminal = none ∨ operation.replaceReady result = true) ∧
        terminalLocked state token result =
          (state.settleOperation token operation result, .ok true) := by
  unfold terminalLocked
  split
  next absent => exact .inl ⟨absent, rfl⟩
  rename_i operation found
  split
  next ended =>
    refine .inr (.inl ⟨operation, found, ?_, ended.2, rfl⟩)
    exact Option.isSome_iff_ne_none.mp ended.1
  rename_i live
  refine .inr (.inr ⟨operation, found, ?_, ?_⟩)
  · by_cases pending : operation.terminal = none
    · exact .inl pending
    · refine .inr ?_
      have ended : operation.terminal.isSome = true := Option.isSome_iff_ne_none.mpr pending
      simpa [ended] using live
  · unfold State.settleOperation State.settleCreated State.activate
    cases operation.createdResource with
    | none => rfl
    | some created =>
      by_cases completed : result.terminal = .completed
      all_goals simp [completed]

/-- `terminal_locked` settles its operation or does nothing. -/
theorem terminalLocked_effects (token : OpaqueToken) (result : TerminalResult)
    (name : ∀ operation, state.operations.get? token = some operation →
      permitted (.settle token operation result)) :
    Effects hub permitted state (terminalLocked state token result).1 := by
  rcases terminalLocked_cases state token result with
    ⟨_, equal⟩ | ⟨_, _, _, _, equal⟩ | ⟨operation, found, replaceable, equal⟩
  · rw [equal]
    exact .refl
  · rw [equal]
    exact .refl
  · rw [equal]
    exact .single (name operation found) (.settle result found replaceable)

/-- An operation is settled as it was just written. -/
theorem settleWritten_effects {token : OpaqueToken} {operation : OperationSlot}
    (result : TerminalResult)
    {update : OperationSlot → OperationSlot} (found : state.operations.get? token = some operation)
    (name : permitted (.settle token (update operation) result)) :
    Effects hub permitted (state.modifyOperation token update)
      (terminalLocked (state.modifyOperation token update) token result).1 := by
  refine terminalLocked_effects token result fun settled present => ?_
  simp only [State.modifyOperation_operations, SortedMap.get?_modify, if_true, found,
    Option.map_some, Option.some.injEq] at present
  exact present ▸ name

/-- The names of the effects of revoking a resource. -/
def Change.revoking (resource : OpaqueToken) (terminal : Terminal) : Change → Prop
  | .revoke token => token = resource
  | .settle _ operation result =>
    result = ⟨terminal, none⟩ ∧ operation.resource = some resource
  | _ => False

/-- Publishing one result on each listed operation. -/
theorem terminateAll_effects (result : TerminalResult) (tokens : List OpaqueToken)
    {resource : Option OpaqueToken}
    (name : ∀ token operation, operation.resource = resource →
      permitted (.settle token operation result))
    (borrow : ∀ token ∈ tokens, ∀ operation, state.operations.get? token = some operation →
      operation.resource = resource) :
    Effects hub permitted state (terminateAll result tokens state).1 := by
  induction tokens generalizing state with
  | nil => exact .refl
  | cons token rest ih =>
    have head : Effects hub permitted state (terminalLocked state token result).1 :=
      terminalLocked_effects token result fun operation found =>
        name token operation (borrow token (by simp) operation found)
    have kept : ∀ other ∈ rest, ∀ operation,
        (terminalLocked state token result).1.operations.get? other = some operation →
        operation.resource = resource := by
      intro other member operation found
      have same : ((terminalLocked state token result).1.operations.get? other).map
          OperationSlot.resource = (state.operations.get? other).map OperationSlot.resource := by
        rcases terminalLocked_cases state token result with
          ⟨_, equal⟩ | ⟨_, _, _, _, equal⟩ | ⟨settled, _, _, equal⟩
        · rw [equal]
        · rw [equal]
        · rw [equal]
          rw [State.settleOperation_operations, SortedMap.get?_modify]
          split
          · cases state.operations.get? other <;> rfl
          rfl
      rw [found] at same
      obtain ⟨earlier, earlierFound, equal⟩ := Option.map_eq_some_iff.mp same.symm
      rw [← equal]
      exact borrow other (by simp [member]) earlier earlierFound
    unfold terminateAll
    split
    next after error equal => exact head.ends equal
    rename_i after woke equal
    rw [equal] at head kept
    exact head.trans (ih kept)

/-- Revoking a resource drops it and ends its borrowers. -/
theorem closeResourceWithTerminalLocked_effects (token : OpaqueToken) (terminal : Terminal) :
    Effects hub (Change.revoking token terminal) state
      (closeResourceWithTerminalLocked state token terminal).1 := by
  unfold closeResourceWithTerminalLocked
  split
  next => split <;> exact .refl
  rename_i resource found
  have name : Change.revoking token terminal (.revoke token) := rfl
  refine (Effects.single name (.revoke found)).trans ?_
  refine terminateAll_effects ⟨terminal, none⟩ _ (fun _ _ borrows => ⟨rfl, borrows⟩) ?_
  intro other member operation otherFound
  simp only [borrowers, State.operationsWhere, SortedMap.mem_keysWhere] at member
  grind

/-- Closing a resource that may already be gone. -/
theorem closeIfLive_effects (token : OpaqueToken) (terminal : Terminal) :
    Effects hub (Change.revoking token terminal) state (closeIfLive state token terminal).1 := by
  unfold closeIfLive
  split
  · exact .refl
  exact closeResourceWithTerminalLocked_effects token terminal

/-! ### Creating and submitting -/

/-- The names of the effects of a refused creation or submission. -/
def Change.spending : Change → Prop
  | .spend | .draw => True
  | _ => False

/-- What a refusal leaves, under a restriction that lets it draw and spend. -/
theorem Effects.spent (effects : Effects hub Change.spending state after) (spend : permitted .spend)
    (draw : permitted .draw) : Effects hub permitted state after := by
  refine effects.weaken ?_
  intro change name
  cases change with
  | spend => exact spend
  | draw => exact draw
  | _ => exact False.elim name

/-- The names of the effects of reserving a resource. -/
def Change.creating (store : Store) (origin : Origin) : Change → Prop
  | .create _ resource => resource.owner = store ∧ resource.origin = origin
  | change => change.spending

/-- The names of the effects of submitting an operation. -/
def Change.submitting (store : Store) (resource : Option OpaqueToken) (rights : Nat)
    (purpose : Purpose) : Change → Prop
  | .submit _ operation =>
    operation = { owner := store, resource, requiredRights := rights, purpose }
  | change => change.spending

/-- Everything `next_token` can do. -/
theorem nextToken_cases (state : State) :
    (∃ value, state.nextOpaqueToken ≤ value ∧
        state.nextToken = ({ state with nextOpaqueToken := value }, .error .exhausted)) ∨
      state.nextOpaqueToken + 1 ≤ maxWireToken ∧
        state.nextToken = ({ state with nextOpaqueToken := state.nextOpaqueToken + 1 },
          .ok (state.nextOpaqueToken + 1)) := by
  unfold State.nextToken
  split
  · exact .inl ⟨state.nextOpaqueToken, Nat.le_refl _, rfl⟩
  simp only
  split
  next beyond => exact .inl ⟨state.nextOpaqueToken + 1, Nat.le_succ _, rfl⟩
  next within => exact .inr ⟨Nat.le_of_not_lt within, rfl⟩

/-- Drawing a token. -/
theorem nextToken_effects (name : permitted .draw) :
    Effects hub permitted state state.nextToken.1 := by
  rcases nextToken_cases state with ⟨value, later, equal⟩ | ⟨_, equal⟩
  · rw [equal]
    exact .single name (.draw value later)
  · rw [equal]
    exact .single name (.draw _ (Nat.le_succ _))

/-- Taking a slot leaves the tables, the generations and the token counter alone. -/
theorem takeSlot_frame {state : State} {slot : Nat} (taken : takeSlot state = some (slot, after)) :
    after.resources = state.resources ∧ after.operations = state.operations ∧
      after.bufferedBlobBytes = state.bufferedBlobBytes ∧ after.history = state.history ∧
      after.ledgerFault = state.ledgerFault ∧ after.budgets = state.budgets ∧
        state.SameCounters after := by
  unfold takeSlot at taken
  split at taken
  · simp only [Option.some.injEq] at taken
    obtain ⟨_, rfl⟩ := taken
    simp [State.SameCounters]
  split_ifs at taken
  obtain ⟨_, rfl⟩ := taken
  simp [State.SameCounters]

/-- Everything a creation can do: refuse, possibly after spending a slot, a
generation or a token, or create. -/
theorem createResourceValueLocked_cases (hub : OperationHub) (state : State) (store : Store)
    (kind rights : Nat) (shareable : Bool) (fresh : FreshValue) (origin : Origin) :
    (∃ after error, createResourceValueLocked hub state store kind rights shareable fresh origin =
        (after, .error error) ∧ Effects hub Change.spending state after) ∨
      ∃ after resource, createResourceValueLocked hub state store kind rights shareable fresh
          origin = (after, .ok (state.nextOpaqueToken + 1)) ∧
        Effect hub (.create (state.nextOpaqueToken + 1) resource) state after ∧
        resource.owner = store ∧ resource.origin = origin ∧ resource.identity.kind = kind ∧
        resource.identity.rights = rights ∧ resource.shareable = shareable ∧
        resource.value = fresh.value := by
  have spend : Change.spending .spend := trivial
  have draw : Change.spending .draw := trivial
  unfold createResourceValueLocked
  split
  · exact .inl ⟨_, _, rfl, .refl⟩
  rename_i opened
  split
  · exact .inl ⟨_, _, rfl, .refl⟩
  split
  · exact .inl ⟨_, _, rfl, .refl⟩
  split
  next => exact .inl ⟨_, _, rfl, .refl⟩
  rename_i slot middle taken
  have frame := takeSlot_frame taken
  simp only
  split
  · exact .inl ⟨_, _, rfl, .single spend (.takeSlot taken)⟩
  rcases nextToken_cases { middle with
      resourceGenerations := middle.resourceGenerations.insert slot
        ((middle.resourceGenerations.get? slot).getD 0 + 1) } with
    ⟨value, later, equal⟩ | ⟨wire, equal⟩
  · rw [equal]
    exact .inl ⟨_, _, rfl, ((Effects.single spend (.takeSlot taken)).tail spend
      (.advance slot)).tail draw (.draw value later)⟩
  rw [equal]
  simp only at wire ⊢
  have counter : middle.nextOpaqueToken = state.nextOpaqueToken := by simp [frame]
  rw [counter] at wire ⊢
  exact .inr ⟨_, _, rfl, .create _ (by simpa using opened) (by omega) taken rfl rfl rfl
    fresh.fresh rfl rfl wire fresh.writable, rfl, rfl, rfl, rfl, rfl, rfl⟩

/-- Whatever is created has the value. -/
def Change.making (value : ResourceValue) : Change → Prop
  | .create _ resource => resource.value = value
  | _ => True

theorem createResourceValueLocked_effects (store : Store) (kind rights : Nat) (shareable : Bool)
    (fresh : FreshValue) (origin : Origin) :
    Effects hub (fun change => change.creating store origin ∧ change.making fresh.value) state
      (createResourceValueLocked hub state store kind rights shareable fresh origin).1 := by
  rcases createResourceValueLocked_cases hub state store kind rights shareable fresh origin with
    ⟨after, error, equal, effects⟩ | ⟨after, resource, equal, effect, owned, made, _, _, _, value⟩
  · rw [equal]
    exact effects.spent ⟨trivial, trivial⟩ ⟨trivial, trivial⟩
  · rw [equal]
    exact Effects.refl.next effect ⟨⟨owned, made⟩, value⟩

/-- Everything a submission can do. -/
theorem submitLocked_cases (hub : OperationHub) (state : State) (store : Store)
    (resource : Option OpaqueToken) (kind rights : Nat) (purpose : Purpose) :
    (∃ after error, submitLocked hub state store resource kind rights purpose =
        (after, .error error) ∧ Effects hub Change.spending state after) ∨
      ∃ after, submitLocked hub state store resource kind rights purpose =
          (after, .ok (state.nextOpaqueToken + 1)) ∧
        submitCheck hub state store resource kind rights = .ok () ∧
        Effect hub (.submit (state.nextOpaqueToken + 1)
          { owner := store, resource, requiredRights := rights, purpose }) state after := by
  have draw : Change.spending .draw := trivial
  unfold submitLocked
  split
  · exact .inl ⟨_, _, rfl, .refl⟩
  rename_i opened
  split
  · exact .inl ⟨_, _, rfl, .refl⟩
  split
  · exact .inl ⟨_, _, rfl, .refl⟩
  rename_i licensed
  rcases nextToken_cases state with ⟨value, later, equal⟩ | ⟨wire, equal⟩
  · rw [equal]
    exact .inl ⟨_, _, rfl, .single draw (.draw value later)⟩
  · rw [equal]
    exact .inr ⟨_, rfl, licensed, .submit store resource kind rights purpose
      (by simpa using opened) (by omega) licensed wire⟩

theorem submitLocked_effects (store : Store) (resource : Option OpaqueToken) (kind rights : Nat)
    (purpose : Purpose) :
    Effects hub (Change.submitting store resource rights purpose) state
      (submitLocked hub state store resource kind rights purpose).1 := by
  rcases submitLocked_cases hub state store resource kind rights purpose with
    ⟨after, error, equal, effects⟩ | ⟨after, equal, _, effect⟩
  · rw [equal]
    exact effects.spent trivial trivial
  · rw [equal]
    exact Effects.refl.next effect rfl

/-- Handing a reservation to its operation, or reclaiming both. -/
theorem attachCreatedResource_effects (operation resource : OpaqueToken)
    (attached : permitted (.amend operation (.attach resource)))
    (removed : permitted (.remove operation)) (discarded : permitted (.discard resource)) :
    Effects hub permitted state (attachCreatedResource state operation resource).1 := by
  have discard : ∀ {middle : State}, Effects hub permitted middle
      (middle.dropResource resource) := by
    intro middle
    cases found : middle.resources.get? resource with
    | none =>
      rw [State.dropResource_absent found]
      exact .refl
    | some => exact .single discarded (.discard found)
  unfold attachCreatedResource
  split
  · exact discard
  rename_i slot found
  split
  · exact (Effects.single removed (.remove found)).trans discard
  rename_i pending
  have waiting : slot.terminal = none := by simpa using pending
  exact .single attached (.amend (.attach resource) found (.inl waiting))

/-- Amending a pending operation. -/
theorem amend_effects {token : OpaqueToken} {operation : OperationSlot} (amendment : Amendment)
    (found : state.operations.get? token = some operation)
    (pending : operation.terminal = none ∨ amendment.marks = true)
    (name : permitted (.amend token amendment)) :
    Effects hub permitted state (state.modifyOperation token amendment.apply) :=
  .single name (.amend amendment found pending)

/-- Removing an operation that may already be gone. -/
theorem removeOperation_effects (token : OpaqueToken) (name : permitted (.remove token)) :
    Effects hub permitted state (state.removeOperation token) := by
  cases found : state.operations.get? token with
  | none =>
    have same : state.removeOperation token = state := by simp [State.removeOperation, found]
    rw [same]
    exact .refl
  | some => exact .single name (.remove found)

end KernalApi.Hub
