import KernalApi.Hub.Record
import KernalApi.Hub.Schedule

/-!
# The handle table

Seen from the handles, an effect creates one resource, drops one, or issues and
frees nothing. `HandleStep` says so once, and the invariants of slots,
generations and tombstones are read off it.
-/

namespace KernalApi.Hub

open KernalApi.Std Semantics List State

variable {slot : Nat} {allowed : Thread → Move → State → Prop} {pool : Pool State Thread}
  {hub : OperationHub} {change : Change} {before after : State}

/-- The handle an event issues: token, slot and generation. -/
def Event.handle : Event → Option (OpaqueToken × Nat × Nat)
  | .issued token slot generation => some (token, slot, generation)
  | _ => none

namespace State

/-- Every handle issued so far, in order. -/
def issued (state : State) : List (OpaqueToken × Nat × Nat) := state.history.filterMap Event.handle

/-- The last generation issued for a slot. -/
def generation (state : State) (slot : Nat) : Nat := (state.resourceGenerations.get? slot).getD 0

theorem issued_record (state : State) (event : Event) :
    (state.record event).issued = state.issued ++ event.handle.toList := by
  cases event <;> simp [issued, Event.handle]

end State

/-- Nothing is issued, and no slot is freed. -/
structure Unissued (before after : State) : Prop where
  slots : before.nextResourceSlot ≤ after.nextResourceSlot
  generations : ∀ slot, before.generation slot ≤ after.generation slot
  issued : after.issued = before.issued
  later : before.nextOpaqueToken ≤ after.nextOpaqueToken
  kept : ∀ {token new}, after.resources.get? token = some new →
    ∃ old, before.resources.get? token = some old ∧ old.Same new

/-- What an effect does to the handles. -/
inductive HandleStep (before after : State) : Prop where
  | keep (unissued : Unissued before after)
      (free : after.freeResourceSlots.Sublist before.freeResourceSlots)
      (closed : after.closedResources = before.closedResources)
      (order : after.closedResourceOrder = before.closedResourceOrder)
  | create {token : OpaqueToken} {resource : ResourceSlot} (middle : State)
      (taken : takeSlot before = some (resource.identity.slot, middle))
      (drawn : before.nextOpaqueToken < token) (counter : after.nextOpaqueToken = token)
      (generation : resource.identity.generation = before.generation resource.identity.slot + 1)
      (resources : after.resources = before.resources.insert token resource)
      (generations : after.resourceGenerations = before.resourceGenerations.insert
        resource.identity.slot resource.identity.generation)
      (slots : after.nextResourceSlot = middle.nextResourceSlot)
      (free : after.freeResourceSlots = middle.freeResourceSlots)
      (issued : after.issued = before.issued ++
        [(token, resource.identity.slot, resource.identity.generation)])
      (closed : after.closedResources = before.closedResources)
      (order : after.closedResourceOrder = before.closedResourceOrder)
  | drop {token : OpaqueToken} {resource : ResourceSlot}
    (found : before.resources.get? token = some resource) (unissued : Unissued before after)
      (gone : after.resources.get? token = none)
      (free : after.freeResourceSlots = resource.identity.slot :: before.freeResourceSlots)
      (tombstones : after.closedResources = before.closedResources ∧
          after.closedResourceOrder = before.closedResourceOrder ∨
        after.closedResources = (before.tombstone token).closedResources ∧
          after.closedResourceOrder = (before.tombstone token).closedResourceOrder)

/-- Only a creation issues a handle. -/
theorem Effect.issued_eq (effect : Effect hub change before after)
    (other : ∀ token resource, change ≠ .create token resource) : after.issued = before.issued := by
  obtain ⟨events, appended, recorded⟩ := effect.recorded
  have none : events.filterMap Event.handle = [] := by
    rw [filterMap_eq_nil_iff]
    cases recorded with
    | create token resource => exact absurd rfl (other token resource)
    | _ => simp [Event.handle]
  rw [issued, appended, filterMap_append, none, append_nil, issued]

/-- Settling an operation keeps the handles or drops the one it created. -/
theorem HandleStep.settleOperation {state : State} {token : OpaqueToken} {operation : OperationSlot}
    {result : TerminalResult} (unissued : Unissued before
      (state.settleOperation token operation result))
    (free : state.freeResourceSlots = before.freeResourceSlots)
    (closed : state.closedResources = before.closedResources)
    (order : state.closedResourceOrder = before.closedResourceOrder)
    (kept : ∀ {token new}, state.resources.get? token = some new →
      ∃ old, before.resources.get? token = some old ∧ old.Same new) :
    HandleStep before (state.settleOperation token operation result) := by
  rcases settleOperation_resource_cases state token operation result with
    ⟨_, equal⟩ | ⟨created, _, _, equal⟩ | ⟨created, _, _, equal⟩
  · exact .keep unissued (by simp [equal, free]) (by simp [closed]) (by simp [order])
  · exact .keep unissued (by simp [equal, free]) (by simp [closed]) (by simp [order])
  cases stored : state.resources.get? created with
  | none =>
    have settledStored : ((state.modifyOperation token fun slot => slot.settle result).record
        (.terminated token result)).resources.get? created = none := stored
    have absent := dropResource_absent settledStored
    exact .keep unissued (by simp [equal, absent, free]) (by simp [closed]) (by simp [order])
  | some resource =>
    obtain ⟨old, oldFound, same⟩ := kept stored
    have settledStored : ((state.modifyOperation token fun slot => slot.settle result).record
        (.terminated token result)).resources.get? created = some resource := stored
    have dropped := (dropResource_found settledStored).2.2
    refine .drop oldFound unissued (by simp [equal]) ?_ (.inl ⟨by simp [closed], by simp [order]⟩)
    rw [equal, dropped, same.slot]
    simp [free]

/-- Where a new resource gets its slot from. -/
theorem takeSlot_cases (taken : takeSlot before = some (slot, after)) :
    (before.freeResourceSlots = slot :: after.freeResourceSlots ∧
        after.nextResourceSlot = before.nextResourceSlot) ∨
      (before.freeResourceSlots = [] ∧ after.freeResourceSlots = [] ∧
        slot = before.nextResourceSlot + 1 ∧ after.nextResourceSlot = slot) := by
  unfold takeSlot at taken
  split at taken
  next freed rest free =>
    cases taken
    exact .inl ⟨free, rfl⟩
  rename_i free
  split_ifs at taken
  cases taken
  exact .inr ⟨free, free, rfl, rfl⟩

/-- What each effect does to the handles. -/
theorem Effect.handleStep (effect : Effect hub change before after) : HandleStep before after := by
  have unissued : (∀ token resource, change ≠ .create token resource) →
      before.nextResourceSlot ≤ after.nextResourceSlot →
      (∀ slot, before.generation slot ≤ after.generation slot) → Unissued before after := by
    intro other slots generations
    refine ⟨slots, generations, effect.issued_eq other, effect.nextOpaqueToken_le, fun found => ?_⟩
    rcases effect.resource_before found with ⟨made, _⟩ | ⟨old, oldFound, step⟩
    · exact absurd made (other _ _)
    · exact ⟨old, oldFound, step.ages.same⟩
  have same : (∀ token resource, change ≠ .create token resource) →
      after.nextResourceSlot = before.nextResourceSlot →
      after.resourceGenerations = before.resourceGenerations →
      after.freeResourceSlots = before.freeResourceSlots →
      after.closedResources = before.closedResources →
      after.closedResourceOrder = before.closedResourceOrder → HandleStep before after := by
    intro other slots generations free
    exact .keep (unissued other slots.ge fun slot => by rw [generation, generation, generations])
      (free ▸ .refl _)
  cases effect with
  | tally equal =>
    have frame := core_frame equal
    apply same <;> simp [frame]
  | takeSlot taken =>
    have frame := takeSlot_frame taken
    have generations : ∀ slot, before.generation slot ≤ after.generation slot := by
      simp [generation, frame]
    rcases takeSlot_cases taken with ⟨free, slots⟩ | ⟨free, empty, slots, numbered⟩
    · exact .keep (unissued (by simp) (by omega) generations) (by simp [free]) (by simp [frame])
        (by simp [frame])
    · exact .keep (unissued (by simp) (by omega) generations) (by simp [empty]) (by simp [frame])
        (by simp [frame])
  | advance slot =>
    refine .keep (unissued (by simp) (Nat.le_refl _) fun other => ?_) (.refl _) rfl rfl
    by_cases same : other = slot
    all_goals simp [generation, same]
  | create resource opened room taken scope numbered generation fresh reserved idle wire writable =>
    rename_i middle slot
    subst numbered
    have frame := takeSlot_frame taken
    refine .create middle taken (Nat.lt_succ_self _) rfl ?_ ?_ ?_ rfl rfl ?_ ?_ ?_
    · rw [generation, State.generation]
      simp [frame]
    · simp [frame]
    · simp [frame]
    · rw [issued_record]
      simp [Event.handle, issued, frame]
    · simp [frame]
    · simp [frame]
  | accept waiting pending borrows input found value room blobLimit sketchLimit =>
    rename_i token blob operation resource buffer data
    have stillFound : (before.modifyOperation token fun slot =>
        { slot with pendingBlobWrite := none }).resources.get? blob = some resource := found
    refine .settleOperation (unissued (by simp) (by simp) (by simp [generation])) rfl rfl rfl ?_
    intro other new present
    rw [acceptBytes_resources stillFound value] at present
    exact ResourceSlot.Same.modify present fun _ => ⟨rfl, rfl, rfl, rfl, rfl, rfl, rfl⟩
  | answer waiting pending borrows request found value readable bytes within exact =>
    refine .settleOperation (unissued (by simp) (by simp) (by simp [generation])) rfl rfl rfl ?_
    intro other new present
    simp only [drainBlob_resources found value] at present
    exact ResourceSlot.Same.modify present fun _ => ⟨rfl, rfl, rfl, rfl, rfl, rfl, rfl⟩
  | settle =>
    exact .settleOperation (unissued (by simp) (by simp) (by simp [generation])) rfl rfl rfl
      fun found => ⟨_, found, .refl _⟩
  | revoke =>
    rename_i token resource found
    exact .drop found (unissued (by simp) (by simp) (by simp [generation])) (by simp)
      (dropResource_found found).2.2 (.inr ⟨by simp only [tombstone, dropResource_frame],
        by simp only [tombstone, dropResource_frame]⟩)
  | discard =>
    rename_i token resource found
    exact .drop found (unissued (by simp) (by simp) (by simp [generation])) (by simp)
      (dropResource_found found).2.2 (.inl ⟨by simp, by simp⟩)
  | remove | deliver => apply same <;> simp
  | shutDown =>
    exact .keep (unissued (by simp) (Nat.le_refl _) fun _ => Nat.le_refl _) (nil_sublist _) rfl rfl
  | _ => exact same (by simp) rfl rfl rfl rfl rfl

/-! ### Slots -/

/-- Live resources have distinct slots, and free slots are not in use. -/
structure SlotTable (state : State) : Prop where
  distinct : ∀ {first second left right}, state.resources.get? first = some left →
    state.resources.get? second = some right → left.identity.slot = right.identity.slot →
    first = second
  freeNodup : state.freeResourceSlots.Nodup
  freeIdle : ∀ {token resource}, state.resources.get? token = some resource →
    resource.identity.slot ∉ state.freeResourceSlots
  numbered : ∀ {token resource}, state.resources.get? token = some resource →
    resource.identity.slot ≤ state.nextResourceSlot
  freeNumbered : ∀ slot ∈ state.freeResourceSlots, slot ≤ state.nextResourceSlot

/-- Distinctness survives when every resource keeps its slot. -/
theorem SlotTable.distinct_kept (table : SlotTable before) (unissued : Unissued before after)
    {first second : OpaqueToken} {left right : ResourceSlot}
    (leftFound : after.resources.get? first = some left)
    (rightFound : after.resources.get? second = some right)
    (same : left.identity.slot = right.identity.slot) : first = second := by
  obtain ⟨oldLeft, oldLeftFound, leftSame⟩ := unissued.kept leftFound
  obtain ⟨oldRight, oldRightFound, rightSame⟩ := unissued.kept rightFound
  exact table.distinct oldLeftFound oldRightFound
    (leftSame.slot.symm.trans (same.trans rightSame.slot))

/-- The slot of a creation is not live, not free any more and numbered. -/
theorem SlotTable.taken (table : SlotTable before) (taken : takeSlot before = some (slot, after)) :
    (∀ {token resource}, before.resources.get? token = some resource →
        resource.identity.slot ≠ slot) ∧
      slot ∉ after.freeResourceSlots ∧ after.freeResourceSlots.Nodup ∧
      (∀ free ∈ after.freeResourceSlots, free ∈ before.freeResourceSlots) ∧
      slot ≤ after.nextResourceSlot ∧ before.nextResourceSlot ≤ after.nextResourceSlot := by
  have nodup := table.freeNodup
  rcases takeSlot_cases taken with ⟨free, slots⟩ | ⟨_, empty, number, slots⟩
  · rw [free, nodup_cons] at nodup
    have inside : slot ∈ before.freeResourceSlots := by simp [free]
    refine ⟨?_, nodup.1, nodup.2, fun _ member => free ▸ .tail _ member,
      slots ▸ table.freeNumbered slot inside, Nat.le_of_eq slots.symm⟩
    rintro token resource found rfl
    exact table.freeIdle found inside
  · refine ⟨?_, by simp [empty], by simp [empty], by simp [empty], Nat.le_of_eq slots.symm,
      by omega⟩
    intro token resource found same
    have below := table.numbered found
    omega

theorem SlotTable.step (table : SlotTable before) (step : HandleStep before after) :
    SlotTable after := by
  cases step with
  | keep unissued free =>
    refine ⟨table.distinct_kept unissued, table.freeNodup.sublist free, ?_, ?_, ?_⟩
    · intro token resource found inside
      obtain ⟨old, oldFound, same⟩ := unissued.kept found
      exact table.freeIdle oldFound (same.slot ▸ free.subset inside)
    · intro token resource found
      obtain ⟨old, oldFound, same⟩ := unissued.kept found
      exact same.slot ▸ (table.numbered oldFound).trans unissued.slots
    · exact fun slot inside => (table.freeNumbered slot (free.subset inside)).trans unissued.slots
  | create middle taken drawn counter generation resources generations slots free issued closed
      order =>
    obtain ⟨idle, notFree, nodup, fewer, number, more⟩ := table.taken taken
    refine ⟨?_, free ▸ nodup, ?_, ?_, ?_⟩
    · intro first second left right leftFound rightFound same
      rw [resources] at leftFound rightFound
      rcases SortedMap.insert_before leftFound with ⟨rfl, rfl⟩ | ⟨_, leftOld⟩ <;>
        rcases SortedMap.insert_before rightFound with ⟨rfl, rfl⟩ | ⟨_, rightOld⟩
      · rfl
      · exact absurd same.symm (idle rightOld)
      · exact absurd same (idle leftOld)
      · exact table.distinct leftOld rightOld same
    · intro other current found
      rw [resources] at found
      rw [free]
      rcases SortedMap.insert_before found with ⟨_, rfl⟩ | ⟨_, old⟩
      · exact notFree
      · exact fun inside => table.freeIdle old (fewer _ inside)
    · intro other current found
      rw [resources] at found
      rw [slots]
      rcases SortedMap.insert_before found with ⟨_, rfl⟩ | ⟨_, old⟩
      · exact number
      · exact (table.numbered old).trans more
    · intro slot inside
      rw [slots]
      exact (table.freeNumbered slot (fewer slot (free ▸ inside))).trans more
  | drop found unissued gone free tombstones =>
    refine ⟨table.distinct_kept unissued, ?_, ?_, ?_, ?_⟩
    · rw [free, nodup_cons]
      exact ⟨table.freeIdle found, table.freeNodup⟩
    · intro other current present inside
      obtain ⟨old, oldFound, same⟩ := unissued.kept present
      rw [free, same.slot] at inside
      rcases mem_cons.mp inside with equal | inside
      · have shared := table.distinct oldFound found equal
        rw [shared, gone] at present
        cases present
      · exact table.freeIdle oldFound inside
    · intro other current present
      obtain ⟨old, oldFound, same⟩ := unissued.kept present
      exact same.slot ▸ (table.numbered oldFound).trans unissued.slots
    · intro slot inside
      rw [free] at inside
      rcases mem_cons.mp inside with rfl | inside
      · exact (table.numbered found).trans unissued.slots
      · exact (table.freeNumbered slot inside).trans unissued.slots

/-! ### Generations -/

/-- No handle is issued twice, and live resources hold issued handles. -/
structure IssueTable (state : State) : Prop where
  live : ∀ {token resource}, state.resources.get? token = some resource →
    (token, resource.identity.slot, resource.identity.generation) ∈ state.issued
  spent : ∀ {token slot generation}, (token, slot, generation) ∈ state.issued →
    generation ≤ state.generation slot
  once : (state.issued.map Prod.snd).Nodup

theorem IssueTable.step (table : IssueTable before) (step : HandleStep before after) :
    IssueTable after := by
  have kept : Unissued before after → IssueTable after := by
    intro unissued
    refine ⟨?_, ?_, unissued.issued ▸ table.once⟩
    · intro token resource found
      obtain ⟨old, oldFound, same⟩ := unissued.kept found
      rw [unissued.issued, same.slot, same.generation]
      exact table.live oldFound
    · intro token slot generation member
      rw [unissued.issued] at member
      exact (table.spent member).trans (unissued.generations slot)
  cases step with
  | keep unissued | drop found unissued => exact kept unissued
  | create middle taken drawn counter generation resources generations slots free issued closed
      order =>
    refine ⟨?_, ?_, ?_⟩
    · intro other current found
      rw [resources] at found
      rw [issued, mem_append]
      rcases SortedMap.insert_before found with ⟨rfl, rfl⟩ | ⟨_, old⟩
      · exact .inr (by simp)
      · exact .inl (table.live old)
    · intro other slot number member
      rw [issued, mem_append] at member
      have later : before.generation slot ≤ after.generation slot := by
        rw [State.generation, State.generation, generations, SortedMap.get?_insert]
        split
        next same =>
          rw [same, generation]
          exact Nat.le_succ _
        next => exact Nat.le_refl _
      rcases member with old | new
      · exact (table.spent old).trans later
      · simp only [mem_singleton] at new
        obtain ⟨rfl, rfl, rfl⟩ := new
        simp [State.generation, generations]
    · rw [issued, map_append, nodup_append]
      refine ⟨table.once, by simp, ?_⟩
      -- An older handle of the slot has a smaller generation.
      rintro ⟨slot, number⟩ older _ newer rfl
      simp only [map_cons, map_nil, mem_singleton, Prod.mk.injEq] at newer
      obtain ⟨⟨other, _, _⟩, member, equal⟩ := mem_map.mp older
      obtain ⟨rfl, rfl⟩ := Prod.mk.inj equal
      have spent := table.spent member
      rw [newer.1] at spent
      omega

/-! ### Tombstones -/

/-- The remembered tokens are listed once, are few, and are not live. -/
structure TombstoneRing (state : State) : Prop where
  listed : ∀ token, token ∈ state.closedResources ↔ token ∈ state.closedResourceOrder
  nodup : state.closedResourceOrder.Nodup
  bounded : state.closedResourceOrder.length ≤ maxClosedTombstones
  dead : ∀ token ∈ state.closedResourceOrder, state.resources.get? token = none
  drawn : ∀ token ∈ state.closedResourceOrder, token ≤ state.nextOpaqueToken

/-- Splitting a list without repetition: what is not in the front is in the rest. -/
theorem mem_drop_iff_of_nodup {α : Type} {items : List α} (nodup : items.Nodup) (count : Nat)
    (item : α) : item ∈ items.drop count ↔ item ∈ items ∧ item ∉ items.take count := by
  constructor
  · intro inside
    exact ⟨mem_of_mem_drop inside, fun front => disjoint_take_drop nodup
      (Nat.le_refl _) front inside⟩
  · rintro ⟨inside, notFront⟩
    rw [← take_append_drop count items, mem_append] at inside
    exact inside.resolve_left notFront

theorem TombstoneRing.step (drawn : Drawn before) (ring : TombstoneRing before)
    (step : HandleStep before after) : TombstoneRing after := by
  have still : Unissued before after → ∀ token ∈ before.closedResourceOrder,
      after.resources.get? token = none := by
    intro unissued token inside
    refine Option.eq_none_iff_forall_ne_some.mpr fun new found => ?_
    obtain ⟨old, oldFound, _⟩ := unissued.kept found
    cases (ring.dead token inside).symm.trans oldFound
  have kept : (∀ token ∈ before.closedResourceOrder, after.resources.get? token = none) →
      before.nextOpaqueToken ≤ after.nextOpaqueToken →
      after.closedResources = before.closedResources →
      after.closedResourceOrder = before.closedResourceOrder → TombstoneRing after := by
    intro dead later closed order
    refine ⟨fun token => ?_, order ▸ ring.nodup, order ▸ ring.bounded, order ▸ dead, ?_⟩
    · rw [closed, order]
      exact ring.listed token
    · intro token inside
      exact (ring.drawn token (order ▸ inside)).trans later
  cases step with
  | keep unissued free closed order => exact kept (still unissued) unissued.later closed order
  | create middle taken later counter generation resources generations slots free issued closed
      order =>
    rename_i token resource
    refine kept (fun other inside => ?_) (counter ▸ later.le) closed order
    have distinct : other ≠ token :=
      Nat.ne_of_lt (Nat.lt_of_le_of_lt (ring.drawn other inside) later)
    rw [resources, SortedMap.get?_insert, if_neg distinct]
    exact ring.dead other inside
  | drop found unissued gone free tombstones =>
    rename_i token resource
    rcases tombstones with ⟨closed, order⟩ | ⟨closed, order⟩
    · exact kept (still unissued) unissued.later closed order
    have fresh : token ∉ before.closedResourceOrder := by
      intro inside
      rw [ring.dead token inside] at found
      cases found
    have nodup : (before.closedResourceOrder ++ [token]).Nodup := by
      rw [nodup_append]
      refine ⟨ring.nodup, by simp, ?_⟩
      rintro other inside _ same rfl
      exact fresh (mem_singleton.mp same ▸ inside)
    simp only [tombstone] at closed order
    refine ⟨fun other => ?_, ?_, ?_, ?_, ?_⟩
    · rw [closed, order, mem_drop_iff_of_nodup nodup, Finset.mem_sdiff, Finset.mem_insert,
        ring.listed, mem_append, mem_singleton, mem_toFinset]
      exact and_congr_left fun _ => or_comm
    · rw [order]
      exact nodup.sublist (drop_sublist _ _)
    · rw [order, length_drop]
      omega
    · intro other inside
      rw [order] at inside
      rcases mem_append.mp (mem_of_mem_drop inside) with older | same
      · exact still unissued other older
      · rw [mem_singleton.mp same]
        exact gone
    · intro other inside
      rw [order] at inside
      rcases mem_append.mp (mem_of_mem_drop inside) with older | same
      · exact (ring.drawn other older).trans unissued.later
      · rw [mem_singleton.mp same]
        exact (drawn.resources found).trans unissued.later

/-! ### The handle table of every run -/

/-- All parts of the handle invariant. -/
structure Handles (state : State) : Prop where
  drawn : Drawn state
  slots : SlotTable state
  issues : IssueTable state
  tombstones : TombstoneRing state

theorem Handles.effect (handles : Handles before) (effect : Effect hub change before after) :
    Handles after :=
  ⟨handles.drawn.effect effect, handles.slots.step effect.handleStep,
    handles.issues.step effect.handleStep, handles.tombstones.step handles.drawn effect.handleStep⟩

theorem Handles.initial (drawn : Nat) : Handles { nextOpaqueToken := drawn } where
  drawn := .initial drawn
  slots := ⟨fun found => by simp at found, .nil, fun found => by simp at found,
    fun found => by simp at found, by simp⟩
  issues := ⟨fun found => by simp at found, by simp [issued], .nil⟩
  tombstones := ⟨by simp, .nil, Nat.zero_le _, by simp, by simp⟩

theorem Handles.of_reachable (reachable : (machine hub).Reachable allowed pool) :
    Handles pool.shared :=
  reachable_preserves Handles licensed_true (fun drawn _ => .initial drawn)
    (fun _ effect handles => handles.effect effect) reachable

/-- Later states have no more old resources than earlier ones. -/
def Retires (before after : State) : Prop :=
  before.nextOpaqueToken ≤ after.nextOpaqueToken ∧
    ∀ token, token ≤ before.nextOpaqueToken → before.resources.get? token = none →
      after.resources.get? token = none

/-- No run brings an old token back. -/
theorem resources_descend {later : Pool State Thread}
    (runs : (machine hub).Runs allowed pool later) :
    Descends State.resources ResourceSlot.Ages pool.shared later.shared := by
  refine .of_runs .refl .trans (fun effect => effect.descends fun found => ?_) runs
  exact (effect.resource_before found).imp (·.2.1) fun ⟨old, there, step⟩ => ⟨old, there, step.ages⟩

theorem Retires.of_runs {pool' : Pool State Thread}
    (runs : (machine hub).Runs allowed pool pool') : Retires pool.shared pool'.shared :=
  ⟨(resources_descend runs).later, fun _ => (resources_descend runs).absent⟩

/-- The handle table of every reachable state, and of everything that follows
it: a token that has left the resource table never returns. -/
theorem handleTable_sound {pool : Pool State Thread}
    (reachable : (machine hub).Reachable (fun _ _ _ => True) pool) :
    (∀ first second left right, pool.shared.resources.get? first = some left →
        pool.shared.resources.get? second = some right →
        left.identity.slot = right.identity.slot → first = second) ∧
      pool.shared.freeResourceSlots.Nodup ∧
      (∀ token resource, pool.shared.resources.get? token = some resource →
        resource.identity.slot ∉ pool.shared.freeResourceSlots) ∧
      (∀ token resource, pool.shared.resources.get? token = some resource →
        (token, resource.identity.slot, resource.identity.generation) ∈ pool.shared.issued) ∧
      (pool.shared.issued.map Prod.snd).Nodup ∧
      (∀ token, token ∈ pool.shared.closedResources ↔ token ∈ pool.shared.closedResourceOrder) ∧
      pool.shared.closedResourceOrder.Nodup ∧
      pool.shared.closedResourceOrder.length ≤ maxClosedTombstones ∧
      (∀ token ∈ pool.shared.closedResources, pool.shared.resources.get? token = none) ∧
      ∀ removed later token, (machine hub).Runs (fun _ _ _ => True) pool removed →
        (machine hub).Runs (fun _ _ _ => True) removed later →
        pool.shared.resources.get? token ≠ none → removed.shared.resources.get? token = none →
        later.shared.resources.get? token = none := by
  obtain ⟨drawn, slots, issues, tombstones⟩ := Handles.of_reachable reachable
  refine ⟨fun _ _ _ _ => slots.distinct, slots.freeNodup, fun _ _ => slots.freeIdle,
    fun _ _ => issues.live, issues.once, tombstones.listed, tombstones.nodup, tombstones.bounded,
    ?_, ?_⟩
  · intro token inside
    exact tombstones.dead token ((tombstones.listed token).mp inside)
  intro removed later token removing returning live absent
  obtain ⟨resource, found⟩ := Option.ne_none_iff_exists'.mp live
  have known := (drawn.resources found).trans (Retires.of_runs removing).1
  exact (Retires.of_runs returning).2 token known absent

/-- Two blobs, the first of which is abandoned and its slot used again. -/
def reusedSlot : List Turn :=
  [.run (.createBlob 0), .run (.createBlob 0), .run (.abandonBlob 0 2), .run (.createBlob 0)]

theorem handleTable_reusedSlot :
    ∃ pool, (machine .small).Reachable (fun _ _ _ => True) pool ∧
      pool.shared.issued = [(2, 1, 1), (3, 2, 1), (4, 1, 2)] ∧
      pool.shared.closedResourceOrder = [2] ∧ (pool.shared.issued.map Prod.snd).Nodup ∧
      pool.shared.resources.get? 2 = none := by
  have played : Board.plays .small (fun _ _ _ => true) reusedSlot
      (fun board => board.state.issued = [(2, 1, 1), (3, 2, 1), (4, 1, 2)] ∧
        board.state.closedResourceOrder = [2]) = true := by decide +kernel
  obtain ⟨board, _, reachable, goal⟩ :=
    Board.reachable_of_plays (fun _ _ _ => True) (fun _ _ _ _ => trivial) played
  obtain ⟨issued, order⟩ := of_decide_eq_true goal
  obtain ⟨_, _, _, _, once, listed, _, _, dead, _⟩ := handleTable_sound reachable
  have remembered : 2 ∈ board.pool.shared.closedResources := by
    rw [listed]
    simp [Board.pool, order]
  exact ⟨board.pool, reachable, issued, order, once, dead 2 remembered⟩

/-- A resource of a reachable state is, after every run, either out of the
table for good or still under its token, aged. -/
theorem resources_age {pool later : Pool State Thread} {old : ResourceSlot}
    (reachable : (machine hub).Reachable (fun _ _ _ => True) pool)
    (runs : (machine hub).Runs (fun _ _ _ => True) pool later)
    (found : pool.shared.resources.get? token = some old) :
    (∀ final, (machine hub).Runs (fun _ _ _ => True) later final →
        final.shared.resources.get? token = none) ∨
      ∃ new, later.shared.resources.get? token = some new ∧ old.Ages new := by
  have known := (Handles.of_reachable reachable).drawn.resources found
  have descends := resources_descend runs
  cases present : later.shared.resources.get? token with
  | none =>
    exact .inl fun final more =>
      (resources_descend more).absent (known.trans descends.later) present
  | some new =>
    obtain ⟨_, there, ages⟩ := descends.entry known present
    cases found.symm.trans there
    exact .inr ⟨new, rfl, ages⟩

theorem resources_age_reusedSlot :
    ∃ pool later old kept, (machine .small).Reachable (fun _ _ _ => True) pool ∧
      (machine .small).Runs (fun _ _ _ => True) pool later ∧
      pool.shared.resources.get? 2 = some old ∧
      (∀ final, (machine .small).Runs (fun _ _ _ => True) later final →
        final.shared.resources.get? 2 = none) ∧
      pool.shared.resources.get? 3 = some kept ∧
      ∃ new, later.shared.resources.get? 3 = some new ∧ kept.Ages new := by
  have played : Board.plays .small (fun _ _ _ => true) (reusedSlot.take 2) (fun board =>
      (board.state.resources.get? 2).isSome && (board.state.resources.get? 3).isSome &&
        (board.play .small (fun _ _ _ => true) (reusedSlot.drop 2)).any fun later =>
          (later.state.resources.get? 2).isNone && (later.state.resources.get? 3).isSome) =
          true := by
    decide +kernel
  obtain ⟨board, _, reachable, goal⟩ :=
    Board.reachable_of_plays (fun _ _ _ => True) (fun _ _ _ _ => trivial) played
  simp only [Bool.and_eq_true, Option.isSome_iff_exists, Option.any_eq_true] at goal
  obtain ⟨⟨⟨old, found⟩, kept, live⟩, later, reached, absent, new, there⟩ := goal
  have runs : (machine .small).Runs (fun _ _ _ => True) board.pool later.pool :=
    Board.play_runs (fun _ _ _ _ => trivial) reached
  refine ⟨board.pool, later.pool, old, kept, reachable, runs, found, ?_, live, ?_⟩
  · rcases resources_age reachable runs found with gone | ⟨_, present, _⟩
    · exact gone
    · cases (Option.isNone_iff_eq_none.mp absent).symm.trans present
  · rcases resources_age reachable runs live with gone | aged
    · cases there.symm.trans (gone _ .refl)
    · exact aged

end KernalApi.Hub
