import KernalApi.Hub.Schedule
import KernalApi.Hub.Slots

/-!
# The byte ledger

`bufferedBlobBytes` is the sum of the buffer lengths of the live blobs, and no
subtraction from it ever goes below zero. Every effect exchanges the
contribution of at most one blob, so the invariant is carried by one lemma on
such exchanges.
-/

namespace KernalApi.Hub

open KernalApi.Std Semantics State ResourceSlot

variable {resource : ResourceSlot} {buffer : ByteBuffer} {closedToWriters : Bool}
  {blob token : OpaqueToken} {update : ResourceSlot → ResourceSlot} {pool : Pool State Thread}
  {hub : OperationHub} {change : Change} {before after : State}

/-- The bytes buffered in all live blobs. -/
def State.bufferedTotal (state : State) : Nat :=
  state.resources.sum fun resource => resource.value.buffered

/-- The byte ledger agrees with the buffers and keeps the limits. -/
structure Ledger (hub : OperationHub) (state : State) : Prop where
  total : state.bufferedBlobBytes = state.bufferedTotal
  sketch : state.bufferedBlobBytes ≤ hub.blobLimits.maximumSketchBytes
  blobs : ∀ {token resource}, state.resources.get? token = some resource →
    resource.value.buffered ≤ hub.blobLimits.maximumBlobBytes
  sound : state.ledgerFault = false

/-! ### What the slot updates buffer -/

theorem ResourceValue.buffered_le_retained (value : ResourceValue) :
    value.buffered ≤ value.retained := by
  cases value with
  | blob buffer => exact buffer.fits
  | _ => exact Nat.le_refl _

theorem ResourceSlot.buffered_withBuffer {old : ByteBuffer}
    (value : resource.value = .blob old closedToWriters)
    (same : buffer.bytes.length = old.bytes.length) :
    (resource.withBuffer buffer).value.buffered = resource.value.buffered := by
  simp [withBuffer_blob value, value, ResourceValue.buffered, same]

theorem Alteration.buffered_apply (alteration : Alteration) (slot : ResourceSlot) :
    (alteration.apply slot).value.buffered = slot.value.buffered := by
  cases alteration with
  | activate => rfl
  | _ =>
    simp only [Alteration.apply, ResourceSlot.consumeGrant, ResourceSlot.startSession,
      setOutputBusy, ResourceSlot.chargeOutput, ResourceSlot.absorb]
    split
    next kind => simp [kind, ResourceValue.buffered]
    next => rfl

/-! ### The ledger under one exchange -/

namespace Ledger

variable (ledger : Ledger hub before)

include ledger

/-- One blob's length changes and the counter follows it. -/
theorem resize (found : before.resources.get? blob = some resource)
    (resources : after.resources = before.resources.modify blob update)
    (moved : after.bufferedBlobBytes + resource.value.buffered =
      before.bufferedBlobBytes + (update resource).value.buffered)
    (sketch : after.bufferedBlobBytes ≤ hub.blobLimits.maximumSketchBytes)
    (fits : (update resource).value.buffered ≤ hub.blobLimits.maximumBlobBytes)
    (sound : after.ledgerFault = false) : Ledger hub after where
  total := by
    have exchange := SortedMap.sum_modify found update fun slot => slot.value.buffered
    have counted := ledger.total
    simp only [bufferedTotal, resources] at counted ⊢
    omega
  sketch := sketch
  blobs := by
    intro token current present
    rw [resources] at present
    rcases SortedMap.modify_before present with ⟨rfl, slot, there, rfl⟩ | ⟨_, there⟩
    · cases found.symm.trans there
      exact fits
    · exact ledger.blobs there
  sound := sound

/-- The ledger depends on the resources, the counter and the latch only. -/
theorem congr (resources : after.resources = before.resources)
    (bytes : after.bufferedBlobBytes = before.bufferedBlobBytes)
    (fault : after.ledgerFault = before.ledgerFault) : Ledger hub after := by
  refine ⟨?_, bytes ▸ ledger.sketch, ?_, fault ▸ ledger.sound⟩
  · rw [bytes, ledger.total, bufferedTotal, bufferedTotal, resources]
  · intro token resource found
    exact ledger.blobs (resources ▸ found)

/-- An update that keeps every length keeps the ledger. -/
theorem modify (resources : after.resources = before.resources.modify token update)
    (bytes : after.bufferedBlobBytes = before.bufferedBlobBytes)
    (fault : after.ledgerFault = before.ledgerFault)
    (keeps : ∀ slot, before.resources.get? token = some slot →
      (update slot).value.buffered = slot.value.buffered) : Ledger hub after := by
  cases stored : before.resources.get? token with
  | none =>
    rw [SortedMap.modify_of_absent stored] at resources
    exact ledger.congr resources bytes fault
  | some resource =>
    have same := keeps resource stored
    refine ledger.resize stored resources ?_ (bytes ▸ ledger.sketch) ?_ (fault ▸ ledger.sound)
    · rw [bytes, same]
    · rw [same]
      exact ledger.blobs stored

theorem modifyResource (keeps : ∀ slot, before.resources.get? token = some slot →
      (update slot).value.buffered = slot.value.buffered) :
    Ledger hub (before.modifyResource token update) :=
  ledger.modify (modifyResource_resources before token update) rfl rfl keeps

theorem record (event : Event) : Ledger hub (before.record event) :=
  ledger.congr rfl rfl rfl

/-- A dropped resource takes exactly its bytes along. -/
theorem dropResource (token : OpaqueToken) :
    Ledger hub (before.dropResource token) := by
  cases stored : before.resources.get? token with
  | none => rwa [dropResource_absent stored]
  | some resource =>
    obtain ⟨bytes, fault, _⟩ := dropResource_found stored
    have split := SortedMap.sum_erase stored fun slot => slot.value.buffered
    have counted := ledger.total
    have bounded := ledger.sketch
    unfold bufferedTotal at counted
    refine ⟨?_, ?_, ?_, ?_⟩
    · rw [bufferedTotal, dropResource_resources]
      omega
    · rw [bytes]
      omega
    · intro other current found
      rw [dropResource_resources] at found
      exact ledger.blobs (SortedMap.erase_before found)
    · rw [fault, ledger.sound, Bool.false_or, decide_eq_false_iff_not]
      omega

/-- A published result activates or drops the resource it created. -/
theorem settleOperation (token : OpaqueToken)
    (operation : OperationSlot) (result : TerminalResult) :
    Ledger hub (before.settleOperation token operation result) := by
  have settled : Ledger hub ((before.modifyOperation token fun slot =>
      slot.settle result).record (.terminated token result)) := ledger.congr rfl rfl rfl
  rcases settleOperation_resource_cases before token operation result with
    ⟨_, equal⟩ | ⟨created, _, _, equal⟩ | ⟨created, _, _, equal⟩
  · rw [equal]
    exact settled
  · rw [equal]
    exact settled.modify (activate_resources _ created) rfl rfl fun _ _ => rfl
  · rw [equal]
    exact settled.dropResource created

/-- Bytes accepted within both limits. -/
theorem acceptBytes (found : before.resources.get? blob = some resource)
    (value : resource.value = .blob buffer false) (writer : Writer) {bytes : Bytes}
    (blobLimit : buffer.bytes.length + bytes.length ≤ hub.blobLimits.maximumBlobBytes)
    (sketchLimit : before.bufferedBlobBytes + bytes.length ≤ hub.blobLimits.maximumSketchBytes) :
    Ledger hub (before.acceptBytes blob writer bytes) := by
  apply ledger.resize found (acceptBytes_resources found value writer bytes)
  · simp only [acceptBytes_bufferedBlobBytes, value, ResourceValue.buffered,
      ByteBuffer.bytes_extend, List.length_append]
    omega
  · exact sketchLimit
  · simpa [ResourceValue.buffered] using blobLimit
  · exact ledger.sound

/-- Bytes taken out of a blob that has them. -/
theorem drainBlob (found : before.resources.get? blob = some resource)
    (value : resource.value = .blob buffer closedToWriters) (reader : Reader) {count : Nat}
    (available : count ≤ buffer.bytes.length) :
    Ledger hub (before.drainBlob blob reader buffer count) := by
  have size : resource.value.buffered = buffer.bytes.length := by rw [value]; rfl
  have within : resource.value.buffered ≤ before.bufferedTotal :=
    SortedMap.le_sum found fun slot => slot.value.buffered
  have counted := ledger.total
  have fits := ledger.blobs found
  have bounded := ledger.sketch
  apply ledger.resize found (drainBlob_resources found value reader count)
  · rw [drainBlob_bufferedBlobBytes, size]
    simp only [ResourceValue.buffered, ByteBuffer.bytes_drain, List.length_drop]
    omega
  · rw [drainBlob_bufferedBlobBytes]
    omega
  · simp only [ResourceValue.buffered, ByteBuffer.bytes_drain, List.length_drop]
    omega
  · change (before.ledgerFault || decide (before.bufferedBlobBytes < count)) = false
    rw [ledger.sound, Bool.false_or, decide_eq_false_iff_not]
    omega

end Ledger

/-- Every effect keeps the ledger. -/
theorem Ledger.effect (drawn : Drawn before) (ledger : Ledger hub before)
    (effect : Effect hub change before after) : Ledger hub after := by
  cases effect with
  | tally same =>
    have frame := core_frame same
    exact ledger.congr frame.1 (by simp [frame]) (by simp [frame])
  | takeSlot taken =>
    have frame := takeSlot_frame taken
    exact ledger.congr frame.1 (by simp [frame]) (by simp [frame])
  | create resource opened room taken scope numbered generation fresh reserved idle wire writable =>
    rename_i middle slot
    have frame := takeSlot_frame taken
    have bytes : middle.bufferedBlobBytes = before.bufferedBlobBytes := by simp [frame]
    have fault : middle.ledgerFault = before.ledgerFault := by simp [frame]
    have absent := drawn.resource_absent (Nat.lt_succ_self before.nextOpaqueToken)
    have nothing : resource.value.buffered = 0 :=
      Nat.le_zero.mp (fresh ▸ resource.value.buffered_le_retained)
    have inserted : (before.resources.insert (before.nextOpaqueToken + 1) resource).sum
        (fun slot => slot.value.buffered) = before.bufferedTotal + resource.value.buffered :=
      SortedMap.sum_insert absent resource fun slot => slot.value.buffered
    refine ⟨?_, ?_, ?_, ?_⟩
    · have counted := ledger.total
      simp only [bufferedTotal, State.record, frame.1, bytes] at counted inserted ⊢
      rw [inserted, nothing, counted, Nat.add_zero]
    · exact bytes ▸ ledger.sketch
    · intro token current found
      simp only [frame.1] at found
      rcases SortedMap.insert_before found with ⟨_, rfl⟩ | ⟨_, present⟩
      · exact nothing ▸ Nat.zero_le _
      · exact ledger.blobs present
    · exact fault ▸ ledger.sound
  | alter token alteration =>
    exact ledger.modifyResource fun slot _ => alteration.buffered_apply slot
  | sealing found usable =>
    refine Ledger.record (ledger.modifyResource fun slot _ => ?_) _
    split
    next buffer closedToWriters value => rw [value]; rfl
    next => rfl
  | encode reserved found hidden value =>
    refine ledger.modify (publishEncoded_resources _ _ _ _) rfl rfl fun slot present => ?_
    rw [found] at present
    cases present
    rw [value]
    rfl
  | overwrite position bytes found hidden value =>
    refine Ledger.record (ledger.modifyResource fun slot present => ?_) _
    rw [found] at present
    cases present
    exact buffered_withBuffer value (length_overwriteAt _ _ _)
  | claim =>
    refine Ledger.record (ledger.modifyResource fun slot _ => ?_) _
    rfl
  | reserve additional found value within bytes covers exact =>
    rename_i blob resource buffer grown closedToWriters
    have kept : Ledger hub (before.modifyResource blob fun slot => slot.withBuffer grown) := by
      refine ledger.modifyResource fun slot present => ?_
      rw [found] at present
      cases present
      exact buffered_withBuffer value (by rw [bytes])
    exact kept.congr rfl rfl rfl
  | write bytes found value room blobLimit sketchLimit =>
    exact ledger.acceptBytes found value _ blobLimit sketchLimit
  | accept waiting pending borrows input found value room blobLimit sketchLimit =>
    rename_i token blob operation resource buffer data
    have cleared : Ledger hub (before.modifyOperation token fun slot =>
        { slot with pendingBlobWrite := none }) := ledger.congr rfl rfl rfl
    exact (cleared.acceptBytes found value _ blobLimit sketchLimit).settleOperation _ _ _
  | pull count capacity found usable value available within covers exact =>
    rename_i blob resource buffer closedToWriters
    exact (ledger.drainBlob found value (if resource.committing then .commit else .native)
      available).congr rfl rfl rfl
  | answer waiting pending borrows request found value readable bytes within exact =>
    rename_i token blob operation resource buffer chunk closedToWriters maximum
    have drained := ledger.drainBlob found value (.operation token)
      (Nat.min_le_right maximum.val buffer.bytes.length)
    refine Ledger.settleOperation ?_ _ _ _
    exact drained.congr rfl rfl rfl
  | settle => exact ledger.settleOperation _ _ _
  | remove => exact ledger.congr (by simp) (by simp) (by simp)
  | revoke =>
    rename_i token resource found
    exact (ledger.dropResource token).congr rfl rfl rfl
  | discard => exact ledger.dropResource _
  | shutDown =>
    exact ⟨rfl, Nat.zero_le _, fun found => by simp [closeLocked] at found, ledger.sound⟩
  | _ =>
    exact ledger.congr rfl rfl rfl

/-- The ledger of a hub without resources. -/
theorem Ledger.initial (drawn : Nat) : Ledger hub { nextOpaqueToken := drawn } :=
  ⟨rfl, Nat.zero_le _, fun found => by simp at found, rfl⟩

/-- The ledger holds in every reachable state. -/
theorem Ledger.of_reachable {allowed : Thread → Move → State → Prop}
    (reachable : (machine hub).Reachable allowed pool) :
    Drawn pool.shared ∧ Ledger hub pool.shared :=
  reachable_preserves (fun state => Drawn state ∧ Ledger hub state) licensed_true
    (fun drawn _ => ⟨.initial drawn, .initial drawn⟩)
    (fun _ effect holds => ⟨holds.1.effect effect, holds.2.effect holds.1 effect⟩) reachable

/-- In every reachable state the counter is the sum of the buffer lengths, the
sum and each blob are within their limits, and no subtraction from the counter
has gone below zero. -/
theorem bufferedBlobBytes_exact (reachable : (machine hub).Reachable (fun _ _ _ => True) pool) :
    pool.shared.bufferedBlobBytes = pool.shared.bufferedTotal ∧
      pool.shared.bufferedTotal ≤ hub.blobLimits.maximumSketchBytes ∧
      (∀ token resource buffer closedToWriters,
        pool.shared.resources.get? token = some resource →
        resource.value = .blob buffer closedToWriters →
        buffer.bytes.length ≤ hub.blobLimits.maximumBlobBytes) ∧
      pool.shared.ledgerFault = false := by
  have ledger := (Ledger.of_reachable reachable).2
  refine ⟨ledger.total, ledger.total ▸ ledger.sketch, ?_, ledger.sound⟩
  intro token resource buffer closedToWriters found value
  have bounded := ledger.blobs found
  rwa [value] at bounded

/-- Three bytes written into a blob of the small configuration, one taken out. -/
def writtenBlob : List Turn :=
  [.run (.createBlob 0), .run (.blobWrite 0 2 [1, 2, 3]), .run (.readBlobChunk 0 2 1)]

theorem bufferedBlobBytes_writtenBlob :
    ∃ pool, (machine .small).Reachable (fun _ _ _ => True) pool ∧
      pool.shared.bufferedBlobBytes = 2 ∧ pool.shared.bufferedTotal = 2 ∧
      pool.shared.ledgerFault = false := by
  have played : Board.plays .small (fun _ _ _ => true) writtenBlob
      (fun board => board.state.bufferedBlobBytes = 2) = true := by decide +kernel
  obtain ⟨board, _, reachable, two⟩ :=
    Board.reachable_of_plays (fun _ _ _ => True) (fun _ _ _ _ => trivial) played
  obtain ⟨total, _, _, sound⟩ := bufferedBlobBytes_exact reachable
  have two : board.pool.shared.bufferedBlobBytes = 2 := of_decide_eq_true two
  exact ⟨board.pool, reachable, two, total ▸ two, sound⟩

end KernalApi.Hub
