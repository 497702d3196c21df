import KernalApi.Hub.Invariant
import KernalApi.Hub.Schedule

/-!
# The bound on transfer capacity

Every effect that raises what is held is guarded by a test against the transfer
limit or a smaller one, and records the new peak. With an allocator that grants
exactly what is asked, and write copies of exactly their length, the charged
capacity never exceeds the recorded peak nor the peak the limit.
-/

namespace KernalApi.Hub

open KernalApi.Std Semantics State

variable {hub : OperationHub} {change : Change} {before after : State}

/-- The copy made for a submitted write has exactly the announced length. -/
def ExactCopies (_ : Thread) (move : Move) (_ : State) : Prop :=
  ∀ operation length copy, move = .locked (.stageWrite operation length copy) →
    copy.capacity = length

/-! ### What the raising effects hold -/

/-- Only the raising effects move the recorded peak. -/
theorem Effect.peak_eq (effect : Effect hub change before after)
    (lowering : change.raising = false) :
    after.peakRetainedTransferCapacity = before.peakRetainedTransferCapacity := by
  cases effect with
  | tally same => simp [core_frame same]
  | takeSlot taken | create resource opened room taken => simp [takeSlot_frame taken]
  | stage | reserve | pull | answer | charge => cases lowering
  | remove | settle | accept | revoke | discard => simp
  | _ => rfl

/-- Updating one operation adds at most what the update adds to it. -/
theorem State.held_modifyOperation_add {state : State} {token : OpaqueToken}
    {update : OperationSlot → OperationSlot} {amount : Nat}
    (adds : ∀ slot : OperationSlot, (update slot).retained ≤ slot.retained + amount) :
    (state.modifyOperation token update).held ≤ state.held + amount := by
  have more : (state.operations.modify token update).sum OperationSlot.retained ≤
      state.operations.sum OperationSlot.retained + amount := by
    cases found : state.operations.get? token with
    | none =>
      rw [SortedMap.modify_of_absent found]
      exact Nat.le_add_right _ _
    | some operation =>
      have exchange := SortedMap.sum_modify found update OperationSlot.retained
      have grown := adds operation
      omega
  simp only [held, modifyOperation]
  omega

/-- A grown blob adds exactly its growth. -/
theorem State.held_grow {state : State} {blob : OpaqueToken} {resource : ResourceSlot}
    {buffer grown : ByteBuffer} {closedToWriters : Bool}
    (found : state.resources.get? blob = some resource)
    (value : resource.value = .blob buffer closedToWriters) :
    (state.modifyResource blob fun slot => slot.withBuffer grown).held + buffer.capacity =
      state.held + grown.capacity := by
  have exchange := SortedMap.sum_modify found (fun slot => slot.withBuffer grown)
    fun slot => slot.value.retained
  have old : resource.value.retained = buffer.capacity := by rw [value]; rfl
  have new : (resource.withBuffer grown).value.retained = grown.capacity := by
    rw [ResourceSlot.withBuffer_blob value]
    rfl
  simp only [held, modifyResource]
  omega

/-- Draining a blob never raises the capacity of the resources. -/
theorem State.retained_drain_le {state : State} {blob : OpaqueToken} {resource : ResourceSlot}
    {buffer : ByteBuffer} {closedToWriters : Bool}
    (found : state.resources.get? blob = some resource)
    (value : resource.value = .blob buffer closedToWriters) (reader : Reader) (count : Nat) :
    (state.drainBlob blob reader buffer count).resources.sum (fun slot => slot.value.retained) ≤
      state.resources.sum fun slot => slot.value.retained := by
  rw [drainBlob_resources found value]
  refine SortedMap.sum_modify_le fun slot present => ?_
  rw [found] at present
  cases present
  rw [value]
  unfold ByteBuffer.drain
  split
  · exact Nat.zero_le _
  exact Nat.le_refl _

/-! ### The bound -/

/-- The charged capacity is below the peak, and the peak below the limit. -/
structure TransferBound (hub : OperationHub) (state : State) : Prop where
  charged : state.transferCapacity ≤ state.peakRetainedTransferCapacity
  limited : state.peakRetainedTransferCapacity ≤ hub.blobLimits.maximumTransferBytes

namespace TransferBound

/-- An effect that records the peak after adding what its test admitted. -/
theorem recorded (bound : TransferBound hub before) {amount limit : Nat} {state : State}
    (within : saturatingAdd before.transferCapacity amount ≤ limit)
    (limited : limit ≤ hub.blobLimits.maximumTransferBytes)
    (peak : state.peakRetainedTransferCapacity = before.peakRetainedTransferCapacity)
    (held : state.held ≤ before.held + amount) :
    TransferBound hub state.recordTransferCapacity := by
  have same : state.recordTransferCapacity.transferCapacity = state.transferCapacity := rfl
  have charged : state.transferCapacity ≤ saturatingAdd before.transferCapacity amount := by
    rw [transferCapacity_eq, saturatingAdd_transferCapacity]
    omega
  constructor
  · rw [same]
    exact Nat.le_max_right _ _
  · rw [recordTransferCapacity_peakRetainedTransferCapacity, peak]
    exact Nat.max_le.mpr ⟨bound.limited, (charged.trans within).trans limited⟩

/-- An effect that raises the peak by what it takes out of a blob. -/
theorem taken (bound : TransferBound hub before) {amount : Nat}
    (within : saturatingAdd before.transferCapacity amount ≤ hub.blobLimits.maximumTransferBytes)
    (peak : after.peakRetainedTransferCapacity =
      max before.peakRetainedTransferCapacity (saturatingAdd before.transferCapacity amount))
    (held : after.held ≤ before.held + amount) : TransferBound hub after := by
  have charged : after.transferCapacity ≤ saturatingAdd before.transferCapacity amount := by
    rw [transferCapacity_eq, saturatingAdd_transferCapacity]
    omega
  constructor
  · rw [peak]
    exact charged.trans (Nat.le_max_right _ _)
  · rw [peak]
    exact Nat.max_le.mpr ⟨bound.limited, within⟩

end TransferBound

/-- Every effect keeps the bound when the allocator and the copies are exact. -/
theorem TransferBound.effect (exact : hub.allocator.Exact) (bound : TransferBound hub before)
    (copies : ∀ token length copy, change = .stage token length copy → copy.capacity = length)
    (effect : Effect hub change before after) : TransferBound hub after := by
  have lowered : change.raising = false → TransferBound hub after := by
    intro lowering
    have peak := effect.peak_eq lowering
    have charged := transferCapacity_mono (effect.held_le lowering)
    exact ⟨peak ▸ charged.trans bound.charged, peak ▸ bound.limited⟩
  have writeLimited : hub.blobLimits.writeTransferBytes ≤ hub.blobLimits.maximumTransferBytes :=
    Nat.sub_le _ _
  have sketchLimited : hub.blobLimits.maximumSketchBytes ≤ hub.blobLimits.maximumTransferBytes := by
    have covers := hub.blobLimits.transferCovers
    omega
  cases effect with
  | stage length copy found pending within =>
    have size := copies _ length copy rfl
    refine bound.recorded within writeLimited rfl (held_modifyOperation_add fun slot => ?_)
    simp only [OperationSlot.retained, Option.elim_some]
    omega
  | reserve additional found value within bytes covers exactly =>
    rename_i blob resource buffer grown closedToWriters
    have size := exactly exact
    have growth := @held_grow before blob resource buffer grown closedToWriters found value
    refine bound.recorded within writeLimited rfl ?_
    omega
  | pull count capacity found usable value available within covers exactly =>
    rename_i blob resource buffer closedToWriters
    have size := exactly exact
    subst size
    apply bound.taken within rfl
    have fewer := retained_drain_le found value
      (if resource.committing then .commit else .native) capacity
    simp only [held, drainBlob_operations, drainBlob_reservedProcessOutputBytes,
      drainBlob_reservedNativeProcessOutputBytes]
    omega
  | answer waiting pending borrows request found value readable bytes within exactly =>
    rename_i token blob operation resource buffer chunk closedToWriters maximum
    have size := exactly exact
    rw [← size] at within
    apply bound.taken within (by simp)
    refine (held_settleOperation_le _ _ _ _).trans ?_
    have fewer := retained_drain_le found value (.operation token)
      (min maximum.val buffer.bytes.length)
    refine (held_modifyOperation_add fun slot => ?_).trans
      (Nat.add_le_add_right ?_ chunk.capacity)
    · simp only [OperationSlot.retained, Option.elim_some]
      omega
    · simp only [held, drainBlob_operations, drainBlob_nativeTransferCapacity,
        drainBlob_reservedProcessOutputBytes, drainBlob_reservedNativeProcessOutputBytes]
      omega
  | charge chunks output processes within =>
    refine bound.recorded within sketchLimited rfl ?_
    simp only [held]
    omega
  | _ => exact lowered rfl

/-- The recorded peak only grows. -/
theorem Effect.peak_le (effect : Effect hub change before after) :
    before.peakRetainedTransferCapacity ≤ after.peakRetainedTransferCapacity := by
  have lowered : change.raising = false →
      before.peakRetainedTransferCapacity ≤ after.peakRetainedTransferCapacity := fun lowering =>
    Nat.le_of_eq (effect.peak_eq lowering).symm
  cases effect with
  | stage | reserve | pull | charge => exact Nat.le_max_left _ _
  | answer =>
    rw [(settleOperation_frame _ _ _ _).2.2.2.2.2.1]
    exact Nat.le_max_left _ _
  | _ => exact lowered rfl

/-- The effects of runs with exact copies. -/
theorem licensed_exactCopies : Licensed hub ExactCopies fun change =>
    ∀ token length copy, change = .stage token length copy → copy.capacity = length := by
  refine ⟨by simp, ?_⟩
  intro thread choice section' state change copies moves writes token length copy name
  subst name
  exact copies token length copy (by rw [Section.writes_stage writes])

/-- With an exact allocator and exact copies, the charged capacity of every
reachable state is within the limit, and the recorded peak is within the limit
and bounds the charged capacity of every earlier state. -/
theorem transferCapacity_le_peak (exact : hub.allocator.Exact) {pool later : Pool State Thread}
    (reachable : (machine hub).Reachable ExactCopies pool)
    (runs : (machine hub).Runs ExactCopies pool later) :
    pool.shared.transferCapacity ≤ hub.blobLimits.maximumTransferBytes ∧
      pool.shared.transferCapacity ≤ later.shared.peakRetainedTransferCapacity ∧
      later.shared.peakRetainedTransferCapacity ≤ hub.blobLimits.maximumTransferBytes := by
  have bounded : ∀ {pool}, (machine hub).Reachable ExactCopies pool →
      TransferBound hub pool.shared := by
    refine reachable_preserves (TransferBound hub) licensed_exactCopies ?_ ?_
    · intro drawn _
      exact ⟨Nat.le_of_eq rfl, Nat.zero_le _⟩
    · exact fun copies effect bound => bound.effect exact copies effect
  have peaks : pool.shared.peakRetainedTransferCapacity ≤
      later.shared.peakRetainedTransferCapacity :=
    runs_relate (fun before after => before.peakRetainedTransferCapacity ≤
      after.peakRetainedTransferCapacity) licensed_exactCopies (fun _ => Nat.le_refl _)
      Nat.le_trans (fun _ effect => effect.peak_le) runs
  have now := bounded reachable
  exact ⟨now.charged.trans now.limited, now.charged.trans peaks,
    (bounded (reachable.runs runs)).limited⟩

/-- The test of exact copies. -/
def copiesExactly : Thread → Move → State → Bool
  | _, .locked (.stageWrite _ length copy), _ => copy.capacity == length
  | _, _, _ => true

theorem copiesExactly_sound : Board.Sound copiesExactly ExactCopies := by
  intro thread move state passed operation length copy moves
  subst moves
  exact eq_of_beq passed

/-- Two writes of four bytes, the second of which has to wait, and a chunk of
three bytes taken out of the blob. -/
def waitingWrite : List Turn :=
  [.run (.createBlob 0), .run (.submitBlobWrite 0 2 4 (.ofBytes [1, 2, 3, 4])),
    .run (.submitBlobWrite 0 2 4 (.ofBytes [5, 6, 7, 8])), .run (.readBlobChunk 0 2 3)]

theorem transferCapacity_waitingWrite :
    ∃ pool, (machine .small).Reachable ExactCopies pool ∧ pool.shared.transferCapacity = 11 ∧
      pool.shared.transferCapacity ≤ pool.shared.peakRetainedTransferCapacity ∧
      pool.shared.peakRetainedTransferCapacity ≤ 28 := by
  have played : Board.plays .small copiesExactly waitingWrite
      (fun board => board.state.transferCapacity = 11) = true := by decide +kernel
  obtain ⟨board, _, reachable, goal⟩ :=
    Board.reachable_of_plays ExactCopies copiesExactly_sound played
  have exact_ : Allocator.exact.Exact :=
    ⟨fun granted => (Option.some.inj granted).symm, fun _ _ => rfl⟩
  have bounded := transferCapacity_le_peak exact_ reachable .refl
  exact ⟨board.pool, reachable, of_decide_eq_true goal, bounded.2⟩

end KernalApi.Hub
