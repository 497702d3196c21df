import KernalApi.Guest.Controller

/-!
# The permit of a root execution

A session runs one root at a time and a compiler a bounded number over all its sessions.
An acquisition that is refused changes nothing, unless it fails at the last generation of
fuel: the root is counted before the generation, and the count is not taken back.
-/

namespace KernalApi.Guest

structure ExecutionLedgerState where
  reservedSharedMemoryBytes : Nat
  activeRootExecutions : Nat
  liveGuestThreads : Nat
  liveStores : Nat
  liveInstances : Nat

def ExecutionLedgerState.acquireRoot (ledger : ExecutionLedgerState) (maximum : Nat) :
    Except SketchExecutionError ExecutionLedgerState :=
  if maximum ≤ ledger.activeRootExecutions then .error .rootExecutionLimitExceeded
  else .ok { ledger with activeRootExecutions := ledger.activeRootExecutions + 1 }

/-- A `RootExecutionPermit` is dropped. -/
def ExecutionLedgerState.dropRoot (ledger : ExecutionLedgerState) : ExecutionLedgerState :=
  { ledger with activeRootExecutions := ledger.activeRootExecutions - 1 }

/-- A session with the ledger of its compiler, and the logical permits alive. -/
structure RootSession where
  controller : ThreadController
  ledger : ExecutionLedgerState
  permits : Nat

namespace RootSession

variable (limits : SketchFuelLimits) (maximum : Nat) (session : RootSession)

def activeRoots : Nat := session.controller.session.activeRoots

def acquireRoot : Except SketchExecutionError Nat × RootSession :=
  match session.ledger.acquireRoot maximum with
  | .error _ =>
    let refused := session.controller.acquireRoot limits false
    (refused.1, { session with controller := refused.2 })
  | .ok ledger =>
    match session.controller.acquireRoot limits true with
    | (.ok generation, controller) => (.ok generation, ⟨controller, ledger, session.permits + 1⟩)
    -- The early return drops the permit of the ledger.
    | (.error .sessionGenerationExhausted, controller) =>
      (.error .sessionGenerationExhausted, { session with controller, ledger := ledger.dropRoot })
    | (.error error, controller) => (.error error, { session with controller })

/-- A `LogicalRootPermit` is dropped, and with it the permit of the ledger. -/
def dropRoot : RootSession where
  controller := { session.controller with session := { session.controller.session with
    activeRoots := session.controller.session.activeRoots - 1
    fuel := none } }
  ledger := session.ledger.dropRoot
  permits := session.permits - 1

def closeThreadedRoot : Except SketchExecutionError Unit × RootSession :=
  if session.controller.session.activeRoots ≠ 0 then (.error .sessionBusy, session)
  else (.ok (), { session with controller := { session.controller with
    session := { session.controller.session with closing := true } } })

/-- An acquisition does not fail at its generation of fuel: it is refused before it counts
one, or one is left. -/
def Orderly : Prop :=
  session.controller.session.closing = true ∨ session.activeRoots ≠ 0 ∨
    maximum ≤ session.ledger.activeRootExecutions ∨
    session.controller.session.nextFuelGeneration + 1 < 2 ^ 64

variable {session}

/-- One call on a session, or what goes on beside it: other sessions move the ledger, and
guest threads the fuel. -/
inductive Call : RootSession → RootSession → Prop
  | acquire {before : RootSession} (orderly : before.Orderly maximum) :
    Call before (before.acquireRoot limits maximum).2
  | drop {before : RootSession} (alive : 0 < before.permits) : Call before before.dropRoot
  | close {before : RootSession} : Call before before.closeThreadedRoot.2
  | elsewhere {before : RootSession} (ledger : ExecutionLedgerState) (fuel : Option FuelExecution) :
    Call before { before with ledger, controller := { before.controller with
      session := { before.controller.session with fuel } } }

variable {limits maximum}

/-- An orderly acquisition is refused without a trace or counts a root where none was; any
other fails with a root counted. -/
theorem acquireRoot_cases (limits : SketchFuelLimits) (maximum : Nat) (session : RootSession) :
    session.Orderly maximum ∧
        ((∃ error, session.acquireRoot limits maximum = (.error error, session)) ∨
          ∃ generation after, session.acquireRoot limits maximum = (.ok generation, after) ∧
            session.activeRoots = 0 ∧ after.activeRoots = 1 ∧
            after.permits = session.permits + 1 ∧ after.ledger.dropRoot = session.ledger) ∨
      ¬ session.Orderly maximum ∧ session.activeRoots = 0 ∧
        ∃ error after, session.acquireRoot limits maximum = (.error error, after) ∧
          after.activeRoots = 1 ∧ after.permits = session.permits := by
  unfold acquireRoot ThreadController.acquireRoot
  by_cases busy : session.controller.session.closing || session.controller.session.activeRoots != 0
  · have orderly : session.Orderly maximum := by
      rcases (Bool.or_eq_true _ _).mp busy with closing | active
      · exact .inl closing
      · exact .inr (.inl (bne_iff_ne.mp active))
    refine .inl ⟨orderly, .inl ⟨.sessionBusy, ?_⟩⟩
    simp only [busy]
    split <;> rfl
  have opened : session.controller.session.closing ≠ true := by simp_all
  have none : session.activeRoots = 0 := by simp_all [activeRoots]
  simp only [busy]
  by_cases capped : maximum ≤ session.ledger.activeRootExecutions
  · refine .inl ⟨.inr (.inr (.inl capped)), .inl ⟨.rootExecutionLimitExceeded, ?_⟩⟩
    simp only [ExecutionLedgerState.acquireRoot, if_pos capped]
    rfl
  simp only [ExecutionLedgerState.acquireRoot, if_neg capped]
  by_cases full : 2 ^ 64 ≤ session.controller.session.nextFuelGeneration + 1
  · simp only [full]
    have slips : ¬ session.Orderly maximum := not_or.mpr ⟨opened, not_or.mpr ⟨not_not.mpr none,
      not_or.mpr ⟨capped, Nat.not_lt.mpr full⟩⟩⟩
    exact .inr ⟨slips, none, _, _, rfl, congrArg (· + 1) none, rfl⟩
  · simp only [full]
    exact .inl ⟨.inr (.inr (.inr (Nat.not_le.mp full))),
      .inr ⟨_, _, rfl, none, congrArg (· + 1) none, rfl, rfl⟩⟩

/-- A root is counted exactly while its permit is alive. -/
def Counted (session : RootSession) : Prop :=
  session.activeRoots = session.permits ∧ session.permits ≤ 1

/-- An acquisition keeps the count exactly if it is orderly. -/
theorem Counted.acquireRoot_iff (counted : session.Counted) :
    (session.acquireRoot limits maximum).2.Counted ↔ session.Orderly maximum := by
  obtain ⟨same, single⟩ := counted
  rcases session.acquireRoot_cases limits maximum with
    ⟨orderly, ⟨error, equal⟩ | ⟨generation, after, equal, idle, busy, more, _⟩⟩ |
      ⟨slips, idle, error, after, equal, busy, free⟩ <;> rw [equal]
  · exact iff_of_true ⟨same, single⟩ orderly
  · have free : session.permits = 0 := same.symm.trans idle
    exact iff_of_true ⟨by rw [busy, more, free], by rw [more, free]⟩ orderly
  · refine iff_of_false (fun counted => ?_) slips
    have leaked : 1 = 0 := by rw [← busy, counted.1, free, ← same, idle]
    exact absurd leaked (by decide)

theorem Call.counted {after : RootSession} (call : Call limits maximum session after)
    (counted : session.Counted) : after.Counted := by
  obtain ⟨same, single⟩ := counted
  cases call with
  | acquire orderly => exact (Counted.acquireRoot_iff ⟨same, single⟩).mpr orderly
  | drop =>
    have less : session.dropRoot.activeRoots = session.activeRoots - 1 := rfl
    exact ⟨by rw [less, same]; rfl, Nat.le_trans (Nat.sub_le _ _) single⟩
  | close =>
    unfold closeThreadedRoot
    split <;> exact ⟨same, single⟩
  | elsewhere => exact ⟨same, single⟩

/-- A refused acquisition changes neither the session nor the ledger exactly if it is orderly,
dropping the permit of another restores the count and the ledger, and over any calls with orderly
acquisitions a root is counted exactly while a permit is alive, which no other acquisition keeps. -/
theorem acquireRoot_allOrNothing (limits : SketchFuelLimits) (maximum : Nat) :
    (∀ session : RootSession, (∀ error after,
      session.acquireRoot limits maximum = (.error error, after) → after = session) ↔
        session.Orderly maximum) ∧
    (∀ (session after : RootSession) (generation : Nat),
      session.acquireRoot limits maximum = (.ok generation, after) →
        after.dropRoot.activeRoots = session.activeRoots ∧ after.dropRoot.ledger = session.ledger) ∧
    ∀ start final : RootSession, start.activeRoots = 0 → start.permits = 0 →
      Relation.ReflTransGen (Call limits maximum) start final → final.Counted ∧
        ((final.acquireRoot limits maximum).2.Counted ↔ final.Orderly maximum) := by
  refine ⟨?_, ?_, ?_⟩
  · intro session
    rcases session.acquireRoot_cases limits maximum with
      ⟨orderly, ⟨_, same⟩ | ⟨_, _, same, _⟩⟩ | ⟨slips, idle, _, _, same, busy, _⟩ <;> rw [same]
    · exact iff_of_true (fun _ _ equal => (Prod.mk.inj equal).2.symm) orderly
    · exact iff_of_true nofun orderly
    · refine iff_of_false (fun unchanged => ?_) slips
      rw [unchanged _ _ rfl, idle] at busy
      cases busy
  · intro session after generation equal
    rcases session.acquireRoot_cases limits maximum with
      ⟨_, ⟨_, same⟩ | ⟨_, _, same, idle, busy, _, restored⟩⟩ | ⟨_, _, _, _, same, _⟩ <;>
      rw [same] at equal <;> cases equal
    have less : after.dropRoot.activeRoots = after.activeRoots - 1 := rfl
    exact ⟨by rw [less, busy, idle], restored⟩
  · intro start final idle none calls
    have counted : final.Counted := by
      induction calls with
      | refl => exact ⟨idle.trans none.symm, none ▸ Nat.zero_le 1⟩
      | tail _ call ih => exact call.counted ih
    exact ⟨counted, counted.acquireRoot_iff⟩

/-- A session whose counter of generations stands at a value. -/
def idle (generation : Nat) : RootSession where
  controller := ⟨⟨0, false, generation, none⟩, ⟨1, 0, 0, false, 1, 0, 0, 0, 0, [], []⟩, [], []⟩
  ledger := ⟨0, 0, 0, 0, 0⟩
  permits := 0

def fuelLimits : SketchFuelLimits := ⟨2, 1, 1, by decide⟩

/-- A root comes and goes, and the next one can come. -/
theorem acquireRoot_allOrNothing_fresh :
    ((idle 0).acquireRoot fuelLimits 1).2.dropRoot.Counted ∧
      (((idle 0).acquireRoot fuelLimits 1).2.dropRoot.acquireRoot fuelLimits 1).2.Counted := by
  have run := (acquireRoot_allOrNothing fuelLimits 1).2.2 (idle 0) _ rfl rfl
    (.tail (.single (.acquire (.inr (.inr (.inr (by decide)))))) (.drop (by decide)))
  exact ⟨run.1, run.2.mpr (.inr (.inr (.inr (by decide))))⟩

/-- At the last generation the acquisition fails with the root counted: no permit is alive and
the session stays busy. -/
theorem acquireRoot_leaks :
    ((idle (2 ^ 64 - 1)).acquireRoot fuelLimits 1).1 = .error .sessionGenerationExhausted ∧
      (idle (2 ^ 64 - 1)).activeRoots = 0 ∧
      ((idle (2 ^ 64 - 1)).acquireRoot fuelLimits 1).2.activeRoots = 1 ∧
      ((idle (2 ^ 64 - 1)).acquireRoot fuelLimits 1).2.permits = 0 ∧
      (((idle (2 ^ 64 - 1)).acquireRoot fuelLimits 1).2.acquireRoot fuelLimits 1).1 =
      .error .sessionBusy :=
  ⟨rfl, rfl, rfl, rfl, rfl⟩

end RootSession

end KernalApi.Guest
