import KernalApi.Guest.Sections
import KernalApi.Semantics.Accounting
import KernalApi.Semantics.Schedule
import Mathlib.Tactic.Abel

/-!
# The accounts of guest threads

Four accounts are kept between the controller and what its threads have in hand:
every launched child's handle is somewhere until the child has ended, the
accepted count is that of the children and of the calls on their way, every slice of fuel is left,
in hand or given to a child, and every child's outcome is stored, to come or reported.
-/

namespace KernalApi.Guest

open Semantics List Actor

variable {actor actor' root : Actor} {controller controller' : ThreadController}
  {launched : Option Actor} {tid id other : Nat} {report : List (Nat × ChildOutcome)}
  {limits : SketchFuelLimits} {allowed : Actor → Choice → ThreadController → Prop}
  {pool : Pool ThreadController Actor}

/-- The native threads whose handles a thread has in hand. -/
def Actor.handles (actor : Actor) : Multiset Nat :=
  match actor.point with
  | .recording tid => {tid}
  | .joining handles => handles
  | _ => 0

/-- A handle is in hand, stored, or not needed any more. -/
def Kept (controller : ThreadController) (inHand : Multiset Nat) : Prop :=
  ∀ tid ∈ controller.launched, tid ∈ controller.workers.handles ∨ tid ∈ controller.ended ∨
    tid ∈ inHand

theorem Point.Idle.handles (idle : actor.point.Idle) : actor.handles = 0 := by
  obtain ⟨self, generation, fuel, point⟩ := actor
  cases point <;> first | exact idle.elim | rfl

theorem Moves.kept {rest : Multiset Nat}
    (moves : Moves limits actor controller actor' controller' launched)
    (kept : Kept controller (actor.handles + rest)) :
    Kept controller' (actor'.handles + launched.elim 0 Actor.handles + rest) := by
  -- A section at whose point nothing is in hand, and which stores no handle.
  have plain : ∀ {actor' : Actor} {controller' : ThreadController}, actor.handles = 0 →
      controller'.launched = controller.launched → controller'.ended = controller.ended →
      controller'.workers.handles = controller.workers.handles →
      Kept controller' (actor'.handles + 0 + rest) := by
    intro actor' controller' nothing launched ended handles tid member
    rw [launched] at member
    rw [handles, ended, Multiset.mem_add]
    have before := kept tid member
    rw [nothing, zero_add] at before
    exact before.imp_right (Or.imp_right .inr)
  cases moves with
  | refuse asking books =>
    rcases books with rfl | rfl
    all_goals exact plain (by simp [handles, asking]) rfl rfl rfl
  | idle before _ books => exact plain before.handles books.launched books.ended books.handles
  | reject asking books =>
    exact plain (by simp [handles, asking]) books.launched books.ended books.handles
  | @launch tid fuel asking =>
    simp only [handles, asking, zero_add] at kept
    intro other member
    have recording : (actor.goto (.recording tid)).handles = {tid} := rfl
    have guest : (Actor.child actor.generation tid fuel).handles = 0 := rfl
    simp only [Option.elim_some, recording, guest, add_zero, Multiset.mem_add,
      Multiset.mem_singleton]
    rcases mem_append.mp member with old | new
    · exact (kept other old).imp_right (Or.imp_right .inr)
    · exact .inr (.inr (.inl (mem_singleton.mp new)))
  | @record tid asking =>
    intro other member
    have before := kept other member
    have recording : actor.handles = {tid} := by simp [handles, asking]
    simp only [recording, Multiset.mem_add, Multiset.mem_singleton] at before
    simp only [Multiset.mem_add, mem_append, mem_singleton]
    rcases before with stored | exited | here | there
    · exact .inl (.inl stored)
    · exact .inr (.inl exited)
    · exact .inl (.inr here)
    · exact .inr (.inr (.inr there))
  | store asking =>
    obtain ⟨_, _, workers⟩ := finish_workers controller _ _
    exact plain (by simp [handles, asking]) rfl rfl (by rw [workers])
  | exit asking =>
    simp only [handles, asking, zero_add] at kept
    intro other member
    simp only [Multiset.mem_add, mem_append]
    rcases kept other member with stored | exited | there
    · exact .inl stored
    · exact .inr (.inl (.inl exited))
    · exact .inr (.inr (.inr there))
  | close asking empty =>
    refine plain (by simp [handles, asking]) rfl rfl ?_
    exact empty.symm
  | take asking =>
    simp only [handles, asking, zero_add] at kept
    intro other member
    simp only [Option.elim_none, add_zero, Multiset.mem_add]
    rcases kept other member with stored | exited | there
    · exact .inr (.inr (.inl stored))
    · exact .inr (.inl exited)
    · exact .inr (.inr (.inr there))
  | @await handle handles asking exited =>
    intro other member
    have before := kept other member
    have joining : actor.handles = ((handle :: handles : List Nat) : Multiset Nat) := by
      simp [Actor.handles, asking]
    simp only [joining, Multiset.mem_add, Multiset.mem_coe, mem_cons] at before
    simp only [Option.elim_none, add_zero, Multiset.mem_add]
    rcases before with stored | past | (rfl | here) | there
    · exact .inl stored
    · exact .inr (.inl past)
    · exact .inr (.inl exited)
    · exact .inr (.inr (.inl here))
    · exact .inr (.inr (.inr there))
  | _ asking =>
    exact plain (by simp [handles, asking]) rfl rfl rfl

theorem handles_cases (holds : tid ∈ actor.handles) :
    actor.point = .recording tid ∨ ∃ handles, actor.point = .joining handles := by
  obtain ⟨self, generation, fuel, point⟩ := actor
  cases point with
  | recording other =>
    rw [show tid = other from Multiset.mem_singleton.mp holds]
    exact .inl rfl
  | joining handles => exact .inr ⟨handles, rfl⟩
  | _ => simp [handles] at holds

/-- Points of the root after it has found no handle left. -/
def Point.Closed : Point → Prop
  | .draining | .joined _ => True
  | _ => False

theorem rooted_of_closed (placed : root.Placed limits controller)
    (closed : root.point.Closed) : root.Rooted := by
  cases point : root.point with
  | draining | joined =>
    exact rooted_of_point point trivial (placed.ofRoot (by rw [point]; trivial))
  | _ =>
    rw [point] at closed
    exact closed.elim

/-- Beside a root that has closed, every other thread is over or never ran. -/
theorem not_launching_of_closed (valid : (guestOutline limits allowed).Valid pool)
    (running : pool.threads id = some root) (closed : root.point.Closed)
    (exited : ∀ tid ∈ pool.shared.launched, tid ∈ pool.shared.ended) (distinct : other ≠ id)
    (there : pool.threads other = some actor) {fuel : Nat} : actor.point ≠ .launching tid fuel := by
  intro launching
  have placed := valid.threads there
  cases self : actor.self with
  | none =>
    exact (valid.apart distinct there running).1
      ⟨rooted_of_point launching trivial self, rooted_of_closed (valid.threads running) closed⟩
  | some parent =>
    have ended := (placed.exited parent self).mp (exited parent (placed.own parent self).1)
    cases launching.symm.trans ended

/-- Whether a call has been counted as accepted and has not launched its child. -/
def Actor.tentative (actor : Actor) : Nat :=
  match actor.point with
  | .launching _ _ => 1
  | .undoing => 1
  | _ => 0

/-- Whether a root has drained the outcomes. -/
def Actor.reported (actor : Actor) : Nat :=
  match actor.point with
  | .joined _ => 1
  | _ => 0

/-- Until the outcomes are drained, the accepted count is that of the children and of the calls on
their way to one. -/
def Counted (controller : ThreadController) (calls : Nat × Nat) : Prop :=
  calls.2 = 0 → controller.workers.accepted = controller.launched.length + calls.1

theorem Point.Idle.untaken (idle : actor.point.Idle) :
    actor.tentative = 0 ∧ actor.reported = 0 := by
  obtain ⟨self, generation, fuel, point⟩ := actor
  cases point <;> first | exact idle.elim | exact ⟨rfl, rfl⟩

theorem Moves.counted {rest : Nat × Nat}
    (moves : Moves limits actor controller actor' controller' launched)
    (counted : Counted controller ((actor.tentative, actor.reported) + rest)) :
    Counted controller' ((actor'.tentative, actor'.reported)
      + launched.elim 0 (fun child => (child.tentative, child.reported)) + rest) := by
  -- What a section does to the three numbers is all that matters.
  have change : ∀ {point : Point} {actor' : Actor} {controller' : ThreadController},
      actor.point = point → (⟨none, 0, 0, point⟩ : Actor).reported = 0 →
      controller'.workers.accepted + controller.launched.length +
        (⟨none, 0, 0, point⟩ : Actor).tentative
        = controller.workers.accepted + controller'.launched.length + actor'.tentative →
      Counted controller' ((actor'.tentative, actor'.reported) + 0 + rest) := by
    rintro _ actor' controller' rfl (unreported : actor.reported = 0)
      (balance : _ + actor.tentative = _) none
    simp only [Prod.snd_add, Prod.fst_add, Prod.fst_zero] at none ⊢
    have before := counted (by simp only [Prod.snd_add]; omega)
    simp only [Prod.fst_add] at before
    omega
  cases moves with
  | refuse asking books =>
    rcases books with rfl | rfl
    all_goals exact change asking rfl rfl
  | @idle point _ before after books =>
    have departed : (⟨none, 0, 0, actor.point⟩ : Actor).tentative = 0 := before.untaken.1
    have arrived : (actor.goto point).tentative = 0 := (Point.Idle.untaken after).1
    apply change rfl before.untaken.2
    rw [books.accepted, books.launched, departed, arrived]
  | reject asking books =>
    apply change asking rfl
    rw [books.accepted, books.launched]
    rfl
  | accept asking =>
    apply change asking rfl
    show controller.workers.accepted + 1 + controller.launched.length + 0
      = controller.workers.accepted + controller.launched.length + 1
    omega
  | launch asking =>
    apply change asking rfl
    rw [length_append]
    rfl
  | undo asking =>
    have one : actor.tentative = 1 := by simp [tentative, asking]
    have unreported : actor.reported = 0 := by simp [reported, asking]
    intro none
    have before := counted (by simp only [Prod.snd_add] at none ⊢; omega)
    simp only [Prod.fst_add] at before ⊢
    show controller.workers.accepted - 1 = controller.launched.length + (0 + 0 + rest.1)
    omega
  | @store tid outcome asking _ =>
    apply change asking rfl
    obtain ⟨_, _, workers⟩ := finish_workers controller tid outcome
    rw [workers]
    rfl
  | drain asking =>
    intro none
    have one : (actor.goto (.joined controller.drain.1)).reported = 1 := rfl
    simp only [Prod.snd_add] at none
    omega
  | _ asking =>
    exact change asking rfl rfl

theorem Moves.launched_cases (moves : Moves limits actor controller actor' controller' launched) :
    controller'.workers.maximum = controller.workers.maximum ∧
      (controller'.launched = controller.launched ∨
        ∃ tid fuel, actor.point = .launching tid fuel ∧
          controller'.launched = controller.launched ++ [tid]) := by
  cases moves with
  | refuse _ books => rcases books with rfl | rfl <;> exact ⟨rfl, .inl rfl⟩
  | idle _ _ books | reject _ books => exact ⟨books.maximum, .inl books.launched⟩
  | launch asking => exact ⟨rfl, .inr ⟨_, _, asking, rfl⟩⟩
  | store =>
    obtain ⟨_, _, workers⟩ := finish_workers controller _ _
    exact ⟨by rw [workers], .inl rfl⟩
  | _ => exact ⟨rfl, .inl rfl⟩

/-- The children whose outcomes are to come from a thread, or were reported by it. -/
def Actor.owing (actor : Actor) : Multiset Nat :=
  match actor.point, actor.self with
  | .joined report, _ => (report.map Prod.fst : List Nat)
  | .exiting, _ => 0
  | .ended, _ => 0
  | _, some tid => {tid}
  | _, none => 0

/-- Every child's outcome is stored, to come or reported. -/
def Owed (controller : ThreadController) (owing : Multiset Nat) : Prop :=
  (controller.launched : Multiset Nat) = (controller.workers.outcomes.map Prod.fst : List Nat) +
    owing

/-- Points at which the outcome of a child is still to come. -/
def Point.Outstanding : Point → Prop
  | .joined _ | .exiting | .ended => False
  | _ => True

theorem owing_of_outstanding (outstanding : actor.point.Outstanding) :
    actor.owing = actor.self.elim 0 ({·}) := by
  obtain ⟨self, generation, fuel, point⟩ := actor
  cases point <;> first | exact outstanding.elim | (cases self <;> rfl)

theorem Point.Idle.outstanding {point : Point} (idle : point.Idle) : point.Outstanding := by
  cases point <;> first | exact idle.elim | trivial

theorem Moves.owed {rest : Multiset Nat}
    (moves : Moves limits actor controller actor' controller' launched)
    (placed : actor.Placed limits controller)
    (room : ∀ outcome, actor.point = .ending outcome →
      controller.workers.outcomes.length < controller.workers.maximum)
    (owed : Owed controller (actor.owing + rest)) :
    Owed controller' (actor'.owing + launched.elim 0 Actor.owing + rest) := by
  have plain : ∀ {before after : Point} {controller' : ThreadController}, actor.point = before →
      before.Outstanding → after.Outstanding → controller'.launched = controller.launched →
      controller'.workers.outcomes = controller.workers.outcomes →
      Owed controller' ((actor.goto after).owing + 0 + rest) := by
    rintro _ after controller' rfl outstanding stillOutstanding same outcomes
    have arrived : (actor.goto after).owing = actor.self.elim 0 ({·}) :=
      owing_of_outstanding stillOutstanding
    rw [owing_of_outstanding outstanding] at owed
    rw [Owed, same, outcomes, arrived, add_zero]
    exact owed
  have rootOwes : actor.point.Outstanding → actor.point.OfRoot → actor.owing = 0 := by
    intro outstanding ofRoot
    rw [owing_of_outstanding outstanding, placed.ofRoot ofRoot]
    rfl
  cases moves with
  | refuse asking books =>
    rcases books with rfl | rfl
    all_goals exact plain asking trivial trivial rfl rfl
  | acquire asking =>
    rw [rootOwes (by rw [asking]; trivial) (by rw [asking]; trivial)] at owed
    exact owed
  | idle before after books =>
    exact plain rfl before.outstanding after.outstanding books.launched books.outcomes
  | reject asking books => exact plain asking trivial trivial books.launched books.outcomes
  | @launch tid fuel asking =>
    have before := owing_of_outstanding (show actor.point.Outstanding by rw [asking]; trivial)
    have after : (actor.goto (.recording tid)).owing = actor.self.elim 0 ({·}) :=
      owing_of_outstanding trivial
    rw [before, Owed] at owed
    simp only [Owed, after, ← Multiset.coe_add, owed]
    abel
  | @store tid outcome asking child =>
    have before : actor.owing = {tid} := by
      rw [owing_of_outstanding (by rw [asking]; trivial), child]
      rfl
    have stored : (controller.finish tid outcome).workers.outcomes
        = controller.workers.outcomes ++ [(tid, outcome)] := by
      simp [ThreadController.finish, room outcome asking]
    rw [before] at owed
    rw [Owed, stored, show (controller.finish tid outcome).launched
      = controller.launched from rfl, owed, map_append, ← Multiset.coe_add]
    simp only [map_cons, map_nil, Multiset.coe_singleton]
    abel
  | exit asking =>
    have before : actor.owing = 0 := by simp [owing, asking]
    rw [before] at owed
    exact owed
  | drain asking =>
    have before := rootOwes (by rw [asking]; trivial) (by rw [asking]; trivial)
    have reported : (actor.goto (.joined controller.drain.1)).owing
        = ((controller.drain.1.map Prod.fst : List Nat) : Multiset Nat) := rfl
    have same : ((controller.drain.1.map Prod.fst : List Nat) : Multiset Nat)
        = (controller.workers.outcomes.map Prod.fst : List Nat) :=
          Multiset.coe_eq_coe.mpr ((perm_insertionSort _ _).map _)
    rw [before] at owed
    rw [reported, same]
    show (controller.launched : Multiset Nat) = ([] : List Nat) + _
    rw [owed]
    simp
  | _ asking =>
    exact plain asking trivial trivial rfl rfl

/-- Whether a call has a slice of fuel in hand. -/
def Actor.reserved (actor : Actor) : Nat :=
  match actor.point with
  | .accepting _ | .launching _ _ | .undoing | .refunding => 1
  | _ => 0

/-- Every slice of a root execution is left, in hand or given to a child. -/
def Sliced (limits : SketchFuelLimits) (controller : ThreadController) (reserved : Nat) : Prop :=
  (controller.session.activeRoots = 0 → controller.session.fuel = none) ∧
    (controller.session.fuel = none → controller.launched.length + reserved = 0) ∧
    ∀ fuel, controller.session.fuel = some fuel →
      fuel.remainingChildSlices + controller.launched.length + reserved = limits.childSliceCapacity

/-- A slice in hand fits back: no refund is cut off. -/
theorem Sliced.refund {rest : Nat}
    (sliced : Sliced limits controller (1 + rest))
    (session : controller'.session = controller.refundChildFuel.session)
    (launched : controller'.launched = controller.launched) :
    Sliced limits controller' (0 + 0 + rest) := by
  obtain ⟨idle, none, some⟩ := sliced
  have capacity : limits.childSliceCapacity ≤ maxGuestThreadsV1 := Nat.min_le_right _ _
  simp only [Sliced, session, launched, ThreadController.refundChildFuel]
  refine ⟨fun alone => ?_, fun absent => ?_, fun fuel found => ?_⟩
  · rw [idle alone]
    rfl
  · rw [Option.map_eq_none_iff] at absent
    have zero := none absent
    omega
  obtain ⟨before, present, rfl⟩ := Option.map_eq_some_iff.mp found
  have balance := some before present
  show min (before.remainingChildSlices + 1) maxGuestThreadsV1 + _ + _ = _
  omega

theorem Point.Idle.unreserved (idle : actor.point.Idle) : actor.reserved = 0 := by
  obtain ⟨self, generation, fuel, point⟩ := actor
  cases point <;> first | exact idle.elim | rfl

theorem Moves.sliced {rest : Nat}
    (moves : Moves limits actor controller actor' controller' launched)
    (sliced : Sliced limits controller (actor.reserved + rest)) :
    Sliced limits controller' (actor'.reserved + launched.elim 0 Actor.reserved + rest) := by
  have at' : ∀ {point : Point}, actor.point = point →
      actor.reserved = (⟨none, 0, 0, point⟩ : Actor).reserved := by
    rintro point rfl
    rfl
  have plain : ∀ {before after : Point} {controller' : ThreadController}, actor.point = before →
      (⟨none, 0, 0, before⟩ : Actor).reserved = (⟨none, 0, 0, after⟩ : Actor).reserved →
      controller'.session = controller.session → controller'.launched = controller.launched →
      Sliced limits controller' ((actor.goto after).reserved + 0 + rest) := by
    intro before after controller' here same session launched
    rw [at' here, same] at sliced
    rw [Sliced, session, launched]
    exact sliced
  cases moves with
  | refuse asking books =>
    rcases books with rfl | rfl
    · exact plain asking rfl rfl rfl
    · rw [at' asking] at sliced
      refine ⟨fun zero => absurd zero (Nat.succ_ne_zero _), ?_⟩
      exact sliced.2
  | acquire asking alone =>
    have zero := sliced.2.1 (sliced.1 alone)
    refine ⟨fun one => absurd one Nat.one_ne_zero, fun absent => (by cases absent),
      fun fuel found => ?_⟩
    cases found
    show limits.childSliceCapacity + controller.launched.length + (0 + 0 + rest) = _
    omega
  | @idle point _ before after books =>
    have departed : (⟨none, 0, 0, actor.point⟩ : Actor).reserved = 0 := Point.Idle.unreserved before
    have arrived : (⟨none, 0, 0, point⟩ : Actor).reserved = 0 := Point.Idle.unreserved after
    exact plain rfl (departed.trans arrived.symm) books.session books.launched
  | @reserve fuel asking found left =>
    rw [at' asking] at sliced
    have balance := sliced.2.2 fuel found
    refine ⟨fun alone => ?_, fun absent => (by cases absent), fun after here => ?_⟩
    · rw [sliced.1 alone] at found
      cases found
    cases here
    show fuel.remainingChildSlices - 1 + controller.launched.length + (1 + 0 + rest) = _
    have none : (⟨none, 0, 0, Point.reserving⟩ : Actor).reserved = 0 := rfl
    omega
  | reject asking books =>
    rw [at' asking] at sliced
    exact sliced.refund books.session books.launched
  | @launch tid fuel asking =>
    rw [at' asking] at sliced
    have one : (⟨none, 0, 0, Point.launching tid fuel⟩ : Actor).reserved = 1 := rfl
    have grown : (controller.launched ++ [tid]).length = controller.launched.length + 1 := by simp
    refine ⟨sliced.1, fun absent => ?_, fun after found => ?_⟩
    · have zero := sliced.2.1 absent
      omega
    · have balance := sliced.2.2 after found
      show after.remainingChildSlices + (controller.launched ++ [tid]).length + (0 + 0 + rest) = _
      omega
  | refund asking =>
    rw [at' asking] at sliced
    exact sliced.refund rfl rfl
  | _ asking =>
    exact plain asking rfl rfl rfl

/-- The slices of all children and the root's fit into the total. -/
theorem slices_le_total (limits : SketchFuelLimits) {children : Nat}
    (fits : children ≤ limits.childSliceCapacity) :
    limits.rootSlice + children * limits.childSlice ≤ limits.total := by
  obtain ⟨_, _, -, _⟩ := limits.valid
  have quotient : children ≤ (limits.total - limits.rootSlice) / limits.childSlice :=
    Nat.le_trans fits (Nat.min_le_left _ _)
  have product := Nat.le_trans (Nat.mul_le_mul_right limits.childSlice quotient)
    (Nat.div_mul_le_self _ _)
  omega

/-- Only a child that stores its outcome and the drain change the outcomes. -/
theorem Moves.outcomes_cases (moves : Moves limits actor controller actor' controller' launched) :
    (controller'.workers.outcomes = controller.workers.outcomes ∧
      ∀ report, actor'.point ≠ .joined report) ∨
      (∃ outcome, actor.point = .ending outcome ∧ ∀ report, actor'.point ≠ .joined report) ∨
      (controller'.workers.outcomes = [] ∧ actor'.point = .joined controller.drain.1) := by
  cases moves with
  | refuse _ books => rcases books with rfl | rfl <;> exact .inl ⟨rfl, fun _ here => by cases here⟩
  | @idle point _ _ after books =>
    refine .inl ⟨books.outcomes, ?_⟩
    rintro report here
    have same : point = .joined report := here
    rw [same] at after
    exact after
  | reject _ books => exact .inl ⟨books.outcomes, fun _ here => by cases here⟩
  | store asking => exact .inr (.inl ⟨_, asking, fun _ here => by cases here⟩)
  | drain => exact .inr (.inr ⟨rfl, rfl⟩)
  | _ => exact .inl ⟨rfl, fun _ here => by cases here⟩

section Reachable

variable (reachable : (guestMachine limits).Reachable allowed pool)

include reachable

/-- Every handle of a running child is stored or in some thread's hands. -/
theorem kept_of_reachable : Kept pool.shared (pool.holdings Actor.handles) := by
  apply reachable.accounts
  · intro controller initial tid member
    rw [show controller.launched = [] from initial.2.2.2.2.2.2.2.1] at member
    cases member
  · rintro _ rfl
    rfl
  · exact fun moved => moved.elim
  · intro pool id actor choice actor' controller' launched rest _ _ _ step kept
    exact (step_moves step).kept kept

/-- When the root finds no handle left, every child has ended: the handle of the first child still
running would be in the hands of the root, which has none, or of an earlier child. -/
theorem ended_of_closed (running : pool.threads id = some root) (asking : root.point = .taking)
    (empty : pool.shared.workers.handles = []) : ∀ tid ∈ pool.shared.launched,
    tid ∈ pool.shared.ended := by
  have valid := (guestOutline limits allowed).valid_of_reachable reachable
  have kept := kept_of_reachable reachable
  have rootSelf : root.self = none := (valid.threads running).ofRoot (by rw [asking]; trivial)
  have rooted : root.Rooted := rooted_of_point asking trivial rootSelf
  intro tid
  induction tid using Nat.strong_induction_on with
  | _ tid ih =>
    intro member
    rcases kept tid member with stored | exited | inHand
    · rw [empty] at stored
      cases stored
    · exact exited
    exfalso
    obtain ⟨other, holder, there, holds⟩ := Pool.exists_of_mem_holdings reachable.few inHand
    have placed := valid.threads there
    have notRoot : ¬ holder.Rooted := by
      intro alsoRooted
      by_cases same : other = id
      · subst same
        cases there.symm.trans running
        simp [handles, asking] at holds
      · exact (valid.apart same there running).1 ⟨alsoRooted, rooted⟩
    rcases handles_cases holds with recording | ⟨handles, joining⟩
    · cases self : holder.self with
      | none => exact notRoot (rooted_of_point recording trivial self)
      | some parent =>
        have earlier := placed.younger tid (by rw [recording]; rfl) parent self
        have exited := ih parent earlier (placed.own parent self).1
        rw [placed.exited parent self, recording] at exited
        cases exited
    · have self := placed.ofRoot (by rw [joining]; trivial)
      exact notRoot (rooted_of_point joining trivial self)

/-- Once the root has closed, every child has ended and they stay the only ones there are. -/
theorem over_of_closed (running : pool.threads id = some root) (closed : root.point.Closed) :
    ∀ tid ∈ pool.shared.launched, tid ∈ pool.shared.ended := by
  refine @Machine.Reachable.asserts _ _ _ (guestMachine limits) allowed
    (fun root controller => root.point.Closed → ∀ tid ∈ controller.launched, tid ∈ controller.ended)
    pool id root ?_ ?_ ?_ ?_ reachable running closed
  · rintro _ controller rfl closed
    exact closed.elim
  · exact fun _ moved => moved.elim
  · intro pool id actor choice actor' controller' launched reached there before _ step
    have moves := step_moves step
    have valid := (guestOutline limits allowed).valid_of_reachable reached
    constructor
    · -- The sections by which the root comes to a closed point leave the children as they are.
      intro closed
      cases moves with
      | close asking empty => exact ended_of_closed reached there asking empty
      | drain asking => exact before (by rw [asking]; trivial)
      | @idle point _ _ after _ =>
        cases point <;> first | exact after.elim | exact closed.elim
      | _ => exact closed.elim
    intro child member closed
    obtain ⟨_, _, _, _, _, guest⟩ := moves.child valid.shared (valid.threads there) member
    rw [guest] at closed
    exact closed.elim
  · intro pool other id actor root choice actor' controller' launched reached there distinct here
      before _ step closed tid member
    have valid := (guestOutline limits allowed).valid_of_reachable reached
    have evolves := (step_moves step).evolves
    have exited := before closed
    rcases evolves.fresh tid member with old | ⟨fuel, launching⟩
    · exact evolves.ended tid (exited tid old)
    · exact absurd launching (not_launching_of_closed valid here closed exited distinct.symm there)

theorem counted_of_reachable :
    Counted pool.shared (pool.holdings fun actor => (actor.tentative, actor.reported)) := by
  apply reachable.accounts
  · intro controller initial _
    obtain ⟨_, _, accepted, _, _, _, _, launched, _⟩ := initial
    simp [accepted, launched]
  · rintro _ rfl
    rfl
  · exact fun moved => moved.elim
  · intro pool id actor choice actor' controller' launched rest _ _ _ step counted
    exact (step_moves step).counted counted

/-- A call is accepted below the maximum only. -/
theorem accepted_le_maximum : pool.shared.workers.accepted ≤ pool.shared.workers.maximum := by
  refine @Machine.Reachable.invariant _ _ _ (guestMachine limits) allowed
    (fun controller => controller.workers.accepted ≤ controller.workers.maximum) pool
    ?_ ?_ ?_ reachable
  · intro controller initial
    rw [show controller.workers.accepted = 0 from initial.2.2.1]
    exact Nat.zero_le _
  · exact fun _ moved => moved.elim
  intro actor choice controller actor' controller' launched before _ step
  cases step_moves step with
  | refuse _ books => rcases books with rfl | rfl <;> exact before
  | idle _ _ books | reject _ books =>
    rw [books.accepted, books.maximum]
    exact before
  | accept _ room => exact room
  | undo => exact Nat.le_trans (Nat.sub_le _ _) before
  | store =>
    obtain ⟨_, _, workers⟩ := finish_workers controller _ _
    rw [workers]
    exact before
  | drain => exact Nat.zero_le _
  | _ => exact before

/-- Without a root that has drained, the accepted count is that of the children and of the calls on
their way to one. -/
theorem accepted_eq
    (open' : ∀ {id actor report}, pool.threads id = some actor → actor.point ≠ .joined report) :
    pool.shared.workers.accepted = pool.shared.launched.length + pool.holdings Actor.tentative := by
  have counted := counted_of_reachable reachable
  have none : (pool.holdings fun actor => (actor.tentative, actor.reported)).2 = 0 := by
    rw [show (pool.holdings fun actor => (actor.tentative, actor.reported)).2
      = pool.holdings reported from Pool.map_holdings (AddMonoidHom.snd Nat Nat) reachable.few]
    apply Pool.holdings_eq_zero
    intro id actor running
    cases point : actor.point with
    | joined => exact absurd point (open' running)
    | _ => simp [reported, point]
  have total : (pool.holdings fun actor => (actor.tentative, actor.reported)).1
      = pool.holdings tentative := Pool.map_holdings (AddMonoidHom.fst Nat Nat) reachable.few
  rw [counted none, total]

/-- While a call is on its way to a child, no root has drained. -/
theorem open_of_launching (running : pool.threads id = some actor) {fuel : Nat}
    (launching : actor.point = .launching tid fuel) (there : pool.threads other = some root) :
    root.point ≠ .joined report := by
  intro joined
  have closed : root.point.Closed := by rw [joined]; trivial
  have distinct : id ≠ other := by
    rintro rfl
    cases running.symm.trans there
    cases launching.symm.trans joined
  exact not_launching_of_closed ((guestOutline limits allowed).valid_of_reachable reachable) there
    closed (over_of_closed reachable there closed) distinct running launching

/-- Never more children are launched than the maximum. -/
theorem launched_le_maximum : pool.shared.launched.length ≤ pool.shared.workers.maximum := by
  refine @Machine.Reachable.induct _ _ _ (guestMachine limits) allowed
    (fun pool => pool.shared.launched.length ≤ pool.shared.workers.maximum) pool ?_ ?_ reachable
  · intro controller initial
    show controller.launched.length ≤ controller.workers.maximum
    rw [show controller.launched = [] from initial.2.2.2.2.2.2.2.1]
    exact Nat.zero_le _
  · intro pool pool' reached before next
    rcases next.shared with same | moved | ⟨id, actor, choice, actor', launched, running, _, step⟩
    · rw [same]
      exact before
    · exact moved.elim
    obtain ⟨maximum, same | ⟨tid, fuel, launching, grown⟩⟩ := (step_moves step).launched_cases
    · rw [maximum, same]
      exact before
    have count := accepted_eq reached (open_of_launching reached running launching)
    have bound := accepted_le_maximum reached
    have share : ∃ rest, pool.holdings tentative = actor.tentative + rest :=
      reached.share_le running
    have one : actor.tentative = 1 := by simp [tentative, launching]
    rw [grown, length_append, length_singleton]
    omega

theorem owed_of_reachable : Owed pool.shared (pool.holdings Actor.owing) := by
  apply reachable.accounts
  · intro controller initial
    obtain ⟨_, _, _, _, _, _, outcomes, launched, _⟩ := initial
    simp [Owed, outcomes, launched]
  · rintro _ rfl
    rfl
  · exact fun moved => moved.elim
  intro pool id actor choice actor' controller' launched rest reached running _ step owed
  have placed := ((guestOutline limits allowed).valid_of_reachable reached).threads running
  refine (step_moves step).owed placed ?_ owed
  -- The outcomes stored are those of other children, and there are at most as many children as
  -- room.
  intro outcome ending
  have bound := launched_le_maximum reached
  cases self : actor.self with
  | none => exact absurd self (placed.ofChild (by rw [ending]; trivial))
  | some tid =>
    have own : actor.owing = {tid} := by
      rw [owing_of_outstanding (by rw [ending]; trivial), self]
      rfl
    rw [own] at owed
    have sizes := congrArg Multiset.card owed
    simp only [Multiset.card_add, Multiset.coe_card, length_map, Multiset.card_singleton] at sizes
    omega

theorem sliced_of_reachable : Sliced limits pool.shared (pool.holdings Actor.reserved) := by
  apply reachable.accounts
  · intro controller initial
    obtain ⟨_, fuel, _, _, _, _, _, launched, _⟩ := initial
    simp [Sliced, fuel, launched]
  · rintro _ rfl
    rfl
  · exact fun moved => moved.elim
  · intro pool id actor choice actor' controller' launched rest _ _ _ step sliced
    exact (step_moves step).sliced sliced

/-- Beside a root that has closed, no other thread owes or stores an outcome. -/
theorem settled_of_closed (running : pool.threads id = some root) (closed : root.point.Closed)
    (distinct : other ≠ id) (there : pool.threads other = some actor) :
    actor.owing = 0 ∧ ∀ outcome, actor.point ≠ .ending outcome := by
  have valid := (guestOutline limits allowed).valid_of_reachable reachable
  have placed := valid.threads there
  cases self : actor.self with
  | none =>
    refine ⟨?_, fun outcome ending => placed.ofChild (by rw [ending]; trivial) self⟩
    have unrooted : ¬ actor.Rooted := fun rooted =>
      (valid.apart distinct there running).1 ⟨rooted,
        rooted_of_closed (valid.threads running) closed⟩
    have outstanding : actor.point.Outstanding := by
      cases point : actor.point with
      | joined report => exact unrooted (rooted_of_point point trivial self)
      | exiting | ended => exact placed.ofChild (by rw [point]; trivial) self
      | _ => trivial
    rw [owing_of_outstanding outstanding, self]
    rfl
  | some tid =>
    have exited := over_of_closed reachable running closed tid (placed.own tid self).1
    have ended := (placed.exited tid self).mp exited
    refine ⟨by simp [owing, ended], fun outcome ending => ?_⟩
    cases ended.symm.trans ending

/-- What a root reports is in the order of thread ids, and nothing is stored besides it. -/
theorem drained_of_joined
    (running : pool.threads id = some root) (joined : root.point = .joined report) :
    pool.shared.workers.outcomes = [] ∧ report.Pairwise
      (fun first second => first.1 ≤ second.1) := by
  refine @Machine.Reachable.asserts _ _ _ (guestMachine limits) allowed
    (fun root controller => ∀ report, root.point = .joined report →
      controller.workers.outcomes = [] ∧ report.Pairwise (fun first second => first.1 ≤ second.1))
    pool id root ?_ ?_ ?_ ?_ reachable running report joined
  · rintro _ controller rfl report joined
    cases joined
  · exact fun _ moved => moved.elim
  · intro pool id actor choice actor' controller' launched reached there before _ step
    have moves := step_moves step
    have valid := (guestOutline limits allowed).valid_of_reachable reached
    constructor
    · intro report joined
      rcases moves.outcomes_cases with ⟨_, never⟩ | ⟨_, _, never⟩ | ⟨empty, here⟩
      · exact absurd joined (never report)
      · exact absurd joined (never report)
      · cases here.symm.trans joined
        exact ⟨empty, pairwise_insertionSort _ _⟩
    · intro child member report joined
      obtain ⟨_, _, _, _, _, guest⟩ := moves.child valid.shared (valid.threads there) member
      cases guest.symm.trans joined
  · intro pool other id actor root choice actor' controller' launched reached there distinct here
      before _ step report joined
    have closed : root.point.Closed := by rw [joined]; trivial
    have settled := settled_of_closed reached here closed distinct.symm there
    obtain ⟨empty, sorted⟩ := before report joined
    refine ⟨?_, sorted⟩
    rcases (step_moves step).outcomes_cases with ⟨same, _⟩ | ⟨outcome, ending, _⟩ | ⟨drained, _⟩
    · rw [same, empty]
    · exact absurd ending (settled.2 outcome)
    · exact drained

/-- What the root reports when it has joined every child. -/
theorem report_of_joined
    (running : pool.threads id = some root) (joined : root.point = .joined report) :
    (report.map Prod.fst).Perm pool.shared.launched ∧ (report.map Prod.fst).Pairwise (· < ·) := by
  have closed : root.point.Closed := by rw [joined]; trivial
  obtain ⟨empty, sorted⟩ := drained_of_joined reachable running joined
  have owed := owed_of_reachable reachable
  have alone : pool.holdings owing = root.owing :=
    Pool.holdings_eq_of_alone reachable.few running
      fun distinct there => (settled_of_closed reachable running closed distinct there).1
  have own : root.owing = (report.map Prod.fst : List Nat) := by simp [owing, joined]
  rw [Owed, alone, own, empty] at owed
  have perm : (report.map Prod.fst).Perm pool.shared.launched := (Multiset.coe_eq_coe.mp owed).symm
  have nodup := perm.nodup_iff.mpr
    ((guestOutline limits allowed).valid_of_reachable reachable).shared.nodup
  refine ⟨perm, ?_⟩
  have ordered : (report.map Prod.fst).Pairwise (· ≤ ·) := pairwise_map.mpr sorted
  exact (ordered.and nodup).imp fun both => Nat.lt_of_le_of_ne both.1 both.2

theorem launched_le_capacity : pool.shared.launched.length ≤ limits.childSliceCapacity := by
  obtain ⟨_, none, some⟩ := sliced_of_reachable reachable
  cases found : pool.shared.session.fuel with
  | none =>
    have zero := none found
    omega
  | some fuel =>
    have balance := some fuel found
    omega

end Reachable

/-- No call holds a slice of fuel, and the outcomes have not been drained. -/
def Calm (pool : Pool ThreadController Actor) : Prop :=
  ∀ {id actor}, pool.threads id = some actor → actor.reserved = 0 ∧
    ∀ report, actor.point ≠ .joined report

theorem Calm.accepted (calm : Calm pool)
    (reachable : (guestMachine limits).Reachable allowed pool) :
    pool.shared.workers.accepted = pool.shared.launched.length := by
  have none : pool.holdings tentative = 0 := by
    refine Pool.holdings_eq_zero fun {id actor} running => ?_
    have unreserved := (calm running).1
    cases point : actor.point <;> simp_all [tentative, reserved]
  have count := accepted_eq reachable fun running => (calm running).2 _
  rw [count, none, add_zero]

theorem Calm.remaining (calm : Calm pool) (reachable : (guestMachine limits).Reachable allowed pool)
    {fuel : FuelExecution} (found : pool.shared.session.fuel = some fuel) :
    fuel.remainingChildSlices + pool.shared.launched.length = limits.childSliceCapacity := by
  have none : pool.holdings reserved = 0 := Pool.holdings_eq_zero fun running => (calm running).1
  have balance := (sliced_of_reachable reachable).2.2 fuel found
  rw [none] at balance
  exact balance

/-- Thread ids are given out once, and no more children are accepted than the maximum. The root's
`join_completed` returns when every child has ended, with one outcome for each in the order of their
ids. The root's slice and the children's fit into the total. The accepted count is that of the
children and of the calls on their way to one, every slice is left, given or in the hands of a call,
and so calls that are rejected leave both counts as they were. -/
theorem guest_threads_accounted (limits : SketchFuelLimits) {pool : Pool ThreadController Actor}
    (reachable : (guestMachine limits).Reachable (fun _ _ _ => True) pool) :
    (pool.shared.launched.Nodup ∧
      (∀ {id actor tid fuel}, pool.threads id = some actor → actor.point = .launching tid fuel →
        tid ∉ pool.shared.launched) ∧
      ∀ {first second left right tid fuel fuel'}, first ≠ second → pool.threads first = some left →
        pool.threads second = some right → left.point = .launching tid fuel →
        right.point ≠ .launching tid fuel') ∧
    (pool.shared.workers.accepted ≤ pool.shared.workers.maximum ∧
      pool.shared.launched.length ≤ pool.shared.workers.maximum) ∧
    (∀ {id root report}, pool.threads id = some root → root.point = .joined report →
      (∀ tid ∈ pool.shared.launched, tid ∈ pool.shared.ended) ∧
        (report.map Prod.fst).Perm pool.shared.launched ∧ (report.map Prod.fst).Pairwise (· < ·)) ∧
    (limits.rootSlice + pool.shared.launched.length * limits.childSlice ≤ limits.total ∧
      (∀ {id actor}, pool.threads id = some actor → actor.Rooted → actor.fuel = limits.rootSlice) ∧
      ∀ {id actor tid}, pool.threads id = some actor → actor.self = some tid →
        tid ∈ pool.shared.launched ∧ actor.fuel = limits.childSlice) ∧
    ((∀ {id actor report}, pool.threads id = some actor → actor.point ≠ .joined report) →
      pool.shared.workers.accepted = pool.shared.launched.length + pool.holdings Actor.tentative) ∧
    (∀ fuel, pool.shared.session.fuel = some fuel →
      fuel.remainingChildSlices + pool.shared.launched.length + pool.holdings Actor.reserved
        = limits.childSliceCapacity) ∧
    ∀ {pool'}, (guestMachine limits).Runs (fun _ _ _ => True) pool pool' → Calm pool → Calm pool' →
      pool'.shared.launched = pool.shared.launched →
      pool'.shared.workers.accepted = pool.shared.workers.accepted ∧
        ∀ fuel fuel', pool.shared.session.fuel = some fuel →
          pool'.shared.session.fuel = some fuel' →
          fuel'.remainingChildSlices = fuel.remainingChildSlices := by
  have valid := (guestOutline limits (fun _ _ _ => True)).valid_of_reachable reachable
  refine ⟨⟨valid.shared.nodup, ?_, ?_⟩,
    ⟨accepted_le_maximum reachable, launched_le_maximum reachable⟩, ?_,
    ⟨slices_le_total limits (launched_le_capacity reachable), ?_, ?_⟩, accepted_eq reachable,
    (sliced_of_reachable reachable).2.2, ?_⟩
  · exact fun running launching => ((valid.threads running).launching _ _ launching).1
  · exact fun distinct left right here => (valid.apart distinct left right).2.2 _ _ _ here
  · intro id root report running joined
    refine ⟨?_, report_of_joined reachable running joined⟩
    exact over_of_closed reachable running (by rw [joined]; trivial)
  · exact fun running rooted => ((valid.threads running).rooted rooted).2
  · exact fun running self => (valid.threads running).own _ self
  intro pool' runs calm calm' same
  have reachable' := reachable.runs runs
  constructor
  · rw [calm.accepted reachable, calm'.accepted reachable', same]
  intro fuel fuel' found found'
  have before := calm.remaining reachable found
  have after := calm'.remaining reachable' found'
  rw [same] at after
  omega

/-- The fuel a sketch has by default. -/
def SketchFuelLimits.default : SketchFuelLimits := ⟨1700000, 100000, 100000, by decide⟩

def ThreadController.new (maximum : Nat) : ThreadController :=
  { session := ⟨0, false, 0, none⟩
    workers := ⟨1, 0, 0, false, maximum, 0, 0, 0, 0, [], []⟩
    launched := []
    ended := [] }

/-- The root spawns a child, the operating system refuses a second one, and the root joins. -/
def spawnAndJoin : List (Turn Actor Choice) :=
  [.enter .newRoot, .step 0 .grant,
   .step 0 .spawn, .step 0 .grant, .step 0 .proceed, .step 0 .proceed, .step 0 .grant,
     .step 0 .proceed,
   .step 0 .proceed,
   .step 0 .spawn, .step 0 .grant, .step 0 .proceed, .step 0 .proceed, .step 0 .deny,
     .step 0 .proceed,
   .step 0 .proceed, .step 0 .proceed,
   .step 1 (.finish .completed), .step 1 .proceed, .step 1 .proceed,
   .step 0 .join, .step 0 .proceed, .step 0 .proceed, .step 0 .proceed, .step 0 .proceed,
     .step 0 .proceed]

/-- The one child of this run is reported once, and the second call was given back what it took. -/
theorem guest_threads_accounted_spawnAndJoin :
    ∃ pool root, (guestMachine .default).Reachable (fun _ _ _ => True) pool ∧
      pool.threads 0 = some root ∧ root.point = .joined [(1, .completed)] ∧
      pool.shared.launched = [1] ∧ (∀ tid ∈ pool.shared.launched, tid ∈ pool.shared.ended) ∧
      ∃ fuel, pool.shared.session.fuel = some fuel ∧ fuel.remainingChildSlices = 15 := by
  obtain ⟨board, played, ⟨root, running, joined⟩, launched, remaining⟩ : ∃ board,
      (⟨.new 16, []⟩ : Board ThreadController Actor).play (step .default)
        (fun _ _ _ => true) spawnAndJoin = some board ∧
      (∃ root, board.threads[0]? = some root ∧ root.point = .joined [(1, .completed)]) ∧
      board.shared.launched = [1] ∧
      ∃ fuel, board.shared.session.fuel = some fuel ∧ fuel.remainingChildSlices = 15 :=
    ⟨_, rfl, ⟨_, rfl, rfl⟩, rfl, _, rfl, rfl⟩
  have reachable : (guestMachine .default).Reachable (fun _ _ _ => True) board.pool := by
    refine Board.reachable_of_play id (fun _ => trivial) ?_ ⟨.new 16, ?_, .refl⟩ played
    · intro actor member
      have root : actor = .newRoot := by simpa [spawnAndJoin, Board.entering] using member
      exact root
    · exact ⟨rfl, rfl, rfl, rfl, rfl, rfl, rfl, rfl, rfl⟩
  exact ⟨board.pool, root, reachable, running, joined, launched,
    ((guest_threads_accounted .default reachable).2.2.1 running joined).1, remaining⟩

end KernalApi.Guest
