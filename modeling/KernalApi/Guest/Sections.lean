import KernalApi.Guest.Controller

/-!
# What a guest thread's section can do

`Moves` lists the sections by what they do to the books of the controller: the
rejection counters apart, every section either leaves them alone or is one of the few that
change them.
-/

namespace KernalApi.Guest

open List

variable {other : Actor} {point : Point}

/-- Two controllers that differ in rejection counters only. -/
structure SameBooks (before after : ThreadController) : Prop where
  session : after.session = before.session
  launched : after.launched = before.launched
  ended : after.ended = before.ended
  nextTid : after.workers.nextTid = before.workers.nextTid
  accepted : after.workers.accepted = before.workers.accepted
  maximum : after.workers.maximum = before.workers.maximum
  handles : after.workers.handles = before.workers.handles
  outcomes : after.workers.outcomes = before.workers.outcomes

theorem SameBooks.refl (controller : ThreadController) : SameBooks controller controller :=
  ⟨rfl, rfl, rfl, rfl, rfl, rfl, rfl, rfl⟩

/-- Points at which a thread runs guest code or is in a call that has taken nothing. -/
def Point.Idle : Point → Prop
  | .guest | .spawning | .reserving | .epochRejected | .fuelRejected | .answered _ => True
  | _ => False

/-- The sections of a guest thread. -/
inductive Moves (limits : SketchFuelLimits) (actor : Actor) (controller : ThreadController) :
    Actor → ThreadController → Option Actor → Prop where
  | refuse {error : SketchExecutionError} {controller' : ThreadController}
    (asking : actor.point = .acquire)
      (books : controller' = controller ∨ controller' = { controller with session :=
        { controller.session with activeRoots := controller.session.activeRoots + 1 } }) :
      Moves limits actor controller (actor.goto (.refused error)) controller' none
  | acquire {generation : Nat} (asking : actor.point = .acquire)
      (alone : controller.session.activeRoots = 0) :
      Moves limits actor controller ⟨none, generation, limits.rootSlice, .guest⟩
        { controller with session := { controller.session with
          activeRoots := 1
          nextFuelGeneration := generation
          fuel := some ⟨generation, limits.childSliceCapacity, limits.childSlice⟩ } } none
  | idle {point : Point} {controller' : ThreadController} (before : actor.point.Idle)
      (after : point.Idle) (books : SameBooks controller controller') :
      Moves limits actor controller (actor.goto point) controller' none
  | reserve {fuel : FuelExecution} (asking : actor.point = .reserving)
      (found : controller.session.fuel = some fuel) (left : fuel.remainingChildSlices ≠ 0) :
      Moves limits actor controller (actor.goto (.accepting fuel.childSlice))
        { controller with session := { controller.session with
          fuel := some { fuel with remainingChildSlices := fuel.remainingChildSlices - 1 } } } none
  | reject {fuel : Nat} {controller' : ThreadController} (asking : actor.point = .accepting fuel)
      (books : SameBooks controller.refundChildFuel controller') :
      Moves limits actor controller (actor.goto (.answered none)) controller' none
  | accept {fuel : Nat} (asking : actor.point = .accepting fuel)
      (room : controller.workers.accepted < controller.workers.maximum) :
      Moves limits actor controller (actor.goto (.launching controller.workers.nextTid fuel))
        { controller with workers := { controller.workers with
          nextTid := controller.workers.nextTid + 1
          accepted := controller.workers.accepted + 1
          live := controller.workers.live + 1 } } none
  | launch {tid : Nat} {fuel : Nat} (asking : actor.point = .launching tid fuel) :
      Moves limits actor controller (actor.goto (.recording tid))
        { controller with launched := controller.launched ++ [tid] }
        (some (.child actor.generation tid fuel))
  | fail {tid : Nat} {fuel : Nat} (asking : actor.point = .launching tid fuel) :
      Moves limits actor controller (actor.goto .undoing) controller none
  | record {tid : Nat} (asking : actor.point = .recording tid) :
      Moves limits actor controller (actor.goto (.answered (some tid)))
        { controller with workers := { controller.workers with
          handles := controller.workers.handles ++ [tid] } } none
  | undo (asking : actor.point = .undoing) :
      Moves limits actor controller (actor.goto .refunding) controller.undo none
  | refund (asking : actor.point = .refunding) :
      Moves limits actor controller (actor.goto (.answered none)) controller.refundChildFuel none
  | finish {tid : Nat} {outcome : ChildOutcome} (running : actor.point = .guest)
    (child : actor.self = some tid) :
      Moves limits actor controller (actor.goto (.ending outcome)) controller none
  | store {tid : Nat} {outcome : ChildOutcome} (asking : actor.point = .ending outcome)
    (child : actor.self = some tid) :
      Moves limits actor controller (actor.goto .exiting) (controller.finish tid outcome) none
  | exit {tid : Nat} (asking : actor.point = .exiting) (child : actor.self = some tid) :
      Moves limits actor controller (actor.goto .ended)
        { controller with ended := controller.ended ++ [tid] } none
  | join (running : actor.point = .guest) (root : actor.self = none) :
      Moves limits actor controller (actor.goto .taking) controller none
  | close (asking : actor.point = .taking) (empty : controller.workers.handles = []) :
      Moves limits actor controller (actor.goto .draining) controller.takeHandles.2 none
  | take (asking : actor.point = .taking) :
      Moves limits actor controller (actor.goto (.joining controller.workers.handles))
        controller.takeHandles.2 none
  | retake (asking : actor.point = .joining []) :
      Moves limits actor controller (actor.goto .taking) controller none
  | await {handle : Nat} {handles : List Nat} (asking : actor.point = .joining (handle :: handles))
      (exited : handle ∈ controller.ended) :
      Moves limits actor controller (actor.goto (.joining handles)) controller none
  | drain (asking : actor.point = .draining) :
      Moves limits actor controller (actor.goto (.joined controller.drain.1)) controller.drain.2
        none

variable {limits : SketchFuelLimits} {controller controller' : ThreadController}
  {actor actor' : Actor} {launched : Option Actor}

/-- Asking for a root execution is refused, or it starts one when there is none. -/
theorem acquired_moves {actor : Actor} (asking : actor.point = .acquire) (permitted : Bool)
    (taken : Actor.step.acquired limits actor (controller.acquireRoot limits permitted)
      = (actor', controller', launched)) : Moves limits actor controller actor' controller'
        launched := by
  unfold ThreadController.acquireRoot at taken
  dsimp only at taken
  split at taken
  · cases taken
    exact .refuse asking (.inl rfl)
  rename_i free
  split at taken
  · cases taken
    exact .refuse asking (.inl rfl)
  split at taken
  · cases taken
    exact .refuse asking (.inr rfl)
  have alone : controller.session.activeRoots = 0 := by
    simp only [Bool.or_eq_true, bne_iff_ne, not_or, not_not] at free
    exact free.2
  rw [alone] at taken
  cases taken
  exact .acquire asking alone

/-- Every section is one of the listed moves. -/
theorem Actor.step_moves {choice : Choice}
    (taken : actor.step limits choice controller = some (actor', controller', launched)) :
    Moves limits actor controller actor' controller' launched := by
  have idle : ∀ {before}, actor.point = before → before.Idle → actor.point.Idle := by
    rintro before rfl here
    exact here
  unfold Actor.step at taken
  split at taken
  case h_1 asking => exact acquired_moves asking true (Option.some.inj taken)
  case h_2 asking => exact acquired_moves asking false (Option.some.inj taken)
  case h_3 asking | h_4 asking | h_5 asking | h_15 asking =>
    cases taken
    exact .idle (idle asking trivial) trivial (.refl _)
  case h_6 asking | h_8 asking =>
    cases taken
    exact .idle (idle asking trivial) trivial ⟨rfl, rfl, rfl, rfl, rfl, rfl, rfl, rfl⟩
  case h_7 asking =>
    simp only [ThreadController.reserveChildFuel] at taken
    cases found : controller.session.fuel with
    | none =>
      simp only [found] at taken
      cases taken
      exact .idle (idle asking trivial) trivial (.refl _)
    | some fuel =>
      simp only [found] at taken
      split_ifs at taken with stale spent <;> cases taken
      · exact .idle (idle asking trivial) trivial (.refl _)
      · exact .idle (idle asking trivial) trivial (.refl _)
      · exact .reserve asking found spent
  case h_9 fuel asking =>
    unfold ThreadController.accept at taken
    dsimp only at taken
    split_ifs at taken with closing full <;> cases taken
    · exact .reject asking ⟨rfl, rfl, rfl, rfl, rfl, rfl, rfl, rfl⟩
    · exact .reject asking ⟨rfl, rfl, rfl, rfl, rfl, rfl, rfl, rfl⟩
    · simp only [Bool.or_eq_true, decide_eq_true_eq, not_or, Nat.not_le] at full
      exact .accept asking full.1.2
  case h_10 asking =>
    cases taken
    exact .launch asking
  case h_11 asking =>
    cases taken
    exact .fail asking
  case h_12 asking =>
    cases taken
    exact .record asking
  case h_13 asking =>
    cases taken
    exact .undo asking
  case h_14 asking =>
    cases taken
    exact .refund asking
  case h_16 asking | h_17 asking | h_18 asking =>
    cases self : actor.self with
    | none => simp [self] at taken
    | some tid =>
      simp only [self] at taken
      cases taken
      first | exact .finish asking self | exact .store asking self | exact .exit asking self
  case h_19 asking =>
    cases self : actor.self with
    | none =>
      simp only [self] at taken
      cases taken
      exact .join asking self
    | some => simp [self] at taken
  case h_20 asking =>
    have taking := @Moves.take limits actor controller asking
    cases handles : controller.workers.handles with
    | nil =>
      have closing := @Moves.close limits actor controller asking handles
      simp only [ThreadController.takeHandles, handles] at taken closing
      cases taken
      exact closing
    | cons handle rest =>
      simp only [ThreadController.takeHandles, handles] at taken taking
      cases taken
      exact taking
  case h_21 asking =>
    cases taken
    exact .retake asking
  case h_22 asking =>
    split at taken
    · rename_i exited
      cases taken
      exact .await asking exited
    cases taken
  case h_23 asking =>
    cases taken
    exact .drain asking
  case h_24 => cases taken

/-- A root whose execution has started. -/
def Actor.Rooted (actor : Actor) : Prop :=
  actor.self = none ∧ actor.point ≠ .acquire ∧ ∀ error, actor.point ≠ .refused error

/-- Points only the root comes to. -/
def Point.OfRoot : Point → Prop
  | .acquire | .refused _ | .taking | .joining _ | .draining | .joined _ => True
  | _ => False

/-- Points only a child comes to. -/
def Point.OfChild : Point → Prop
  | .ending _ | .exiting | .ended => True
  | _ => False

/-- The thread id a call has been given. -/
def Point.tid? : Point → Option Nat
  | .launching tid _ => some tid
  | .recording tid => some tid
  | _ => none

/-- The slice of fuel a call has in hand for its child. -/
def Point.slice? : Point → Option Nat
  | .accepting fuel => some fuel
  | .launching _ fuel => some fuel
  | _ => none

/-- What holds of a guest thread wherever it stands. -/
structure Actor.Placed (limits : SketchFuelLimits) (actor : Actor) (controller : ThreadController) :
    Prop where
  rooted : actor.Rooted → controller.session.activeRoots ≠ 0 ∧ actor.fuel = limits.rootSlice
  own : ∀ tid, actor.self = some tid → tid ∈ controller.launched ∧ actor.fuel = limits.childSlice
  exited : ∀ tid, actor.self = some tid → (tid ∈ controller.ended ↔ actor.point = .ended)
  ofRoot : actor.point.OfRoot → actor.self = none
  ofChild : actor.point.OfChild → actor.self ≠ none
  launching : ∀ tid fuel, actor.point = .launching tid fuel →
    tid ∉ controller.launched ∧ tid < controller.workers.nextTid
  younger : ∀ tid, actor.point.tid? = some tid → ∀ parent, actor.self = some parent → parent < tid
  slice : ∀ fuel, actor.point.slice? = some fuel → fuel = limits.childSlice

/-- What holds of the controller in every reachable state. -/
structure ThreadController.Sound (limits : SketchFuelLimits) (controller : ThreadController) :
    Prop where
  below : ∀ tid ∈ controller.launched, tid < controller.workers.nextTid
  nodup : controller.launched.Nodup
  past : ∀ tid ∈ controller.ended, tid ∈ controller.launched
  slice : ∀ fuel, controller.session.fuel = some fuel → fuel.childSlice = limits.childSlice

/-- What a section of one thread leaves for the others. -/
structure Evolves (actor : Actor) (before after : ThreadController) : Prop where
  roots : before.session.activeRoots ≠ 0 → after.session.activeRoots ≠ 0
  launched : ∀ tid ∈ before.launched, tid ∈ after.launched
  fresh : ∀ tid ∈ after.launched, tid ∈ before.launched ∨ ∃ fuel, actor.point = .launching tid fuel
  ended : ∀ tid ∈ before.ended, tid ∈ after.ended
  exited : ∀ tid ∈ after.ended, tid ∈ before.ended ∨ actor.self = some tid ∧ actor.point = .exiting
  nextTid : before.workers.nextTid ≤ after.workers.nextTid

/-- A change that launches and ends nothing. -/
theorem Evolves.of_eq (roots : controller.session.activeRoots ≠ 0 →
    controller'.session.activeRoots ≠ 0)
    (launched : controller'.launched = controller.launched)
    (ended : controller'.ended = controller.ended)
    (nextTid : controller.workers.nextTid ≤ controller'.workers.nextTid) :
    Evolves actor controller controller' where
  roots := roots
  launched := fun tid member => by rwa [launched]
  fresh := fun tid member => .inl (by rwa [launched] at member)
  ended := fun tid member => by rwa [ended]
  exited := fun tid member => .inl (by rwa [ended] at member)
  nextTid := nextTid

/-- A stored outcome changes the outcomes and the count of live threads only. -/
theorem finish_workers (controller : ThreadController) (tid : Nat) (outcome : ChildOutcome) :
    ∃ live outcomes, (controller.finish tid outcome).workers =
      { controller.workers with live, outcomes } := by
  unfold ThreadController.finish
  dsimp only
  split <;> exact ⟨_, _, rfl⟩

theorem Moves.evolves (moves : Moves limits actor controller actor' controller' launched) :
    Evolves actor controller controller' := by
  cases moves with
  | refuse _ books =>
    rcases books with rfl | rfl
    · exact .of_eq id rfl rfl (Nat.le_refl _)
    · exact .of_eq (fun _ => Nat.succ_ne_zero _) rfl rfl (Nat.le_refl _)
  | acquire => exact .of_eq (fun _ => Nat.one_ne_zero) rfl rfl (Nat.le_refl _)
  | idle _ _ books | reject _ books =>
    refine .of_eq ?_ books.launched books.ended (Nat.le_of_eq books.nextTid.symm)
    rw [books.session]
    exact id
  | accept => exact .of_eq id rfl rfl (Nat.le_succ _)
  | launch asking =>
    refine ⟨id, ?_, ?_, fun _ => id, fun _ => .inl, Nat.le_refl _⟩
    · exact fun other member => mem_append_left _ member
    intro other member
    rcases mem_append.mp member with old | new
    · exact .inl old
    · rw [mem_singleton.mp new]
      exact .inr ⟨_, asking⟩
  | exit asking child =>
    refine ⟨id, fun _ => id, fun _ => .inl, ?_, ?_, Nat.le_refl _⟩
    · exact fun other member => mem_append_left _ member
    intro other member
    rcases mem_append.mp member with old | new
    · exact .inl old
    · rw [mem_singleton.mp new]
      exact .inr ⟨child, asking⟩
  | store =>
    obtain ⟨_, _, workers⟩ := finish_workers controller _ _
    exact .of_eq id rfl rfl (by rw [workers])
  | _ => exact .of_eq id rfl rfl (Nat.le_refl _)

/-- No two guest threads are roots that run, the same child, or calls with one thread id. -/
def Apart (first second : Actor) : Prop :=
  ¬ (first.Rooted ∧ second.Rooted) ∧
    (∀ tid, first.self = some tid → second.self ≠ some tid) ∧
    ∀ tid fuel fuel', first.point = .launching tid fuel → second.point ≠ .launching tid fuel'

theorem Apart.symm {first second : Actor} (apart : Apart first second) : Apart second first :=
  ⟨fun both => apart.1 both.symm, fun tid here there => apart.2.1 tid there here,
    fun tid fuel fuel' here there => apart.2.2 tid fuel' fuel there here⟩

/-- A thread that does not move stays placed. -/
theorem Actor.Placed.evolves (placed : other.Placed limits controller)
    (evolves : Evolves actor controller controller') (apart : Apart actor other) :
    other.Placed limits controller' where
  rooted := fun rooted => ⟨evolves.roots (placed.rooted rooted).1, (placed.rooted rooted).2⟩
  own := fun tid self => ⟨evolves.launched tid (placed.own tid self).1, (placed.own tid self).2⟩
  exited := by
    intro tid self
    refine Iff.trans ⟨fun member => ?_, evolves.ended tid⟩ (placed.exited tid self)
    rcases evolves.exited tid member with old | ⟨acting, _⟩
    · exact old
    · exact absurd self (apart.2.1 tid acting)
  ofRoot := placed.ofRoot
  ofChild := placed.ofChild
  launching := by
    intro tid fuel here
    obtain ⟨absent, below⟩ := placed.launching tid fuel here
    refine ⟨fun member => ?_, Nat.lt_of_lt_of_le below evolves.nextTid⟩
    rcases evolves.fresh tid member with old | ⟨fuel', acting⟩
    · exact absent old
    · exact apart.2.2 tid fuel' fuel acting here
  younger := placed.younger
  slice := placed.slice

/-- A thread that goes on to another point, where nothing was launched or ended. -/
theorem Actor.Placed.goto (placed : actor.Placed limits controller)
    (roots : controller.session.activeRoots ≠ 0 → controller'.session.activeRoots ≠ 0)
    (launched : controller'.launched = controller.launched)
    (ended : controller'.ended = controller.ended)
    (started : actor.self = none → actor.Rooted)
    (running : actor.point ≠ .ended) (goesOn : point ≠ .ended)
    (ofRoot : point.OfRoot → actor.self = none) (ofChild : point.OfChild → actor.self ≠ none)
    (launching : ∀ tid fuel, point = .launching tid fuel →
      tid ∉ controller.launched ∧ tid < controller'.workers.nextTid)
    (younger : ∀ tid, point.tid? = some tid → ∀ parent, actor.self = some parent → parent < tid)
    (slice : ∀ fuel, point.slice? = some fuel → fuel = limits.childSlice) :
    (actor.goto point).Placed limits controller' where
  rooted := fun rooted =>
    ⟨roots (placed.rooted (started rooted.1)).1, (placed.rooted (started rooted.1)).2⟩
  own := fun tid self => by
    rw [launched]
    exact placed.own tid self
  exited := fun tid self => by
    rw [ended]
    exact ⟨fun member => absurd ((placed.exited tid self).mp member) running,
      fun here => absurd here goesOn⟩
  ofRoot := ofRoot
  ofChild := ofChild
  launching := by rw [launched]; exact launching
  younger := younger
  slice := slice

/-- Points of a thread that has started and not ended. -/
def Point.Running : Point → Prop
  | .acquire | .refused _ | .ended => False
  | _ => True

/-- A thread at such a point is a child or a root that runs. -/
theorem rooted_of_point (here : actor.point = point) (running : point.Running)
    (root : actor.self = none) : actor.Rooted := by
  subst here
  refine ⟨root, fun here => ?_, fun error here => ?_⟩
  all_goals
    rw [here] at running
    exact running

/-- A thread that goes on to a point without a thread id or a slice in hand. -/
theorem Actor.Placed.beyond {before after : Point} (placed : actor.Placed limits controller)
    (here : actor.point = before) (running : before.Running) (goesOn : after ≠ .ended)
    (roots : controller'.session.activeRoots = controller.session.activeRoots)
    (launched : controller'.launched = controller.launched)
    (ended : controller'.ended = controller.ended)
    (ofRoot : after.OfRoot → actor.self = none) (ofChild : after.OfChild → actor.self ≠ none)
    (noTid : after.tid? = none) (noSlice : after.slice? = none) :
    (actor.goto after).Placed limits controller' := by
  refine placed.goto (fun some => by rwa [roots]) launched ended
    (rooted_of_point here running) ?_ goesOn ofRoot ofChild ?_ ?_ ?_
  · subst here
    exact fun here => by rw [here] at running; exact running
  · rintro tid fuel rfl
    cases noTid
  · intro tid found
    rw [noTid] at found
    cases found
  · intro fuel found
    rw [noSlice] at found
    cases found

theorem Point.Idle.running (idle : point.Idle) : point.Running := by
  cases point <;> first | exact idle.elim | trivial

theorem Point.Idle.plain (idle : point.Idle) :
    point ≠ .ended ∧ ¬ point.OfRoot ∧ ¬ point.OfChild ∧ point.tid? = none ∧
      point.slice? = none := by
  cases point <;> first | exact idle.elim | exact ⟨nofun, id, id, rfl, rfl⟩

/-- A thread that asks for a root execution is placed anywhere. -/
theorem Actor.Placed.unrooted (root : actor.self = none) (asking : ¬ actor.Rooted)
    (point : ¬ actor.point.OfChild ∧ actor.point.tid? = none ∧ actor.point.slice? = none) :
    actor.Placed limits controller where
  rooted := fun rooted => absurd rooted asking
  own := fun tid self => by rw [root] at self; cases self
  exited := fun tid self => by rw [root] at self; cases self
  ofRoot := fun _ => root
  ofChild := fun child => absurd child point.1
  launching := fun tid fuel here => by
    have none := point.2.1
    rw [here] at none
    cases none
  younger := fun tid here => by rw [point.2.1] at here; cases here
  slice := fun fuel here => by rw [point.2.2] at here; cases here

/-- A section leaves its own thread placed. -/
theorem Moves.placed (moves : Moves limits actor controller actor' controller' launched)
    (sound : controller.Sound limits) (placed : actor.Placed limits controller) :
    actor'.Placed limits controller' := by
  have evolves := moves.evolves
  have rootAt : ∀ {before : Point}, actor.point = before → before.OfRoot → actor.self = none := by
    rintro before rfl ofRoot
    exact placed.ofRoot ofRoot
  cases moves with
  | refuse asking books =>
    have root := placed.ofRoot (by rw [asking]; trivial)
    refine .unrooted root (fun rooted => rooted.2.2 _ rfl) ⟨id, rfl, rfl⟩
  | acquire =>
    refine ⟨fun _ => ⟨Nat.one_ne_zero, rfl⟩, ?_, ?_, False.elim, False.elim, ?_, ?_, ?_⟩
    all_goals
      intros
      contradiction
  | idle before after books =>
    obtain ⟨goesOn, notRoot, notChild, noTid, noSlice⟩ := after.plain
    exact placed.beyond rfl before.running goesOn (by rw [books.session]) books.launched books.ended
      (absurd · notRoot) (absurd · notChild) noTid noSlice
  | reserve asking found left =>
    refine placed.goto id rfl rfl (rooted_of_point asking trivial) (by simp [asking]) (by simp)
      False.elim False.elim (by simp) ?_ ?_
    · intro tid here
      cases here
    · intro fuel here
      cases here
      exact sound.slice _ found
  | reject asking books =>
    exact placed.beyond asking trivial nofun (by rw [books.session]; rfl) books.launched books.ended
      False.elim False.elim rfl rfl
  | accept asking room =>
    refine placed.goto id rfl rfl (rooted_of_point asking trivial) (by simp [asking]) (by simp)
      False.elim False.elim ?_ ?_ ?_
    · intro tid fuel here
      cases here
      refine ⟨fun member => ?_, Nat.lt_succ_self _⟩
      exact Nat.lt_irrefl _ (sound.below _ member)
    · intro tid here parent self
      cases here
      exact sound.below parent (placed.own parent self).1
    · intro fuel here
      cases here
      exact placed.slice _ (by rw [asking]; rfl)
  | launch asking =>
    have started : actor.self = none → actor.Rooted := rooted_of_point asking trivial
    refine ⟨?_, ?_, ?_, False.elim, False.elim, ?_, ?_, ?_⟩
    · exact fun rooted => placed.rooted (started rooted.1)
    · exact fun tid self => ⟨evolves.launched tid (placed.own tid self).1, (placed.own tid self).2⟩
    · intro tid self
      have before := placed.exited tid self
      rw [asking] at before
      exact ⟨fun member => (by cases before.mp member), fun here => (by cases here)⟩
    · intro tid fuel here
      cases here
    · intro tid here parent self
      cases here
      exact placed.younger _ (by rw [asking]; rfl) parent self
    · intro fuel here
      cases here
  | fail asking | record asking | undo asking | refund asking =>
    exact placed.beyond asking trivial nofun rfl rfl rfl False.elim False.elim rfl rfl
  | finish asking child | store asking child =>
    exact placed.beyond asking trivial nofun rfl rfl rfl False.elim (fun _ => by simp [child]) rfl
      rfl
  | exit asking child =>
    have notRoot : actor.self ≠ none := by simp [child]
    refine ⟨fun rooted => absurd rooted.1 notRoot, placed.own, ?_, False.elim, fun _ => notRoot, ?_,
      ?_, ?_⟩
    · intro tid self
      cases child.symm.trans self
      exact ⟨fun _ => rfl, fun _ => mem_append_right _ (mem_singleton_self _)⟩
    all_goals
      intros
      contradiction
  | join running root =>
    exact placed.beyond running trivial nofun rfl rfl rfl (fun _ => root) False.elim rfl rfl
  | _ asking =>
    exact placed.beyond asking trivial nofun rfl rfl rfl (fun _ => rootAt asking trivial) False.elim
      rfl rfl

/-- The slice size survives a refund. -/
theorem refund_slice {fuel : FuelExecution} (sound : controller.Sound limits)
    (found : controller.refundChildFuel.session.fuel = some fuel) :
    fuel.childSlice = limits.childSlice := by
  obtain ⟨before, present, rfl⟩ := Option.map_eq_some_iff.mp found
  exact sound.slice before present

/-- A change of nothing but the slices left. -/
theorem ThreadController.Sound.of_eq (sound : controller.Sound limits)
    (launched : controller'.launched = controller.launched)
    (ended : controller'.ended = controller.ended)
    (nextTid : controller.workers.nextTid ≤ controller'.workers.nextTid)
    (slice : ∀ fuel, controller'.session.fuel = some fuel → fuel.childSlice = limits.childSlice) :
    controller'.Sound limits where
  below := by
    intro tid member
    rw [launched] at member
    exact Nat.lt_of_lt_of_le (sound.below tid member) nextTid
  nodup := by rw [launched]; exact sound.nodup
  past := by rw [launched, ended]; exact sound.past
  slice := slice

section

variable (moves : Moves limits actor controller actor' controller' launched)

include moves

theorem Moves.sound
    (sound : controller.Sound limits) (placed : actor.Placed limits controller) :
    controller'.Sound limits := by
  cases moves with
  | refuse _ books =>
    rcases books with rfl | rfl
    · exact sound
    · exact sound.of_eq rfl rfl (Nat.le_refl _) sound.slice
  | acquire =>
    refine sound.of_eq rfl rfl (Nat.le_refl _) ?_
    intro fuel found
    cases found
    rfl
  | idle _ _ books =>
    apply sound.of_eq books.launched books.ended (Nat.le_of_eq books.nextTid.symm)
    rw [books.session]
    exact sound.slice
  | reserve _ found =>
    refine sound.of_eq rfl rfl (Nat.le_refl _) ?_
    intro fuel here
    cases here
    exact (sound.slice _ found :)
  | reject _ books =>
    apply sound.of_eq books.launched books.ended (Nat.le_of_eq books.nextTid.symm)
    rw [books.session]
    exact fun fuel => refund_slice sound
  | accept => exact sound.of_eq rfl rfl (Nat.le_succ _) sound.slice
  | launch asking =>
    obtain ⟨absent, below⟩ := placed.launching _ _ asking
    refine ⟨?_, ?_, fun other exited => mem_append_left _ (sound.past other exited), sound.slice⟩
    · intro other member
      rcases mem_append.mp member with old | new
      · exact sound.below other old
      · rw [mem_singleton.mp new]
        exact below
    · refine nodup_append.mpr ⟨sound.nodup, by simp, ?_⟩
      intro other member new here same
      rw [mem_singleton.mp here] at same
      exact absent (same ▸ member)
  | exit _ child =>
    refine ⟨sound.below, sound.nodup, ?_, sound.slice⟩
    intro other member
    rcases mem_append.mp member with old | new
    · exact sound.past other old
    · rw [mem_singleton.mp new]
      exact (placed.own _ child).1
  | refund => exact sound.of_eq rfl rfl (Nat.le_refl _) fun fuel => refund_slice sound
  | store =>
    obtain ⟨_, _, workers⟩ := finish_workers controller _ _
    exact sound.of_eq rfl rfl (by rw [workers]) sound.slice
  | _ => exact sound.of_eq rfl rfl (Nat.le_refl _) sound.slice

/-- The child a section launches is placed. -/
theorem Moves.child
    (sound : controller.Sound limits) (placed : actor.Placed limits controller) {child : Actor}
    (member : child ∈ launched) :
    child.Placed limits controller' ∧ ∃ tid fuel, actor.point = .launching tid fuel ∧
      child.self = some tid ∧ child.point = .guest := by
  cases moves with
  | launch asking =>
    cases member
    refine ⟨⟨?_, ?_, ?_, False.elim, False.elim, ?_, ?_, ?_⟩, _, _, asking, rfl, rfl⟩
    · exact fun rooted => by cases rooted.1
    · intro tid self
      cases self
      exact ⟨mem_append_right _ (mem_singleton_self _), placed.slice _ (by rw [asking]; rfl)⟩
    · intro tid self
      cases self
      have absent := (placed.launching _ _ asking).1
      exact ⟨fun exited => absurd (sound.past _ exited) absent, fun here => (by cases here)⟩
    all_goals
      intros
      contradiction
  | _ => cases member

/-- What a section keeps of its thread: who it is, and that only acceptance gives out a thread
id. -/
theorem Moves.traits :
    (actor'.Rooted → actor.Rooted ∨ controller.session.activeRoots = 0) ∧
      (actor'.self = actor.self ∨ actor'.self = none) ∧
      ∀ tid fuel, actor'.point = .launching tid fuel → tid = controller.workers.nextTid := by
  have goto : ∀ {before after : Point}, actor.point = before → before.Running →
      (∀ tid fuel, after = .launching tid fuel → tid = controller.workers.nextTid) →
      ((actor.goto after).Rooted → actor.Rooted ∨ controller.session.activeRoots = 0) ∧
        ((actor.goto after).self = actor.self ∨ (actor.goto after).self = none) ∧
        ∀ tid fuel, (actor.goto after).point = .launching tid fuel →
          tid = controller.workers.nextTid := by
    intro before after here running fresh
    exact ⟨fun rooted => .inl (rooted_of_point here running rooted.1), .inl rfl, fresh⟩
  cases moves with
  | refuse =>
    exact ⟨fun rooted => absurd rfl (rooted.2.2 _), .inl rfl, fun _ _ here => by cases here⟩
  | acquire _ alone => exact ⟨fun _ => .inr alone, .inr rfl, fun _ _ here => by cases here⟩
  | idle before after =>
    apply goto rfl before.running
    rintro tid fuel rfl
    exact after.elim
  | accept asking => exact goto asking trivial fun _ _ here => by cases here; rfl
  | _ asking =>
    exact goto asking trivial fun _ _ here => by cases here

end

theorem Moves.apart (moves : Moves limits actor controller actor' controller' launched)
    (placed : other.Placed limits controller) (apart : Apart actor other) : Apart actor' other := by
  obtain ⟨rooted, self, fresh⟩ := moves.traits
  refine ⟨?_, ?_, ?_⟩
  · rintro ⟨here, there⟩
    rcases rooted here with before | alone
    · exact apart.1 ⟨before, there⟩
    · exact (placed.rooted there).1 alone
  · intro tid here
    rcases self with same | root
    · exact apart.2.1 tid (same ▸ here)
    · rw [root] at here
      cases here
  · intro tid fuel fuel' here there
    have below := (placed.launching tid fuel' there).2
    rw [fresh tid fuel here] at below
    exact Nat.lt_irrefl _ below

/-- The child a section launches is nobody who was there. -/
theorem Moves.child_apart {child : Actor}
    (moves : Moves limits actor controller actor' controller' launched)
    (sound : controller.Sound limits)
    (actorPlaced : actor.Placed limits controller)
    (old : ∀ tid, other.self = some tid → tid ∈ controller.launched) (member : child ∈ launched) :
    Apart child other := by
  obtain ⟨_, tid, fuel, asking, self, point⟩ := moves.child sound actorPlaced member
  have absent := (actorPlaced.launching tid fuel asking).1
  refine ⟨?_, ?_, ?_⟩
  · rintro ⟨rooted, _⟩
    cases self.symm.trans rooted.1
  · intro tid' here there
    cases self.symm.trans here
    exact absent (old _ there)
  · intro tid' fuel' _ here
    cases point.symm.trans here

theorem sound_of_initial (initial : (guestMachine limits).Initial controller) :
    controller.Sound limits := by
  obtain ⟨_, fuel, _, _, _, _, _, launched, ended⟩ := initial
  refine ⟨?_, ?_, ?_, ?_⟩
  · simp [launched]
  · simp [launched]
  · simp [ended]
  · simp [fuel]

theorem newRoot_unrooted : ¬ Actor.newRoot.Rooted := fun rooted => rooted.2.1 rfl

/-- The controller is sound, its threads are placed, and no two are the same. -/
def guestOutline (limits : SketchFuelLimits) (allowed : Actor → Choice → ThreadController → Prop) :
    (guestMachine limits).Outline allowed where
  Shared := ThreadController.Sound limits
  Local := Actor.Placed limits
  Apart := fun first second _ => Apart first second
  symmetric := Apart.symm
  initial := sound_of_initial
  entryLocal := by
    rintro _ controller rfl _
    exact .unrooted rfl newRoot_unrooted ⟨id, rfl, rfl⟩
  entryApart := by
    rintro _ other controller rfl _ _
    exact ⟨fun both => newRoot_unrooted both.1, fun _ here => (by cases here),
      fun _ _ _ here => (by cases here)⟩
  driftShared := fun _ moved => moved.elim
  driftLocal := fun _ _ moved => moved.elim
  driftApart := fun _ _ moved => moved.elim
  own := by
    intro actor choice controller actor' controller' launched sound placed _ step
    have moves := Actor.step_moves step
    refine ⟨moves.sound sound placed, moves.placed sound placed, ?_⟩
    intro child member
    refine ⟨(moves.child sound placed member).1, (moves.child_apart sound placed ?_ member).symm⟩
    intro tid here
    rcases moves.traits.2.1 with same | root
    · exact (placed.own tid (same ▸ here)).1
    · rw [root] at here
      cases here
  frame := by
    intro actor choice controller actor' controller' launched other sound placed otherPlaced apart
      _ step
    have moves := Actor.step_moves step
    refine ⟨otherPlaced.evolves moves.evolves apart, moves.apart otherPlaced apart, ?_⟩
    intro child member
    exact moves.child_apart sound placed (fun tid here => (otherPlaced.own tid here).1) member
  frameApart := fun _ _ _ _ _ _ apart _ _ => apart

end KernalApi.Guest
