import Mathlib.Tactic.Common

/-!
# Task-local scopes

A scope lends its value to a slot of the thread while its future is polled or dropped, and
takes it back when that returns or unwinds. Beside the swapping code stands lexical scoping,
where every scope keeps its value and an access reads the innermost scope; the two agree.
-/

namespace KernalApi.TaskLocal

open List

variable {T : Type}

inductive Call
  | poll
  | drop
deriving DecidableEq

/-- What runs on a thread: accesses of one key, and the polls and drops of its scopes with what
the future or its destructor does in them. -/
inductive Act (T : Type)
  | done
  | panic
  | seq (first second : Act T)
  | catchUnwind (body : Act T)
  | tryWith (access : Act T)
  /-- Interior mutation through the reference that an access was given. -/
  | mutate (change : T → T)
  | call (kind : Call) (scope : Nat) (future : Act T)

inductive Outcome
  | returned
  | unwound
deriving DecidableEq

/-- A thread with its slot, the borrows of the slot that accesses hold, the value in each scope,
and what each access saw so far; `none` is `Unbound`. -/
structure Thread (T : Type) where
  slot : Option T
  borrows : Nat
  values : Nat → Option T
  seen : List (Option T)

namespace Thread

def note (thread : Thread T) (value : Option T) : Thread T :=
  { thread with seen := thread.seen ++ [value] }

/-- The slot is exchanged with the value of the scope. -/
def install (thread : Thread T) (scope : Nat) : Thread T :=
  { thread with slot := thread.values scope, values := Function.update thread.values scope none }

/-- `Restore` is dropped; `RefCell::replace` panics while the slot is borrowed. -/
def restore (scope : Nat) (outer : Option T) (ran : Outcome × Thread T) : Outcome × Thread T :=
  if ran.2.borrows ≠ 0 then (.unwound, ran.2)
  else (ran.1, { ran.2 with
    slot := outer, values := Function.update ran.2.values scope ran.2.slot })

/-- Runs on a thread whose storage is `available`. A scope is dropped once and not polled
afterwards, so that its future is there. -/
def exec (available : Bool) : Act T → Thread T → Outcome × Thread T
  | .done, thread => (.returned, thread)
  | .panic, thread => (.unwound, thread)
  | .seq first second, thread =>
    let ran := exec available first thread
    if ran.1 = .returned then exec available second ran.2 else ran
  | .catchUnwind body, thread => (.returned, (exec available body thread).2)
  | .tryWith access, thread =>
    -- No exclusive borrow outlasts an exchange, so that `try_borrow` finds the slot free.
    match if available then thread.slot else none with
    | none => (.returned, thread.note none)
    | some value =>
      let ran := exec available access { thread.note value with borrows := thread.borrows + 1 }
      (ran.1, { ran.2 with borrows := ran.2.borrows - 1 })
  | .mutate change, thread =>
    (.returned, if thread.borrows = 0 then thread
      else { thread with slot := thread.slot.map change })
  | .call kind scope future, thread =>
    if available && thread.borrows = 0 then
      restore scope thread.slot (exec available future (thread.install scope))
    else
      match kind with
      | .poll => (.unwound, thread)
      | .drop => exec available future thread

end Thread

/-- Lexical scoping: every scope keeps its value, and `none` stands for the slot outside all. -/
structure Bindings (T : Type) where
  bound : Option Nat → Option T
  seen : List (Option T)

namespace Bindings

def note (bindings : Bindings T) (value : Option T) : Bindings T :=
  { bindings with seen := bindings.seen ++ [value] }

/-- Runs where `inner` is the innermost scope. While the slot is borrowed a poll is refused, and
a future is dropped under the scope that stands around it. -/
def exec (available : Bool) : Act T → Option Nat → Bool → Bindings T → Outcome × Bindings T
  | .done, _, _, bindings => (.returned, bindings)
  | .panic, _, _, bindings => (.unwound, bindings)
  | .seq first second, inner, borrowed, bindings =>
    let ran := exec available first inner borrowed bindings
    if ran.1 = .returned then exec available second inner borrowed ran.2 else ran
  | .catchUnwind body, inner, borrowed, bindings =>
    (.returned, (exec available body inner borrowed bindings).2)
  | .tryWith access, inner, _, bindings =>
    match if available then bindings.bound inner else none with
    | none => (.returned, bindings.note none)
    | some value => exec available access inner true (bindings.note value)
  | .mutate change, inner, borrowed, bindings =>
    (.returned, if borrowed then
      { bindings with
        bound := Function.update bindings.bound inner ((bindings.bound inner).map change) }
      else bindings)
  | .call kind scope future, inner, borrowed, bindings =>
    if available && !borrowed then exec available future (some scope) false bindings
    else
      match kind with
      | .poll => (.unwound, bindings)
      | .drop => exec available future inner borrowed bindings

end Bindings

/-- A scope is borrowed exclusively while it is polled or dropped. -/
def Act.Exclusive : Act T → List Nat → Prop
  | .seq first second, held => first.Exclusive held ∧ second.Exclusive held
  | .catchUnwind body, held | .tryWith body, held => body.Exclusive held
  | .call _ scope future, held => scope ∉ held ∧ future.Exclusive (scope :: held)
  | _, _ => True

variable {held : List Nat} {bindings : Bindings T} {thread : Thread T} {scope : Nat} {act : Act T}

theorem Act.Exclusive.mono {more : List Nat} (subset : held ⊆ more)
    (exclusive : act.Exclusive more) : act.Exclusive held := by
  induction act generalizing held more with
  | seq first second ihFirst ihSecond =>
    exact ⟨ihFirst subset exclusive.1, ihSecond subset exclusive.2⟩
  | catchUnwind body ih | tryWith access ih => exact ih subset exclusive
  | call kind scope future ih =>
    exact ⟨fun present => exclusive.1 (subset present), ih (cons_subset_cons _ subset) exclusive.2⟩
  | _ => trivial

/-- The slot holds the value of the innermost of the scopes being polled or dropped, and every
other scope owns its value. -/
structure Agrees (held : List Nat) (bindings : Bindings T) (thread : Thread T) : Prop where
  slot : thread.slot = bindings.bound held.head?
  lent : ∀ scope ∈ held, thread.values scope = none
  owned : ∀ scope, scope ∉ held → thread.values scope = bindings.bound (some scope)
  kept : ∀ scope, (bindings.bound (some scope)).isSome
  seen : thread.seen = bindings.seen

/-- What a run leaves: the same outcome, a thread that agrees, and the bindings further out as
they were. -/
structure Follows (held : List Nat) (bindings : Bindings T) (thread : Thread T)
    (ran : Outcome × Thread T) (spec : Outcome × Bindings T) : Prop where
  outcome : ran.1 = spec.1
  agrees : Agrees held spec.2 ran.2
  borrows : ran.2.borrows = thread.borrows
  outer : ∀ key, (∀ scope ∈ key, scope ∈ held) → key ≠ held.head? →
    spec.2.bound key = bindings.bound key

section

variable (agrees : Agrees held bindings thread)

include agrees

theorem Follows.stay (outcome : Outcome) :
    Follows held bindings thread (outcome, thread) (outcome, bindings) :=
  ⟨rfl, agrees, rfl, fun _ _ _ => rfl⟩

theorem Agrees.note (value : Option T) :
    Agrees held (bindings.note value) (thread.note value) :=
  ⟨agrees.slot, agrees.lent, agrees.owned, agrees.kept, congrArg (· ++ [value]) agrees.seen⟩

theorem Agrees.install (free : scope ∉ held) :
    Agrees (scope :: held) bindings (thread.install scope) where
  slot := agrees.owned scope free
  lent other present := by
    by_cases same : other = scope
    · rw [same]
      exact Function.update_self ..
    · exact (Function.update_of_ne same ..).trans
        (agrees.lent other (mem_of_ne_of_mem same present))
  owned other absent := by
    rw [mem_cons, not_or] at absent
    exact (Function.update_of_ne absent.1 ..).trans (agrees.owned other absent.2)
  kept := agrees.kept
  seen := agrees.seen

/-- No binding further out was touched, so that the slot is as before, and the scope has what
was bound for it. -/
theorem Follows.restore {ran : Outcome × Thread T} {spec : Outcome × Bindings T}
    (free : scope ∉ held) (unborrowed : thread.borrows = 0)
    (inside : Follows (scope :: held) bindings (thread.install scope) ran spec) :
    Follows held bindings thread (Thread.restore scope thread.slot ran) spec := by
  have borrows : ran.2.borrows = 0 := inside.borrows.trans unborrowed
  have outer : ∀ key, (∀ scope ∈ key, scope ∈ held) → spec.2.bound key = bindings.bound key := by
    intro key within
    refine inside.outer key (fun other present => mem_cons_of_mem _ (within other present)) ?_
    rintro rfl
    exact free (within scope rfl)
  unfold Thread.restore
  rw [if_neg (not_not.mpr borrows)]
  refine ⟨inside.outcome, ⟨agrees.slot.trans (outer _ fun _ => mem_of_head?).symm, ?_, ?_,
    inside.agrees.kept, inside.agrees.seen⟩, borrows.trans unborrowed.symm,
      fun key within _ => outer key within⟩
  · intro other present
    have apart : other ≠ scope := fun same => free (same ▸ present)
    exact (Function.update_of_ne apart ..).trans
      (inside.agrees.lent other (mem_cons_of_mem _ present))
  intro other absent
  by_cases same : other = scope
  · rw [same]
    exact (Function.update_self ..).trans inside.agrees.slot
  · exact (Function.update_of_ne same ..).trans (inside.agrees.owned other (by simp [same, absent]))

theorem Follows.mutate (change : T → T) :
    Follows held bindings thread (.returned, { thread with slot := thread.slot.map change })
      (.returned, { bindings with
        bound := Function.update bindings.bound held.head?
          ((bindings.bound held.head?).map change) }) := by
  refine ⟨rfl, ⟨?_, agrees.lent, ?_, ?_, agrees.seen⟩, rfl,
    fun key _ apart => Function.update_of_ne apart ..⟩
  · simp [agrees.slot]
  · intro other absent
    refine (agrees.owned other absent).trans (Function.update_of_ne ?_ ..).symm
    exact fun same => absent (mem_of_head? same.symm)
  intro other
  by_cases same : some other = held.head?
  · simpa [← same] using agrees.kept other
  · simpa [same] using agrees.kept other

end

theorem exec_follows (available : Bool) (exclusive : act.Exclusive held)
    (agrees : Agrees held bindings thread) :
    Follows held bindings thread (thread.exec available act)
      (bindings.exec available act held.head? (thread.borrows != 0)) := by
  induction act generalizing held bindings thread with
  | done | panic => exact .stay agrees _
  | seq first second ihFirst ihSecond =>
    have head := ihFirst exclusive.1 agrees
    unfold Thread.exec Bindings.exec
    by_cases returned : (thread.exec available first).1 = .returned
    · have tail := ihSecond exclusive.2 head.agrees
      rw [head.borrows] at tail
      simp only [if_pos returned, if_pos (head.outcome.symm.trans returned)]
      exact ⟨tail.outcome, tail.agrees, tail.borrows.trans head.borrows,
        fun key present apart => (tail.outer key present apart).trans
          (head.outer key present apart)⟩
    · simp only [if_neg returned, if_neg (head.outcome ▸ returned)]
      exact head
  | catchUnwind body ih =>
    have ran := ih exclusive agrees
    exact ⟨rfl, ran.agrees, ran.borrows, ran.outer⟩
  | tryWith access ih =>
    unfold Thread.exec Bindings.exec
    rw [agrees.slot]
    cases (if available then bindings.bound held.head? else none) with
    | none => exact ⟨rfl, agrees.note none, rfl, fun _ _ _ => rfl⟩
    | some value =>
      have noted := agrees.note (some value)
      have borrowing : Agrees held (bindings.note value)
          { thread.note value with borrows := thread.borrows + 1 } :=
        ⟨noted.slot, noted.lent, noted.owned, noted.kept, noted.seen⟩
      have ran := ih exclusive borrowing
      have agrees := ran.agrees
      exact ⟨ran.outcome, ⟨agrees.slot, agrees.lent, agrees.owned, agrees.kept, agrees.seen⟩,
        congrArg (· - 1) ran.borrows, ran.outer⟩
  | mutate change =>
    unfold Thread.exec Bindings.exec
    by_cases free : thread.borrows = 0
    · simp only [free]
      exact .stay agrees _
    · simp only [free, bne_iff_ne, ne_eq]
      exact .mutate agrees change
  | call kind scope future ih =>
    unfold Thread.exec Bindings.exec
    by_cases enters : available = true ∧ thread.borrows = 0
    · have ran := Follows.restore agrees exclusive.1 enters.2
        (ih exclusive.2 (agrees.install exclusive.1))
      simpa [enters.1, enters.2, Thread.install] using ran
    have refused : (available && !(thread.borrows != 0)) = false := by simp_all
    rw [if_neg (by simp_all), refused]
    cases kind with
    | poll => exact .stay agrees _
    | drop => exact ih (exclusive.2.mono (subset_cons_self ..)) agrees

/-- At any point of a run, where the scopes in `held` are being polled or dropped: accesses see
what lexical scoping binds, and after a poll or a drop its scope owns its value with the changes
made through it. The slot is as it was before, except that a drop within a borrow installs
nothing. -/
theorem exec_lexical {T : Type} {available : Bool} {act : Act T} {held : List Nat}
    {bindings : Bindings T}
    {thread : Thread T} (exclusive : act.Exclusive held) (agrees : Agrees held bindings thread) :
    let ran := thread.exec available act
    let spec := bindings.exec available act held.head? (thread.borrows != 0)
    ran.1 = spec.1 ∧ ran.2.seen = spec.2.seen ∧
      ∀ kind scope future, act = .call kind scope future →
        ran.2.values scope = spec.2.bound (some scope) ∧ (ran.2.values scope).isSome ∧
        (kind = .poll ∨ available = true ∧ thread.borrows = 0 → ran.2.slot = thread.slot) := by
  have ran := exec_follows available exclusive agrees
  refine ⟨ran.outcome, ran.agrees.seen, ?_⟩
  rintro kind scope future rfl
  have owned := ran.agrees.owned scope exclusive.1
  refine ⟨owned, owned ▸ ran.agrees.kept scope, ?_⟩
  intro installs
  unfold Thread.exec
  by_cases enters : available = true ∧ thread.borrows = 0
  · have inside := (exec_follows available exclusive.2 (agrees.install exclusive.1)).borrows
    rw [if_pos (by simp [enters]), Thread.restore, if_neg (not_not.mpr (inside.trans enters.2))]
  · rw [if_neg (by simp_all), installs.resolve_right enters]

/-- Two scopes that own their values, outside all polls. -/
def idle : Thread Nat := ⟨none, 0, fun scope => some (10 * (scope + 1)), []⟩

def idleBindings : Bindings Nat := ⟨fun key => key.map fun scope => 10 * (scope + 1), []⟩

theorem idle_agrees : Agrees [] idleBindings idle :=
  ⟨rfl, fun _ present => absurd present not_mem_nil, fun _ _ => rfl, fun _ => rfl, rfl⟩

/-- A future changes its value and is polled again from within another scope. -/
theorem exec_lexical_nested :
    (idle.exec true (.call .poll 0 (.seq (.tryWith (.mutate (· + 1)))
      (.call .poll 1 (.tryWith .panic))))).2.seen = [some 10, some 20] := by
  refine (exec_lexical ?_ idle_agrees).2.1.trans rfl
  simp [Act.Exclusive]

/-- Within a borrow of the slot a scope is dropped without being installed: its destructor sees
the scope around it, though the innermost scope being dropped has another value. -/
theorem drop_within_borrow :
    (idle.exec true (.call .poll 0 (.tryWith (.call .drop 1 (.tryWith .done))))).2.seen =
      [some 10, some 10] ∧ idleBindings.bound (some 1) = some 20 := ⟨rfl, rfl⟩

end KernalApi.TaskLocal
