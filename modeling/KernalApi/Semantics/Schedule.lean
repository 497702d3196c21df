import KernalApi.Semantics.Interleaving

/-!
# Schedules of an executable machine

Where the next section of a thread is a function of its program point, a label
and the shared state, a schedule can be played. A board that a schedule reaches
is a reachable pool, so concrete executions are obtained by evaluation.
-/

namespace KernalApi.Semantics

open List

variable {σ τ γ : Type}

/-- The shared state with the threads in the order they appeared. -/
structure Board (σ τ : Type) where
  shared : σ
  threads : List τ

/-- One turn of a schedule: a thread enters, or one goes on under a label. -/
inductive Turn (τ γ : Type)
  | enter (thread : τ)
  | step (id : Nat) (label : γ)

namespace Board

def pool (board : Board σ τ) : Pool σ τ := ⟨board.shared, fun id => board.threads[id]?⟩

@[simp] theorem pool_shared (board : Board σ τ) : board.pool.shared = board.shared := rfl

@[simp] theorem pool_threads (board : Board σ τ) (id : Nat) :
    board.pool.threads id = board.threads[id]? := rfl

/-- Plays one turn; a section that fails the test is not taken, and a thread it
launches comes last. -/
def turn (next : τ → γ → σ → Option (τ × σ × Option τ)) (test : τ → γ → σ → Bool)
    (board : Board σ τ) : Turn τ γ → Option (Board σ τ)
  | .enter thread => some ⟨board.shared, board.threads ++ [thread]⟩
  | .step id label =>
    match board.threads[id]? with
    | none => none
    | some thread =>
      match next thread label board.shared with
      | none => none
      | some (thread', shared', launched) =>
        if test thread label board.shared then
          some ⟨shared', board.threads.set id thread' ++ launched.toList⟩
        else none

/-- Plays a schedule. -/
def play (next : τ → γ → σ → Option (τ × σ × Option τ)) (test : τ → γ → σ → Bool) :
    List (Turn τ γ) → Board σ τ → Option (Board σ τ)
  | [], board => some board
  | first :: rest, board =>
    match board.turn next test first with
    | none => none
    | some board => board.play next test rest

/-- The threads a schedule lets enter. -/
def entering : List (Turn τ γ) → List τ
  | [] => []
  | .enter thread :: rest => thread :: entering rest
  | .step .. :: rest => entering rest

/-- The pool of a board with one more thread. -/
theorem pool_append (shared : σ) (threads : List τ) (thread : τ) :
    (⟨shared, threads ++ [thread]⟩ : Board σ τ).pool
      = (⟨shared, threads⟩ : Board σ τ).pool.put shared threads.length thread := by
  simp only [pool, Pool.put, Pool.mk.injEq, true_and]
  funext id
  by_cases last : id = threads.length
  · subst last
    simp
  rw [Function.update_of_ne last]
  by_cases early : id < threads.length
  · rw [getElem?_append_left early]
  · rw [getElem?_eq_none (by simp; omega), getElem?_eq_none (by omega)]

/-- The pool of a board where one thread moved on. -/
theorem pool_set {board : Board σ τ} {id : Nat} (inside : id < board.threads.length) (shared : σ)
    (thread : τ) :
    (⟨shared, board.threads.set id thread⟩ : Board σ τ).pool = board.pool.put shared id thread := by
  simp only [pool, Pool.put, Pool.mk.injEq, true_and]
  funext other
  by_cases here : other = id
  · subst here
    simp [inside]
  · rw [Function.update_of_ne here, getElem?_set_ne (Ne.symm here)]

variable {machine : Machine σ τ γ} {allowed : τ → γ → σ → Prop}
  {next : τ → γ → σ → Option (τ × σ × Option τ)} {test : τ → γ → σ → Bool}
    {board board' : Board σ τ}

section

variable (sections : ∀ {thread label shared thread' shared' launched},
    next thread label shared = some (thread', shared', launched) →
    machine.Step thread label shared thread' shared' launched)
  (permits : ∀ {thread label shared}, test thread label shared = true → allowed thread label shared)

include sections permits

/-- One turn is one move of the pool. -/
theorem turn_next
    {move : Turn τ γ} (entries : ∀ {thread}, move = .enter thread → machine.Entry thread)
    (turned : board.turn next test move = some board') :
    machine.Next allowed board.pool board'.pool := by
  cases move with
  | enter thread =>
    cases turned
    rw [pool_append]
    exact .enter _ (by simp) (entries rfl)
  | step id label =>
    simp only [turn] at turned
    split at turned
    · cases turned
    rename_i thread running
    split at turned
    · cases turned
    rename_i thread' shared' launched taken
    split at turned
    · rename_i passed
      cases turned
      have inside := (List.getElem?_eq_some_iff.mp running).1
      cases launched with
      | none =>
        rw [Option.toList_none, append_nil, pool_set inside]
        exact .advance id running (permits passed) (sections taken)
      | some =>
        rw [Option.toList_some, pool_append, pool_set inside]
        refine .launch id _ running ?_ (permits passed) (sections taken)
        simp
    · cases turned

/-- A board that a schedule reaches from an initial state is reachable. -/
theorem reachable_of_play
    {schedule : List (Turn τ γ)} (entries : ∀ thread ∈ entering schedule, machine.Entry thread)
    (reachable : machine.Reachable allowed board.pool)
    (played : board.play next test schedule = some board') :
    machine.Reachable allowed board'.pool := by
  induction schedule generalizing board with
  | nil =>
    cases played
    exact reachable
  | cons move rest ih =>
    simp only [play] at played
    split at played
    · cases played
    rename_i middle turned
    have later : ∀ thread ∈ entering rest, machine.Entry thread := by
      intro thread member
      apply entries
      cases move with
      | enter => exact mem_cons_of_mem _ member
      | step => exact member
    refine ih later (reachable.runs (.single ?_)) played
    refine turn_next sections permits ?_ turned
    rintro thread rfl
    exact entries thread mem_cons_self

end

end Board

end KernalApi.Semantics
