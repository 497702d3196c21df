import KernalApi.Hub.Machine
import KernalApi.Semantics.Schedule

/-!
# Playing a schedule

An executable run of the machine: `Board` keeps the threads in a list, and each
`Turn` of a schedule lets one thread take some steps. A board that a schedule
reaches is a reachable pool, so concrete executions are obtained by evaluation.
-/

namespace KernalApi.Hub

open Semantics List

/-- One turn of a schedule: a call enters and takes steps, or a thread that is
there goes on. Choices left over when the thread stops are ignored. -/
inductive Turn where
  | call (call : Call) (choices : List Choice)
  | resume (id : Nat) (choices : List Choice)

namespace Turn

/-- A call that nothing interrupts and whose surroundings always go on. -/
def run (call : Call) : Turn := .call call (List.replicate 64 .proceed)

end Turn

/-- The shared state with the threads in the order they appeared. -/
structure Board where
  state : State
  threads : List Thread

namespace Board

def pool (board : Board) : Pool State Thread := ⟨board.state, fun id => board.threads[id]?⟩

/-- Let one thread take steps, as long as each one passes the test. -/
def advance (hub : OperationHub) (test : Thread → Move → State → Bool) (id : Nat) :
    List Choice → Board → Option Board
  | [], board => some board
  | choice :: rest, board =>
    match board.threads[id]? with
    | none => none
    | some thread =>
      match thread.move hub choice, thread.step hub choice board.state with
      | some move, some (thread', state', launched) =>
        if test thread move board.state then
          advance hub test id rest ⟨state', board.threads.set id thread' ++ launched.toList⟩
        else none
      | _, _ => some board

/-- Play one turn. -/
def turn (hub : OperationHub) (test : Thread → Move → State → Bool) : Turn → Board → Option Board
  | .call call choices, board =>
    advance hub test board.threads.length choices ⟨board.state, board.threads ++ [call.thread hub]⟩
  | .resume id choices, board => advance hub test id choices board

/-- Play a schedule. -/
def play (hub : OperationHub) (test : Thread → Move → State → Bool) :
    List Turn → Board → Option Board
  | [], board => some board
  | next :: rest, board =>
    match board.turn hub test next with
    | none => none
    | some board => board.play hub test rest

/-- The board of a hub that has just been created. -/
def fresh : Board := ⟨{}, []⟩

/-- Whether a schedule can be played from the start to a board that passes a test. -/
def plays (hub : OperationHub) (test : Thread → Move → State → Bool) (schedule : List Turn)
    (goal : Board → Bool) : Bool :=
  (fresh.play hub test schedule).any goal

variable {hub : OperationHub} {test : Thread → Move → State → Bool}
  {allowed : Thread → Move → State → Prop} {board board' : Board}

/-- The steps that pass the test are allowed. -/
def Sound (test : Thread → Move → State → Bool) (allowed : Thread → Move → State → Prop) : Prop :=
  ∀ thread move state, test thread move state = true → allowed thread move state

/-- Placing a thread that is on the board. -/
theorem pool_set {id : Nat} {thread thread' : Thread} (state' : State)
    (running : board.threads[id]? = some thread) :
    pool ⟨state', board.threads.set id thread'⟩ = board.pool.put state' id thread' :=
  @Semantics.Board.pool_set _ _ ⟨board.state, board.threads⟩ id
    (List.getElem?_eq_some_iff.mp running).1 state' thread'

/-- Placing a thread that is new on the board. -/
theorem pool_append (state' : State) (threads : List Thread) (thread : Thread) :
    pool ⟨state', threads ++ [thread]⟩ =
      (pool ⟨state', threads⟩).put state' threads.length thread :=
  Semantics.Board.pool_append state' threads thread

theorem pool_vacant (state : State) (threads : List Thread) :
    (pool ⟨state, threads⟩).threads threads.length = none := by
  simp [pool]

/-- Steps on the board are moves of the machine. -/
theorem advance_runs (sound : Sound test allowed)
    {id : Nat} {choices : List Choice} (played : board.advance hub test id choices = some board') :
    (machine hub).Runs allowed board.pool board'.pool := by
  induction choices generalizing board with
  | nil =>
    cases played
    exact .refl
  | cons choice rest ih =>
    unfold advance at played
    split at played
    · cases played
    rename_i thread running
    split at played
    next move thread' state' launched moves step =>
      split at played
      next passed =>
        refine .trans (.single ?_) (ih played)
        have permitted := sound thread move board.state passed
        cases launched with
        | none =>
          rw [Option.toList_none, append_nil, pool_set state' running]
          exact .advance id running permitted ⟨choice, moves, step⟩
        | some =>
          rw [Option.toList_some, pool_append, pool_set state' running, length_set]
          exact .launch id _ running (pool_vacant _ _) permitted ⟨choice, moves, step⟩
      next => cases played
    · cases played
      exact .refl

theorem turn_runs (sound : Sound test allowed)
    {next : Turn} (played : board.turn hub test next = some board') :
    (machine hub).Runs allowed board.pool board'.pool := by
  cases next with
  | call call =>
    have entered := advance_runs sound played
    rw [pool_append] at entered
    exact .trans (.single (.enter _ (pool_vacant _ _) ⟨call, rfl⟩)) entered
  | resume => exact advance_runs sound played

/-- A schedule that can be played reaches its last board from its first one. -/
theorem play_runs (sound : Sound test allowed)
    {schedule : List Turn} (played : board.play hub test schedule = some board') :
    (machine hub).Runs allowed board.pool board'.pool := by
  induction schedule generalizing board with
  | nil =>
    cases played
    exact .refl
  | cons next rest ih =>
    unfold play at played
    split at played
    · cases played
    next middle reached => exact (turn_runs sound reached).trans (ih played)

/-- A played schedule yields a reachable pool that passes the goal's test. -/
theorem reachable_of_plays (allowed : Thread → Move → State → Prop) (sound : Sound test allowed)
    {schedule : List Turn} {goal : Board → Bool} (played : plays hub test schedule goal = true) :
    ∃ board, fresh.play hub test schedule = some board ∧
      (machine hub).Reachable allowed board.pool ∧ goal board = true := by
  unfold plays at played
  cases reached : fresh.play hub test schedule with
  | none =>
    rw [reached] at played
    cases played
  | some board =>
    rw [reached] at played
    exact ⟨board, rfl, ⟨fresh.state, ⟨1, Nat.le_refl 1, rfl⟩, play_runs sound reached⟩, played⟩

end Board

/-- A small configuration for concrete runs: blobs of four bytes, eight bytes
in all, and an allocator that grants exactly what is asked. -/
def OperationHub.small : OperationHub where
  scope := 1
  maximumOperations := 8
  maximumResources := 8
  blobLimits := {
    maximumChunkBytes := 4
    maximumBlobBytes := 4
    maximumSketchBytes := 8
    maximumLiveBlobs := 128
    maximumPendingReads := 128
    maximumPendingWrites := 128
    maximumTransferBytes := 28
    chunkPositive := by decide
    chunk_le_blob := by decide
    blob_le_sketch := by decide
    transferCovers := by decide
    transferRepresentable := by decide }
  allocator := .exact

/-- The limits of the small configuration are those of `BlobLimits::new`. -/
example : BlobLimits.new 4 4 8 = .ok OperationHub.small.blobLimits := by
  rfl

end KernalApi.Hub
