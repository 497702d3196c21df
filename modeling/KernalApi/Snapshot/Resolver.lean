import KernalApi.Std.SortedMap

/-!
# Frames of captured threads

`FrameResolver` unwinds captured threads against the images that are mapped, and
keeps the result of each thread for as long as neither the thread nor the images
change. A limit bounds how many positions of a capture are unwound in one call,
in a window that moves on from call to call. Unwinding is a parameter.
-/

namespace KernalApi.Snapshot

open KernalApi.Std

/-- The registers and the stack copy of a thread: everything that unwinding reads. -/
structure ThreadContext where
  instructionPointer : UInt64
  stackPointer : UInt64
  framePointer : UInt64
  linkRegister : Option UInt64
  truncated : Bool
  stackBytes : List UInt8
deriving DecidableEq

structure ThreadSample where
  osTid : Nat
  context : ThreadContext
  frames : List UInt64
deriving DecidableEq

/-- A capture; a vector of samples is shorter than `isize::MAX`. -/
structure ThreadSnapshot where
  threads : List ThreadSample
  bounded : threads.length < 2 ^ 63

structure CachedThread where
  context : ThreadContext
  frames : List UInt64
  fresh : Bool

def CachedThread.matches (cached : CachedThread) (sample : ThreadSample) : Bool :=
  cached.context = sample.context

def CachedThread.fromSample (sample : ThreadSample) : CachedThread :=
  ⟨sample.context, sample.frames, true⟩

/-- What the process answers about its mapped images: `loaded_image_signature`
and `enumerate_modules`, where either may fail. -/
structure Images (ι : Type) where
  signature : Option Nat
  modules : Option ι

structure FrameResolver (ι : Type) where
  built : Bool
  signature : Nat
  modules : ι
  cachedThreads : SortedMap Nat CachedThread
  nextUnwindIndex : Nat

/-- One call: the answers it gets, the capture and `max_unwinds_per_tick`. -/
structure Call (ι : Type) where
  images : Images ι
  snapshot : ThreadSnapshot
  limit : Option Nat

/-- Whether a position of a capture is in the window that starts at `start`.
The sum is below `2 ^ 64`, since captures are bounded. -/
def inWindow (limit : Option Nat) (threadCount start index : Nat) : Bool :=
  limit.all fun limit => (index + threadCount - start) % max threadCount 1 < limit

namespace FrameResolver

variable {ι : Type}

/-- A resolver that has built nothing yet, with an empty inventory. -/
def new (none : ι) : FrameResolver ι := ⟨false, 0, none, .empty, 0⟩

/-- Builds the inventory, or rebuilds it if the mapped images changed. -/
def refresh (resolver : FrameResolver ι) (images : Images ι) : Bool × FrameResolver ι :=
  match images.signature with
  | none => (false, resolver)
  | some signature =>
    if resolver.built && signature == resolver.signature then (true, resolver)
    else
      match images.modules with
      | none => (false, { resolver with built := true })
      | some modules => (true, ⟨true, signature, modules, .empty, 0⟩)

section

variable (unwindSample : ι → ThreadContext → List UInt64)

/-- One sample: the frames that are kept, unwound or cut to the instruction pointer. -/
def resolveSample (resolver : FrameResolver ι) (windowed : Bool) (sample : ThreadSample) :
    ThreadSample × CachedThread :=
  let previous := (resolver.cachedThreads.get? sample.osTid).filter fun cached =>
    cached.fresh && cached.matches sample
  let frames :=
    match previous with
    | some cached => cached.frames
    | none =>
      if windowed then unwindSample resolver.modules sample.context
      else [sample.context.instructionPointer]
  let sample := { sample with frames }
  (sample, { CachedThread.fromSample sample with fresh := previous.isSome || windowed })

/-- The loop over the samples from a position on. -/
def resolveSamples (resolver : FrameResolver ι) (window : Nat → Bool) :
    Nat → List ThreadSample → SortedMap Nat CachedThread →
      List ThreadSample × SortedMap Nat CachedThread
  | _, [], next => ([], next)
  | index, sample :: rest, next =>
    let (sample, cached) := resolver.resolveSample unwindSample (window index) sample
    let (samples, next) := resolveSamples resolver window (index + 1) rest
      (next.insert sample.osTid cached)
    (sample :: samples, next)

/-- Where the window of a call starts. -/
def start (resolver : FrameResolver ι) (threadCount : Nat) : Nat :=
  resolver.nextUnwindIndex % max threadCount 1

/-- The resolved threads, or nothing if the images could not be read. -/
def resolveWithLimit (resolver : FrameResolver ι) (call : Call ι) :
    Option (List ThreadSample) × FrameResolver ι :=
  match resolver.refresh call.images with
  | (false, resolver) => (none, resolver)
  | (true, resolver) =>
    let threadCount := call.snapshot.threads.length
    let start := resolver.start threadCount
    let (samples, next) := resolver.resolveSamples unwindSample
      (inWindow call.limit threadCount start) 0 call.snapshot.threads .empty
    (some samples, { resolver with
      cachedThreads := next
      nextUnwindIndex := (start + call.limit.getD threadCount) % 2 ^ 64 % max threadCount 1 })

end

/-- Whether a position is in the window of a call. -/
def window (resolver : FrameResolver ι) (call : Call ι) (index : Nat) : Bool :=
  let threadCount := call.snapshot.threads.length
  inWindow call.limit threadCount ((resolver.refresh call.images).2.start threadCount) index

/-! ## Transparency -/

section

variable (unwindSample : ι → ThreadContext → List UInt64)

/-- The frames that count as fresh are those of the current inventory. -/
def Sound (modules : ι) (cachedThreads : SortedMap Nat CachedThread) : Prop :=
  ∀ osTid cached, cachedThreads.get? osTid = some cached → cached.fresh = true →
    cached.frames = unwindSample modules cached.context

/-- Resolvers after any sequence of calls. -/
inductive Reached (none : ι) : FrameResolver ι → Prop
  | new : Reached none (new none)
  | call {resolver : FrameResolver ι} (reached : Reached none resolver) (call : Call ι) :
      Reached none (resolver.resolveWithLimit unwindSample call).2

/-- A sample is reported with its frames, or with the instruction pointer alone outside the
window. -/
structure Reported (modules : ι) (windowed : Bool) (sample reported : ThreadSample) : Prop where
  osTid : reported.osTid = sample.osTid
  context : reported.context = sample.context
  frames : reported.frames = unwindSample modules sample.context ∨
    reported.frames = [sample.context.instructionPointer] ∧ windowed = false

end

variable {unwindSample : ι → ThreadContext → List UInt64} {resolver : FrameResolver ι}

theorem sound_empty (modules : ι) : Sound unwindSample modules .empty := by
  intro osTid cached found
  simp at found

theorem Sound.insert {modules : ι} {cachedThreads : SortedMap Nat CachedThread}
    (sound : Sound unwindSample modules cachedThreads) {osTid : Nat} {cached : CachedThread}
    (new : cached.fresh = true → cached.frames = unwindSample modules cached.context) :
    Sound unwindSample modules (cachedThreads.insert osTid cached) := by
  intro other found lookup
  rw [SortedMap.get?_insert] at lookup
  split at lookup
  · cases lookup
    exact new
  exact sound other found lookup

section

variable (sound : Sound unwindSample resolver.modules resolver.cachedThreads)

include sound

/-- A rebuilt inventory comes with an empty cache; otherwise both stay. -/
theorem refresh_sound (images : Images ι) :
    Sound unwindSample (resolver.refresh images).2.modules
      (resolver.refresh images).2.cachedThreads := by
  unfold refresh
  split
  · exact sound
  split
  · exact sound
  split
  · exact sound
  exact sound_empty _

theorem resolveSample_reported (windowed : Bool) (sample : ThreadSample) :
    Reported unwindSample resolver.modules windowed sample
        (resolver.resolveSample unwindSample windowed sample).1 ∧
      ((resolver.resolveSample unwindSample windowed sample).2.fresh = true →
        (resolver.resolveSample unwindSample windowed sample).2.frames =
          unwindSample resolver.modules (resolver.resolveSample unwindSample windowed
            sample).2.context) := by
  unfold resolveSample
  cases previous : (resolver.cachedThreads.get? sample.osTid).filter fun cached =>
    cached.fresh && cached.matches sample with
  | some cached =>
    obtain ⟨found, unchanged⟩ := Option.filter_eq_some_iff.1 previous
    rw [Bool.and_eq_true, CachedThread.matches, decide_eq_true_eq] at unchanged
    have frames := sound _ _ found unchanged.1
    rw [unchanged.2] at frames
    exact ⟨⟨rfl, rfl, .inl frames⟩, fun _ => frames⟩
  | none =>
    cases windowed with
    | true => exact ⟨⟨rfl, rfl, .inl rfl⟩, fun _ => rfl⟩
    | false => exact ⟨⟨rfl, rfl, .inr ⟨rfl, rfl⟩⟩, by simp⟩

/-- The loop reports every sample by its position, and leaves a sound cache. -/
theorem resolveSamples_reported
    (window : Nat → Bool) (samples : List ThreadSample) (index : Nat)
    (next : SortedMap Nat CachedThread)
    (soundNext : Sound unwindSample resolver.modules next) :
    let resolved := resolver.resolveSamples unwindSample window index samples next
    (resolved.1.length = samples.length ∧
      ∀ (place : Nat) (sample : ThreadSample), samples[place]? = some sample →
        ∃ reported, resolved.1[place]? = some reported ∧
          Reported unwindSample resolver.modules (window (index + place)) sample reported) ∧
      Sound unwindSample resolver.modules resolved.2 := by
  induction samples generalizing index next with
  | nil => simpa [resolveSamples] using soundNext
  | cons sample rest ih =>
    obtain ⟨reported, fresh⟩ := resolveSample_reported sound (window index) sample
    obtain ⟨⟨length, later⟩, final⟩ := ih (index + 1)
      (next.insert (resolver.resolveSample unwindSample (window index) sample).1.osTid _)
      (soundNext.insert fresh)
    refine ⟨⟨congrArg (· + 1) length, ?_⟩, final⟩
    · intro place current found
      cases place with
      | zero =>
        cases found
        exact ⟨_, rfl, reported⟩
      | succ place =>
        obtain ⟨result, lookup, shown⟩ := later place current found
        refine ⟨result, lookup, ?_⟩
        rwa [Nat.add_assoc, Nat.add_comm 1 place] at shown

end

/-- What a call does: nothing but the refresh, or the loop over the samples. -/
theorem resolveWithLimit_cases (resolver : FrameResolver ι) (call : Call ι) :
    ((resolver.refresh call.images).1 = false ∧
        resolver.resolveWithLimit unwindSample call = (none, (resolver.refresh call.images).2)) ∨
      ((resolver.refresh call.images).1 = true ∧
        resolver.resolveWithLimit unwindSample call =
          let refreshed := (resolver.refresh call.images).2
          let threadCount := call.snapshot.threads.length
          let resolved := refreshed.resolveSamples unwindSample
            (resolver.window call) 0 call.snapshot.threads .empty
          (some resolved.1, { refreshed with
            cachedThreads := resolved.2
            nextUnwindIndex :=
              (refreshed.start threadCount + call.limit.getD threadCount) % 2 ^ 64 % max threadCount
              1 })) := by
  unfold resolveWithLimit window
  match resolver.refresh call.images with
  | (false, refreshed) => exact .inl ⟨rfl, rfl⟩
  | (true, refreshed) => exact .inr ⟨rfl, rfl⟩

/-- Every call keeps the cache sound. -/
theorem resolveWithLimit_sound (sound : Sound unwindSample resolver.modules resolver.cachedThreads)
    (call : Call ι) :
    Sound unwindSample (resolver.resolveWithLimit unwindSample call).2.modules
      (resolver.resolveWithLimit unwindSample call).2.cachedThreads := by
  have refreshed := refresh_sound sound call.images
  rcases @resolveWithLimit_cases ι unwindSample resolver call with ⟨-, done⟩ | ⟨-, done⟩
  · rw [done]
    exact refreshed
  · rw [done]
    exact (resolveSamples_reported refreshed _ _ 0 _ (sound_empty _)).2

theorem Reached.sound {none : ι} (reached : Reached unwindSample none resolver) :
    Sound unwindSample resolver.modules resolver.cachedThreads := by
  induction reached with
  | new => exact sound_empty _
  | call reached call ih => exact resolveWithLimit_sound ih call

/-! ## Fairness -/

/-- The resolver after a sequence of calls. -/
def after (unwindSample : ι → ThreadContext → List UInt64) (resolver : FrameResolver ι)
    (calls : List (Call ι)) : FrameResolver ι :=
  calls.foldl (fun resolver call => (resolver.resolveWithLimit unwindSample call).2) resolver

/-- Every call of a sequence returns. -/
def Return (unwindSample : ι → ThreadContext → List UInt64) : FrameResolver ι → List (Call ι) → Prop
  | _, [] => True
  | resolver, call :: rest =>
    (resolver.resolveWithLimit unwindSample call).1.isSome ∧
      Return unwindSample (resolver.resolveWithLimit unwindSample call).2 rest

/-- Calls alike: as many threads, one limit, one image signature. -/
structure Alike (threadCount limit signature : Nat) (call : Call ι) : Prop where
  threads : call.snapshot.threads.length = threadCount
  limit : call.limit = some limit
  signature : call.images.signature = some signature

variable {place : Nat}

/-- How far a position is from the start of a window, going round. -/
theorem distance_eq {count start : Nat} (inside : place < count) (bound : start < count) :
    (place + count - start) % count = if start ≤ place then place - start
    else place + count - start := by
  split
  · have turned : place + count - start = place - start + count := by omega
    rw [turned, Nat.add_mod_right, Nat.mod_eq_of_lt (by omega)]
  exact Nat.mod_eq_of_lt (by omega)

variable {limit : Nat}

/-- A window that moves on comes nearer to the positions it has not reached. -/
theorem distance_advance {count start : Nat} (inside : place < count) (bound : start < count)
    (beyond : limit ≤ (place + count - start) % count) :
    (place + count - (start + limit) % count) % count =
    (place + count - start) % count - limit := by
  have positive : 0 < count := by omega
  rw [distance_eq inside (Nat.mod_lt _ positive), distance_eq inside bound]
  rw [distance_eq inside bound] at beyond
  by_cases wrapped : start + limit < count
  · rw [Nat.mod_eq_of_lt wrapped]
    split at beyond <;> split <;> omega
  · have once : (start + limit) % count = start + limit - count := by
      rw [Nat.mod_eq_sub_mod (by omega), Nat.mod_eq_of_lt (by split at beyond <;> omega)]
    split at beyond <;> split <;> omega

variable {signature : Nat}

theorem refresh_current {images : Images ι} (same : images.signature = some signature)
    (built : resolver.built = true) (current : resolver.signature = signature) :
    resolver.refresh images = (true, resolver) := by
  simp [refresh, same, built, current]

theorem refresh_settles {images : Images ι} (same : images.signature = some signature)
    (refreshed : (resolver.refresh images).1 = true) :
    (resolver.refresh images).2.built = true ∧ (resolver.refresh images).2.signature =
    signature := by
  unfold refresh at refreshed ⊢
  simp only [same] at refreshed ⊢
  split
  · rename_i unchanged
    simp only [Bool.and_eq_true, beq_iff_eq] at unchanged
    exact ⟨unchanged.1, unchanged.2.symm⟩
  cases modules : images.modules with
  | none => simp_all
  | some => exact ⟨rfl, rfl⟩

variable {threadCount : Nat}

theorem window_eq {call : Call ι} (alike : Alike threadCount limit signature call)
    (resolver : FrameResolver ι) (inside : place < threadCount) :
    resolver.window call place = true ↔
      (place + threadCount - (resolver.refresh call.images).2.start threadCount) % threadCount <
      limit := by
  have positive : max threadCount 1 = threadCount := by omega
  simp [window, inWindow, alike.threads, alike.limit, positive]

/-- After a call that returns, the next call of its kind starts where its window ended. -/
theorem start_after {call later : Call ι} (alike : Alike threadCount limit signature call)
    (alikeLater : Alike threadCount limit signature later)
    (returned : (resolver.resolveWithLimit unwindSample call).1.isSome)
    (small : limit < threadCount) :
    (((resolver.resolveWithLimit unwindSample call).2.refresh later.images).2).start threadCount =
      ((resolver.refresh call.images).2.start threadCount + limit) % threadCount := by
  rcases @resolveWithLimit_cases ι unwindSample resolver call with ⟨-, done⟩ | ⟨refreshed, done⟩
  · rw [done] at returned
    contradiction
  obtain ⟨built, current⟩ := refresh_settles alike.signature refreshed
  have same : (resolver.resolveWithLimit unwindSample call).2.refresh later.images =
      (true, (resolver.resolveWithLimit unwindSample call).2) :=
    refresh_current alikeLater.signature (by rw [done]; exact built) (by rw [done]; exact current)
  rw [same, done]
  have positive : max threadCount 1 = threadCount := by omega
  have bound : (resolver.refresh call.images).2.start threadCount < threadCount := by
    rw [start, positive]
    exact Nat.mod_lt _ (by omega)
  have bounded := call.snapshot.bounded
  rw [alike.threads] at bounded
  have unwrapped : ((resolver.refresh call.images).2.start threadCount + limit) % 2 ^ 64 =
      (resolver.refresh call.images).2.start threadCount + limit := Nat.mod_eq_of_lt (by omega)
  simp only [alike.threads, alike.limit, Option.getD_some, unwrapped]
  rw [start, positive, Nat.mod_mod]

/-- Calls alike reach a position that is nearer to the start than all their windows together. -/
theorem window_reaches (inside : place < threadCount) (call : Call ι) (rest : List (Call ι))
    (resolver : FrameResolver ι)
    (alike : ∀ other ∈ call :: rest, Alike threadCount limit signature other)
    (returns : Return unwindSample resolver (call :: rest))
    (near : (place + threadCount - (resolver.refresh call.images).2.start threadCount) % threadCount
      < (rest.length + 1) * limit) :
    ∃ front current later, call :: rest = front ++ current :: later ∧
      (resolver.after unwindSample front).window current place = true := by
  induction rest generalizing call resolver with
  | nil =>
    refine ⟨[], call, [], rfl, ?_⟩
    rw [after, List.foldl_nil, window_eq (alike call (by simp)) resolver inside]
    simpa using near
  | cons next rest ih =>
    have first := alike call (by simp)
    by_cases reached : resolver.window call place = true
    · exact ⟨[], call, next :: rest, rfl, reached⟩
    rw [window_eq first resolver inside, Nat.not_lt] at reached
    have positive : max threadCount 1 = threadCount := by omega
    have bound : (resolver.refresh call.images).2.start threadCount < threadCount := by
      rw [start, positive]
      exact Nat.mod_lt _ (by omega)
    have small : limit < threadCount := Nat.lt_of_le_of_lt reached (Nat.mod_lt _ (by omega))
    have moved := @start_after ι unwindSample resolver _ _ _ _ next first
      (alike next (by simp)) returns.1 small
    obtain ⟨front, current, later, split, hit⟩ :=
      ih next _ (fun other member => alike other (by simp_all))
      returns.2 (by
        rw [moved, distance_advance inside bound reached]
        rw [Nat.add_mul] at near
        rw [List.length_cons] at near
        omega)
    exact ⟨call :: front, current, later, by rw [split]; rfl, hit⟩

/-- A resolver is transparent: a call that returns reports each sample as unwound
against the current inventory, or by its instruction pointer when its position is
outside the window of the call. And it is fair: calls alike that cover the
threads have each position in one of their windows. -/
theorem resolver_transparent_fair (none : ι) {resolver : FrameResolver ι}
    (reached : Reached unwindSample none resolver) :
    (∀ call samples, (resolver.resolveWithLimit unwindSample call).1 = some samples →
      samples.length = call.snapshot.threads.length ∧
        ∀ (place : Nat) (sample : ThreadSample), call.snapshot.threads[place]? = some sample →
          ∃ reported, samples[place]? = some reported ∧
            Reported unwindSample (resolver.resolveWithLimit unwindSample call).2.modules
              (resolver.window call place) sample reported) ∧
    (∀ threadCount limit signature calls, 1 ≤ limit →
      (∀ call ∈ calls, Alike threadCount limit signature call) →
      Return unwindSample resolver calls →
      calls.length = (threadCount + limit - 1) / limit → ∀ place < threadCount,
        ∃ front call rest, calls = front ++ call :: rest ∧
          (resolver.after unwindSample front).window call place = true) := by
  refine ⟨fun call samples returned => ?_, ?_⟩
  · have refreshed := refresh_sound reached.sound call.images
    rcases @resolveWithLimit_cases ι unwindSample resolver call with ⟨-, done⟩ | ⟨-, done⟩
    · rw [done] at returned
      contradiction
    rw [done] at returned ⊢
    cases returned
    have resolved := (resolveSamples_reported refreshed
      (resolver.window call) call.snapshot.threads 0 _ (sound_empty _)).1
    simpa only [Nat.zero_add] using resolved
  intro threadCount limit signature calls positive alike returns enough place inside
  have cover : threadCount ≤ calls.length * limit := by
    rw [enough]
    have := Nat.div_add_mod (threadCount + limit - 1) limit
    have := Nat.mod_lt (threadCount + limit - 1) positive
    rw [Nat.mul_comm]
    omega
  cases calls with
  | nil => simp at cover; omega
  | cons call rest =>
    refine window_reaches inside call rest resolver alike returns ?_
    exact Nat.lt_of_lt_of_le (Nat.mod_lt _ (by omega)) cover

/-- A thread that stands at an address, without a stack. -/
def standing (osTid : Nat) (instructionPointer : UInt64) : ThreadSample :=
  ⟨osTid, ⟨instructionPointer, 0, 0, none, false, []⟩, []⟩

/-- Three threads, two of which are unwound in one call. -/
def threeThreads : Call Nat :=
  ⟨⟨some 7, some 1⟩, ⟨[standing 1 16, standing 2 32, standing 3 48], by decide⟩, some 2⟩

/-- Unwinds to the instruction pointer and a caller. -/
def unwindTwice (_ : Nat) (context : ThreadContext) : List UInt64 :=
  [context.instructionPointer, context.instructionPointer + 1]

theorem resolver_transparent_fair_three :
    (∃ reported : ThreadSample, reported.frames = [48] ∧
      Reported unwindTwice 1 false (standing 3 48) reported) ∧
    ∃ front call rest, [threeThreads, threeThreads] = front ++ call :: rest ∧
      ((new 0).after unwindTwice front).window call 2 = true := by
  obtain ⟨transparent, fair⟩ := resolver_transparent_fair 0
    (Reached.new : Reached unwindTwice 0 (new 0))
  constructor
  · obtain ⟨-, reports⟩ := transparent threeThreads _ rfl
    obtain ⟨reported, found, shown⟩ := reports 2 (standing 3 48) rfl
    cases found
    exact ⟨_, rfl, shown⟩
  · refine fair 3 2 7 [threeThreads, threeThreads] (by decide) ?_ ?_ rfl 2 (by decide)
    · intro call member
      simp only [List.mem_cons, List.not_mem_nil, or_false, or_self] at member
      subst member
      exact ⟨rfl, rfl, rfl⟩
    · exact ⟨rfl, rfl, trivial⟩

end FrameResolver

end KernalApi.Snapshot

