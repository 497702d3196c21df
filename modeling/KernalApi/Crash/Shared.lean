import KernalApi.Crash.Layout

/-!
# The shared crash record

`Shared` keeps two copies of the record and an index of the one a crash would
emit. A publisher stamps the template under the `publish` lock, copies it over
the other buffer and then moves the index. Each step here is one atomic load,
store or lock operation, or one byte of the copy, which is no atomic operation.
-/

namespace KernalApi.Crash

open List

variable {shared before after : Shared} {count : Nat} {first last : Publisher} {inactive : Fin 2}
  {metadata : CrashMetadata}

/-- What one capture of all threads yields. -/
abbrev Sample := List CrashModule × List CrashThread

structure Shared where
  buffers : Fin 2 → List UInt8
  template : List UInt8
  /-- Whether `publish` is held; `template` is only locked under it. -/
  publish : Bool
  metadataGeneration : UInt64
  active : Fin 2
  reading : Bool
  inHandler : Bool

namespace Shared

def new (template : List UInt8) : Shared :=
  { buffers := fun _ => template, template := template, publish := false, metadataGeneration := 1
    active := 0, reading := false, inHandler := false }

/-- Puts a record into one of the two buffers. -/
def setBuffer (shared : Shared) (index : Fin 2) (record : List UInt8) : Shared :=
  { shared with buffers := Function.update shared.buffers index record }

@[simp] theorem setBuffer_self (shared : Shared) (index : Fin 2) :
    shared.setBuffer index (shared.buffers index) = shared := by
  unfold setBuffer
  rw [Function.update_eq_self]

@[simp] theorem setBuffer_buffers (shared : Shared) (index : Fin 2) (record : List UInt8) :
    (shared.setBuffer index record).buffers index = record := Function.update_self ..

theorem setBuffer_other {index other : Fin 2} {record : List UInt8}
    (distinct : other ≠ index) : (shared.setBuffer index record).buffers other =
    shared.buffers other :=
  Function.update_of_ne distinct ..

@[simp] theorem setBuffer_setBuffer (shared : Shared) (index : Fin 2) (first second : List UInt8) :
    (shared.setBuffer index first).setBuffer index second = shared.setBuffer index second := by
  unfold setBuffer
  simp

/-- Copies the template over the inactive buffer and makes it the active one. -/
def publishTemplate (shared : Shared) : Shared :=
  let inactive := 1 - shared.active
  { shared.setBuffer inactive shared.template with active := inactive }

/-- The whole of `set_metadata`, under its lock. -/
def setMetadata (shared : Shared) (generation : UInt64) (metadata : CrashMetadata) : Shared :=
  if generation ≤ shared.metadataGeneration then shared
  else
    { publishTemplate { shared with template := putMetadata shared.template metadata } with
      metadataGeneration := generation }

/-- The whole of one publication of the sampler, under its lock. -/
def publishSample (shared : Shared) (sample : Sample) : Shared :=
  publishTemplate { shared with template := putSample shared.template sample.1 sample.2 }

end Shared

/-- Where a publisher stands: in a call of `set_metadata` or in one round of the
sampler. `loadActive` and what follows is common to both; only `set_metadata`
has a generation to store. -/
inductive Publisher
  | setMetadata (generation : UInt64) (metadata : CrashMetadata)
  | compareGeneration (generation : UInt64) (metadata : CrashMetadata)
  | stampMetadata (generation : UInt64) (metadata : CrashMetadata)
  | beforeCapture (sample : Sample)
  | afterCapture (sample : Sample)
  | publishSample (sample : Sample)
  | stampSample (sample : Sample)
  | loadActive (generation : Option UInt64)
  | copy (generation : Option UInt64) (inactive : Fin 2) (copied : Nat)
  | storeGeneration (generation : UInt64) (inactive : Fin 2)
  | storeActive (inactive : Fin 2)
  | release
  | finished

namespace Publisher

/-- The next step of a publisher; none while it waits for the lock and when it
is done. -/
def step : Publisher → Shared → Option (Publisher × Shared)
  | setMetadata generation metadata, shared =>
    if shared.publish then none
    else some (compareGeneration generation metadata, { shared with publish := true })
  | compareGeneration generation metadata, shared =>
    if generation ≤ shared.metadataGeneration then some (release, shared)
    else some (stampMetadata generation metadata, shared)
  | stampMetadata generation metadata, shared =>
    some (loadActive (some generation),
      { shared with template := putMetadata shared.template metadata })
  | beforeCapture sample, shared =>
    if shared.reading then some (finished, shared) else some (afterCapture sample, shared)
  | afterCapture sample, shared =>
    if shared.reading then some (finished, shared) else some (publishSample sample, shared)
  | publishSample sample, shared =>
    if shared.publish then none else some (stampSample sample, { shared with publish := true })
  | stampSample sample, shared =>
    some (loadActive none, { shared with template := putSample shared.template sample.1 sample.2 })
  | loadActive generation, shared => some (copy generation (1 - shared.active) 0, shared)
  | copy generation inactive copied, shared =>
    if copied < recordSize then
      let byte := shared.template.getD copied 0
      some (copy generation inactive (copied + 1),
        shared.setBuffer inactive ((shared.buffers inactive).set copied byte))
    else
      match generation with
      | some generation => some (storeGeneration generation inactive, shared)
      | none => some (storeActive inactive, shared)
  | storeGeneration generation inactive, shared =>
    some (storeActive inactive, { shared with metadataGeneration := generation })
  | storeActive inactive, shared => some (release, { shared with active := inactive })
  | release, shared => some (finished, { shared with publish := false })
  | finished, _ => none

/-- Whether a publisher holds `publish`. -/
def locked : Publisher → Bool
  | compareGeneration .. | stampMetadata .. | stampSample .. | loadActive .. | copy ..
  | storeGeneration .. | storeActive .. | release => true
  | setMetadata .. | beforeCapture .. | afterCapture .. | publishSample .. | finished => false

/-- The buffer a publisher is writing to. -/
def writes : Publisher → Option (Fin 2)
  | copy _ inactive _ => some inactive
  | _ => none

end Publisher

/-- Steps of one publisher that nothing interrupts. -/
inductive Publisher.Solo : Publisher → Shared → Publisher → Shared → Prop
  | refl {publisher : Publisher} {shared : Shared} : Solo publisher shared publisher shared
  | tail {first middle last : Publisher} {before between after : Shared}
      (solo : Solo first before middle between) (step : middle.step between = some (last, after)) :
      Solo first before last after

/-- The bytes copied so far, over what was there. -/
def copied (template target : List UInt8) (count : Nat) : List UInt8 :=
  template.take count ++ target.drop count

theorem copied_succ {template target : List UInt8} (inTemplate : count < template.length)
    (inTarget : count < target.length) :
    (copied template target count).set count (template.getD count 0) =
    copied template target (count + 1) := by
  unfold copied
  have front : (template.take count).length = count := by
    rw [length_take]
    omega
  rw [set_append_right _ _ (by omega), front, Nat.sub_self,
    drop_eq_getElem_cons inTarget, take_succ_eq_append_getElem inTemplate,
    append_assoc, getD_eq_getElem?_getD, getElem?_eq_getElem inTemplate]
  rfl

namespace Publisher.Solo

theorem trans {middle : Publisher} {between : Shared}
    (front : Solo first before middle between) (rest : Solo middle between last after) :
    Solo first before last after := by
  induction rest with
  | refl => exact front
  | tail _ step ih => exact (ih front).tail step

theorem single (step : first.step before = some (last, after)) : Solo first before last after :=
  .tail .refl step

/-- The copy brings the whole template to the inactive buffer. -/
theorem copies {generation : Option UInt64} (template : shared.template.length = recordSize)
    (target : (shared.buffers inactive).length = recordSize) :
    Solo (.copy generation inactive 0) shared (.copy generation inactive recordSize)
      (shared.setBuffer inactive shared.template) := by
  have stage : ∀ count, count ≤ recordSize →
      Solo (.copy generation inactive 0) shared (.copy generation inactive count)
        (shared.setBuffer inactive (copied shared.template (shared.buffers inactive) count)) := by
    intro count
    induction count with
    | zero =>
      intro _
      have nothing : copied shared.template (shared.buffers inactive) 0 = shared.buffers inactive :=
        rfl
      rw [nothing, Shared.setBuffer_self]
      exact .refl
    | succ count ih =>
      intro room
      refine (ih (by omega)).tail ?_
      simp only [Publisher.step, if_pos (show count < recordSize by omega)]
      rw [Shared.setBuffer_buffers, Shared.setBuffer_setBuffer, ← copied_succ (by omega) (by omega)]
      rfl
  have whole := stage recordSize (Nat.le_refl _)
  unfold copied at whole
  rw [take_of_length_le (by omega), drop_of_length_le (by omega), append_nil] at whole
  exact whole

variable {generation : UInt64}

theorem publishesGeneration (template : shared.template.length = recordSize)
    (target : (shared.buffers (1 - shared.active)).length = recordSize) :
    Solo (.loadActive (some generation)) shared (.storeActive (1 - shared.active))
      { shared.setBuffer (1 - shared.active) shared.template
        with metadataGeneration := generation } := by
  have loaded : Solo (.loadActive (some generation)) shared
      (.copy (some generation) (1 - shared.active) 0) shared := single rfl
  have stored : Solo (.loadActive (some generation)) shared
      (.storeGeneration generation (1 - shared.active))
      (shared.setBuffer (1 - shared.active) shared.template) := by
    refine (loaded.trans (copies template target)).tail ?_
    simp [Publisher.step]
  exact stored.tail rfl

/-- A newer generation gets as far as the index with the template stamped. -/
theorem stamps (free : shared.publish = false) (newer : ¬ generation ≤ shared.metadataGeneration) :
    Solo (.setMetadata generation metadata) shared (.loadActive (some generation))
      { shared with template := putMetadata shared.template metadata, publish := true } := by
  have entered : Solo (.setMetadata generation metadata) shared
      (.compareGeneration generation metadata) { shared with publish := true } := by
    apply single
    simp only [Publisher.step, free]
    rfl
  have compared : Solo (.setMetadata generation metadata) shared
      (.stampMetadata generation metadata) { shared with publish := true } := by
    apply entered.tail
    simp [Publisher.step, newer]
  exact compared.tail rfl

theorem turns (free : shared.publish = false) (newer : ¬ generation ≤ shared.metadataGeneration) :
    Solo (.setMetadata generation metadata) shared (.copy (some generation) (1 - shared.active) 0)
      { shared with template := putMetadata shared.template metadata, publish := true } :=
  (stamps free newer).tail rfl

/-- Uninterrupted, a call of `set_metadata` is the whole function. -/
theorem setMetadata (free : shared.publish = false) (template : shared.template.length = recordSize)
    (target : ∀ index, (shared.buffers index).length = recordSize) :
    Solo (.setMetadata generation metadata) shared .finished
      (shared.setMetadata generation metadata) := by
  unfold Shared.setMetadata
  by_cases stale : generation ≤ shared.metadataGeneration
  · obtain ⟨buffers, record, publish, last, active, reading, inHandler⟩ := shared
    cases free
    rw [if_pos stale]
    have entered : Solo (.setMetadata generation metadata)
        ⟨buffers, record, false, last, active, reading, inHandler⟩
        (.compareGeneration generation metadata)
        ⟨buffers, record, true, last, active, reading, inHandler⟩ := single rfl
    have kept : Solo (.setMetadata generation metadata)
        ⟨buffers, record, false, last, active, reading, inHandler⟩ .release
        ⟨buffers, record, true, last, active, reading, inHandler⟩ := by
      apply entered.tail
      simp [Publisher.step, stale]
    exact kept.tail rfl
  · have stamped := @stamps shared metadata generation free stale
    obtain ⟨buffers, record, publish, last, active, reading, inHandler⟩ := shared
    cases free
    rw [if_neg stale]
    have sized : (putMetadata record metadata).length = recordSize :=
      ((stamps_putMetadata metadata).length record).trans template
    exact ((stamped.trans (publishesGeneration sized (target _))).tail rfl).tail rfl

end Publisher.Solo

end KernalApi.Crash
