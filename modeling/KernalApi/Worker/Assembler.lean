import Mathlib.Data.List.Induction
import KernalApi.Std.Chunks
import KernalApi.Worker.Outcome

/-!
# The module upload

The parent cuts a module into chunks that fill a frame, `ModuleAssembler` puts
them together again in the worker, and `runWithIo` is the worker's side of the
exchange up to the acknowledgement. A chunk's bytes are kept before the sequence
number is advanced, so the one chunk for which there is no next number is kept
and refused at once.
-/

namespace KernalApi.Worker

open KernalApi.Std List

variable {started : ModuleAssembler} {taken : List (UInt32 × List UInt8)} {bytes : List UInt8}
  {target : Target}

structure ModuleAssembler where
  requestId : UInt64
  declared : Nat
  callerMax : Nat
  next : UInt32 := 0
  ended : Bool := false
  terminal : Bool := false
  module : List UInt8 := []
  deriving DecidableEq

/-- What a chunk's frame leaves for its bytes, after the request id and the
sequence number. -/
def maxChunkBytes : Nat := maxFramePayload - 12

namespace ModuleAssembler

def start (requestId moduleLen callerMax : UInt64) : Except ProtocolError ModuleAssembler :=
  if requestId = 0 then .error .invalidRequestId
  else if workerProtocolMaxModuleBytes < moduleLen.toNat ∨ callerMax < moduleLen then
    .error .moduleTooLarge
  else .ok { requestId, declared := moduleLen.toNat, callerMax := callerMax.toNat }

def accept (assembler : ModuleAssembler) (message : Message target) :
    ModuleAssembler × Except ProtocolError (Option (List UInt8)) :=
  if message.requestId ≠ assembler.requestId then (assembler, .error .wrongRequestId)
  else
    match message with
    | .moduleChunk _ sequence bytes =>
      if assembler.ended = true ∨ sequence ≠ assembler.next ∨ maxChunkBytes < bytes.length then
        (assembler, .error .sequence)
      else
        let total := assembler.module.length + bytes.length
        if usizeMax < total then (assembler, .error .lengthOverflow)
        else if assembler.declared < total ∨ assembler.callerMax < total then
          (assembler, .error .moduleTooLarge)
        else
          let extended := { assembler with module := assembler.module ++ bytes }
          if assembler.next.toNat + 1 < 2 ^ 32 then
            ({ extended with next := assembler.next + 1 }, .ok none)
          else (extended, .error .lengthOverflow)
    | .executeEnd _ =>
      if assembler.ended = true ∨ assembler.module.length ≠ assembler.declared then
        (assembler, .error .unexpectedMessage)
      else
        ({ assembler with ended := true, module := [] }, .ok (some assembler.module))
    | .terminal _ _ _ _ _ =>
      if assembler.ended = false then (assembler, .error .unexpectedMessage)
      else if assembler.terminal then (assembler, .error .duplicateTerminal)
      else ({ assembler with terminal := true }, .ok none)
    | _ => (assembler, .error .unexpectedMessage)

/-- A chunk that comes in turn and fits. -/
structure Fits (assembler : ModuleAssembler) (bytes : List UInt8) : Prop where
  running : assembler.ended = false
  framed : bytes.length ≤ maxChunkBytes
  addressable : assembler.module.length + bytes.length ≤ usizeMax
  declared : assembler.module.length + bytes.length ≤ assembler.declared
  allowed : assembler.module.length + bytes.length ≤ assembler.callerMax

/-- A chunk with bytes that comes in turn and fits when its number is the last one. -/
def Overflows (assembler : ModuleAssembler) (message : Message target) : Prop :=
  ∃ bytes, message = .moduleChunk assembler.requestId assembler.next bytes ∧ bytes ≠ [] ∧
    assembler.Fits bytes ∧ assembler.next.toNat + 1 = 2 ^ 32

/-- What one message does to an assembler, with the answer. -/
inductive Answers (assembler : ModuleAssembler) :
    Message target → ModuleAssembler → Except ProtocolError (Option (List UInt8)) → Prop
  | refused (message : Message target) (error : ProtocolError)
      (kept : ¬ assembler.Overflows message) : Answers assembler message assembler (.error error)
  | overflowed (message : Message target) (bytes : List UInt8) (filled : bytes ≠ [])
      (overflows : assembler.Overflows message) :
      Answers assembler message { assembler with module := assembler.module ++ bytes }
        (.error .lengthOverflow)
  | chunk (bytes : List UInt8) (fits : assembler.Fits bytes)
      (numbered : assembler.next.toNat + 1 < 2 ^ 32) :
      Answers assembler (.moduleChunk assembler.requestId assembler.next bytes)
        { assembler with module := assembler.module ++ bytes, next := assembler.next + 1 }
        (.ok none)
  | finished (running : assembler.ended = false)
      (complete : assembler.module.length = assembler.declared) :
      Answers assembler (.executeEnd assembler.requestId)
        { assembler with ended := true, module := [] } (.ok (some assembler.module))
  | reported (kind : TerminalKind) (detail : TerminalDetail) (diagnostic : String)
      (counters : FinalCounters) (closed : assembler.ended = true) :
      Answers assembler (.terminal assembler.requestId kind detail diagnostic counters)
        { assembler with terminal := true } (.ok none)

/-- A message that is no chunk does not overflow. -/
theorem not_overflows {assembler : ModuleAssembler} {message : Message target}
    (other : message.kind ≠ .moduleChunk) : ¬ assembler.Overflows message := by
  rintro ⟨bytes, rfl, _⟩
  exact other rfl

theorem accept_fits {assembler : ModuleAssembler} (fits : assembler.Fits bytes) :
    assembler.accept (.moduleChunk assembler.requestId assembler.next bytes : Message target) =
      if assembler.next.toNat + 1 < 2 ^ 32 then
        ({ assembler with module := assembler.module ++ bytes, next := assembler.next + 1 },
          .ok none)
      else ({ assembler with module := assembler.module ++ bytes }, .error .lengthOverflow) := by
  obtain ⟨running, framed, addressable, declared, allowed⟩ := fits
  have timely : ¬ (assembler.ended = true ∨ False ∨ maxChunkBytes < bytes.length) := by
    simp [running, framed]
  simp only [accept, Message.requestId, ne_eq, not_true_eq_false, if_false]
  rw [if_neg timely, if_neg (by omega), if_neg (by omega)]

theorem accept_chunk (assembler : ModuleAssembler) (sequence : UInt32) (bytes : List UInt8) :
    assembler.Answers (.moduleChunk assembler.requestId sequence bytes : Message target)
      (assembler.accept (.moduleChunk assembler.requestId sequence bytes : Message target)).1
      (assembler.accept (.moduleChunk assembler.requestId sequence bytes : Message target)).2 := by
  by_cases turn : sequence = assembler.next ∧ assembler.Fits bytes
  · obtain ⟨rfl, fits⟩ := turn
    rw [accept_fits fits]
    by_cases numbered : assembler.next.toNat + 1 < 2 ^ 32
    · rw [if_pos numbered]
      exact .chunk bytes fits numbered
    have bounded := assembler.next.toNat_lt
    rw [if_neg numbered]
    by_cases empty : bytes = []
    · subst empty
      rw [append_nil]
      refine .refused _ _ ?_
      rintro ⟨same, equal, filled, _⟩
      cases equal
      exact filled rfl
    · exact .overflowed _ bytes empty ⟨bytes, rfl, empty, fits, by omega⟩
  -- A chunk out of turn or too large is stopped by one of the checks.
  have kept : ¬ assembler.Overflows
      (.moduleChunk assembler.requestId sequence bytes : Message target) := by
    rintro ⟨same, equal, _, fits, _⟩
    cases equal
    exact turn ⟨rfl, fits⟩
  simp only [accept, Message.requestId, ne_eq, not_true_eq_false, if_false]
  split
  · exact .refused _ _ kept
  rename_i timely
  split
  · exact .refused _ _ kept
  split
  · exact .refused _ _ kept
  obtain ⟨running, inTurn, framed⟩ : assembler.ended = false ∧ sequence = assembler.next ∧
      bytes.length ≤ maxChunkBytes := by
    simpa using timely
  exact absurd ⟨inTurn, running, framed, by omega, by omega, by omega⟩ turn

theorem accept_answers (assembler : ModuleAssembler) (message : Message target) :
    assembler.Answers message (assembler.accept message).1 (assembler.accept message).2 := by
  by_cases own : message.requestId = assembler.requestId
  · have mine : ¬ message.requestId ≠ assembler.requestId := not_not.mpr own
    cases message with
    | moduleChunk requestId sequence bytes =>
      cases own
      exact accept_chunk assembler sequence bytes
    | executeEnd requestId =>
      rw [accept, if_neg mine]
      cases own
      by_cases refused : assembler.ended = true ∨ assembler.module.length ≠ assembler.declared
      · rw [if_pos refused]
        exact .refused _ _ (not_overflows nofun)
      obtain ⟨running, complete⟩ : assembler.ended = false ∧
          assembler.module.length = assembler.declared := by simpa using refused
      rw [if_neg refused]
      exact .finished running complete
    | terminal requestId kind detail diagnostic counters =>
      rw [accept, if_neg mine]
      cases own
      by_cases running : assembler.ended = false
      · rw [if_pos running]
        exact .refused _ _ (not_overflows nofun)
      rw [if_neg running]
      by_cases duplicate : assembler.terminal = true
      · rw [if_pos duplicate]
        exact .refused _ _ (not_overflows nofun)
      · rw [if_neg duplicate]
        exact .reported kind detail diagnostic counters (Bool.eq_true_of_not_eq_false running)
    | _ =>
      unfold accept
      rw [if_neg mine]
      exact .refused _ _ (not_overflows nofun)
  · unfold accept
    rw [if_pos own]
    refine .refused _ _ ?_
    rintro ⟨bytes, rfl, _⟩
    exact own rfl

section Runs

/-- The number and the bytes of a chunk that was accepted. -/
def acceptedChunk : Message target → Except ProtocolError (Option (List UInt8)) →
    List (UInt32 × List UInt8)
  | .moduleChunk _ sequence bytes, .ok _ => [(sequence, bytes)]
  | _, _ => []

/-- Feed messages one after the other, also after a refusal, and collect the
accepted chunks. -/
def acceptAll (assembler : ModuleAssembler) (messages : List (Message target)) :
    ModuleAssembler × List (UInt32 × List UInt8) :=
  messages.foldl
    (fun state message =>
      ((state.1.accept message).1, state.2 ++ acceptedChunk message (state.1.accept message).2))
    (assembler, [])

/-- A refusal changes nothing, and a module is returned only for the end of the
request, after chunks numbered from zero whose bytes are the module and have the
declared length. -/
def CallExact (assembler : ModuleAssembler) (taken : List (UInt32 × List UInt8))
    (message : Message target) : Prop :=
  (∀ error, (assembler.accept message).2 = .error error →
      (assembler.accept message).1 = assembler) ∧
    ∀ module, (assembler.accept message).2 = .ok (some module) →
      message = .executeEnd assembler.requestId ∧
        taken.map (fun chunk => chunk.1.toNat) = List.range taken.length ∧
        module = (taken.map Prod.snd).flatten ∧ module.length = assembler.declared

/-- Every call of a run is exact. -/
def Exact (assembler : ModuleAssembler) (messages : List (Message target)) : Prop :=
  ∀ earlier message later, messages = earlier ++ message :: later →
    CallExact (assembler.acceptAll earlier).1 (assembler.acceptAll earlier).2 message

/-- Some call of a run overflows the sequence numbers. -/
def Overflowed (assembler : ModuleAssembler) (messages : List (Message target)) : Prop :=
  ∃ earlier message later, messages = earlier ++ message :: later ∧
    (assembler.acceptAll earlier).1.Overflows message

theorem acceptAll_concat (assembler : ModuleAssembler) (messages : List (Message target))
    (message : Message target) :
    assembler.acceptAll (messages ++ [message]) =
      (((assembler.acceptAll messages).1.accept message).1,
        (assembler.acceptAll messages).2 ++
          acceptedChunk message ((assembler.acceptAll messages).1.accept message).2) := by
  simp [acceptAll]

/-- What an assembler holds is what the accepted chunks carried. -/
structure Assembled (started assembler : ModuleAssembler) (taken : List (UInt32 × List UInt8)) :
    Prop where
  requestId : assembler.requestId = started.requestId
  declared : assembler.declared = started.declared
  next : assembler.next.toNat = taken.length
  numbered : taken.map (fun chunk => chunk.1.toNat) = List.range taken.length
  module : assembler.ended = false → assembler.module = (taken.map Prod.snd).flatten

variable {assembler : ModuleAssembler}

theorem Assembled.accept (assembled : Assembled started assembler taken)
    (message : Message target) (safe : ¬ assembler.Overflows message) :
    Assembled started (assembler.accept message).1
      (taken ++ acceptedChunk message (assembler.accept message).2) := by
  have answers := assembler.accept_answers message
  generalize (assembler.accept message).1 = after at answers ⊢
  generalize (assembler.accept message).2 = answer at answers ⊢
  cases answers with
  | refused _ error kept =>
    have none : acceptedChunk message (.error error) = [] := by cases message <;> rfl
    rw [none, append_nil]
    exact assembled
  | overflowed _ bytes filled overflows => exact absurd overflows safe
  | chunk bytes fits numbered =>
    have advanced : (assembler.next + 1).toNat = taken.length + 1 := by
      rw [assembled.next.symm]
      exact Nat.mod_eq_of_lt numbered
    refine ⟨assembled.requestId, assembled.declared, ?_, ?_, fun _ => ?_⟩
    · simpa [acceptedChunk] using advanced
    · simp [acceptedChunk, range_succ, assembled.numbered, assembled.next]
    · simp [acceptedChunk, assembled.module fits.running]
  | finished =>
    simp only [acceptedChunk, append_nil]
    exact ⟨assembled.requestId, assembled.declared, assembled.next, assembled.numbered, nofun⟩
  | reported kind detail diagnostic counters closed =>
    simp only [acceptedChunk, append_nil]
    refine ⟨assembled.requestId, assembled.declared, assembled.next, assembled.numbered,
      fun running => ?_⟩
    exact absurd running (by simp [closed])

theorem Assembled.callExact (assembled : Assembled started assembler taken)
    (message : Message target) (safe : ¬ assembler.Overflows message) :
    CallExact assembler taken message := by
  have answers := assembler.accept_answers message
  refine ⟨fun error refused => ?_, fun module returned => ?_⟩
  · rw [refused] at answers
    generalize (assembler.accept message).1 = after at answers ⊢
    cases answers with
    | refused => rfl
    | overflowed _ bytes filled overflows => exact absurd overflows safe
  · rw [returned] at answers
    generalize (assembler.accept message).1 = after at answers
    cases answers with
    | finished running complete =>
      exact ⟨rfl, assembled.numbered, assembled.module running, complete⟩

/-- A chunk that overflows is kept although it is refused. -/
theorem Overflows.inexact {message : Message target} (overflows : assembler.Overflows message) :
    ¬ CallExact assembler taken message := by
  rintro ⟨unchanged, _⟩
  have answers := assembler.accept_answers message
  generalize reached : (assembler.accept message).1 = after at answers unchanged
  generalize (assembler.accept message).2 = answer at answers unchanged
  cases answers with
  | refused _ _ kept => exact kept overflows
  | overflowed _ bytes filled =>
    have same := congrArg ModuleAssembler.module (unchanged _ rfl)
    exact filled (append_right_eq_self.mp same)
  | chunk bytes fits numbered =>
    obtain ⟨_, _, _, _, last⟩ := overflows
    omega
  | finished | reported => exact absurd overflows (not_overflows nofun)

/-- A run that never overflows holds what its accepted chunks carried. -/
theorem assembled_acceptAll (fresh : Assembled started started [])
    (messages : List (Message target)) (safe : ¬ started.Overflowed messages) :
    Assembled started (started.acceptAll messages).1 (started.acceptAll messages).2 := by
  induction messages using reverseRecOn with
  | nil => exact fresh
  | append_singleton messages message before =>
    rw [acceptAll_concat]
    refine (before ?_).accept message ?_
    · rintro ⟨earlier, other, later, rfl, overflows⟩
      exact safe ⟨earlier, other, later ++ [message], by simp, overflows⟩
    · intro overflows
      exact safe ⟨messages, message, [], rfl, overflows⟩

theorem exact_iff (fresh : Assembled started started []) (messages : List (Message target)) :
    started.Exact messages ↔ ¬ started.Overflowed messages := by
  constructor
  · rintro exactly ⟨earlier, message, later, split, overflows⟩
    exact overflows.inexact (exactly earlier message later split)
  rintro safe earlier message later rfl
  have before : ¬ started.Overflowed earlier := by
    rintro ⟨first, other, rest, rfl, overflows⟩
    exact safe ⟨first, other, rest ++ message :: later, by simp, overflows⟩
  exact (assembled_acceptAll fresh earlier before).callExact message fun overflows =>
    safe ⟨earlier, message, later, rfl, overflows⟩

end Runs

end ModuleAssembler

section Upload

def writeChunk (target : Target) (requestId : UInt64) (stream : List UInt8) :
    List UInt8 × Nat → Except Unit (List UInt8)
  | (bytes, sequence) =>
    if sequence < 2 ^ 32 then
      (writeMessage stream
        (.moduleChunk requestId (UInt32.ofNat sequence) bytes : Message target)).mapError fun _ =>
          ()
    else .error ()

/-- The parent's side: announce the module, send its chunks and the end. -/
def writeUpload (stream : List UInt8) (requestId : UInt64) (source : List UInt8)
    (metadata : ExecuteMetadata target) : Except Unit (List UInt8) := do
  let stream ← (writeMessage stream
    (.executeStart requestId (UInt64.ofNat source.length) metadata)).mapError fun _ => ()
  let stream ← (chunks maxChunkBytes (by decide) source).zipIdx.foldlM
    (writeChunk target requestId) stream
  (writeMessage stream (.executeEnd requestId : Message target)).mapError fun _ => ()

/-- The name of an error, as it is printed. -/
def ProtocolError.name : ProtocolError → String
  | .badMagic => "BadMagic"
  | .unsupportedVersion => "UnsupportedVersion"
  | .unknownKind => "UnknownKind"
  | .truncated => "Truncated"
  | .trailingBytes => "TrailingBytes"
  | .frameTooLarge => "FrameTooLarge"
  | .invalidRequestId => "InvalidRequestId"
  | .invalidPayload => "InvalidPayload"
  | .lengthOverflow => "LengthOverflow"
  | .moduleTooLarge => "ModuleTooLarge"
  | .wrongRequestId => "WrongRequestId"
  | .unexpectedMessage => "UnexpectedMessage"
  | .duplicateTerminal => "DuplicateTerminal"
  | .invalidTerminal => "InvalidTerminal"
  | .sequence => "Sequence"
  | .diagnosticTooLarge => "DiagnosticTooLarge"

def protocolText (error : ProtocolError) : String := "protocol:" ++ error.name

/-- The worker's standard input and output. -/
structure Pipes where
  input : List UInt8
  output : List UInt8 := []
  deriving DecidableEq

/-- What the worker does with its pipes; a failure keeps what it has read and
written. -/
abbrev WorkerM (α : Type) := ExceptT String (StateM Pipes) α

def receiveMessage : WorkerM (Message target) := fun pipes =>
  let (read, input) := readMessage pipes.input
  (read.mapError protocolText, { pipes with input })

def sendMessage (message : Message target) : WorkerM Unit := fun pipes =>
  match writeMessage pipes.output message with
  | .error error => (.error (protocolText error), pipes)
  | .ok output => (.ok (), { pipes with output })

variable (target) in
/-- Report a protocol failure. A text that cannot be cut at its bound would stop
the worker. -/
def protocolTerminal (requestId : UInt64) (text : String) : WorkerM Unit :=
  match bound text with
  | none => throw "panicked"
  | some diagnostic =>
    sendMessage (.terminal requestId .protocolFailure .none diagnostic { } : Message target)

theorem readMessage_shorter {stream rest : List UInt8} {message : Message target}
    (read : readMessage stream = (.ok message, rest)) : rest.length < stream.length := by
  obtain ⟨frame, decoded, rfl⟩ := readMessage_ok.mp read
  obtain ⟨-, payload, rfl, _⟩ := decode_ok.mp decoded
  rw [frameOf_eq, length_append, length_append, length_headerOf]
  exact Nat.lt_add_of_pos_left (Nat.add_pos_left (by decide) _)

variable (target) in
/-- Read messages until the assembler returns a module. -/
def assemble (assembler : ModuleAssembler) (input : List UInt8) :
    Except ProtocolError (List UInt8) × List UInt8 :=
  match read : (readMessage input : Except ProtocolError (Message target) × List UInt8) with
  | (.error error, rest) => (.error error, rest)
  | (.ok message, rest) =>
    match assembler.accept message with
    | (_, .error error) => (.error error, rest)
    | (_, .ok (some module)) => (.ok module, rest)
    | (next, .ok none) =>
      have := readMessage_shorter read
      assemble next rest
termination_by input.length

variable (target) in
def assembleModule (assembler : ModuleAssembler) : WorkerM (List UInt8) := fun pipes =>
  let (result, input) := assemble target assembler pipes.input
  (result.mapError protocolText, { pipes with input })

/-- The worker's side of a request up to the acknowledgement of its module. -/
def runWithIo : WorkerM (Option (UInt64 × ExecuteMetadata target × List UInt8)) := do
  let hello : Message target ← receiveMessage
  match hello with
  | .hello requestId =>
    sendMessage (.helloAck requestId : Message target)
    let start : Message target ← receiveMessage
    match start with
    | .executeStart id moduleLen metadata =>
      if id = requestId then
        let assembler ← ExceptT.mk (pure ((ModuleAssembler.start requestId moduleLen
          metadata.maxModuleBytes).mapError protocolText))
        let module ← assembleModule target assembler
        sendMessage (.executeAck requestId : Message target)
        return some (requestId, metadata, module)
      else
        protocolTerminal target requestId "expected matching execute-start"
        return none
    | _ =>
      protocolTerminal target requestId "expected matching execute-start"
      return none
  | _ => throw "expected hello"

section Exchange

variable {requestId : UInt64} {frame : List UInt8} {message : Message target}

/-- The frame of a message whose payload is only the request id. -/
theorem encode_plain (message : Message target) (nonzero : message.requestId ≠ 0)
    (plain : putBody message = pure ()) :
    ∃ frame, encode message = .ok frame := by
  have written : putPayload message [] = .ok ((), leBytes 8 message.requestId.toNat) := by
    rw [putPayload, plain]
    rfl
  refine ⟨_, encode_ok.mpr ⟨nonzero, _, written, ?_, rfl⟩⟩
  rw [length_leBytes]
  decide

theorem encode_chunk (nonzero : requestId ≠ 0) (sequence : UInt32)
    (framed : bytes.length ≤ maxChunkBytes) :
    ∃ frame, encode (.moduleChunk requestId sequence bytes : Message target) = .ok frame := by
  have written : putPayload (.moduleChunk requestId sequence bytes : Message target) [] =
      .ok ((), leBytes 8 requestId.toNat ++ leBytes 4 sequence.toNat ++ bytes) := rfl
  refine ⟨_, encode_ok.mpr ⟨nonzero, _, written, ?_, rfl⟩⟩
  have room : maxChunkBytes + 12 = maxFramePayload := rfl
  rw [length_append, length_append, length_leBytes, length_leBytes]
  omega

theorem writeMessage_encoded (encoded : encode message = .ok frame) (stream : List UInt8) :
    writeMessage stream message = .ok (stream ++ frame) := by
  rw [writeMessage, encoded]
  rfl

theorem readMessage_encoded (encoded : encode message = .ok frame) (faithful : message.Faithful)
    (rest : List UInt8) : readMessage (frame ++ rest) = (.ok message, rest) :=
  readMessage_ok.mpr ⟨frame, (decode_encoded encoded).mpr faithful, rfl⟩

variable {assembler : ModuleAssembler}

/-- One turn of the worker's loop on a message that can be read. -/
theorem assemble_read {input rest : List UInt8}
    (read : readMessage input = (.ok message, rest)) :
    assemble target assembler input =
      match assembler.accept message with
      | (_, .error error) => (.error error, rest)
      | (_, .ok (some module)) => (.ok module, rest)
      | (next, .ok none) => assemble target next rest := by
  rw [assemble]
  split
  all_goals
    rename_i found
    rw [read] at found
    cases found
  rfl

/-- An assembler for which the given chunks are all that is missing. -/
structure Awaits (assembler : ModuleAssembler) (pieces : List (List UInt8)) : Prop where
  running : assembler.ended = false
  framed : ∀ piece ∈ pieces, piece.length ≤ maxChunkBytes
  numbered : assembler.next.toNat + pieces.length < 2 ^ 32
  complete : assembler.module.length + pieces.flatten.length = assembler.declared
  allowed : assembler.declared ≤ assembler.callerMax
  addressable : assembler.declared ≤ usizeMax

namespace Awaits

variable {assembler : ModuleAssembler} {piece : List UInt8} {pieces : List (List UInt8)}
  (awaits : Awaits assembler (piece :: pieces))

include awaits

theorem fits : assembler.Fits piece := by
  obtain ⟨running, framed, _, complete, allowed, addressable⟩ := awaits
  rw [flatten_cons, length_append] at complete
  exact ⟨running, framed piece (mem_cons_self ..), by omega, by omega, by omega⟩

theorem last : assembler.next.toNat + 1 < 2 ^ 32 := by
  have numbered := awaits.numbered
  rw [length_cons] at numbered
  omega

theorem next_toNat : (assembler.next + 1).toNat = assembler.next.toNat + 1 := by
  exact Nat.mod_eq_of_lt awaits.last

theorem rest :
    Awaits { assembler with module := assembler.module ++ piece, next := assembler.next + 1 }
      pieces := by
  have advanced := awaits.next_toNat
  obtain ⟨running, framed, numbered, complete, allowed, addressable⟩ := awaits
  rw [flatten_cons, length_append] at complete
  rw [length_cons] at numbered
  refine ⟨running, fun other member => framed other (mem_cons_of_mem _ member), ?_, ?_,
    allowed, addressable⟩
  · show (assembler.next + 1).toNat + pieces.length < 2 ^ 32
    omega
  · show (assembler.module ++ piece).length + pieces.flatten.length = assembler.declared
    rw [length_append]
    omega

end Awaits

/-- The awaited chunks are sent with numbers that follow each other, and the worker
that reads them and the end gets the module they complete. -/
theorem writeChunks_assembled (nonzero : requestId ≠ 0) {finish : List UInt8}
    (ends : encode (.executeEnd requestId : Message target) = .ok finish)
    (pieces : List (List UInt8)) :
    ∀ assembler : ModuleAssembler, assembler.requestId = requestId → Awaits assembler pieces →
      ∃ sent, (∀ stream, (pieces.zipIdx assembler.next.toNat).foldlM (writeChunk target requestId)
          stream = .ok (stream ++ sent)) ∧
        ∀ following, assemble target assembler (sent ++ (finish ++ following)) =
          (.ok (assembler.module ++ pieces.flatten), following) := by
  induction pieces with
  | nil =>
    rintro assembler rfl awaits
    refine ⟨[], fun stream => ?_, fun following => ?_⟩
    · rw [append_nil]
      rfl
    · rw [nil_append, assemble_read (readMessage_encoded ends trivial following)]
      have complete : assembler.module.length = assembler.declared := awaits.complete
      simp [ModuleAssembler.accept, Message.requestId, awaits.running, complete]
  | cons piece pieces ih =>
    rintro assembler rfl awaits
    obtain ⟨frame, encoded⟩ : ∃ frame, encode (.moduleChunk assembler.requestId
        assembler.next piece : Message target) = .ok frame :=
      encode_chunk nonzero assembler.next awaits.fits.framed
    have written : ∀ stream, writeChunk target assembler.requestId stream
        (piece, assembler.next.toNat) = .ok (stream ++ frame) := by
      intro stream
      rw [writeChunk, if_pos assembler.next.toNat_lt, UInt32.ofNat_toNat,
        writeMessage_encoded encoded]
      rfl
    obtain ⟨sent, continued, assembled⟩ := ih
      { assembler with module := assembler.module ++ piece, next := assembler.next + 1 }
      rfl awaits.rest
    refine ⟨frame ++ sent, fun stream => ?_, fun following => ?_⟩
    · rw [zipIdx_cons, foldlM_cons, written, ← append_assoc,
        ← continued (stream ++ frame)]
      show foldlM _ _ (pieces.zipIdx (assembler.next.toNat + 1)) =
        foldlM _ _ (pieces.zipIdx (assembler.next + 1).toNat)
      rw [awaits.next_toNat]
    · rw [append_assoc, assemble_read (readMessage_encoded encoded trivial _),
        ModuleAssembler.accept_fits awaits.fits, if_pos awaits.last]
      show assemble target _ _ = _
      rw [assembled, flatten_cons, append_assoc]

theorem worker_bind {α β : Type} {first : WorkerM α} {second : α → WorkerM β}
    {pipes reached : Pipes} {value : α} (ran : first pipes = (.ok value, reached)) :
    (first >>= second) pipes = second value reached := by
  show ExceptT.bindCont second (first pipes).1 (first pipes).2 = _
  rw [ran]
  rfl

theorem receive_encoded (encoded : encode message = .ok frame) (faithful : message.Faithful)
    (rest output : List UInt8) :
    receiveMessage ⟨frame ++ rest, output⟩ = (.ok message, ⟨rest, output⟩) := by
  unfold receiveMessage
  rw [readMessage_encoded encoded faithful]
  rfl

theorem send_encoded (encoded : encode message = .ok frame) (input output : List UInt8) :
    sendMessage message ⟨input, output⟩ = (.ok (), ⟨input, output ++ frame⟩) := by
  unfold sendMessage
  rw [writeMessage_encoded encoded]

/-- A module within the transport's and its caller's limit. -/
structure Uploadable (source : List UInt8) (metadata : ExecuteMetadata target) : Prop where
  transport : source.length ≤ workerProtocolMaxModuleBytes
  admitted : source.length ≤ metadata.maxModuleBytes.toNat

namespace Uploadable

variable {source : List UInt8} {metadata : ExecuteMetadata target}
  (uploadable : Uploadable source metadata)

include uploadable

theorem announced : (UInt64.ofNat source.length).toNat = source.length := by
  have transport := uploadable.transport
  have bound : workerProtocolMaxModuleBytes < 2 ^ 64 := by decide
  exact Nat.mod_eq_of_lt (by omega)

theorem faithful :
    (.executeStart requestId (UInt64.ofNat source.length) metadata : Message target).Faithful := by
  refine ⟨?_, UInt64.le_iff_toNat_le.mpr ?_⟩
  · rw [uploadable.announced]
    exact uploadable.transport
  · rw [uploadable.announced]
    exact uploadable.admitted

theorem start (nonzero : requestId ≠ 0) :
    ModuleAssembler.start requestId (UInt64.ofNat source.length) metadata.maxModuleBytes =
      .ok { requestId, declared := source.length, callerMax := metadata.maxModuleBytes.toNat } := by
  have small : ¬ (workerProtocolMaxModuleBytes < (UInt64.ofNat source.length).toNat ∨
      metadata.maxModuleBytes < UInt64.ofNat source.length) := by
    rw [UInt64.lt_iff_toNat_lt, uploadable.announced]
    exact not_or.mpr ⟨Nat.not_lt.mpr uploadable.transport, Nat.not_lt.mpr uploadable.admitted⟩
  rw [ModuleAssembler.start, if_neg nonzero, if_neg small, uploadable.announced]

theorem awaits (requestId : UInt64) :
    Awaits { requestId, declared := source.length, callerMax := metadata.maxModuleBytes.toNat }
      (chunks maxChunkBytes (by decide) source) := by
  have transport := uploadable.transport
  have counted := length_chunks_le maxChunkBytes (by decide) source
  have numbers : workerProtocolMaxModuleBytes < 2 ^ 32 := by decide
  have addressable : workerProtocolMaxModuleBytes ≤ usizeMax := by decide
  refine ⟨rfl, fun piece member => ?_, ?_, ?_, uploadable.admitted,
    Nat.le_trans transport addressable⟩
  · exact length_of_mem_chunks maxChunkBytes (by decide) source piece member
  · show 0 + _ < 2 ^ 32
    omega
  · rw [flatten_chunks]
    exact Nat.zero_add _

end Uploadable

/-- What the parent writes for a module is what the worker assembles; and over any run
of messages an assembler returns a module only at the end of chunks that were counted from
zero and have the declared length, and is left as it was by every refusal, exactly when no
chunk with bytes that comes in turn and fits has the last number there is. -/
theorem moduleUpload_exact_iff :
    (∀ (requestId : UInt64) (source : List UInt8) (metadata : ExecuteMetadata target)
        (announcement : List UInt8), requestId ≠ 0 → Uploadable source metadata →
      encode (.executeStart requestId (UInt64.ofNat source.length) metadata) = .ok announcement →
      ∃ greeting answer acknowledgement uploaded,
        encode (.hello requestId : Message target) = .ok greeting ∧
        encode (.helloAck requestId : Message target) = .ok answer ∧
        encode (.executeAck requestId : Message target) = .ok acknowledgement ∧
        (∀ stream, writeUpload stream requestId source metadata = .ok (stream ++ uploaded)) ∧
        ∀ following, runWithIo ⟨greeting ++ (uploaded ++ following), []⟩ =
          (.ok (some (requestId, metadata, source)), ⟨following, answer ++ acknowledgement⟩)) ∧
      ∀ (requestId moduleLen callerMax : UInt64) (assembler : ModuleAssembler)
        (messages : List (Message target)),
        ModuleAssembler.start requestId moduleLen callerMax = .ok assembler →
        (assembler.Exact messages ↔ ¬ assembler.Overflowed messages) := by
  constructor
  · intro requestId source metadata announcement nonzero uploadable announces
    -- The parent's frames follow each other on the stream, and the worker reads them one by one.
    obtain ⟨greeting, greets⟩ := encode_plain (.hello requestId : Message target) nonzero rfl
    obtain ⟨answer, answers⟩ := encode_plain (.helloAck requestId : Message target) nonzero rfl
    obtain ⟨acknowledgement, acknowledges⟩ :=
      encode_plain (.executeAck requestId : Message target) nonzero rfl
    obtain ⟨finish, finishes⟩ := encode_plain (.executeEnd requestId : Message target) nonzero rfl
    obtain ⟨sent, written, assembled⟩ :=
      writeChunks_assembled nonzero finishes _ _ rfl (uploadable.awaits requestId)
    rw [flatten_chunks] at assembled
    refine ⟨greeting, answer, acknowledgement, announcement ++ (sent ++ finish), greets, answers,
      acknowledges, fun stream => ?_, fun following => ?_⟩
    · have chunked : ((chunks maxChunkBytes (by decide) source).zipIdx).foldlM
          (writeChunk target requestId) (stream ++ announcement) =
            .ok (stream ++ announcement ++ sent) := written _
      unfold writeUpload
      rw [writeMessage_encoded announces]
      show (foldlM (writeChunk target requestId) (stream ++ announcement) _ >>= _) = _
      rw [chunked]
      show (writeMessage (stream ++ announcement ++ sent) _).mapError _ = _
      rw [writeMessage_encoded finishes, append_assoc, append_assoc]
      rfl
    · have assembling : assembleModule target
          { requestId, declared := source.length, callerMax := metadata.maxModuleBytes.toNat }
          ⟨sent ++ (finish ++ following), answer⟩ = (.ok source, ⟨following, answer⟩) := by
        unfold assembleModule
        rw [assembled]
        rfl
      rw [append_assoc, append_assoc]
      refine (worker_bind (receive_encoded greets trivial _ _)).trans ?_
      refine (worker_bind (send_encoded answers _ _)).trans ?_
      refine (worker_bind (receive_encoded announces uploadable.faithful _ _)).trans ?_
      show (ite (requestId = requestId) _ _ : WorkerM _) _ = _
      rw [if_pos rfl, uploadable.start nonzero]
      refine (worker_bind assembling).trans ?_
      exact worker_bind (send_encoded acknowledges _ _)
  · intro requestId moduleLen callerMax assembler messages started
    unfold ModuleAssembler.start at started
    split_ifs at started
    cases started
    exact ModuleAssembler.exact_iff ⟨rfl, rfl, rfl, rfl, fun _ => rfl⟩ messages

variable (target) in
/-- Chunks without bytes, numbered from zero. -/
def emptyChunks (requestId : UInt64) (count : Nat) : List (Message target) :=
  (List.range count).map fun number => .moduleChunk requestId (UInt32.ofNat number) []

/-- Every chunk without bytes takes a number. -/
theorem acceptAll_emptyChunks (assembler : ModuleAssembler) (running : assembler.ended = false)
    (first : assembler.next = 0) (empty : assembler.module = []) (count : Nat)
    (numbered : count < 2 ^ 32) :
    (assembler.acceptAll (emptyChunks target assembler.requestId count)).1 =
      { assembler with next := UInt32.ofNat count } := by
  induction count with
  | zero =>
    show assembler = { assembler with next := 0 }
    rw [← first]
  | succ count ih =>
    have before := ih (by omega)
    have number : (UInt32.ofNat count).toNat = count :=
      UInt32.toNat_ofNat_of_lt' (by show count < 2 ^ 32; omega)
    have fits : ModuleAssembler.Fits { assembler with next := UInt32.ofNat count } [] := by
      constructor <;> simp [running, empty]
    have accepted : ModuleAssembler.accept { assembler with next := UInt32.ofNat count }
        (.moduleChunk assembler.requestId (UInt32.ofNat count) [] : Message target) = _ :=
      ModuleAssembler.accept_fits fits
    rw [if_pos (by rwa [number])] at accepted
    have grown : emptyChunks target assembler.requestId (count + 1) =
        emptyChunks target assembler.requestId count ++
          [.moduleChunk assembler.requestId (UInt32.ofNat count) []] := by
      simp [emptyChunks, range_succ]
    rw [grown, ModuleAssembler.acceptAll_concat, before, accepted]
    simp

/-- The request of a small module, and one chunk and the end for an assembler. -/
theorem moduleUpload_exact_small :
    (∃ greeting answer acknowledgement uploaded,
      encode (.hello 1 : Message .unix) = .ok greeting ∧
      encode (.helloAck 1 : Message .unix) = .ok answer ∧
      encode (.executeAck 1 : Message .unix) = .ok acknowledgement ∧
      (∀ stream, writeUpload stream 1 [7] (smallMetadata .unix) = .ok (stream ++ uploaded)) ∧
      ∀ following, runWithIo ⟨greeting ++ (uploaded ++ following), []⟩ =
        (.ok (some (1, smallMetadata .unix, [7])), ⟨following, answer ++ acknowledgement⟩)) ∧
      (ModuleAssembler.Exact { requestId := 1, declared := 1, callerMax := 1 }
          [(.moduleChunk 1 0 [7] : Message .unix), .executeEnd 1] ↔
        ¬ ModuleAssembler.Overflowed { requestId := 1, declared := 1, callerMax := 1 }
          [(.moduleChunk 1 0 [7] : Message .unix), .executeEnd 1]) := by
  have sendable : (encode (.executeStart 1 (UInt64.ofNat [(7 : UInt8)].length)
      (smallMetadata .unix))).isOk = true := by decide +kernel
  obtain ⟨announcement, announces⟩ : ∃ announcement, encode (.executeStart 1
      (UInt64.ofNat [(7 : UInt8)].length) (smallMetadata .unix)) = .ok announcement := by
    generalize encode (.executeStart 1 _ (smallMetadata .unix)) = encoded at sendable ⊢
    cases encoded with
    | error _ => cases sendable
    | ok announcement => exact ⟨announcement, rfl⟩
  exact ⟨moduleUpload_exact_iff.1 1 [7] (smallMetadata .unix) announcement (by decide)
    ⟨by decide, by decide⟩ announces, moduleUpload_exact_iff.2 1 1 1 _ _ rfl⟩

/-- After all other numbers were taken by chunks without bytes, the last chunk is refused
and its byte is kept. -/
theorem lastChunk_refused_kept :
    let started : ModuleAssembler := { requestId := 1, declared := 1, callerMax := 1 }
    let full := (started.acceptAll (emptyChunks .unix 1 (2 ^ 32 - 1))).1
    ModuleAssembler.start 1 1 1 = .ok started ∧ full.module = [] ∧
      full.accept (.moduleChunk 1 (UInt32.ofNat (2 ^ 32 - 1)) [7] : Message .unix) =
        ({ full with module := [7] }, .error .lengthOverflow) := by
  intro started full
  have reached : full = { started with next := UInt32.ofNat (2 ^ 32 - 1) } :=
    acceptAll_emptyChunks started rfl rfl rfl (2 ^ 32 - 1) (by decide)
  rw [reached]
  decide

end Exchange

end Upload

end KernalApi.Worker
