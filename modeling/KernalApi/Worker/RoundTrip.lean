import KernalApi.Worker.Frames
import Mathlib.Data.List.Forall2

/-!
# Round trips and streams of frames

Decoding a frame that was encoded gives the message back, except where the
encoding is ambiguous; encoding a decoded message gives the frame back without
exception. Reading from a stream takes exactly one frame off it.
-/

namespace KernalApi.Worker

open KernalApi.Std List

variable {frame stream rest : List UInt8} {target : Target}

/-- A frame is decoded to the message it encodes exactly when a decoder can
return that message. -/
theorem decode_encoded {message : Message target}
    (encoded : encode message = .ok frame) : decode frame = .ok message ↔ message.Faithful := by
  obtain ⟨nonzero, payload, written, within, rfl⟩ := encode_ok.mp encoded
  constructor
  · intro decoded
    obtain ⟨kind, other, _, _, taken⟩ := decode_ok.mp decoded
    exact ((codec_payload kind).back rfl taken).1.2.2
  intro faithful
  obtain ⟨bytes, split, reads⟩ :=
    (codec_payload message.kind).forth ⟨rfl, nonzero, faithful⟩ written
  subst split
  have taken := reads [] rfl
  rw [append_nil] at taken
  exact decode_ok.mpr ⟨message.kind, payload, rfl, within, taken⟩

/-- A decoded message encodes to the frame it was decoded from. -/
theorem encode_decoded {message : Message target}
    (decoded : decode frame = .ok message) : encode message = .ok frame := by
  obtain ⟨kind, payload, rfl, within, taken⟩ := decode_ok.mp decoded
  obtain ⟨⟨same, nonzero, _⟩, bytes, split, emits⟩ := (codec_payload kind).back rfl taken
  rw [append_nil] at split
  subst split
  refine encode_ok.mpr ⟨nonzero, payload, ?_, within, same ▸ rfl⟩
  exact emits []

/-- The status code a message reports. -/
def Message.statusCode : Message target → Option Int32
  | .terminal _ _ detail _ _ => detail.statusCode
  | _ => none

/-- A module announced by the message is within the transport's and the
caller's limit. -/
def Message.WithinLimits : Message target → Prop
  | .executeStart _ moduleLen metadata =>
    moduleLen.toNat ≤ min workerProtocolMaxModuleBytes metadata.maxModuleBytes.toNat
  | _ => True

theorem Message.faithful_iff (message : Message target) (limits : message.WithinLimits) :
    message.Faithful ↔ message.statusCode ≠ some noStatusCode := by
  cases message with
  | executeStart =>
    obtain ⟨transport, caller⟩ := Nat.le_min.mp limits
    exact iff_of_true ⟨transport, UInt64.le_iff_toNat_le.mpr caller⟩ nofun
  | terminal => exact Iff.rfl
  | _ => exact iff_of_true trivial nofun

/-- An encoded message is decoded unchanged exactly when its status code is not
the value written for an absent one. -/
theorem decode_encode_iff (message : Message target) (limits : message.WithinLimits)
    (frame : List UInt8) (encoded : encode message = .ok frame) :
    decode frame = .ok message ↔ message.statusCode ≠ some noStatusCode :=
  (decode_encoded encoded).trans (message.faithful_iff limits)

/-- A worker whose guest exited with the code. -/
def exitReport (code : Int32) : Message .unix :=
  .terminal 1 .nonzeroExit { statusCode := some code } "nonzero-exit" {}

theorem decode_encode_exit :
    ∃ frame, encode (exitReport (-9)) = .ok frame ∧ decode frame = .ok (exitReport (-9)) := by
  obtain ⟨frame, encoded⟩ : ∃ frame, encode (exitReport (-9)) = .ok frame := ⟨_, rfl⟩
  refine ⟨frame, encoded, (decode_encode_iff (exitReport (-9)) trivial frame encoded).mpr ?_⟩
  decide

/-- The smallest exit code is encoded and then refused. -/
theorem decode_encode_minimum :
    ∃ frame, encode (exitReport Int32.minValue) = .ok frame ∧
      (decode frame : Except ProtocolError (Message .unix)) = .error .invalidTerminal := by
  refine ⟨_, rfl, ?_⟩
  decide +kernel

section Streams

/-- The payload length that the header at the front of a stream declares. -/
def declaredLength (stream : List UInt8) : Nat := leValue ((stream.drop 7).take 4)

variable {message : Message target}

/-- A trace that can be decoded is within the limit that is tested early. -/
theorem length_of_takeTrace {payload : List UInt8}
    (taken : takePayload .trace payload = .ok (message, [])) :
    payload.length ≤ maxTraceBytes + 8 := by
  obtain ⟨requestId, middle, first, body⟩ := stateT_bind_ok.mp taken
  have word : Codec (fun _ => True) _ putU64 takeU64 := codec_u64
  obtain ⟨_, bytes, rfl, emits⟩ := word.back trivial first
  have counted : bytes.length = 8 := by
    have written := emits []
    cases written
    exact length_leBytes 8 requestId.toNat
  split at body
  · cases body
  obtain ⟨_, _, looked, body⟩ := stateT_bind_ok.mp body
  cases looked
  obtain ⟨_, _, valid, _⟩ := stateT_bind_ok.mp body
  obtain ⟨valid, _⟩ := liftM_ok.mp valid
  have short : ¬ maxTraceBytes < middle.length := by
    intro long
    simp [validateTrace, long] at valid
  simp only [length_append]
  omega

/-- Reading succeeds when the stream starts with a frame that can be decoded,
and takes that frame off the stream. -/
theorem readMessage_ok :
    readMessage stream = (.ok message, rest) ↔
      ∃ frame, decode frame = .ok message ∧ stream = frame ++ rest := by
  have bound : headerLen + maxFramePayload ≤ usizeMax := by decide
  constructor
  · intro read
    unfold readMessage at read
    split at read
    · cases read
    split at read
    · cases read
    split at read
    · cases read
    split at read
    · cases read
    split at read
    · cases read
    obtain ⟨decoded, rfl⟩ := Prod.mk.inj read
    exact ⟨_, decoded, (take_append_drop _ _).symm⟩
  · rintro ⟨frame, decoded, rfl⟩
    obtain ⟨kind, payload, rfl, within, taken⟩ := decode_ok.mp decoded
    have counted : (frameOf kind payload).length = headerLen + payload.length := by
      rw [frameOf_eq, length_append, length_headerOf]
    have front : (frameOf kind payload ++ rest).take headerLen = headerOf kind payload.length := by
      rw [frameOf_eq, append_assoc]
      exact take_left' (length_headerOf kind payload.length)
    have checked : checkHeader ((frameOf kind payload ++ rest).take headerLen) =
        .ok (kind, payload.length) := by
      rw [front]
      exact checkHeader_headerOf kind within []
    have traced : ¬ (kind = .trace ∧ maxTraceBytes + 8 < payload.length) := by
      rintro ⟨rfl, long⟩
      exact Nat.not_lt.mpr (length_of_takeTrace taken) long
    have whole : (frameOf kind payload ++ rest).length =
        headerLen + payload.length + rest.length := by
      rw [length_append, counted]
    unfold readMessage
    rw [if_neg (by omega)]
    simp only [checked, length_drop]
    rw [if_neg traced, if_neg (by omega), if_neg (by omega), ← counted, take_left,
      drop_left, decoded]

/-- A decodable frame has the length its header declares. -/
theorem declaredLength_decoded (decoded : decode frame = .ok message) (rest : List UInt8) :
    headerLen + declaredLength (frame ++ rest) = frame.length := by
  obtain ⟨kind, payload, rfl, within, _⟩ := decode_ok.mp decoded
  have bound : maxFramePayload < 256 ^ 4 := by decide
  have word : ((frameOf kind payload ++ rest).drop 7).take 4 = leBytes 4 payload.length := by
    have tail : (frameOf kind payload ++ rest).drop 7 =
        leBytes 4 payload.length ++ (payload ++ rest) := by
      rfl
    rw [tail]
    exact take_left' (length_leBytes 4 payload.length)
  rw [declaredLength, word, leValue_leBytes (by omega), frameOf_eq, length_append,
    length_headerOf]

/-- A frame is read off the stream whole. -/
theorem readMessage_takes (read : readMessage stream = (.ok message, rest)) :
    decode (stream.take (headerLen + declaredLength stream)) = .ok message ∧
      rest = stream.drop (headerLen + declaredLength stream) := by
  obtain ⟨frame, decoded, rfl⟩ := readMessage_ok.mp read
  rw [declaredLength_decoded decoded rest, take_left, drop_left]
  exact ⟨decoded, rfl⟩

/-- Read a number of messages, one after the other. -/
def readMessages : Nat → List UInt8 → Except ProtocolError (List (Message target)) × List UInt8
  | 0, stream => (.ok [], stream)
  | count + 1, stream =>
    match readMessage stream with
    | (.error error, rest) => (.error error, rest)
    | (.ok message, rest) =>
      match readMessages count rest with
      | (.error error, rest) => (.error error, rest)
      | (.ok messages, rest) => (.ok (message :: messages), rest)

/-- Decodable frames are read one by one in their order. -/
theorem readMessages_decoded {messages : List (Message target)} {frames : List (List UInt8)}
    (decoded : List.Forall₂ (fun message frame => decode frame = .ok message) messages frames)
    (following : List UInt8) :
    readMessages messages.length (frames.flatten ++ following) = (.ok messages, following) := by
  induction decoded with
  | nil => rfl
  | @cons message frame messages frames decoded _ ih =>
    have first : readMessage (frame ++ (frames.flatten ++ following)) =
        (.ok message, frames.flatten ++ following) := readMessage_ok.mpr ⟨frame, decoded, rfl⟩
    simp only [flatten_cons, append_assoc, length_cons, readMessages, first, ih]

/-- A decoded frame is the encoding of its message; one frame at a time is read
off a stream, as far as its header declares; and encoded messages that a decoder
can return are read back in their order. -/
theorem frames_canonical :
    (∀ (frame : List UInt8) (message : Message target),
      decode frame = .ok message → encode message = .ok frame) ∧
    (∀ (frame other : List UInt8) (message : Message target),
      decode frame = .ok message → decode other = .ok message → frame = other) ∧
    (∀ (frame following : List UInt8) (message : Message target),
      (readMessage (frame ++ following)).1 = .ok message ↔
        decode ((frame ++ following).take (headerLen + declaredLength (frame ++ following))) =
          .ok message) ∧
    (∀ (frame following : List UInt8) (message : Message target),
      (readMessage (frame ++ following)).1 = .ok message →
        (readMessage (frame ++ following) : Except _ (Message target) × _).2 =
          (frame ++ following).drop (headerLen + declaredLength (frame ++ following))) ∧
    (∀ (messages : List (Message target)) (frames : List (List UInt8)) (following : List UInt8),
      List.Forall₂ (fun message frame => encode message = .ok frame) messages frames →
      (∀ message ∈ messages, message.WithinLimits ∧ message.statusCode ≠ some noStatusCode) →
        readMessages messages.length (frames.flatten ++ following) =
          (.ok messages, following)) := by
  refine ⟨fun _ _ => encode_decoded, ?_, ?_, ?_, ?_⟩
  · intro frame other message first second
    have same := (encode_decoded first).symm.trans (encode_decoded second)
    exact Except.ok.inj same
  · intro frame following message
    constructor
    · intro read
      exact (readMessage_takes (Prod.ext read rfl)).1
    intro decoded
    have split := (take_append_drop
      (headerLen + declaredLength (frame ++ following)) (frame ++ following)).symm
    rw [readMessage_ok.mpr ⟨_, decoded, split⟩]
  · intro frame following message read
    exact (readMessage_takes (Prod.ext read rfl)).2
  · intro messages frames following encoded meets
    refine readMessages_decoded ?_ following
    refine ((forall₂_and_left _ _).mpr ⟨meets, encoded⟩).imp ?_
    rintro message frame ⟨⟨limits, present⟩, encoded⟩
    exact (decode_encoded encoded).mpr ((message.faithful_iff limits).mpr present)

variable (target) in
/-- The settings of a request for a module of one byte. -/
def smallMetadata : ExecuteMetadata target where
  blobLimits := #v[1, 1, 1, 1, 1, 1, 1]
  blobProgressIdleTimeoutSecs := 1
  blobProgressIdleTimeoutNanos := 0
  maxWasmStackBytes := 1
  reservedMemoryBytes := 1
  maximumActiveRoots := 1
  totalFuel := 2
  rootFuel := 1
  childFuel := 1
  epochDeadlineMillis := 1
  epochTickMillis := 1
  maximumEpochRegistrations := 1
  maxModuleBytes := 1
  maxSharedMemoryPages := 1
  maxGuestThreads := 1

/-- The start and the end of a request are read back one after the other. -/
theorem frames_canonical_pair :
    ∃ frames following,
      List.Forall₂ (fun message frame => encode message = .ok frame)
        [.executeStart 1 1 (smallMetadata .unix), .executeEnd 1] frames ∧
      readMessages 2 (frames.flatten ++ following) =
        (.ok [.executeStart 1 1 (smallMetadata .unix), .executeEnd 1], following) := by
  have encodes {message : Message .unix} (accepted : (encode message).toBool = true) :
      ∃ frame, encode message = .ok frame := by
    cases written : encode message with
    | error => simp [written, Except.toBool] at accepted
    | ok frame => exact ⟨frame, rfl⟩
  obtain ⟨first, starts⟩ := @encodes (.executeStart 1 1 (smallMetadata .unix)) (by decide +kernel)
  obtain ⟨last, ends⟩ := @encodes (.executeEnd 1) (by decide +kernel)
  have encoded : List.Forall₂ (fun message frame => encode message = .ok frame)
      [.executeStart 1 1 (smallMetadata .unix), .executeEnd 1] [first, last] :=
      .cons starts (.cons ends .nil)
  refine ⟨[first, last], [7], encoded, frames_canonical.2.2.2.2 _ _ _ encoded ?_⟩
  simp [Message.WithinLimits, Message.statusCode, smallMetadata, workerProtocolMaxModuleBytes]

/-- A start message that announces a module over the caller's limit. -/
def oversizedStart : Message .unix := .executeStart 1 2 (smallMetadata .unix)

/-- Only the decoder tests the length of a module. -/
theorem readMessages_oversizedStart :
    (encode oversizedStart).map (fun frame =>
      (readMessages 1 frame : Except _ (List (Message .unix)) × _)) =
      .ok (.error .moduleTooLarge, []) := by
  decide +kernel

end Streams

end KernalApi.Worker
