import KernalApi.Worker.Fields

/-!
# Frames

The payload of every kind of message has a codec on the messages a decoder can
return. A frame is a header and a payload of the declared length, so decoding
inverts encoding on those messages, and reading from a stream consumes exactly
one frame.
-/

namespace KernalApi.Worker

open KernalApi.Std

variable {kind first second : Kind} {length : Nat} {frame : List UInt8} {target : Target}

/-- The messages a decoder can return: a module is within both limits, and a
status code is not the value that stands for an absent one. -/
def Message.Faithful : Message target → Prop
  | .executeStart _ moduleLen metadata =>
    moduleLen.toNat ≤ workerProtocolMaxModuleBytes ∧ moduleLen ≤ metadata.maxModuleBytes
  | .terminal _ _ detail _ _ => detail.statusCode ≠ some noStatusCode
  | _ => True

section Bodies

variable {requestId : UInt64}

/-- The messages with a given kind and request id that a decoder can return. -/
def Message.Answers (kind : Kind) (requestId : UInt64) (message : Message target) : Prop :=
  message.kind = kind ∧ message.requestId = requestId ∧ message.Faithful

theorem codec_plain {build : UInt64 → Message target}
    (only : ∀ message : Message target, message.Answers kind requestId ↔ message = build requestId)
    (writes : putBody (build requestId) = pure ()) :
    Codec (· = []) (Message.Answers kind requestId) putBody (pure (build requestId)) := by
  have nothing : Codec (· = []) (fun _ : Unit => True) (fun _ => (pure () : Put ProtocolError Unit))
      (pure ()) := .done fun _ => by simp
  refine .view (fun _ => build requestId) nothing ?_ (fun _ => writes) rfl
  intro message
  rw [only]
  simp

theorem codec_start :
    Codec (· = []) (Message.Answers .executeStart requestId : Message target → Prop) putBody
      (takeBody .executeStart requestId) := by
  have fields : Codec (· = [])
      (fun pair : UInt64 × ExecuteMetadata target =>
        pair.1.toNat ≤ workerProtocolMaxModuleBytes ∧ pair.1 ≤ pair.2.maxModuleBytes)
      (fun pair => do
        putU64 pair.1
        putMetadata pair.2)
      (do
        let moduleLen ← takeU64
        let metadata ← takeMetadata
        if workerProtocolMaxModuleBytes < moduleLen.toNat ∨ metadata.maxModuleBytes < moduleLen then
          throw .moduleTooLarge
        else pure (moduleLen, metadata)) := by
    refine .field Prod.fst codec_u64 fun moduleLen _ => ?_
    refine .lastField Prod.snd codec_metadata fun metadata _ => ?_
    have limits : ∀ {pair : UInt64 × ExecuteMetadata target},
        (¬ (workerProtocolMaxModuleBytes < pair.1.toNat ∨ pair.2.maxModuleBytes < pair.1)) ↔
          pair.1.toNat ≤ workerProtocolMaxModuleBytes ∧ pair.1 ≤ pair.2.maxModuleBytes := by
      intro pair
      rw [not_or, Nat.not_lt, UInt64.not_lt]
    refine .refuse (fun within => ?_) ?_
    · refine .done fun pair => ?_
      constructor
      · rintro ⟨⟨_, rfl⟩, rfl⟩
        rfl
      · rintro rfl
        exact ⟨⟨limits.mp within, rfl⟩, rfl⟩
    · rintro pair ⟨⟨described, rfl⟩, rfl⟩
      exact limits.mpr described
  refine .view (fun pair => .executeStart requestId pair.1 pair.2) fields ?_ ?_ ?_
  · intro message
    constructor
    · rintro ⟨kind, same, faithful⟩
      cases message <;> cases kind
      cases same
      exact ⟨(_, _), faithful, rfl⟩
    · rintro ⟨pair, described, rfl⟩
      exact ⟨rfl, rfl, described⟩
  · intro pair
    rfl
  · simp only [takeBody, bind_assoc]
    congr 1
    funext moduleLen
    congr 1
    funext metadata
    split <;> rfl

theorem codec_chunk :
    Codec (· = []) (Message.Answers .moduleChunk requestId : Message target → Prop) putBody
      (takeBody .moduleChunk requestId) := by
  have fields : Codec (· = []) (fun _ : UInt32 × List UInt8 => True)
      (fun pair => do
        putU32 pair.1
        putBytes pair.2)
      (do
        let sequence ← takeU32
        let bytes ← takeRest
        pure (sequence, bytes)) := by
    refine .field Prod.fst codec_u32 fun sequence _ => ?_
    refine .view (fun bytes => (sequence, bytes)) .remainder ?_ (fun _ => rfl) rfl
    simp
  refine .view (fun pair => .moduleChunk requestId pair.1 pair.2) fields ?_ ?_ ?_
  · intro message
    constructor
    · rintro ⟨kind, same, _⟩
      cases message <;> cases kind
      cases same
      exact ⟨(_, _), trivial, rfl⟩
    · rintro ⟨pair, _, rfl⟩
      exact ⟨rfl, rfl, trivial⟩
  · intro pair
    rfl
  · simp only [takeBody, bind_assoc, pure_bind]

/-- The reader's tests on the text of a trace. -/
def parseTrace (bytes : List UInt8) : Except ProtocolError String := do
  validateTrace bytes
  fromUtf8 bytes

theorem codec_trace :
    Codec (· = []) (Message.Answers .trace requestId : Message target → Prop) putBody
      (takeBody .trace requestId) := by
  have fields : Codec (· = []) (fun _ : String => True)
      (fun text => do
        liftM (validateTrace (asBytes text))
        putBytes (asBytes text))
      (do
        let bytes ← (takeRest : Take ProtocolError (List UInt8))
        liftM (parseTrace bytes)) := by
    refine .assure ?_
    refine .parsed .remainder ?_ ?_
    · rintro text ⟨_, valid⟩
      refine ⟨trivial, Fallible.bind_ok_iff.mpr ⟨(), valid, fromUtf8_asBytes text⟩⟩
    intro text bytes _ parsed
    obtain ⟨_, valid, found⟩ := Fallible.bind_ok_iff.mp parsed
    have same := asBytes_of_fromUtf8 found
    exact ⟨⟨trivial, same ▸ valid⟩, same⟩
  refine .view (fun text => .trace requestId text) fields ?_ ?_ ?_
  · intro message
    constructor
    · rintro ⟨kind, same, _⟩
      cases message <;> cases kind
      cases same
      exact ⟨_, trivial, rfl⟩
    · rintro ⟨text, _, rfl⟩
      exact ⟨rfl, rfl, trivial⟩
  · intro text
    rfl
  · -- The reader looks at the rest of the input before it takes it.
    funext input
    have unfolded : (takeBody .trace requestId : Take ProtocolError (Message target)) input =
        (do
          liftM (validateTrace input)
          let bytes ← takeRest
          let text ← liftM (fromUtf8 bytes)
          pure (.trace requestId text) : Take ProtocolError (Message target)) input := rfl
    rw [unfolded]
    simp only [bind, StateT.bind, takeRest, Except.bind, parseTrace]
    cases validateTrace input with
    | error => rfl
    | ok => rfl

/-- The fields of a terminal message. -/
structure TerminalReport where
  kind : TerminalKind
  detail : TerminalDetail
  diagnostic : String
  counters : FinalCounters

def TerminalReport.textLen (report : TerminalReport) : UInt16 :=
  UInt16.ofNat (asBytes report.diagnostic).length

theorem TerminalReport.toNat_textLen {report : TerminalReport}
    (short : ¬ maxDiagnosticBytes < (asBytes report.diagnostic).length) :
    report.textLen.toNat = (asBytes report.diagnostic).length := by
  have bound : maxDiagnosticBytes < 2 ^ 16 := by decide
  exact UInt16.toNat_ofNat_of_lt' (Nat.lt_of_le_of_lt (Nat.le_of_not_lt short) bound)

def putReport (report : TerminalReport) : Put ProtocolError Unit := do
  liftM (report.detail.validate report.kind)
  if maxDiagnosticBytes < (asBytes report.diagnostic).length then throw .diagnosticTooLarge
  else do
    putU8 report.kind.code
    putDetail report.detail
    putU16 report.textLen
    putBytes (asBytes report.diagnostic)
    putCounters report.counters

def takeReport : Take ProtocolError TerminalReport := do
  let kind ← takeTerminalKind
  let detail ← takeDetail
  liftM (detail.validate kind)
  let textLen ← takeU16
  if maxDiagnosticBytes < textLen.toNat then throw .diagnosticTooLarge
  else do
    let diagnostic ← takeText textLen.toNat
    let counters ← takeCounters
    pure { kind, detail, diagnostic, counters }

theorem codec_report :
    Codec (· = []) (fun report => report.detail.statusCode ≠ some noStatusCode) putReport
      takeReport := by
  refine .assure ?_
  refine .demand ?_
  refine .field TerminalReport.kind codec_terminalKind fun kind _ => ?_
  refine .field TerminalReport.detail codec_detail (fun detail present => ?_) ?described
  case described =>
    rintro report ⟨⟨⟨described, _⟩, _⟩, _⟩
    exact described
  refine .verify (fun valid => ?_) ?_
  · refine .field TerminalReport.textLen codec_u16 fun textLen _ => ?_
    refine .refuse (fun within => ?_) ?_
    · refine .field TerminalReport.diagnostic (codec_text textLen.toNat)
        (fun diagnostic sized => ?_) ?sized
      case sized =>
        rintro report ⟨⟨⟨⟨_, short⟩, _⟩, _⟩, rfl⟩
        exact (TerminalReport.toNat_textLen short).symm
      refine .lastField TerminalReport.counters codec_counters fun counters _ => ?_
      refine .done fun report => ?_
      constructor
      · rintro ⟨⟨⟨⟨⟨_, rfl⟩, rfl⟩, _⟩, rfl⟩, rfl⟩
        rfl
      rintro rfl
      have short : ¬ maxDiagnosticBytes < (asBytes diagnostic).length := by
        rw [sized]
        exact within
      refine ⟨⟨⟨⟨⟨⟨⟨present, valid⟩, short⟩, rfl⟩, rfl⟩, ?_⟩, rfl⟩, rfl⟩
      simp [TerminalReport.textLen, sized]
    · rintro report ⟨⟨⟨⟨_, short⟩, _⟩, _⟩, rfl⟩
      rw [TerminalReport.toNat_textLen short]
      exact short
  · rintro report ⟨⟨⟨⟨_, valid⟩, _⟩, rfl⟩, rfl⟩
    exact valid

theorem codec_terminal :
    Codec (· = []) (Message.Answers .terminal requestId : Message target → Prop) putBody
      (takeBody .terminal requestId) := by
  refine .view (fun report => .terminal requestId report.kind report.detail report.diagnostic
    report.counters) codec_report ?_ ?_ ?_
  · intro message
    constructor
    · rintro ⟨kind, same, faithful⟩
      cases message <;> cases kind
      cases same
      exact ⟨⟨_, _, _, _⟩, faithful, rfl⟩
    · rintro ⟨report, described, rfl⟩
      exact ⟨rfl, rfl, described⟩
  · intro report
    rfl
  · simp only [takeBody, takeTerminal, takeReport, bind_assoc]
    congr 1
    funext kind
    congr 1
    funext detail
    congr 1
    funext _
    congr 1
    funext textLen
    split
    · rfl
    simp

theorem codec_body (kind : Kind) (requestId : UInt64) :
    Codec (· = []) (Message.Answers kind requestId : Message target → Prop) putBody
      (takeBody kind requestId) := by
  -- The kinds without a body hold nothing but the request id.
  have plain : ∀ (build : UInt64 → Message target), (build requestId).requestId = requestId →
      (build requestId).Faithful → (∀ message : Message target,
        message.kind = (build requestId).kind → message = build message.requestId) →
      ∀ message : Message target,
        message.Answers (build requestId).kind requestId ↔ message = build requestId := by
    intro build same faithful only message
    constructor
    · rintro ⟨kind, rfl, _⟩
      exact only message kind
    · rintro rfl
      exact ⟨rfl, same, faithful⟩
  cases kind with
  | hello =>
    refine codec_plain (plain .hello rfl trivial fun message kind => ?_) rfl
    cases message <;> cases kind
    rfl
  | helloAck =>
    refine codec_plain (plain .helloAck rfl trivial fun message kind => ?_) rfl
    cases message <;> cases kind
    rfl
  | executeAck =>
    refine codec_plain (plain .executeAck rfl trivial fun message kind => ?_) rfl
    cases message <;> cases kind
    rfl
  | executeEnd =>
    refine codec_plain (plain .executeEnd rfl trivial fun message kind => ?_) rfl
    cases message <;> cases kind
    rfl
  | cancel =>
    refine codec_plain (plain .cancel rfl trivial fun message kind => ?_) rfl
    cases message <;> cases kind
    rfl
  | executeStart => exact codec_start
  | moduleChunk => exact codec_chunk
  | terminal => exact codec_terminal
  | trace => exact codec_trace

/-- The messages of a kind that a decoder can return. -/
def Message.Decodable (kind : Kind) (message : Message target) : Prop :=
  message.kind = kind ∧ message.requestId ≠ 0 ∧ message.Faithful

theorem codec_payload (kind : Kind) :
    Codec (· = []) (Message.Decodable kind : Message target → Prop) putPayload
      (takePayload kind) := by
  refine .field Message.requestId codec_u64 fun requestId _ => ?_
  refine .refuse (fun nonzero => ?_) ?_
  · refine .describe ?_ (codec_body kind requestId)
    intro message
    constructor
    · rintro ⟨⟨same, _, faithful⟩, rfl⟩
      exact ⟨same, rfl, faithful⟩
    · rintro ⟨same, rfl, faithful⟩
      exact ⟨⟨same, nonzero, faithful⟩, rfl⟩
  · rintro message ⟨⟨_, nonzero, _⟩, rfl⟩
    exact nonzero

end Bodies

section Headers

/-- The header of a payload of the given length. -/
def headerOf (kind : Kind) (length : Nat) : List UInt8 :=
  magic ++ leBytes 2 version.toNat ++ [kind.code] ++ leBytes 4 length

@[simp] theorem length_headerOf (kind : Kind) (length : Nat) :
    (headerOf kind length).length = headerLen := by
  simp [headerOf, magic, headerLen]

theorem frameOf_eq (kind : Kind) (payload : List UInt8) :
    frameOf kind payload = headerOf kind payload.length ++ payload := rfl

/-- A header as eleven bytes. -/
theorem headerOf_eq (kind : Kind) (length : Nat) :
    headerOf kind length = [75, 87, 87, 49, 7, 0, kind.code] ++ leBytes 4 length := rfl

theorem checkHeader_headerOf (kind : Kind) (within : length ≤ maxFramePayload)
    (rest : List UInt8) : checkHeader (headerOf kind length ++ rest) = .ok (kind, length) := by
  have bound : maxFramePayload < 2 ^ 32 := by decide
  have fits : length < 256 ^ 4 := by omega
  have word : getU32 (leBytes 4 length) = .ok (UInt32.ofNat length) := by
    have value := (getWord_eq (leBytes 4 length) (length_leBytes 4 length) :
      getU32 (leBytes 4 length) = .ok (UInt32.ofNat _))
    rw [leValue_leBytes fits] at value
    exact value
  have number : (UInt32.ofNat length).toNat = length := UInt32.toNat_ofNat_of_lt' (by omega)
  have tail : (leBytes 4 length ++ rest).take 4 = leBytes 4 length :=
    List.take_left' (length_leBytes 4 length)
  refine Fallible.bind_ok_iff.mpr ⟨version, rfl, ?_⟩
  refine Fallible.bind_ok_iff.mpr ⟨kind, kind.tryFrom_code, ?_⟩
  refine Fallible.bind_ok_iff.mpr ⟨UInt32.ofNat length, ?_, ?_⟩
  · exact (congrArg getU32 tail).trans word
  · rw [number, if_neg (Nat.not_lt.mpr within)]

theorem leBytes_of_getWord {α : Type} {width : Nat} {toNat : α → Nat} {ofNat : Nat → α}
    (toNat_ofNat : ∀ number, number < 256 ^ width → toNat (ofNat number) = number)
    {bytes : List UInt8} {value : α} (found : getWord width ofNat bytes = .ok value) :
    leBytes width (toNat value) = bytes := by
  unfold getWord at found
  split at found
  next counted =>
    cases found
    have small : leValue bytes < 256 ^ width := counted ▸ leValue_lt bytes
    rw [toNat_ofNat _ small, ← counted, leBytes_leValue]
  · cases found

/-- The parts of a header. -/
theorem take_headerLen (enough : headerLen ≤ frame.length) :
    frame.take headerLen =
      frame.take 4 ++ (frame.drop 4).take 2 ++ [frame.getD 6 0] ++ (frame.drop 7).take 4 := by
  match frame, enough with
  | _ :: _ :: _ :: _ :: _ :: _ :: _ :: _ :: _ :: _ :: _ :: _, _ => rfl

/-- A header that passes the tests is the one its kind and length determine. -/
theorem headerOf_of_checkHeader
    (enough : headerLen ≤ frame.length) (checked : checkHeader frame = .ok (kind, length)) :
    length ≤ maxFramePayload ∧ frame.take headerLen = headerOf kind length := by
  unfold checkHeader at checked
  split_ifs at checked with start
  obtain ⟨found, versionRead, checked⟩ := Fallible.bind_ok_iff.mp checked
  split_ifs at checked with supported
  obtain ⟨kind', kindRead, checked⟩ := Fallible.bind_ok_iff.mp checked
  obtain ⟨word, lengthRead, checked⟩ := Fallible.bind_ok_iff.mp checked
  split_ifs at checked with within
  cases checked
  have versionBytes := leBytes_of_getWord (fun _ small => UInt16.toNat_ofNat_of_lt' small)
    versionRead
  have lengthBytes := leBytes_of_getWord (fun _ small => UInt32.toNat_ofNat_of_lt' small) lengthRead
  refine ⟨Nat.le_of_not_lt within, ?_⟩
  rw [take_headerLen enough, not_not.mp start, headerOf, ← not_not.mp supported,
    versionBytes, Kind.code_of_tryFrom kindRead, lengthBytes]

theorem Kind.code_injective (same : first.code = second.code) :
    first = second := by
  have read := first.tryFrom_code
  rw [same, second.tryFrom_code] at read
  exact (Except.ok.inj read).symm

/-- A frame determines its kind and its payload. -/
theorem frameOf_injective {payload other : List UInt8}
    (same : frameOf first payload = frameOf second other) : first = second ∧ payload = other := by
  rw [frameOf_eq, frameOf_eq] at same
  have lengths : (headerOf first payload.length).length =
      (headerOf second other.length).length := by
    simp
  obtain ⟨headers, payloads⟩ := List.append_inj same lengths
  rw [headerOf_eq, headerOf_eq] at headers
  simp only [List.cons_append, List.cons.injEq, true_and] at headers
  exact ⟨Kind.code_injective headers.1, payloads⟩

end Headers

/-- Encoding succeeds on a message whose payload can be written and is short. -/
theorem encode_ok {message : Message target} :
    encode message = .ok frame ↔
      message.requestId ≠ 0 ∧ ∃ payload, putPayload message [] = .ok ((), payload) ∧
        payload.length ≤ maxFramePayload ∧ frame = frameOf message.kind payload := by
  have bound : maxFramePayload < 2 ^ 32 := by decide
  unfold encode
  constructor
  · intro encoded
    split_ifs at encoded with nonzero
    obtain ⟨⟨_, payload⟩, written, encoded⟩ := Fallible.bind_ok_iff.mp encoded
    simp only at encoded
    split_ifs at encoded with within
    cases encoded
    exact ⟨nonzero, payload, written, Nat.le_of_not_lt within, rfl⟩
  · rintro ⟨nonzero, payload, written, within, rfl⟩
    rw [if_neg nonzero]
    refine Fallible.bind_ok_iff.mpr ⟨((), payload), written, ?_⟩
    simp only
    rw [if_neg (Nat.not_lt.mpr within), if_neg (by omega)]

/-- Decoding succeeds on a frame whose payload is read to its end. -/
theorem decode_ok {message : Message target} :
    decode frame = .ok message ↔
      ∃ kind payload, frame = frameOf kind payload ∧ payload.length ≤ maxFramePayload ∧
        takePayload kind payload = .ok (message, []) := by
  have bound : headerLen + maxFramePayload ≤ usizeMax := by decide
  unfold decode
  constructor
  · intro decoded
    split_ifs at decoded with enough
    obtain ⟨⟨kind, length⟩, checked, decoded⟩ := Fallible.bind_ok_iff.mp decoded
    obtain ⟨within, header⟩ := headerOf_of_checkHeader (Nat.le_of_not_lt enough) checked
    simp only at decoded
    split_ifs at decoded
    obtain ⟨⟨found, input⟩, taken, decoded⟩ := Fallible.bind_ok_iff.mp decoded
    split_ifs at decoded with consumed
    cases decoded
    cases not_not.mp consumed
    have counted : (frame.drop headerLen).length = length := by
      rw [List.length_drop]
      omega
    refine ⟨kind, frame.drop headerLen, ?_, counted ▸ within, taken⟩
    rw [frameOf_eq, counted, ← header, List.take_append_drop]
  · rintro ⟨kind, payload, rfl, within, taken⟩
    have counted : (frameOf kind payload).length = headerLen + payload.length := by
      rw [frameOf_eq, List.length_append, length_headerOf]
    refine Fallible.bind_ok_iff.mpr ⟨(kind, payload.length),
      checkHeader_headerOf kind within payload, ?_⟩
    simp only
    rw [if_neg (by omega), if_neg (by omega), if_neg (not_not.mpr counted)]
    refine Fallible.bind_ok_iff.mpr ⟨(message, []), taken, ?_⟩
    simp

end KernalApi.Worker
