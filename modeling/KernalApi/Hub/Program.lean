import KernalApi.Hub.Thread

/-!
# The program of every call

`move` gives the next section of a thread, under a choice of the surroundings,
and `resume` the program point it reaches with the section's answer, together
with a job it launches. `Call.thread` lists the calls by which threads enter.
-/

namespace KernalApi.Hub

open KernalApi.Std

/-- The number of zero bytes `write_at_position` appends at once. -/
def zeroRun : Nat := 1024

/-- How many temporary names a commit tries. -/
def temporaryTries : Nat := 16

/-- Answers that a caller propagates as an error. -/
def Answer.isFailure : Answer → Bool
  | .failed _ | .refused _ | .unreceived _ => true
  | _ => false

namespace Thread

/-- The next move at a program point; `none` when the choice does not apply. -/
def move (hub : OperationHub) : Thread → Choice → Option Move
  | .returned _, _ => none
  | .attempt section' _ _, _ => some (.locked section')
  | .test section' _ _ _, _ => some (.locked section')
  | .pumpWrites _ _, _ => some (.locked .writePass)
  | .pumpTail _ _ _, _ => some (.locked .readPass)
  | .dispatchCreate store kind rights shareable fresh, _ =>
    some (.locked (.create store kind rights shareable fresh .dispatched))
  | .dispatchSubmit dispatch, _ =>
    some (.locked (.submit dispatch.store dispatch.resource dispatch.kind dispatch.rights
      .dispatched))
  | .dispatchAttach _ operation resource, _ => some (.locked (.attach operation resource))
  | .completeJob operation deferred, _ =>
    some (.locked (.completeAfterSuspend operation deferred))
  | .grantCreate store kind rights fresh _, _ =>
    some (.locked (.create store kind rights false fresh .granted))
  | .openCreate store _, _ =>
    some (.locked (.create store externalWebviewResourceKind externalWebviewRights false
      .externalWebview .external))
  | .openSubmit store none _, _ => some (.locked (.submit store none 0 0 .external))
  | .openSubmit store (some grant) _, _ =>
    some (.locked (.submit store (some grant) webviewUrlResourceKind webviewUrlRightOpen
      .external))
  | .openAttach _ operation resource, _ => some (.locked (.attach operation resource))
  | .opening operation resource, .proceed =>
    some (.locked (.finishExternalOpen operation resource))
  | .opening operation _, .finish terminal =>
    some (.locked (.terminal operation ⟨terminal, none⟩))
  | .externalSubmit store resource rights, _ =>
    some (.locked (.submit store (some resource) externalWebviewResourceKind rights .external))
  | .external _ operation, .finish terminal =>
    some (.locked (.terminal operation ⟨terminal, none⟩))
  | .external _ _, .capture _ => some .outside
  | .clockSubmit store, _ => some (.locked (.submit store none 0 0 .clock))
  | .clockBind store operation, _ => some (.locked (.bindProducer store operation))
  | .clock operation, .proceed =>
    some (.locked (.terminal operation ⟨.completed, none⟩))
  | .clock _, .giveUp => some .outside
  | .sealSubmit store blob, _ =>
    some (.locked (.submit store (some blob) blobResourceKind blobRightWrite .seal))
  | .writeSubmit store blob _ _, _ =>
    some (.locked (.submit store (some blob) blobResourceKind blobRightWrite .write))
  | .readSubmit store blob _, _ =>
    some (.locked (.submit store (some blob) blobResourceKind blobRightRead .read))
  | .chunkRead store blob maximum, _ => some (.locked (.readChunk store blob maximum false))
  | .chunk capacity, .giveUp => some (.locked (.releaseNative capacity))
  | .suspending operation store _, _ => some (.locked (.suspend operation store))
  | .arming operation store, _ => some (.locked (.armIdleTimer operation store))
  | .idleTimer operation, .proceed => some (.locked (.terminal operation ⟨.timedOut, none⟩))
  | .idleTimer _, .giveUp => some .outside
  | .encoderCreate store _ _, _ =>
    some (.locked (.create store blobResourceKind blobRights false .blob
      .encoded))
  | .encoderBind sink operation, _ =>
    some (.locked (.bindEncoder sink.store operation sink.blob))
  | .encoder _, .write _ => some .outside
  | .encoder _, .seek _ => some .outside
  | .encoder _, .publish _ => some .outside
  | .encoder _, .giveUp => some .outside
  | .encoderFill _ _, _ => some .outside
  | .encoderZeros _ [] _ _, _ => some .outside
  | .encoderZeros sink (zero :: zeros) _ _, _ =>
    some (.locked (.blobWrite sink.store sink.blob
      ((zero :: zeros).take hub.blobLimits.maximumChunkBytes) true))
  | .encoderOverwrite sink bytes, _ =>
    if min bytes.length (sink.written - sink.position) = 0 then some .outside
    else
      some (.locked (.overwriteEncoded sink.store sink.blob sink.position
        (bytes.take (sink.written - sink.position))))
  | .encoderAppend _ [] _ _, _ => some .outside
  | .encoderAppend sink (byte :: rest) _ _, _ =>
    some (.locked (.blobWrite sink.store sink.blob
      ((byte :: rest).take hub.blobLimits.maximumChunkBytes) true))
  | .encoderFinish sink operation, _ =>
    some (.locked (.finishEncoder sink.store sink.blob operation))
  | .commitSubmit store _ output, _ =>
    some (.locked (.submit store (some output) outputResourceKind outputRightCommit .commit))
  | .commitLaunch _ operation, _ => some (.locked (.acquireOutputJob operation))
  | .commitCheck commit, _ =>
    some (.locked (.checkOutput commit.store commit.blob commit.output commit.operation))
  | .commitPath commit, _ => some (.locked (.outputPath commit.store commit.output))
  | .commitStart commit, _ => some (.locked (.startCommit commit.store commit.blob))
  | .commitTemporary _ _, _ => some (.locked .drawToken)
  | .commitLoop commit _, _ =>
    some (.locked (.checkOutput commit.store commit.blob commit.output commit.operation))
  | .commitRead commit _, _ =>
    some (.locked (.readChunk commit.store commit.blob hub.blobLimits.maximumChunkBytes true))
  | .commitWrite _ _ _, _ => some .outside
  | .commitFinal commit _, _ =>
    some (.locked (.checkOutput commit.store commit.blob commit.output commit.operation))
  | .commitReplace _ _, .giveUp => some .outside
  | .commitReplace commit written, .proceed =>
    some (.locked (.replaceOutput commit.store commit.blob commit.output written
      commit.operation true))
  | .commitReplace commit written, .finish _ =>
    some (.locked (.replaceOutput commit.store commit.blob commit.output written
      commit.operation false))
  | .commitRelease commit _, _ => some (.locked (.close commit.blob .closed))
  | .commitDone _ _, _ => some .outside
  | .spawnSubmit store grant, _ => some (.locked (.spawn store grant))
  | .supervise _ _, .giveUp => some .outside
  | .supervise operation _, .finish terminal =>
    if terminal = .timedOut ∨ terminal = .rejected then
      some (.locked (.terminal operation ⟨terminal, none⟩))
    else none
  | .supervise operation process, .proceed => some (.locked (.publishCompiler operation process))
  | .supervising _ process, .finish .timedOut => some (.locked (.close process .timedOut))
  | .supervising _ _, .giveUp => some .outside
  | .cleaning _, .proceed => some (.locked .releaseNativeOutput)
  | .cleaning _, .giveUp => some .outside
  | .outputBegin store process, _ => some (.locked (.beginOutput store process))
  | .outputLease operation process, .received event =>
    some (.locked (.receive operation process event))
  | .outputLease operation _, .giveUp => some (.locked (.cancelledReceive operation))
  | .outputReady operation process, .proceed =>
    some (.locked (.collectNative operation process))
  | .outputReady _ _, .giveUp => some .outside
  | .outputSubmit store process, _ => some (.locked (.submitOutput store process))
  | .outputJob operation process, .received event =>
    some (.locked (.receive operation process event))
  | .outputJob operation _, .giveUp => some (.locked (.cancelledReceive operation))
  | .outputReceived operation process event, _ =>
    some (.locked (.publishOutput operation process event))
  | .waitSubmit store process, _ => some (.locked (.submitWait store process))
  | .waitJob store _ process, .proceed => some (.locked (.beginWait store process))
  | .waitJob _ _ _, .giveUp => some .outside
  | .waiting store _ process, .exited _ => some (.locked (.endWait store process))
  | .waiting _ operation _, .finish _ =>
    some (.locked (.publishWait operation (.error .closed)))
  | .waiting _ _ _, .giveUp => some .outside
  | .closeSubmit store process, _ => some (.locked (.submitClose store process))
  | .closeJob operation, .finish terminal =>
    if terminal = .completed ∨ terminal = .closed then
      some (.locked (.terminal operation ⟨terminal, none⟩))
    else none
  | .closeJob _, .giveUp => some .outside
  | .leaseAcquire budget bytes, _ => some (.locked (.acquireLease budget bytes))
  | .lease budget bytes, .giveUp => some (.locked (.dropLease budget bytes))
  | _, _ => none

/-- After an encoder call fails, the encoder stays failed. -/
def encoderFailed (sink : Encoder) : Thread := .encoder { sink with failed := true }

/-- Where a write of the encoder begins: a failed encoder refuses, an empty
write changes nothing, and a write past the bound fails the encoder. -/
def encoderWrite (sink : Encoder) (bytes : Bytes) : Thread :=
  if sink.failed = true ∨ bytes = [] then .encoder sink
  else if usizeMax < sink.position + bytes.length ∨
      sink.maximumBytes < sink.position + bytes.length then encoderFailed sink
  else .encoderFill sink bytes

/-- Where the bytes past the overwritten part are appended. -/
def encoderTail (sink : Encoder) (bytes : Bytes) : Thread :=
  let rest := bytes.drop (sink.written - sink.position)
  let total := sink.written + rest.length
  if usizeMax < total ∨ sink.maximumBytes < total then encoderFailed sink
  else .encoderAppend sink rest total (sink.position + bytes.length)

/-- How a commit ends for its caller. -/
def commitEnd (commit : Commit) (replaced : Bool) : Thread :=
  match commit.operation with
  | none => .returned replaced
  | some operation =>
    let finished := Thread.attempt .releaseOutputJob (.returned true) (.returned true)
    if replaced then finished
    else .attempt (.terminal operation ⟨.rejected, none⟩) finished finished

/-- What a thread does after work outside the lock. -/
def resumeOutside (hub : OperationHub) : Thread → Choice → Thread × Option Thread
  | .external store operation, .capture maximumBytes =>
    (.external store operation,
      if maximumBytes = 0 ∨ hub.blobLimits.maximumBlobBytes < maximumBytes then none
      else some (.encoderCreate store (some operation) maximumBytes))
  | .clock _, _ => (.attempt .releaseClock (.returned true) (.returned true), none)
  | .idleTimer _, _ => (.returned true, none)
  | .encoder sink, .write bytes => (encoderWrite sink bytes, none)
  | .encoder sink, .seek position =>
    if sink.maximumBytes < position then (.encoder sink, none)
    else (.encoder { sink with position }, none)
  | .encoder sink, .publish operation =>
    if sink.failed = true ∨
        (sink.boundOperation.isSome = true ∧ sink.boundOperation ≠ operation) then
      (dropEncoder sink false, none)
    else (.encoderFinish sink operation, none)
  | .encoder sink, _ => (dropEncoder sink true, none)
  | .encoderFill sink bytes, _ =>
    if sink.written < sink.position then
      let count := min (sink.position - sink.written) zeroRun
      (.encoderZeros sink (List.replicate count 0) (sink.written + count) bytes, none)
    else (.encoderOverwrite sink bytes, none)
  | .encoderZeros sink _ total bytes, _ =>
    (.encoderFill { sink with written := total } bytes, none)
  | .encoderOverwrite sink bytes, _ => (encoderTail sink bytes, none)
  | .encoderAppend sink _ total finish, _ =>
    (.encoder { sink with written := total, position := finish }, none)
  | .commitWrite commit written data, choice =>
    if data.bytes = [] then
      (dropChunk data.capacity (.commitFinal commit written), none)
    else if choice matches .giveUp then
      (dropChunk data.capacity (.commitRelease commit false), none)
    else (dropChunk data.capacity (.commitLoop commit (written ++ data.bytes)), none)
  | .commitReplace commit _, _ => (.commitRelease commit false, none)
  | .commitDone commit replaced, _ => (commitEnd commit replaced, none)
  | .supervise operation _, _ => (.cleaning operation, none)
  | .supervising operation _, _ => (.cleaning operation, none)
  | .cleaning operation, _ => (endJob operation false, none)
  | .outputReady operation process, _ => (dropLease operation process false false true, none)
  | .waitJob _ operation _, _ =>
    (.attempt (.dropScalar operation) (endJob operation true) (endJob operation true), none)
  | .waiting _ operation _, _ =>
    (.attempt (.dropScalar operation) (endJob operation true) (endJob operation true), none)
  | .closeJob operation, _ =>
    (.attempt (.dropScalar operation) (endJob operation true) (endJob operation true), none)
  | thread, _ => (thread, none)

/-- The terminal a failed wire read publishes. -/
def outputTerminal : CompilerOutputError → Terminal
  | .terminal terminal => terminal
  | .admission .closed => .closed
  | .admission _ => .rejected

/-- The end of a wait job once its operation was told. -/
def waitEnd (operation : OpaqueToken) : Thread :=
  .attempt (.dropScalar operation) (endJob operation true) (endJob operation true)

/-- Publish what a wait observed. -/
def waitPublish (operation : OpaqueToken) (result : Except HubError ProcessSessionExit) : Thread :=
  .attempt (.publishWait operation result) (waitEnd operation) (waitEnd operation)

/-- What a thread does with the answer of its section. -/
def resumeLocked (hub : OperationHub) : Thread → Choice → Answer → Thread × Option Thread
  | .attempt _ next failed, _, answer => (if answer.isFailure then failed else next, none)
  | .test _ yes _ _, _, .flag true => (yes, none)
  | .test _ _ no _, _, .flag false => (no, none)
  | .test _ _ _ failed, _, _ => (failed, none)
  | .pumpWrites next failed, _, .flag progressed => (.pumpTail progressed next failed, none)
  | .pumpWrites _ failed, _, _ => (failed, none)
  | .pumpTail progressed next failed, _, .flag woke =>
    (if progressed || woke then .pumpWrites next failed else next, none)
  | .pumpTail _ _ failed, _, _ => (failed, none)
  | .dispatchCreate store kind rights _ _, _, .token resource =>
    (.dispatchSubmit ⟨store, none, kind, rights, some resource, none⟩, none)
  | .dispatchSubmit dispatch, _, .token operation =>
    match dispatch.created with
    | none => (.returned true, some (.completeJob operation dispatch.completion))
    | some resource => (.dispatchAttach dispatch operation resource, none)
  | .dispatchSubmit dispatch, _, _ =>
    match dispatch.created with
    | none => (.returned false, none)
    | some resource => (closing resource (.returned false), none)
  | .dispatchAttach dispatch operation _, _, answer =>
    if answer.isFailure then (.returned false, none)
    else (.returned true, some (.completeJob operation dispatch.completion))
  | .completeJob operation deferred, _, .flag true =>
    (finishing operation deferred (.returned true) (.returned true), none)
  | .completeJob _ _, _, _ => (.returned true, none)
  | .grantCreate _ _ _ _ missing, _, .token resource =>
    (.attempt (.activate resource missing) (.returned true) (.returned false), none)
  | .openCreate store grant, _, .token resource => (.openSubmit store grant resource, none)
  | .openSubmit store _ resource, _, .token operation =>
    (.openAttach store operation resource, none)
  | .openSubmit _ _ resource, _, _ => (closing resource (.returned false), none)
  | .openAttach _ operation resource, _, answer =>
    if answer.isFailure then (.returned false, none)
    else (.opening operation resource, none)
  | .opening _ _, .proceed, _ => (.returned true, none)
  | .opening _ _, _, _ => (pumpQuietly (.returned true), none)
  | .externalSubmit store _ _, _, .token operation => (.external store operation, none)
  | .external _ _, _, _ => (pumpQuietly (.returned true), none)
  | .clockSubmit store, _, .token operation => (.clockBind store operation, none)
  | .clockSubmit _, _, _ => (.attempt .releaseClock (.returned false) (.returned false), none)
  | .clockBind _ operation, _, answer =>
    if answer.isFailure then
      (.attempt .releaseClock (.returned false) (.returned false), none)
    else (.returned true, some (.clock operation))
  | .clock _, _, _ => (.attempt .releaseClock (.returned true) (.returned true), none)
  | .sealSubmit store blob, _, .token operation =>
    let publish := fun terminal => Thread.attempt (.terminal operation ⟨terminal, none⟩)
      (.returned true) (.returned false)
    (.attempt (.sealBlob store blob blobRightWrite)
      (pumpBoth (publish .completed) (publish .rejected)) (publish .rejected), none)
  | .writeSubmit _ _ length copy, _, .token operation =>
    (.attempt (.stageWrite operation length copy)
      (.pumpWrites (.returned true) (.returned false)) (.returned false), none)
  | .readSubmit _ _ maximum, _, .token operation =>
    (.attempt (.stageRead operation maximum)
      (.attempt .readPass (.pumpWrites (.returned true) (.returned false)) (.returned false))
      (.returned false), none)
  | .chunkRead _ _ _, _, .chunk data =>
    (.pumpWrites (.chunk data.capacity) (dropChunk data.capacity (.returned false)), none)
  | .chunk _, _, _ => (pumpQuietly (.returned true), none)
  | .suspending operation store stream, _, .deferred completion =>
    let after := if stream then Thread.arming operation store else .returned true
    match completion with
    | none => (after, none)
    | some deferred => (finishing operation deferred after (.returned false), none)
  | .arming operation _, _, .flag armed =>
    (.returned true, if armed then some (.idleTimer operation) else none)
  | .idleTimer _, _, _ => (.returned true, none)
  | .encoderCreate store operation maximumBytes, _, .token blob =>
    let sink : Encoder := { store, blob, boundOperation := none, maximumBytes }
    match operation with
    | none => (.encoder sink, none)
    | some operation => (.encoderBind sink operation, none)
  | .encoderBind sink operation, _, answer =>
    if answer.isFailure then (dropEncoder sink false, none)
    else (.encoder { sink with boundOperation := some operation }, none)
  | .encoderZeros sink zeros total bytes, _, answer =>
    if answer.isFailure then (encoderFailed sink, none)
    else
      (.attempt .readPass
        (.encoderZeros sink (zeros.drop hub.blobLimits.maximumChunkBytes) total bytes)
        (encoderFailed sink), none)
  | .encoderOverwrite sink bytes, _, answer =>
    if answer.isFailure then (encoderFailed sink, none) else (encoderTail sink bytes, none)
  | .encoderAppend sink rest total finish, _, answer =>
    if answer.isFailure then (encoderFailed sink, none)
    else
      (.attempt .readPass (.encoderAppend sink (rest.drop hub.blobLimits.maximumChunkBytes) total
        finish) (encoderFailed sink), none)
  | .encoderFinish sink _, _, answer =>
    if answer.isFailure then (dropEncoder sink false, none) else (.returned true, none)
  | .commitSubmit store blob output, _, .token operation =>
    (.commitLaunch ⟨store, blob, output, some operation⟩ operation, none)
  | .commitLaunch commit _, _, answer =>
    if answer.isFailure then (.returned false, none)
    else (.returned true, some (.commitCheck commit))
  | .commitCheck commit, _, answer =>
    (if answer.isFailure then commitEnd commit false else .commitPath commit, none)
  | .commitPath commit, _, answer =>
    (if answer.isFailure then commitEnd commit false else .commitStart commit, none)
  | .commitStart commit, _, answer =>
    (if answer.isFailure then commitEnd commit false else .commitTemporary commit 0, none)
  | .commitTemporary commit tries, choice, answer =>
    if answer.isFailure then (.commitRelease commit false, none)
    else if choice matches .proceed then (.commitLoop commit [], none)
    else if choice matches .seek _ then
      (if tries + 1 < temporaryTries then .commitTemporary commit (tries + 1)
        else .commitRelease commit false, none)
    else (.commitRelease commit false, none)
  | .commitLoop commit written, _, answer =>
    (if answer.isFailure then .commitRelease commit false else .commitRead commit written, none)
  | .commitRead commit written, _, .chunk data =>
    (.pumpWrites (.commitWrite commit written data)
      (dropChunk data.capacity (.commitRelease commit false)), none)
  | .commitRead commit _, _, _ => (.commitRelease commit false, none)
  | .commitFinal commit written, _, answer =>
    (if answer.isFailure then .commitRelease commit false else .commitReplace commit written, none)
  | .commitReplace commit _, _, answer => (.commitRelease commit (!answer.isFailure), none)
  | .commitRelease commit replaced, _, answer =>
    (if answer.isFailure then .commitDone commit replaced
      else .pumpWrites (.commitDone commit replaced) (.commitDone commit replaced), none)
  | .spawnSubmit _ _, _, .pair operation process =>
    (.returned true, some (.supervise operation process))
  | .supervise operation process, .proceed, answer =>
    (if answer.isFailure then .cleaning operation else .supervising operation process, none)
  | .supervise operation _, .finish .rejected, _ => (endJob operation false, none)
  | .supervise operation _, _, _ => (.cleaning operation, none)
  | .supervising operation _, _, answer =>
    (if answer.isFailure then .cleaning operation
      else .pumpWrites (.cleaning operation) (.cleaning operation), none)
  | .cleaning operation, _, answer =>
    (if answer.isFailure then endJob operation false else pumpQuietly (endJob operation true), none)
  | .outputBegin _ process, _, .token operation => (.outputLease operation process, none)
  | .outputLease operation process, _, answer =>
    (if answer.isFailure then dropLease operation process false false false
      else .outputReady operation process, none)
  | .outputReady operation process, _, answer =>
    (dropLease operation process false (!answer.isFailure) (!answer.isFailure), none)
  | .outputSubmit _ process, _, .token operation =>
    (.returned true, some (.outputJob operation process))
  | .outputJob operation process, _, .unreceived error =>
    let drop := Thread.attempt (.dropOutput operation process true false)
      (pumpQuietly (endJob operation true)) (pumpQuietly (endJob operation true))
    (.attempt (.terminal operation ⟨outputTerminal error, none⟩) drop drop, none)
  | .outputJob operation process, .received event, _ =>
    (.outputReceived operation process event, none)
  | .outputReceived operation process _, _, answer =>
    if answer.isFailure then
      (.attempt (.dropOutput operation process true false)
        (pumpQuietly (endJob operation true)) (pumpQuietly (endJob operation true)), none)
    else (endJob operation true, none)
  | .waitSubmit store process, _, .token operation =>
    (.returned true, some (.waitJob store operation process))
  | .waitJob store operation process, _, answer =>
    (if answer.isFailure then waitPublish operation (.error .closed)
      else .waiting store operation process, none)
  | .waiting _ operation _, .exited exit, answer =>
    (waitPublish operation (if answer.isFailure then .error .closed else .ok exit), none)
  | .waiting _ operation _, _, _ => (waitEnd operation, none)
  | .closeSubmit _ _, _, .token operation => (.returned true, some (.closeJob operation))
  | .closeJob operation, _, _ => (waitEnd operation, none)
  | .leaseAcquire budget bytes, _, answer =>
    (if answer.isFailure then .returned false else .lease budget bytes, none)
  | .lease _ _, _, .flag true => (pumpQuietly (.returned true), none)
  | .lease _ _, _, _ => (.returned true, none)
  | _, _, _ => (.returned false, none)
end Thread

end KernalApi.Hub
