/-
# The coordinator

`cluster.hpp` and `cluster.cpp`: a coordinator serves one session after another.
The first frame of a session has to be a Hello that registers a worker; the frames
that follow bring evidence and completions to the governor, which the coordinator
keeps in memory or in a durable store.  What a socket delivers is a list of reads,
each of them a frame or the status with which `read_frame` failed; the list ends
where the coordinator is asked to stop.
-/
import ElephantFlow.Durable
import ElephantFlow.Transport

namespace EFG

open ByteCodec

/-! ## Evidence batches -/

/-- `decode_evidence_batch`: the whole batch, or none of it. -/
def decodeEvidenceBatch (maxBatch : ℕ) (payload : Bytes) : Except Status (List FlowSample) :=
  let header : Decoder Status (UInt32 × UInt64) := do
    let e := truncated "evidence batch header is truncated"
    let count ← Decoder.u32 e
    let reserved ← Decoder.u64 e
    pure (count, reserved)
  match header payload with
  | .error e => .error e
  | .ok ((count, reserved), body) =>
    if reserved ≠ 0 then
      makeStatus .invalidArgument "evidence batch reserved field is not zero"
    else if count.toNat > maxBatch then
      makeStatus .oversized "evidence batch exceeds the configured ceiling"
    else
      match (Decoder.times decode count.toNat : Decoder Status (List FlowSample)) body with
      | .error e => .error e
      | .ok (samples, rest) =>
        if rest ≠ [] then
          makeStatus .contradictoryEvidence "evidence batch carries trailing bytes"
        else .ok samples

/-- `encode_evidence_batch` into a fresh writer. -/
def encodeEvidenceBatch (maxBatch : ℕ) (samples : List FlowSample) : Except Status Bytes :=
  if samples.length > maxBatch then
    makeStatus .oversized "evidence batch exceeds the configured ceiling"
  else
    let w := ({ ceiling := kMaxFramePayload } : ByteWriter).writeAll
      ([le32 (UInt32.ofNat samples.length), le64 0] ++ samples.flatMap encode)
    if w.overflowed then makeStatus .oversized "encoded evidence batch exceeded the ceiling"
    else .ok w.buffer

/-! ## State -/

/-- `ClusterLimits`. -/
structure ClusterLimits where
  maxWorkers : ℕ := kMaxWorkers
  maxPayload : ℕ := kMaxFramePayload
  maxBatch : ℕ := kMaxEvidenceBatch
  deriving DecidableEq, Repr, Inhabited

/-- `SessionOutcome`. -/
structure SessionOutcome where
  worker : WorkerId := {}
  boot : BootId := {}
  epoch : EpochId := {}
  label : Bytes := []
  fenced : Bool := false
  cleanBye : Bool := false
  fence : FenceReason := .none
  frames : UInt64 := 0
  samples : UInt64 := 0
  accepted : UInt64 := 0
  duplicates : UInt64 := 0
  rejected : UInt64 := 0
  detail : String := ""
  deriving DecidableEq, Repr, Inhabited

/-- `WorkerRecord`. -/
structure WorkerRecord where
  worker : WorkerId := {}
  boot : BootId := {}
  epoch : EpochId := {}
  label : Bytes := []
  sessions : UInt64 := 0
  fences : UInt64 := 0
  lastSeen : Tick := 0
  outcome : String := ""
  deriving DecidableEq, Repr, Inhabited

/-- `CoordinatorConfig`, without the store directory and the session count of `run`. -/
structure CoordinatorConfig where
  boot : BootIdentity := {}
  limits : ClusterLimits := {}
  governor : GovernorConfig := {}
  startTick : Tick := 0
  policy : PolicyDocument := {}
  capacities : List ResourceCapacity := []
  paths : List PathDescriptor := []

/-- Where the coordinator keeps its governor. -/
inductive Backing
  | inline (g : Governor)
  | store (d : DurableGovernor)

namespace Backing

/-- `*governor_`. -/
def governor : Backing → Governor
  | .inline g => g
  | .store d => d.governor

/-- `store_->record_evidence` or `governor_->submit_evidence`. -/
def submitEvidence (s : FlowSample) : Backing → Except Status FlowDecision × Backing
  | .inline g => ((g.submitEvidence s).1, .inline (g.submitEvidence s).2)
  | .store d => ((d.recordEvidence s).1, .store (d.recordEvidence s).2)

/-- `governor_->complete_flow`, on either backing. -/
def completeFlow (flow : FlowId) (generation : Generation) (atTick : Tick) :
    Backing → Except Status Unit × Backing
  | .inline g => ((g.completeFlow flow generation atTick).1,
      .inline (g.completeFlow flow generation atTick).2)
  | .store d => ((d.governor.completeFlow flow generation atTick).1,
      .store { d with governor := (d.governor.completeFlow flow generation atTick).2 })

/-- `store_->record_policy` or `governor_->submit_policy`. -/
def submitPolicy (p : PolicyDocument) : Backing → Except Status Unit × Backing
  | .inline g => ((g.submitPolicy p).1, .inline (g.submitPolicy p).2)
  | .store d => ((d.recordPolicy p).1, .store (d.recordPolicy p).2)

/-- `store_->record_capacity` or `governor_->submit_capacity`. -/
def submitCapacity (c : ResourceCapacity) : Backing → Except Status Unit × Backing
  | .inline g => ((g.submitCapacity c).1, .inline (g.submitCapacity c).2)
  | .store d => ((d.recordCapacity c).1, .store (d.recordCapacity c).2)

/-- `store_->record_path` or `governor_->submit_path`. -/
def submitPath (p : PathDescriptor) : Backing → Except Status Unit × Backing
  | .inline g => ((g.submitPath p).1, .inline (g.submitPath p).2)
  | .store d => ((d.recordPath p).1, .store (d.recordPath p).2)

end Backing

/-- `Coordinator`, without its sockets. -/
structure Coordinator where
  limits : ClusterLimits := {}
  boot : BootIdentity := {}
  backing : Backing
  sessions : List SessionOutcome := []
  workers : List WorkerRecord := []
  seenNonces : List UInt64 := []
  lastTick : Tick := 0
  sessionSequence : UInt64 := 0
  nextWorkerId : WorkerId := {}

/-- `*governor_`. -/
def Coordinator.governor (c : Coordinator) : Governor := c.backing.governor

/-- `decision_digest`. -/
def decisionDigest (g : Governor) : UInt64 :=
  hasherDigest (["1.0.0".toUTF8.toList, leBool g.policy.isSome] ++
    (match g.policy with
      | none => []
      | some p => [le64 p.digest]) ++
    g.capacities.entries.values.map (fun c => le64 c.digest) ++
    g.paths.entries.values.map (fun p => le64 p.digest) ++
    g.flows.toList.flatMap (fun (key, r) => [le64 key.flow.value, le64 key.generation.value,
      le64 r.ledger.measurements.digest, le64 r.history.digest]) ++
    g.intents.liveIntents.flatMap (fun i => [le64 i.id.value, le64 i.digest]) ++
    [le64 g.counters.decisions, le64 g.counters.transitions])

/-! ## Creation -/

/-- Apply the inputs one after another, up to the first refusal. -/
def configure {α : Type} (apply : α → Backing → Except Status Unit × Backing) :
    List α → Backing → Except Status Backing
  | [], b => .ok b
  | a :: as, b =>
    match apply a b with
    | (.error e, _) => .error e
    | (.ok (), b) => configure apply as b

/-- The governor that `create` starts from: a fresh one, or the one that the store recovers. -/
def openBacking (config : CoordinatorConfig) : Option Disk → Except Status Backing
  | none => .ok (.inline ((Governor.make config.governor).setIncarnation config.boot))
  | some disk =>
    match DurableGovernor.openStore disk {} config.governor config.boot config.startTick with
    | .error e => .error e
    | .ok d => .ok (.store d)

/-- `Coordinator::create`; the files of the store directory are given if it is set. -/
def Coordinator.create (config : CoordinatorConfig) (disk : Option Disk) :
    Except Status Coordinator :=
  if ¬ config.boot.valid then
    makeStatus .invalidArgument "coordinator requires a boot identity"
  else if config.limits.maxWorkers = 0 ∨ config.limits.maxWorkers > kMaxWorkers then
    makeStatus .outOfRange "worker ceiling is outside the supported range"
  else if config.limits.maxPayload = 0 ∨ config.limits.maxPayload > kMaxFramePayload then
    makeStatus .outOfRange "frame ceiling is outside the supported range"
  else do
    let backing ← openBacking config disk
    let backing ← configure Backing.submitPolicy
      (if config.policy.enterRule.empty then [] else [config.policy]) backing
    let backing ← configure Backing.submitCapacity config.capacities backing
    let backing ← configure Backing.submitPath config.paths backing
    .ok { limits := config.limits
          boot := config.boot
          backing := backing
          lastTick := config.startTick }

/-! ## Replies -/

/-- A session while it is served, with the frames that were written to its peer and the samples that
`outcome.accepted` counts. -/
structure Serving where
  coordinator : Coordinator
  outcome : SessionOutcome := {}
  sent : List Frame := []
  acceptedSamples : List FlowSample := []

namespace Serving

/-- `write_frame` of a reply of the coordinator; the socket itself does not fail. -/
def write (s : Serving) (type : FrameType) (payload : Bytes) : Except Status Unit × Serving :=
  let c := s.coordinator
  let frame : Frame :=
    { header := { type := type, epoch := c.boot.epoch, boot := c.boot.boot
                  worker := s.outcome.worker, sequence := c.sessionSequence + 1 }
      payload := payload }
  let s := { s with coordinator := { c with sessionSequence := c.sessionSequence + 1 } }
  match encodeFrame c.limits.maxPayload frame with
  | .error e => (.error e, s)
  | .ok _ => (.ok (), { s with sent := s.sent ++ [frame] })

/-- `append_fence` into a writer of 256 bytes. -/
def fencePayload (reason : FenceReason) (detail : String) : Bytes :=
  let text := detail.toUTF8.toList
  (({ ceiling := 256 } : ByteWriter).writeAll
    [le16 reason.toU16, le32 (UInt32.ofNat text.length), text]).buffer

/-- `fence_session`: whether the fence frame could be written is ignored. -/
def fenceSession (s : Serving) (reason : FenceReason) (detail : String) : Serving :=
  ({ s with outcome := { s.outcome with
      fenced := true
      fence := reason
      detail := detail } }.write .fence (fencePayload reason detail)).2

end Serving

/-! ## Registration -/

/-- `kMaxNonceHistory`. -/
def kMaxNonceHistory : ℕ := 4096

/-- The payload of a Hello frame. -/
structure Hello where
  requestedWorker : UInt64
  boot : UInt64
  epoch : UInt64
  nonce : UInt64
  label : Bytes
  deriving DecidableEq, Repr

/-- The reads of `handle_hello`. -/
def decodeHello : Decoder Unit Hello := do
  let requestedWorker ← Decoder.u64 ()
  let boot ← Decoder.u64 ()
  let epoch ← Decoder.u64 ()
  let nonce ← Decoder.u64 ()
  let label ← Decoder.string kMaxNameBytes ()
  pure ⟨requestedWorker, boot, epoch, nonce, label⟩

/-- The writes of `Worker::register_session`. -/
def helloChunks (h : Hello) : List Bytes :=
  [le64 h.requestedWorker, le64 h.boot, le64 h.epoch, le64 h.nonce,
    le32 (UInt32.ofNat h.label.length), h.label]

/-- The payload that `Worker::register_session` sends. -/
def encodeHello (h : Hello) : Except Status Bytes :=
  let w := ({ ceiling := 256 } : ByteWriter).writeAll (helloChunks h)
  if w.overflowed then makeStatus .oversized "hello payload exceeded the ceiling" else .ok w.buffer

/-- The worker identifier that a Hello is given and the next `next_worker_id_`, or the text of the
refusal. -/
def assignWorker (maxWorkers : ℕ) (next : WorkerId) (requested : UInt64) :
    Except String (WorkerId × WorkerId) :=
  if requested = 0 then
    if next.value.toNat ≥ maxWorkers then .error "worker population ceiling reached"
    else .ok (⟨next.value + 1⟩, ⟨next.value + 1⟩)
  else if requested.toNat > maxWorkers then
    .error "requested worker identifier exceeds the ceiling"
  else .ok (⟨requested⟩, if requested > next.value then ⟨requested⟩ else next)

/-- `find_worker`. -/
def findWorker (workers : List WorkerRecord) (id : WorkerId) : Option WorkerRecord :=
  workers.find? (fun r => r.worker = id)

/-- A change of the record that `find_worker` points to. -/
def updateWorker (id : WorkerId) (f : WorkerRecord → WorkerRecord) :
    List WorkerRecord → List WorkerRecord
  | [] => []
  | r :: rs => if r.worker = id then f r :: rs else r :: updateWorker id f rs

/-- The worker table after a registration.  The record of another boot is marked superseded. -/
def registerWorker (workers : List WorkerRecord) (id : WorkerId) (h : Hello) (lastTick : Tick) :
    List WorkerRecord :=
  match findWorker workers id with
  | none =>
    workers ++ [{ worker := id, boot := ⟨h.boot⟩, epoch := ⟨h.epoch⟩, label := h.label
                  sessions := 1, lastSeen := lastTick }]
  | some _ =>
    updateWorker id (fun r =>
      let r := if r.boot ≠ ⟨h.boot⟩ then
          { r with outcome := "superseded_by_new_boot", fences := r.fences + 1 }
        else r
      { r with
        boot := ⟨h.boot⟩
        epoch := ⟨h.epoch⟩
        label := h.label
        lastSeen := lastTick
        sessions := r.sessions + 1 }) workers

/-- The nonce history after an accepted Hello: the oldest nonce makes room. -/
def rememberNonce (seen : List UInt64) (nonce : UInt64) : List UInt64 :=
  (if seen.length ≥ kMaxNonceHistory then seen.drop 1 else seen) ++ [nonce]

/-- What `handle_hello` returns: the session is fenced, or the worker is registered and the Welcome
frame was written or not. -/
inductive HelloVerdict
  | fenced
  | registered (written : Except Status Unit)

namespace Serving

/-- The payload of a Welcome frame. -/
def welcomePayload (s : Serving) : Bytes :=
  (({ ceiling := 256 } : ByteWriter).writeAll
    [le64 s.outcome.worker.value, le64 s.coordinator.boot.epoch.value,
      le64 s.coordinator.boot.boot.value,
      le64 (match s.coordinator.governor.policy with
        | none => 0
        | some p => p.digest), le32 1]).buffer

/-- The part of `handle_hello` behind its checks. -/
def registerSession (s : Serving) (h : Hello) (assigned next : WorkerId) :
    HelloVerdict × Serving :=
  let c := s.coordinator
  let s : Serving := { s with
    coordinator := { c with
      nextWorkerId := next
      workers := registerWorker c.workers assigned h c.lastTick
      seenNonces := rememberNonce c.seenNonces h.nonce }
    outcome := { s.outcome with worker := assigned } }
  (.registered (s.write .welcome s.welcomePayload).1, (s.write .welcome s.welcomePayload).2)

/-- `handle_hello`. -/
def handleHello (s : Serving) (frame : Frame) : HelloVerdict × Serving :=
  match decodeHello frame.payload with
  | .error _ => (.fenced, s.fenceSession .frameMalformed "hello payload is truncated")
  | .ok (h, _) =>
    if frame.header.epoch ≠ ⟨h.epoch⟩ ∨ frame.header.boot ≠ ⟨h.boot⟩ then
      (.fenced, s.fenceSession .frameMalformed "hello frame identity disagrees with its payload")
    else
      let c := s.coordinator
      let s : Serving := { s with outcome := { s.outcome with
        epoch := ⟨h.epoch⟩
        boot := ⟨h.boot⟩
        label := h.label } }
      if (⟨h.epoch⟩ : EpochId) < c.boot.epoch then
        (.fenced, s.fenceSession .epochStale "worker epoch is older than the coordinator epoch")
      else if c.boot.epoch < (⟨h.epoch⟩ : EpochId) then
        (.fenced, s.fenceSession .epochAhead "worker epoch is newer than the coordinator epoch")
      else if h.nonce ∈ c.seenNonces then
        (.fenced, s.fenceSession .workerDuplicate "session nonce was already consumed")
      else
        match assignWorker c.limits.maxWorkers c.nextWorkerId h.requestedWorker with
        | .error detail => (.fenced, s.fenceSession .populationCeiling detail)
        | .ok (assigned, next) => s.registerSession h assigned next

/-! ## Evidence and completions -/

/-- The decision tick that `apply_evidence_batch` books for a sample. -/
def bookedTick (sample : FlowSample) (now : Tick) : Tick :=
  maxOf (if sample.validity.issuedAt > sample.span.endAt then sample.validity.issuedAt
    else sample.span.endAt) now

/-- One iteration of the loop of `apply_evidence_batch`. -/
def applySample (now : Tick) (s : Serving) (sample : FlowSample) : Serving :=
  let c := s.coordinator
  let o := { s.outcome with samples := s.outcome.samples + 1 }
  let decision := c.backing.submitEvidence sample
  match decision.1 with
  | .ok d =>
    { s with
      coordinator := { c with
        backing := decision.2
        lastTick := if bookedTick sample now > c.lastTick then bookedTick sample now else c.lastTick }
      outcome := { o with
        accepted := o.accepted + 1
        duplicates := if d.evidenceDuplicate then o.duplicates + 1 else o.duplicates }
      acceptedSamples := s.acceptedSamples ++ [sample] }
  | .error _ =>
    { s with
      coordinator := { c with backing := decision.2 }
      outcome := { o with rejected := o.rejected + 1 } }

/-- `apply_evidence_batch`. -/
def applyEvidenceBatch (s : Serving) (payload : Bytes) (now : Tick) :
    Except Status Unit × Serving :=
  match decodeEvidenceBatch s.coordinator.limits.maxBatch payload with
  | .error e => (.error e, s)
  | .ok samples => (.ok (), samples.foldl (applySample now) s)

/-- The flow, the generation and the tick of a completion payload. -/
def decodeCompletion : Decoder Status (FlowId × Generation × Tick) := do
  let e := truncated "completion frame is truncated"
  let flow ← Decoder.u64 e
  let generation ← Decoder.u64 e
  let atTick ← Decoder.u64 e
  pure (⟨flow⟩, ⟨generation⟩, atTick)

/-- `apply_completion`: an unknown flow is no error. -/
def applyCompletion (s : Serving) (payload : Bytes) (now : Tick) : Except Status Unit × Serving :=
  match decodeCompletion payload with
  | .error e => (.error e, s)
  | .ok ((flow, generation, at₀), _) =>
    if ¬ flow.valid ∨ ¬ generation.valid then
      (makeStatus .invalidArgument "completion identity is invalid", s)
    else
      let atTick := if at₀ < now then now else at₀
      let c := s.coordinator
      let completed := c.backing.completeFlow flow generation atTick
      let done : Serving := { s with coordinator := { c with
        backing := completed.2
        lastTick := if atTick > c.lastTick then atTick else c.lastTick } }
      match completed.1 with
      | .ok () => (.ok (), done)
      | .error e =>
        if e.code = .notFound then (.ok (), done)
        else (.error e, { s with coordinator := { c with backing := completed.2 } })

/-! ## The stream -/

/-- How the loop of `handle_stream` goes on after a frame. -/
inductive Next
  | again (cleanBye : Bool)
  | leave (cleanBye : Bool)
  | stop (result : Except Status Unit)

/-- The fence reason of a batch that was not applied. -/
def batchFence (e : Status) : FenceReason :=
  if e.code = .oversized then .frameOversized else .frameMalformed

/-- The payload of an acknowledgement. -/
def ackPayload (s : Serving) : Bytes :=
  (({ ceiling := 256 } : ByteWriter).writeAll
    [le64 s.outcome.accepted, le64 s.outcome.duplicates, le64 s.outcome.rejected,
      le64 s.coordinator.lastTick, le64 (decisionDigest s.coordinator.governor)]).buffer

/-- The evidence branch of the switch. -/
def handleEvidence (s : Serving) (cleanBye : Bool) (frame : Frame) : Next × Serving :=
  match s.applyEvidenceBatch frame.payload s.coordinator.lastTick with
  | (.error e, s) =>
    let s := (s.write .fence (fencePayload (batchFence e) e.message)).2
    (.stop (.ok ()), { s with outcome := { s.outcome with
      fenced := true
      fence := batchFence e
      detail := e.message } })
  | (.ok (), s) =>
    match s.write .evidenceAck s.ackPayload with
    | (.error e, s) => (.stop (.error e), s)
    | (.ok (), s) => (.again cleanBye, s)

/-- The heartbeat branch of the switch. -/
def handleHeartbeat (s : Serving) (cleanBye : Bool) (frame : Frame) : Next × Serving :=
  match (Decoder.u64 () : Decoder Unit UInt64) frame.payload with
  | .error _ => (.stop (.ok ()), s.fenceSession .frameMalformed "heartbeat payload is truncated")
  | .ok (tick, _) =>
    (.again cleanBye, { s with coordinator := { s.coordinator with
      lastTick := if tick > s.coordinator.lastTick then tick else s.coordinator.lastTick } })

/-- The completion branch of the switch. -/
def handleCompletion (s : Serving) (cleanBye : Bool) (frame : Frame) : Next × Serving :=
  match s.applyCompletion frame.payload s.coordinator.lastTick with
  | (.error e, s) => (.stop (.ok ()), s.fenceSession .generationRegression e.message)
  | (.ok (), s) => (.again cleanBye, s)

/-- The switch over the frame type. -/
def dispatch (s : Serving) (cleanBye : Bool) (frame : Frame) : Next × Serving :=
  match frame.header.type with
  | .heartbeat => s.handleHeartbeat cleanBye frame
  | .evidenceBatch => s.handleEvidence cleanBye frame
  | .flowCompletion => s.handleCompletion cleanBye frame
  | .shutdown => (.again true, s)
  | _ => (.stop (.ok ()),
      s.fenceSession .frameMalformed "frame type is not accepted from a worker")

/-- The iteration of `handle_stream` for one frame. -/
def handleFrame (s : Serving) (cleanBye : Bool) (frame : Frame) : Next × Serving :=
  let s : Serving := { s with outcome := { s.outcome with frames := s.outcome.frames + 1 } }
  if frame.header.epoch ≠ s.coordinator.boot.epoch then
    (.leave cleanBye,
      s.fenceSession .epochStale "frame epoch disagrees with the coordinator epoch")
  else if frame.header.worker ≠ s.outcome.worker then
    (.leave cleanBye,
      s.fenceSession .workerUnknown "frame worker disagrees with the registered worker")
  else if frame.header.boot ≠ s.outcome.boot then
    (.leave cleanBye,
      s.fenceSession .bootMismatch "frame boot disagrees with the registered incarnation")
  else if frame.header.type = .bye then (.leave true, s)
  else if frame.header.type = .hello then
    (.leave cleanBye, s.fenceSession .workerDuplicate "second hello inside one session")
  else s.dispatch cleanBye frame

/-- One iteration of the loop of `handle_stream`. -/
def handleRead (s : Serving) (cleanBye : Bool) : Except Status Frame → Next × Serving
  | .error e =>
    if e.code = .closed then
      (.leave cleanBye,
        { s with outcome := { s.outcome with detail := "peer closed the connection" } })
    else (.leave cleanBye, s.fenceSession .frameMalformed "frame read failed")
  | .ok frame => s.handleFrame cleanBye frame

/-- `outcome.clean_bye = clean_bye`. -/
def withCleanBye (s : Serving) (cleanBye : Bool) : Serving :=
  { s with outcome := { s.outcome with cleanBye := cleanBye } }

/-- `handle_stream`. -/
def handleStream (s : Serving) (cleanBye : Bool) :
    List (Except Status Frame) → Except Status Unit × Serving
  | [] => (.ok (), s.withCleanBye cleanBye)
  | read :: reads =>
    match s.handleRead cleanBye read with
    | (.again cleanBye, s) => handleStream s cleanBye reads
    | (.leave cleanBye, s) => (.ok (), s.withCleanBye cleanBye)
    | (.stop result, s) => (result, s)

/-! ## Sessions -/

/-- The last lines of `serve_one`: the session is reported. -/
def report (s : Serving) : Serving :=
  { s with coordinator := { s.coordinator with
      sessions := s.coordinator.sessions ++ [s.outcome] } }

/-- A change of the record of the registered worker. -/
def updateRecord (s : Serving) (f : WorkerRecord → WorkerRecord) : Serving :=
  { s with coordinator := { s.coordinator with
      workers := updateWorker s.outcome.worker f s.coordinator.workers } }

/-- The text of a fenced outcome in the worker table. -/
def fencedText (s : Serving) : String := "fenced: " ++ s.outcome.fence.text

/-- The part of `serve_one` behind a successful registration. -/
def serveStream (s : Serving) (reads : List (Except Status Frame)) : Serving :=
  let streamed := s.handleStream false reads
  let s : Serving := match streamed.1 with
    | .ok () => streamed.2
    | .error e => { streamed.2 with outcome := { streamed.2.outcome with detail := e.message } }
  (s.updateRecord fun r => { r with
    lastSeen := s.coordinator.lastTick
    outcome := if s.outcome.fenced then s.fencedText
      else if s.outcome.cleanBye then "clean" else "closed"
    fences := if s.outcome.fenced then r.fences + 1 else r.fences }).report

/-- The part of `serve_one` behind the first frame. -/
def serveFrom (s : Serving) (first : Frame) (reads : List (Except Status Frame)) : Serving :=
  let s : Serving := { s with outcome := { s.outcome with frames := s.outcome.frames + 1 } }
  if first.header.type ≠ .hello then
    (s.fenceSession .frameMalformed "first frame was not a hello").report
  else
    match s.handleHello first with
    | (.fenced, s) => s.report
    | (.registered (.error _), s) =>
      (s.updateRecord fun r => { r with
        lastSeen := s.coordinator.lastTick
        outcome := s.fencedText }).report
    | (.registered (.ok ()), s) => s.serveStream reads

end Serving

namespace Coordinator

/-- `serve_one` on an accepted connection; a peer that sends nothing is still being waited for. -/
def serve (c : Coordinator) : List (Except Status Frame) → Serving
  | [] => { coordinator := c }
  | .error e :: _ =>
    Serving.report { coordinator := c, outcome := {
      fenced := true
      fence := .frameMalformed
      detail := "hello was not readable: " ++ e.message } }
  | .ok first :: reads =>
    Serving.serveFrom { coordinator := c, outcome := { detail := "session opened" } } first reads

/-- The coordinator after a session. -/
def serveOne (c : Coordinator) (reads : List (Except Status Frame)) : Coordinator :=
  (c.serve reads).coordinator

/-- The coordinator after a list of sessions. -/
def serveAll (c : Coordinator) (sessions : List (List (Except Status Frame))) : Coordinator :=
  sessions.foldl serveOne c

end Coordinator

end EFG
