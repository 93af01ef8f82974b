/-
# The worker

The `Worker` of `cluster.cpp`, the other end of a session.  It holds back samples and sends them in
batches, each of which waits for a reply that may be anything.  What it has sent and what it still
holds is what it took, once and in order (`Holds`).  The governor takes a part of that in the same
order, all of it in a session that ends with a Bye, and fences the worker for a completion only.
-/
import ElephantFlow.Streams

namespace EFG

open ByteCodec Fallible

namespace Cluster

/-- `Worker` behind its registration, with the frames it has written and the samples it took; the
socket does not fail. -/
structure Worker where
  boot : BootIdentity := {}
  limits : ClusterLimits := {}
  assignedWorker : WorkerId := {}
  registered : Bool := true
  sequence : UInt64 := 0
  buffer : List FlowSample := []
  sent : List Frame := []
  taken : List FlowSample := []

/-- The member functions of a registered worker. -/
inductive Call
  | heartbeat (now : Tick)
  | submitEvidence (sample : FlowSample)
  | completeFlow (flow : FlowId) (generation : Generation) (atTick : Tick)
  | flush
  | bye (reason : Bytes)

namespace Worker

/-- The frame that `send` builds. -/
def frame (w : Worker) (type : FrameType) (payload : Bytes) : Frame where
  header := { type := type, epoch := w.boot.epoch, boot := w.boot.boot
              worker := w.assignedWorker, sequence := w.sequence + 1 }
  payload := payload

/-- `Worker::send`. -/
def send (type : FrameType) (payload : Bytes) : Fallible Status Worker Unit := fun w =>
  let next := { w with sequence := w.sequence + 1 }
  match encodeFrame w.limits.maxPayload (w.frame type payload) with
  | .error e => (.error e, next)
  | .ok _ => (.ok (), { next with sent := w.sent ++ [w.frame type payload] })

/-- The checks of an acknowledgement. -/
def readAck (ack : Frame) : Except Status Unit :=
  if ack.header.type = .fence then
    makeStatus .authorityMismatch "coordinator fenced the evidence batch"
  else if ack.header.type ≠ .evidenceAck then
    makeStatus .conflict "coordinator did not acknowledge the batch"
  else
    match (Decoder.times (Decoder.u64 ()) 5 : Decoder Unit (List UInt64)) ack.payload with
    | .error _ => makeStatus .truncated "acknowledgement payload is truncated"
    | .ok _ => .ok ()

/-- `Worker::flush_internal`: the buffer is cleared before the reply is read. -/
def flushInternal (reply : Except Status Frame) : Fallible Status Worker Unit := fun w =>
  if w.buffer.isEmpty then (.ok (), w)
  else
    match encodeEvidenceBatch w.limits.maxBatch w.buffer with
    | .error e => (.error e, w)
    | .ok payload =>
      match send .evidenceBatch payload w with
      | (.error e, w) => (.error e, w)
      | (.ok (), w) => (reply >>= readAck, { w with buffer := [] })

/-- A call, with the reply that it finds if it reads one. -/
def exec (call : Call) (reply : Except Status Frame) : Fallible Status Worker Unit := do
  let registered ← gets (·.registered)
  ensure registered ⟨.authorityMismatch, "worker is not registered"⟩
  match call with
  | .heartbeat now => send .heartbeat (le64 now)
  | .submitEvidence sample => do
    let full ← gets fun w => decide (w.buffer.length ≥ w.limits.maxBatch)
    (if full then flushInternal reply else pure ())
    modify fun w => { w with buffer := w.buffer ++ [sample], taken := w.taken ++ [sample] }
  | .completeFlow flow generation atTick => do
    flushInternal reply
    send .flowCompletion (le64 flow.value ++ le64 generation.value ++ le64 atTick)
  | .flush => flushInternal reply
  | .bye reason => do
    flushInternal reply
    send .bye (({ ceiling := 256 } : ByteWriter).writeAll
      [le16 0, le32 (UInt32.ofNat reason.length), reason]).buffer
    modify fun w => { w with registered := false }

/-- The worker after its calls. -/
def run (w : Worker) (calls : List (Call × Except Status Frame)) : Worker :=
  calls.foldl (fun w c => (exec c.1 c.2 w).2) w

/-! ## Batches -/

/-- The samples that a coordinator finds in a frame. -/
def samplesOf (maxBatch : ℕ) (f : Frame) : List FlowSample :=
  if f.header.type = .evidenceBatch then
    (decodeEvidenceBatch maxBatch f.payload).toOption.getD []
  else []

theorem length_le_encode (samples : List FlowSample) :
    samples.length ≤ (samples.flatMap encode).flatten.length := by
  induction samples with
  | nil => exact Nat.zero_le _
  | cons s samples ih =>
    have hs : 1 ≤ (encode s).flatten.length := by simp [encode]; omega
    simp only [List.flatMap_cons, List.flatten_append, List.length_append, List.length_cons]
    omega

/-- A batch is decoded as it was encoded, by any coordinator that takes batches of that size. -/
theorem decodeEvidenceBatch_encode {m n : ℕ} {samples : List FlowSample} {payload : Bytes}
    (hfits : ∀ s ∈ samples, Fits s) (hle : m ≤ n)
    (h : encodeEvidenceBatch m samples = .ok payload) :
    decodeEvidenceBatch n payload = .ok samples := by
  unfold encodeEvidenceBatch at h
  split_ifs at h with hmany
  · cases h
  dsimp only at h
  split_ifs at h with hover
  · cases h
  cases h
  rw [Bool.not_eq_true] at hover
  have hwithin := (ByteWriter.writeAll_within (w := { ceiling := kMaxFramePayload })
    (Nat.zero_le _) ([le32 (UInt32.ofNat samples.length), le64 0] ++ samples.flatMap encode)).2
  rw [ByteWriter.writeAll_buffer hover] at hwithin ⊢
  have hcount : (UInt32.ofNat samples.length).toNat = samples.length := by
    have hlength := length_le_encode samples
    refine UInt32.toNat_ofNat_of_lt' ?_
    simp only [List.nil_append, List.flatten_append, List.length_append, kMaxFramePayload] at hwithin
    change samples.length < 2 ^ 32
    omega
  have hbody := bind_times_decode_apply hfits (pure : _ → Decoder Status (List FlowSample)) []
  rw [bind_pure, List.append_nil] at hbody
  simp only [decodeEvidenceBatch, List.nil_append, List.flatten_append, List.flatten_cons,
    List.flatten_nil, List.append_nil, List.append_assoc, bind_u32_apply, bind_u64_apply]
  show (if (0 : UInt64) ≠ 0 then _ else if (UInt32.ofNat samples.length).toNat > n then _ else _) = _
  rw [if_neg (not_not_intro rfl), hcount, if_neg (by omega), hbody]
  rfl

/-! ## Runs -/

/-- The frame is one that the coordinator of a session can read. -/
inductive Readable (n : ℕ) : FrameType → Bytes → Prop
  | heartbeat (now : Tick) : Readable n .heartbeat (le64 now)
  | batch {samples : List FlowSample} {payload : Bytes}
      (h : decodeEvidenceBatch n payload = .ok samples) : Readable n .evidenceBatch payload
  | completion (payload : Bytes) : Readable n .flowCompletion payload
  | bye (payload : Bytes) : Readable n .bye payload

/-- The frame names the worker and can be read. -/
structure Speaks (n : ℕ) (w : Worker) (f : Frame) : Prop where
  epoch : f.header.epoch = w.boot.epoch
  boot : f.header.boot = w.boot.boot
  worker : f.header.worker = w.assignedWorker
  readable : Readable n f.header.type f.payload

/-- What the worker `w₀` has sent and what it still holds is what it took. -/
structure Holds (n : ℕ) (w₀ w : Worker) : Prop where
  held : w.sent.flatMap (samplesOf n) ++ w.buffer = w.taken
  fits : ∀ s ∈ w.buffer, Fits s
  limit : w.limits.maxBatch ≤ n
  same : w.boot = w₀.boot ∧ w.assignedWorker = w₀.assignedWorker
  speaks : ∀ f ∈ w.sent, Speaks n w₀ f ∧ f.header.type ≠ .bye

/-- Behind its Bye the worker holds nothing: it has sent what it took. -/
structure Ended (n : ℕ) (w₀ w : Worker) : Prop where
  registered : w.registered = false
  buffer : w.buffer = []
  speaks : ∀ f ∈ w.sent, Speaks n w₀ f
  last : ∃ front f, w.sent = front ++ [f] ∧ f.header.type = .bye ∧
    (∀ g ∈ front, g.header.type ≠ .bye) ∧ front.flatMap (samplesOf n) = w.taken

variable {n : ℕ} {w w₀ : Worker} {type : FrameType} {payload : Bytes}

theorem Readable.ne_shutdown (h : Readable n type payload) : type ≠ .shutdown := by
  cases h <;> decide

theorem Holds.speaks_frame (h : Holds n w₀ w) (hr : Readable n type payload) :
    Speaks n w₀ (w.frame type payload) where
  epoch := by rw [← h.same.1]; rfl
  boot := by rw [← h.same.1]; rfl
  worker := by rw [← h.same.2]; rfl
  readable := hr

/-- A frame that goes out takes the samples in it along. -/
theorem Holds.sent (h : Holds n w₀ w) (hr : Readable n type payload) (hbye : type ≠ .bye) {rest : List FlowSample}
    (hrest : samplesOf n (w.frame type payload) ++ rest = w.buffer) :
    Holds n w₀ { w with
      sequence := w.sequence + 1, sent := w.sent ++ [w.frame type payload], buffer := rest } where
  held := by
    rw [← h.held, ← hrest, List.flatMap_append, List.flatMap_singleton, List.append_assoc]
  fits s hs := h.fits s (hrest ▸ List.mem_append_right _ hs)
  limit := h.limit
  same := h.same
  speaks := List.forall_mem_append.mpr
    ⟨h.speaks, List.forall_mem_singleton.mpr ⟨h.speaks_frame hr, hbye⟩⟩

theorem keeps_send (hr : Readable n type payload)
    (htype : type ≠ .evidenceBatch ∧ type ≠ .bye) : Keeps (Holds n w₀) (send type payload) := by
  intro w h
  unfold send
  rcases encodeFrame w.limits.maxPayload (w.frame type payload) with e | bytes
  · exact ⟨h.held, h.fits, h.limit, h.same, h.speaks⟩
  · have hframe : samplesOf n (w.frame type payload) = [] := if_neg htype.1
    exact h.sent hr htype.2 (by rw [hframe, List.nil_append])

theorem holds_flushInternal (h : Holds n w₀ w) (reply : Except Status Frame) :
    Holds n w₀ (flushInternal reply w).2 ∧
      ((flushInternal reply w).1 = .ok () → (flushInternal reply w).2.buffer = []) := by
  unfold flushInternal
  split_ifs with hempty
  · exact ⟨h, fun _ => List.isEmpty_iff.mp hempty⟩
  rcases hpayload : encodeEvidenceBatch w.limits.maxBatch w.buffer with e | payload
  · exact ⟨h, nofun⟩
  have hbatch := decodeEvidenceBatch_encode h.fits h.limit hpayload
  have hframe : samplesOf n (w.frame .evidenceBatch payload) = w.buffer := by
    simp [samplesOf, frame, hbatch, Except.toOption]
  unfold send
  dsimp only
  rcases encodeFrame w.limits.maxPayload (w.frame .evidenceBatch payload) with e | bytes
  · exact ⟨⟨h.held, h.fits, h.limit, h.same, h.speaks⟩, nofun⟩
  · exact ⟨h.sent (.batch hbatch) nofun (by rw [hframe, List.append_nil]), fun _ => rfl⟩

theorem keeps_exec {call : Call} (hcall : ∀ reason, call ≠ .bye reason)
    (hfits : ∀ sample, call = .submitEvidence sample → Fits sample) (reply : Except Status Frame) :
    Keeps (Holds n w₀) (exec call reply) := by
  refine (Keeps.gets _).bind fun registered => (Keeps.ensure _ _).bind fun _ => ?_
  have hflush : Keeps (Holds n w₀) (flushInternal reply) := fun w h => (holds_flushInternal h reply).1
  cases call with
  | heartbeat now => exact keeps_send (.heartbeat now) (by decide)
  | submitEvidence sample =>
    refine (Keeps.gets _).bind fun full => Keeps.bind ?_ fun _ => Keeps.modify fun w h => ?_
    · split_ifs
      · exact hflush
      · exact Keeps.pure ()
    · refine ⟨?_, List.forall_mem_append.mpr ⟨h.fits, by simpa using hfits sample rfl⟩, h.limit,
        h.same, h.speaks⟩
      rw [← h.held, List.append_assoc]
  | completeFlow flow generation atTick =>
    exact hflush.bind fun _ => keeps_send (.completion _) (by decide)
  | flush => exact hflush
  | bye reason => exact absurd rfl (hcall reason)

/-- A Bye goes out behind an empty buffer. -/
theorem exec_bye (h : Holds n w₀ w) (hregistered : w.registered = true) (reason : Bytes)
    (reply : Except Status Frame) :
    Holds n w₀ (exec (.bye reason) reply w).2 ∨ Ended n w₀ (exec (.bye reason) reply w).2 := by
  obtain ⟨hflush, hbuffer⟩ := holds_flushInternal h reply
  rcases hw : flushInternal reply w with ⟨e | ⟨⟩, w₁⟩
  · rw [hw] at hflush
    left
    simpa [exec, bind_apply, ensure, hregistered, hw] using hflush
  rw [hw] at hflush hbuffer
  simp only [exec, bind_apply, gets_apply, ensure, hregistered, if_true, Fallible.pure_apply, hw, send]
  generalize (({ ceiling := 256 } : ByteWriter).writeAll _).buffer = payload
  rcases encodeFrame w₁.limits.maxPayload (w₁.frame .bye payload) with e | bytes
  · exact .inl ⟨hflush.held, hflush.fits, hflush.limit, hflush.same, hflush.speaks⟩
  · have hheld := hflush.held
    rw [hbuffer rfl, List.append_nil] at hheld
    refine .inr ⟨rfl, hbuffer rfl, List.forall_mem_append.mpr ⟨fun f hf => (hflush.speaks f hf).1, ?_⟩,
      w₁.sent, _, rfl, rfl, fun f hf => (hflush.speaks f hf).2, hheld⟩
    exact List.forall_mem_singleton.mpr (hflush.speaks_frame (.bye payload))

theorem exec_of_not_registered (h : w.registered = false) (call : Call)
    (reply : Except Status Frame) : (exec call reply w).2 = w := by
  simp [exec, bind_apply, ensure, h]

/-- Before a Bye and behind it: what every call keeps. -/
theorem holds_or_ended_run {calls : List (Call × Except Status Frame)}
    (hfits : ∀ c ∈ calls, ∀ sample, c.1 = .submitEvidence sample → Fits sample)
    (h : Holds n w₀ w ∨ Ended n w₀ w) : Holds n w₀ (w.run calls) ∨ Ended n w₀ (w.run calls) := by
  induction calls generalizing w with
  | nil => exact h
  | cons c calls ih =>
    rw [List.forall_mem_cons] at hfits
    suffices hstep : Holds n w₀ (exec c.1 c.2 w).2 ∨ Ended n w₀ (exec c.1 c.2 w).2 from
      ih hfits.2 hstep
    rcases hregistered : w.registered with _ | _
    · rwa [exec_of_not_registered hregistered]
    rcases h with h | h
    · by_cases hbye : ∃ reason, c.1 = .bye reason
      · obtain ⟨reason, hbye⟩ := hbye
        rw [hbye]
        exact exec_bye h hregistered reason c.2
      · exact .inl (keeps_exec (not_exists.mp hbye) hfits.1 c.2 w h)
    · rw [h.registered] at hregistered
      cases hregistered

theorem held (h : Holds n w₀ w ∨ Ended n w₀ w) :
    w.sent.flatMap (samplesOf n) ++ w.buffer = w.taken := by
  rcases h with h | ⟨-, hempty, -, front, f, heq, htype, -, h⟩
  · exact h.held
  · have hbye : samplesOf n f = [] := if_neg (by rw [htype]; decide)
    simp [hempty, heq, hbye, h]

theorem speaks (h : Holds n w₀ w ∨ Ended n w₀ w) {f : Frame} (hf : f ∈ w.sent) : Speaks n w₀ f := by
  rcases h with h | h
  · exact (h.speaks f hf).1
  · exact h.speaks f hf

/-- In front of a Bye stands what the worker took. -/
theorem samples_before_bye (h : Holds n w₀ w ∨ Ended n w₀ w) {front later : List Frame} {f : Frame}
    (hsent : w.sent = front ++ f :: later) (hf : f.header.type = .bye) :
    front.flatMap (samplesOf n) = w.taken := by
  rcases h with h | ⟨-, -, -, front', last, hlast, -, htalks, hsamples⟩
  · exact absurd hf (h.speaks f (by simp [hsent])).2
  rw [hsent] at hlast
  rcases List.eq_nil_or_concat later with rfl | ⟨later, x, rfl⟩
  · rw [(List.append_inj' hlast rfl).1, hsamples]
  · have hfront : front ++ f :: later = front' := by
      refine (List.append_inj' (?_ : _ ++ [x] = _ ++ [last]) rfl).1
      rw [← hlast]
      simp
    exact absurd hf (htalks f (by simp [← hfront]))

/-- The calls of a worker that has just registered, with samples that the wire can carry, against a
coordinator that takes batches of up to `n` samples. -/
structure Fresh (n : ℕ) (w : Worker) (calls : List (Call × Except Status Frame)) : Prop where
  sent : w.sent = []
  buffer : w.buffer = []
  taken : w.taken = []
  limit : w.limits.maxBatch ≤ n
  fits : ∀ c ∈ calls, ∀ sample, c.1 = .submitEvidence sample → Fits sample

variable {calls : List (Call × Except Status Frame)}

theorem Fresh.run (h : Fresh n w calls) : Holds n w (w.run calls) ∨ Ended n w (w.run calls) := by
  refine holds_or_ended_run h.fits (.inl ⟨?_, ?_, h.limit, ⟨rfl, rfl⟩, ?_⟩)
  · rw [h.sent, h.buffer, h.taken]
    rfl
  · simp [h.buffer]
  · simp [h.sent]

/-- Whatever the replies are, each sample that a call took was sent once, in the order of the calls,
or is still held. -/
theorem samples_sent_once_in_order (h : Fresh n w calls) :
    (w.run calls).sent.flatMap (samplesOf n) ++ (w.run calls).buffer = (w.run calls).taken :=
  held h.run

/-- A sample is given and flushed, nobody answers, and the worker leaves. -/
def leaving : List (Call × Except Status Frame) :=
  [(.submitEvidence { flow := ⟨1⟩ }, .error ⟨.closed, ""⟩), (.flush, .error ⟨.closed, ""⟩),
    (.bye [], .error ⟨.closed, ""⟩)]

theorem fresh_leaving : Fresh kMaxEvidenceBatch {} leaving := by
  refine ⟨rfl, rfl, rfl, le_refl _, ?_⟩
  simp only [leaving, List.forall_mem_cons]
  refine ⟨?_, nofun, nofun, by simp⟩
  rintro _ ⟨⟩ _ ⟨⟩

theorem samples_sent_leaving : (run {} leaving).sent.flatMap (samplesOf kMaxEvidenceBatch) ++
    (run {} leaving).buffer = (run {} leaving).taken :=
  samples_sent_once_in_order fresh_leaving

/-! ## Delivery -/

/-- The sample among the inputs of a session. -/
def evidenceOf : SessionInput → Option FlowSample
  | .evidence s => some s
  | .completion _ _ _ => none

theorem evidenceOf_carries {f : Frame} {inputs : List SessionInput} (h : Carries n f inputs) :
    inputs.filterMap evidenceOf = samplesOf n f := by
  cases h with
  | batch samples htype hbatch =>
    rw [samplesOf, if_pos htype, hbatch, List.filterMap_map]
    exact List.filterMap_some
  | completion flow generation requested atTick rest htype =>
    rw [samplesOf, if_neg (by rw [htype]; decide)]
    rfl

end Worker

end Cluster

namespace Serving

open Cluster Cluster.Worker

variable {s s' : Serving} {b b' : Bool} {f : Frame} {reads : List (Except Status Frame)}
  {w : Cluster.Worker} {calls : List (Call × Except Status Frame)}

/-- A batch behind which the loop goes on was handed over as a whole. -/
theorem serves_of_again (htype : f.header.type = .evidenceBatch)
    (h : s.handleRead b (.ok f) = (.again b', s')) :
    Serves s s' ((samplesOf s.coordinator.limits.maxBatch f).map .evidence) := by
  obtain ⟨-, f', hf, hmatches, hbye, -⟩ := of_handleRead_again h
  cases hf
  generalize hs₁ : ({ s with outcome := { s.outcome with frames := s.outcome.frames + 1 } } :
    Serving) = s₁
  have hcount : Serves s s₁ [] := by
    rw [← hs₁]
    exact ⟨⟨⟨rfl, rfl, rfl, rfl, rfl⟩, rfl, fun _ => .inl⟩, rfl, rfl⟩
  have hevidence : s₁.handleEvidence b f = (.again b', s') := by
    rw [← h, ← hs₁, handleRead, handleFrame]
    simp [hmatches.epoch, hmatches.worker, hmatches.boot, htype, dispatch]
  rw [samplesOf, if_pos htype, ← hcount.same.limits]
  unfold handleEvidence applyEvidenceBatch at hevidence
  rcases hbatch : decodeEvidenceBatch s₁.coordinator.limits.maxBatch f.payload with e | samples
  · rw [hbatch] at hevidence
    cases hevidence
  rw [hbatch] at hevidence
  have hsamples := (works_applySamples s₁.coordinator.lastTick samples s₁).1
  dsimp only at hevidence
  generalize samples.foldl (applySample s₁.coordinator.lastTick) s₁ = s₂ at hsamples hevidence
  have hboth := hcount.trans (hsamples.trans (works_write s₂ .evidenceAck s₂.ackPayload)).toServes
  rcases hw : s₂.write .evidenceAck s₂.ackPayload with ⟨e | ⟨⟩, s₃⟩
  · rw [hw] at hevidence
    cases hevidence
  · rw [hw] at hevidence hboth
    cases hevidence
    simpa [Except.toOption] using hboth

theorem serves_samplesOf (h : s.handleRead b (.ok f) = (.again b', s')) :
    ∃ inputs, Serves s s' inputs ∧
      inputs.filterMap evidenceOf = samplesOf s.coordinator.limits.maxBatch f := by
  by_cases htype : f.header.type = .evidenceBatch
  · refine ⟨_, serves_of_again htype h, ?_⟩
    rw [List.filterMap_map]
    exact List.filterMap_some
  obtain ⟨inputs, hworks, hcarries, -⟩ := handleRead_effect s b (.ok f)
  rw [h] at hworks
  refine ⟨inputs, hworks.toServes, ?_⟩
  rcases hcarries with rfl | ⟨f', hf, -, hcarries⟩
  · rw [samplesOf, if_neg htype]
    rfl
  · cases hf
    exact evidenceOf_carries hcarries

/-- The loop is left with the flag set by a Bye only. -/
theorem bye_of_leave {read : Except Status Frame} (h : s.handleRead false read = (.leave true, s')) :
    ∃ f, read = .ok f ∧ f.header.type = .bye := by
  rcases read with e | f
  · dsimp only [handleRead] at h
    split_ifs at h <;> cases h
  · refine ⟨f, rfl, ?_⟩
    unfold handleRead handleFrame at h
    dsimp only at h
    split_ifs at h with hepoch hworker hboot hbye hhello
    · cases h
    · cases h
    · cases h
    · exact hbye
    · cases h
    · obtain ⟨-, -, -, ⟨b, hb, -⟩ | ⟨result, hb⟩⟩ := dispatch_effect _ false f <;>
      · rw [h] at hb
        cases hb

/-- The governor takes the samples of the frames from the front, and all of them if the session is
reported as one that ended with a Bye. -/
theorem handleStream_takes (reads : List (Except Status Frame)) (s : Serving) (b : Bool) :
    ∃ inputs, Serves s (s.handleStream b reads).2 inputs ∧
      inputs.filterMap evidenceOf <+:
        (framesOf reads).flatMap (samplesOf s.coordinator.limits.maxBatch) ∧
      (b = false → s.outcome.cleanBye = false → (∀ f ∈ framesOf reads, f.header.type ≠ .shutdown) →
        (s.handleStream b reads).2.outcome.cleanBye = true →
          ∃ front f later, framesOf reads = front ++ f :: later ∧ f.header.type = .bye ∧
            inputs.filterMap evidenceOf =
              front.flatMap (samplesOf s.coordinator.limits.maxBatch)) := by
  induction reads generalizing s b with
  | nil =>
    refine ⟨[], serves_withCleanBye s b, ⟨_, rfl⟩, fun hb _ _ hset => ?_⟩
    exact absurd (hset.symm.trans hb) (by decide)
  | cons read reads ih =>
    obtain ⟨inputs, hworks, hcarries, -⟩ := handleRead_effect s b read
    have hone : inputs.filterMap evidenceOf <+:
        (framesOf (read :: reads)).flatMap (samplesOf s.coordinator.limits.maxBatch) := by
      rcases hcarries with rfl | ⟨f, rfl, -, hcarries⟩
      · exact ⟨_, rfl⟩
      · rw [evidenceOf_carries hcarries]
        exact List.prefix_append _ _
    rcases hread : s.handleRead b read with ⟨next, s₁⟩
    rw [hread] at hworks
    rw [handleStream, hread]
    cases next with
    | leave b' =>
      refine ⟨inputs, ?_, hone, fun hb _ _ hset => ?_⟩
      · simpa using hworks.toServes.trans (serves_withCleanBye s₁ b')
      · obtain rfl : b' = true := hset
        subst hb
        obtain ⟨f, rfl, htype⟩ := bye_of_leave hread
        refine ⟨[], f, framesOf reads, rfl, htype, ?_⟩
        rcases hcarries with rfl | ⟨f', hf, -, hcarries⟩
        · rfl
        · cases hf
          rw [evidenceOf_carries hcarries, samplesOf, if_neg (by rw [htype]; decide)]
          rfl
    | stop result =>
      refine ⟨inputs, hworks.toServes, hone, fun _ hclean _ hset => ?_⟩
      exact absurd (hset.symm.trans (hworks.clean.trans hclean)) (by decide)
    | again b' =>
      obtain ⟨-, f, rfl, -, -, hflag⟩ := of_handleRead_again hread
      obtain ⟨first, hfirst, heq⟩ := serves_samplesOf hread
      obtain ⟨rest, hrest, hfront, hbye⟩ := ih s₁ b'
      refine ⟨first ++ rest, hfirst.trans hrest, ?_⟩
      rw [hfirst.same.limits] at hfront hbye
      rw [List.filterMap_append, heq]
      refine ⟨(List.prefix_append_right_inj _).mpr hfront, fun hb hclean hopen hset => ?_⟩
      -- no Shutdown has set the flag
      obtain ⟨htype, hopen⟩ := List.forall_mem_cons.mp hopen
      obtain ⟨front, g, later, hlater, hg, hsamples⟩ := hbye ((hflag.resolve_right htype).trans hb)
        (hworks.clean.trans hclean) hopen hset
      refine ⟨f :: front, g, later, ?_, hg, ?_⟩
      · rw [List.cons_append, ← hlater]
        rfl
      · rw [hsamples, List.flatMap_cons]

/-- In any session that reads what the worker has sent, or a part of it from the front, the governor
takes a part of the samples that the worker took, from the front and each once, and all of them if
the session is reported as one that ended with a Bye. -/
theorem evidence_taken_from_front (h : Fresh s.coordinator.limits.maxBatch w calls)
    (hreads : framesOf reads <+: (w.run calls).sent) (hclean : s.outcome.cleanBye = false) :
    ∃ inputs, Serves s (s.handleStream false reads).2 inputs ∧
      inputs.filterMap evidenceOf <+: (w.run calls).taken ∧
      ((s.handleStream false reads).2.outcome.cleanBye = true →
        inputs.filterMap evidenceOf = (w.run calls).taken) := by
  obtain ⟨inputs, hserves, hfront, hbye⟩ := handleStream_takes reads s false
  obtain ⟨behind, hbehind⟩ := hreads
  refine ⟨inputs, hserves, hfront.trans ?_, fun hset => ?_⟩
  · rw [← held h.run, ← hbehind, List.flatMap_append, List.append_assoc]
    exact List.prefix_append _ _
  · obtain ⟨front, f, later, heq, hf, hsamples⟩ := hbye rfl hclean
      (fun f hf => (speaks h.run (hbehind ▸ List.mem_append_left _ hf)).readable.ne_shutdown) hset
    have hsplit : (w.run calls).sent = front ++ f :: (later ++ behind) := by
      rw [← hbehind, heq, List.append_assoc, List.cons_append]
    rw [hsamples, samples_before_bye h.run hsplit hf]

theorem framesOf_ok (frames : List Frame) : framesOf (frames.map .ok) <+: frames := by
  rw [framesOf, List.filterMap_map]
  exact ⟨[], (List.append_nil _).trans List.filterMap_some⟩

/-- A coordinator that keeps its state in memory. -/
def receiving : Serving := { coordinator := { backing := .inline (.make {}) } }

theorem evidence_taken_leaving : ∃ inputs,
    Serves receiving (receiving.handleStream false ((run {} leaving).sent.map .ok)).2 inputs ∧
      inputs.filterMap evidenceOf = (run {} leaving).taken := by
  obtain ⟨inputs, hserves, -, hall⟩ := evidence_taken_from_front (s := receiving) (w := {})
    fresh_leaving (framesOf_ok _) rfl
  exact ⟨inputs, hserves, hall (by decide +kernel)⟩

/-! ## Fences -/

end Serving

end EFG
