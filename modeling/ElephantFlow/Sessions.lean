/-
# What a session does to the governor

A session reaches the governor only through the inputs that its evidence batches
and completions carry.  `handleRead_effect` says so for one frame, and
`handleStream_effect` for a whole stream, together with the identity of the frames:
it is the one that the Hello of the session registered.  What follows a fence or a
Bye is not read any more (`handleStream_append`).
-/
import ElephantFlow.Cluster
import ElephantFlow.Runs

namespace EFG

open ByteCodec

/-! ## Creation -/

/-- A `do` block succeeds through both of its parts. -/
theorem except_bind_eq_ok {ε α β : Type} {x : Except ε α} {f : α → Except ε β} {b : β} :
    (x >>= f) = .ok b ↔ ∃ a, x = .ok a ∧ f a = .ok b := by
  rcases x with e | a
  · constructor
    · intro h
      cases h
    · rintro ⟨a, h, -⟩
      cases h
  · constructor
    · intro h
      exact ⟨a, rfl, h⟩
    · rintro ⟨a', h, hf⟩
      cases h
      exact hf

theorem Coordinator.create_eq_ok {config : CoordinatorConfig} {disk : Option Disk} {c : Coordinator}
    (hc : create config disk = .ok c) : ∃ b₀ b₁ b₂ b₃, openBacking config disk = .ok b₀ ∧
      configure Backing.submitPolicy
        (if config.policy.enterRule.empty then [] else [config.policy]) b₀ = .ok b₁ ∧
      configure Backing.submitCapacity config.capacities b₁ = .ok b₂ ∧
      configure Backing.submitPath config.paths b₂ = .ok b₃ ∧
      c = { limits := config.limits, boot := config.boot, backing := b₃
            lastTick := config.startTick } := by
  unfold create at hc
  generalize (if config.policy.enterRule.empty then [] else [config.policy]) = policies at hc ⊢
  split_ifs at hc
  · cases hc
  · cases hc
  swap
  · cases hc
  obtain ⟨b₀, h₀, hc⟩ := except_bind_eq_ok.mp hc
  obtain ⟨b₁, h₁, hc⟩ := except_bind_eq_ok.mp hc
  obtain ⟨b₂, h₂, hc⟩ := except_bind_eq_ok.mp hc
  obtain ⟨b₃, h₃, hc⟩ := except_bind_eq_ok.mp hc
  cases hc
  exact ⟨b₀, b₁, b₂, b₃, h₀, h₁, h₂, h₃, rfl⟩

theorem configure_keeps {α : Type} {apply : α → Backing → Except Status Unit × Backing}
    {P : Backing → Prop} (hstep : ∀ a b, P b → P (apply a b).2) {as : List α} {b b' : Backing}
    (hb : P b) (h : configure apply as b = .ok b') : P b' := by
  induction as generalizing b with
  | nil =>
    cases h
    exact hb
  | cons a as ih =>
    have hnext := hstep a b hb
    rw [configure] at h
    rcases ha : apply a b with ⟨e | ⟨⟩, b₁⟩
    · rw [ha] at h
      cases h
    · rw [ha] at h hnext
      exact ih hnext h

/-! ## Inputs -/

/-- What a session may bring to the governor. -/
inductive SessionInput
  | evidence (s : FlowSample)
  | completion (flow : FlowId) (generation : Generation) (atTick : Tick)

/-- The governor takes an input. -/
def Backing.feed (b : Backing) : SessionInput → Backing
  | .evidence s => (b.submitEvidence s).2
  | .completion flow generation atTick => (b.completeFlow flow generation atTick).2

/-- The inputs that a frame carries: all samples of a batch that decodes as a whole, or one
completion. -/
inductive Carries (maxBatch : ℕ) (f : Frame) : List SessionInput → Prop
  | batch (samples : List FlowSample) (htype : f.header.type = .evidenceBatch)
      (hbatch : decodeEvidenceBatch maxBatch f.payload = .ok samples) :
      Carries maxBatch f (samples.map .evidence)
  | completion (flow : FlowId) (generation : Generation) (requested atTick : Tick) (rest : Bytes)
      (htype : f.header.type = .flowCompletion)
      (hpayload : Serving.decodeCompletion f.payload = .ok ((flow, generation, requested), rest))
      (hflow : flow.valid = true) (hgeneration : generation.valid = true)
      (htick : requested ≤ atTick) :
      Carries maxBatch f [.completion flow generation atTick]

namespace Serving

variable {s s' s₁ s₂ s₃ : Serving} {f : Frame} {cleanBye : Bool}
  {inputs inputs' : List SessionInput} {read : Except Status Frame}
  {reads : List (Except Status Frame)} {applied : List (Frame × List SessionInput)} {h : Hello}
  {worker next : WorkerId}

/-! ## Replies -/

/-- A reply takes the next sequence number and changes nothing else of the coordinator. -/
theorem write_snd (s : Serving) (type : FrameType) (payload : Bytes) : ∃ sent,
    (s.write type payload).2 = { s with
      coordinator := { s.coordinator with sessionSequence := s.coordinator.sessionSequence + 1 }
      sent := sent } := by
  unfold write
  simp only
  rcases encodeFrame s.coordinator.limits.maxPayload _ with e | bytes
  · exact ⟨_, rfl⟩
  · exact ⟨_, rfl⟩

/-- A fence marks the outcome. -/
theorem fenceSession_eq (s : Serving) (reason : FenceReason) (detail : String) : ∃ sent,
    s.fenceSession reason detail = { s with
      coordinator := { s.coordinator with sessionSequence := s.coordinator.sessionSequence + 1 }
      outcome := { s.outcome with fenced := true, fence := reason, detail := detail }
      sent := sent } :=
  write_snd _ _ _

/-- The two moments belong to one session: same registration, same coordinator identity. -/
structure SameSession (s s' : Serving) : Prop where
  boot : s'.coordinator.boot = s.coordinator.boot
  limits : s'.coordinator.limits = s.coordinator.limits
  worker : s'.outcome.worker = s.outcome.worker
  workerBoot : s'.outcome.boot = s.outcome.boot
  nonces : s'.coordinator.seenNonces = s.coordinator.seenNonces

theorem SameSession.refl (s : Serving) : SameSession s s := ⟨rfl, rfl, rfl, rfl, rfl⟩

theorem SameSession.trans (h : SameSession s₁ s₂) (h' : SameSession s₂ s₃) :
    SameSession s₁ s₃ :=
  ⟨h'.boot.trans h.boot, h'.limits.trans h.limits, h'.worker.trans h.worker,
    h'.workerBoot.trans h.workerBoot, h'.nonces.trans h.nonces⟩

/-- The frame carries the identity that the session registered. -/
structure Matches (s : Serving) (f : Frame) : Prop where
  epoch : f.header.epoch = s.coordinator.boot.epoch
  worker : f.header.worker = s.outcome.worker
  boot : f.header.boot = s.outcome.boot

theorem Matches.congr (h : Matches s' f) (hsame : SameSession s s') : Matches s f where
  epoch := by
    rw [← hsame.boot]
    exact h.epoch
  worker := h.worker.trans hsame.worker
  boot := h.boot.trans hsame.workerBoot

/-! ## One frame -/

/-- From one moment of a session to a later one the governor took these inputs. -/
structure Takes (s s' : Serving) (inputs : List SessionInput) : Prop where
  same : SameSession s s'
  backing : s'.coordinator.backing = inputs.foldl Backing.feed s.coordinator.backing
  accepted : ∀ x ∈ s'.acceptedSamples, x ∈ s.acceptedSamples ∨ .evidence x ∈ inputs

theorem Takes.trans (h : Takes s₁ s₂ inputs) (h' : Takes s₂ s₃ inputs') :
    Takes s₁ s₃ (inputs ++ inputs') := by
  refine ⟨h.same.trans h'.same, ?_, fun x hx => ?_⟩
  · rw [h'.backing, h.backing, List.foldl_append]
  · rw [List.mem_append]
    rcases h'.accepted x hx with hx | hx
    · exact (h.accepted x hx).imp_right .inl
    · exact .inr (.inr hx)

/-- Beside the inputs, the identifiers of the worker table are as before. -/
structure Serves (s s' : Serving) (inputs : List SessionInput) : Prop extends Takes s s' inputs where
  workerIds : s'.coordinator.workers.map (·.worker) = s.coordinator.workers.map (·.worker)
  nextWorkerId : s'.coordinator.nextWorkerId = s.coordinator.nextWorkerId

theorem Serves.trans (h : Serves s₁ s₂ inputs) (h' : Serves s₂ s₃ inputs') :
    Serves s₁ s₃ (inputs ++ inputs') :=
  ⟨h.toTakes.trans h'.toTakes, h'.workerIds.trans h.workerIds, h'.nextWorkerId.trans h.nextWorkerId⟩

/-- Inside the loop of `handle_stream` the clean flag of the outcome is not written either. -/
structure Works (s s' : Serving) (inputs : List SessionInput) : Prop extends Serves s s' inputs where
  clean : s'.outcome.cleanBye = s.outcome.cleanBye

theorem Works.trans (h : Works s₁ s₂ inputs) (h' : Works s₂ s₃ inputs') :
    Works s₁ s₃ (inputs ++ inputs') :=
  ⟨h.toServes.trans h'.toServes, h'.clean.trans h.clean⟩

theorem works_refl (s : Serving) : Works s s [] :=
  ⟨⟨⟨.refl s, rfl, fun _ => .inl⟩, rfl, rfl⟩, rfl⟩

theorem works_write (s : Serving) (type : FrameType) (payload : Bytes) :
    Works s (s.write type payload).2 [] := by
  obtain ⟨sent, heq⟩ := write_snd s type payload
  rw [heq]
  exact ⟨⟨⟨⟨rfl, rfl, rfl, rfl, rfl⟩, rfl, fun _ => .inl⟩, rfl, rfl⟩, rfl⟩

theorem works_fenceSession (s : Serving) (reason : FenceReason) (detail : String) :
    Works s (s.fenceSession reason detail) [] := by
  obtain ⟨sent, heq⟩ := fenceSession_eq s reason detail
  rw [heq]
  exact ⟨⟨⟨⟨rfl, rfl, rfl, rfl, rfl⟩, rfl, fun _ => .inl⟩, rfl, rfl⟩, rfl⟩

theorem works_applySample (now : Tick) (s : Serving) (sample : FlowSample) :
    Works s (applySample now s sample) [.evidence sample] ∧
      (applySample now s sample).outcome.fenced = s.outcome.fenced := by
  unfold applySample
  simp only
  rcases (s.coordinator.backing.submitEvidence sample).1 with e | d
  · exact ⟨⟨⟨⟨⟨rfl, rfl, rfl, rfl, rfl⟩, rfl, fun _ => .inl⟩, rfl, rfl⟩, rfl⟩, rfl⟩
  · refine ⟨⟨⟨⟨⟨rfl, rfl, rfl, rfl, rfl⟩, rfl, fun x hx => ?_⟩, rfl, rfl⟩, rfl⟩, rfl⟩
    rw [List.mem_append, List.mem_singleton] at hx
    rcases hx with hx | rfl
    · exact .inl hx
    · exact .inr (List.mem_singleton.mpr rfl)

/-- The loop of `apply_evidence_batch` hands over every sample, in order. -/
theorem works_applySamples (now : Tick) (samples : List FlowSample) (s : Serving) :
    Works s (samples.foldl (applySample now) s) (samples.map .evidence) ∧
      (samples.foldl (applySample now) s).outcome.fenced = s.outcome.fenced := by
  induction samples generalizing s with
  | nil => exact ⟨works_refl s, rfl⟩
  | cons sample samples ih =>
    obtain ⟨hone, hfenced⟩ := works_applySample now s sample
    obtain ⟨hrest, hfenced'⟩ := ih (applySample now s sample)
    exact ⟨hone.trans hrest, hfenced'.trans hfenced⟩

/-- What a branch of the switch does: it hands over the inputs of its frame or nothing, and the loop
goes on with the flag it had, or behind a Shutdown, or returns. -/
structure Branches (s : Serving) (cleanBye : Bool) (f : Frame) (r : Next × Serving)
    (inputs : List SessionInput) : Prop where
  works : Works s r.2 inputs
  carries : inputs = [] ∨ Carries s.coordinator.limits.maxBatch f inputs
  next : (∃ b, r.1 = .again b ∧ r.2.outcome.fenced = s.outcome.fenced ∧
    (b = cleanBye ∨ f.header.type = .shutdown)) ∨ ∃ result, r.1 = .stop result

theorem Branches.of_stop (h : Works s s' []) (cleanBye : Bool) (f : Frame)
    (result : Except Status Unit) : Branches s cleanBye f (.stop result, s') [] :=
  ⟨h, .inl rfl, .inr ⟨result, rfl⟩⟩

theorem handleEvidence_effect (s : Serving) (cleanBye : Bool)
    (htype : f.header.type = .evidenceBatch) :
    ∃ inputs, Branches s cleanBye f (s.handleEvidence cleanBye f) inputs := by
  unfold handleEvidence applyEvidenceBatch
  rcases hbatch : decodeEvidenceBatch s.coordinator.limits.maxBatch f.payload with e | samples
  · -- nothing of a batch that does not decode is applied
    refine ⟨[], .of_stop ((works_write s .fence (fencePayload (batchFence e) e.message)).trans ?_)
      cleanBye f _⟩
    exact ⟨⟨⟨⟨rfl, rfl, rfl, rfl, rfl⟩, rfl, fun _ => .inl⟩, rfl, rfl⟩, rfl⟩
  simp only
  obtain ⟨hsamples, hfenced⟩ := works_applySamples s.coordinator.lastTick samples s
  generalize samples.foldl (applySample s.coordinator.lastTick) s = s₁ at hsamples hfenced
  have hboth := hsamples.trans (works_write s₁ .evidenceAck s₁.ackPayload)
  obtain ⟨sent, hsent⟩ := write_snd s₁ .evidenceAck s₁.ackPayload
  rw [List.append_nil] at hboth
  refine ⟨samples.map .evidence, ?_, .inr (.batch samples htype hbatch), ?_⟩
  all_goals rcases hw : s₁.write .evidenceAck s₁.ackPayload with ⟨e | ⟨⟩, s₂⟩
  all_goals rw [hw] at hboth hsent
  · exact hboth
  · exact hboth
  · exact .inr ⟨_, rfl⟩
  · refine .inl ⟨cleanBye, rfl, ?_, .inl rfl⟩
    have hs₂ : s₂ = _ := hsent
    rw [hs₂]
    exact hfenced

theorem handleHeartbeat_effect (s : Serving) (cleanBye : Bool) (f : Frame) :
    Branches s cleanBye f (s.handleHeartbeat cleanBye f) [] := by
  unfold handleHeartbeat
  rcases (Decoder.u64 () : Decoder Unit UInt64) f.payload with e | ⟨tick, rest⟩
  · exact .of_stop (works_fenceSession s _ _) cleanBye f _
  · refine ⟨?_, .inl rfl, .inl ⟨cleanBye, rfl, rfl, .inl rfl⟩⟩
    exact ⟨⟨⟨⟨rfl, rfl, rfl, rfl, rfl⟩, rfl, fun _ => .inl⟩, rfl, rfl⟩, rfl⟩

theorem handleCompletion_effect (s : Serving) (cleanBye : Bool)
    (htype : f.header.type = .flowCompletion) :
    ∃ inputs, Branches s cleanBye f (s.handleCompletion cleanBye f) inputs := by
  unfold handleCompletion applyCompletion
  rcases hpayload : decodeCompletion f.payload with e | ⟨⟨flow, generation, at₀⟩, rest⟩
  · exact ⟨[], .of_stop (works_fenceSession s _ _) cleanBye f _⟩
  simp only
  by_cases hvalid : ¬ flow.valid ∨ ¬ generation.valid
  · rw [if_pos hvalid]
    exact ⟨[], .of_stop (works_fenceSession s _ _) cleanBye f _⟩
  rw [if_neg hvalid]
  rw [not_or, not_not, not_not] at hvalid
  generalize hat : (if at₀ < s.coordinator.lastTick then s.coordinator.lastTick else at₀) = atTick
  have hle : at₀ ≤ atTick := by
    rw [← hat]
    split_ifs with hlt
    · exact UInt64.le_of_lt hlt
    · exact UInt64.le_refl _
  have hreach : ∀ t, Works s { s with coordinator := { s.coordinator with
      backing := (s.coordinator.backing.completeFlow flow generation atTick).2, lastTick := t } }
      [.completion flow generation atTick] := fun t =>
    ⟨⟨⟨⟨rfl, rfl, rfl, rfl, rfl⟩, rfl, fun _ => .inl⟩, rfl, rfl⟩, rfl⟩
  have hcarries : Carries s.coordinator.limits.maxBatch f [.completion flow generation atTick] :=
    .completion flow generation at₀ atTick rest htype hpayload hvalid.1 hvalid.2 hle
  refine ⟨[.completion flow generation atTick], ?_⟩
  rcases hc : s.coordinator.backing.completeFlow flow generation atTick with ⟨e | ⟨⟩, b⟩
  · rw [hc] at hreach
    by_cases hcode : e.code = .notFound
    · simp only [if_pos hcode]
      exact ⟨hreach _, .inr hcarries, .inl ⟨cleanBye, rfl, rfl, .inl rfl⟩⟩
    · -- the completion failed after it had reached the governor
      simp only [if_neg hcode]
      exact ⟨(hreach _).trans (works_fenceSession _ _ _), .inr hcarries, .inr ⟨_, rfl⟩⟩
  · rw [hc] at hreach
    exact ⟨hreach _, .inr hcarries, .inl ⟨cleanBye, rfl, rfl, .inl rfl⟩⟩

theorem dispatch_effect (s : Serving) (cleanBye : Bool) (f : Frame) :
    ∃ inputs, Branches s cleanBye f (s.dispatch cleanBye f) inputs := by
  unfold dispatch
  rcases htype : f.header.type <;>
    first
    | exact handleEvidence_effect s cleanBye htype
    | exact handleCompletion_effect s cleanBye htype
    | exact ⟨[], handleHeartbeat_effect s cleanBye f⟩
    | exact ⟨[], works_refl s, .inl rfl, .inl ⟨true, rfl, rfl, .inr htype⟩⟩
    | exact ⟨[], .of_stop (works_fenceSession s _ _) cleanBye f _⟩

/-! ## The stream -/

/-- One iteration of `handle_stream`: the governor took nothing, or the inputs of a frame of the
registered identity.  The loop is left without a fence or with the flag it had; or it returns; or it
goes on behind a frame of the registered identity that is no Bye, with the flag it had or behind a
Shutdown. -/
structure Round (s : Serving) (cleanBye : Bool) (read : Except Status Frame) (r : Next × Serving)
    (inputs : List SessionInput) : Prop where
  works : Works s r.2 inputs
  carries : inputs = [] ∨
    ∃ f, read = .ok f ∧ s.Matches f ∧ Carries s.coordinator.limits.maxBatch f inputs
  next : (∃ b, r.1 = .leave b ∧ (r.2.outcome.fenced = s.outcome.fenced ∨ b = cleanBye)) ∨
    (∃ result, r.1 = .stop result) ∨
    ∃ f b, read = .ok f ∧ s.Matches f ∧ f.header.type ≠ .bye ∧ r.1 = .again b ∧
      r.2.outcome.fenced = s.outcome.fenced ∧ (b = cleanBye ∨ f.header.type = .shutdown)

theorem Round.of_leave (h : Works s s' []) (cleanBye : Bool) (read : Except Status Frame) :
    Round s cleanBye read (.leave cleanBye, s') [] :=
  ⟨h, .inl rfl, .inl ⟨cleanBye, rfl, .inr rfl⟩⟩

theorem handleRead_effect (s : Serving) (cleanBye : Bool) (read : Except Status Frame) :
    ∃ inputs, Round s cleanBye read (s.handleRead cleanBye read) inputs := by
  rcases read with e | f
  · refine ⟨[], ?_⟩
    unfold handleRead
    simp only
    split_ifs
    · refine .of_leave ?_ cleanBye _
      exact ⟨⟨⟨⟨rfl, rfl, rfl, rfl, rfl⟩, rfl, fun _ => .inl⟩, rfl, rfl⟩, rfl⟩
    · exact .of_leave (works_fenceSession s _ _) cleanBye _
  unfold handleRead handleFrame
  simp only
  generalize hs₁ : ({ s with outcome := { s.outcome with frames := s.outcome.frames + 1 } } :
    Serving) = s₁
  have hcount : Works s s₁ [] := by
    rw [← hs₁]
    exact ⟨⟨⟨⟨rfl, rfl, rfl, rfl, rfl⟩, rfl, fun _ => .inl⟩, rfl, rfl⟩, rfl⟩
  have hfenced : s₁.outcome.fenced = s.outcome.fenced := by rw [← hs₁]
  have hfence : ∀ reason detail, Works s (s₁.fenceSession reason detail) [] :=
    fun reason detail => hcount.trans (works_fenceSession s₁ reason detail)
  split_ifs with hepoch hworker hboot hbye hhello
  · exact ⟨[], .of_leave (hfence _ _) cleanBye _⟩
  · exact ⟨[], .of_leave (hfence _ _) cleanBye _⟩
  · exact ⟨[], .of_leave (hfence _ _) cleanBye _⟩
  · exact ⟨[], hcount, .inl rfl, .inl ⟨true, rfl, .inl hfenced⟩⟩
  · exact ⟨[], .of_leave (hfence _ _) cleanBye _⟩
  have hmatches : s.Matches f := ⟨not_not.mp hepoch, not_not.mp hworker, not_not.mp hboot⟩
  obtain ⟨inputs, hworks, hcarries, hnext⟩ := dispatch_effect s₁ cleanBye f
  refine ⟨inputs, hcount.trans hworks, ?_, ?_⟩
  · rw [hcount.same.limits] at hcarries
    exact hcarries.imp_right fun hc => ⟨f, rfl, hmatches, hc⟩
  · rcases hnext with ⟨b, hb, hkept, hflag⟩ | hstop
    · exact .inr (.inr ⟨f, b, rfl, hmatches, hbye, hb, hkept.trans hfenced, hflag⟩)
    · exact .inr (.inl hstop)

/-- The frames of the stream that reached the governor, each with the inputs it carried. -/
structure Applies (s : Serving) (reads : List (Except Status Frame))
    (applied : List (Frame × List SessionInput)) : Prop where
  sublist : (applied.map fun x => (.ok x.1 : Except Status Frame)).Sublist reads
  identity : ∀ x ∈ applied, s.Matches x.1
  carries : ∀ x ∈ applied, Carries s.coordinator.limits.maxBatch x.1 x.2

theorem Applies.nil (s : Serving) (reads : List (Except Status Frame)) : Applies s reads [] :=
  ⟨List.nil_sublist _, by simp, by simp⟩

/-- One more read in front: it brought nothing, or the inputs of its frame. -/
theorem Applies.cons (h : Applies s' reads applied) (hsame : SameSession s s') :
    Applies s (read :: reads) applied where
  sublist := h.sublist.cons _
  identity := fun x hx => (h.identity x hx).congr hsame
  carries := fun x hx => by
    rw [← hsame.limits]
    exact h.carries x hx

theorem Applies.cons_frame (h : Applies s' reads applied) (hsame : SameSession s s')
    (hmatches : s.Matches f) (hcarries : Carries s.coordinator.limits.maxBatch f inputs) :
    Applies s (.ok f :: reads) ((f, inputs) :: applied) := by
  have htail : Applies s (.ok f :: reads) applied := h.cons hsame
  refine ⟨h.sublist.cons_cons _, ?_, ?_⟩
  · exact List.forall_mem_cons.mpr ⟨hmatches, htail.identity⟩
  · exact List.forall_mem_cons.mpr ⟨hcarries, htail.carries⟩

theorem serves_withCleanBye (s : Serving) (cleanBye : Bool) : Serves s (s.withCleanBye cleanBye) [] :=
  ⟨⟨⟨rfl, rfl, rfl, rfl, rfl⟩, rfl, fun _ => .inl⟩, rfl, rfl⟩

/-- A stream acts on the governor through inputs of frames that carry the registered identity. -/
theorem handleStream_effect (reads : List (Except Status Frame)) (s : Serving) (cleanBye : Bool) :
    ∃ applied, Applies s reads applied ∧
      Serves s (s.handleStream cleanBye reads).2 (applied.flatMap Prod.snd) := by
  induction reads generalizing s cleanBye with
  | nil => exact ⟨[], .nil s _, serves_withCleanBye s cleanBye⟩
  | cons read reads ih =>
    -- the inputs of the first read, and those of whatever is read behind it
    have hrest : ∃ s₁ applied, s₁ = (s.handleRead cleanBye read).2 ∧ Applies s₁ reads applied ∧
        Serves s₁ (s.handleStream cleanBye (read :: reads)).2 (applied.flatMap Prod.snd) := by
      rcases hread : s.handleRead cleanBye read with ⟨next, s₁⟩
      rw [handleStream, hread]
      cases next with
      | again cleanBye' =>
        obtain ⟨applied, happlied, hserves⟩ := ih s₁ cleanBye'
        exact ⟨s₁, applied, rfl, happlied, hserves⟩
      | leave cleanBye' => exact ⟨s₁, [], rfl, .nil s₁ _, serves_withCleanBye s₁ cleanBye'⟩
      | stop result => exact ⟨s₁, [], rfl, .nil s₁ _, (works_refl s₁).toServes⟩
    obtain ⟨s₁, applied, hs₁, happlied, hserves⟩ := hrest
    obtain ⟨inputs, hworks, hcarries, -⟩ := handleRead_effect s cleanBye read
    rw [← hs₁] at hworks
    have hboth := hworks.toServes.trans hserves
    rcases hcarries with rfl | ⟨f, rfl, hmatches, hcarries⟩
    · exact ⟨applied, happlied.cons hworks.same, hboth⟩
    · exact ⟨(f, inputs) :: applied, happlied.cons_frame hworks.same hmatches hcarries, hboth⟩

/-! ## What follows the end of a session -/

/-- The next iteration is reached behind a frame of the registered identity that is no Bye, without a
fence, and with the flag it had or behind a Shutdown. -/
theorem of_handleRead_again {cleanBye' : Bool}
    (h : s.handleRead cleanBye read = (.again cleanBye', s')) :
    s'.outcome.fenced = s.outcome.fenced ∧ ∃ f, read = .ok f ∧ s.Matches f ∧ f.header.type ≠ .bye ∧
      (cleanBye' = cleanBye ∨ f.header.type = .shutdown) := by
  obtain ⟨inputs, -, -, hnext⟩ := handleRead_effect s cleanBye read
  rw [h] at hnext
  rcases hnext with ⟨b, hb, -⟩ | ⟨r, hr⟩ | ⟨f, b, rfl, hmatches, hbye, hb, hfenced, hflag⟩
  · cases hb
  · cases hr
  · cases hb
    exact ⟨hfenced, f, rfl, hmatches, hbye, hflag⟩

theorem handleStream_append (reads later : List (Except Status Frame)) (s : Serving)
    (cleanBye : Bool) (hopen : s.outcome.fenced = false)
    (hover : (s.handleStream cleanBye reads).2.outcome.fenced = true ∨
      ∃ f, .ok f ∈ reads ∧ f.header.type = .bye) :
    s.handleStream cleanBye (reads ++ later) = s.handleStream cleanBye reads := by
  induction reads generalizing s cleanBye with
  | nil =>
    rcases hover with hfenced | ⟨f, hf, -⟩
    · have : s.outcome.fenced = true := hfenced
      rw [hopen] at this
      cases this
    · cases hf
  | cons read reads ih =>
    rcases hread : s.handleRead cleanBye read with ⟨next, s₁⟩
    rw [List.cons_append, handleStream, handleStream, hread]
    cases next with
    | again cleanBye' =>
      obtain ⟨hkept, f', rfl, -, hbye, -⟩ := of_handleRead_again hread
      refine ih s₁ cleanBye' (hkept.trans hopen) ?_
      rcases hover with hfenced | ⟨f, hf, htype⟩
      · rw [handleStream, hread] at hfenced
        exact .inl hfenced
      · rcases List.mem_cons.mp hf with hf | hf
        · cases hf
          exact absurd htype hbye
        · exact .inr ⟨f, hf, htype⟩
    | leave cleanBye' => rfl
    | stop result => rfl

/-! ## Registration -/

/-- The checks that a Hello has to pass, and the worker identifier it is given. -/
structure Registers (c : Coordinator) (frame : Frame) (h : Hello) (worker next : WorkerId) : Prop where
  payload : ∃ rest, decodeHello frame.payload = .ok (h, rest)
  headerEpoch : frame.header.epoch = ⟨h.epoch⟩
  headerBoot : frame.header.boot = ⟨h.boot⟩
  epoch : c.boot.epoch = ⟨h.epoch⟩
  nonce : h.nonce ∉ c.seenNonces
  assigned : assignWorker c.limits.maxWorkers c.nextWorkerId h.requestedWorker = .ok (worker, next)

/-- The session once the payload of its Hello was read. -/
def introduced (s : Serving) (h : Hello) : Serving :=
  { s with outcome := { s.outcome with epoch := ⟨h.epoch⟩, boot := ⟨h.boot⟩, label := h.label } }

/-- A fence of the registration: the outcome says so, and only the sequence number moves. -/
structure RefusedBy (s s' : Serving) : Prop where
  coordinator : s'.coordinator =
    { s.coordinator with sessionSequence := s.coordinator.sessionSequence + 1 }
  fenced : s'.outcome.fenced = true
  accepted : s'.acceptedSamples = s.acceptedSamples

theorem refusedBy_fenceSession (s : Serving) (reason : FenceReason) (detail : String) :
    RefusedBy s (s.fenceSession reason detail) := by
  obtain ⟨sent, heq⟩ := fenceSession_eq s reason detail
  rw [heq]
  exact ⟨rfl, rfl, rfl⟩

theorem RefusedBy.of_introduced (hs : RefusedBy (s.introduced h) s') : RefusedBy s s' :=
  ⟨hs.coordinator, hs.fenced, hs.accepted⟩

theorem RefusedBy.backing (hs : RefusedBy s s') :
    s'.coordinator.backing = s.coordinator.backing := by
  rw [hs.coordinator]

theorem handleHello_cases (s : Serving) (frame : Frame) :
    (∃ s', s.handleHello frame = (.fenced, s') ∧ RefusedBy s s' ∧
      ∀ h worker next, ¬ Registers s.coordinator frame h worker next) ∨
    ∃ h worker next, Registers s.coordinator frame h worker next ∧
      s.handleHello frame = (s.introduced h).registerSession h worker next := by
  unfold handleHello
  rcases hd : decodeHello frame.payload with e | ⟨h, rest⟩
  · refine .inl ⟨_, rfl, refusedBy_fenceSession s _ _, fun h worker next hreg => ?_⟩
    obtain ⟨rest, hpayload⟩ := hreg.payload
    rw [hd] at hpayload
    cases hpayload
  simp only
  have hsame : ∀ {h' : Hello} {worker next : WorkerId},
      Registers s.coordinator frame h' worker next → h' = h := by
    intro h' worker next hreg
    obtain ⟨rest', hpayload⟩ := hreg.payload
    rw [hd] at hpayload
    cases hpayload
    rfl
  by_cases hheader : frame.header.epoch ≠ ⟨h.epoch⟩ ∨ frame.header.boot ≠ ⟨h.boot⟩
  · rw [if_pos hheader]
    refine .inl ⟨_, rfl, refusedBy_fenceSession s _ _, fun h' worker next hreg => ?_⟩
    obtain rfl := hsame hreg
    rcases hheader with hne | hne
    · exact hne hreg.headerEpoch
    · exact hne hreg.headerBoot
  rw [if_neg hheader]
  rw [not_or, not_not, not_not] at hheader
  by_cases hstale : (⟨h.epoch⟩ : EpochId) < s.coordinator.boot.epoch
  · rw [if_pos hstale]
    refine .inl ⟨_, rfl, (refusedBy_fenceSession (s.introduced h) _ _).of_introduced,
      fun h' worker next hreg => ?_⟩
    obtain rfl := hsame hreg
    rw [hreg.epoch] at hstale
    exact UInt64.lt_irrefl _ hstale
  rw [if_neg hstale]
  by_cases hahead : s.coordinator.boot.epoch < (⟨h.epoch⟩ : EpochId)
  · rw [if_pos hahead]
    refine .inl ⟨_, rfl, (refusedBy_fenceSession (s.introduced h) _ _).of_introduced,
      fun h' worker next hreg => ?_⟩
    obtain rfl := hsame hreg
    rw [hreg.epoch] at hahead
    exact UInt64.lt_irrefl _ hahead
  rw [if_neg hahead]
  have hepoch : s.coordinator.boot.epoch = ⟨h.epoch⟩ := by
    apply StrongId.ext
    rw [StrongId.lt_iff] at hstale hahead
    exact UInt64.le_antisymm (UInt64.not_lt.mp hstale) (UInt64.not_lt.mp hahead)
  by_cases hnonce : h.nonce ∈ s.coordinator.seenNonces
  · rw [if_pos hnonce]
    refine .inl ⟨_, rfl, (refusedBy_fenceSession (s.introduced h) _ _).of_introduced,
      fun h' worker next hreg => ?_⟩
    obtain rfl := hsame hreg
    exact hreg.nonce hnonce
  rw [if_neg hnonce]
  rcases ha : assignWorker s.coordinator.limits.maxWorkers s.coordinator.nextWorkerId
    h.requestedWorker with detail | ⟨worker, next⟩
  · refine .inl ⟨_, rfl, (refusedBy_fenceSession (s.introduced h) _ _).of_introduced,
      fun h' worker next hreg => ?_⟩
    obtain rfl := hsame hreg
    rw [hreg.assigned] at ha
    cases ha
  · exact .inr ⟨h, worker, next,
      ⟨⟨rest, hd⟩, hheader.1, hheader.2, hepoch, hnonce, ha⟩, rfl⟩

/-- The coordinator after a registration, whether the Welcome frame was written or not. -/
theorem registerSession_snd (s : Serving) (h : Hello) (worker next : WorkerId) : ∃ sent,
    (s.registerSession h worker next).2 = { s with
      coordinator := { s.coordinator with
        nextWorkerId := next
        workers := registerWorker s.coordinator.workers worker h s.coordinator.lastTick
        seenNonces := rememberNonce s.coordinator.seenNonces h.nonce
        sessionSequence := s.coordinator.sessionSequence + 1 }
      outcome := { s.outcome with worker := worker }
      sent := sent } := by
  unfold registerSession
  simp only
  generalize hs₁ : ({ s with
    coordinator := { s.coordinator with
      nextWorkerId := next
      workers := registerWorker s.coordinator.workers worker h s.coordinator.lastTick
      seenNonces := rememberNonce s.coordinator.seenNonces h.nonce }
    outcome := { s.outcome with worker := worker } } : Serving) = s₁
  obtain ⟨sent, heq⟩ := write_snd s₁ .welcome s₁.welcomePayload
  rw [heq, ← hs₁]
  exact ⟨sent, rfl⟩

/-- A Hello that passes every check is accepted. -/
theorem handleHello_of_registers {frame : Frame}
    (hreg : Registers s.coordinator frame h worker next) :
    ∃ written s', s.handleHello frame = (.registered written, s') := by
  rcases handleHello_cases s frame with ⟨s', -, -, hno⟩ | ⟨h', worker', next', -, heq⟩
  · exact absurd hreg (hno h worker next)
  · rw [heq]
    exact ⟨_, _, rfl⟩

/-- Accepted or not, a Hello does not touch the governor. -/
theorem backing_handleHello (s : Serving) (frame : Frame) :
    (s.handleHello frame).2.coordinator.backing = s.coordinator.backing := by
  rcases handleHello_cases s frame with ⟨s', heq, hrefused, -⟩ | ⟨h, worker, next, -, heq⟩
  · rw [heq]
    exact hrefused.backing
  · obtain ⟨sent, hregistered⟩ := registerSession_snd (s.introduced h) h worker next
    rw [heq, hregistered]
    rfl

/-! ## Sessions -/

theorem map_worker_updateWorker (id : WorkerId) {f : WorkerRecord → WorkerRecord}
    (hf : ∀ r, (f r).worker = r.worker) (workers : List WorkerRecord) :
    (updateWorker id f workers).map (·.worker) = workers.map (·.worker) := by
  induction workers with
  | nil => rfl
  | cons r rs ih =>
    rw [updateWorker]
    split_ifs
    · rw [List.map_cons, List.map_cons, hf]
    · rw [List.map_cons, List.map_cons, ih]

/-- A stream with its report acts on the governor through frames of the registered identity. -/
theorem serveStream_effect (s : Serving) (reads : List (Except Status Frame)) :
    ∃ applied, Applies s reads applied ∧ Serves s (s.serveStream reads) (applied.flatMap Prod.snd) := by
  obtain ⟨applied, happlied, hserves⟩ := handleStream_effect reads s false
  have hreport : Serves (s.handleStream false reads).2 (s.serveStream reads) [] := by
    unfold serveStream
    simp only
    rcases (s.handleStream false reads).1 with e | ⟨⟩
    all_goals refine ⟨⟨⟨rfl, rfl, rfl, rfl, rfl⟩, rfl, fun _ => .inl⟩, ?_, rfl⟩
    all_goals exact map_worker_updateWorker _ (by exact fun _ => rfl) _
  have hboth := hserves.trans hreport
  rw [List.append_nil] at hboth
  exact ⟨applied, happlied, hboth⟩

/-- A session whose Hello registered a worker, with the frames that reached the governor and the
inputs each of them carried: frames of the body of the session, under the registered identity. -/
structure Registered (c : Coordinator) (hello : Frame) (body : List (Except Status Frame)) (h : Hello)
    (worker : WorkerId) (applied : List (Frame × List SessionInput)) : Prop where
  type : hello.header.type = .hello
  registers : ∃ next, Registers c hello h worker next
  sublist : (applied.map fun x => (.ok x.1 : Except Status Frame)).Sublist body
  epoch : ∀ x ∈ applied, x.1.header.epoch = c.boot.epoch
  worker : ∀ x ∈ applied, x.1.header.worker = worker
  boot : ∀ x ∈ applied, x.1.header.boot = ⟨h.boot⟩
  carries : ∀ x ∈ applied, Carries c.limits.maxBatch x.1 x.2

/-- The session behind an accepted Hello: the worker is registered, the nonce consumed. -/
structure Entered (s : Serving) (h : Hello) (worker next : WorkerId) (s' : Serving) : Prop where
  coordinator : s'.coordinator = { s.coordinator with
    nextWorkerId := next
    workers := registerWorker s.coordinator.workers worker h s.coordinator.lastTick
    seenNonces := rememberNonce s.coordinator.seenNonces h.nonce
    sessionSequence := s.coordinator.sessionSequence + 1 }
  worker : s'.outcome.worker = worker
  boot : s'.outcome.boot = ⟨h.boot⟩
  fenced : s'.outcome.fenced = s.outcome.fenced
  accepted : s'.acceptedSamples = s.acceptedSamples

theorem Entered.backing (hs : Entered s h worker next s') :
    s'.coordinator.backing = s.coordinator.backing := by
  rw [hs.coordinator]

/-- How a session goes on from its first frame: it is refused, or its worker is registered, and then
the Welcome could not be written or the stream begins. -/
theorem serveFrom_cases (s : Serving) (first : Frame) :
    (∃ s', RefusedBy s s' ∧ (first.header.type = .hello →
        ∀ h worker next, ¬ Registers s.coordinator first h worker next) ∧
      ∀ reads, s.serveFrom first reads = s'.report) ∨
    ∃ h worker next s', first.header.type = .hello ∧ Registers s.coordinator first h worker next ∧
      Entered s h worker next s' ∧
      ((∃ f, (∀ r, (f r).worker = r.worker) ∧
          ∀ reads, s.serveFrom first reads = (s'.updateRecord f).report) ∨
        ∀ reads, s.serveFrom first reads = s'.serveStream reads) := by
  unfold serveFrom
  simp only
  generalize hs₁ : ({ s with outcome := { s.outcome with frames := s.outcome.frames + 1 } } :
    Serving) = s₁
  have hcoordinator : s₁.coordinator = s.coordinator := by rw [← hs₁]
  have hfenced : s₁.outcome.fenced = s.outcome.fenced := by rw [← hs₁]
  have haccepted : s₁.acceptedSamples = s.acceptedSamples := by rw [← hs₁]
  have hrefuse : ∀ {s'}, RefusedBy s₁ s' → RefusedBy s s' := fun h =>
    ⟨by rw [h.coordinator, hcoordinator], h.fenced, h.accepted.trans haccepted⟩
  by_cases htype : first.header.type = .hello
  swap
  · have hfence := refusedBy_fenceSession s₁ .frameMalformed "first frame was not a hello"
    refine .inl ⟨_, hrefuse hfence, fun h => absurd h htype, fun reads => ?_⟩
    rw [if_pos htype]
  simp only [if_neg (not_not.mpr htype)]
  rcases handleHello_cases s₁ first with ⟨s₂, heq, hrefused, hno⟩ | ⟨h, worker, next, hreg, heq⟩
  · rw [hcoordinator] at hno
    refine .inl ⟨s₂, hrefuse hrefused, fun _ => hno, fun reads => ?_⟩
    rw [heq]
  rw [heq]
  rw [hcoordinator] at hreg
  obtain ⟨sent, hregistered⟩ := registerSession_snd (s₁.introduced h) h worker next
  rcases hr : (s₁.introduced h).registerSession h worker next with ⟨verdict, s₂⟩
  rw [hr] at hregistered
  have hentered : Entered s h worker next s₂ := by
    have hs₂ : s₂ = _ := hregistered
    rw [hs₂]
    refine ⟨?_, rfl, rfl, hfenced, haccepted⟩
    show { s₁.coordinator with
      nextWorkerId := next
      workers := registerWorker s₁.coordinator.workers worker h s₁.coordinator.lastTick
      seenNonces := rememberNonce s₁.coordinator.seenNonces h.nonce
      sessionSequence := s₁.coordinator.sessionSequence + 1 } = _
    rw [hcoordinator]
  refine .inr ⟨h, worker, next, s₂, htype, hreg, hentered, ?_⟩
  have hverdict : verdict ≠ .fenced := by
    rintro rfl
    unfold registerSession at hr
    cases hr
  rcases verdict with _ | ⟨e | ⟨⟩⟩
  · exact absurd rfl hverdict
  · exact .inl ⟨_, by exact fun _ => rfl, fun reads => rfl⟩
  · exact .inr fun reads => rfl

theorem serveFrom_effect (s : Serving) (first : Frame) (reads : List (Except Status Frame)) :
    ((s.serveFrom first reads).coordinator.backing = s.coordinator.backing ∧
      (s.serveFrom first reads).acceptedSamples = s.acceptedSamples) ∨
    ∃ (h : Hello) (worker : WorkerId) (applied : List (Frame × List SessionInput)),
      Registered s.coordinator first reads h worker applied ∧
      (s.serveFrom first reads).coordinator.backing =
        (applied.flatMap Prod.snd).foldl Backing.feed s.coordinator.backing ∧
      ∀ x ∈ (s.serveFrom first reads).acceptedSamples,
        x ∈ s.acceptedSamples ∨ .evidence x ∈ applied.flatMap Prod.snd := by
  rcases serveFrom_cases s first with ⟨s', hrefused, -, heq⟩ |
    ⟨h, worker, next, s', htype, hreg, hentered, ⟨f, -, heq⟩ | heq⟩
  · rw [heq]
    exact .inl ⟨hrefused.backing, hrefused.accepted⟩
  · rw [heq]
    exact .inl ⟨hentered.backing, hentered.accepted⟩
  -- the Welcome went out: the stream works under the identity that was just registered
  obtain ⟨applied, happlied, htakes⟩ := serveStream_effect s' reads
  have hboot : s'.coordinator.boot = s.coordinator.boot := by rw [hentered.coordinator]
  have hlimits : s'.coordinator.limits = s.coordinator.limits := by rw [hentered.coordinator]
  refine .inr ⟨h, worker, applied, ⟨htype, ⟨next, hreg⟩, happlied.sublist, fun x hx => ?_,
    fun x hx => ?_, fun x hx => ?_, fun x hx => ?_⟩, ?_, ?_⟩
  · rw [(happlied.identity x hx).epoch, hboot]
  · rw [(happlied.identity x hx).worker, hentered.worker]
  · rw [(happlied.identity x hx).boot, hentered.boot]
  · rw [← hlimits]
    exact happlied.carries x hx
  · rw [heq, htakes.backing, hentered.backing]
  · rw [heq, ← hentered.accepted]
    exact htakes.accepted

theorem serveStream_append (s : Serving) (hopen : s.outcome.fenced = false)
    (reads later : List (Except Status Frame))
    (hover : (s.serveStream reads).outcome.fenced = true ∨
      ∃ f, .ok f ∈ reads ∧ f.header.type = .bye) :
    s.serveStream (reads ++ later) = s.serveStream reads := by
  have hstream : s.handleStream false (reads ++ later) = s.handleStream false reads := by
    refine handleStream_append reads later s false hopen (hover.imp_left fun hfenced => ?_)
    unfold serveStream at hfenced
    simp only at hfenced
    rcases hresult : (s.handleStream false reads).1 with e | ⟨⟩
    · rw [hresult] at hfenced
      exact hfenced
    · rw [hresult] at hfenced
      exact hfenced
  unfold serveStream
  rw [hstream]

theorem serveFrom_append (s : Serving) (hopen : s.outcome.fenced = false) (first : Frame)
    (reads later : List (Except Status Frame))
    (hover : (s.serveFrom first reads).outcome.fenced = true ∨ first.header.type = .bye ∨
      ∃ f, .ok f ∈ reads ∧ f.header.type = .bye) :
    s.serveFrom first (reads ++ later) = s.serveFrom first reads := by
  rcases serveFrom_cases s first with ⟨s', -, -, heq⟩ |
    ⟨h, worker, next, s', htype, -, hentered, ⟨f, -, heq⟩ | heq⟩
  · rw [heq, heq]
  · rw [heq, heq]
  rw [heq] at hover
  rw [heq, heq]
  refine serveStream_append s' (hentered.fenced.trans hopen) reads later ?_
  rcases hover with hfenced | hbye | hbye
  · exact .inl hfenced
  · rw [htype] at hbye
    cases hbye
  · exact .inr hbye

end Serving

namespace Coordinator

open Serving

theorem serve_effect (c : Coordinator) (reads : List (Except Status Frame)) :
    ((c.serve reads).coordinator.backing = c.backing ∧ (c.serve reads).acceptedSamples = []) ∨
    ∃ (hello : Frame) (body : List (Except Status Frame)) (h : Hello) (worker : WorkerId)
      (applied : List (Frame × List SessionInput)), reads = .ok hello :: body ∧
      Registered c hello body h worker applied ∧
      (c.serve reads).coordinator.backing =
        (applied.flatMap Prod.snd).foldl Backing.feed c.backing ∧
      ∀ x ∈ (c.serve reads).acceptedSamples, .evidence x ∈ applied.flatMap Prod.snd := by
  rcases reads with _ | ⟨e | hello, body⟩
  · exact .inl ⟨rfl, rfl⟩
  · exact .inl ⟨rfl, rfl⟩
  · rcases serveFrom_effect { coordinator := c, outcome := { detail := "session opened" } } hello
      body with hsame | ⟨h, worker, applied, hregistered, hbacking, haccepted⟩
    · exact .inl hsame
    · refine .inr ⟨hello, body, h, worker, applied, rfl, hregistered, hbacking, fun x hx => ?_⟩
      rcases haccepted x hx with hx | hx
      · cases hx
      · exact hx

/-- The governor is reached only by evidence and completions of a properly registered session, by
frames of the registered identity, and by whole batches; nothing behind the first fence or Bye is
read; and a fenced Hello changes neither the worker table nor the nonce history, the next worker
identifier or the governor. -/
theorem session_guards_governor (c : Coordinator) (reads : List (Except Status Frame)) :
    ((c.serveOne reads).backing = c.backing ∨
      ∃ (hello : Frame) (body : List (Except Status Frame)) (h : Hello) (worker : WorkerId)
        (applied : List (Frame × List SessionInput)), reads = .ok hello :: body ∧
        Registered c hello body h worker applied ∧
        (c.serveOne reads).backing = (applied.flatMap Prod.snd).foldl Backing.feed c.backing) ∧
    (∀ later, ((c.serve reads).outcome.fenced = true ∨ ∃ f, .ok f ∈ reads ∧ f.header.type = .bye) →
      c.serve (reads ++ later) = c.serve reads) ∧
    (∀ (s : Serving) (hello : Frame) (s' : Serving), s.handleHello hello = (.fenced, s') →
      s'.coordinator.workers = s.coordinator.workers ∧
        s'.coordinator.seenNonces = s.coordinator.seenNonces ∧
        s'.coordinator.nextWorkerId = s.coordinator.nextWorkerId ∧
        s'.coordinator.backing = s.coordinator.backing) := by
  refine ⟨?_, fun later hover => ?_, fun s hello s' hfenced => ?_⟩
  · rcases serve_effect c reads with hsame | ⟨hello, body, h, worker, applied, heq, hreg, hbacking, -⟩
    · exact .inl hsame.1
    · exact .inr ⟨hello, body, h, worker, applied, heq, hreg, hbacking⟩
  · rcases reads with _ | ⟨e | hello, body⟩
    · rcases hover with hfenced | ⟨f, hf, -⟩
      · cases hfenced
      · cases hf
    · rfl
    · refine serveFrom_append _ rfl hello body later ?_
      rcases hover with hfenced | ⟨f, hf, htype⟩
      · exact .inl hfenced
      · rcases List.mem_cons.mp hf with hf | hf
        · cases hf
          exact .inr (.inl htype)
        · exact .inr (.inr ⟨f, hf, htype⟩)
  · rcases handleHello_cases s hello with ⟨s₁, heq, hrefused, -⟩ | ⟨h, worker, next, -, heq⟩
    · rw [heq] at hfenced
      cases hfenced
      rw [hrefused.coordinator]
      exact ⟨rfl, rfl, rfl, rfl⟩
    · rw [heq] at hfenced
      cases hfenced

/-! ## Two small sessions -/

namespace Scenario

/-- A coordinator in memory, with the inputs of the small run configured. -/
def config : CoordinatorConfig where
  boot := Governor.Scenario.boot
  policy := Governor.Scenario.policy
  capacities := [Governor.Scenario.capacity]
  paths := [Governor.Scenario.path]

/-- A Hello for the first worker. -/
def hello (boot nonce : UInt64) : Hello := ⟨1, boot, 1, nonce, []⟩

def helloFrame (h : Hello) : Frame where
  header := { type := .hello, epoch := ⟨h.epoch⟩, boot := ⟨h.boot⟩ }
  payload := (encodeHello h).toOption.getD []

/-- A batch of the first worker. -/
def batchFrame (boot : BootId) (samples : List FlowSample) : Frame where
  header := { type := .evidenceBatch, epoch := ⟨1⟩, boot := boot, worker := ⟨1⟩ }
  payload := (encodeEvidenceBatch kMaxEvidenceBatch samples).toOption.getD []

/-- A worker registers under a boot and brings the window of the small run, which names boot 1. -/
def session (boot : UInt64) : List (Except Status Frame) :=
  [.ok (helloFrame (hello boot 1)), .ok (batchFrame ⟨boot⟩ [Governor.Scenario.sample])]

end Scenario

/-! ## The publisher of accepted evidence -/

/-- Every sample of an evidence batch names the epoch and the boot of its frame. -/
def Stamped (maxBatch : ℕ) (f : Frame) : Prop :=
  f.header.type = .evidenceBatch → ∀ samples, decodeEvidenceBatch maxBatch f.payload = .ok samples →
    ∀ x ∈ samples, x.provenance.publisher.epoch = f.header.epoch ∧
      x.provenance.publisher.boot = f.header.boot

theorem stamped_of_carries {maxBatch : ℕ} {f : Frame} {inputs : List SessionInput}
    (hcarries : Carries maxBatch f inputs) (hstamped : Stamped maxBatch f) {x : FlowSample}
    (hx : .evidence x ∈ inputs) : x.provenance.publisher.epoch = f.header.epoch ∧
      x.provenance.publisher.boot = f.header.boot := by
  cases hcarries with
  | batch samples htype hbatch =>
    obtain ⟨y, hy, heq⟩ := List.mem_map.mp hx
    cases heq
    exact hstamped htype samples hbatch x hy
  | completion => cases List.mem_singleton.mp hx

/-- In a session whose batches are stamped with the identity of their frames, every sample that is
handed to the governor, the accepted ones among them, was published under the coordinator's epoch and
the boot that the Hello registered. -/
theorem accepted_sample_identity (c : Coordinator) (reads : List (Except Status Frame))
    (hstamped : ∀ f, .ok f ∈ reads → Stamped c.limits.maxBatch f) :
    ∃ inputs : List SessionInput,
      (c.serve reads).coordinator.backing = inputs.foldl Backing.feed c.backing ∧
      (∀ x ∈ (c.serve reads).acceptedSamples, .evidence x ∈ inputs) ∧
      ∀ x, .evidence x ∈ inputs → ∃ (hello : Frame) (body : List (Except Status Frame)) (h : Hello)
        (rest : Bytes), reads = .ok hello :: body ∧ hello.header.type = .hello ∧
        decodeHello hello.payload = .ok (h, rest) ∧
        x.provenance.publisher.epoch = c.boot.epoch ∧ x.provenance.publisher.boot = ⟨h.boot⟩ := by
  rcases serve_effect c reads with hsame | ⟨hello, body, h, worker, applied, rfl, hreg, hfed, haccepted⟩
  · refine ⟨[], hsame.1, fun x hx => ?_, fun x hx => by cases hx⟩
    rw [hsame.2] at hx
    cases hx
  obtain ⟨next, hregisters⟩ := hreg.registers
  obtain ⟨rest, hpayload⟩ := hregisters.payload
  refine ⟨_, hfed, haccepted, fun x hx => ?_⟩
  obtain ⟨⟨f, inputs⟩, hf, hinput⟩ := List.mem_flatMap.mp hx
  have hread : (.ok f : Except Status Frame) ∈ body :=
    hreg.sublist.subset (List.mem_map.mpr ⟨(f, inputs), hf, rfl⟩)
  have hidentity := stamped_of_carries (hreg.carries _ hf)
    (hstamped f (List.mem_cons_of_mem _ hread)) hinput
  refine ⟨hello, body, h, rest, rfl, hreg.type, hpayload, ?_, ?_⟩
  · exact hidentity.1.trans (hreg.epoch _ hf)
  · exact hidentity.2.trans (hreg.boot _ hf)

/-- A worker that registered under boot 2 has a sample of boot 1 accepted. -/
theorem accepted_sample_foreign : ∃ (c : Coordinator) (hello : Frame)
    (body : List (Except Status Frame)) (h : Hello) (rest : Bytes) (x : FlowSample),
    create Scenario.config none = .ok c ∧ decodeHello hello.payload = .ok (h, rest) ∧
    x ∈ (c.serve (.ok hello :: body)).acceptedSamples ∧
    x.provenance.publisher.boot ≠ ⟨h.boot⟩ := by
  obtain ⟨c, hc, x, hx, hboot⟩ : ∃ c, create Scenario.config none = .ok c ∧
      ∃ x ∈ (c.serve (Scenario.session 2)).acceptedSamples, x.provenance.publisher.boot ≠ ⟨2⟩ := by
    decide +kernel
  exact ⟨c, _, _, Scenario.hello 2 1, [], x, hc, by rfl, hx, hboot⟩

/-- Under boot 1 the window is stamped with the identity of its session. -/
theorem accepted_sample_identity_scenario : ∃ c : Coordinator, create Scenario.config none = .ok c ∧
    (∀ f, .ok f ∈ Scenario.session 1 → Stamped c.limits.maxBatch f) ∧
    (c.serve (Scenario.session 1)).acceptedSamples ≠ [] ∧
    ∀ x ∈ (c.serve (Scenario.session 1)).acceptedSamples, ∃ (hello : Frame)
      (body : List (Except Status Frame)) (h : Hello) (rest : Bytes),
      Scenario.session 1 = .ok hello :: body ∧ hello.header.type = .hello ∧
      decodeHello hello.payload = .ok (h, rest) ∧
      x.provenance.publisher.epoch = c.boot.epoch ∧ x.provenance.publisher.boot = ⟨h.boot⟩ := by
  obtain ⟨c, hc, haccepted, samples, hbatch, hall⟩ : ∃ c, create Scenario.config none = .ok c ∧
      (c.serve (Scenario.session 1)).acceptedSamples ≠ [] ∧ ∃ samples,
        decodeEvidenceBatch c.limits.maxBatch
          (Scenario.batchFrame ⟨1⟩ [Governor.Scenario.sample]).payload = .ok samples ∧
        ∀ x ∈ samples, x.provenance.publisher.epoch = ⟨1⟩ ∧ x.provenance.publisher.boot = ⟨1⟩ := by
    decide +kernel
  have hstamped : ∀ f, .ok f ∈ Scenario.session 1 → Stamped c.limits.maxBatch f := by
    intro f hf htype samples' hbatch' x hx
    unfold Scenario.session at hf
    rw [List.mem_pair] at hf
    rcases hf with hf | hf
    · cases hf
      cases htype
    · cases hf
      rw [hbatch] at hbatch'
      cases hbatch'
      exact hall x hx
  obtain ⟨inputs, -, hhanded, hidentity⟩ :=
    accepted_sample_identity c (Scenario.session 1) hstamped
  exact ⟨c, hc, hstamped, haccepted, fun x hx => hidentity x (hhanded x hx)⟩

end Coordinator

end EFG
