/-
# Runs of a durable store

A store is opened, takes inputs and compactions, and is opened again from the
files it left.  The operations of one incarnation keep its boot identity
(`take_boot`), so every snapshot file that a run writes names the incarnation of
the run (`continues_run`).
-/
import ElephantFlow.Incarnation
import ElephantFlow.Recording

namespace EFG

open ByteCodec

/-! ## Inputs and runs -/

/-- The inputs that a durable governor records. -/
inductive Input
  | policy (p : PolicyDocument)
  | capacity (c : ResourceCapacity)
  | path (p : PathDescriptor)
  | evidence (s : FlowSample)
  | tick (now : Tick)
  deriving DecidableEq

/-- The governor after an input, whatever the input returns. -/
def Governor.take (g : Governor) : Input → Governor
  | .policy p => (g.submitPolicy p).2
  | .capacity c => (g.submitCapacity c).2
  | .path p => (g.submitPath p).2
  | .evidence s => (g.submitEvidence s).2
  | .tick now => (g.tick now).2

/-- The operations on an open store.  Completions reach the governor directly: the store has no
operation that records them.  Behind `close` the journal refuses every record. -/
inductive DurableCommand
  | record (i : Input)
  | compactSnapshot
  | completeFlow (flow : FlowId) (generation : Generation) (atTick : Tick)
  | close

namespace DurableGovernor

/-- The store after an input, whatever the recording returns. -/
def record (d : DurableGovernor) : Input → DurableGovernor
  | .policy p => (d.recordPolicy p).2
  | .capacity c => (d.recordCapacity c).2
  | .path p => (d.recordPath p).2
  | .evidence s => (d.recordEvidence s).2
  | .tick now => (d.recordTick now).2

/-- `DurableGovernor::close`: the result of the last record is ignored. -/
def close (d : DurableGovernor) : DurableGovernor :=
  match d.journal.append .shutdown [] with
  | .error _ => d
  | .ok journal => { d with journal := journal }

/-- The store after an operation. -/
def exec (d : DurableGovernor) : DurableCommand → DurableGovernor
  | .record i => d.record i
  | .compactSnapshot => d.compactSnapshot.2
  | .completeFlow flow generation atTick =>
    { d with governor := (d.governor.completeFlow flow generation atTick).2 }
  | .close => d.close

/-- The store after a list of operations. -/
def run (d : DurableGovernor) (cmds : List DurableCommand) : DurableGovernor := cmds.foldl exec d

/-- The files that an open store leaves behind. -/
def disk (d : DurableGovernor) : Disk := ⟨d.snapshot, some d.journal.file⟩

end DurableGovernor

/-! ## The incarnation of a governor and its tables -/

namespace Governor

variable {g : Governor}

/-- The two governors agree on the incarnation and on the tables. -/
structure SameSetting (g g' : Governor) : Prop where
  boot : g'.boot = g.boot
  capacities : g'.capacities = g.capacities
  paths : g'.paths = g.paths

theorem SameSetting.refl (g : Governor) : SameSetting g g := ⟨rfl, rfl, rfl⟩

theorem SameSetting.trans {g₁ g₂ g₃ : Governor} (h : SameSetting g₁ g₂) (h' : SameSetting g₂ g₃) :
    SameSetting g₁ g₃ :=
  ⟨h'.boot.trans h.boot, h'.capacities.trans h.capacities, h'.paths.trans h.paths⟩

theorem SameInputs.setting {g' : Governor} (h : SameInputs g g') : SameSetting g g' :=
  ⟨h.boot, h.capacities, h.paths⟩

theorem sameSetting_invalidateAllAuthority (g : Governor) (now : Tick) (reason : ReasonCode) :
    SameSetting g (g.invalidateAllAuthority now reason).2 := by
  obtain ⟨_, _, _, _, _, heq⟩ := invalidateAllAuthority_rest g now reason
  rw [heq]
  exact ⟨rfl, rfl, rfl⟩

theorem sameSetting_submitPolicy (g : Governor) (p : PolicyDocument) :
    SameSetting g (g.submitPolicy p).2 := by
  rcases submitPolicy_cases g p with ⟨-, e, f, heq⟩ | ⟨-, -, rules, counters, heq⟩ |
    ⟨-, -, rules, counters, heq⟩
  · rw [heq]
    exact ⟨rfl, rfl, rfl⟩
  · rw [heq]
    exact ⟨rfl, rfl, rfl⟩
  · rw [heq]
    have h := sameSetting_invalidateAllAuthority { g with
      policy := some p, exitRules := rules, counters := counters } (maxOf p.validity.issuedAt g.lastTick)
      .policyChanged
    exact ⟨h.boot, h.capacities, h.paths⟩

/-- The two ways through `complete_flow`: nothing changes, or the intents of the flow are retired
and its record is completed and evaluated. -/
theorem completeFlow_cases (g : Governor) (flow : FlowId) (generation : Generation) (atTick : Tick) :
    (∃ e, g.completeFlow flow generation atTick = (.error e, g)) ∨
    ∃ (record : FlowRecord) (ledger : FlowLedger) (counters : GovernorCounters),
      g.flows[(⟨flow, generation⟩ : FlowKey)]? = some record ∧
      record.ledger.markCompleted atTick = .ok ledger ∧
      g.completeFlow flow generation atTick =
        let done := ({ g with
          intents := (g.intents.transitionFlowTerminal flow generation .completed).2
          counters := counters } : Governor).evaluateFlow ⟨flow, generation⟩
            { record with ledger := ledger, completedTick := atTick } atTick
        (done.1.map fun _ => (), done.2) := by
  unfold completeFlow
  rcases g.flows[(⟨flow, generation⟩ : FlowKey)]? with _ | record
  · exact .inl ⟨_, rfl⟩
  simp only
  rcases hm : record.ledger.markCompleted atTick with e | ledger
  · exact .inl ⟨e, rfl⟩
  refine .inr ⟨record, ledger, { g.counters with
    flowCompletions := g.counters.flowCompletions + 1
    intentsRevoked := g.counters.intentsRevoked +
      (g.intents.transitionFlowTerminal flow generation .completed).1 }, rfl, hm, ?_⟩
  simp only [count]
  generalize evaluateFlow _ _ _ _ = done
  obtain ⟨e | d, g'⟩ := done
  · rfl
  · rfl

/-! ## The steps of evidence, completion and queries -/

/-- A property that the steps of the operations on a flow keep, an evaluation under a condition on
the record it is for. -/
structure Stepwise (P : Governor → Prop) (E : Governor → FlowRecord → Tick → Prop) : Prop where
  counters : ∀ x counters, P x → P { x with counters := counters }
  evict : ∀ x key r, x.victim = some (key, r) → P x → P (x.dropFlow key r)
  create : ∀ x key, P x → P (x.createFlow key)
  retire : ∀ x select state update, isLive state = false → P x →
    P { x with intents := (x.intents.updateLive select state update).2 }
  ledger : ∀ x (key : FlowKey) r ledger, x.flows[key]? = some r → P x →
    P (x.setFlow key { r with ledger := ledger })
  evaluate : ∀ x (key : FlowKey) r ledger done now, x.flows[key]? = some r →
    E x { r with ledger := ledger, completedTick := done } now → P x →
    P (x.evaluateFlow key { r with ledger := ledger, completedTick := done } now).2

section Stepwise

variable {P : Governor → Prop} {E : Governor → FlowRecord → Tick → Prop} (hP : Stepwise P E)
include hP

theorem Stepwise.openFlow (h : P g) (key : FlowKey) : P (g.openFlow key).2 := by
  have hroom : P g.ensureFlowCapacity.2 := by
    rcases ensureFlowCapacity_cases g with ⟨-, heq⟩ | ⟨k, r, hv, -, heq⟩ | ⟨e, -, -, heq⟩
    · rw [heq]
      exact h
    · rw [heq]
      exact hP.counters _ _ (hP.evict g k r hv h)
    · rw [heq]
      exact hP.counters _ _ h
  unfold Governor.openFlow establishFlow
  rcases g.flows[key]? with _ | r
  swap
  · exact h
  rcases hc : g.ensureFlowCapacity with ⟨e | ⟨⟩, g'⟩
  all_goals
    rw [hc] at hroom
    rcases g.highestGeneration[key.flow]? with _ | highest
  · exact hroom
  · simp only
    split_ifs
    · exact hP.counters _ _ h
    · exact hP.counters _ _ h
    · exact hroom
  · exact hP.create _ key hroom
  · simp only
    split_ifs
    · exact hP.counters _ _ h
    · exact hP.counters _ _ h
    · exact hP.counters _ _ (hP.retire _ _ _ _ rfl (hP.create _ key hroom))

theorem Stepwise.submitEvidence (h : P g) {s : FlowSample}
    (hE : ∀ g' r outcome ledger counters, g.policy ≠ none → s.validate = .ok () →
      g.openFlow (sampleKey s) = (.ok (), g') → g'.flows[sampleKey s]? = some r →
      r.ledger.append s = (.ok outcome, ledger) →
      E { g' with counters := counters } { r with ledger := ledger } (decisionTick s)) :
    P (g.submitEvidence s).2 := by
  unfold Governor.submitEvidence
  split_ifs with hpolicy
  · exact hP.counters _ _ h
  rcases hvalid : s.validate with e | ⟨⟩
  · exact hP.counters _ _ h
  have hopen := hP.openFlow h (sampleKey s)
  simp only
  rcases ho : g.openFlow (sampleKey s) with ⟨e | ⟨⟩, g'⟩
  · rw [ho] at hopen
    exact hopen
  rw [ho] at hopen
  simp only
  rcases hr : g'.flows[sampleKey s]? with _ | r
  · exact hopen
  show P (g'.applyEvidence (sampleKey s) r s).2
  unfold applyEvidence
  rcases ha : r.ledger.append s with ⟨e | outcome, ledger⟩
  · exact hP.counters _ _ (hP.ledger _ _ r ledger hr hopen)
  have heval := hP.evaluate (g'.count (countTaken · outcome ledger s)) (sampleKey s) r ledger
    r.completedTick (decisionTick s) hr
    (hE g' r outcome ledger _ (by simpa using hpolicy) hvalid ho hr ha) (hP.counters _ _ hopen)
  simp only
  rcases hd : (g'.count (countTaken · outcome ledger s)).evaluateFlow (sampleKey s)
    { r with ledger := ledger } (decisionTick s) with ⟨e | d, x⟩
  · rw [hd] at heval
    exact heval
  · rw [hd] at heval
    exact heval

theorem Stepwise.completeFlow (h : P g) {flow : FlowId} {generation : Generation} {atTick : Tick}
    (hE : ∀ (r : FlowRecord) ledger intents counters, r.ledger.markCompleted atTick = .ok ledger →
      E { g with intents := intents, counters := counters }
        { r with ledger := ledger, completedTick := atTick } atTick) :
    P (g.completeFlow flow generation atTick).2 := by
  rcases completeFlow_cases g flow generation atTick with ⟨e, heq⟩ | ⟨r, l, counters, hr, hm, heq⟩
  · rw [heq]
    exact h
  · rw [heq]
    exact hP.evaluate _ _ r l atTick atTick hr (hE r l _ counters hm)
      (hP.counters _ _ (hP.retire g _ _ _ rfl h))

theorem Stepwise.sweepLoop (now : Tick) (hE : ∀ x (key : FlowKey) r, P x → x.flows[key]? = some r →
      x.sweeps r now = true → E x r now) (keys : List FlowKey) (acc : DecisionBatch × Governor)
    (h : P acc.2) : P (Governor.sweepLoop now keys acc).2 := by
  unfold Governor.sweepLoop
  induction keys generalizing acc with
  | nil => exact h
  | cons key keys ih =>
    rw [List.foldl_cons]
    apply ih
    unfold sweepFlow
    rcases hr : acc.2.flows[key]? with _ | r
    · exact h
    simp only
    split_ifs with hsweeps
    · have heval := hP.evaluate acc.2 key r r.ledger r.completedTick now hr
        (hE acc.2 key r h hr hsweeps) h
      rcases hd : acc.2.evaluateFlow key r now with ⟨e | d, g'⟩
      · rw [hd] at heval
        exact heval
      · rw [hd] at heval
        exact heval
    · exact h

end Stepwise

theorem sameSetting_evaluateFlow (g : Governor) (key : FlowKey) (record : FlowRecord) (now : Tick) :
    SameSetting g (g.evaluateFlow key record now).2 := by
  have h := (sameInputs_evaluate g record now).setting
  exact ⟨h.boot, h.capacities, h.paths⟩

theorem stepwise_sameSetting (g : Governor) : Stepwise (SameSetting g) fun _ _ _ => True where
  counters := fun _ _ h => ⟨h.boot, h.capacities, h.paths⟩
  evict := fun x key r _ h => by
    have hindex := h.trans (sameInputs_updateIndex x key r).setting
    exact ⟨hindex.boot, hindex.capacities, hindex.paths⟩
  create := fun _ _ h => ⟨h.boot, h.capacities, h.paths⟩
  retire := fun _ _ _ _ _ h => ⟨h.boot, h.capacities, h.paths⟩
  ledger := fun _ _ _ _ _ h => ⟨h.boot, h.capacities, h.paths⟩
  evaluate := fun x key _ _ _ now _ _ h => h.trans (sameSetting_evaluateFlow x key _ now)

section

variable (g : Governor) (s : FlowSample) (flow : FlowId) (generation : Generation)
  (atTick now : Tick)

theorem sameSetting_classification : SameSetting g (g.classification flow generation now).2 := by
  unfold classification
  rcases g.flows[(⟨flow, generation⟩ : FlowKey)]? with _ | record
  · exact .refl g
  have heval := sameSetting_evaluateFlow g ⟨flow, generation⟩ record now
  simp only
  rcases hd : g.evaluateFlow ⟨flow, generation⟩ record now with ⟨e | d, g'⟩
  · rw [hd] at heval
    exact heval
  · rw [hd] at heval
    exact heval

theorem sameSetting_explain : SameSetting g (g.explain flow generation now).2 := by
  unfold explain
  rcases g.flows[(⟨flow, generation⟩ : FlowKey)]? with _ | record
  · exact .refl g
  have heval := (sameInputs_evaluate g record now).setting
  simp only
  rcases hd : g.evaluate record now with ⟨e | d, g', record'⟩
  · rw [hd] at heval
    exact ⟨heval.boot, heval.capacities, heval.paths⟩
  · rw [hd] at heval
    exact ⟨heval.boot, heval.capacities, heval.paths⟩

theorem sameSetting_submitEvidence : SameSetting g (g.submitEvidence s).2 :=
  (stepwise_sameSetting g).submitEvidence (.refl g) fun _ _ _ _ _ _ _ _ _ _ => trivial

theorem sameSetting_completeFlow : SameSetting g (g.completeFlow flow generation atTick).2 :=
  (stepwise_sameSetting g).completeFlow (.refl g) fun _ _ _ _ _ => trivial

/-- A sweep leaves everything as it is, or starts by expiring the tables. -/
theorem tick_setting : SameSetting g (g.tick now).2 ∨
    SameSetting { g with capacities := g.capacities.expire now, paths := g.paths.expire now }
      (g.tick now).2 := by
  unfold tick
  split_ifs
  · exact .inl ⟨rfl, rfl, rfl⟩
  · exact .inl ⟨rfl, rfl, rfl⟩
  rcases g.tickGuard.observe now with e | guard
  · exact .inl ⟨rfl, rfl, rfl⟩
  · have hloop := (stepwise_sameSetting (g.beginSweep guard now).2).sweepLoop now
      (fun _ _ _ _ _ _ => trivial) g.flows.keys (g.beginSweep guard now) (.refl _)
    exact .inr ⟨hloop.boot, hloop.capacities, hloop.paths⟩

theorem tick_boot : (g.tick now).2.boot = g.boot := by
  rcases tick_setting g now with h | h
  · exact h.boot
  · exact h.boot

end

/-- No input changes the incarnation. -/
theorem take_boot (g : Governor) (i : Input) : (g.take i).boot = g.boot := by
  cases i with
  | policy p => exact (sameSetting_submitPolicy g p).boot
  | capacity c =>
    show (g.submitCapacity c).2.boot = _
    rcases submitCapacity_cases g c with ⟨e, counters, heq⟩ | ⟨table, counters, -, heq⟩
    · rw [heq]
    · rw [heq]
  | path p =>
    show (g.submitPath p).2.boot = _
    rcases submitPath_cases g p with ⟨e, counters, heq⟩ | ⟨table, counters, -, heq⟩
    · rw [heq]
    · rw [heq]
  | evidence s => exact (sameSetting_submitEvidence g s).boot
  | tick now => exact tick_boot g now

theorem restoreStable_boot (boot : BootIdentity) :
    RestoreStable (fun x : Governor => x.boot = boot) where

/-- A restore keeps the incarnation, also when it is refused half way. -/
theorem deserialize_boot (g : Governor) (bytes : Bytes) (now : Tick) :
    (g.deserialize bytes now).2.boot = g.boot := by
  unfold deserialize
  rcases readHeader g.boot bytes with e | ⟨header, rest⟩
  · rfl
  · exact (restoreStable_boot g.boot).keeps_restoreBody now header
      (keeps_restorePolicy (P := fun x : Governor => x.boot = g.boot) header.hasPolicy
        fun _ _ _ hx => hx) (g, rest) rfl

/-- A snapshot whose header is refused changes nothing. -/
theorem deserialize_of_header {bytes : Bytes} {e : Status} (h : readHeader g.boot bytes = .error e)
    (now : Tick) : g.deserialize bytes now = (.error e, g) := by
  unfold deserialize
  rw [h]

theorem readHeader_encodeHeader (g : Governor) (boot : BootIdentity) (rest : Bytes) :
    readHeader boot (g.encodeHeader.flatten ++ rest) =
      if ¬ boot.valid then
        makeStatus .invalidArgument "a fresh boot identity must be installed before restoring state"
      else if boot.boot = g.boot.boot then
        makeStatus .conflict "restoring state requires a boot identity distinct from the stored one"
      else if boot.epoch ≤ g.boot.epoch then
        makeStatus .epochMismatch "restoring state requires an epoch beyond the stored one"
      else .ok (⟨g.lastTick, g.classificationSequence, g.intentSequence, g.policy.isSome⟩, rest) := by
  have hbytes : g.encodeHeader.flatten ++ rest = le32 kSchemaVersion ++ (le32 1 ++ (le64 g.lastTick ++
      (le64 g.classificationSequence ++ (le64 g.intentSequence ++ (le64 g.boot.boot.value ++
      (le64 g.boot.epoch.value ++ (le64 g.boot.startedAt ++ (le64 g.boot.monotonicSeed ++
      (leBool g.policy.isSome ++ rest))))))))) := by
    simp only [encodeHeader, List.flatten_cons, List.flatten_nil, List.append_assoc, List.append_nil]
  rw [hbytes]
  unfold readHeader
  rw [bind_u32_apply, bind_u32_apply, if_neg (by simp), if_neg (by simp), bind_u64_apply,
    bind_u64_apply, bind_u64_apply, bind_u64_apply, bind_u64_apply, bind_u64_apply, bind_u64_apply]
  by_cases hvalid : ¬ boot.valid
  · rw [if_pos hvalid, if_pos hvalid]
    rfl
  rw [if_neg hvalid, if_neg hvalid]
  by_cases hboot : boot.boot = g.boot.boot
  · rw [if_pos hboot, if_pos hboot]
    rfl
  rw [if_neg hboot, if_neg hboot]
  by_cases hepoch : boot.epoch ≤ g.boot.epoch
  · rw [if_pos hepoch, if_pos hepoch]
    rfl
  rw [if_neg hepoch, if_neg hepoch, bind_bool_apply]
  rfl

end Governor

/-! ## Snapshot files -/

theorem readSnapshot_writeSnapshot {payload file : Bytes} {maxBytes : ℕ}
    (hwrite : writeSnapshot payload maxBytes = .ok file) (hsize : maxBytes < 2 ^ 64)
    (maxBytes' : ℕ) :
    readSnapshot file maxBytes' = if payload.length > maxBytes' then
      makeStatus .oversized "snapshot length exceeds the ceiling" else .ok payload := by
  unfold writeSnapshot at hwrite
  by_cases hlen : payload.length > maxBytes
  · rw [if_pos hlen] at hwrite
    cases hwrite
  rw [if_neg hlen] at hwrite
  cases hwrite
  set n := le64 (UInt64.ofNat payload.length)
  set crc := le32 (crc32c payload)
  have hmagic : kSnapshotMagic.length = 8 := rfl
  have hn : n.length = 8 := length_le64 _
  have hcrc : crc.length = 4 := length_le32 _
  have hfile : kSnapshotMagic ++ le32 kSchemaVersion ++ n ++ crc ++ payload =
      kSnapshotMagic ++ (le32 kSchemaVersion ++ (n ++ (crc ++ payload))) := by
    simp only [List.append_assoc]
  have hdrop8 : (kSnapshotMagic ++ (le32 kSchemaVersion ++ (n ++ (crc ++ payload)))).drop 8 =
      le32 kSchemaVersion ++ (n ++ (crc ++ payload)) := List.drop_left' hmagic
  have hdrop12 : (kSnapshotMagic ++ (le32 kSchemaVersion ++ (n ++ (crc ++ payload)))).drop 12 =
      n ++ (crc ++ payload) := by
    rw [← List.append_assoc]
    exact List.drop_left' (by simp [hmagic])
  have hdrop20 : (kSnapshotMagic ++ (le32 kSchemaVersion ++ (n ++ (crc ++ payload)))).drop 20 =
      crc ++ payload := by
    rw [← List.append_assoc, ← List.append_assoc]
    exact List.drop_left' (by simp [hmagic, hn])
  have hdrop24 : (kSnapshotMagic ++ (le32 kSchemaVersion ++ (n ++ (crc ++ payload)))).drop
      kSnapshotHeaderBytes = payload := by
    rw [← List.append_assoc, ← List.append_assoc, ← List.append_assoc]
    exact List.drop_left' (by simp [hmagic, hn, hcrc, kSnapshotHeaderBytes])
  have hvalue : leValue n = payload.length := by
    show leValue (leBytes 8 _) = _
    rw [leValue_leBytes, UInt64.toNat_ofNat']
    omega
  unfold readSnapshot
  rw [hfile]
  simp only [hdrop8, hdrop12, hdrop20, hdrop24]
  rw [if_neg (by simp [hmagic, hn, hcrc, kSnapshotHeaderBytes]; omega),
    if_neg (by rw [List.take_left' hmagic]; simp),
    if_neg (by rw [List.take_left' (length_le32 _), ofNat_leValue_le32]; simp),
    List.take_left' hn, hvalue, List.take_length, List.take_left' hcrc, ofNat_leValue_le32]
  simp

/-! ## The incarnation of a store -/

namespace DurableGovernor

theorem replayVisitor_cases (recoveryTick : Tick) (r : JournalRecord) (s : Recovery) :
    (replayVisitor recoveryTick r s).2.1 = s.1 ∨
    (∃ i : Input, (replayVisitor recoveryTick r s).2.1 = s.1.take i ∧ ∀ x, i = .evidence x →
      r.type = .flowClassified ∧
        ∃ rest, (decode : Decoder Status FlowSample) r.payload = .ok (x, rest)) ∨
    ∃ flow generation atTick,
      (replayVisitor recoveryTick r s).2.1 = (s.1.completeFlow flow generation atTick).2 := by
  obtain ⟨g, report⟩ := s
  show (replayPayload recoveryTick r g _).2.1 = g ∨ (∃ i : Input,
    (replayPayload recoveryTick r g _).2.1 = g.take i ∧ _) ∨ ∃ flow generation atTick,
      (replayPayload recoveryTick r g _).2.1 = _
  have hinput : ∀ (detail : String) (applied : Except Status Unit × Governor)
      (report : RecoveryReport), (replayInput r detail applied report).2.1 = applied.2 := by
    rintro detail ⟨e | ⟨⟩, g'⟩ report
    · unfold replayInput
      simp only
      split_ifs
      · rfl
      · rfl
    · rfl
  unfold replayPayload
  cases ht : r.type with
  | policyAccepted =>
    simp only
    rcases (decode : Decoder Status PolicyDocument) r.payload with e | ⟨p, _⟩
    · exact .inl rfl
    · exact .inr (.inl ⟨.policy p, hinput _ _ _, by simp⟩)
  | capacityAccepted =>
    simp only
    rcases (decode : Decoder Status ResourceCapacity) r.payload with e | ⟨c, _⟩
    · exact .inl rfl
    · exact .inr (.inl ⟨.capacity c, hinput _ _ _, by simp⟩)
  | pathAccepted =>
    simp only
    rcases (decode : Decoder Status PathDescriptor) r.payload with e | ⟨p, _⟩
    · exact .inl rfl
    · exact .inr (.inl ⟨.path p, hinput _ _ _, by simp⟩)
  | flowClassified =>
    simp only
    rcases hx : (decode : Decoder Status FlowSample) r.payload with e | ⟨x, rest⟩
    · exact .inl rfl
    refine .inr (.inl ⟨.evidence x, ?_, ?_⟩)
    · show _ = (g.submitEvidence x).2
      simp only
      rcases g.submitEvidence x with ⟨e | d, g'⟩
      · simp only
        split_ifs
        · rfl
        · rfl
      · rfl
    · rintro y ⟨⟩
      exact ⟨trivial, rest, rfl⟩
  | flowTransition =>
    simp only
    rcases decodeCompletion r.payload with e | ⟨⟨key, atTick⟩, _⟩
    · exact .inl rfl
    refine .inr (.inr ⟨key.flow, key.generation, atTick, ?_⟩)
    simp only
    rcases g.completeFlow key.flow key.generation atTick with ⟨e | ⟨⟩, g'⟩
    · simp only
      split_ifs
      · rfl
      · rfl
    · rfl
  | tickCommitted =>
    simp only
    rcases (Decoder.u64 (truncated "tick record is truncated")) r.payload with e | ⟨t, _⟩
    · exact .inl rfl
    · simp only
      split_ifs
      · exact .inr (.inl ⟨.tick t, rfl, by simp⟩)
      · exact .inl rfl
  | _ => exact .inl rfl

theorem keeps_replayVisitor_boot (boot : BootIdentity) (recoveryTick : Tick) (r : JournalRecord) :
    Fallible.Keeps (fun s : Recovery => s.1.boot = boot) (replayVisitor recoveryTick r) := by
  intro s hs
  rcases replayVisitor_cases recoveryTick r s with heq | ⟨i, heq, -⟩ | ⟨flow, generation, atTick, heq⟩
  · rw [heq]
    exact hs
  · rw [heq]
    exact (Governor.take_boot s.1 i).trans hs
  · rw [heq]
    exact (Governor.sameSetting_completeFlow s.1 flow generation atTick).boot.trans hs

/-- The state from which a recovery without a snapshot starts. -/
def freshRecovery (config : GovernorConfig) (boot : BootIdentity) (tick : Tick) : Recovery :=
  ((Governor.make config).setIncarnation boot,
    { recoveryTick := tick, currentBoot := boot.boot, currentEpoch := boot.epoch })

variable {recoveryTick tick : Tick} {s s' : Recovery} {options : DurableOptions}
  {config : GovernorConfig} {boot : BootIdentity} {d : DurableGovernor} {g : Governor}

/-- What a replay without a fatal error leaves. -/
theorem replayIntoGovernor_eq_ok {file : Bytes}
    (h : replayIntoGovernor recoveryTick file s = .ok s') :
    s'.1 = (replay (replayVisitor recoveryTick) (some file) s).2.2.1 := by
  unfold replayIntoGovernor at h
  rcases hrun : replay (replayVisitor recoveryTick) (some file) s with ⟨e | ⟨⟩, stats, t⟩
  · rw [hrun] at h
    simp only at h
    by_cases hfatal : e.code = .integrityFailure
    · rw [if_pos hfatal] at h
      cases h
      rfl
    · rw [if_neg hfatal] at h
      cases h
  · rw [hrun] at h
    cases h
    rfl

/-- The steps of a successful open. -/
theorem openStore_eq_ok {disk : Disk} :
    openStore disk options config boot recoveryTick = .ok d ↔
      boot.valid = true ∧ ∃ s s' journal journal',
        recoverSnapshot disk.snapshot options.maxSnapshotBytes recoveryTick
          ((Governor.make config).setIncarnation boot)
          { recoveryTick := recoveryTick, currentBoot := boot.boot, currentEpoch := boot.epoch } =
            .ok s ∧
        openJournal disk.journal options.journal = .ok journal ∧
        replayIntoGovernor recoveryTick journal.file s = .ok s' ∧
        journal.append .beginStore [] = .ok journal' ∧
        d = { options := options
              governor := s'.1
              journal := journal'
              snapshot := disk.snapshot
              report := reportCounters s'.2 s'.1.counters } := by
  unfold openStore
  by_cases hvalid : ¬ boot.valid
  · rw [if_pos hvalid]
    constructor
    · intro h
      cases h
    · rintro ⟨h, -⟩
      exact absurd h hvalid
  rw [if_neg hvalid]
  constructor
  · intro h
    refine ⟨not_not.mp hvalid, ?_⟩
    simp only at h
    split at h
    · cases h
    rename_i s hs
    split at h
    · cases h
    rename_i journal hj
    split at h
    · cases h
    rename_i s' hs'
    split at h
    · cases h
    rename_i journal' hj'
    cases h
    exact ⟨s, s', journal, journal', hs, hj, hs', hj', rfl⟩
  · rintro ⟨-, s, s', journal, journal', hs, hj, hs', hj', rfl⟩
    simp only [hs, hj, hs', hj']

/-- A replay whose visitor accepts every record is not fatal, unless it meets a record that claims
to be larger than the ceiling. -/
theorem replayIntoGovernor_of_ok (area : Bytes)
    (h : Fallible.forEach (replayVisitor recoveryTick) (scanned area).1 s = (.ok (), s'))
    (hstop : ∀ e, (scanned area).2 ≠ .oversized e) :
    ∃ report, replayIntoGovernor recoveryTick (journalHeader ++ area) s = .ok (s'.1, report) := by
  obtain ⟨hstatus, hstate⟩ := replay_eq (replayVisitor recoveryTick) area s
  rw [h] at hstatus hstate
  unfold replayIntoGovernor
  rcases hrun : replay (replayVisitor recoveryTick) (some (journalHeader ++ area)) s with
    ⟨e | ⟨⟩, stats, t⟩
  · rw [hrun] at hstatus hstate
    cases hstate
    have hcode : e.code = .integrityFailure := by
      unfold replayStatus Parsed.status at hstatus
      rcases hp : (scanned area).2 with _ | _ | e' | _ | ⟨r, rest⟩
      · rw [hp] at hstatus
        cases hstatus
      · rw [hp] at hstatus
        cases hstatus
      · exact absurd hp (hstop e')
      · rw [hp] at hstatus
        cases hstatus
        rfl
      · rw [hp] at hstatus
        cases hstatus
    simp only
    rw [if_pos hcode]
    exact ⟨_, rfl⟩
  · rw [hrun] at hstate
    cases hstate
    exact ⟨_, rfl⟩

/-- The snapshot step of an open that succeeds. -/
theorem recoverSnapshot_cases {snapshot : Option Bytes} {maxBytes : ℕ} {report : RecoveryReport}
    (h : recoverSnapshot snapshot maxBytes tick g report = .ok s) :
    ((∀ file, snapshot = some file → isOk (readSnapshot file maxBytes) = false) ∧ s.1 = g) ∨
    ∃ file payload, snapshot = some file ∧ readSnapshot file maxBytes = .ok payload ∧
      s.1 = (g.deserialize payload tick).2 ∧
      ∀ e, (g.deserialize payload tick).1 = .error e → finalRefusal e.code = false := by
  unfold recoverSnapshot at h
  rcases snapshot with _ | file
  · cases h
    exact .inl ⟨by simp, rfl⟩
  simp only at h
  rcases hread : readSnapshot file maxBytes with e | payload
  · rw [hread] at h
    cases h
    refine .inl ⟨fun f hf => ?_, rfl⟩
    cases hf
    rw [hread]
    rfl
  rw [hread] at h
  refine .inr ⟨file, payload, rfl, hread, ?_⟩
  simp only at h
  rcases hd : g.deserialize payload tick with ⟨e | ⟨⟩, g'⟩
  · rw [hd] at h
    simp only at h
    by_cases hfinal : finalRefusal e.code = true
    · rw [if_pos hfinal] at h
      cases h
    · rw [if_neg hfinal] at h
      cases h
      refine ⟨rfl, fun e' he' => ?_⟩
      cases he'
      simpa using hfinal
  · rw [hd] at h
    cases h
    exact ⟨rfl, fun e' he' => by cases he'⟩

theorem openStore_boot {disk : Disk} (h : openStore disk options config boot recoveryTick = .ok d) :
    d.governor.boot = boot := by
  obtain ⟨-, s, s', journal, journal', hs, -, hs', -, rfl⟩ := openStore_eq_ok.mp h
  have hboot : s.1.boot = boot := by
    rcases recoverSnapshot_cases hs with ⟨-, heq⟩ | ⟨file, payload, -, -, heq, -⟩
    · rw [heq]
      rfl
    · rw [heq, Governor.deserialize_boot]
      rfl
  show s'.1.boot = boot
  rw [replayIntoGovernor_eq_ok hs']
  exact replay_keeps _ (keeps_replayVisitor_boot boot recoveryTick) (some journal.file) hboot

/-! ## The snapshot of a run -/

/-- The file was written by a governor of the incarnation, below the ceiling. -/
def WrittenBy (boot : BootIdentity) (maxBytes : ℕ) (file : Bytes) : Prop :=
  ∃ g : Governor, g.boot = boot ∧
    writeSnapshot (g.encodeHeader ++ g.encodeBody).flatten maxBytes = .ok file

/-- What a compaction may leave in place of the snapshot. -/
theorem compactSnapshot_cases (d : DurableGovernor) :
    d.compactSnapshot.2 = d ∨ ∃ file, WrittenBy d.governor.boot d.options.maxSnapshotBytes file ∧
      ∃ journal records, d.compactSnapshot.2 =
        { d with snapshot := some file, journal := journal, recordsSinceSnapshot := records } := by
  unfold compactSnapshot
  rcases hpayload : d.encodeSnapshot with e | payload
  · exact .inl rfl
  simp only
  rcases hfile : writeSnapshot payload d.options.maxSnapshotBytes with e | file
  · exact .inl rfl
  have hwritten : WrittenBy d.governor.boot d.options.maxSnapshotBytes file := by
    refine ⟨d.governor, rfl, ?_⟩
    rw [← hfile]
    congr 1
    unfold encodeSnapshot Governor.serialize at hpayload
    simp only at hpayload
    by_cases hover : (({ ceiling := d.options.maxSnapshotBytes } : ByteWriter).writeAll
        (d.governor.encodeHeader ++ d.governor.encodeBody)).overflowed = true
    · rw [if_pos hover] at hpayload
      cases hpayload
    · rw [if_neg hover] at hpayload
      cases hpayload
      rw [ByteWriter.writeAll_buffer (by simpa using hover)]
      rfl
  refine .inr ⟨file, hwritten, ?_⟩
  simp only
  rcases d.journal.append .snapshot [] with e | journal
  · exact ⟨_, _, rfl⟩
  · exact ⟨_, _, rfl⟩

/-- An operation keeps the incarnation and the options, and it leaves the snapshot alone or
replaces it by one of this incarnation. -/
structure Continues (d d' : DurableGovernor) : Prop where
  boot : d'.governor.boot = d.governor.boot
  options : d'.options = d.options
  snapshot : d'.snapshot = d.snapshot ∨
    ∃ file, d'.snapshot = some file ∧ WrittenBy d.governor.boot d.options.maxSnapshotBytes file

theorem Continues.refl (d : DurableGovernor) : Continues d d := ⟨rfl, rfl, .inl rfl⟩

theorem Continues.trans {d₁ d₂ d₃ : DurableGovernor} (h : Continues d₁ d₂) (h' : Continues d₂ d₃) :
    Continues d₁ d₃ := by
  refine ⟨h'.boot.trans h.boot, h'.options.trans h.options, ?_⟩
  rcases h'.snapshot with heq | ⟨file, heq, hfile⟩
  · rw [heq]
    exact h.snapshot
  · rw [h.boot, h.options] at hfile
    exact .inr ⟨file, heq, hfile⟩

/-- The steps that do not touch the snapshot. -/
theorem continues_of_boot (hg : g.boot = d.governor.boot) (journal : Journal) (records : UInt64) :
    Continues d { d with governor := g, journal := journal, recordsSinceSnapshot := records } :=
  ⟨hg, rfl, .inl rfl⟩

theorem continues_compactSnapshot (d : DurableGovernor) : Continues d d.compactSnapshot.2 := by
  rcases compactSnapshot_cases d with heq | ⟨file, hfile, journal, records, heq⟩
  · rw [heq]
    exact .refl d
  · rw [heq]
    exact ⟨rfl, rfl, .inr ⟨file, rfl, hfile⟩⟩

theorem continues_recordInput (d : DurableGovernor) (type : RecordType) (chunks : List Bytes)
    (tooLarge : String) {apply : Governor → Except Status Unit × Governor}
    (happly : (apply d.governor).2.boot = d.governor.boot) :
    Continues d (d.recordInput type chunks tooLarge apply).2 := by
  unfold recordInput
  split_ifs
  · exact .refl d
  rcases ha : apply d.governor with ⟨e | ⟨⟩, g⟩
  · rw [ha] at happly
    exact continues_of_boot happly d.journal d.recordsSinceSnapshot
  · rw [ha] at happly
    simp only
    rcases d.journal.append type chunks.flatten with e | journal
    · exact continues_of_boot happly d.journal d.recordsSinceSnapshot
    · exact continues_of_boot happly journal _

theorem continues_record (d : DurableGovernor) (i : Input) : Continues d (d.record i) := by
  cases i with
  | policy p => exact continues_recordInput d _ _ _ (Governor.take_boot d.governor (.policy p))
  | capacity c => exact continues_recordInput d _ _ _ (Governor.take_boot d.governor (.capacity c))
  | path p => exact continues_recordInput d _ _ _ (Governor.take_boot d.governor (.path p))
  | evidence s =>
    show Continues d (d.recordEvidence s).2
    unfold recordEvidence
    split_ifs
    · exact .refl d
    rcases d.journal.append .flowClassified (encode s).flatten with e | journal
    · exact .refl d
    · have hstep := continues_of_boot (Governor.take_boot d.governor (.evidence s)) journal
        (d.recordsSinceSnapshot + 1)
      simp only
      split_ifs
      · exact hstep.trans (continues_compactSnapshot _)
      · exact hstep
  | tick now =>
    show Continues d (d.recordTick now).2
    unfold recordTick
    rcases d.journal.append .tickCommitted (le64 now) with e | journal
    · exact .refl d
    · exact continues_of_boot (Governor.take_boot d.governor (.tick now)) journal _

/-- Every operation continues the store. -/
theorem continues_exec (d : DurableGovernor) (cmd : DurableCommand) : Continues d (d.exec cmd) := by
  cases cmd with
  | record i => exact continues_record d i
  | compactSnapshot => exact continues_compactSnapshot d
  | completeFlow flow generation atTick =>
    exact continues_of_boot (Governor.sameSetting_completeFlow d.governor flow generation atTick).boot d.journal
      d.recordsSinceSnapshot
  | close =>
    show Continues d d.close
    unfold close
    rcases d.journal.append .shutdown [] with e | journal
    · exact .refl d
    · exact continues_of_boot rfl journal d.recordsSinceSnapshot

theorem continues_run (d : DurableGovernor) (cmds : List DurableCommand) :
    Continues d (d.run cmds) := by
  unfold run
  induction cmds generalizing d with
  | nil => exact .refl d
  | cons cmd cmds ih =>
    rw [List.foldl_cons]
    exact (continues_exec d cmd).trans (ih _)

/-- Once a run has replaced the snapshot file, only a later incarnation opens the store, as long as
it reads the file at all. -/
theorem reopened_ordered {disk : Disk} {options options' : DurableOptions}
    {config config' : GovernorConfig} {boot boot' : BootIdentity} {tick tick' : Tick}
    {d d' : DurableGovernor} {file : Bytes} (cmds : List DurableCommand)
    (hsize : options.maxSnapshotBytes < 2 ^ 64)
    (hopen : openStore disk options config boot tick = .ok d)
    (hfile : (d.run cmds).snapshot = some file) (hnew : disk.snapshot ≠ some file)
    (hread : isOk (readSnapshot file options'.maxSnapshotBytes) = true)
    (hreopen : openStore (d.run cmds).disk options' config' boot' tick' = .ok d') :
    boot'.boot ≠ boot.boot ∧ boot.epoch < boot'.epoch := by
  have hboot := openStore_boot hopen
  obtain ⟨-, _, _, _, _, -, -, -, -, rfl⟩ := openStore_eq_ok.mp hopen
  obtain ⟨g, hg, hwrite⟩ : WrittenBy boot options.maxSnapshotBytes file := by
    rcases (continues_run _ cmds).snapshot with heq | ⟨file', heq, hwritten⟩
    · exact absurd (heq.symm.trans hfile) hnew
    · rw [hfile] at heq
      cases heq
      rw [← hboot]
      exact hwritten
  obtain ⟨hvalid, s, -, -, -, hs, -⟩ := openStore_eq_ok.mp hreopen
  -- the file reads back as the bytes of a governor of the first incarnation
  have hpayload := readSnapshot_writeSnapshot hwrite hsize options'.maxSnapshotBytes
  rcases recoverSnapshot_cases hs with ⟨hno, -⟩ | ⟨file', payload, hfile', hread', -, hfinal⟩
  · rw [hno file hfile] at hread
    cases hread
  have hsame : file' = file := Option.some.inj (hfile'.symm.trans hfile)
  rw [hsame, hpayload] at hread'
  by_cases hlarge : (g.encodeHeader ++ g.encodeBody).flatten.length > options'.maxSnapshotBytes
  · rw [if_pos hlarge] at hread'
    cases hread'
  rw [if_neg hlarge] at hread'
  cases hread'
  -- so the header check of the second open has compared the two incarnations
  have hheader := Governor.readHeader_encodeHeader g boot' g.encodeBody.flatten
  rw [if_neg (by simp [hvalid]), hg, ← List.flatten_append] at hheader
  have hrefused : ∀ (code : StatusCode) (message : String), Governor.readHeader boot'
      (g.encodeHeader ++ g.encodeBody).flatten = makeStatus code message →
      finalRefusal code = false := by
    intro code message he
    have hdeserialize := Governor.deserialize_of_header
      (g := (Governor.make config').setIncarnation boot') he tick'
    exact hfinal ⟨code, message⟩ (congrArg Prod.fst hdeserialize)
  by_cases hsameBoot : boot'.boot = boot.boot
  · rw [if_pos hsameBoot] at hheader
    exact absurd (hrefused _ _ hheader) (by decide)
  rw [if_neg hsameBoot] at hheader
  refine ⟨hsameBoot, ?_⟩
  by_contra hepoch
  have hle : boot'.epoch ≤ boot.epoch := by
    rw [StrongId.lt_iff] at hepoch
    rw [StrongId.le_iff]
    exact UInt64.not_lt.mp hepoch
  rw [if_pos hle] at hheader
  exact absurd (hrefused _ _ hheader) (by decide)

theorem openStore_empty (h : openStore {} options config boot tick = .ok d) :
    d.options = options ∧ d.snapshot = none ∧
      d.governor = (Governor.make config).setIncarnation boot ∧
      ({ file := journalHeader, options := options.journal
         sizeBytes := UInt64.ofNat journalHeader.length } : Journal).append .beginStore [] =
        .ok d.journal := by
  obtain ⟨-, s, s', journal, journal', hs, hj, hs', hj', rfl⟩ := openStore_eq_ok.mp h
  cases hs
  unfold openJournal at hj
  by_cases hopt : options.journal.maxRecordBytes = 0 ∨
      options.journal.maxRecordBytes > kMaxJournalRecordBytes
  · rw [if_pos hopt] at hj
    cases hj
  rw [if_neg hopt] at hj
  cases hj
  refine ⟨rfl, rfl, ?_, hj'⟩
  have hreplay := replayIntoGovernor_eq_ok hs'
  have hstate := (replay_eq (replayVisitor tick) []
    ((Governor.make config).setIncarnation boot, ({ recoveryTick := tick, currentBoot := boot.boot
                                                    currentEpoch := boot.epoch } : RecoveryReport))).2
  rw [List.append_nil] at hstate
  rw [hstate] at hreplay
  exact hreplay

/-- A store without a snapshot whose records are replayed opens. -/
theorem openStore_of_records (options : DurableOptions) (config : GovernorConfig)
    {rs : List JournalRecord} {tail : Bytes}
    (hvalid : boot.valid = true) (hrs : ∀ r ∈ rs, r.Writable)
    (htail : (scanned tail).1 = [] ∧ ∀ e, (scanned tail).2 ≠ .oversized e)
    (hrun : Fallible.forEach (replayVisitor tick) rs (freshRecovery config boot tick) =
      (.ok (), s'))
    (hopt : ¬ (options.journal.maxRecordBytes = 0 ∨
      options.journal.maxRecordBytes > kMaxJournalRecordBytes))
    (hroom : ({ file := journalHeader ++ (recordArea rs ++ tail), options := options.journal
                sequence := lastSequence rs
                sizeBytes := UInt64.ofNat (journalHeader ++ (recordArea rs ++ tail)).length } :
      Journal).Takes []) :
    ∃ d, openStore ⟨none, some (journalHeader ++ (recordArea rs ++ tail))⟩ options config boot tick =
      .ok d ∧ d.governor = s'.1 := by
  have hscan : (scanned (recordArea rs ++ tail)).1 = rs ∧
      (scanned (recordArea rs ++ tail)).2 = (scanned tail).2 := by
    rw [scanned_recordArea hrs, htail.1, List.append_nil]
    exact ⟨rfl, rfl⟩
  have hj := openJournal_of_header (recordArea rs ++ tail) hopt
  rw [hscan.1] at hj
  rw [← hscan.1] at hrun
  obtain ⟨report, hs'⟩ := replayIntoGovernor_of_ok (recordArea rs ++ tail) hrun
    (by rw [hscan.2]; exact htail.2)
  obtain ⟨journal', hj'⟩ := (Journal.append_isOk_iff _ (by decide : RecordType.beginStore ≠ .count)
    []).mpr hroom
  exact ⟨_, openStore_eq_ok.mpr ⟨hvalid, _, _, _, journal', rfl, hj, hs', hj', rfl⟩, rfl⟩

open Governor Scenario

/-- Without a snapshot the same incarnation opens the store twice: the journal does not name it. -/
theorem reopened_unordered : ∃ d d' : DurableGovernor,
    openStore {} {} {} Scenario.boot 0 = .ok d ∧
      openStore d.disk {} {} Scenario.boot 0 = .ok d' := by
  obtain ⟨d, hd, d', hd'⟩ : ∃ d, openStore {} {} {} Scenario.boot 0 = .ok d ∧
      ∃ d', openStore d.disk {} {} Scenario.boot 0 = .ok d' := by decide +kernel
  exact ⟨d, d', hd, hd'⟩

set_option maxRecDepth 4000 in
/-- A store that is compacted and then opened by the second incarnation. -/
theorem reopened_ordered_compacted : ∃ d d' : DurableGovernor,
    openStore {} {} {} Scenario.boot 0 = .ok d ∧
      openStore (d.run [.compactSnapshot]).disk {} {} reboot 0 = .ok d' ∧
      reboot.boot ≠ Scenario.boot.boot ∧
      Scenario.boot.epoch < reboot.epoch := by
  obtain ⟨d, hd, d', hd', file, hfile, hread⟩ : ∃ d, openStore {} {} {} Scenario.boot 0 = .ok d ∧
      ∃ d', openStore (d.run [.compactSnapshot]).disk {} {} reboot 0 = .ok d' ∧
      ∃ file, (d.run [.compactSnapshot]).snapshot = some file ∧
        isOk (readSnapshot file ({} : DurableOptions).maxSnapshotBytes) = true := by decide +kernel
  exact ⟨d, d', hd, hd',
    reopened_ordered [.compactSnapshot] (by decide) hd hfile (by simp) hread hd'⟩

end DurableGovernor

end EFG
