/-
# What a restore does with a snapshot

The restore reads and rebuilds at once.  Here the two are told apart: `load stored
now` does with the parts of a stored governor what the restore does with the values
it reads, and no bytes occur in it.  In front of the encoding of a governor that the
format can hold (`Legible`) the restore is this plain computation
(`deserialize_of_legible`), so every question about a snapshot of such a governor is
a question about `load`.
-/
import ElephantFlow.Reading
import ElephantFlow.Storable

namespace EFG

open ByteCodec Fallible Fallible

namespace Governor

variable {stored g : Governor} {r : FlowRecord} {now : Tick}

/-! ## The plain restore -/

/-- A collection within its ceiling, item by item. -/
def loadAll {σ κ : Type} (tooMany : Status) (ceiling : ℕ) (before : σ → σ)
    (body : κ → Fallible Status σ Unit) (ks : List κ) : Fallible Status σ Unit := do
  ensure (ks.length ≤ ceiling) tooMany
  modify before
  forEach body ks

/-- The stored policy must be valid and have exit rules. -/
def loadPolicy (policy : Option PolicyDocument) : Fallible Status Governor Unit := do
  modify fun g => { g with policy := none, exitRules := {} }
  match policy with
  | none => pure ()
  | some p =>
    lift p.validate
    let exitRules ← lift (effectiveExitRule p)
    modify fun g => { g with policy := some p, exitRules := exitRules }

/-- A stored window is appended again. -/
def loadSample (s : FlowSample) : Fallible Status FlowRecord Unit := fun r =>
  match r.ledger.append s with
  | (.ok _, ledger) => (.ok (), { r with ledger := ledger })
  | (.error _, ledger) =>
    (makeStatus .corrupt "restored evidence window does not satisfy ledger invariants",
      { r with ledger := ledger })

/-- A stored transition is recorded again. -/
def loadTransition (t : ClassificationTransition) : Fallible Status FlowRecord Unit :=
  update fun r => (r.history.record t).map fun h => { r with history := h }

/-- The stored streaks, the last evaluation and the completion tick. -/
def loadScalars (stored r : FlowRecord) : FlowRecord :=
  { r with
    enterStreak := stored.enterStreak
    exitStreak := stored.exitStreak
    evaluatedTick := stored.evaluatedTick
    evaluatedWindow := stored.evaluatedWindow
    completedTick := stored.completedTick }

/-- A stored completion is marked again, behind the windows. -/
def loadCompletion (ledger : FlowLedger) : Fallible Status FlowRecord Unit :=
  if ledger.completed then
    update fun r => (r.ledger.markCompleted ledger.completedAt).map fun l =>
      { r with ledger := l }
  else pure ()

/-- The stored history: no entry may be folded, and the digest must come out again. -/
def loadHistory (h : ClassificationHistory) : Fallible Status FlowRecord Unit := do
  loadAll (oversize "restored transition population exceeds the ceiling") kMaxHistoryPerFlow id
    loadTransition h.entries
  ensure (h.foldedCount = 0)
    ⟨.unsupported, "restored history with folded transitions is not supported"⟩
  let digest ← gets fun r => r.history.digest
  ensure (h.digest = digest)
    ⟨.integrityFailure, "restored classification history digest does not match"⟩

/-- The stored classification is put in place last. -/
def loadClassification (stored : FlowRecord) : Fallible Status FlowRecord Unit :=
  if stored.hasClassification then
    modify fun r =>
      { r with classification := stored.classification, hasClassification := true }
  else pure ()

/-- The content of a stored record. -/
def loadRecord (stored : FlowRecord) : Fallible Status FlowRecord Unit := do
  modify (loadScalars stored)
  loadAll (oversize "restored sample population exceeds the ceiling") kMaxSamplesPerFlow id
    loadSample stored.ledger.samples
  loadCompletion stored.ledger
  loadHistory stored.history
  loadClassification stored

/-- The stored record of a flow, created first. -/
def loadInto (stored : FlowRecord) (key : FlowKey) : Fallible Status Governor Unit := do
  modify fun g => g.createFlow key
  zoom (fun g => g.flows[key]?.getD (g.freshRecord key)) (fun g r => g.setFlow key r)
    (loadRecord stored)

/-- A stored flow. -/
def loadFlow (entry : FlowKey × FlowRecord) : Fallible Status Governor Unit := do
  ensure (entry.1.flow.valid && entry.1.generation.valid)
    (badValue "restored flow identity is invalid")
  loadInto entry.2 entry.1

/-- A stored intent is recorded again. -/
def loadIntent (i : GovernanceIntent) : Fallible Status IntentLedger Unit := fun l =>
  match l.record i with
  | (.ok _, l) => (.ok (), l)
  | (.error e, l) => (.error e, l)

/-- The stored capacity snapshots. -/
def loadCapacities (capacities : List ResourceCapacity) : Fallible Status Governor Unit :=
  zoom Governor.capacities (fun g t => { g with capacities := t })
    (loadAll (oversize "restored capacity population exceeds the ceiling") kMaxResources
      (fun _ => {}) (fun c => update fun t => t.submit c) capacities)

/-- The stored path descriptors. -/
def loadPaths (paths : List PathDescriptor) : Fallible Status Governor Unit :=
  zoom Governor.paths (fun g t => { g with paths := t })
    (loadAll (oversize "restored path population exceeds the ceiling") kMaxPaths
      (fun _ => {}) (fun p => update fun t => t.submit p) paths)

/-- The stored tables. -/
def loadTables (capacities : CapacityTable) (paths : PathTable) : Fallible Status Governor Unit := do
  loadCapacities capacities.entries.values
  loadPaths paths.entries.values

/-- The stored flows. -/
def loadFlows (flows : List (FlowKey × FlowRecord)) : Fallible Status Governor Unit := do
  let maxFlows ← gets fun g => g.config.maxFlows
  loadAll (oversize "restored flow population exceeds the configured ceiling") maxFlows
    (fun g => { g with
      flows := ∅, highestGeneration := ∅, bindingIndex := ∅, resourceAggregate := ∅ })
    loadFlow flows

/-- The stored intents. -/
def loadIntents (intents : List GovernanceIntent) : Fallible Status Governor Unit := do
  let maxIntents ← gets fun g => g.config.maxIntents
  zoom Governor.intents (fun g l => { g with intents := l })
    (loadAll (oversize "restored intent population exceeds the ceiling") maxIntents
      (fun _ => { maxIntents := maxIntents, maxAttempts := kMaxAttempts }) loadIntent intents)

/-- The scalars that a governor stores. -/
def header (stored : Governor) : SnapshotHeader where
  lastTick := stored.lastTick
  classificationSequence := stored.classificationSequence
  intentSequence := stored.intentSequence
  hasPolicy := stored.policy.isSome

/-- What a restore does with the parts of a stored governor. -/
def load (stored : Governor) (now : Tick) : Fallible Status Governor Unit := do
  loadPolicy stored.policy
  loadTables stored.capacities stored.paths
  loadFlows stored.flows.toList
  loadIntents stored.intents.allIntents
  modify fun g => g.withHeader stored.header now
  resumeAfterRestore now

/-! ## The steps of a restore that read nothing -/

theorem attempt_eq_onFirst {σ : Type} (f : σ → Except Status σ) :
    attempt f = onFirst (update f) := by
  funext s
  unfold attempt onFirst update
  dsimp only
  cases f s.1 with
  | error e => rfl
  | ok x => rfl

theorem reads_focus {σ τ : Type} {part : σ → τ} {put : σ → τ → σ} {m : Restore τ Unit}
    {plain : Fallible Status τ Unit} {bs : Bytes} (h : Reads m bs plain) :
    Reads (focus part put m) bs (zoom part put plain) := by
  intro s rest
  obtain ⟨left, heq, hleft⟩ := h (part s) rest
  refine ⟨left, ?_, hleft⟩
  unfold focus zoom
  rw [heq]

/-- A counted collection whose number fits its count. -/
theorem reads_counted {σ κ : Type} {missing tooMany : Status} {ceiling : ℕ} {before : σ → σ}
    {item : Restore σ Unit} {enc : κ → Bytes} {body : κ → Fallible Status σ Unit} {ks : List κ}
    (hsize : ks.length < 2 ^ 32) (hitem : ∀ k ∈ ks, Reads item (enc k) (body k)) :
    Reads (counted missing tooMany ceiling before item)
      (le32 (UInt32.ofNat ks.length) ++ ks.flatMap enc)
      (loadAll tooMany ceiling before body ks) := by
  have hlength : (UInt32.ofNat ks.length).toNat = ks.length := UInt32.toNat_ofNat_of_lt' hsize
  refine Reads.value (decodes_u32 _ _) ?_
  rw [hlength]
  exact .step (ensure_eq_onFirst _ _) fun _ => .step rfl fun _ => reads_times hitem

/-! ## Reading one record -/

theorem reads_restoreSample {s : FlowSample} (h : Wire.Fits s) :
    Reads restoreSample (encoded s) (loadSample s) := by
  rw [← List.append_nil (encoded s)]
  refine Reads.value (decodes_encoded h) ((reads_onFirst _).congr ?_)
  funext x
  unfold onFirst loadSample
  dsimp only
  rcases x.1.ledger.append s with ⟨_ | _, ledger⟩
  · rfl
  · rfl

theorem reads_restoreTransition (t : ClassificationTransition) :
    Reads restoreTransition (encoded t) (loadTransition t) := by
  have hfits : Wire.Fits t := trivial
  rw [← List.append_nil (encoded t)]
  exact Reads.value (decodes_encoded hfits) ((reads_onFirst _).congr (attempt_eq_onFirst _))

/-- The parts of a stored record that the format bounds. -/
structure LegibleRecord (r : FlowRecord) : Prop where
  samples : r.ledger.samples.length < 2 ^ 32 ∧ ∀ s ∈ r.ledger.samples, Wire.Fits s
  history : r.history.entries.length < 2 ^ 32
  classification : r.hasClassification = true → Wire.Fits r.classification

theorem reads_restoreSamples (h : LegibleRecord r) :
    Reads restoreSamples
      (le32 (UInt32.ofNat r.ledger.samples.length) ++ r.ledger.samples.flatMap encoded)
      (loadAll (oversize "restored sample population exceeds the ceiling") kMaxSamplesPerFlow id
        loadSample r.ledger.samples) :=
  reads_counted h.samples.1 fun s hs => reads_restoreSample (h.samples.2 s hs)

theorem restoreCompletion_eq_onFirst (l : FlowLedger) :
    restoreCompletion l.completed l.completedAt = onFirst (loadCompletion l) := by
  unfold restoreCompletion loadCompletion
  split_ifs
  · exact attempt_eq_onFirst _
  · rfl

theorem restoreClassification_eq_onFirst (r : FlowRecord) :
    restoreClassification r.hasClassification r.classification = onFirst (loadClassification r) := by
  unfold restoreClassification loadClassification
  split_ifs
  · rfl
  · rfl

theorem reads_restoreHistory (h : LegibleRecord r) :
    Reads restoreHistory
      ((le32 (UInt32.ofNat r.history.entries.length) ++ r.history.entries.flatMap encoded) ++
        (le64 r.history.digest ++ le64 r.history.foldedCount))
      (loadHistory r.history) := by
  refine (reads_counted h.history fun t _ => reads_restoreTransition t).bind fun _ => ?_
  refine Reads.value (decodes_u64 _ _) ?_
  rw [← List.append_nil (le64 r.history.foldedCount)]
  refine Reads.value (decodes_u64 _ _) ?_
  refine .step (ensure_eq_onFirst _ _) fun _ => .step rfl fun digest => ?_
  exact (reads_onFirst _).congr (ensure_eq_onFirst _ _)

/-- The bytes of the scalars of a record. -/
def scalarBytes (r : FlowRecord) : Bytes :=
  le32 r.enterStreak ++ (le32 r.exitStreak ++ (le64 r.evaluatedTick ++
    (le64 r.evaluatedWindow.value ++ (le64 r.completedTick ++ (leBool r.ledger.completed ++
    (le64 r.ledger.completedAt ++ leBool r.ledger.gapDetected))))))

/-- The scalars of a record, read one by one, are put in place together. -/
theorem restoreScalars_apply (stored x : FlowRecord) (rest : Bytes) :
    restoreScalars (x, scalarBytes stored ++ rest) =
      (.ok (stored.ledger.completed, stored.ledger.completedAt), (loadScalars stored x, rest)) := by
  unfold restoreScalars scalarBytes
  simp only [List.append_assoc]
  rw [bind_read_apply (decodes_u32 _ _)]
  refine Eq.trans (bind_of_ok rfl) ?_
  rw [bind_read_apply (decodes_u32 _ _)]
  refine Eq.trans (bind_of_ok rfl) ?_
  rw [bind_read_apply (decodes_u64 _ _)]
  refine Eq.trans (bind_of_ok rfl) ?_
  rw [bind_read_apply (decodes_u64 _ _)]
  refine Eq.trans (bind_of_ok rfl) ?_
  rw [bind_read_apply (decodes_u64 _ _), bind_read_apply (decodes_bool _ _),
    bind_read_apply (decodes_u64 _ _), bind_read_apply (decodes_bool _ _)]
  rfl

/-- The bytes of the windows and of the history of a record. -/
def evidenceBytes (r : FlowRecord) : Bytes :=
  (le32 (UInt32.ofNat r.ledger.samples.length) ++ r.ledger.samples.flatMap encoded) ++
    ((le32 (UInt32.ofNat r.history.entries.length) ++ r.history.entries.flatMap encoded) ++
      (le64 r.history.digest ++ le64 r.history.foldedCount))

theorem reads_restoreEvidence (h : LegibleRecord r) {c : FlowClassification}
    (hc : restoreClassification r.hasClassification c = onFirst (loadClassification r)) :
    Reads (do
      let completion ← restoreScalars
      restoreSamples
      restoreCompletion completion.1 completion.2
      restoreHistory
      restoreClassification r.hasClassification c)
      (scalarBytes r ++ evidenceBytes r) (loadRecord r) := by
  refine Reads.known (restoreScalars_apply r) ?_
  refine (reads_restoreSamples h).bind fun _ => ?_
  refine .step (restoreCompletion_eq_onFirst r.ledger) fun _ => ?_
  exact (reads_restoreHistory h).last fun _ => hc

theorem reads_restoreRecord (h : LegibleRecord r) :
    Reads restoreRecord (leBool r.hasClassification ++
      ((if r.hasClassification then encoded r.classification else []) ++
        (scalarBytes r ++ evidenceBytes r))) (loadRecord r) := by
  refine Reads.value (decodes_bool _ _) ?_
  cases hc : r.hasClassification with
  | true =>
    refine Reads.value (decodes_encoded (h.classification hc)) ?_
    rw [← hc]
    exact reads_restoreEvidence h (restoreClassification_eq_onFirst r)
  | false =>
    have hnone : restoreClassification r.hasClassification {} = onFirst (loadClassification r) := by
      unfold restoreClassification loadClassification
      rw [hc]
      rfl
    have hrest := reads_restoreEvidence h hnone
    rw [hc] at hrest
    exact hrest

theorem flatten_encodeRecord (key : FlowKey) (r : FlowRecord) :
    (encodeRecord (key, r)).flatten = le64 key.flow.value ++ (le64 key.generation.value ++
      (leBool r.hasClassification ++
        ((if r.hasClassification then encoded r.classification else []) ++
          (scalarBytes r ++ evidenceBytes r)))) := by
  have hclassification : (if r.hasClassification then encode r.classification else []).flatten =
      if r.hasClassification then encoded r.classification else [] := by
    split_ifs
    · rfl
    · rfl
  unfold encodeRecord scalarBytes evidenceBytes
  simp only [List.flatten_append, hclassification, flatten_flatMap_encode, List.flatten_cons,
    List.flatten_nil, List.append_nil, List.append_assoc]

/-! ## Reading the governor -/

theorem reads_readFlowKey (key : FlowKey) :
    Reads readFlowKey (le64 key.flow.value ++ le64 key.generation.value) (do
      ensure (key.flow.valid && key.generation.valid)
        (badValue "restored flow identity is invalid")
      pure key) := by
  refine Reads.value (decodes_u64 _ _) ?_
  rw [← List.append_nil (le64 key.generation.value)]
  refine Reads.value (decodes_u64 _ _) ?_
  exact .step (ensure_eq_onFirst _ _) fun _ => (reads_onFirst _).congr rfl

theorem reads_restoreInto (h : LegibleRecord r) (key : FlowKey) :
    Reads (restoreInto key) (leBool r.hasClassification ++
      ((if r.hasClassification then encoded r.classification else []) ++
        (scalarBytes r ++ evidenceBytes r))) (loadInto r key) :=
  .step rfl fun _ => reads_focus (reads_restoreRecord h)

theorem reads_restoreFlow {key : FlowKey} (h : LegibleRecord r) :
    Reads restoreFlow (encodeRecord (key, r)).flatten (loadFlow (key, r)) := by
  have hplain : loadFlow (key, r) = (do
      ensure (key.flow.valid && key.generation.valid)
        (badValue "restored flow identity is invalid")
      pure key) >>= loadInto r := by
    unfold loadFlow ensure
    cases key.flow.valid && key.generation.valid with
    | false => rfl
    | true => rfl
  rw [flatten_encodeRecord, hplain, ← List.append_assoc]
  exact (reads_readFlowKey key).bind (reads_restoreInto h)

theorem reads_restoreIntent {i : GovernanceIntent} (h : Wire.Fits i) :
    Reads restoreIntent (encoded i) (loadIntent i) := by
  rw [← List.append_nil (encoded i)]
  refine Reads.value (decodes_encoded h) ((reads_onFirst _).congr ?_)
  funext x
  unfold onFirst loadIntent
  rcases x.1.record i with ⟨_ | _, l⟩
  · rfl
  · rfl

/-- The bytes of the stored policy. -/
def policyBytes : Option PolicyDocument → Bytes
  | none => []
  | some p => encoded p

theorem reads_restorePolicy {policy : Option PolicyDocument}
    (h : ∀ p, policy = some p → Wire.Fits p) :
    Reads (restorePolicy policy.isSome) (policyBytes policy) (loadPolicy policy) := by
  refine .step rfl fun _ => ?_
  cases policy with
  | none => exact (reads_onFirst _).congr rfl
  | some p =>
    show Reads _ (encoded p) _
    rw [← List.append_nil (encoded p)]
    refine Reads.value (decodes_encoded (h p rfl)) ?_
    refine .step (lift_eq_onFirst _) fun _ => .step (lift_eq_onFirst _) fun rules => ?_
    exact (reads_onFirst _).congr rfl

/-- The snapshot of the governor can be read: every count fits its word and every value its
format. -/
structure Legible (stored : Governor) : Prop where
  policy : ∀ p, stored.policy = some p → Wire.Fits p
  capacities : stored.capacities.entries.size < 2 ^ 32
  paths : stored.paths.entries.size < 2 ^ 32 ∧
    ∀ p ∈ stored.paths.entries.values, Wire.Fits p
  flows : stored.flows.size < 2 ^ 32 ∧
    ∀ (key : FlowKey) (r : FlowRecord), stored.flows[key]? = some r → LegibleRecord r
  intents : stored.intents.intents.size < 2 ^ 32 ∧
    ∀ i ∈ stored.intents.allIntents, Wire.Fits i

theorem reads_restoreTables (h : stored.Legible) :
    Reads restoreTables
      ((le32 (UInt32.ofNat stored.capacities.entries.values.length) ++
          stored.capacities.entries.values.flatMap encoded) ++
        (le32 (UInt32.ofNat stored.paths.entries.values.length) ++
          stored.paths.entries.values.flatMap encoded))
      (loadTables stored.capacities stored.paths) := by
  have hcapacities : stored.capacities.entries.values.length < 2 ^ 32 := by
    rw [KeyedMap.length_values]
    exact h.capacities
  have hpaths : stored.paths.entries.values.length < 2 ^ 32 := by
    rw [KeyedMap.length_values]
    exact h.paths.1
  refine (reads_focus (reads_counted hcapacities fun c _ => ?_)).bind fun _ =>
    reads_focus (reads_counted hpaths fun p hp => ?_)
  · have hfits : Wire.Fits c := trivial
    rw [← List.append_nil (encoded c)]
    exact Reads.value (decodes_encoded hfits) ((reads_onFirst _).congr (attempt_eq_onFirst _))
  · rw [← List.append_nil (encoded p)]
    exact Reads.value (decodes_encoded (h.paths.2 p hp))
      ((reads_onFirst _).congr (attempt_eq_onFirst _))

theorem reads_restoreFlows (h : stored.Legible) :
    Reads restoreFlows (le32 (UInt32.ofNat stored.flows.toList.length) ++
      stored.flows.toList.flatMap fun entry => (encodeRecord entry).flatten)
      (loadFlows stored.flows.toList) := by
  have hlength : stored.flows.toList.length < 2 ^ 32 := by
    rw [Std.ExtTreeMap.length_toList]
    exact h.flows.1
  refine .step rfl fun maxFlows => reads_counted hlength fun entry hentry => ?_
  exact reads_restoreFlow
    (h.flows.2 _ _ (Std.ExtTreeMap.mem_toList_iff_getElem?_eq_some.mp hentry))

theorem reads_restoreIntents (h : stored.Legible) :
    Reads restoreIntents (le32 (UInt32.ofNat stored.intents.allIntents.length) ++
      stored.intents.allIntents.flatMap encoded) (loadIntents stored.intents.allIntents) := by
  have hlength : stored.intents.allIntents.length < 2 ^ 32 := by
    rw [IntentLedger.allIntents, KeyedMap.length_values]
    exact h.intents.1
  refine .step rfl fun maxIntents => reads_focus (reads_counted hlength fun i hi => ?_)
  exact reads_restoreIntent (h.intents.2 i hi)

theorem flatten_flatMap_encodeRecord (entries : List (FlowKey × FlowRecord)) :
    (entries.flatMap encodeRecord).flatten =
      entries.flatMap fun entry => (encodeRecord entry).flatten := by
  induction entries with
  | nil => rfl
  | cons entry entries ih => rw [List.flatMap_cons, List.flatten_append, List.flatMap_cons, ih]

theorem flatten_encodeBody (stored : Governor) : stored.encodeBody.flatten =
    policyBytes stored.policy ++
    (((le32 (UInt32.ofNat stored.capacities.entries.values.length) ++
        stored.capacities.entries.values.flatMap encoded) ++
      (le32 (UInt32.ofNat stored.paths.entries.values.length) ++
        stored.paths.entries.values.flatMap encoded)) ++
    ((le32 (UInt32.ofNat stored.flows.toList.length) ++
      stored.flows.toList.flatMap fun entry => (encodeRecord entry).flatten) ++
    (le32 (UInt32.ofNat stored.intents.allIntents.length) ++
      stored.intents.allIntents.flatMap encoded))) := by
  unfold encodeBody policyBytes
  rcases stored.policy with _ | p
  all_goals
    simp only [List.flatten_append, flatten_flatMap_encodeRecord, flatten_flatMap_encode,
      List.flatten_cons, List.flatten_nil, List.append_nil, List.nil_append, List.append_assoc,
      KeyedMap.length_values, Std.ExtTreeMap.length_toList]
  rfl

/-- What follows the header of a snapshot is read as it was written. -/
theorem reads_restoreBody (h : stored.Legible) (now : Tick) :
    Reads (restoreBody now stored.header) stored.encodeBody.flatten (stored.load now) := by
  rw [flatten_encodeBody]
  refine (reads_restorePolicy h.policy).bind fun _ => (reads_restoreTables h).bind fun _ => ?_
  refine (reads_restoreFlows h).bind fun _ => ?_
  rw [← List.append_nil (_ ++ List.flatMap encoded stored.intents.allIntents)]
  refine (reads_restoreIntents h).bind fun _ => ?_
  exact .step rfl fun _ => (reads_onFirst _).congr rfl

/-- The incarnation may restore a snapshot of the governor: it is valid, another one than the
stored one, and later. -/
def Succeeds (boot : BootIdentity) (stored : Governor) : Prop :=
  boot.valid = true ∧ boot.boot ≠ stored.boot.boot ∧ ¬ boot.epoch ≤ stored.boot.epoch

theorem readHeader_apply {boot : BootIdentity} (h : Succeeds boot stored) (rest : Bytes) :
    readHeader boot (stored.encodeHeader.flatten ++ rest) = .ok (stored.header, rest) := by
  obtain ⟨hvalid, hboot, hepoch⟩ := h
  unfold readHeader encodeHeader
  simp only [List.flatten_cons, List.flatten_nil, List.append_nil, List.append_assoc,
    bind_u32_apply]
  rw [if_neg (not_not_intro rfl), if_neg (not_not_intro rfl)]
  simp only [bind_u64_apply]
  rw [if_neg (not_not_intro hvalid), if_neg hboot, if_neg hepoch, bind_bool_apply]
  rfl

/-- In front of a snapshot of a governor that the format can hold, the restore does what `load` does
with the governor; what follows the snapshot does not matter. -/
theorem deserialize_of_legible (h : stored.Legible) (hboot : Succeeds g.boot stored) (now : Tick)
    (rest : Bytes) :
    g.deserialize ((stored.encodeHeader ++ stored.encodeBody).flatten ++ rest) now =
      stored.load now g := by
  unfold deserialize
  rw [List.flatten_append, List.append_assoc, readHeader_apply hboot]
  obtain ⟨left, heq, -⟩ := reads_restoreBody h now g rest
  dsimp only
  rw [heq]

/-! ## Reachable governors -/

/-- The ceilings of a narrowed configuration are those of the library. -/
theorem ceilings_of_clamped (config : GovernorConfig) :
    config.clamped.maxFlows ≤ kMaxFlows ∧ config.clamped.maxHistoryPerFlow ≤ kMaxHistoryPerFlow ∧
      config.clamped.maxIntents ≤ kMaxIntents := by
  have h := GovernorConfig.validate_clamped config
  unfold GovernorConfig.validate at h
  simp only [ite_makeStatus_eq_ok, not_or, not_lt] at h
  obtain ⟨hflows, -, hhistory, -, -, -, hintents, -⟩ := h
  exact ⟨hflows.2, hhistory.2, hintents.2⟩

theorem maxSamples_make_le (flow : FlowId) (generation : Generation) (limits : LedgerLimits) :
    (FlowLedger.make flow generation limits).limits.maxSamples ≤ kMaxSamplesPerFlow := by
  unfold FlowLedger.make
  dsimp only
  split_ifs
  · decide
  · exact le_refl _
  · omega

theorem fits_path_of_validate {p : PathDescriptor} (h : p.validate = .ok ()) : Wire.Fits p := by
  unfold PathDescriptor.validate at h
  simp only [ite_makeStatus_eq_ok] at h
  exact Nat.not_lt.mp h.2.2.2.1

theorem fits_intent_of_check {i : GovernanceIntent} (h : IntentLedger.checkIntent i = .ok ()) :
    Wire.Fits i := by
  unfold IntentLedger.checkIntent at h
  simp only [ite_makeStatus_eq_ok] at h
  exact h.2.2.2.1

/-- The windows and the history of a reachable record are within the ceilings of a restore. -/
theorem Reachable.lengths {config : GovernorConfig} (h : Reachable config g) {key : FlowKey}
    (hr : g.flows[key]? = some r) : r.ledger.samples.length ≤ kMaxSamplesPerFlow ∧
      r.history.entries.length ≤ kMaxHistoryPerFlow := by
  have hsized := sized_of_reachable h
  have hsamples := hsized.samples key r hr
  have hhistory := hsized.histories key r hr
  rw [(h.justified.records key r hr).tracked.limits] at hsamples
  rw [h.config_eq] at hhistory
  exact ⟨le_trans hsamples (maxSamples_make_le _ _ _),
    le_trans hhistory (ceilings_of_clamped config).2.1⟩

/-- A reachable governor can be stored legibly whenever its policy can. -/
theorem Reachable.legible {config : GovernorConfig} (h : Reachable config g)
    (hpolicy : ∀ p, g.policy = some p → Wire.Fits p) : g.Legible := by
  have hsized := sized_of_reachable h
  obtain ⟨hcapacities, hpaths⟩ := h.soundTables
  obtain ⟨hflows, -, hintents⟩ := ceilings_of_clamped config
  rw [← h.config_eq] at hflows hintents
  have hflows : g.flows.size < 2 ^ 32 :=
    lt_of_le_of_lt (le_trans hsized.flows hflows) (by decide)
  have hintents : g.intents.intents.size < 2 ^ 32 :=
    lt_of_le_of_lt (le_trans hsized.intents hintents) (by decide)
  refine ⟨hpolicy, lt_of_le_of_lt hcapacities.entries.size (by decide),
    ⟨lt_of_le_of_lt hpaths.entries.size (by decide), fun p hp => ?_⟩,
    ⟨hflows, fun key r hr => ?_⟩, ⟨hintents, fun i hi => ?_⟩⟩
  · exact fits_path_of_validate (hpaths.entries.valid hp)
  · obtain ⟨hsamples, hhistory⟩ := h.lengths hr
    have hledger := (h.justified.records key r hr).tracked.ledger
    refine ⟨⟨lt_of_le_of_lt hsamples (by decide), fun s hs => ?_⟩,
      lt_of_le_of_lt hhistory (by decide), (h.storable hr).classification⟩
    exact FlowSample.fits_of_validate (hledger.accepted s hs).2.2.1
  · obtain ⟨id, hid⟩ := KeyedMap.mem_values_iff.mp hi
    exact fits_intent_of_check (h.recorded.intents id i hid).2.2

end Governor

end EFG
