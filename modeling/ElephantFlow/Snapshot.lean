/-
# Serializing and restoring the governor

`Governor::serialize`, `Governor::deserialize` and `resume_after_restore`.  The
restore overwrites the governor field by field while it reads, so it is a
`Fallible` computation over the governor and the bytes that are left: what it has
written when it fails stays.
-/
import ElephantFlow.Codec

namespace EFG

open ByteCodec Decoder Fallible

namespace Governor

/-! ## Serializing -/

/-- The wire form of one flow record. -/
def encodeRecord (entry : FlowKey × FlowRecord) : List Bytes :=
  let r := entry.2
  [le64 entry.1.flow.value, le64 entry.1.generation.value, leBool r.hasClassification] ++
    (if r.hasClassification then encode r.classification else []) ++
    [le32 r.enterStreak, le32 r.exitStreak, le64 r.evaluatedTick, le64 r.evaluatedWindow.value,
      le64 r.completedTick, leBool r.ledger.completed, le64 r.ledger.completedAt,
      leBool r.ledger.gapDetected, le32 (UInt32.ofNat r.ledger.samples.length)] ++
    r.ledger.samples.flatMap encode ++
    [le32 (UInt32.ofNat r.history.entries.length)] ++ r.history.entries.flatMap encode ++
    [le64 r.history.digest, le64 r.history.foldedCount]

/-- The scalars in front of a serialized governor, with the policy flag. -/
def encodeHeader (g : Governor) : List Bytes :=
  [le32 kSchemaVersion, le32 1, le64 g.lastTick, le64 g.classificationSequence,
    le64 g.intentSequence, le64 g.boot.boot.value, le64 g.boot.epoch.value, le64 g.boot.startedAt,
    le64 g.boot.monotonicSeed, leBool g.policy.isSome]

/-- The policy, the tables, the flows and the intents of a serialized governor. -/
def encodeBody (g : Governor) : List Bytes :=
  (match g.policy with
    | none => []
    | some p => encode p) ++
  [le32 (UInt32.ofNat g.capacities.entries.size)] ++
  g.capacities.entries.values.flatMap encode ++
  [le32 (UInt32.ofNat g.paths.entries.size)] ++ g.paths.entries.values.flatMap encode ++
  [le32 (UInt32.ofNat g.flows.size)] ++ g.flows.toList.flatMap encodeRecord ++
  [le32 (UInt32.ofNat g.intents.allIntents.length)] ++ g.intents.allIntents.flatMap encode

/-- `serialize`. -/
def serialize (g : Governor) (w : ByteWriter) : Except Status Unit × ByteWriter :=
  let w := w.writeAll (g.encodeHeader ++ g.encodeBody)
  if w.overflowed then (makeStatus .oversized "serialized governor state exceeded the ceiling", w)
  else (.ok (), w)

/-! ## Restoring -/

/-- The scalars that `deserialize` reads before it touches the governor. -/
structure SnapshotHeader where
  lastTick : Tick
  classificationSequence : UInt64
  intentSequence : UInt64
  hasPolicy : Bool
  deriving DecidableEq, Repr

/-- The part of `deserialize` before the first assignment: header, scalars, incarnation checks and
the policy flag. -/
def readHeader (boot : BootIdentity) : Decoder Status SnapshotHeader := do
  let e := truncated "governor state header is truncated"
  let schema ← u32 e
  let revision ← u32 e
  if schema ≠ kSchemaVersion then
    refuse ⟨.versionMismatch, "governor state schema is not supported"⟩
  else if revision ≠ 1 then
    refuse ⟨.versionMismatch, "governor state serialization revision is not supported"⟩
  else
    let e := truncated "governor state scalars are truncated"
    let lastTick ← u64 e
    let classificationSequence ← u64 e
    let intentSequence ← u64 e
    let storedBoot ← u64 e
    let storedEpoch ← u64 e
    let _startedAt ← u64 e
    let _seed ← u64 e
    if ¬ boot.valid then
      refuse ⟨.invalidArgument,
        "a fresh boot identity must be installed before restoring state"⟩
    else if boot.boot = ⟨storedBoot⟩ then
      refuse ⟨.conflict,
        "restoring state requires a boot identity distinct from the stored one"⟩
    else if boot.epoch ≤ ⟨storedEpoch⟩ then
      refuse ⟨.epochMismatch, "restoring state requires an epoch beyond the stored one"⟩
    else
      let hasPolicy ← bool (truncated "policy presence flag is truncated")
      pure ⟨lastTick, classificationSequence, intentSequence, hasPolicy⟩

/-- A step of the restore: the state is the governor, or a part of it, and the unread bytes. -/
abbrev Restore (σ : Type) := Fallible Status (σ × Bytes)

/-- Change the restored object. -/
def assign {σ : Type} (f : σ → σ) : Restore σ Unit := modify fun s => (f s.1, s.2)

/-- Change the restored object by an operation that may refuse. -/
def attempt {σ : Type} (f : σ → Except Status σ) : Restore σ Unit :=
  update fun s => (f s.1).map fun g => (g, s.2)

/-- Run a restore step on a part of the object and put the part back, whatever the outcome. -/
def focus {σ τ : Type} (part : σ → τ) (put : σ → τ → σ) (m : Restore τ Unit) : Restore σ Unit :=
  fun s =>
    let r := m (part s.1, s.2)
    (r.1, (put s.1 r.2.1, r.2.2))

/-- A counted collection: the count, its ceiling and the items. -/
def counted {σ : Type} (missing tooMany : Status) (ceiling : ℕ) (before : σ → σ)
    (item : Restore σ Unit) : Restore σ Unit := do
  let count ← read (u32 missing)
  ensure (count.toNat ≤ ceiling) tooMany
  assign before
  times item count.toNat

/-- The policy of a snapshot. -/
def restorePolicy (hasPolicy : Bool) : Restore Governor Unit := do
  assign fun g => { g with policy := none, exitRules := {} }
  if hasPolicy then
    let policy ← read (decode : Decoder Status PolicyDocument)
    lift policy.validate
    let exitRules ← lift (effectiveExitRule policy)
    assign fun g => { g with policy := some policy, exitRules := exitRules }
  else pure ()

/-- One capacity snapshot. -/
def restoreCapacity : Restore CapacityTable Unit := do
  let capacity ← read (decode : Decoder Status ResourceCapacity)
  attempt fun t => t.submit capacity

/-- One path descriptor. -/
def restorePath : Restore PathTable Unit := do
  let path ← read (decode : Decoder Status PathDescriptor)
  attempt fun t => t.submit path

/-- One evidence window of a record.  Any refusal of the ledger is reported as corruption. -/
def restoreSample : Restore FlowRecord Unit := do
  let sample ← read (decode : Decoder Status FlowSample)
  fun s =>
    match s.1.ledger.append sample with
    | (.ok _, ledger) => (.ok (), ({ s.1 with ledger := ledger }, s.2))
    | (.error _, ledger) =>
      (makeStatus .corrupt "restored evidence window does not satisfy ledger invariants",
        ({ s.1 with ledger := ledger }, s.2))

/-- One history entry of a record. -/
def restoreTransition : Restore FlowRecord Unit := do
  let transition ← read (decode : Decoder Status ClassificationTransition)
  attempt fun r => (r.history.record transition).map fun h => { r with history := h }

/-- The streaks, the last evaluation and the completion of a record.  The flag of a gap is read
and dropped. -/
def restoreScalars : Restore FlowRecord (Bool × Tick) := do
  let e := truncated "restored flow scalar state is truncated"
  let enterStreak ← read (u32 e)
  assign fun r => { r with enterStreak := enterStreak }
  let exitStreak ← read (u32 e)
  assign fun r => { r with exitStreak := exitStreak }
  let evaluatedTick ← read (u64 e)
  assign fun r => { r with evaluatedTick := evaluatedTick }
  let evaluatedWindow ← read (u64 e)
  assign fun r => { r with evaluatedWindow := ⟨evaluatedWindow⟩ }
  let e := truncated "restored completion state is truncated"
  let completedTick ← read (u64 e)
  let ledgerCompleted ← read (bool e)
  let ledgerCompletedAt ← read (u64 e)
  let _gapDetected ← read (bool e)
  assign fun r => { r with completedTick := completedTick }
  pure (ledgerCompleted, ledgerCompletedAt)

/-- The history of a record: the entries are recorded again and must reproduce the digest; a
folded history is refused. -/
def restoreHistory : Restore FlowRecord Unit := do
  counted (truncated "restored transition count is truncated")
    (oversize "restored transition population exceeds the ceiling") kMaxHistoryPerFlow id
    restoreTransition
  let e := truncated "restored history digest is truncated"
  let storedDigest ← read (u64 e)
  let folded ← read (u64 e)
  ensure (folded = 0)
    ⟨.unsupported, "restored history with folded transitions is not supported"⟩
  let digest ← gets fun s => s.1.history.digest
  ensure (storedDigest = digest)
    ⟨.integrityFailure, "restored classification history digest does not match"⟩

/-- The stored classification of a record, when it has one. -/
def readClassification (hasClassification : Bool) : Restore FlowRecord FlowClassification :=
  if hasClassification then read (decode : Decoder Status FlowClassification) else pure {}

/-- The windows of a record. -/
def restoreSamples : Restore FlowRecord Unit :=
  counted (truncated "restored sample count is truncated")
    (oversize "restored sample population exceeds the ceiling") kMaxSamplesPerFlow id restoreSample

/-- A completed record is completed again, behind its windows. -/
def restoreCompletion (completed : Bool) (completedAt : Tick) : Restore FlowRecord Unit :=
  if completed then
    attempt fun r => (r.ledger.markCompleted completedAt).map fun l => { r with ledger := l }
  else pure ()

/-- The classification of a record is put in place last. -/
def restoreClassification (hasClassification : Bool) (c : FlowClassification) :
    Restore FlowRecord Unit :=
  if hasClassification then
    assign fun r => { r with classification := c, hasClassification := true }
  else pure ()

/-- The content of one flow record, behind its identity. -/
def restoreRecord : Restore FlowRecord Unit := do
  let hasClassification ← read
    (bool (truncated "restored classification flag is truncated"))
  let classification ← readClassification hasClassification
  let completion ← restoreScalars
  restoreSamples
  restoreCompletion completion.1 completion.2
  restoreHistory
  restoreClassification hasClassification classification

/-- The identity of a flow. -/
def readFlowKey : Restore Governor FlowKey := do
  let e := truncated "restored flow identity is truncated"
  let flow ← read (u64 e)
  let generation ← read (u64 e)
  ensure ((⟨flow⟩ : FlowId).valid && (⟨generation⟩ : Generation).valid)
    (badValue "restored flow identity is invalid")
  pure ⟨⟨flow⟩, ⟨generation⟩⟩

/-- The record of a flow, created first: `create_flow` keeps a record that is already there. -/
def restoreInto (key : FlowKey) : Restore Governor Unit := do
  assign fun g => g.createFlow key
  focus (fun g => g.flows[key]?.getD (g.freshRecord key)) (fun g r => g.setFlow key r) restoreRecord

/-- One flow. -/
def restoreFlow : Restore Governor Unit := readFlowKey >>= restoreInto

/-- One intent. -/
def restoreIntent : Restore IntentLedger Unit := do
  let intent ← read (decode : Decoder Status GovernanceIntent)
  fun s =>
    match s.1.record intent with
    | (.ok _, l) => (.ok (), (l, s.2))
    | (.error e, l) => (.error e, (l, s.2))

/-- The tables of a snapshot. -/
def restoreTables : Restore Governor Unit := do
  focus Governor.capacities (fun g t => { g with capacities := t })
    (counted (truncated "capacity count is truncated")
      (oversize "restored capacity population exceeds the ceiling") kMaxResources
      (fun _ => {}) restoreCapacity)
  focus Governor.paths (fun g t => { g with paths := t })
    (counted (truncated "path count is truncated")
      (oversize "restored path population exceeds the ceiling") kMaxPaths
      (fun _ => {}) restorePath)

/-- The flows of a snapshot. -/
def restoreFlows : Restore Governor Unit := do
  let maxFlows ← gets fun s => s.1.config.maxFlows
  counted (truncated "flow count is truncated")
    (oversize "restored flow population exceeds the configured ceiling") maxFlows
    (fun g => { g with
      flows := ∅, highestGeneration := ∅, bindingIndex := ∅, resourceAggregate := ∅ })
    restoreFlow

/-- The intents of a snapshot. -/
def restoreIntents : Restore Governor Unit := do
  let maxIntents ← gets fun s => s.1.config.maxIntents
  focus Governor.intents (fun g l => { g with intents := l })
    (counted (truncated "intent count is truncated")
      (oversize "restored intent population exceeds the ceiling") maxIntents
      (fun _ => { maxIntents := maxIntents, maxAttempts := kMaxAttempts }) restoreIntent)

/-- The record that `resume_after_restore` leaves of a classified record: suspended, without
authority, awaiting revalidation under the new incarnation. -/
def demotedRecord (boot : BootIdentity) (now : Tick) (record : FlowRecord)
    (h : ClassificationHistory) : FlowRecord :=
  { record with
    history := h
    classification := { record.classification with
      state := .suspended
      authority := .none
      reasons := record.classification.reasons ||| .revalidationRequired
      authorityVector := { record.classification.authorityVector with
        boot := boot.boot
        epoch := boot.epoch } }
    enterStreak := 0
    exitStreak := 0
    evaluatedTick := now }

/-- The history entry of `resume_after_restore`. -/
def demotion (now : Tick) (record : FlowRecord) : ClassificationTransition where
  atTick := now
  fromState := record.classification.state
  toState := .suspended
  authority := .none
  reasons := record.classification.reasons ||| .revalidationRequired
  classification := record.classification.id
  classificationGeneration := record.classification.generation

/-- One iteration of the demotion loop of `resume_after_restore`. -/
def demoteFlow (now : Tick) (key : FlowKey) : Fallible Status Governor Unit := fun g =>
  match g.flows[key]? with
  | none => (.ok (), g)
  | some record =>
    if ¬ record.hasClassification then (.ok (), g)
    else
      match record.history.record (demotion now record) with
      | .error e => (.error e, g)
      | .ok h => (.ok (), g.setFlow key (demotedRecord g.boot now record h))

/-- One iteration of the index rebuild of `resume_after_restore`. -/
def reindexFlow (g : Governor) (key : FlowKey) : Governor :=
  match g.flows[key]? with
  | none => g
  | some record =>
    let indexed := g.updateIndex key record
    indexed.1.setFlow key indexed.2

/-- The index rebuild of `resume_after_restore`. -/
def reindexed (g : Governor) (keys : List FlowKey) : Governor :=
  keys.foldl reindexFlow { g with bindingIndex := ∅, resourceAggregate := ∅ }

/-- The end of `resume_after_restore`: fence every intent and start the clock.  The tick guard
starts over, so it accepts every tick. -/
def resumed (g : Governor) (now : Tick) (restored elephants : ℕ) : Governor :=
  let fenced := g.intents.revokeAll .fenced .authorityStale
  { g with
    intents := fenced.2
    tickGuard := ⟨now, true⟩
    lastTick := if g.lastTick > now then g.lastTick else now }.count fun c =>
      { c with
        intentsFenced := c.intentsFenced + fenced.1
        restoredFlows := c.restoredFlows + UInt64.ofNat restored
        restoredFlowsRequiringRevalidation :=
          c.restoredFlowsRequiringRevalidation + UInt64.ofNat elephants }

/-- `resume_after_restore`. -/
def resumeAfterRestore (now : Tick) : Fallible Status Governor Unit := do
  let keys ← gets fun g => g.flows.keys
  let elephants ← gets fun g =>
    g.flows.values.countP FlowRecord.isElephant
  forEach (demoteFlow now) keys
  modify fun g => (g.reindexed keys).resumed now keys.length elephants

/-- The scalars of the header, put in place behind everything else. -/
def withHeader (g : Governor) (h : SnapshotHeader) (now : Tick) : Governor :=
  { g with
    classificationSequence := h.classificationSequence
    intentSequence := h.intentSequence
    lastTick := if h.lastTick > now then h.lastTick else now }.count fun c =>
      { c with restoreEvents := c.restoreEvents + 1 }

/-- A step of the restore that reads no bytes. -/
def withoutBytes {σ : Type} (m : Fallible Status σ Unit) : Restore σ Unit := fun s =>
  ((m s.1).1, ((m s.1).2, s.2))

/-- The part of `deserialize` that follows the policy flag. -/
def restoreBody (now : Tick) (h : SnapshotHeader) : Restore Governor Unit := do
  restorePolicy h.hasPolicy
  restoreTables
  restoreFlows
  restoreIntents
  assign fun g => g.withHeader h now
  withoutBytes (resumeAfterRestore now)

/-- `deserialize`. -/
def deserialize (g : Governor) (bytes : Bytes) (now : Tick) : Except Status Unit × Governor :=
  match readHeader g.boot bytes with
  | .error e => (.error e, g)
  | .ok (h, rest) =>
    let r := restoreBody now h (g, rest)
    (r.1, r.2.1)

end Governor

end EFG
