/-
# The durable governor

`SnapshotFile` and `DurableGovernor` of `persistence.hpp` and `persistence.cpp`:
recovery restores the snapshot, replays the journal through the ordinary
operations of the governor and reports what it found.
-/
import ElephantFlow.Journal

namespace EFG

open ByteCodec

/-! ## Snapshot files -/

def kSnapshotMagic : Bytes := [0x45, 0x46, 0x47, 0x53, 0x4E, 0x41, 0x50, 0x31]
def kSnapshotHeaderBytes : ℕ := 24

/-- `SnapshotFile::write_atomic`: the file that replaces the previous one. -/
def writeSnapshot (payload : Bytes) (maxBytes : ℕ) : Except Status Bytes :=
  if payload.length > maxBytes then
    makeStatus .oversized "snapshot exceeds the configured ceiling"
  else .ok (kSnapshotMagic ++ le32 kSchemaVersion ++ le64 (UInt64.ofNat payload.length) ++
    le32 (crc32c payload) ++ payload)

/-- `SnapshotFile::read` on an existing file. -/
def readSnapshot (file : Bytes) (maxBytes : ℕ) : Except Status Bytes :=
  if file.length < kSnapshotHeaderBytes then makeStatus .truncated "snapshot header is truncated"
  else if file.take 8 ≠ kSnapshotMagic then makeStatus .corrupt "snapshot magic does not match"
  else if UInt32.ofNat (leValue ((file.drop 8).take 4)) ≠ kSchemaVersion then
    makeStatus .versionMismatch "snapshot schema is not supported"
  else
    let n := leValue ((file.drop 12).take 8)
    let payload := (file.drop kSnapshotHeaderBytes).take n
    if n > maxBytes then makeStatus .oversized "snapshot length exceeds the ceiling"
    else if payload.length < n then makeStatus .truncated "snapshot payload is truncated"
    else if crc32c payload ≠ UInt32.ofNat (leValue ((file.drop 20).take 4)) then
      makeStatus .integrityFailure "snapshot checksum does not match"
    else .ok payload

/-! ## Recovery reports -/

/-- `RecoveryDisposition`. -/
inductive RecoveryDisposition
  | durableConfiguration | committedState | unfinishedAttempt | ambiguousOutcome
  | staleLiveAuthority | evidenceRequiresRevalidation
  deriving DecidableEq, Repr, Inhabited

/-- `RecoveryFinding`. -/
structure RecoveryFinding where
  disposition : RecoveryDisposition
  type : RecordType
  sequence : UInt64
  count : UInt64
  detail : String
  deriving DecidableEq, Repr

/-- `RecoveryReport`. -/
structure RecoveryReport where
  snapshotLoaded : Bool := false
  snapshotRejected : Bool := false
  journalTruncatedTail : Bool := false
  journalCorrupt : Bool := false
  recordsReplayed : UInt64 := 0
  recordsRejected : UInt64 := 0
  bytesReplayed : UInt64 := 0
  recoveryTick : Tick := 0
  previousEpoch : EpochId := {}
  currentEpoch : EpochId := {}
  previousBoot : BootId := {}
  currentBoot : BootId := {}
  findings : List RecoveryFinding := []
  deriving DecidableEq, Repr, Inhabited

/-- `add_finding`: the report holds at most 64. -/
def RecoveryReport.addFinding (r : RecoveryReport) (disposition : RecoveryDisposition)
    (type : RecordType) (sequence count : UInt64) (detail : String) : RecoveryReport :=
  if r.findings.length ≥ 64 then r
  else { r with findings := r.findings ++ [⟨disposition, type, sequence, count, detail⟩] }

/-! ## The store -/

/-- `DurableGovernor::Options`, without the directory. -/
structure DurableOptions where
  journal : JournalOptions := {}
  maxSnapshotBytes : ℕ := kMaxSnapshotBytes
  snapshotEveryRecords : UInt64 := 0
  deriving DecidableEq, Repr, Inhabited

/-- The two files of a store. -/
structure Disk where
  snapshot : Option Bytes := none
  journal : Option Bytes := none
  deriving DecidableEq, Repr, Inhabited

/-- An open `DurableGovernor`; the journal carries its file, `snapshot` is the snapshot file. -/
structure DurableGovernor where
  options : DurableOptions := {}
  governor : Governor
  journal : Journal
  snapshot : Option Bytes := none
  report : RecoveryReport := {}
  recordsSinceSnapshot : UInt64 := 0

namespace DurableGovernor

/-- The state that recovery builds up. -/
abbrev Recovery := Governor × RecoveryReport

/-- The incarnation peeked from a snapshot payload for the report. -/
def peekIncarnation : Decoder Status (BootId × EpochId) := do
  let e := truncated ""
  let _schema ← Decoder.u32 e
  let _revision ← Decoder.u32 e
  let _lastTick ← Decoder.u64 e
  let _classificationSequence ← Decoder.u64 e
  let _intentSequence ← Decoder.u64 e
  let boot ← Decoder.u64 e
  let epoch ← Decoder.u64 e
  pure (⟨boot⟩, ⟨epoch⟩)

/-- The report with the stored incarnation. -/
def reportIncarnation (report : RecoveryReport) (payload : Bytes) : RecoveryReport :=
  match peekIncarnation payload with
  | .error _ => report
  | .ok ((boot, epoch), _) => { report with previousBoot := boot, previousEpoch := epoch }

/-- A refusal of the snapshot that is final. -/
def finalRefusal (code : StatusCode) : Bool :=
  code = .conflict || code = .epochMismatch || code = .versionMismatch

/-- A snapshot that was not restored, as the report shows it. -/
def rejectSnapshot (report : RecoveryReport) (detail : String) : RecoveryReport :=
  { report with snapshotRejected := true }.addFinding .ambiguousOutcome .snapshot 0 1 detail

/-- The snapshot step of `open`.  A refused restore continues with the governor it left. -/
def recoverSnapshot (snapshot : Option Bytes) (maxBytes : ℕ) (tick : Tick) (g : Governor)
    (report : RecoveryReport) : Except Status Recovery :=
  match snapshot with
  | none => .ok (g, report)
  | some file =>
    match readSnapshot file maxBytes with
    | .error e => .ok (g, rejectSnapshot report ("snapshot unreadable: " ++ e.message))
    | .ok payload =>
      let report := reportIncarnation report payload
      match g.deserialize payload tick with
      | (.ok (), g) =>
        .ok (g, { report with snapshotLoaded := true }.addFinding .committedState .snapshot 0 1
          "snapshot restored; all authority demoted to revalidation")
      | (.error e, g) =>
        if finalRefusal e.code then .error e
        else .ok (g, rejectSnapshot report ("snapshot rejected: " ++ e.message))

/-- The record of an input that the governor may refuse as `Stale` or `Conflict` during replay. -/
def replayInput (r : JournalRecord) (detail : String) (applied : Except Status Unit × Governor)
    (report : RecoveryReport) : Except Status Unit × Recovery :=
  match applied.1 with
  | .error e =>
    if e.code = .stale ∨ e.code = .conflict then
      (.ok (), (applied.2, report.addFinding .durableConfiguration r.type r.sequence 1 detail))
    else (.error e, (applied.2, report))
  | .ok () =>
    (.ok (), (applied.2, report.addFinding .durableConfiguration r.type r.sequence 1 detail))

/-- The completion record of the journal. -/
def decodeCompletion : Decoder Status (FlowKey × Tick) := do
  let e := truncated "completion record is truncated"
  let flow ← Decoder.u64 e
  let generation ← Decoder.u64 e
  let atTick ← Decoder.u64 e
  pure (⟨⟨flow⟩, ⟨generation⟩⟩, atTick)

/-- The switch of the replay visitor. -/
def replayPayload (recoveryTick : Tick) (r : JournalRecord) (g : Governor)
    (report : RecoveryReport) : Except Status Unit × Recovery :=
  let note (disposition : RecoveryDisposition) (detail : String) (g : Governor) :
      Except Status Unit × Recovery :=
    (.ok (), (g, report.addFinding disposition r.type r.sequence 1 detail))
  match r.type with
  | .beginStore => note .durableConfiguration "store incarnation marker" g
  | .policyAccepted =>
    match (decode : Decoder Status PolicyDocument) r.payload with
    | .error e => (.error e, (g, report))
    | .ok (p, _) => replayInput r "policy generation replayed" (g.submitPolicy p) report
  | .capacityAccepted =>
    match (decode : Decoder Status ResourceCapacity) r.payload with
    | .error e => (.error e, (g, report))
    | .ok (c, _) => replayInput r "capacity snapshot replayed" (g.submitCapacity c) report
  | .pathAccepted =>
    match (decode : Decoder Status PathDescriptor) r.payload with
    | .error e => (.error e, (g, report))
    | .ok (p, _) => replayInput r "path generation replayed" (g.submitPath p) report
  | .flowClassified =>
    match (decode : Decoder Status FlowSample) r.payload with
    | .error e => (.error e, (g, report))
    | .ok (s, _) =>
      match g.submitEvidence s with
      | (.ok _, g) => (.ok (), (g, report))
      | (.error e, g) =>
        if e.code ≠ .stale ∧ e.code ≠ .notFound then
          (.ok (), (g, { report with recordsRejected := report.recordsRejected + 1 }.addFinding
            .ambiguousOutcome r.type r.sequence 1 ("evidence not applied: " ++ e.message)))
        else (.ok (), (g, report))
  | .flowTransition =>
    match decodeCompletion r.payload with
    | .error e => (.error e, (g, report))
    | .ok ((key, atTick), _) =>
      match g.completeFlow key.flow key.generation atTick with
      | (.ok (), g) => note .committedState "flow completion replayed" g
      | (.error e, g) =>
        if e.code = .notFound then note .committedState "flow completion replayed" g
        else (.error e, (g, report))
  | .tickCommitted =>
    match (Decoder.u64 (truncated "tick record is truncated")) r.payload with
    | .error e => (.error e, (g, report))
    | .ok (t, _) =>
      note .committedState "committed sweep replayed" (if t ≤ recoveryTick then (g.tick t).2 else g)
  | .snapshot => note .durableConfiguration "compaction marker" g
  | .shutdown => note .durableConfiguration "clean shutdown marker" g
  | .intentRecorded | .intentTransition | .intentFenced | .count =>
    note .durableConfiguration "record retained but not replayed" g

/-- The visitor of `replay_into_governor`. -/
def replayVisitor (recoveryTick : Tick) (r : JournalRecord) : Fallible Status Recovery Unit :=
  fun s => replayPayload recoveryTick r s.1
    { s.2 with
      recordsReplayed := s.2.recordsReplayed + 1
      bytesReplayed := s.2.bytesReplayed + UInt64.ofNat r.payload.length }

/-- The report after a replay with the given statistics. -/
def reportReplay (report : RecoveryReport) (status : Except Status Unit)
    (stats : JournalReplayStats) : RecoveryReport :=
  let report := { report with
    recordsReplayed := stats.records
    bytesReplayed := stats.bytes
    journalTruncatedTail := stats.truncatedTail
    journalCorrupt := !isOk status }
  let report :=
    if stats.truncatedTail then
      report.addFinding .unfinishedAttempt .beginStore stats.sequenceLast 1
        "journal tail was torn; the partial record was not applied"
    else report
  if isOk status then report
  else report.addFinding .ambiguousOutcome .beginStore stats.sequenceLast 1
    "journal record failed integrity checking mid stream"

/-- `replay_into_governor`: only an integrity failure of the journal is not fatal. -/
def replayIntoGovernor (recoveryTick : Tick) (file : Bytes) (s : Recovery) :
    Except Status Recovery :=
  match replay (replayVisitor recoveryTick) (some file) s with
  | (.ok (), stats, s) => .ok (s.1, reportReplay s.2 (.ok ()) stats)
  | (.error e, stats, s) =>
    if e.code = .integrityFailure then .ok (s.1, reportReplay s.2 (.error e) stats) else .error e

/-- The findings that `open` adds after the replay. -/
def reportCounters (report : RecoveryReport) (c : GovernorCounters) : RecoveryReport :=
  let report :=
    if c.restoredFlowsRequiringRevalidation > 0 then
      report.addFinding .evidenceRequiresRevalidation .flowClassified 0
        c.restoredFlowsRequiringRevalidation
        "restored classifications were elephants before the restart"
    else report
  if c.intentsFenced > 0 then
    report.addFinding .staleLiveAuthority .intentFenced 0 c.intentsFenced
      "live governance intent was fenced by the new boot"
  else report

/-- `DurableGovernor::open`. -/
def openStore (disk : Disk) (options : DurableOptions) (config : GovernorConfig)
    (boot : BootIdentity) (recoveryTick : Tick) : Except Status DurableGovernor :=
  if ¬ boot.valid then
    makeStatus .invalidArgument "durable store requires a boot identity"
  else
    let report : RecoveryReport :=
      { recoveryTick := recoveryTick, currentBoot := boot.boot, currentEpoch := boot.epoch }
    match recoverSnapshot disk.snapshot options.maxSnapshotBytes recoveryTick
        ((Governor.make config).setIncarnation boot) report with
    | .error e => .error e
    | .ok s =>
      match openJournal disk.journal options.journal with
      | .error e => .error e
      | .ok journal =>
        match replayIntoGovernor recoveryTick journal.file s with
        | .error e => .error e
        | .ok s =>
          match journal.append .beginStore [] with
          | .error e => .error e
          | .ok journal =>
            .ok { options := options
                  governor := s.1
                  journal := journal
                  snapshot := disk.snapshot
                  report := reportCounters s.2 s.1.counters }

/-! ## Recording -/

/-- An encoding that exceeds the record ceiling. -/
def overflows (chunks : List Bytes) (ceiling : ℕ) : Bool :=
  (({ ceiling := ceiling } : ByteWriter).writeAll chunks).overflowed

/-- The common shape of `record_policy`, `record_capacity` and `record_path`: apply the input,
then journal it. -/
def recordInput (d : DurableGovernor) (type : RecordType) (chunks : List Bytes) (tooLarge : String)
    (apply : Governor → Except Status Unit × Governor) : Except Status Unit × DurableGovernor :=
  if overflows chunks kMaxJournalRecordBytes then (makeStatus .oversized tooLarge, d)
  else
    match apply d.governor with
    | (.error e, g) => (.error e, { d with governor := g })
    | (.ok (), g) =>
      match d.journal.append type chunks.flatten with
      | .error e => (.error e, { d with governor := g })
      | .ok journal =>
        (.ok (), { d with
          governor := g
          journal := journal
          recordsSinceSnapshot := d.recordsSinceSnapshot + 1 })

/-- `record_policy`. -/
def recordPolicy (d : DurableGovernor) (p : PolicyDocument) : Except Status Unit × DurableGovernor :=
  d.recordInput .policyAccepted (encode p) "policy record exceeded the ceiling" (·.submitPolicy p)

/-- `record_capacity`. -/
def recordCapacity (d : DurableGovernor) (c : ResourceCapacity) :
    Except Status Unit × DurableGovernor :=
  d.recordInput .capacityAccepted (encode c) "capacity record exceeded the ceiling"
    (·.submitCapacity c)

/-- `record_path`. -/
def recordPath (d : DurableGovernor) (p : PathDescriptor) : Except Status Unit × DurableGovernor :=
  d.recordInput .pathAccepted (encode p) "path record exceeded the ceiling" (·.submitPath p)

/-- `encode_snapshot`. -/
def encodeSnapshot (d : DurableGovernor) : Except Status Bytes :=
  match d.governor.serialize { ceiling := d.options.maxSnapshotBytes } with
  | (.error e, _) => .error e
  | (.ok (), w) => .ok w.buffer

/-- `compact_snapshot`: the snapshot replaces the journal. -/
def compactSnapshot (d : DurableGovernor) : Except Status Unit × DurableGovernor :=
  match d.encodeSnapshot with
  | .error e => (.error e, d)
  | .ok payload =>
    match writeSnapshot payload d.options.maxSnapshotBytes with
    | .error e => (.error e, d)
    | .ok file =>
      match d.journal.append .snapshot [] with
      | .error e => (.error e, { d with snapshot := some file })
      | .ok journal =>
        (.ok (), { d with
          snapshot := some file
          journal := journal.reset
          recordsSinceSnapshot := 0 })

/-- `record_evidence`: the sample is journalled before it can influence a decision. -/
def recordEvidence (d : DurableGovernor) (s : FlowSample) :
    Except Status FlowDecision × DurableGovernor :=
  if overflows (encode s) kMaxJournalRecordBytes then
    (makeStatus .oversized "evidence record exceeded the ceiling", d)
  else
    match d.journal.append .flowClassified (encode s).flatten with
    | .error e => (.error e, d)
    | .ok journal =>
      let decision := d.governor.submitEvidence s
      let d := { d with
        governor := decision.2
        journal := journal
        recordsSinceSnapshot := d.recordsSinceSnapshot + 1 }
      if d.options.snapshotEveryRecords ≠ 0 ∧
          d.recordsSinceSnapshot ≥ d.options.snapshotEveryRecords then
        (decision.1, d.compactSnapshot.2)
      else (decision.1, d)

/-- `record_tick`. -/
def recordTick (d : DurableGovernor) (now : Tick) : Except Status DecisionBatch × DurableGovernor :=
  match d.journal.append .tickCommitted (le64 now) with
  | .error e => (.error e, d)
  | .ok journal =>
    let batch := d.governor.tick now
    (batch.1, { d with
      governor := batch.2
      journal := journal
      recordsSinceSnapshot := d.recordsSinceSnapshot + 1 })

end DurableGovernor

end EFG
