/-
# The journal

The append-only journal of `persistence.hpp` and `persistence.cpp`.  A file is
the list of its bytes; the operations of the operating system always succeed, so
what remains is the format, the ceilings and the order in which bytes are
written and read back.
-/
import ElephantFlow.Snapshot

namespace EFG

open ByteCodec

/-! ## Records -/

/-- `RecordType`; `count` is the sentinel of the source. -/
inductive RecordType
  | beginStore | policyAccepted | capacityAccepted | pathAccepted | flowClassified
  | flowTransition | intentRecorded | intentTransition | intentFenced | tickCommitted | snapshot
  | shutdown | count
  deriving DecidableEq, Repr, Inhabited

def RecordType.toU16 : RecordType → UInt16
  | .beginStore => 1 | .policyAccepted => 2 | .capacityAccepted => 3 | .pathAccepted => 4
  | .flowClassified => 5 | .flowTransition => 6 | .intentRecorded => 7 | .intentTransition => 8
  | .intentFenced => 9 | .tickCommitted => 10 | .snapshot => 11 | .shutdown => 12 | .count => 13

/-- The cast of a raw record type below `count`. -/
def RecordType.ofU16 : UInt16 → RecordType
  | 1 => .beginStore | 2 => .policyAccepted | 3 => .capacityAccepted | 4 => .pathAccepted
  | 5 => .flowClassified | 6 => .flowTransition | 7 => .intentRecorded | 8 => .intentTransition
  | 9 => .intentFenced | 10 => .tickCommitted | 11 => .snapshot | 12 => .shutdown | _ => .count

/-- One record of the journal. -/
structure JournalRecord where
  type : RecordType
  sequence : UInt64
  payload : Bytes
  deriving DecidableEq, Repr, Inhabited

def kJournalMagic : Bytes := [0x45, 0x46, 0x47, 0x4A, 0x52, 0x4E, 0x4C, 0x31]
def kRecordMagic : UInt16 := 0xEF6A
def kJournalHeaderBytes : ℕ := 16
def kRecordHeaderBytes : ℕ := 20

/-- The header that a new journal file starts with. -/
def journalHeader : Bytes :=
  kJournalMagic ++ le32 kSchemaVersion ++ le32 (crc32c (kJournalMagic ++ le32 kSchemaVersion))

/-- The header of a record. -/
def JournalRecord.header (r : JournalRecord) : Bytes :=
  le16 kRecordMagic ++ le16 r.type.toU16 ++ le32 kSchemaVersion ++
    le32 (UInt32.ofNat r.payload.length) ++ le64 r.sequence

/-- The bytes that `Journal::append` writes for a record. -/
def JournalRecord.bytes (r : JournalRecord) : Bytes :=
  r.header ++ (r.payload ++ le32 (crc32c r.payload))

/-! ## Reading -/

/-- The fields of a record header. -/
structure RecordHeader where
  type : RecordType
  payloadLength : UInt32
  sequence : UInt64
  deriving DecidableEq, Repr

/-- The field checks of `Journal::parse_header`. -/
def decodeRecordHeader (maxRecordBytes : ℕ) : Decoder Status RecordHeader := do
  let e := truncated "journal record prefix is truncated"
  let magic ← Decoder.u16 e
  let rawType ← Decoder.u16 e
  if magic ≠ kRecordMagic then
    Decoder.refuse (badValue "journal record magic does not match")
  else if rawType = 0 ∨ rawType ≥ RecordType.count.toU16 then
    Decoder.refuse (badValue "journal record type is not recognized")
  else
    let schema ← Decoder.u32 (truncated "journal record schema is truncated")
    if schema ≠ kSchemaVersion then
      Decoder.refuse ⟨.versionMismatch, "journal record schema is not supported"⟩
    else
      let e := truncated "journal record body is truncated"
      let payloadLength ← Decoder.u32 e
      let sequence ← Decoder.u64 e
      if payloadLength.toNat > maxRecordBytes then
        Decoder.refuse (oversize "journal record length exceeds the ceiling")
      else pure ⟨RecordType.ofU16 rawType, payloadLength, sequence⟩

/-- `Journal::parse_header`. -/
def parseHeader (bytes : Bytes) (maxRecordBytes : ℕ) : Except Status RecordHeader :=
  if bytes.length < kRecordHeaderBytes then
    makeStatus .truncated "journal record header is truncated"
  else (decodeRecordHeader maxRecordBytes bytes).map Prod.fst

/-- What `Journal::replay` finds at its cursor. -/
inductive Parsed
  | done
  | torn
  | oversized (status : Status)
  | damaged
  | record (r : JournalRecord) (rest : Bytes)

/-- One iteration of the loop of `Journal::replay`, up to the visitor; `rest` are the bytes from
the cursor on. -/
def parseRecord (rest : Bytes) : Parsed :=
  if rest.length < kRecordHeaderBytes + 4 then (if rest = [] then .done else .torn)
  else
    match parseHeader rest kMaxJournalRecordBytes with
    | .error e => if e.code = .oversized then .oversized e else .torn
    | .ok h =>
      let body := rest.drop kRecordHeaderBytes
      let n := h.payloadLength.toNat
      if body.length < n + 4 then .torn
      else if crc32c (body.take n) ≠ UInt32.ofNat (leValue ((body.drop n).take 4)) then .damaged
      else .record ⟨h.type, h.sequence, body.take n⟩ (body.drop (n + 4))

/-- `JournalReplayStats`. -/
structure JournalReplayStats where
  records : UInt64 := 0
  bytes : UInt64 := 0
  sequenceLast : UInt64 := 0
  rejected : UInt64 := 0
  truncatedTail : Bool := false
  headerInvalid : Bool := false
  oversizeRecord : Bool := false
  deriving DecidableEq, Repr, Inhabited

/-- What a replay reports: its status, its statistics and the state of its visitor. -/
abbrev Replayed (σ : Type) := Except Status Unit × JournalReplayStats × σ

/-- The loop of `Journal::replay`.  `total` is the size of the record area; every iteration
consumes at least a record header, so a fuel above the number of bytes never runs out. -/
def replayLoop {σ : Type} (visitor : JournalRecord → Fallible Status σ Unit) (total : ℕ) :
    ℕ → Bytes → JournalReplayStats → σ → Replayed σ
  | 0, _, stats, s => (.ok (), stats, s)
  | n + 1, rest, stats, s =>
    let ended := { stats with bytes := UInt64.ofNat (total - rest.length) }
    match parseRecord rest with
    | .done => (.ok (), ended, s)
    | .torn => (.ok (), { ended with truncatedTail := true }, s)
    | .oversized e => (.error e, { stats with oversizeRecord := true }, s)
    | .damaged =>
      (makeStatus .integrityFailure "journal record checksum does not match",
        { stats with rejected := stats.rejected + 1 }, s)
    | .record r rest =>
      match visitor r s with
      | (.error e, s) => (.error e, { stats with rejected := stats.rejected + 1 }, s)
      | (.ok (), s) =>
        replayLoop visitor total n rest
          { stats with records := stats.records + 1, sequenceLast := r.sequence } s

/-- `Journal::replay` on a file, `none` when it does not exist.  The schema of the file header is
not looked at here. -/
def replay {σ : Type} (visitor : JournalRecord → Fallible Status σ Unit) (file : Option Bytes)
    (s : σ) : Replayed σ :=
  match file with
  | none => (makeStatus .notFound "journal file does not exist", { headerInvalid := true }, s)
  | some bytes =>
    if bytes.length < kJournalHeaderBytes ∨ bytes.take 8 ≠ kJournalMagic then
      (makeStatus .corrupt "journal header is invalid", { headerInvalid := true }, s)
    else if crc32c (bytes.take 12) ≠ UInt32.ofNat (leValue ((bytes.drop 12).take 4)) then
      (makeStatus .integrityFailure "journal header checksum does not match",
        { headerInvalid := true }, s)
    else
      let records := bytes.drop kJournalHeaderBytes
      replayLoop visitor records.length (records.length + 1) records {} s

/-- `Journal::verify`. -/
def verify (file : Option Bytes) : Replayed Unit := replay (fun _ => pure ()) file ()

/-! ## Opening and appending -/

/-- `Journal::Options`. -/
structure JournalOptions where
  maxRecordBytes : ℕ := kMaxJournalRecordBytes
  maxFileBytes : UInt64 := kMaxJournalFileBytes
  deriving DecidableEq, Repr, Inhabited

/-- An open `Journal`, with the content of its file. -/
structure Journal where
  file : Bytes
  options : JournalOptions := {}
  sequence : UInt64 := 0
  sizeBytes : UInt64 := 0
  deriving DecidableEq, Repr, Inhabited

/-- The header validation of `Journal::open` on an existing file. -/
def checkJournalHeader (bytes : Bytes) : Except Status Unit :=
  if bytes.length < kJournalHeaderBytes then
    makeStatus .truncated "journal header is truncated"
  else if bytes.take 8 ≠ kJournalMagic then
    makeStatus .corrupt "journal magic does not match"
  else if crc32c (bytes.take 12) ≠ UInt32.ofNat (leValue ((bytes.drop 12).take 4)) then
    makeStatus .integrityFailure "journal header checksum does not match"
  else if UInt32.ofNat (leValue ((bytes.drop 8).take 4)) ≠ kSchemaVersion then
    makeStatus .versionMismatch "journal schema version is not supported"
  else .ok ()

/-- `Journal::open`: the sequence is recovered from the intact part of the file, but the file
itself is left as it is. -/
def openJournal (file : Option Bytes) (options : JournalOptions) : Except Status Journal :=
  if options.maxRecordBytes = 0 ∨ options.maxRecordBytes > kMaxJournalRecordBytes then
    makeStatus .outOfRange "journal record ceiling is outside the range"
  else
    match file with
    | none => .ok { file := journalHeader, options := options
                    sizeBytes := UInt64.ofNat journalHeader.length }
    | some bytes =>
      match checkJournalHeader bytes with
      | .error e => .error e
      | .ok () =>
        .ok { file := bytes, options := options
              sequence := (verify (some bytes)).2.1.sequenceLast
              sizeBytes := UInt64.ofNat bytes.length }

namespace Journal

/-- `Journal::append`. -/
def append (j : Journal) (type : RecordType) (payload : Bytes) : Except Status Journal :=
  let recordBytes := UInt64.ofNat (kRecordHeaderBytes + payload.length + 4)
  if type = .count then makeStatus .invalidArgument "record type is not appendable"
  else if payload.length > j.options.maxRecordBytes then
    makeStatus .oversized "journal record exceeds the configured ceiling"
  else if recordBytes > j.options.maxFileBytes ∨
      j.sizeBytes > j.options.maxFileBytes - recordBytes then
    makeStatus .oversized "journal file ceiling would be exceeded"
  else if j.sequence = u64Max then makeStatus .overflow "journal sequence is exhausted"
  else
    .ok { j with
      file := j.file ++ (⟨type, j.sequence + 1, payload⟩ : JournalRecord).bytes
      sequence := j.sequence + 1
      sizeBytes := j.sizeBytes + recordBytes }

/-- A run of appends. -/
def appendAll (j : Journal) : List (RecordType × Bytes) → Except Status Journal
  | [] => .ok j
  | r :: rest =>
    match j.append r.1 r.2 with
    | .error e => .error e
    | .ok j => j.appendAll rest

/-- `Journal::reset`. -/
def reset (j : Journal) : Journal :=
  { j with file := journalHeader, sequence := 0, sizeBytes := UInt64.ofNat kJournalHeaderBytes }

end Journal

end EFG
