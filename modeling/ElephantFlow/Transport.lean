/-
# Frames

`transport.hpp` and `transport.cpp` above the sockets: the frame types, the fence
reasons, the framing codec, whose refusals are the only way in which a reply can
fail to be written, and the reader of one frame from a stream.
-/
import ElephantFlow.Hash
import ElephantFlow.Identity

namespace EFG

open ByteCodec Decoder

/-! ## Limits -/

def kMaxWorkers : ℕ := 2 ^ 10
def kMaxFramePayload : ℕ := 2 ^ 20
def kMaxFrameBytes : ℕ := kMaxFramePayload + 64
def kMaxEvidenceBatch : ℕ := 4096
def kMaxNameBytes : ℕ := 128

def kFrameMagic : UInt32 := 0x45464746
def kFrameCrcOffset : ℕ := 52
def kFrameHeaderBytes : ℕ := 56

/-! ## Frames -/

/-- `FrameType`. -/
inductive FrameType
  | invalid | hello | welcome | fence | heartbeat | evidenceBatch | evidenceAck | flowCompletion
  | policyPush | capacityPush | pathPush | intentGrant | statusReport | shutdown | bye | failure
  | count
  deriving DecidableEq, Repr, Inhabited

/-- The wire value of a frame type. -/
def FrameType.toU16 : FrameType → UInt16
  | .invalid => 0 | .hello => 1 | .welcome => 2 | .fence => 3 | .heartbeat => 4
  | .evidenceBatch => 5 | .evidenceAck => 6 | .flowCompletion => 7 | .policyPush => 8
  | .capacityPush => 9 | .pathPush => 10 | .intentGrant => 11 | .statusReport => 12
  | .shutdown => 13 | .bye => 14 | .failure => 15 | .count => 16

/-- The cast of a raw frame type below `count`. -/
def FrameType.ofU16 : UInt16 → FrameType
  | 0 => .invalid | 1 => .hello | 2 => .welcome | 3 => .fence | 4 => .heartbeat
  | 5 => .evidenceBatch | 6 => .evidenceAck | 7 => .flowCompletion | 8 => .policyPush
  | 9 => .capacityPush | 10 => .pathPush | 11 => .intentGrant | 12 => .statusReport
  | 13 => .shutdown | 14 => .bye | 15 => .failure | _ => .count

/-- `FenceReason`. -/
inductive FenceReason
  | none | epochStale | epochAhead | bootMismatch | workerUnknown | workerDuplicate
  | frameMalformed | frameOversized | integrityFailure | schemaMismatch | generationRegression
  | shuttingDown | populationCeiling
  deriving DecidableEq, Repr, Inhabited

/-- The wire value of a fence reason. -/
def FenceReason.toU16 : FenceReason → UInt16
  | .none => 0 | .epochStale => 1 | .epochAhead => 2 | .bootMismatch => 3 | .workerUnknown => 4
  | .workerDuplicate => 5 | .frameMalformed => 6 | .frameOversized => 7 | .integrityFailure => 8
  | .schemaMismatch => 9 | .generationRegression => 10 | .shuttingDown => 11
  | .populationCeiling => 12

/-- `to_string(FenceReason)`. -/
def FenceReason.text : FenceReason → String
  | .none => "none"
  | .epochStale => "epoch_stale"
  | .epochAhead => "epoch_ahead"
  | .bootMismatch => "boot_mismatch"
  | .workerUnknown => "worker_unknown"
  | .workerDuplicate => "worker_duplicate"
  | .frameMalformed => "frame_malformed"
  | .frameOversized => "frame_oversized"
  | .integrityFailure => "integrity_failure"
  | .schemaMismatch => "schema_mismatch"
  | .generationRegression => "generation_regression"
  | .shuttingDown => "shutting_down"
  | .populationCeiling => "population_ceiling"

/-- `FrameHeader`. -/
structure FrameHeader where
  type : FrameType := .invalid
  flags : UInt16 := 0
  sequence : UInt64 := 0
  epoch : EpochId := {}
  boot : BootId := {}
  worker : WorkerId := {}
  payloadLength : UInt32 := 0
  payloadCrc : UInt32 := 0
  deriving DecidableEq, Repr, Inhabited

/-- `Frame`. -/
structure Frame where
  header : FrameHeader := {}
  payload : Bytes := []
  deriving DecidableEq, Repr, Inhabited

/-- The header fields that `FrameCodec::encode` writes in front of the header checksum. -/
def headerChunks (f : Frame) : List Bytes :=
  [le32 kFrameMagic, le32 kSchemaVersion, le16 f.header.type.toU16, le16 f.header.flags,
    le64 f.header.sequence, le64 f.header.epoch.value, le64 f.header.boot.value,
    le64 f.header.worker.value, le32 (UInt32.ofNat f.payload.length), le32 (crc32c f.payload)]

/-- `FrameCodec::encode` into a new writer with the given ceiling. -/
def encodeFrameInto (ceiling maxPayload : ℕ) (f : Frame) : Except Status Bytes :=
  if f.header.type = .count ∨ f.header.type = .invalid then
    makeStatus .invalidArgument "frame type is not encodable"
  else if f.payload.length > maxPayload then
    makeStatus .oversized "frame payload exceeds the configured ceiling"
  else
    let header := ({ ceiling := ceiling } : ByteWriter).writeAll (headerChunks f)
    if header.buffer.length ≠ kFrameCrcOffset then
      makeStatus .internal "frame header layout drifted from the constant"
    else
      let whole := header.writeAll [le32 (crc32c header.buffer), f.payload]
      if whole.overflowed then
        makeStatus .oversized "encoded frame exceeded the writer ceiling"
      else .ok whole.buffer

/-- `FrameCodec::encode` into the writer of `write_frame`. -/
def encodeFrame (maxPayload : ℕ) (f : Frame) : Except Status Bytes :=
  encodeFrameInto kMaxFrameBytes maxPayload f

/-! ## Decoding -/

/-- The reads and checks of `FrameCodec::decode_header`; `checksum` is the checksum of the bytes in
front of the one that is read. -/
def decodeHeaderFields (maxPayload : ℕ) (checksum : UInt32) : Decoder Status FrameHeader := do
  let e : Status := ⟨.truncated, "frame header prefix is truncated"⟩
  let magic ← u32 e
  let schema ← u32 e
  let rawType ← u16 e
  let flags ← u16 e
  if magic ≠ kFrameMagic then
    refuse ⟨.corrupt, "frame magic does not match"⟩
  else if schema ≠ kSchemaVersion then
    refuse ⟨.versionMismatch, "frame schema version is not supported"⟩
  else if rawType = 0 ∨ rawType ≥ FrameType.count.toU16 then
    refuse ⟨.corrupt, "frame type is not recognized"⟩
  else
    let e : Status := ⟨.truncated, "frame header body is truncated"⟩
    let sequence ← u64 e
    let epoch ← u64 e
    let boot ← u64 e
    let worker ← u64 e
    let payloadLength ← u32 e
    let payloadCrc ← u32 e
    let headerCrc ← u32 ⟨.truncated, "frame header checksum is truncated"⟩
    if headerCrc ≠ checksum then
      refuse ⟨.integrityFailure, "frame header checksum does not match"⟩
    else if payloadLength.toNat > maxPayload then
      refuse ⟨.oversized, "frame payload length exceeds the ceiling"⟩
    else
      pure ⟨FrameType.ofU16 rawType, flags, sequence, ⟨epoch⟩, ⟨boot⟩, ⟨worker⟩, payloadLength,
        payloadCrc⟩

/-- `FrameCodec::decode_header`. -/
def decodeHeader (maxPayload : ℕ) (bytes : Bytes) : Except Status FrameHeader :=
  if bytes.length < kFrameHeaderBytes then
    makeStatus .truncated "frame header is shorter than 56 bytes"
  else
    (decodeHeaderFields maxPayload (crc32c (bytes.take kFrameCrcOffset))
      (bytes.take kFrameHeaderBytes)).map Prod.fst

/-- `FrameCodec::decode`. -/
def decodeFrame (maxPayload : ℕ) (bytes : Bytes) : Except Status Frame :=
  match decodeHeader maxPayload bytes with
  | .error e => .error e
  | .ok header =>
    if bytes.length < kFrameHeaderBytes + header.payloadLength.toNat then
      makeStatus .truncated "frame payload is shorter than declared"
    else
      let payload := (bytes.drop kFrameHeaderBytes).take header.payloadLength.toNat
      if crc32c payload ≠ header.payloadCrc then
        makeStatus .integrityFailure "frame payload checksum does not match"
      else .ok ⟨header, payload⟩

/-! ## Streams -/

/-- `TcpStream::read_exact` on a stream that delivers the given bytes and then ends. -/
def readExact (n : ℕ) (stream : Bytes) : Except Status Bytes × Bytes :=
  if stream.length < n then (makeStatus .closed "peer closed the connection mid frame", [])
  else (.ok (stream.take n), stream.drop n)

/-- `read_frame`: the frame, and what is left of the stream. -/
def readFrame (maxPayload : ℕ) (stream : Bytes) : Except Status Frame × Bytes :=
  match readExact kFrameHeaderBytes stream with
  | (.error e, rest) => (.error e, rest)
  | (.ok header, rest) =>
    match decodeHeader maxPayload header with
    | .error e => (.error e, rest)
    | .ok parsed =>
      if parsed.payloadLength ≠ 0 then
        match readExact parsed.payloadLength.toNat rest with
        | (.error e, rest) => (.error e, rest)
        | (.ok tail, rest) => (decodeFrame maxPayload (header ++ tail), rest)
      else (decodeFrame maxPayload header, rest)

end EFG
