/-
# Frames on a stream

A frame is written as a header of ten fields, the checksum of the header, and the payload.  What
the decoder makes of any 56 bytes is said once, in terms of the fields they spell
(`decodeHeader_raw`); from it follow that a frame is read back from its bytes
(`readFrame_wire`), that a stream cut inside a frame ends there (`readFrame_cut`), that whatever
is accepted carries the bytes of the frame it is read as (`decodeFrame_eq_ok`), and that no single
changed byte goes unnoticed.
-/
import ElephantFlow.Checksum
import ElephantFlow.Transport

namespace EFG

open ByteCodec

/-! ## Header fields -/

/-- The ten fields in front of the header checksum, as they stand on the wire. -/
structure RawHeader where
  magic : UInt32
  schema : UInt32
  rawType : UInt16
  flags : UInt16
  sequence : UInt64
  epoch : UInt64
  boot : UInt64
  worker : UInt64
  payloadLength : UInt32
  payloadCrc : UInt32

namespace RawHeader

/-- The bytes of the fields. -/
def bytes (h : RawHeader) : Bytes :=
  le32 h.magic ++ (le32 h.schema ++ (le16 h.rawType ++ (le16 h.flags ++ (le64 h.sequence ++
    (le64 h.epoch ++ (le64 h.boot ++ (le64 h.worker ++ (le32 h.payloadLength ++
      le32 h.payloadCrc))))))))

@[simp] theorem length_bytes (h : RawHeader) : h.bytes.length = kFrameCrcOffset := by
  simp [bytes, kFrameCrcOffset]

/-- The header that the decoder returns for the fields. -/
def header (h : RawHeader) : FrameHeader where
  type := FrameType.ofU16 h.rawType
  flags := h.flags
  sequence := h.sequence
  epoch := ⟨h.epoch⟩
  boot := ⟨h.boot⟩
  worker := ⟨h.worker⟩
  payloadLength := h.payloadLength
  payloadCrc := h.payloadCrc

/-- The fields pass the checks of `FrameCodec::decode_header`. -/
structure Accepted (maxPayload : ℕ) (h : RawHeader) : Prop where
  magic : h.magic = kFrameMagic
  schema : h.schema = kSchemaVersion
  type : ¬ (h.rawType = 0 ∨ h.rawType ≥ FrameType.count.toU16)
  length : h.payloadLength.toNat ≤ maxPayload

end RawHeader

theorem exists_raw {bs : Bytes} (h : kFrameHeaderBytes ≤ bs.length) :
    ∃ (raw : RawHeader) (checksum : UInt32),
      bs = raw.bytes ++ (le32 checksum ++ bs.drop kFrameHeaderBytes) := by
  have hfrom : ∀ i n, i + n ≤ 56 → n ≤ (bs.drop i).length := by
    intro i n hin
    unfold kFrameHeaderBytes at h
    rw [List.length_drop]
    omega
  obtain ⟨magic, e₁⟩ := exists_le32_append (hfrom 0 4 (by omega))
  obtain ⟨schema, e₂⟩ := exists_le32_append (hfrom 4 4 (by omega))
  obtain ⟨rawType, e₃⟩ := exists_le16_append (hfrom 8 2 (by omega))
  obtain ⟨flags, e₄⟩ := exists_le16_append (hfrom 10 2 (by omega))
  obtain ⟨sequence, e₅⟩ := exists_le64_append (hfrom 12 8 (by omega))
  obtain ⟨epoch, e₆⟩ := exists_le64_append (hfrom 20 8 (by omega))
  obtain ⟨boot, e₇⟩ := exists_le64_append (hfrom 28 8 (by omega))
  obtain ⟨worker, e₈⟩ := exists_le64_append (hfrom 36 8 (by omega))
  obtain ⟨payloadLength, e₉⟩ := exists_le32_append (hfrom 44 4 (by omega))
  obtain ⟨payloadCrc, e₁₀⟩ := exists_le32_append (hfrom 48 4 (by omega))
  obtain ⟨checksum, e₁₁⟩ := exists_le32_append (hfrom 52 4 (by omega))
  rw [List.drop_drop] at e₂ e₃ e₄ e₅ e₆ e₇ e₈ e₉ e₁₀ e₁₁
  refine ⟨⟨magic, schema, rawType, flags, sequence, epoch, boot, worker, payloadLength, payloadCrc⟩,
    checksum, ?_⟩
  unfold RawHeader.bytes kFrameHeaderBytes
  simp only [List.append_assoc]
  rw [e₁₁, e₁₀, e₉, e₈, e₇, e₆, e₅, e₄, e₃, e₂]
  exact e₁.symm

/-- What `FrameCodec::decode_header` makes of the fields. -/
theorem decodeHeader_raw {maxPayload : ℕ} (raw : RawHeader) (checksum : UInt32) (rest : Bytes)
    (header : FrameHeader) :
    decodeHeader maxPayload (raw.bytes ++ (le32 checksum ++ rest)) = .ok header ↔
      raw.Accepted maxPayload ∧ checksum = crc32c raw.bytes ∧ header = raw.header := by
  have hlength : ¬ (raw.bytes ++ (le32 checksum ++ rest)).length < kFrameHeaderBytes := by
    simp only [List.length_append, RawHeader.length_bytes, length_le32, kFrameCrcOffset,
      kFrameHeaderBytes]
    omega
  have hfront : (raw.bytes ++ (le32 checksum ++ rest)).take kFrameCrcOffset = raw.bytes :=
    List.take_left' raw.length_bytes
  have hwhole : (raw.bytes ++ (le32 checksum ++ rest)).take kFrameHeaderBytes =
      raw.bytes ++ (le32 checksum ++ []) := by
    rw [List.append_nil, ← List.append_assoc]
    exact List.take_left' (by simp [kFrameCrcOffset, kFrameHeaderBytes])
  unfold decodeHeader
  rw [if_neg hlength, hfront, hwhole]
  generalize crc32c raw.bytes = expected
  unfold decodeHeaderFields RawHeader.bytes
  simp only [List.append_assoc, bind_u32_apply, bind_u16_apply]
  by_cases hm : raw.magic ≠ kFrameMagic
  · rw [if_pos hm]
    refine iff_of_false (fun h => ?_) fun h => hm h.1.magic
    cases h
  rw [if_neg hm]
  by_cases hv : raw.schema ≠ kSchemaVersion
  · rw [if_pos hv]
    refine iff_of_false (fun h => ?_) fun h => hv h.1.schema
    cases h
  rw [if_neg hv]
  by_cases ht : raw.rawType = 0 ∨ raw.rawType ≥ FrameType.count.toU16
  · rw [if_pos ht]
    refine iff_of_false (fun h => ?_) fun h => h.1.type ht
    cases h
  rw [if_neg ht]
  simp only [bind_u32_apply, bind_u64_apply]
  by_cases hc : checksum ≠ expected
  · rw [if_pos hc]
    refine iff_of_false (fun h => ?_) fun h => hc h.2.1
    cases h
  rw [if_neg hc]
  by_cases hl : raw.payloadLength.toNat > maxPayload
  · rw [if_pos hl]
    refine iff_of_false (fun h => ?_) fun h => Nat.not_lt.mpr h.1.length hl
    cases h
  rw [if_neg hl]
  constructor
  · intro h
    refine ⟨⟨not_not.mp hm, not_not.mp hv, ht, Nat.not_lt.mp hl⟩, not_not.mp hc, ?_⟩
    exact (Except.ok.inj h).symm
  · rintro ⟨-, -, rfl⟩
    rfl

/-! ## Frames and their bytes -/

theorem FrameType.ofU16_toU16 (t : FrameType) : FrameType.ofU16 t.toU16 = t := by
  cases t <;> rfl

theorem FrameType.recognized {t : FrameType} (h : ¬ (t = .count ∨ t = .invalid)) :
    ¬ (t.toU16 = 0 ∨ t.toU16 ≥ FrameType.count.toU16) := by
  cases t <;> simp_all [FrameType.toU16]

theorem FrameType.toU16_ofU16 {raw : UInt16} (h : ¬ (raw = 0 ∨ raw ≥ FrameType.count.toU16)) :
    (FrameType.ofU16 raw).toU16 = raw ∧
      ¬ (FrameType.ofU16 raw = .count ∨ FrameType.ofU16 raw = .invalid) := by
  have hlt : raw.toNat < 16 ∧ raw.toNat ≠ 0 := by
    rw [not_or, ge_iff_le, UInt16.not_le] at h
    refine ⟨UInt16.lt_iff_toNat_lt.mp h.2, fun hzero => h.1 ?_⟩
    exact UInt16.toNat_inj.mp hzero
  have hraw : raw = UInt16.ofNat raw.toNat := (UInt16.ofNat_toNat).symm
  rw [hraw]
  obtain ⟨hlt, hne⟩ := hlt
  interval_cases raw.toNat
  all_goals first | exact absurd rfl hne | exact ⟨rfl, by decide⟩

namespace Frame

variable {maxPayload : ℕ} {f : Frame} {frames : List Frame} {encodings : List Bytes}

/-- The header fields that are written for a frame. -/
def raw (f : Frame) : RawHeader where
  magic := kFrameMagic
  schema := kSchemaVersion
  rawType := f.header.type.toU16
  flags := f.header.flags
  sequence := f.header.sequence
  epoch := f.header.epoch.value
  boot := f.header.boot.value
  worker := f.header.worker.value
  payloadLength := UInt32.ofNat f.payload.length
  payloadCrc := crc32c f.payload

/-- The bytes of a frame. -/
def wire (f : Frame) : Bytes := f.raw.bytes ++ (le32 (crc32c f.raw.bytes) ++ f.payload)

@[simp] theorem length_wire (f : Frame) : f.wire.length = kFrameHeaderBytes + f.payload.length := by
  simp only [wire, List.length_append, RawHeader.length_bytes, length_le32, kFrameCrcOffset,
    kFrameHeaderBytes]
  omega

/-- The frame with the two header fields that the encoder computes from the payload, whatever they
were before. -/
def completed (f : Frame) : Frame :=
  { f with header := { f.header with
      payloadLength := UInt32.ofNat f.payload.length
      payloadCrc := crc32c f.payload } }

/-- The checks of `FrameCodec::encode` on the frame itself. -/
structure Sendable (maxPayload : ℕ) (f : Frame) : Prop where
  type : ¬ (f.header.type = .count ∨ f.header.type = .invalid)
  length : f.payload.length ≤ maxPayload

theorem flatten_headerChunks (f : Frame) : (headerChunks f).flatten = f.raw.bytes := by
  simp [headerChunks, RawHeader.bytes, raw]

/-- What `FrameCodec::encode` writes, and when. -/
theorem encodeFrameInto_eq_ok {ceiling : ℕ} {bytes : Bytes} :
    encodeFrameInto ceiling maxPayload f = .ok bytes ↔
      f.Sendable maxPayload ∧ f.wire.length ≤ ceiling ∧ bytes = f.wire := by
  -- a writer that did not overflow on the header holds exactly the header
  have hheader : ∀ w : ByteWriter, w = ({ ceiling := ceiling } : ByteWriter).writeAll (headerChunks f) →
      w.overflowed = false → w.buffer = f.raw.bytes := by
    rintro w rfl hover
    rw [ByteWriter.writeAll_buffer hover, flatten_headerChunks, List.nil_append]
  have hwithin := ByteWriter.writeAll_within (w := { ceiling := ceiling }) (Nat.zero_le ceiling)
    (headerChunks f)
  unfold encodeFrameInto
  simp only [ite_makeStatus_eq_ok, not_not]
  generalize hw : ({ ceiling := ceiling } : ByteWriter).writeAll (headerChunks f) = w at hwithin ⊢
  obtain ⟨hceiling, hbuffer⟩ := hwithin
  constructor
  · rintro ⟨htype, hlength, -, hroom, hbytes⟩
    rw [Bool.not_eq_true] at hroom
    have hover : w.overflowed = false := by
      cases hover : w.overflowed with
      | false => rfl
      | true => rwa [ByteWriter.writeAll_of_overflowed hover, hover] at hroom
    have hwire : (w.writeAll [le32 (crc32c w.buffer), f.payload]).buffer = f.wire := by
      rw [ByteWriter.writeAll_buffer hroom, hheader w hw.symm hover]
      simp [wire]
    have hfit := (ByteWriter.writeAll_within (hceiling ▸ hbuffer)
      [le32 (crc32c w.buffer), f.payload]).2
    rw [hwire, hceiling] at hfit
    rw [hwire, Except.ok.injEq] at hbytes
    exact ⟨⟨htype, Nat.not_lt.mp hlength⟩, hfit, hbytes.symm⟩
  · rintro ⟨hsend, hfit, rfl⟩
    rw [length_wire, kFrameHeaderBytes] at hfit
    have hover : w.overflowed = false := by
      rw [← hw]
      refine ByteWriter.writeAll_overflowed_eq_false rfl ?_
      rw [flatten_headerChunks, RawHeader.length_bytes, kFrameCrcOffset, List.length_nil]
      simp only
      omega
    have hbytes := hheader w hw.symm hover
    have hroom : (w.writeAll [le32 (crc32c w.buffer), f.payload]).overflowed = false := by
      refine ByteWriter.writeAll_overflowed_eq_false hover ?_
      rw [hbytes, RawHeader.length_bytes, kFrameCrcOffset, hceiling]
      simp only [List.flatten_cons, List.flatten_nil, List.length_append, length_le32,
        List.length_nil]
      omega
    refine ⟨hsend.type, Nat.not_lt.mpr hsend.length, ?_, ?_, ?_⟩
    · rw [hbytes, RawHeader.length_bytes]
    · rw [hroom]
      exact Bool.false_ne_true
    · rw [ByteWriter.writeAll_buffer hroom, hbytes]
      simp [wire]

/-- A frame that `write_frame` encodes. -/
structure Encodable (maxPayload : ℕ) (f : Frame) : Prop extends f.Sendable maxPayload where
  small : f.payload.length < 2 ^ 32

theorem encodeFrame_eq_ok {bytes : Bytes} (h : encodeFrame maxPayload f = .ok bytes) :
    f.Encodable maxPayload ∧ bytes = f.wire := by
  obtain ⟨hsend, hfit, hbytes⟩ := encodeFrameInto_eq_ok.mp h
  rw [length_wire, kMaxFrameBytes, kMaxFramePayload] at hfit
  exact ⟨⟨hsend, by omega⟩, hbytes⟩

/-! ## Reading a frame back -/

section Reading

variable {f : Frame}

theorem Encodable.toNat_length (h : f.Encodable maxPayload) :
    (UInt32.ofNat f.payload.length).toNat = f.payload.length :=
  UInt32.toNat_ofNat_of_lt' h.small

theorem Encodable.accepted (h : f.Encodable maxPayload) : f.raw.Accepted maxPayload where
  magic := rfl
  schema := rfl
  type := FrameType.recognized h.type
  length := by
    show (UInt32.ofNat f.payload.length).toNat ≤ maxPayload
    rw [h.toNat_length]
    exact h.length

theorem header_raw (f : Frame) : f.raw.header = f.completed.header := by
  unfold RawHeader.header raw completed
  rw [FrameType.ofU16_toU16]

theorem Encodable.decodeHeader (h : f.Encodable maxPayload) (rest : Bytes) :
    EFG.decodeHeader maxPayload (f.raw.bytes ++ (le32 (crc32c f.raw.bytes) ++ rest)) =
      .ok f.completed.header :=
  (decodeHeader_raw f.raw _ rest _).mpr ⟨h.accepted, rfl, (header_raw f).symm⟩

theorem length_front (f : Frame) :
    (f.raw.bytes ++ le32 (crc32c f.raw.bytes)).length = kFrameHeaderBytes := by
  rw [List.length_append, RawHeader.length_bytes, length_le32, kFrameCrcOffset, kFrameHeaderBytes]

theorem wire_append (f : Frame) (rest : Bytes) :
    f.wire ++ rest = (f.raw.bytes ++ le32 (crc32c f.raw.bytes)) ++ (f.payload ++ rest) := by
  simp only [wire, List.append_assoc]

theorem Encodable.decodeFrame (h : f.Encodable maxPayload) (rest : Bytes) :
    EFG.decodeFrame maxPayload (f.wire ++ rest) = .ok f.completed := by
  have hheader := h.decodeHeader (f.payload ++ rest)
  rw [← List.append_assoc, ← wire_append] at hheader
  have hlength : f.completed.header.payloadLength.toNat = f.payload.length := h.toNat_length
  have hdrop : (f.wire ++ rest).drop kFrameHeaderBytes = f.payload ++ rest := by
    rw [wire_append]
    exact List.drop_left' (length_front f)
  unfold EFG.decodeFrame
  rw [hheader]
  dsimp only
  rw [hlength, hdrop, List.take_left, if_neg, if_neg]
  · rfl
  · exact fun hne => hne rfl
  · rw [List.length_append, length_wire]
    omega

/-- `read_frame` on a stream whose first 56 bytes are the header of a frame. -/
theorem Encodable.readFrame_front (h : f.Encodable maxPayload) (rest : Bytes) :
    readFrame maxPayload ((f.raw.bytes ++ le32 (crc32c f.raw.bytes)) ++ rest) =
      if rest.length < f.payload.length then
        (makeStatus .closed "peer closed the connection mid frame", [])
      else
        (EFG.decodeFrame maxPayload ((f.raw.bytes ++ le32 (crc32c f.raw.bytes)) ++
          rest.take f.payload.length), rest.drop f.payload.length) := by
  have hexact : readExact kFrameHeaderBytes ((f.raw.bytes ++ le32 (crc32c f.raw.bytes)) ++ rest) =
      (.ok (f.raw.bytes ++ le32 (crc32c f.raw.bytes)), rest) := by
    unfold readExact
    rw [if_neg, List.take_left' (length_front f), List.drop_left' (length_front f)]
    rw [List.length_append, length_front]
    omega
  have hheader := h.decodeHeader []
  rw [List.append_nil] at hheader
  have hlength : f.completed.header.payloadLength.toNat = f.payload.length := h.toNat_length
  unfold readFrame
  rw [hexact]
  dsimp only
  rw [hheader]
  dsimp only
  by_cases hzero : f.completed.header.payloadLength ≠ 0
  · rw [if_pos hzero, hlength, readExact]
    split_ifs <;> rfl
  · have hnil : f.payload.length = 0 := by
      rw [← hlength, not_not.mp hzero]
      rfl
    rw [if_neg hzero, hnil, if_neg (Nat.not_lt_zero _), List.take_zero, List.append_nil,
      List.drop_zero]

theorem Encodable.readFrame_wire (h : f.Encodable maxPayload) (rest : Bytes) :
    readFrame maxPayload (f.wire ++ rest) = (.ok f.completed, rest) := by
  have hdecode := h.decodeFrame []
  rw [wire_append, List.append_nil] at hdecode
  rw [wire_append, h.readFrame_front, List.take_left, List.drop_left, hdecode, if_neg]
  rw [List.length_append]
  omega

/-- A stream that ends inside a frame is reported as closed. -/
theorem Encodable.readFrame_cut (h : f.Encodable maxPayload) {cut : ℕ}
    (hcut : cut < f.wire.length) :
    readFrame maxPayload (f.wire.take cut) =
      (makeStatus .closed "peer closed the connection mid frame", []) := by
  rw [length_wire] at hcut
  by_cases hfront : cut < kFrameHeaderBytes
  · unfold readFrame readExact
    rw [if_pos]
    · rfl
    · rw [List.length_take]
      omega
  · have hsplit : f.wire.take cut = (f.raw.bytes ++ le32 (crc32c f.raw.bytes)) ++
        f.payload.take (cut - kFrameHeaderBytes) := by
      have hwire := wire_append f []
      rw [List.append_nil, List.append_nil] at hwire
      rw [hwire, List.take_append, length_front, List.take_of_length_le]
      rw [length_front]
      omega
    rw [hsplit, h.readFrame_front, if_pos]
    rw [List.length_take]
    omega

end Reading

/-- Whatever `FrameCodec::decode` accepts starts with the bytes of the frame it returns. -/
theorem decodeFrame_eq_ok {bs : Bytes} (h : decodeFrame maxPayload bs = .ok f) :
    f.Encodable maxPayload ∧ f.completed = f ∧
      bs = f.wire ++ bs.drop (kFrameHeaderBytes + f.payload.length) := by
  unfold decodeFrame at h
  have hlength : kFrameHeaderBytes ≤ bs.length := by
    by_contra hshort
    rw [EFG.decodeHeader, if_pos (Nat.not_le.mp hshort)] at h
    cases h
  obtain ⟨raw, checksum, hbs⟩ := exists_raw hlength
  rcases hheader : EFG.decodeHeader maxPayload bs with e | header
  · rw [hheader] at h
    cases h
  rw [hheader] at h
  rw [hbs] at hheader
  obtain ⟨haccepted, hchecksum, rfl⟩ := (decodeHeader_raw raw checksum _ header).mp hheader
  dsimp only at h
  simp only [ite_makeStatus_eq_ok, not_not] at h
  obtain ⟨hroom, hcrc, hframe⟩ := h
  have hpayload : ((bs.drop kFrameHeaderBytes).take raw.header.payloadLength.toNat).length =
      raw.payloadLength.toNat := by
    rw [List.length_take, List.length_drop]
    exact Nat.min_eq_left (Nat.le_sub_of_add_le' (Nat.not_lt.mp hroom))
  obtain ⟨htype, hknown⟩ := FrameType.toU16_ofU16 haccepted.type
  have hraw : f.raw = raw := by
    rw [← Except.ok.inj hframe, Frame.raw, hpayload, UInt32.ofNat_toNat, hcrc,
      ← haccepted.magic, ← haccepted.schema]
    unfold RawHeader.header
    rw [htype]
  have hlen : f.payload.length = raw.payloadLength.toNat := by
    rw [← Except.ok.inj hframe]
    exact hpayload
  have hheader : f.header = raw.header := by rw [← Except.ok.inj hframe]
  refine ⟨⟨⟨?_, ?_⟩, ?_⟩, ?_, ?_⟩
  · rw [hheader]
    exact hknown
  · rw [hlen]
    exact haccepted.length
  · rw [hlen]
    exact raw.payloadLength.toNat_lt
  · have hcompleted := header_raw f
    rw [hraw, ← hheader] at hcompleted
    show ({ f with header := f.completed.header } : Frame) = f
    rw [← hcompleted]
  · have hpayload' : f.payload = (bs.drop kFrameHeaderBytes).take f.payload.length := by
      rw [hlen, ← Except.ok.inj hframe]
      rfl
    have hrest : f.payload ++ bs.drop (kFrameHeaderBytes + f.payload.length) =
        bs.drop kFrameHeaderBytes := by
      have hsplit := List.take_append_drop f.payload.length (bs.drop kFrameHeaderBytes)
      rwa [← hpayload', List.drop_drop] at hsplit
    rw [wire, hraw, ← hchecksum, List.append_assoc, List.append_assoc, hrest]
    exact hbs

/-! ## Streams of frames -/

/-- Successive calls of `read_frame`, up to the first one that fails and at most `n`: the frames,
and the status of the failure. -/
def readFrames (maxPayload : ℕ) : ℕ → Bytes → List Frame × Option Status
  | 0, _ => ([], none)
  | n + 1, stream =>
    match readFrame maxPayload stream with
    | (.error e, _) => ([], some e)
    | (.ok f, rest) => (f :: (readFrames maxPayload n rest).1, (readFrames maxPayload n rest).2)

/-- What `read_exact` reports at the end of a stream. -/
def endOfStream : Status := ⟨.closed, "peer closed the connection mid frame"⟩

theorem readFrames_next {stream rest : Bytes} (h : readFrame maxPayload stream = (.ok f, rest))
    (n : ℕ) :
    readFrames maxPayload (n + 1) stream =
      (f :: (readFrames maxPayload n rest).1, (readFrames maxPayload n rest).2) := by
  rw [readFrames, h]

theorem readFrames_end {stream : Bytes}
    (h : readFrame maxPayload stream =
      (makeStatus .closed "peer closed the connection mid frame", [])) (n : ℕ) :
    readFrames maxPayload (n + 1) stream = ([], some endOfStream) := by
  rw [readFrames, h]
  rfl

/-- The encodings of a list of frames. -/
def Encodes (maxPayload : ℕ) : List Frame → List Bytes → Prop :=
  List.Forall₂ fun f bytes => encodeFrame maxPayload f = .ok bytes

theorem readFrames_take (h : Encodes maxPayload frames encodings) (cut : ℕ) {n : ℕ}
    (hn : frames.length < n) :
    ∃ j ≤ frames.length, (encodings.take j).flatten.length ≤ cut ∧
      (j < frames.length → cut < (encodings.take (j + 1)).flatten.length) ∧
      readFrames maxPayload n (encodings.flatten.take cut) =
        ((frames.take j).map completed, some endOfStream) := by
  induction h generalizing cut n with
  | nil =>
    obtain ⟨n, rfl⟩ := Nat.exists_eq_succ_of_ne_zero (Nat.ne_of_gt hn)
    refine ⟨0, le_refl 0, Nat.zero_le cut, fun h => absurd h (Nat.lt_irrefl 0), ?_⟩
    rw [List.flatten_nil, List.take_nil]
    exact readFrames_end rfl n
  | @cons f bytes frames encodings hf _ ih =>
    obtain ⟨n, rfl⟩ := Nat.exists_eq_succ_of_ne_zero (Nat.ne_of_gt (Nat.zero_lt_of_lt hn))
    obtain ⟨hencodable, rfl⟩ := encodeFrame_eq_ok hf
    rw [List.flatten_cons]
    by_cases hcut : cut < f.wire.length
    · -- the cut lies inside the first frame
      refine ⟨0, Nat.zero_le _, Nat.zero_le cut, fun _ => ?_, ?_⟩
      · simpa using hcut
      · rw [List.take_append_of_le_length (Nat.le_of_lt hcut)]
        exact readFrames_end (hencodable.readFrame_cut hcut) n
    · obtain ⟨j, hj, hbefore, hafter, hread⟩ :=
        ih (cut - f.wire.length) (Nat.lt_of_succ_lt_succ hn)
      refine ⟨j + 1, Nat.succ_le_succ hj, ?_, fun hlt => ?_, ?_⟩
      · rw [List.take_succ_cons, List.flatten_cons, List.length_append]
        omega
      · have hafter' := hafter (Nat.lt_of_succ_lt_succ hlt)
        rw [List.take_succ_cons, List.flatten_cons, List.length_append]
        omega
      · rw [List.take_append, List.take_of_length_le (Nat.not_lt.mp hcut),
          readFrames_next (hencodable.readFrame_wire _), hread]
        rfl

theorem readFrames_flatten (h : Encodes maxPayload frames encodings) {n : ℕ}
    (hn : frames.length < n) :
    readFrames maxPayload n encodings.flatten = (frames.map completed, some endOfStream) := by
  obtain ⟨j, hj, hbefore, hafter, hread⟩ := readFrames_take h encodings.flatten.length hn
  rw [List.take_length] at hread
  have hall : j = frames.length := by
    by_contra hne
    have hlt := hafter (lt_of_le_of_ne hj hne)
    have hle : (encodings.take (j + 1)).flatten.length ≤ encodings.flatten.length :=
      ((List.take_sublist (j + 1) encodings).flatten).length_le
    omega
  rw [hread, hall, List.take_length]

/-- **Framing is lossless.**  Reading the concatenated encodings of a list of frames returns the
frames, each with the length and the checksum of its payload in its header, and then the end of the
stream.  A stream that is cut returns the frames wholly before the cut and then its end.  A byte
string that is accepted as one whole frame is what that frame is encoded as. -/
theorem stream_of_frames_read_back {frames : List Frame} {encodings : List Bytes}
    (h : Encodes maxPayload frames encodings) :
    (∀ n, frames.length < n → readFrames maxPayload n encodings.flatten =
      (frames.map completed, some endOfStream)) ∧
    (∀ cut n, frames.length < n → ∃ j ≤ frames.length, (encodings.take j).flatten.length ≤ cut ∧
      (j < frames.length → cut < (encodings.take (j + 1)).flatten.length) ∧
      readFrames maxPayload n (encodings.flatten.take cut) =
        ((frames.take j).map completed, some endOfStream)) ∧
    ∀ bytes f, decodeFrame maxPayload bytes = .ok f →
      bytes.length = kFrameHeaderBytes + f.header.payloadLength.toNat →
      ∀ ceiling, bytes.length ≤ ceiling → encodeFrameInto ceiling maxPayload f = .ok bytes := by
  refine ⟨fun n hn => readFrames_flatten h hn, fun cut n hn => readFrames_take h cut hn, ?_⟩
  intro bytes f hdecode hexact ceiling hroom
  obtain ⟨hencodable, hcompleted, hbytes⟩ := decodeFrame_eq_ok hdecode
  rw [← hcompleted] at hexact
  have hlength : bytes.length = kFrameHeaderBytes + f.payload.length :=
    hexact.trans (congrArg _ hencodable.toNat_length)
  rw [← hlength, List.drop_length, List.append_nil] at hbytes
  rw [hbytes] at hroom ⊢
  exact encodeFrameInto_eq_ok.mpr ⟨hencodable.toSendable, hroom, rfl⟩

/-- A heartbeat with one byte of payload, as a sender leaves it: the length in its header is unset. -/
def pulse : Frame where
  header := { type := .heartbeat }
  payload := [7]

theorem encodeFrame_pulse : encodeFrame kMaxFramePayload pulse = .ok pulse.wire :=
  encodeFrameInto_eq_ok.mpr ⟨⟨by decide, by decide⟩, by rw [length_wire]; decide, rfl⟩

theorem stream_of_pulses_read_back :
    readFrames kMaxFramePayload 3 [pulse.wire, pulse.wire].flatten =
      ([pulse, pulse].map completed, some endOfStream) :=
  (stream_of_frames_read_back (.cons encodeFrame_pulse (.cons encodeFrame_pulse .nil))).1 3 (by decide)

/-- The frame that is read back carries the length of its payload, which the one written did not. -/
theorem pulse_read_back_completed :
    ∃ bytes f, encodeFrame kMaxFramePayload pulse = .ok bytes ∧
      readFrames kMaxFramePayload 2 bytes = ([f], some endOfStream) ∧
      pulse.header.payloadLength = 0 ∧ f.header.payloadLength = 1 ∧ f ≠ pulse := by
  have hread := readFrames_flatten (.cons encodeFrame_pulse .nil) (by decide : 1 < 2)
  rw [List.flatten_singleton] at hread
  refine ⟨_, pulse.completed, encodeFrame_pulse, hread, rfl, rfl, fun heq => ?_⟩
  have hfield : (1 : UInt32) = 0 := congrArg (fun f => f.header.payloadLength) heq
  exact absurd hfield (by decide)

/-! ## A changed byte -/

theorem le32_injective {v w : UInt32} (h : le32 v = le32 w) : v = w := by
  rw [← ofNat_leValue_le32 v, h, ofNat_leValue_le32]

theorem Encodable.same_payload {g : Frame} (hf : f.Encodable maxPayload)
    (hg : g.Encodable maxPayload) (h : f.raw.bytes = g.raw.bytes) :
    f.payload.length = g.payload.length ∧ crc32c f.payload = crc32c g.payload := by
  have hheader : f.completed.header = g.completed.header := by
    have hdecode := hf.decodeHeader []
    rw [h, hg.decodeHeader []] at hdecode
    exact (Except.ok.inj hdecode).symm
  have hlength : UInt32.ofNat f.payload.length = UInt32.ofNat g.payload.length :=
    congrArg FrameHeader.payloadLength hheader
  have htoNat := congrArg UInt32.toNat hlength
  rw [hf.toNat_length, hg.toNat_length] at htoNat
  exact ⟨htoNat, congrArg FrameHeader.payloadCrc hheader⟩

/-- **Every single changed byte of a frame is detected.**  A byte of the header fields and a byte of
the header checksum make the two disagree; behind them the length still holds, and a byte of the
payload makes it disagree with its checksum. -/
theorem decodeFrame_changed_byte {f : Frame} {bytes : Bytes}
    (h : encodeFrame maxPayload f = .ok bytes) {i : ℕ} (hi : i < bytes.length) {b : UInt8}
    (hb : b ≠ bytes[i]) : ∃ e, decodeFrame maxPayload (bytes.set i b) = .error e := by
  obtain ⟨hf, rfl⟩ := encodeFrame_eq_ok h
  have hchanged : f.wire.set i b ≠ f.wire := by
    intro heq
    apply hb
    have hget : (f.wire.set i b)[i]? = some b := List.getElem?_set_self hi
    rw [heq, List.getElem?_eq_getElem hi, Option.some.injEq] at hget
    exact hget.symm
  rcases hdecode : decodeFrame maxPayload (f.wire.set i b) with e | g
  · exact ⟨e, rfl⟩
  exfalso
  obtain ⟨hg, -, hwire⟩ := decodeFrame_eq_ok hdecode
  generalize (f.wire.set i b).drop (kFrameHeaderBytes + g.payload.length) = rest at hwire
  rw [wire_append, List.append_assoc] at hwire
  unfold wire at hchanged hwire hi
  rw [List.set_append] at hchanged hwire
  by_cases hfields : i < f.raw.bytes.length
  · rw [if_pos hfields] at hchanged hwire
    obtain ⟨hset, hrest⟩ := List.append_inj hwire (by simp)
    obtain ⟨hcrc, -⟩ := List.append_inj hrest (by simp)
    have hne : f.raw.bytes.set i b ≠ f.raw.bytes := fun heq => hchanged (by rw [heq])
    rw [← hset] at hcrc
    exact crc32c_set_ne hne (le32_injective hcrc).symm
  rw [if_neg hfields] at hchanged hwire
  obtain ⟨hsame, hrest⟩ := List.append_inj hwire (by simp)
  rw [List.set_append] at hchanged hrest
  by_cases hchecksum : i - f.raw.bytes.length < (le32 (crc32c f.raw.bytes)).length
  · rw [if_pos hchecksum] at hchanged hrest
    obtain ⟨hset, -⟩ := List.append_inj hrest (by simp)
    rw [← hsame] at hset
    exact hchanged (by rw [hset])
  · rw [if_neg hchecksum] at hchanged hrest
    obtain ⟨-, hpayload⟩ := List.append_inj hrest (by simp)
    obtain ⟨hlength, hcrc⟩ := hf.same_payload hg hsame
    have hpayload' : f.payload.set (i - f.raw.bytes.length - (le32 (crc32c f.raw.bytes)).length) b ++
        [] = g.payload ++ rest := by
      rw [List.append_nil]
      exact hpayload
    obtain ⟨hset, -⟩ := List.append_inj hpayload' (by rw [List.length_set]; exact hlength)
    have hne : f.payload.set (i - f.raw.bytes.length - (le32 (crc32c f.raw.bytes)).length) b ≠
        f.payload := fun heq => hchanged (by rw [heq])
    apply crc32c_set_ne hne
    rw [hset, hcrc]

theorem decodeFrame_changed_pulse :
    ∃ e, decodeFrame kMaxFramePayload (pulse.wire.set 0 0) = .error e := by
  have hpos : 0 < pulse.wire.length := by rw [length_wire]; decide
  have hmagic : pulse.wire[0] = 0x46 := rfl
  exact decodeFrame_changed_byte encodeFrame_pulse hpos (by rw [hmagic]; decide)

end Frame

end EFG
