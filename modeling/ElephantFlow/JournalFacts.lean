/-
# Records in a journal file

What `Journal::replay` finds in a file.  `scanned` is the list of records that can
be parsed one after another and the reason why parsing stops; a replay visits
exactly these records (`replay_eq`).  A file of whole records is parsed back
record by record (`scanned_recordArea`), a torn tail ends it without an error
(`parseRecord_torn`), and whatever is parsed as a record carries the bytes that
an append of that record writes (`parseRecord_eq_record`).
-/
import ElephantFlow.Checksum
import ElephantFlow.Durable

namespace EFG

open ByteCodec Fallible

/-! ## Headers -/

/-- The header fields in front of the rest of a record. -/
def framed (magic rawType : UInt16) (schema length : UInt32) (sequence : UInt64) (body : Bytes) :
    Bytes :=
  le16 magic ++ (le16 rawType ++ (le32 schema ++ (le32 length ++ (le64 sequence ++ body))))

section

variable (magic rawType : UInt16) (schema length : UInt32) (sequence : UInt64) (body : Bytes)
  (maxRecordBytes : ℕ)

@[simp] theorem length_framed :
    (framed magic rawType schema length sequence body).length = kRecordHeaderBytes + body.length := by
  unfold framed kRecordHeaderBytes
  simp only [List.length_append, length_le16, length_le32, length_le64]
  omega

theorem drop_framed :
    (framed magic rawType schema length sequence body).drop kRecordHeaderBytes = body := by
  have h : framed magic rawType schema length sequence body =
      (le16 magic ++ le16 rawType ++ le32 schema ++ le32 length ++ le64 sequence) ++ body := by
    unfold framed
    simp only [List.append_assoc]
  rw [h]
  exact List.drop_left' (by simp [kRecordHeaderBytes])

/-- What the header checks make of the fields. -/
theorem parseHeader_framed :
    parseHeader (framed magic rawType schema length sequence body) maxRecordBytes =
      if magic ≠ kRecordMagic then .error (badValue "journal record magic does not match")
      else if rawType = 0 ∨ rawType ≥ RecordType.count.toU16 then
        .error (badValue "journal record type is not recognized")
      else if schema ≠ kSchemaVersion then
        .error ⟨.versionMismatch, "journal record schema is not supported"⟩
      else if length.toNat > maxRecordBytes then
        .error (oversize "journal record length exceeds the ceiling")
      else .ok ⟨RecordType.ofU16 rawType, length, sequence⟩ := by
  have hlen : ¬ (framed magic rawType schema length sequence body).length < kRecordHeaderBytes := by
    rw [length_framed]
    omega
  unfold parseHeader
  rw [if_neg hlen]
  unfold decodeRecordHeader framed
  simp only [bind_u16_apply]
  by_cases hm : magic ≠ kRecordMagic
  · rw [if_pos hm, if_pos hm]
    rfl
  rw [if_neg hm, if_neg hm]
  by_cases ht : rawType = 0 ∨ rawType ≥ RecordType.count.toU16
  · rw [if_pos ht, if_pos ht]
    rfl
  rw [if_neg ht, if_neg ht, bind_u32_apply]
  by_cases hv : schema ≠ kSchemaVersion
  · rw [if_pos hv, if_pos hv]
    rfl
  rw [if_neg hv, if_neg hv]
  simp only [bind_u32_apply, bind_u64_apply]
  by_cases hl : length.toNat > maxRecordBytes
  · rw [if_pos hl, if_pos hl]
    rfl
  · rw [if_neg hl, if_neg hl]
    rfl

end

variable {bs rest : Bytes} {r : JournalRecord} {rs : List JournalRecord} {options : JournalOptions}
  {j : Journal}

/-- Every header is made of its five fields. -/
theorem exists_framed (h : kRecordHeaderBytes ≤ bs.length) :
    ∃ magic rawType schema length sequence,
      bs = framed magic rawType schema length sequence (bs.drop kRecordHeaderBytes) := by
  unfold kRecordHeaderBytes at h
  have hfrom : ∀ i n, i + n ≤ 20 → n ≤ (bs.drop i).length := by
    intro i n hin
    rw [List.length_drop]
    omega
  obtain ⟨magic, e₁⟩ := exists_le16_append (hfrom 0 2 (by omega))
  obtain ⟨rawType, e₂⟩ := exists_le16_append (hfrom 2 2 (by omega))
  obtain ⟨schema, e₃⟩ := exists_le32_append (hfrom 4 4 (by omega))
  obtain ⟨length, e₄⟩ := exists_le32_append (hfrom 8 4 (by omega))
  obtain ⟨sequence, e₅⟩ := exists_le64_append (hfrom 12 8 (by omega))
  rw [List.drop_drop] at e₂ e₃ e₄ e₅
  refine ⟨magic, rawType, schema, length, sequence, ?_⟩
  unfold framed kRecordHeaderBytes
  rw [e₅, e₄, e₃, e₂]
  exact e₁.symm

/-! ## Records -/

/-- The fields of a header that names a record. -/
def Recognized (magic rawType : UInt16) (schema : UInt32) : Prop :=
  magic = kRecordMagic ∧ ¬ (rawType = 0 ∨ rawType ≥ RecordType.count.toU16) ∧ schema = kSchemaVersion

instance (magic rawType : UInt16) (schema : UInt32) : Decidable (Recognized magic rawType schema) :=
  inferInstanceAs (Decidable (_ ∧ _ ∧ _))

/-- What is found at a cursor, in terms of the header fields there. -/
theorem parseRecord_framed (magic rawType : UInt16) (schema length : UInt32) (sequence : UInt64)
    {body : Bytes} (hbody : 4 ≤ body.length) :
    parseRecord (framed magic rawType schema length sequence body) =
      if ¬ Recognized magic rawType schema then .torn
      else if length.toNat > kMaxJournalRecordBytes then
        .oversized (oversize "journal record length exceeds the ceiling")
      else if body.length < length.toNat + 4 then .torn
      else if crc32c (body.take length.toNat) ≠
          UInt32.ofNat (leValue ((body.drop length.toNat).take 4)) then .damaged
      else .record ⟨RecordType.ofU16 rawType, sequence, body.take length.toNat⟩
        (body.drop (length.toNat + 4)) := by
  have hlen : ¬ (framed magic rawType schema length sequence body).length < kRecordHeaderBytes + 4 := by
    rw [length_framed]
    omega
  unfold parseRecord
  rw [if_neg hlen, parseHeader_framed, drop_framed]
  by_cases hr : Recognized magic rawType schema
  · obtain ⟨hm, ht, hv⟩ := id hr
    rw [if_neg (not_not.mpr hm), if_neg ht, if_neg (not_not.mpr hv), if_neg (not_not.mpr hr)]
    by_cases hl : length.toNat > kMaxJournalRecordBytes
    · rw [if_pos hl, if_pos hl]
      rfl
    · rw [if_neg hl, if_neg hl]
  · rw [if_pos hr]
    by_cases hm : magic ≠ kRecordMagic
    · rw [if_pos hm]
      rfl
    rw [if_neg hm]
    by_cases ht : rawType = 0 ∨ rawType ≥ RecordType.count.toU16
    · rw [if_pos ht]
      rfl
    rw [if_neg ht]
    have hv : schema ≠ kSchemaVersion := fun hv => hr ⟨not_not.mp hm, ht, hv⟩
    rw [if_pos hv]
    rfl

namespace JournalRecord

/-- A record that an append can write. -/
structure Writable (r : JournalRecord) : Prop where
  type : r.type ≠ .count
  payload : r.payload.length ≤ kMaxJournalRecordBytes

instance (r : JournalRecord) : Decidable r.Writable :=
  decidable_of_iff (r.type ≠ .count ∧ r.payload.length ≤ kMaxJournalRecordBytes)
    ⟨fun h => ⟨h.1, h.2⟩, fun h => ⟨h.type, h.payload⟩⟩

@[simp] theorem length_bytes (r : JournalRecord) : r.bytes.length = 24 + r.payload.length := by
  unfold bytes header
  simp only [List.length_append, length_le16, length_le32, length_le64]
  omega

theorem bytes_append (r : JournalRecord) (rest : Bytes) :
    r.bytes ++ rest = framed kRecordMagic r.type.toU16 kSchemaVersion
      (UInt32.ofNat r.payload.length) r.sequence (r.payload ++ (le32 (crc32c r.payload) ++ rest)) := by
  unfold bytes header framed
  simp only [List.append_assoc]

theorem Writable.length_toNat {r : JournalRecord} (h : r.Writable) :
    (UInt32.ofNat r.payload.length).toNat = r.payload.length := by
  have hle := h.payload
  unfold kMaxJournalRecordBytes at hle
  rw [UInt32.toNat_ofNat']
  exact Nat.mod_eq_of_lt (by omega)

end JournalRecord

theorem RecordType.ofU16_toU16 (t : RecordType) : RecordType.ofU16 t.toU16 = t := by
  cases t <;> rfl

theorem RecordType.recognized {t : RecordType} (h : t ≠ .count) :
    Recognized kRecordMagic t.toU16 kSchemaVersion := by
  refine ⟨rfl, ?_, rfl⟩
  cases t <;> simp_all [RecordType.toU16]

theorem RecordType.toU16_ofU16 {raw : UInt16}
    (h : ¬ (raw = 0 ∨ raw ≥ RecordType.count.toU16)) :
    (RecordType.ofU16 raw).toU16 = raw ∧ RecordType.ofU16 raw ≠ .count := by
  have hlt : raw.toNat < 13 ∧ raw.toNat ≠ 0 := by
    rw [not_or, ge_iff_le, UInt16.not_le] at h
    refine ⟨UInt16.lt_iff_toNat_lt.mp h.2, fun hzero => h.1 ?_⟩
    exact UInt16.toNat_inj.mp hzero
  have hraw : raw = UInt16.ofNat raw.toNat := (UInt16.ofNat_toNat).symm
  rw [hraw]
  obtain ⟨hlt, hne⟩ := hlt
  interval_cases raw.toNat
  all_goals first | exact absurd rfl hne | exact ⟨rfl, by decide⟩

/-- What stands behind the header of a record: its payload, the checksum and the next record. -/
theorem framed_payload (r : JournalRecord) (rest : Bytes) :
    let body := r.payload ++ (le32 (crc32c r.payload) ++ rest)
    body.take r.payload.length = r.payload ∧
      (body.drop r.payload.length).take 4 = le32 (crc32c r.payload) ∧
      body.drop (r.payload.length + 4) = rest := by
  refine ⟨List.take_left, ?_, ?_⟩
  · rw [List.drop_left]
    exact List.take_left' (length_le32 _)
  · rw [← List.drop_drop, List.drop_left]
    exact List.drop_left' (length_le32 _)

theorem parseRecord_bytes (h : r.Writable) (rest : Bytes) :
    parseRecord (r.bytes ++ rest) = .record r rest := by
  have hn := h.length_toNat
  have hle := h.payload
  rw [r.bytes_append, parseRecord_framed _ _ _ _ _ (by simp only [List.length_append, length_le32]; omega),
    if_neg (not_not.mpr (RecordType.recognized h.type)), hn, if_neg (by omega), if_neg (by
      simp only [List.length_append, length_le32]
      omega)]
  obtain ⟨htake, hcrc, hrest⟩ := framed_payload r rest
  rw [htake, hcrc, hrest, ofNat_leValue_le32, if_neg (not_not.mpr rfl), RecordType.ofU16_toU16]

theorem parseRecord_framed_eq_record {magic rawType : UInt16} {schema length : UInt32}
    {sequence : UInt64} {body : Bytes} (hbody : 4 ≤ body.length)
    (h : parseRecord (framed magic rawType schema length sequence body) = .record r rest) :
    Recognized magic rawType schema ∧ length.toNat ≤ kMaxJournalRecordBytes ∧
      length.toNat + 4 ≤ body.length ∧
      crc32c (body.take length.toNat) = UInt32.ofNat (leValue ((body.drop length.toNat).take 4)) ∧
      r = ⟨RecordType.ofU16 rawType, sequence, body.take length.toNat⟩ ∧
      rest = body.drop (length.toNat + 4) := by
  rw [parseRecord_framed _ _ _ _ _ hbody] at h
  by_cases hr : Recognized magic rawType schema
  swap
  · rw [if_pos hr] at h
    cases h
  rw [if_neg (not_not.mpr hr)] at h
  by_cases hmax : length.toNat > kMaxJournalRecordBytes
  · rw [if_pos hmax] at h
    cases h
  rw [if_neg hmax] at h
  by_cases hshort : body.length < length.toNat + 4
  · rw [if_pos hshort] at h
    cases h
  rw [if_neg hshort] at h
  by_cases hcrc : crc32c (body.take length.toNat) ≠
      UInt32.ofNat (leValue ((body.drop length.toNat).take 4))
  · rw [if_pos hcrc] at h
    cases h
  rw [if_neg hcrc] at h
  cases h
  exact ⟨hr, not_lt.mp hmax, not_lt.mp hshort, not_not.mp hcrc, rfl, rfl⟩

theorem parseRecord_eq_record (h : parseRecord bs = .record r rest) :
    r.Writable ∧ bs = r.bytes ++ rest := by
  have hlen : kRecordHeaderBytes + 4 ≤ bs.length := by
    by_contra hshort
    unfold parseRecord at h
    rw [if_pos (not_le.mp hshort)] at h
    split_ifs at h
  obtain ⟨magic, rawType, schema, length, sequence, hbs⟩ := exists_framed
    (le_trans (Nat.le_add_right _ 4) hlen)
  have hbody : 4 ≤ (bs.drop kRecordHeaderBytes).length := by
    rw [List.length_drop]
    omega
  generalize bs.drop kRecordHeaderBytes = body at hbs hbody
  rw [hbs] at h
  obtain ⟨⟨hm, ht, hv⟩, hmax, hbound, hcrc, rfl, rfl⟩ := parseRecord_framed_eq_record hbody h
  obtain ⟨htype, hne⟩ := RecordType.toU16_ofU16 ht
  have htake : (body.take length.toNat).length = length.toNat := by
    rw [List.length_take]
    omega
  refine ⟨⟨hne, by rw [htake]; exact hmax⟩, ?_⟩
  rw [JournalRecord.bytes_append, hbs, hm, hv, htype, htake, UInt32.ofNat_toNat, hcrc,
    le32_ofNat_leValue (by rw [List.length_take, List.length_drop]; omega), ← List.drop_drop,
    List.take_append_drop, List.take_append_drop]

/-- A proper prefix of a record is a torn tail, or nothing. -/
theorem parseRecord_torn (h : r.Writable) {torn more : Bytes} (hbytes : r.bytes = torn ++ more)
    (hmore : more ≠ []) :
    parseRecord torn = .torn ∨ parseRecord torn = .done := by
  by_cases hlen : torn.length < kRecordHeaderBytes + 4
  · unfold parseRecord
    rw [if_pos hlen]
    split_ifs
    · exact .inr rfl
    · exact .inl rfl
  left
  -- the header is whole, so it says how much is missing
  obtain ⟨magic, rawType, schema, length, sequence, htorn⟩ := exists_framed
    (show kRecordHeaderBytes ≤ torn.length by omega)
  have hbody : 4 ≤ (torn.drop kRecordHeaderBytes).length := by
    rw [List.length_drop]
    omega
  generalize torn.drop kRecordHeaderBytes = body at htorn hbody
  have hwhole : parseRecord (framed magic rawType schema length sequence (body ++ more)) =
      .record r [] := by
    have happend : framed magic rawType schema length sequence (body ++ more) = torn ++ more := by
      rw [htorn]
      unfold framed
      simp only [List.append_assoc]
    rw [happend, ← hbytes, ← List.append_nil r.bytes]
    exact parseRecord_bytes h []
  have hlong : 4 ≤ (body ++ more).length := by
    rw [List.length_append]
    omega
  obtain ⟨hr, hmax, hbound, -, -, hrest⟩ := parseRecord_framed_eq_record hlong hwhole
  have hshort : body.length < length.toNat + 4 := by
    have hdrop := congrArg List.length hrest
    rw [List.length_drop, List.length_append] at hdrop
    have hpos : 0 < more.length := List.length_pos_of_ne_nil hmore
    simp only [List.length_nil] at hdrop
    omega
  rw [htorn, parseRecord_framed _ _ _ _ _ hbody, if_neg (not_not.mpr hr), if_neg (by omega),
    if_pos hshort]

/-! ## Scanning a file -/

/-- The records that are found one after another, and what ends the scan. -/
def scan : ℕ → Bytes → List JournalRecord × Parsed
  | 0, _ => ([], .done)
  | n + 1, bs =>
    match parseRecord bs with
    | .record r rest => (r :: (scan n rest).1, (scan n rest).2)
    | stop => ([], stop)

/-- The scan of a record area. -/
def scanned (bs : Bytes) : List JournalRecord × Parsed := scan (bs.length + 1) bs

theorem parseRecord_length (h : parseRecord bs = .record r rest) : rest.length < bs.length := by
  rw [(parseRecord_eq_record h).2, List.length_append, JournalRecord.length_bytes]
  omega

/-- More fuel than bytes makes no difference. -/
theorem scan_fuel {n m : ℕ} (hn : bs.length < n) (hm : bs.length < m) : scan n bs = scan m bs := by
  induction n generalizing m bs with
  | zero => omega
  | succ n ih =>
    obtain ⟨m, rfl⟩ : ∃ k, m = k + 1 := ⟨m - 1, by omega⟩
    rw [scan, scan]
    cases hp : parseRecord bs with
    | record r rest =>
      have hlt := parseRecord_length hp
      have hrest : scan n rest = scan m rest := ih (by omega) (by omega)
      simp only [hrest]
    | done => rfl
    | torn => rfl
    | oversized e => rfl
    | damaged => rfl

theorem scanned_of_record (h : parseRecord bs = .record r rest) :
    scanned bs = (r :: (scanned rest).1, (scanned rest).2) := by
  have hlt := parseRecord_length h
  have hrest : scan bs.length rest = scan (rest.length + 1) rest := scan_fuel hlt (by omega)
  unfold scanned
  rw [scan, h]
  simp only [hrest]

theorem scanned_of_stop (h : ∀ r rest, parseRecord bs ≠ .record r rest) :
    scanned bs = ([], parseRecord bs) := by
  unfold scanned
  rw [scan]
  cases hp : parseRecord bs with
  | record r rest => exact absurd hp (h r rest)
  | done => rfl
  | torn => rfl
  | oversized e => rfl
  | damaged => rfl

theorem scanned_nil : scanned [] = ([], .done) := rfl

/-- The bytes of a list of records. -/
def recordArea (rs : List JournalRecord) : Bytes := (rs.map JournalRecord.bytes).flatten

@[simp] theorem recordArea_nil : recordArea [] = [] := rfl

@[simp] theorem recordArea_cons (r : JournalRecord) (rs : List JournalRecord) :
    recordArea (r :: rs) = r.bytes ++ recordArea rs := rfl

theorem recordArea_append (rs rs' : List JournalRecord) :
    recordArea (rs ++ rs') = recordArea rs ++ recordArea rs' := by
  unfold recordArea
  rw [List.map_append, List.flatten_append]

/-- Whole records are scanned back, whatever follows them. -/
theorem scanned_recordArea (h : ∀ r ∈ rs, r.Writable) (tail : Bytes) :
    scanned (recordArea rs ++ tail) = (rs ++ (scanned tail).1, (scanned tail).2) := by
  induction rs with
  | nil => rfl
  | cons r rs ih =>
    have hparse : parseRecord (recordArea (r :: rs) ++ tail) = .record r (recordArea rs ++ tail) := by
      rw [recordArea_cons, List.append_assoc]
      exact parseRecord_bytes (h r List.mem_cons_self) _
    rw [scanned_of_record hparse, ih fun x hx => h x (List.mem_cons_of_mem r hx)]
    rfl

/-! ## Replaying a file -/

/-- The status that the end of a scan gives to a replay. -/
def Parsed.status : Parsed → Except Status Unit
  | .oversized e => .error e
  | .damaged => makeStatus .integrityFailure "journal record checksum does not match"
  | _ => .ok ()

section Replay

variable {σ : Type} (visitor : JournalRecord → Fallible Status σ Unit)

/-- The status of a replay: the first refusal of the visitor, or the end of the scan. -/
def replayStatus (visited : Except Status Unit) (stop : Parsed) : Except Status Unit :=
  match visited with
  | .error e => .error e
  | .ok () => stop.status

/-- The loop visits the scanned records in order and stops at the first refusal. -/
theorem replayLoop_eq (total n : ℕ) (bs : Bytes) (stats : JournalReplayStats) (s : σ) :
    (replayLoop visitor total n bs stats s).1 =
      replayStatus (forEach visitor (scan n bs).1 s).1 (scan n bs).2 ∧
    (replayLoop visitor total n bs stats s).2.2 = (forEach visitor (scan n bs).1 s).2 := by
  induction n generalizing bs stats s with
  | zero => exact ⟨rfl, rfl⟩
  | succ n ih =>
    rw [replayLoop, scan]
    simp only
    cases hp : parseRecord bs with
    | record r rest =>
      simp only [forEach]
      rcases hv : visitor r s with ⟨e | ⟨⟩, s'⟩
      · rw [bind_of_error hv]
        exact ⟨rfl, rfl⟩
      · rw [bind_of_ok hv]
        exact ih rest _ s'
    | done => exact ⟨rfl, rfl⟩
    | torn => exact ⟨rfl, rfl⟩
    | oversized e => exact ⟨rfl, rfl⟩
    | damaged => exact ⟨rfl, rfl⟩

theorem replayLoop_sequenceLast (hv : ∀ r s, (visitor r s).1 = .ok ()) (total n : ℕ) (bs : Bytes)
    (stats : JournalReplayStats) (s : σ) :
    (replayLoop visitor total n bs stats s).2.1.sequenceLast =
      (scan n bs).1.foldl (fun _ r => r.sequence) stats.sequenceLast := by
  induction n generalizing bs stats s with
  | zero => rfl
  | succ n ih =>
    rw [replayLoop, scan]
    simp only
    cases hp : parseRecord bs with
    | record r rest =>
      have hok := hv r s
      rcases hr : visitor r s with ⟨e | ⟨⟩, s'⟩
      · rw [hr] at hok
        cases hok
      · simp only [hr]
        rw [ih, List.foldl_cons]
    | done => rfl
    | torn => rfl
    | oversized e => rfl
    | damaged => rfl

theorem length_journalHeader : journalHeader.length = kJournalHeaderBytes := by
  unfold journalHeader
  simp only [List.length_append, length_le32]
  rfl

/-- The file header passes the checks that a replay and an open make. -/
theorem journalHeader_take (rest : Bytes) :
    (journalHeader ++ rest).take 8 = kJournalMagic ∧
    (journalHeader ++ rest).take 12 = kJournalMagic ++ le32 kSchemaVersion ∧
    ((journalHeader ++ rest).drop 8).take 4 = le32 kSchemaVersion ∧
    ((journalHeader ++ rest).drop 12).take 4 =
      le32 (crc32c (kJournalMagic ++ le32 kSchemaVersion)) := by
  have hmagic : kJournalMagic.length = 8 := rfl
  unfold journalHeader
  refine ⟨?_, ?_, ?_, ?_⟩
  · simp only [List.append_assoc]
    exact List.take_left' hmagic
  · rw [List.append_assoc]
    exact List.take_left' (by simp [hmagic])
  · simp only [List.append_assoc]
    rw [List.drop_left' hmagic]
    exact List.take_left' (length_le32 _)
  · rw [List.append_assoc, List.drop_left' (by simp [hmagic])]
    exact List.take_left' (length_le32 _)

/-- A replay of a file with the right header visits the records of its scan. -/
theorem replay_eq (area : Bytes) (s : σ) :
    (replay visitor (some (journalHeader ++ area)) s).1 =
      replayStatus (forEach visitor (scanned area).1 s).1 (scanned area).2 ∧
    (replay visitor (some (journalHeader ++ area)) s).2.2 =
      (forEach visitor (scanned area).1 s).2 := by
  obtain ⟨hmagic, hcovered, -, hcrc⟩ := journalHeader_take area
  have hdrop : (journalHeader ++ area).drop kJournalHeaderBytes = area :=
    List.drop_left' length_journalHeader
  unfold replay
  simp only
  rw [if_neg (by
      rw [hmagic, List.length_append, length_journalHeader]
      simp), if_neg (by rw [hcovered, hcrc, ofNat_leValue_le32]; simp)]
  simp only [hdrop]
  exact replayLoop_eq visitor _ _ _ _ _

theorem replay_keeps {P : σ → Prop} (hvisitor : ∀ r, Keeps P (visitor r))
    (file : Option Bytes) {s : σ} (hs : P s) : P (replay visitor file s).2.2 := by
  unfold replay
  rcases file with _ | bytes
  · exact hs
  simp only
  split_ifs
  · exact hs
  · exact hs
  · rw [(replayLoop_eq visitor _ _ _ _ s).2]
    exact Keeps.forEach (fun r _ => hvisitor r) s hs

end Replay

/-! ## Opening and appending -/

/-- The sequence of the last record, zero when there is none. -/
def lastSequence (rs : List JournalRecord) : UInt64 := rs.foldl (fun _ r => r.sequence) 0

theorem openJournal_of_header (area : Bytes)
    (hopt : ¬ (options.maxRecordBytes = 0 ∨ options.maxRecordBytes > kMaxJournalRecordBytes)) :
    openJournal (some (journalHeader ++ area)) options = .ok
      { file := journalHeader ++ area, options := options
        sequence := lastSequence (scanned area).1
        sizeBytes := UInt64.ofNat (journalHeader ++ area).length } := by
  obtain ⟨hmagic, hcovered, hschema, hcrc⟩ := journalHeader_take area
  have hcheck : checkJournalHeader (journalHeader ++ area) = .ok () := by
    unfold checkJournalHeader
    rw [if_neg (by rw [List.length_append, length_journalHeader]; omega),
      if_neg (not_not.mpr hmagic), hcovered, hcrc, hschema, ofNat_leValue_le32, ofNat_leValue_le32,
      if_neg (not_not.mpr rfl), if_neg (not_not.mpr rfl)]
  have hdrop : (journalHeader ++ area).drop kJournalHeaderBytes = area :=
    List.drop_left' length_journalHeader
  have hseq : (verify (some (journalHeader ++ area))).2.1.sequenceLast =
      lastSequence (scanned area).1 := by
    unfold verify replay
    simp only
    rw [if_neg (by
        rw [hmagic, List.length_append, length_journalHeader]
        simp), if_neg (by rw [hcovered, hcrc, ofNat_leValue_le32]; simp)]
    simp only [hdrop]
    exact replayLoop_sequenceLast _ (fun _ _ => rfl) _ _ _ _ _
  unfold openJournal
  rw [if_neg hopt]
  simp only [hcheck]
  rw [hseq]

theorem openJournal_eq_ok {area : Bytes}
    (h : openJournal (some (journalHeader ++ area)) options = .ok j) :
    options.maxRecordBytes ≤ kMaxJournalRecordBytes ∧
      j = { file := journalHeader ++ area, options := options
            sequence := lastSequence (scanned area).1
            sizeBytes := UInt64.ofNat (journalHeader ++ area).length } := by
  by_cases hopt : options.maxRecordBytes = 0 ∨ options.maxRecordBytes > kMaxJournalRecordBytes
  · unfold openJournal at h
    rw [if_pos hopt] at h
    cases h
  · rw [openJournal_of_header area hopt] at h
    rw [not_or, not_lt] at hopt
    exact ⟨hopt.2, (Except.ok.inj h).symm⟩

namespace Journal

variable {j j' : Journal} {type : RecordType} {payload : Bytes}

/-- The records that a run of appends writes, numbered from a sequence on. -/
def recordsFrom (sequence : UInt64) : List (RecordType × Bytes) → List JournalRecord
  | [] => []
  | x :: xs => ⟨x.1, sequence + 1, x.2⟩ :: recordsFrom (sequence + 1) xs

/-- The bytes that a record takes in the file. -/
def recordSize (payload : Bytes) : UInt64 := UInt64.ofNat (kRecordHeaderBytes + payload.length + 4)

/-- What a successful append checked and wrote. -/
theorem append_eq_ok (h : j.append type payload = .ok j') :
    (type ≠ .count ∧ payload.length ≤ j.options.maxRecordBytes ∧
      ¬ (recordSize payload > j.options.maxFileBytes ∨
        j.sizeBytes > j.options.maxFileBytes - recordSize payload) ∧ j.sequence ≠ u64Max) ∧
      j' = { j with
        file := j.file ++ (⟨type, j.sequence + 1, payload⟩ : JournalRecord).bytes
        sequence := j.sequence + 1
        sizeBytes := j.sizeBytes + recordSize payload } := by
  unfold append at h
  simp only at h
  by_cases ht : type = .count
  · rw [if_pos ht] at h
    cases h
  rw [if_neg ht] at h
  by_cases hp : payload.length > j.options.maxRecordBytes
  · rw [if_pos hp] at h
    cases h
  rw [if_neg hp] at h
  by_cases hs : recordSize payload > j.options.maxFileBytes ∨
      j.sizeBytes > j.options.maxFileBytes - recordSize payload
  · rw [recordSize] at hs
    rw [if_pos hs] at h
    cases h
  have hs' := hs
  rw [recordSize] at hs'
  rw [if_neg hs'] at h
  by_cases hq : j.sequence = u64Max
  · rw [if_pos hq] at h
    cases h
  rw [if_neg hq] at h
  exact ⟨⟨ht, not_lt.mp hp, hs, hq⟩, (Except.ok.inj h).symm⟩

/-- An append whose checks pass. -/
theorem append_of_room (ht : type ≠ .count) (hp : payload.length ≤ j.options.maxRecordBytes)
    (hs : ¬ (recordSize payload > j.options.maxFileBytes ∨ j.sizeBytes > j.options.maxFileBytes -
      recordSize payload))
    (hq : j.sequence ≠ u64Max) :
    j.append type payload = .ok { j with
      file := j.file ++ (⟨type, j.sequence + 1, payload⟩ : JournalRecord).bytes
      sequence := j.sequence + 1
      sizeBytes := j.sizeBytes + recordSize payload } := by
  have hs' := hs
  rw [recordSize] at hs'
  unfold append
  simp only
  rw [if_neg ht, if_neg (not_lt.mpr hp), if_neg hs', if_neg hq]
  rfl

/-- A run of appends writes its records one after another. -/
theorem appendAll_eq_ok (hoptions : j.options.maxRecordBytes ≤ kMaxJournalRecordBytes)
    {inputs : List (RecordType × Bytes)} (h : j.appendAll inputs = .ok j') :
    j'.file = j.file ++ recordArea (recordsFrom j.sequence inputs) ∧
      ∀ r ∈ recordsFrom j.sequence inputs, r.Writable := by
  induction inputs generalizing j with
  | nil =>
    cases h
    simp [recordsFrom]
  | cons x xs ih =>
    rw [appendAll] at h
    rcases happ : j.append x.1 x.2 with e | j₁
    · rw [happ] at h
      cases h
    rw [happ] at h
    obtain ⟨⟨ht, hp, -, -⟩, hj₁⟩ := append_eq_ok happ
    have hoptions₁ : j₁.options.maxRecordBytes ≤ kMaxJournalRecordBytes := by
      rw [hj₁]
      exact hoptions
    obtain ⟨hfile, hwritable⟩ := ih hoptions₁ h
    rw [hj₁] at hfile hwritable
    refine ⟨?_, ?_⟩
    · rw [hfile, recordsFrom, recordArea_cons, List.append_assoc]
    · rw [recordsFrom]
      intro r hr
      rcases List.mem_cons.mp hr with rfl | hr
      · exact ⟨ht, le_trans hp hoptions⟩
      · exact hwritable r hr

end Journal

/-! ## What a replay delivers -/

/-- The visitor that collects the records it is given. -/
def collectRecord (r : JournalRecord) : Fallible Status (List JournalRecord) Unit :=
  fun rs => (.ok (), rs ++ [r])

/-- The status of a replay and the records it delivers to its visitor. -/
def delivered (file : Bytes) : Except Status Unit × List JournalRecord :=
  ((replay collectRecord (some file) []).1, (replay collectRecord (some file) []).2.2)

theorem forEach_collectRecord (rs acc : List JournalRecord) :
    forEach collectRecord rs acc = (.ok (), acc ++ rs) := by
  induction rs generalizing acc with
  | nil =>
    rw [List.append_nil]
    rfl
  | cons r rs ih =>
    have hstep : collectRecord r acc = (.ok (), acc ++ [r]) := rfl
    rw [forEach, bind_of_ok hstep, ih, List.append_assoc]
    rfl

theorem delivered_eq (area : Bytes) :
    delivered (journalHeader ++ area) = ((scanned area).2.status, (scanned area).1) := by
  obtain ⟨hstatus, hstate⟩ := replay_eq collectRecord area []
  unfold delivered
  rw [hstatus, hstate, forEach_collectRecord]
  rfl

/-! ## Appending behind a torn tail -/

/-- A record behind a torn tail is not read back in its place: the type of the record can be chosen
such that the bytes at the cursor are not its own. -/
theorem exists_type_not_read {torn : Bytes} (h : torn ≠ []) (sequence : UInt64) :
    ∃ type : RecordType, type ≠ .count ∧ ∀ rest,
      parseRecord (torn ++ (⟨type, sequence, []⟩ : JournalRecord).bytes) ≠
        .record ⟨type, sequence, []⟩ rest := by
  have hhead : ∀ type : RecordType, type = .beginStore ∨ type = .policyAccepted →
      ∃ tail, (⟨type, sequence, []⟩ : JournalRecord).bytes =
        0x6A :: 0xEF :: type.toU16.toUInt8 :: tail := by
    rintro type (rfl | rfl)
    · exact ⟨_, rfl⟩
    · exact ⟨_, rfl⟩
  -- the first three bytes decide
  have hdecides : ∀ type : RecordType, type = .beginStore ∨ type = .policyAccepted →
      (∀ x y z more, torn = x :: y :: z :: more → z ≠ type.toU16.toUInt8) → ∀ rest,
      parseRecord (torn ++ (⟨type, sequence, []⟩ : JournalRecord).bytes) ≠
        .record ⟨type, sequence, []⟩ rest := by
    intro type htype hthird rest hparse
    obtain ⟨-, heq⟩ := parseRecord_eq_record hparse
    obtain ⟨tail, hbytes⟩ := hhead type htype
    rw [hbytes] at heq
    rcases torn with _ | ⟨x, _ | ⟨y, _ | ⟨z, more⟩⟩⟩
    · exact h rfl
    · simp only [List.cons_append, List.nil_append, List.cons.injEq] at heq
      exact absurd heq.2.1 (by decide)
    · simp only [List.cons_append, List.nil_append, List.cons.injEq] at heq
      rcases htype with rfl | rfl
      · exact absurd heq.2.2.1 (by decide)
      · exact absurd heq.2.2.1 (by decide)
    · simp only [List.cons_append, List.cons.injEq] at heq
      exact hthird x y z more rfl heq.2.2.1
  by_cases hone : ∃ x y more, torn = x :: y :: 1 :: more
  · refine ⟨.policyAccepted, by decide, hdecides _ (.inr rfl) ?_⟩
    rintro x y z more hz
    obtain ⟨x', y', more', hone⟩ := hone
    rw [hz] at hone
    simp only [List.cons.injEq] at hone
    rw [hone.2.2.1]
    decide
  · refine ⟨.beginStore, by decide, hdecides _ (.inl rfl) ?_⟩
    rintro x y z more hz hthird
    exact hone ⟨x, y, more, by rw [hz, hthird]; rfl⟩

/-- The smallest record does not fit any more. -/
def Full (options : JournalOptions) (file : Bytes) (sequence : UInt64) : Prop :=
  Journal.recordSize [] > options.maxFileBytes ∨
    UInt64.ofNat file.length > options.maxFileBytes - Journal.recordSize [] ∨ sequence = u64Max

theorem Full.append_error (h : Full options j.file j.sequence) (hoptions : j.options = options)
    (hsize : j.sizeBytes = UInt64.ofNat j.file.length)
    (hmax : options.maxRecordBytes ≤ kMaxJournalRecordBytes) (type : RecordType) (payload : Bytes) :
    ∀ j', j.append type payload ≠ .ok j' := by
  intro j' happ
  obtain ⟨⟨-, hp, hs, hq⟩, -⟩ := Journal.append_eq_ok happ
  rw [hoptions] at hp hs
  rw [not_or, UInt64.not_lt, UInt64.not_lt, hsize] at hs
  -- a record is at least as large as the empty one
  have hle : Journal.recordSize [] ≤ Journal.recordSize payload := by
    unfold kMaxJournalRecordBytes at hmax
    rw [UInt64.le_iff_toNat_le]
    unfold Journal.recordSize kRecordHeaderBytes
    rw [UInt64.toNat_ofNat', UInt64.toNat_ofNat']
    simp only [List.length_nil]
    omega
  rcases h with h | h | h
  · exact absurd (UInt64.le_trans hle hs.1) (UInt64.not_le.mpr h)
  · have hmono : options.maxFileBytes - Journal.recordSize payload ≤
        options.maxFileBytes - Journal.recordSize [] := by
      rw [UInt64.le_iff_toNat_le, UInt64.toNat_sub_of_le _ _ hs.1,
        UInt64.toNat_sub_of_le _ _ (UInt64.le_trans hle hs.1)]
      have := UInt64.le_iff_toNat_le.mp hle
      omega
    exact absurd (UInt64.le_trans hs.2 hmono) (UInt64.not_le.mpr h)
  · exact hq h

/-- A journal of whole records and a torn tail keeps everything that is appended after it was
opened exactly if the tail is empty, or nothing more can be appended. -/
theorem replay_after_torn_tail_iff {options : JournalOptions} {rs : List JournalRecord}
    (hrs : ∀ r ∈ rs, r.Writable) {r : JournalRecord} (hr : r.Writable) {torn more : Bytes}
    (hbytes : r.bytes = torn ++ more) (hmore : more ≠ []) {j : Journal}
    (hj : openJournal (some (journalHeader ++ (recordArea rs ++ torn))) options = .ok j) :
    (∀ inputs j', j.appendAll inputs = .ok j' → delivered j'.file =
      (.ok (), rs ++ Journal.recordsFrom (lastSequence rs) inputs)) ↔
    (torn = [] ∨ Full options (journalHeader ++ (recordArea rs ++ torn)) (lastSequence rs)) := by
  have hstop := parseRecord_torn hr hbytes hmore
  have hscan : scanned torn = ([], parseRecord torn) := by
    refine scanned_of_stop fun x rest hx => ?_
    rcases hstop with hstop | hstop
    · rw [hstop] at hx
      cases hx
    · rw [hstop] at hx
      cases hx
  have hstatus : (parseRecord torn).status = .ok () := by
    rcases hstop with hstop | hstop
    · rw [hstop]
      rfl
    · rw [hstop]
      rfl
  have hread : (scanned (recordArea rs ++ torn)).1 = rs := by
    rw [scanned_recordArea hrs, hscan, List.append_nil]
  obtain ⟨hmax, hjeq⟩ := openJournal_eq_ok hj
  rw [hread] at hjeq
  have hmax' : j.options.maxRecordBytes ≤ kMaxJournalRecordBytes := by
    rw [hjeq]
    exact hmax
  constructor
  · intro hkeeps
    by_contra hcond
    rw [not_or] at hcond
    obtain ⟨htorn, hroom⟩ := hcond
    obtain ⟨type, htype, hnot⟩ := exists_type_not_read htorn (lastSequence rs + 1)
    unfold Full at hroom
    rw [not_or, not_or] at hroom
    have happ : ∃ j', j.appendAll [(type, [])] = .ok j' := by
      rw [Journal.appendAll, Journal.append_of_room htype (Nat.zero_le _)]
      · exact ⟨_, rfl⟩
      · rw [hjeq]
        exact not_or.mpr ⟨hroom.1, hroom.2.1⟩
      · rw [hjeq]
        exact hroom.2.2
    obtain ⟨j', happ⟩ := happ
    have hdel := hkeeps _ _ happ
    rw [(Journal.appendAll_eq_ok hmax' happ).1, hjeq] at hdel
    simp only [Journal.recordsFrom, recordArea_cons, recordArea_nil, List.append_nil,
      List.append_assoc] at hdel
    rw [delivered_eq, scanned_recordArea hrs] at hdel
    -- the appended record would have to be found right behind the whole ones
    have hfound : (scanned (torn ++ (⟨type, lastSequence rs + 1, []⟩ : JournalRecord).bytes)).1 =
        [⟨type, lastSequence rs + 1, []⟩] := List.append_cancel_left (Prod.ext_iff.mp hdel).2
    cases hp : parseRecord (torn ++ (⟨type, lastSequence rs + 1, []⟩ : JournalRecord).bytes) with
    | record x rest =>
      rw [scanned_of_record hp] at hfound
      simp only [List.cons.injEq] at hfound
      rw [hfound.1] at hp
      exact hnot rest hp
    | _ =>
      rw [scanned_of_stop (by simp [hp])] at hfound
      cases hfound
  · intro hcond inputs j' happ
    obtain ⟨hfile, hwritable⟩ := Journal.appendAll_eq_ok hmax' happ
    rcases hcond with htorn | hfull
    · rw [hjeq] at hfile hwritable
      rw [htorn, List.append_nil] at hfile
      have hall : ∀ x ∈ rs ++ Journal.recordsFrom (lastSequence rs) inputs, x.Writable := by
        intro x hx
        rcases List.mem_append.mp hx with hx | hx
        · exact hrs x hx
        · exact hwritable x hx
      rw [hfile, List.append_assoc, delivered_eq, ← recordArea_append,
        ← List.append_nil (recordArea (rs ++ _)), scanned_recordArea hall]
      rw [scanned_nil, List.append_nil]
      rfl
    · -- nothing could be appended
      rcases inputs with _ | ⟨x, xs⟩
      · cases happ
        rw [hjeq]
        simp only
        rw [delivered_eq, scanned_recordArea hrs, hscan, hstatus]
        rfl
      · exfalso
        rw [Journal.appendAll] at happ
        rcases hx : j.append x.1 x.2 with e | j₁
        · rw [hx] at happ
          cases happ
        · have hfull' : Full options j.file j.sequence := by
            rw [hjeq]
            exact hfull
          exact hfull'.append_error (by rw [hjeq]) (by rw [hjeq]) hmax x.1 x.2 j₁ hx

/-- A journal whose first record was torn after one byte: what is appended is silently lost. -/
theorem replay_after_torn_tail_loses : ∃ (more : Bytes) (j j' : Journal),
    more ≠ [] ∧ (⟨.beginStore, 1, []⟩ : JournalRecord).bytes = [0x6A] ++ more ∧
      openJournal (some (journalHeader ++ (recordArea [] ++ [0x6A]))) {} = .ok j ∧
      j.appendAll [(.tickCommitted, le64 7)] = .ok j' ∧ delivered j'.file = (.ok (), []) := by
  obtain ⟨j, hj, j', hj', hdelivered⟩ : ∃ j,
      openJournal (some (journalHeader ++ (recordArea [] ++ [0x6A]))) {} = .ok j ∧
      ∃ j', j.appendAll [(.tickCommitted, le64 7)] = .ok j' ∧ delivered j'.file = (.ok (), []) := by
    decide +kernel
  exact ⟨(⟨.beginStore, 1, []⟩ : JournalRecord).bytes.drop 1, j, j', by decide +kernel,
    by decide +kernel, hj, hj', hdelivered⟩

/-- Behind one whole record and no torn byte, everything that is appended is delivered. -/
theorem replay_after_torn_tail_whole : ∃ j : Journal,
    openJournal (some (journalHeader ++ (recordArea [⟨.beginStore, 1, []⟩] ++ []))) {} = .ok j ∧
      ∀ inputs j', j.appendAll inputs = .ok j' → delivered j'.file =
        (.ok (), [⟨.beginStore, 1, []⟩] ++ Journal.recordsFrom 1 inputs) := by
  obtain ⟨j, hj⟩ : ∃ j, openJournal
      (some (journalHeader ++ (recordArea [⟨.beginStore, 1, []⟩] ++ []))) {} = .ok j := by
    decide +kernel
  have hw : (⟨.beginStore, 1, []⟩ : JournalRecord).Writable := by decide +kernel
  exact ⟨j, hj, (replay_after_torn_tail_iff (List.forall_mem_singleton.mpr hw) hw
    (List.nil_append _).symm (by decide +kernel) hj).mpr (.inl rfl)⟩

end EFG
