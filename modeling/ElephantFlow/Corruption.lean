/-
# One changed byte in a journal

What a replay makes of a journal file in which one byte behind the file header was
changed.  The magic, the schema, the payload and its checksum are covered: the
scan stops there.  The type, the length and the sequence of a record are not:
`Unnoticed` says for which changes another record is delivered in its place.
-/
import ElephantFlow.JournalFacts

namespace EFG

open ByteCodec

/-! ## Changed words -/

theorem exists_le16_of_set (x : UInt16) (i : ℕ) (b : UInt8) :
    (le16 x).set i b = le16 (UInt16.ofNat (leValue ((le16 x).set i b))) :=
  (le16_ofNat_leValue (by simp)).symm

theorem exists_le32_of_set (x : UInt32) (i : ℕ) (b : UInt8) :
    (le32 x).set i b = le32 (UInt32.ofNat (leValue ((le32 x).set i b))) :=
  (le32_ofNat_leValue (by simp)).symm

theorem exists_le64_of_set (x : UInt64) (i : ℕ) (b : UInt8) :
    (le64 x).set i b = le64 (UInt64.ofNat (leValue ((le64 x).set i b))) :=
  (le64_ofNat_leValue (by simp)).symm

/-! ## A changed record -/

/-- The change of byte `o` of a record to `b` makes a replay deliver another record: another
recognised type, a length whose bytes happen to carry a matching checksum, or another sequence. -/
def Unnoticed (r : JournalRecord) (rest : Bytes) (o : ℕ) (b : UInt8) : Prop :=
  (2 ≤ o ∧ o < 4 ∧ ∃ raw, le16 raw = (le16 r.type.toU16).set (o - 2) b ∧
    raw ≠ 0 ∧ raw < RecordType.count.toU16) ∨
  (8 ≤ o ∧ o < 12 ∧ ∃ length, le32 length = (le32 (UInt32.ofNat r.payload.length)).set (o - 8) b ∧
    length.toNat ≤ kMaxJournalRecordBytes ∧
    length.toNat + 4 ≤ (r.payload ++ (le32 (crc32c r.payload) ++ rest)).length ∧
    crc32c ((r.payload ++ (le32 (crc32c r.payload) ++ rest)).take length.toNat) =
      UInt32.ofNat (leValue (((r.payload ++ (le32 (crc32c r.payload) ++ rest)).drop
        length.toNat).take 4))) ∨
  (12 ≤ o ∧ o < 20)

/-- The field that a changed byte of a record belongs to, with its new value. -/
inductive Changed (r : JournalRecord) (o : ℕ) (b : UInt8) (rest : Bytes) : Bytes → Prop
  /-- The magic or the schema: the header is not recognised any more. -/
  | guarded (magic : UInt16) (schema : UInt32) (ho : o < 2 ∨ 4 ≤ o ∧ o < 8)
      (h : ¬ Recognized magic r.type.toU16 schema) :
      Changed r o b rest (framed magic r.type.toU16 schema (UInt32.ofNat r.payload.length) r.sequence
        (r.payload ++ (le32 (crc32c r.payload) ++ rest)))
  | type (raw : UInt16) (ho : 2 ≤ o ∧ o < 4) (hraw : le16 raw = (le16 r.type.toU16).set (o - 2) b)
      (h : raw ≠ r.type.toU16) :
      Changed r o b rest (framed kRecordMagic raw kSchemaVersion (UInt32.ofNat r.payload.length)
        r.sequence (r.payload ++ (le32 (crc32c r.payload) ++ rest)))
  | length (length : UInt32) (ho : 8 ≤ o ∧ o < 12)
      (hlength : le32 length = (le32 (UInt32.ofNat r.payload.length)).set (o - 8) b)
      (h : length ≠ UInt32.ofNat r.payload.length) :
      Changed r o b rest (framed kRecordMagic r.type.toU16 kSchemaVersion length r.sequence
        (r.payload ++ (le32 (crc32c r.payload) ++ rest)))
  | sequence (sequence : UInt64) (ho : 12 ≤ o ∧ o < 20) (h : sequence ≠ r.sequence) :
      Changed r o b rest (framed kRecordMagic r.type.toU16 kSchemaVersion
        (UInt32.ofNat r.payload.length) sequence (r.payload ++ (le32 (crc32c r.payload) ++ rest)))
  /-- The payload or its checksum: they do not match any more. -/
  | checked (payload : Bytes) (crc : UInt32) (ho : 20 ≤ o)
      (hlength : payload.length = r.payload.length) (h : crc32c payload ≠ crc) :
      Changed r o b rest (framed kRecordMagic r.type.toU16 kSchemaVersion
        (UInt32.ofNat r.payload.length) r.sequence (payload ++ (le32 crc ++ rest)))

theorem changed_set_bytes {r : JournalRecord} {o : ℕ} {b : UInt8} (ho : o < r.bytes.length)
    (hne : r.bytes.set o b ≠ r.bytes) (rest : Bytes) : Changed r o b rest (r.bytes.set o b ++ rest) := by
  rw [JournalRecord.length_bytes] at ho
  have hbytes : r.bytes = le16 kRecordMagic ++ (le16 r.type.toU16 ++ (le32 kSchemaVersion ++
      (le32 (UInt32.ofNat r.payload.length) ++ (le64 r.sequence ++
        (r.payload ++ le32 (crc32c r.payload)))))) := by
    unfold JournalRecord.bytes JournalRecord.header
    simp only [List.append_assoc]
  rw [hbytes] at hne ⊢
  by_cases h₂ : o < 2
  · rw [List.set_append_left _ _ (by simpa using h₂), exists_le16_of_set] at hne ⊢
    simp only [List.append_assoc]
    refine .guarded _ _ (.inl h₂) fun hr => hne ?_
    rw [hr.1]
  rw [List.set_append_right _ _ (by rw [length_le16]; omega), length_le16] at hne ⊢
  by_cases h₄ : o < 4
  · rw [List.set_append_left _ _ (by rw [length_le16]; omega), exists_le16_of_set] at hne ⊢
    simp only [List.append_assoc]
    refine .type _ ⟨by omega, h₄⟩ (exists_le16_of_set _ _ _).symm fun heq => hne ?_
    rw [heq]
  rw [List.set_append_right _ _ (by rw [length_le16]; omega), length_le16] at hne ⊢
  by_cases h₈ : o < 8
  · rw [List.set_append_left _ _ (by rw [length_le32]; omega), exists_le32_of_set] at hne ⊢
    simp only [List.append_assoc]
    refine .guarded _ _ (.inr ⟨by omega, h₈⟩) fun hr => hne ?_
    rw [hr.2.2]
  rw [List.set_append_right _ _ (by rw [length_le32]; omega), length_le32] at hne ⊢
  by_cases h₁₂ : o < 12
  · rw [List.set_append_left _ _ (by rw [length_le32]; omega), exists_le32_of_set] at hne ⊢
    simp only [List.append_assoc]
    have hoff : o - 2 - 2 - 4 = o - 8 := by omega
    rw [hoff] at hne ⊢
    refine .length _ ⟨by omega, h₁₂⟩ (exists_le32_of_set _ _ _).symm fun heq => hne ?_
    rw [heq]
  rw [List.set_append_right _ _ (by rw [length_le32]; omega), length_le32] at hne ⊢
  by_cases h₂₀ : o < 20
  · rw [List.set_append_left _ _ (by rw [length_le64]; omega), exists_le64_of_set] at hne ⊢
    simp only [List.append_assoc]
    refine .sequence _ ⟨by omega, h₂₀⟩ fun heq => hne ?_
    rw [heq]
  rw [List.set_append_right _ _ (by rw [length_le64]; omega), length_le64] at hne ⊢
  by_cases hpayload : o < 20 + r.payload.length
  · rw [List.set_append_left _ _ (by omega)] at hne ⊢
    simp only [List.append_assoc]
    refine .checked _ _ (by omega) (by simp) (crc32c_set_ne fun heq => hne ?_)
    rw [heq]
  · rw [List.set_append_right _ _ (by omega), exists_le32_of_set] at hne ⊢
    simp only [List.append_assoc]
    refine .checked _ _ (by omega) rfl fun heq => hne ?_
    rw [← heq]

theorem parseRecord_changed {r : JournalRecord} (hr : r.Writable) {o : ℕ} {b : UInt8} {rest bs : Bytes}
    (h : Changed r o b rest bs) :
    (Unnoticed r rest o b ∧ ∃ r' rest', parseRecord bs = .record r' rest' ∧ r' ≠ r) ∨
    (¬ Unnoticed r rest o b ∧ ∀ r' rest', parseRecord bs ≠ .record r' rest') := by
  have hn := hr.length_toNat
  have hmax := hr.payload
  have hrec := RecordType.recognized hr.type
  have hbody : 4 ≤ (r.payload ++ (le32 (crc32c r.payload) ++ rest)).length := by
    simp only [List.length_append, length_le32]
    omega
  obtain ⟨htake, hcrc, hrest⟩ := framed_payload r rest
  cases h with
  | guarded magic schema ho hnot =>
    right
    refine ⟨?_, fun r' rest' hp => hnot (parseRecord_framed_eq_record hbody hp).1⟩
    rintro (⟨h₁, h₂, -⟩ | ⟨h₁, h₂, -⟩ | ⟨h₁, h₂⟩)
    · omega
    · omega
    · omega
  | type raw ho hraw hne =>
    by_cases hknown : raw ≠ 0 ∧ raw < RecordType.count.toU16
    · left
      refine ⟨.inl ⟨ho.1, ho.2, raw, hraw, hknown⟩, ⟨RecordType.ofU16 raw, r.sequence, r.payload⟩,
        rest, ?_, fun heq => hne ?_⟩
      · have hrec' : Recognized kRecordMagic raw kSchemaVersion :=
          ⟨rfl, not_or.mpr ⟨hknown.1, UInt16.not_le.mpr hknown.2⟩, rfl⟩
        rw [parseRecord_framed _ _ _ _ _ hbody, if_neg (not_not.mpr hrec'), hn, if_neg (by omega),
          if_neg (by simp only [List.length_append, length_le32]; omega), htake, hcrc, hrest,
          ofNat_leValue_le32, if_neg (not_not.mpr rfl)]
      · have htype : RecordType.ofU16 raw = r.type := congrArg JournalRecord.type heq
        rw [← htype]
        exact (RecordType.toU16_ofU16
          (not_or.mpr ⟨hknown.1, UInt16.not_le.mpr hknown.2⟩)).1.symm
    · right
      refine ⟨?_, fun r' rest' hp => ?_⟩
      · rintro (⟨-, -, raw', hraw', hknown'⟩ | ⟨h₁, -⟩ | ⟨h₁, -⟩)
        · have heq : raw' = raw := by
            rw [← ofNat_leValue_le16 raw', ← ofNat_leValue_le16 raw, hraw, hraw']
          rw [heq] at hknown'
          exact hknown hknown'
        · omega
        · omega
      · have hrec' := (parseRecord_framed_eq_record hbody hp).1.2.1
        rw [not_or, ge_iff_le, UInt16.not_le] at hrec'
        exact hknown hrec'
  | length length ho hlength hne =>
    by_cases hmatch : length.toNat ≤ kMaxJournalRecordBytes ∧
        length.toNat + 4 ≤ (r.payload ++ (le32 (crc32c r.payload) ++ rest)).length ∧
        crc32c ((r.payload ++ (le32 (crc32c r.payload) ++ rest)).take length.toNat) =
          UInt32.ofNat (leValue (((r.payload ++ (le32 (crc32c r.payload) ++ rest)).drop
            length.toNat).take 4))
    · left
      refine ⟨.inr (.inl ⟨ho.1, ho.2, length, hlength, hmatch⟩),
        ⟨r.type, r.sequence, (r.payload ++ (le32 (crc32c r.payload) ++ rest)).take length.toNat⟩,
        (r.payload ++ (le32 (crc32c r.payload) ++ rest)).drop (length.toNat + 4), ?_, ?_⟩
      · rw [parseRecord_framed _ _ _ _ _ hbody, if_neg (not_not.mpr hrec),
          if_neg (not_lt.mpr hmatch.1), if_neg (not_lt.mpr hmatch.2.1),
          if_neg (not_not.mpr hmatch.2.2), RecordType.ofU16_toU16]
      · -- the payload of the delivered record has the changed length
        intro heq
        apply hne
        have hlen := congrArg (fun x => x.payload.length) heq
        simp only [List.length_take] at hlen
        rw [Nat.min_eq_left (by omega)] at hlen
        rw [← hlen, UInt32.ofNat_toNat]
    · right
      refine ⟨?_, fun r' rest' hp => ?_⟩
      · rintro (⟨-, h₁, -⟩ | ⟨-, -, length', hlength', hmatch'⟩ | ⟨h₁, -⟩)
        · omega
        · have heq : length' = length := by
            rw [← ofNat_leValue_le32 length', ← ofNat_leValue_le32 length, hlength, hlength']
          rw [heq] at hmatch'
          exact hmatch hmatch'
        · omega
      · obtain ⟨-, h₁, h₂, h₃, -⟩ := parseRecord_framed_eq_record hbody hp
        exact hmatch ⟨h₁, h₂, h₃⟩
  | sequence sequence ho hne =>
    left
    refine ⟨.inr (.inr ho), ⟨r.type, sequence, r.payload⟩, rest, ?_, fun heq => hne ?_⟩
    · have hbytes := (⟨r.type, sequence, r.payload⟩ : JournalRecord).bytes_append rest
      have hw : (⟨r.type, sequence, r.payload⟩ : JournalRecord).Writable := ⟨hr.type, hr.payload⟩
      rw [← hbytes]
      exact parseRecord_bytes hw rest
    · exact congrArg JournalRecord.sequence heq
  | checked payload crc ho hlength hne =>
    right
    refine ⟨?_, fun r' rest' hp => ?_⟩
    · rintro (⟨-, h₁, -⟩ | ⟨-, h₁, -⟩ | ⟨-, h₁⟩)
      · omega
      · omega
      · omega
    · obtain ⟨-, -, -, h, -⟩ := parseRecord_framed_eq_record
        (by simp only [List.length_append, length_le32]; omega) hp
      rw [hn, ← hlength, List.take_left, List.drop_left, List.take_left' (length_le32 _),
        ofNat_leValue_le32] at h
      exact hne h

/-! ## A changed file -/

theorem exists_record_of_position {rs : List JournalRecord} {p : ℕ} (h : p < (recordArea rs).length) :
    ∃ pre r post o, rs = pre ++ r :: post ∧ p = (recordArea pre).length + o ∧ o < r.bytes.length := by
  induction rs generalizing p with
  | nil => exact absurd h (Nat.not_lt_zero p)
  | cons r rs ih =>
    by_cases hp : p < r.bytes.length
    · exact ⟨[], r, rs, p, rfl, (Nat.zero_add p).symm, hp⟩
    · rw [recordArea_cons, List.length_append] at h
      obtain ⟨pre, x, post, o, hrs, ho, hlt⟩ := ih (show p - r.bytes.length < _ by omega)
      refine ⟨r :: pre, x, post, o, by rw [hrs]; rfl, ?_, hlt⟩
      rw [recordArea_cons, List.length_append]
      omega

/-- After a change of one byte behind the file header, a replay delivers a prefix of the records that
were written exactly if the change is not an unnoticed one. -/
theorem delivered_changed_iff {rs : List JournalRecord} (hrs : ∀ r ∈ rs, r.Writable) {p : ℕ}
    {b : UInt8} (hp : kJournalHeaderBytes ≤ p) (hlt : p < (journalHeader ++ recordArea rs).length)
    (hb : (journalHeader ++ recordArea rs)[p]? ≠ some b) :
    ∃ pre r post o, rs = pre ++ r :: post ∧
      p = kJournalHeaderBytes + (recordArea pre).length + o ∧ o < r.bytes.length ∧
      ((delivered ((journalHeader ++ recordArea rs).set p b)).2 <+: rs ↔
        ¬ Unnoticed r (recordArea post) o b) := by
  have hheader := length_journalHeader
  rw [List.length_append, hheader] at hlt
  obtain ⟨pre, r, post, o, hsplit, ho, holt⟩ :=
    exists_record_of_position (show p - kJournalHeaderBytes < (recordArea rs).length by omega)
  refine ⟨pre, r, post, o, hsplit, by omega, holt, ?_⟩
  have hpre : ∀ x ∈ pre, x.Writable := fun x hx => hrs x (by rw [hsplit]; simp [hx])
  have hr : r.Writable := hrs r (by rw [hsplit]; simp)
  have hfile : (journalHeader ++ recordArea rs).set p b = journalHeader ++
      (recordArea pre ++ (r.bytes.set o b ++ recordArea post)) := by
    rw [List.set_append_right _ _ (by omega), hheader, ho, hsplit, recordArea_append,
      List.set_append_right _ _ (by omega), recordArea_cons, Nat.add_sub_cancel_left,
      List.set_append_left _ _ holt]
  have hne : r.bytes.set o b ≠ r.bytes := by
    intro heq
    apply hb
    have hsame : (journalHeader ++ recordArea rs).set p b = journalHeader ++ recordArea rs := by
      rw [hfile, heq, hsplit, recordArea_append, recordArea_cons]
    rw [← hsame]
    exact List.getElem?_set_self (by rw [List.length_append]; omega)
  rw [hfile, delivered_eq, scanned_recordArea hpre]
  simp only
  rcases parseRecord_changed hr (changed_set_bytes holt hne (recordArea post)) with
    ⟨hun, r', rest', hparse, hother⟩ | ⟨hun, hstop⟩
  · refine iff_of_false (fun hprefix => ?_) (not_not.mpr hun)
    rw [scanned_of_record hparse, hsplit] at hprefix
    have htail := (List.prefix_append_right_inj pre).mp hprefix
    exact hother (List.cons_prefix_cons.mp htail).1
  · refine iff_of_true ?_ hun
    rw [scanned_of_stop hstop, List.append_nil, hsplit]
    exact List.prefix_append _ _

/-- One byte of the type field turns a recorded sweep into a shutdown marker. -/
theorem delivered_changed_type : ∃ j₀ j : Journal, openJournal none {} = .ok j₀ ∧
    j₀.appendAll [(.tickCommitted, le64 7)] = .ok j ∧
    delivered j.file = (.ok (), [⟨.tickCommitted, 1, le64 7⟩]) ∧
    delivered (j.file.set 18 12) = (.ok (), [⟨.shutdown, 1, le64 7⟩]) := by
  obtain ⟨j₀, hj₀, j, hj, hsame, hchanged⟩ : ∃ j₀, openJournal none {} = .ok j₀ ∧
      ∃ j, j₀.appendAll [(.tickCommitted, le64 7)] = .ok j ∧
      delivered j.file = (.ok (), [⟨.tickCommitted, 1, le64 7⟩]) ∧
      delivered (j.file.set 18 12) = (.ok (), [⟨.shutdown, 1, le64 7⟩]) := by decide +kernel
  exact ⟨j₀, j, hj₀, hj, hsame, hchanged⟩

/-- A changed byte of the payload ends the delivery before the record. -/
theorem delivered_changed_payload :
    (delivered ((journalHeader ++ recordArea [⟨.tickCommitted, 1, le64 7⟩]).set 36 8)).2 <+:
      [⟨.tickCommitted, 1, le64 7⟩] := by
  have hw : ∀ r ∈ [(⟨.tickCommitted, 1, le64 7⟩ : JournalRecord)], r.Writable := by decide +kernel
  obtain ⟨pre, r, post, o, hsplit, hpos, -, hiff⟩ := delivered_changed_iff (b := 8) hw
    (show kJournalHeaderBytes ≤ 36 by decide) (by decide +kernel) (by decide +kernel)
  obtain ⟨rfl, -, rfl⟩ : pre = [] ∧ r = ⟨.tickCommitted, 1, le64 7⟩ ∧ post = [] := by
    rcases pre with _ | ⟨x, pre⟩
    · simp only [List.nil_append, List.cons.injEq] at hsplit
      exact ⟨rfl, hsplit.1.symm, hsplit.2.symm⟩
    · simp at hsplit
  have ho : o = 20 := by
    simp only [recordArea_nil, List.length_nil, kJournalHeaderBytes] at hpos
    omega
  refine hiff.mpr ?_
  rw [ho]
  rintro (⟨-, h, -⟩ | ⟨-, h, -⟩ | ⟨-, h⟩)
  · exact absurd h (by decide)
  · exact absurd h (by decide)
  · exact absurd h (by decide)

end EFG
