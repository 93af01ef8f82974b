/-
# A journal cut at any byte

A store that was never compacted keeps its inputs in the journal alone.  Cut
behind the file header, at any byte, the journal still opens, and the recovered
governor is a twin of the one that took exactly the inputs whose records lie
wholly before the cut (`recovered_from_cut`).
-/
import ElephantFlow.Likeness

namespace EFG

open ByteCodec

/-! ## Inputs and their records -/

namespace Input

/-- The record type under which an input is journalled. -/
def type : Input → RecordType
  | .policy _ => .policyAccepted
  | .capacity _ => .capacityAccepted
  | .path _ => .pathAccepted
  | .evidence _ => .flowClassified
  | .tick _ => .tickCommitted

/-- The writes of the payload of an input. -/
def chunks : Input → List Bytes
  | .policy p => encode p
  | .capacity c => encode c
  | .path p => encode p
  | .evidence s => encode s
  | .tick now => [le64 now]

/-- The record of an input as `append` takes it. -/
def entry (i : Input) : RecordType × Bytes := (i.type, i.chunks.flatten)

theorem type_ne_count (i : Input) : i.type ≠ .count := by
  cases i <;> simp [type]

/-- The decoder of the value gives it back from its encoding. -/
def DecodesBack : Input → Prop
  | .policy p => ((decode : Decoder Status PolicyDocument) (encode p).flatten).map Prod.fst = .ok p
  | .capacity c =>
    ((decode : Decoder Status ResourceCapacity) (encode c).flatten).map Prod.fst = .ok c
  | .path p => ((decode : Decoder Status PathDescriptor) (encode p).flatten).map Prod.fst = .ok p
  | .evidence s => ((decode : Decoder Status FlowSample) (encode s).flatten).map Prod.fst = .ok s
  | .tick _ => True

end Input

namespace Governor

variable {g g' : Governor} {config : GovernorConfig}

/-- The input reaches the journal: policies and tables do when the governor takes them, evidence and
ticks are journalled before it sees them. -/
def journals (g : Governor) : Input → Bool
  | .policy p => isOk (g.submitPolicy p).1
  | .capacity c => isOk (g.submitCapacity c).1
  | .path p => isOk (g.submitPath p).1
  | .evidence _ => true
  | .tick _ => true

theorem Twin.journals (h : Twin g g') (i : Input) : g'.journals i = g.journals i := by
  cases i with
  | policy p => exact congrArg isOk (h.submitPolicy p).1
  | capacity c => exact congrArg isOk (h.submitCapacity c).1
  | path p => exact congrArg isOk (h.submitPath p).1
  | evidence s => rfl
  | tick now => rfl

theorem Reachable.take (h : Reachable config g) (i : Input) : Reachable config (g.take i) := by
  cases i with
  | policy p => exact h.tail ⟨.submitPolicy p, trivial, rfl⟩
  | capacity c => exact h.tail ⟨.submitCapacity c, trivial, rfl⟩
  | path p => exact h.tail ⟨.submitPath p, trivial, rfl⟩
  | evidence s => exact h.tail ⟨.submitEvidence s, trivial, rfl⟩
  | tick now => exact h.tail ⟨.tick now, trivial, rfl⟩

theorem take_of_not_journals (hg : Reachable config g) {i : Input} (h : g.journals i = false) :
    ∃ f, g.take i = g.count f := by
  cases i with
  | policy p =>
    have h' : isOk (g.submitPolicy p).1 = false := h
    show ∃ f, (g.submitPolicy p).2 = g.count f
    rcases submitPolicy_cases g p with ⟨-, e, f, heq⟩ | ⟨-, -, rules, counters, heq⟩ |
      ⟨-, -, rules, counters, heq⟩
    · exact ⟨f, by rw [heq]⟩
    · rw [heq] at h'
      cases h'
    · -- the invalidation does not fail in a reachable governor
      have hjustified : ({ g with policy := some p, exitRules := rules
                                  counters := counters } : Governor).Justified :=
        hg.justified.congr rfl (UInt64.le_refl _) rfl fun _ _ hlive => hlive
      have hok := (invalidateAllAuthority_isOk_iff _).mpr (hjustified.withdrawable
        (le_maxOf_right p.validity.issuedAt g.lastTick) .policyChanged)
      rw [heq, hok] at h'
      cases h'
  | capacity c =>
    have h' : isOk (g.submitCapacity c).1 = false := h
    show ∃ f, (g.submitCapacity c).2 = g.count f
    rcases submitCapacity_cases g c with ⟨e, counters, heq⟩ | ⟨table, counters, -, heq⟩
    · exact ⟨fun _ => counters, by rw [heq]; rfl⟩
    · rw [heq] at h'
      cases h'
  | path p =>
    have h' : isOk (g.submitPath p).1 = false := h
    show ∃ f, (g.submitPath p).2 = g.count f
    rcases submitPath_cases g p with ⟨e, counters, heq⟩ | ⟨table, counters, -, heq⟩
    · exact ⟨fun _ => counters, by rw [heq]; rfl⟩
    · rw [heq] at h'
      cases h'
  | evidence s => cases h
  | tick now => cases h

end Governor

namespace DurableGovernor

variable {d : DurableGovernor} {i : Input} {cut : ℕ} {recoveryTick : Tick} {config : GovernorConfig}
  {options : DurableOptions} {boot : BootIdentity}

/-! ## Runs that only record -/

/-- The input is recorded without hitting a ceiling or starting a compaction, and its decoder takes
it back. -/
structure Plain (d : DurableGovernor) (i : Input) : Prop where
  fits : overflows i.chunks kMaxJournalRecordBytes = false
  room : d.governor.journals i = true → d.journal.Takes i.chunks.flatten
  decodes : d.governor.journals i = true → i.DecodesBack
  uncompacted : ∀ s, i = .evidence s → ¬ (d.options.snapshotEveryRecords ≠ 0 ∧
    d.recordsSinceSnapshot + 1 ≥ d.options.snapshotEveryRecords)

/-- Every input of the run is plain where it is recorded. -/
def PlainRun : DurableGovernor → List Input → Prop
  | _, [] => True
  | d, i :: is => d.Plain i ∧ PlainRun (d.record i) is

/-- The store after a list of inputs. -/
def recordAll (d : DurableGovernor) (is : List Input) : DurableGovernor := is.foldl record d

/-- The inputs of the run whose records end at or before the cut. -/
def wholeBefore (cut : ℕ) : DurableGovernor → List Input → List Input
  | _, [] => []
  | d, i :: is =>
    if d.governor.journals i = true ∧ (d.record i).journal.file.length ≤ cut then
      i :: wholeBefore cut (d.record i) is
    else wholeBefore cut (d.record i) is

theorem recordInput_eq (d : DurableGovernor) (type : RecordType) {chunks : List Bytes}
    (tooLarge : String) (apply : Governor → Except Status Unit × Governor)
    (hfits : overflows chunks kMaxJournalRecordBytes = false) :
    (isOk (apply d.governor).1 = false ∧ (d.recordInput type chunks tooLarge apply).2 =
      { d with governor := (apply d.governor).2 }) ∨
    (isOk (apply d.governor).1 = true ∧ ∀ j', d.journal.append type chunks.flatten = .ok j' →
      (d.recordInput type chunks tooLarge apply).2 = { d with
        governor := (apply d.governor).2
        journal := j'
        recordsSinceSnapshot := d.recordsSinceSnapshot + 1 }) := by
  unfold recordInput
  rw [hfits, if_neg (by simp)]
  rcases apply d.governor with ⟨e | ⟨⟩, g⟩
  · exact .inl ⟨rfl, rfl⟩
  · refine .inr ⟨rfl, fun j' hj => ?_⟩
    simp only [hj]

theorem record_cases (h : d.Plain i) :
    (d.governor.journals i = false ∧ d.record i = { d with governor := d.governor.take i }) ∨
    (d.governor.journals i = true ∧ ∃ j', d.journal.append i.type i.chunks.flatten = .ok j' ∧
      d.record i = { d with
        governor := d.governor.take i
        journal := j'
        recordsSinceSnapshot := d.recordsSinceSnapshot + 1 }) := by
  have htype := i.type_ne_count
  have happend : d.governor.journals i = true →
      ∃ j', d.journal.append i.type i.chunks.flatten = .ok j' :=
    fun hj => (Journal.append_isOk_iff _ htype _).mpr (h.room hj)
  -- policies, capacities and paths are recorded by one function
  have hkinds : (∃ (tooLarge : String) (apply : Governor → Except Status Unit × Governor),
      d.governor.journals i = isOk (apply d.governor).1 ∧ d.governor.take i = (apply d.governor).2 ∧
      d.record i = (d.recordInput i.type i.chunks tooLarge apply).2) ∨
      (∃ s, i = .evidence s) ∨ ∃ now, i = .tick now := by
    cases i with
    | policy p => exact .inl ⟨_, (·.submitPolicy p), rfl, rfl, rfl⟩
    | capacity c => exact .inl ⟨_, (·.submitCapacity c), rfl, rfl, rfl⟩
    | path p => exact .inl ⟨_, (·.submitPath p), rfl, rfl, rfl⟩
    | evidence s => exact .inr (.inl ⟨s, rfl⟩)
    | tick now => exact .inr (.inr ⟨now, rfl⟩)
  rcases hkinds with ⟨tooLarge, apply, hj, htake, hrecord⟩ | ⟨s, rfl⟩ | ⟨now, rfl⟩
  · rcases recordInput_eq d i.type tooLarge apply h.fits with ⟨hno, heq⟩ | ⟨hyes, heq⟩
    · exact .inl ⟨hj.trans hno, by rw [hrecord, heq, htake]⟩
    · obtain ⟨j', hj'⟩ := happend (hj.trans hyes)
      exact .inr ⟨hj.trans hyes, j', hj', by rw [hrecord, heq j' hj', htake]⟩
  · obtain ⟨j', hj'⟩ := happend rfl
    refine .inr ⟨rfl, j', hj', ?_⟩
    have hfits : overflows (encode s) kMaxJournalRecordBytes = false := h.fits
    have hj : d.journal.append .flowClassified (encode s).flatten = .ok j' := hj'
    show (d.recordEvidence s).2 = _
    unfold recordEvidence
    rw [hfits, if_neg (by simp)]
    simp only [hj]
    rw [if_neg (h.uncompacted s rfl)]
    rfl
  · obtain ⟨j', hj'⟩ := happend rfl
    refine .inr ⟨rfl, j', hj', ?_⟩
    have hj : d.journal.append .tickCommitted (le64 now) = .ok j' := by
      rw [← hj']
      show _ = d.journal.append .tickCommitted [le64 now].flatten
      rw [List.flatten_cons, List.flatten_nil, List.append_nil]
    show (d.recordTick now).2 = _
    unfold recordTick
    simp only [hj]
    rfl

/-! ## The cut file -/

/-- What is left of a record that the cut goes through: nothing is read from it. -/
def Torn (tail : Bytes) : Prop :=
  tail = [] ∨ ∃ (r : JournalRecord) (more : Bytes), r.Writable ∧ r.bytes = tail ++ more ∧ more ≠ []

theorem Torn.scanned {tail : Bytes} (h : Torn tail) :
    (scanned tail).1 = [] ∧ ∀ e, (scanned tail).2 ≠ .oversized e := by
  rcases h with rfl | ⟨r, more, hr, hbytes, hmore⟩
  · simp [scanned_nil]
  · rcases parseRecord_torn hr hbytes hmore with hp | hp
    · rw [scanned_of_stop (by simp [hp]), hp]
      simp
    · rw [scanned_of_stop (by simp [hp]), hp]
      simp

/-- A cut inside a record. -/
theorem torn_take {r : JournalRecord} (h : r.Writable) {n : ℕ} (hn : n < r.bytes.length) :
    Torn (r.bytes.take n) := by
  refine .inr ⟨r, r.bytes.drop n, h, (List.take_append_drop n r.bytes).symm, ?_⟩
  intro hnil
  have := congrArg List.length hnil
  rw [List.length_drop, List.length_nil] at this
  omega

theorem recordAll_file (is : List Input) (h : d.PlainRun is) :
    ∃ more, (d.recordAll is).journal.file = d.journal.file ++ more := by
  induction is generalizing d with
  | nil => exact ⟨[], (List.append_nil _).symm⟩
  | cons i is ih =>
    obtain ⟨more, hmore⟩ := ih h.2
    rcases record_cases h.1 with ⟨-, heq⟩ | ⟨-, j', hj', heq⟩
    · refine ⟨more, ?_⟩
      show ((d.record i).recordAll is).journal.file = _
      rw [hmore, heq]
    · obtain ⟨-, hj⟩ := Journal.append_eq_ok hj'
      refine ⟨(⟨i.type, d.journal.sequence + 1, i.chunks.flatten⟩ : JournalRecord).bytes ++ more, ?_⟩
      show ((d.record i).recordAll is).journal.file = _
      rw [hmore, heq, hj, List.append_assoc]

theorem wholeBefore_of_lt (is : List Input) (h : d.PlainRun is) (hcut : cut < d.journal.file.length) :
    wholeBefore cut d is = [] := by
  induction is generalizing d with
  | nil => rfl
  | cons i is ih =>
    have hgrown : cut < (d.record i).journal.file.length := by
      obtain ⟨more, hmore⟩ := recordAll_file [i] (d := d) ⟨h.1, trivial⟩
      have : (d.record i).journal.file = d.journal.file ++ more := hmore
      rw [this, List.length_append]
      omega
    rw [wholeBefore, if_neg (by omega)]
    exact ih h.2 hgrown

theorem take_recordAll (is : List Input) (h : d.PlainRun is)
    (hopt : d.journal.options.maxRecordBytes ≤ kMaxJournalRecordBytes)
    (hcut : d.journal.file.length ≤ cut) : ∃ tail, Torn tail ∧
      (d.recordAll is).journal.file.take cut = d.journal.file ++
        (recordArea (Journal.recordsFrom d.journal.sequence
          ((wholeBefore cut d is).map Input.entry)) ++ tail) ∧
      ∀ r ∈ Journal.recordsFrom d.journal.sequence ((wholeBefore cut d is).map Input.entry),
        r.Writable := by
  induction is generalizing d with
  | nil =>
    refine ⟨[], .inl rfl, ?_, by simp [wholeBefore, Journal.recordsFrom]⟩
    show d.journal.file.take cut = d.journal.file ++ ([] ++ [])
    rw [List.take_of_length_le hcut, List.append_nil, List.append_nil]
  | cons i is ih =>
    rcases record_cases h.1 with ⟨hno, heq⟩ | ⟨hyes, j', hj', heq⟩
    · -- the input is not journalled: the file stays as it is
      have hjournal : (d.record i).journal = d.journal := by rw [heq]
      have hwhole : wholeBefore cut d (i :: is) = wholeBefore cut (d.record i) is := by
        rw [wholeBefore, if_neg (by simp [hno])]
      have hrest := ih h.2 (by rw [hjournal]; exact hopt) (by rw [hjournal]; exact hcut)
      rw [hjournal] at hrest
      rw [hwhole]
      exact hrest
    · obtain ⟨⟨ht, hp, -, -⟩, hj⟩ := Journal.append_eq_ok hj'
      have hjournal : (d.record i).journal = j' := by rw [heq]
      have hwritable : (⟨i.type, d.journal.sequence + 1, i.chunks.flatten⟩ :
          JournalRecord).Writable := ⟨ht, le_trans hp hopt⟩
      have hfile : (d.record i).journal.file = d.journal.file ++
          (⟨i.type, d.journal.sequence + 1, i.chunks.flatten⟩ : JournalRecord).bytes := by
        rw [hjournal, hj]
      by_cases hwhole : (d.record i).journal.file.length ≤ cut
      · -- the record is whole: go on behind it
        obtain ⟨tail, htorn, htake, hall⟩ := ih h.2 (by rw [hjournal, hj]; exact hopt) hwhole
        have hsequence : (d.record i).journal.sequence = d.journal.sequence + 1 := by
          rw [hjournal, hj]
        rw [wholeBefore, if_pos ⟨hyes, hwhole⟩, List.map_cons, Journal.recordsFrom]
        rw [hsequence] at htake hall
        refine ⟨tail, htorn, ?_, ?_⟩
        · show ((d.record i).recordAll is).journal.file.take cut = _
          rw [htake, hfile, recordArea_cons, List.append_assoc, List.append_assoc]
          rfl
        · intro r hr
          rcases List.mem_cons.mp hr with rfl | hr
          · exact hwritable
          · exact hall r hr
      · -- the cut goes through the record
        obtain ⟨more, hmore⟩ := recordAll_file is h.2
        have hnone : wholeBefore cut d (i :: is) = [] := by
          rw [wholeBefore, if_neg (fun hc => hwhole hc.2)]
          exact wholeBefore_of_lt is h.2 (by omega)
        rw [hnone]
        refine ⟨(⟨i.type, d.journal.sequence + 1, i.chunks.flatten⟩ : JournalRecord).bytes.take
          (cut - d.journal.file.length), torn_take hwritable ?_, ?_, by
            simp [Journal.recordsFrom]⟩
        · rw [hfile, List.length_append] at hwhole
          omega
        · show ((d.record i).recordAll is).journal.file.take cut = _
          rw [hfile, List.length_append] at hwhole
          rw [hmore, hfile, List.append_assoc, List.take_append, List.take_of_length_le hcut,
            List.take_append_of_le_length (by omega)]
          rfl

/-! ## The replay of whole records -/

theorem replayVisitor_entry (sequence : UInt64) {s : Recovery} (hdecodes : i.DecodesBack)
    (htaken : s.1.journals i = true) (htick : ∀ now, i = .tick now → now ≤ recoveryTick) : ∃ report,
    replayVisitor recoveryTick ⟨i.type, sequence, i.chunks.flatten⟩ s =
      (.ok (), (s.1.take i, report)) := by
  obtain ⟨g, report⟩ := s
  -- the refusals that would end the replay do not occur
  have hinput : ∀ (r : JournalRecord) (detail : String) (applied : Except Status Unit × Governor)
      (report : RecoveryReport), isOk applied.1 = true →
      ∃ report', replayInput r detail applied report = (.ok (), (applied.2, report')) := by
    rintro r detail ⟨e | ⟨⟩, x⟩ report hok
    · cases hok
    · exact ⟨_, rfl⟩
  have hvalue : ∀ {α : Type} {d : Decoder Status α} {bytes : Bytes} {a : α},
      (d bytes).map Prod.fst = .ok a → ∃ rest, d bytes = .ok (a, rest) := by
    intro α d bytes a h
    rcases hd : d bytes with e | ⟨b, rest⟩
    · rw [hd] at h
      cases h
    · rw [hd] at h
      cases h
      exact ⟨rest, rfl⟩
  unfold replayVisitor replayPayload
  cases i with
  | policy p =>
    obtain ⟨rest, hd⟩ := hvalue hdecodes
    simp only [Input.type, Input.chunks, hd]
    exact hinput _ _ _ _ htaken
  | capacity c =>
    obtain ⟨rest, hd⟩ := hvalue hdecodes
    simp only [Input.type, Input.chunks, hd]
    exact hinput _ _ _ _ htaken
  | path p =>
    obtain ⟨rest, hd⟩ := hvalue hdecodes
    simp only [Input.type, Input.chunks, hd]
    exact hinput _ _ _ _ htaken
  | evidence sample =>
    obtain ⟨rest, hd⟩ := hvalue hdecodes
    simp only [Input.type, Input.chunks, hd]
    show ∃ report, _ = (Except.ok (), ((g.submitEvidence sample).2, report))
    rcases g.submitEvidence sample with ⟨e | decision, x⟩
    · simp only
      split_ifs
      · exact ⟨_, rfl⟩
      · exact ⟨_, rfl⟩
    · exact ⟨_, rfl⟩
  | tick now =>
    have hd : Decoder.u64 (truncated "tick record is truncated") [le64 now].flatten =
        .ok (now, []) := by
      rw [List.flatten_cons, List.flatten_nil]
      exact decodes_u64 now _ []
    simp only [Input.type, Input.chunks, hd, if_pos (htick now rfl)]
    exact ⟨_, rfl⟩

theorem replay_wholeBefore (cut : ℕ) (is : List Input) {g : Governor} {s : Recovery}
    (sequence : UInt64) (hplain : d.PlainRun is) (hreach : Governor.Reachable config d.governor)
    (hg : Governor.Twin d.governor g) (hs : Governor.Twin g s.1)
    (hticks : ∀ now, Input.tick now ∈ is → now ≤ recoveryTick) :
    ∃ s', Fallible.forEach (replayVisitor recoveryTick)
        (Journal.recordsFrom sequence ((wholeBefore cut d is).map Input.entry)) s = (.ok (), s') ∧
      Governor.Twin ((wholeBefore cut d is).foldl Governor.take g) s'.1 := by
  induction is generalizing d g s sequence with
  | nil => exact ⟨s, rfl, hs⟩
  | cons i is ih =>
    have hticks' : ∀ now, Input.tick now ∈ is → now ≤ recoveryTick :=
      fun now hnow => hticks now (List.mem_cons_of_mem i hnow)
    rcases record_cases hplain.1 with ⟨hno, heq⟩ | ⟨hyes, j', hj', heq⟩
    · have hgovernor : (d.record i).governor = d.governor.take i := by rw [heq]
      obtain ⟨f, hf⟩ := Governor.take_of_not_journals hreach hno
      rw [wholeBefore, if_neg (by simp [hno])]
      refine ih sequence hplain.2 ?_ ?_ hs hticks'
      · rw [hgovernor]
        exact hreach.take i
      · rw [hgovernor, hf]
        exact hg.count f id
    · have hgovernor : (d.record i).governor = d.governor.take i := by rw [heq]
      by_cases hwhole : (d.record i).journal.file.length ≤ cut
      · have htaken : s.1.journals i = true := by rw [hs.journals, hg.journals, hyes]
        obtain ⟨report, hvisit⟩ := replayVisitor_entry (sequence + 1)
          (hplain.1.decodes hyes) htaken fun now hnow => hticks now (by rw [hnow]; simp)
        rw [wholeBefore, if_pos ⟨hyes, hwhole⟩]
        obtain ⟨s', hrun, htwin⟩ := ih (s := (s.1.take i, report)) (sequence + 1) hplain.2
          (by rw [hgovernor]; exact hreach.take i) (by rw [hgovernor]; exact hg.take i)
          (hs.take i) hticks'
        refine ⟨s', ?_, htwin⟩
        rw [List.map_cons, Journal.recordsFrom, Fallible.forEach]
        exact (Fallible.bind_of_ok hvisit).trans hrun
      · rw [wholeBefore, if_neg (fun hc => hwhole hc.2),
          wholeBefore_of_lt is hplain.2 (not_le.mp hwhole)]
        exact ⟨s, rfl, hs⟩

/-! ## Recovery from a cut journal -/

theorem openStore_ceiling {disk : Disk} {tick : Tick}
    (h : openStore disk options config boot tick = .ok d) :
    ¬ (options.journal.maxRecordBytes = 0 ∨
      options.journal.maxRecordBytes > kMaxJournalRecordBytes) := by
  obtain ⟨-, -, -, journal, -, -, hj, -⟩ := openStore_eq_ok.mp h
  intro hopt
  unfold openJournal at hj
  rw [if_pos hopt] at hj
  cases hj

theorem take_fresh {tick : Tick} {is : List Input}
    (hopen : openStore {} options config boot tick = .ok d) (hplain : d.PlainRun is)
    (hcut : kJournalHeaderBytes ≤ cut) : ∃ begun tail, Torn tail ∧
      (begun = [] ∨ begun = [(⟨.beginStore, 1, []⟩ : JournalRecord)]) ∧
      (d.recordAll is).journal.file.take cut = journalHeader ++
        (recordArea (begun ++ Journal.recordsFrom 1 ((wholeBefore cut d is).map Input.entry)) ++
          tail) ∧
      ∀ r ∈ begun ++ Journal.recordsFrom 1 ((wholeBefore cut d is).map Input.entry), r.Writable := by
  have hceiling := openStore_ceiling hopen
  obtain ⟨-, -, -, hbegin⟩ := openStore_empty hopen
  obtain ⟨-, hjournal⟩ := Journal.append_eq_ok hbegin
  have hfile : d.journal.file = journalHeader ++
      (⟨.beginStore, 1, []⟩ : JournalRecord).bytes := by rw [hjournal]; rfl
  have hsequence : d.journal.sequence = 1 := by rw [hjournal]; rfl
  have hmarker : (⟨.beginStore, 1, []⟩ : JournalRecord).Writable := by decide
  by_cases hwhole : d.journal.file.length ≤ cut
  · have hopt : d.journal.options.maxRecordBytes ≤ kMaxJournalRecordBytes := by
      rw [hjournal]
      exact not_lt.mp fun h => hceiling (.inr h)
    obtain ⟨tail, htorn, htake, hall⟩ := take_recordAll is hplain hopt hwhole
    rw [hsequence] at htake hall
    refine ⟨[⟨.beginStore, 1, []⟩], tail, htorn, .inr rfl, ?_, ?_⟩
    · rw [htake, hfile, List.singleton_append, recordArea_cons, List.append_assoc,
        List.append_assoc]
    · intro r hr
      rcases List.mem_cons.mp hr with rfl | hr
      · exact hmarker
      · exact hall r hr
  · -- the cut goes through the marker
    have hlength : journalHeader.length ≤ cut := by rw [length_journalHeader]; exact hcut
    obtain ⟨more, hmore⟩ := recordAll_file is hplain
    have hnone := wholeBefore_of_lt is hplain (not_le.mp hwhole)
    rw [hfile, List.length_append] at hwhole
    rw [hnone]
    refine ⟨[], (⟨.beginStore, 1, []⟩ : JournalRecord).bytes.take (cut - journalHeader.length),
      torn_take hmarker (by omega), .inl rfl, ?_, by simp [Journal.recordsFrom]⟩
    rw [hmore, hfile, List.append_assoc, List.take_append, List.take_of_length_le hlength,
      List.take_append_of_le_length (by omega)]
    rfl

/-- The journal of a fresh store without compaction, cut at any byte behind its file header, opens,
and policy, tables, tracked flows and ledgers are those of a fresh governor that takes the inputs
whose records lie wholly before the cut. -/
theorem recovered_from_cut {options : DurableOptions} {config : GovernorConfig}
    {boot boot' : BootIdentity} {tick tick' : Tick} {d : DurableGovernor} {is : List Input} {cut : ℕ}
    (hopen : openStore {} options config boot tick = .ok d) (hplain : d.PlainRun is)
    (hcut : kJournalHeaderBytes ≤ cut) (hvalid : boot'.valid = true)
    (hticks : ∀ now, Input.tick now ∈ is → now ≤ tick')
    (hroom : ∀ j, openJournal (some ((d.recordAll is).journal.file.take cut)) options.journal = .ok j →
      j.Takes []) :
    ∃ d', openStore ⟨none, some ((d.recordAll is).journal.file.take cut)⟩ options config boot' tick' =
        .ok d' ∧
      Governor.Recovers ((wholeBefore cut d is).foldl Governor.take (Governor.make config))
        d'.governor := by
  obtain ⟨-, -, hgovernor, -⟩ := openStore_empty hopen
  obtain ⟨begun, tail, htorn, hbegun, hfile, hwritable⟩ := take_fresh hopen hplain hcut
  have hreach : Governor.Reachable config d.governor := by
    rw [hgovernor]
    exact .single ⟨.setIncarnation boot, trivial, rfl⟩
  have htwin : Governor.Twin d.governor (Governor.make config) := by
    rw [hgovernor]
    exact Governor.twin_make config boot {}
  -- the marker changes the report only
  have hmarker : ∃ report, Fallible.forEach (replayVisitor tick') begun
      (freshRecovery config boot' tick') =
        (.ok (), ((Governor.make config).setIncarnation boot', report)) := by
    rcases hbegun with rfl | rfl
    · exact ⟨_, rfl⟩
    · exact ⟨_, rfl⟩
  obtain ⟨report, hmarker⟩ := hmarker
  obtain ⟨s', hrun, hs'⟩ := replay_wholeBefore cut is (g := Governor.make config)
    (s := ((Governor.make config).setIncarnation boot', report)) 1 hplain hreach htwin
    (Governor.twin_make config {} boot') hticks
  have hceiling := openStore_ceiling hopen
  have hj := openJournal_of_header (recordArea (begun ++ Journal.recordsFrom 1
    ((wholeBefore cut d is).map Input.entry)) ++ tail) hceiling
  have htakes := hroom _ (by rw [hfile]; exact hj)
  rw [scanned_recordArea hwritable, htorn.scanned.1, List.append_nil] at htakes
  obtain ⟨d', hd', hd⟩ := openStore_of_records options config hvalid hwritable htorn.scanned
    (Fallible.forEach_append hmarker hrun) hceiling htakes
  refine ⟨d', by rw [hfile]; exact hd', ?_⟩
  rw [hd]
  exact hs'.recovers

open Governor.Scenario

/-- The policy and the sample of the small run. -/
def briefInputs : List Input :=
  [.policy policy, .evidence sample]

set_option maxRecDepth 4000 in
/-- The policy and the sample of the small run, cut in the record of the sample: the policy is
recovered and the flow of the sample is not. -/
theorem recovered_from_cut_policy : ∃ d d' : DurableGovernor,
    openStore {} {} {} Governor.Scenario.boot 0 = .ok d ∧
      openStore ⟨none, some ((d.recordAll [.policy policy,
        .evidence sample]).journal.file.take 400)⟩ {} {}
          reboot 20 = .ok d' ∧
      d'.governor.policy = some policy ∧
      d'.governor.flows[(⟨⟨1⟩, ⟨1⟩⟩ : FlowKey)]?.isNone = true := by
  obtain ⟨d, hd, hfirst, hsecond, hevery, hwhole, j, hj, hroom⟩ : ∃ d,
      openStore {} {} {} Governor.Scenario.boot 0 = .ok d ∧
      let d₁ := d.record (.policy policy)
      d.journal.Takes (encode policy).flatten ∧ d₁.journal.Takes (encode sample).flatten ∧
      d₁.options.snapshotEveryRecords = 0 ∧ wholeBefore 400 d briefInputs = [.policy policy] ∧
      ∃ j, openJournal (some ((d.recordAll briefInputs).journal.file.take 400)) {} = .ok j ∧
        j.Takes [] := by decide +kernel
  have hplain : d.PlainRun briefInputs := by
    refine ⟨⟨by decide +kernel, fun _ => hfirst, fun _ => ?_, fun s hs => by cases hs⟩,
      ⟨by decide +kernel, fun _ => hsecond, fun _ => ?_, fun s _ hs => hs.1 hevery⟩, trivial⟩
    · unfold Input.DecodesBack
      decide +kernel
    · unfold Input.DecodesBack
      decide +kernel
  have htakes : ∀ j, openJournal (some ((d.recordAll briefInputs).journal.file.take 400)) {} = .ok j →
      j.Takes [] := by
    intro j' hj'
    rw [hj] at hj'
    cases hj'
    exact hroom
  have hticks : ∀ now, Input.tick now ∈ briefInputs → now ≤ 20 := by simp [briefInputs]
  obtain ⟨d', hd', hrecovers⟩ := recovered_from_cut hd hplain (by decide : kJournalHeaderBytes ≤ 400)
    (by decide : reboot.valid = true) hticks htakes
  rw [hwhole] at hrecovers
  rw [briefInputs] at hd'
  refine ⟨d, d', hd, hd', ?_, ?_⟩
  · rw [hrecovers.policy]
    decide +kernel
  · have hledger := hrecovers.ledgers ⟨⟨1⟩, ⟨1⟩⟩
    have hnone : (([Input.policy policy].foldl Governor.take
        (Governor.make {})).flows[(⟨⟨1⟩, ⟨1⟩⟩ : FlowKey)]?.map FlowRecord.ledger) = none := by
      decide +kernel
    rw [hnone, Option.map_eq_none_iff] at hledger
    rw [hledger]
    rfl

end DurableGovernor

end EFG
