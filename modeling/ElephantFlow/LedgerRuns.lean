/-
# Runs of one evidence ledger

A ledger is built by its constructor and changed by `append` and `mark_completed`
only.  Which refused samples leave it untouched is `refused_append_untouched_iff`:
all but those that first start a new measurement epoch and are then found to be
too large.  What every run of calls keeps is `WellFormed`, and read over the
integers it says that the retained windows are one exact run: the volumes and the
lengths of the windows telescope (`total_of_chain`, `ticks_of_chain`), so that no
sum over them saturates.  The measurements of a ledger that holds a sample report
it exactly where the rate of the run can be computed (`evidence_reported_iff`):
the fallback of `measurements` is the blank record.
-/
import ElephantFlow.LedgerFacts
import ElephantFlow.WideArithmetic

namespace EFG

namespace FlowLedger

variable {l : FlowLedger} {s a last first : FlowSample} {rest samples : List FlowSample}

/-! ## Refused samples -/

theorem restartEpoch_ne (h : l.restarts s = true) : l.restartEpoch s ≠ l := by
  have hprevious : l.hasPrevious = true := by
    unfold restarts at h
    exact (Bool.and_eq_true_iff.mp h).1
  intro heq
  have hforgot : (l.restartEpoch s).hasPrevious = false := by
    unfold restartEpoch
    rw [if_pos h]
  rw [heq, hprevious] at hforgot
  cases hforgot

theorem restartEpoch_of_continues (h : l.restarts s = false) : l.restartEpoch s = l := by
  unfold restartEpoch
  rw [if_neg (by simp [h])]

/-- A refused sample leaves the whole ledger as it was, unless it passes every check on its order,
starts a new measurement epoch, and is only then refused for its volume. -/
theorem refused_append_untouched_iff (l : FlowLedger) (s : FlowSample) :
    (∀ e, (l.append s).1 = .error e → (l.append s).2 = l) ↔ ¬ l.Disrupts s := by
  constructor
  · rintro hkept ⟨hadm, hrestarts, hover⟩
    obtain ⟨e, hrefused⟩ := append_of_oversized hadm hover
    have hsame := hkept e (by rw [hrefused])
    rw [hrefused] at hsame
    exact restartEpoch_ne hrestarts hsame
  · intro hquiet e he
    rcases append_cases l s with (⟨e', h⟩ | h) | ⟨hadm, hover, e', h⟩ | ⟨-, -, h⟩
    · rw [h]
    · rw [h]
    · have hcontinues : l.restarts s = false := by
        by_contra hne
        exact hquiet ⟨hadm, by simpa using hne, hover⟩
      rw [h]
      exact restartEpoch_of_continues hcontinues
    · rw [h] at he
      cases he

/-- With a ceiling of ten bytes, a window that does not adjoin the last one and is too large is
refused and has emptied the ledger. -/
theorem refused_append_empties_ledger :
    let l := ((make ⟨1⟩ ⟨1⟩ { maxBytesPerWindow := 10 }).append (window 5 ⟨10, 20⟩ 5 5)).2
    isOk (l.append (window 6 ⟨30, 40⟩ 11 16)).1 = false ∧ l.samples ≠ [] ∧
      (l.append (window 6 ⟨30, 40⟩ 11 16)).2.samples = [] := by
  decide +kernel

/-! ## Reachable ledgers -/

/-- The calls that change a ledger. -/
inductive Call
  | append (s : FlowSample)
  | markCompleted (completedAt : Tick)

/-- The ledger that a call leaves, whatever it returns. -/
def call (l : FlowLedger) : Call → FlowLedger
  | .append s => (l.append s).2
  | .markCompleted completedAt =>
    match l.markCompleted completedAt with
    | .ok l' => l'
    | .error _ => l

/-- The ledger after a list of calls. -/
def runCalls (l : FlowLedger) (calls : List Call) : FlowLedger := calls.foldl call l

theorem WellFormed.call (h : l.WellFormed) (c : Call) : (l.call c).WellFormed := by
  cases c with
  | append s => exact h.append s
  | markCompleted completedAt =>
    simp only [FlowLedger.call]
    rcases hc : l.markCompleted completedAt with e | l'
    · exact h
    · exact h.markCompleted hc

theorem WellFormed.runCalls (h : l.WellFormed) (calls : List Call) :
    (l.runCalls calls).WellFormed := by
  induction calls generalizing l with
  | nil => exact h
  | cons c rest ih => exact ih (h.call c)

/-! ## Volumes and lengths over the integers -/

theorem span_volume_of_validate (h : s.validate = .ok ()) :
    s.span.beginAt < s.span.endAt ∧ s.windowBytes ≤ s.cumulativeBytes := by
  simp only [FlowSample.validate, ite_makeStatus_eq_ok] at h
  obtain ⟨-, -, -, -, -, -, hspan, hvolume, -⟩ := h
  exact ⟨UInt64.not_le.mp hspan, UInt64.not_lt.mp hvolume⟩

/-- The length of a span that is not inverted, over the integers. -/
theorem toNat_length {span : TickSpan} (h : span.beginAt ≤ span.endAt) :
    span.length.toNat = span.endAt.toNat - span.beginAt.toNat := by
  unfold TickSpan.length
  split_ifs with hlt
  · exact UInt64.toNat_sub_of_le _ _ h
  · have hle := UInt64.le_iff_toNat_le.mp (UInt64.not_lt.mp hlt)
    rw [UInt64.toNat_zero]
    omega

/-- A window that continues another one adds exactly its own volume. -/
theorem Adjoins.toNat_cumulative {b : FlowSample} (h : Adjoins a b) :
    b.cumulativeBytes.toNat = a.cumulativeBytes.toNat + b.windowBytes.toNat := by
  have hle := UInt64.le_iff_toNat_le.mp h.cumulative
  rw [← h.volume, UInt64.toNat_sub_of_le _ _ h.cumulative]
  omega

/-- The volume of a list of windows. -/
def volume (samples : List FlowSample) : ℕ := (samples.map fun s => s.windowBytes.toNat).sum

/-- The summed length of a list of windows. -/
def ticks (samples : List FlowSample) : ℕ := (samples.map fun s => s.span.length.toNat).sum

theorem total_of_chain (h : (a :: rest).IsChain Adjoins) (hlast : (a :: rest).getLast? = some last) :
    a.cumulativeBytes.toNat + volume rest = last.cumulativeBytes.toNat := by
  induction rest generalizing a with
  | nil =>
    rw [List.getLast?_singleton, Option.some.injEq] at hlast
    subst hlast
    simp [volume]
  | cons b rest ih =>
    obtain ⟨hab, hrest⟩ := List.isChain_cons_cons.mp h
    rw [List.getLast?_cons_cons] at hlast
    have htail := ih hrest hlast
    have hstep := hab.toNat_cumulative
    simp only [volume, List.map_cons, List.sum_cons] at htail ⊢
    omega

/-- The lengths of a run telescope from its first tick to its last. -/
theorem ticks_of_chain (h : (a :: rest).IsChain Adjoins)
    (hspan : ∀ s ∈ a :: rest, s.span.beginAt < s.span.endAt)
    (hlast : (a :: rest).getLast? = some last) :
    a.span.beginAt.toNat + ticks (a :: rest) = last.span.endAt.toNat := by
  have hfirst := hspan a List.mem_cons_self
  have hlength := toNat_length (UInt64.le_of_lt hfirst)
  have hlt := UInt64.lt_iff_toNat_lt.mp hfirst
  induction rest generalizing a with
  | nil =>
    rw [List.getLast?_singleton, Option.some.injEq] at hlast
    subst hlast
    simp only [ticks, List.map_cons, List.map_nil, List.sum_cons, List.sum_nil]
    omega
  | cons b rest ih =>
    obtain ⟨hab, hrest⟩ := List.isChain_cons_cons.mp h
    rw [List.getLast?_cons_cons] at hlast
    have hb := hspan b (by simp)
    have htail := ih hrest (fun s hs => hspan s (List.mem_cons_of_mem a hs)) hlast hb
      (toNat_length (UInt64.le_of_lt hb)) (UInt64.lt_iff_toNat_lt.mp hb)
    rw [hab.span] at htail
    simp only [ticks, List.map_cons, List.sum_cons] at htail ⊢
    omega

/-- The loop of `derive_measurements` adds up the volumes, saturating. -/
theorem toNat_foldl_windowBytes (samples : List FlowSample) (acc : UInt64) :
    (samples.foldl (fun acc s => saturatingAdd acc s.windowBytes) acc).toNat =
      min (acc.toNat + volume samples) (2 ^ 64 - 1) := by
  induction samples generalizing acc with
  | nil =>
    have hlt := acc.toNat_lt
    simp only [List.foldl_nil, volume, List.map_nil, List.sum_nil]
    omega
  | cons s rest ih =>
    rw [List.foldl_cons, ih, toNat_saturatingAdd]
    simp only [volume, List.map_cons, List.sum_cons]
    omega

theorem WellFormed.total (h : l.WellFormed) (hfirst : l.samples.head? = some first)
    (hlast : l.latest = some last) :
    volume l.samples + first.cumulativeBytes.toNat =
        last.cumulativeBytes.toNat + first.windowBytes.toNat ∧
      first.windowBytes.toNat ≤ first.cumulativeBytes.toNat := by
  have hchain := h.adjoining
  have haccepted := h.accepted
  unfold latest at hlast
  obtain ⟨rest, hs⟩ := List.head?_eq_some_iff.mp hfirst
  rw [hs] at hlast hchain haccepted ⊢
  have htotal := total_of_chain hchain hlast
  have hpart := UInt64.le_iff_toNat_le.mp
    (span_volume_of_validate (haccepted first List.mem_cons_self).2.2.1).2
  refine ⟨?_, hpart⟩
  simp only [volume, List.map_cons, List.sum_cons] at htotal ⊢
  omega

theorem WellFormed.toNat_windowSum (h : l.WellFormed) (hfirst : l.samples.head? = some first)
    (hlast : l.latest = some last) :
    (l.samples.foldl (fun acc s => saturatingAdd acc s.windowBytes) 0).toNat = volume l.samples := by
  -- the first window is part of its own cumulative volume, so the sum stays below the last one's
  obtain ⟨htotal, hpart⟩ := h.total hfirst hlast
  have hbound := last.cumulativeBytes.toNat_lt
  rw [toNat_foldl_windowBytes, UInt64.toNat_zero]
  omega

/-- The span of the retained windows of a well-formed ledger is as long as they are together. -/
theorem WellFormed.toNat_observed (h : l.WellFormed) (hfirst : l.samples.head? = some first)
    (hlast : l.latest = some last) :
    first.span.beginAt < last.span.endAt ∧
      (⟨first.span.beginAt, last.span.endAt⟩ : TickSpan).length.toNat = ticks l.samples := by
  have hspan : ∀ s ∈ l.samples, s.span.beginAt < s.span.endAt := fun s hs =>
    (span_volume_of_validate (h.accepted s hs).2.2.1).1
  have hchain := h.adjoining
  unfold latest at hlast
  obtain ⟨rest, hs⟩ := List.head?_eq_some_iff.mp hfirst
  rw [hs] at hlast hchain hspan ⊢
  have hticks := ticks_of_chain hchain hspan hlast
  have ha := hspan first List.mem_cons_self
  have hpos : 0 < ticks (first :: rest) := by
    have hlength := toNat_length (UInt64.le_of_lt ha)
    have hlt := UInt64.lt_iff_toNat_lt.mp ha
    simp only [ticks, List.map_cons, List.sum_cons]
    omega
  have hlt : first.span.beginAt < last.span.endAt := by
    rw [UInt64.lt_iff_toNat_lt]
    omega
  refine ⟨hlt, ?_⟩
  rw [toNat_length (UInt64.le_of_lt hlt)]
  show last.span.endAt.toNat - first.span.beginAt.toNat = _
  omega

/-- What the measurements say about a ledger whose latest sample is `last`, where the rate over the
retained windows is `rate`. -/
structure Describes (l : FlowLedger) (last : FlowSample) (rate : UInt64) (m : FlowMeasurements) :
    Prop where
  present : m.evidencePresent = true
  completed : m.completed = l.completed
  protection : m.protection = last.protection
  cumulativeBytes : m.cumulativeBytes = last.cumulativeBytes
  sustainedRate : m.sustainedRate = rate
  retainedWindowBytes :
    m.retainedWindowBytes = l.samples.foldl (fun acc s => saturatingAdd acc s.windowBytes) 0
  durationTicks : m.durationTicks.toNat = ticks l.samples

theorem WellFormed.deriveMeasurements (h : l.WellFormed) (hfirst : l.samples.head? = some first)
    (hlast : l.latest = some last) :
    ∃ duration : UInt64, duration.toNat = ticks l.samples ∧ duration ≠ 0 ∧
      ((mulDiv (l.samples.foldl (fun acc s => saturatingAdd acc s.windowBytes) 0) kKiloTickScale
          duration = none ∧
        EFG.deriveMeasurements l.samples l.limits l.completed l.gapDetected l.droppedWindows =
          makeStatus .overflow "sustained rate computation overflowed") ∨
      ∃ rate m,
        mulDiv (l.samples.foldl (fun acc s => saturatingAdd acc s.windowBytes) 0) kKiloTickScale
          duration = some rate ∧
        EFG.deriveMeasurements l.samples l.limits l.completed l.gapDetected l.droppedWindows =
          .ok m ∧
        l.Describes last rate m) := by
  obtain ⟨hlt, hticks⟩ := h.toNat_observed hfirst hlast
  have hnotInverted : ¬ last.span.endAt < first.span.beginAt :=
    UInt64.not_lt.mpr (UInt64.le_of_lt hlt)
  have hnonempty : l.samples.any (fun s => decide (s.span.length = 0)) = false := by
    rw [List.any_eq_false]
    intro s hs
    have hspan := (span_volume_of_validate (h.accepted s hs).2.2.1).1
    have hlength := toNat_length (UInt64.le_of_lt hspan)
    have hlt := UInt64.lt_iff_toNat_lt.mp hspan
    intro hzero
    rw [of_decide_eq_true hzero, UInt64.toNat_zero] at hlength
    omega
  have hduration : (⟨first.span.beginAt, last.span.endAt⟩ : TickSpan).length ≠ 0 := by
    have hlength : (⟨first.span.beginAt, last.span.endAt⟩ : TickSpan).length.toNat =
        last.span.endAt.toNat - first.span.beginAt.toNat := toNat_length (UInt64.le_of_lt hlt)
    have hlt' := UInt64.lt_iff_toNat_lt.mp hlt
    intro hzero
    rw [hzero, UInt64.toNat_zero] at hlength
    omega
  -- the span of a ledger that dropped windows is the same difference of ticks
  have hretained : last.span.endAt - first.span.beginAt =
      (⟨first.span.beginAt, last.span.endAt⟩ : TickSpan).length := by
    unfold TickSpan.length
    exact (if_pos hlt).symm
  have hlast' : l.samples.getLast? = some last := hlast
  refine ⟨_, hticks, hduration, ?_⟩
  unfold EFG.deriveMeasurements
  simp only [hfirst, hlast', hretained]
  rw [if_neg hnotInverted, if_neg (by simp [hnonempty]), if_neg hduration]
  rcases mulDiv _ kKiloTickScale _ with _ | rate
  · exact .inl ⟨rfl, rfl⟩
  · exact .inr ⟨rate, _, rfl, rfl, rfl, rfl, rfl, rfl, by simp, rfl, hticks⟩

/-! ## The retained run -/

/-- The wrapping difference of `check_order` admits no valid sample whose cumulative volume went
down. -/
theorem lastCumulative_le_of_checkOrder (hvalid : s.validate = .ok ())
    (hprevious : l.hasPrevious = true) (hspan : s.span.beginAt = l.lastSpanEnd)
    (horder : l.checkOrder s = .ok ()) : l.lastCumulative ≤ s.cumulativeBytes := by
  simp only [checkOrder, hprevious, not_true_eq_false, if_false, ite_makeStatus_eq_ok] at horder
  obtain ⟨-, -, hdelta, -⟩ := horder
  have hdelta : s.cumulativeBytes - l.lastCumulative = s.windowBytes := by
    by_contra hne
    exact hdelta ⟨hspan, hne⟩
  have hpart := UInt64.le_iff_toNat_le.mp (span_volume_of_validate hvalid).2
  -- had the difference wrapped, the window would be larger than the cumulative volume
  have hwrap := congrArg UInt64.toNat hdelta
  rw [UInt64.toNat_sub] at hwrap
  have hlast := l.lastCumulative.toNat_lt
  have hcurrent := s.cumulativeBytes.toNat_lt
  rw [UInt64.le_iff_toNat_le]
  omega

theorem pairwise_sequence (h : samples.IsChain Adjoins) :
    samples.Pairwise (fun a b => a.windowSequence < b.windowSequence) := by
  have hchain : samples.IsChain (fun a b => a.windowSequence < b.windowSequence) :=
    h.imp fun _ _ hab => hab.sequence
  have : IsTrans FlowSample (fun a b => a.windowSequence < b.windowSequence) :=
    ⟨fun _ _ _ => UInt64.lt_trans⟩
  exact List.isChain_iff_pairwise.mp hchain

theorem same_path (h : samples.IsChain Adjoins) :
    ∀ a ∈ samples, ∀ b ∈ samples, a.path = b.path ∧ a.pathGeneration = b.pathGeneration := by
  cases samples with
  | nil => simp
  | cons first rest =>
    have hfirst : ∀ a ∈ first :: rest,
        a.path = first.path ∧ a.pathGeneration = first.pathGeneration := by
      apply h.induction (fun a => a.path = first.path ∧ a.pathGeneration = first.pathGeneration)
      · intro a b hab ha
        exact ⟨hab.path.trans ha.1, hab.pathGeneration.trans ha.2⟩
      · intro hne
        exact ⟨rfl, rfl⟩
    intro a ha b hb
    exact ⟨(hfirst a ha).1.trans (hfirst b hb).1.symm, (hfirst a ha).2.trans (hfirst b hb).2.symm⟩

/-- In every ledger that appends and completions build, the retained windows are one exact
contiguous run on one path that the summary fields describe, their volumes and lengths add up
without saturation, and the order check never admits a decrease of the cumulative volume. -/
theorem retained_run_exact (flow : FlowId) (generation : Generation) (limits : LedgerLimits)
    (calls : List Call) :
    let l := (make flow generation limits).runCalls calls
    l.samples.length ≤ l.limits.maxSamples ∧
    (∀ a ∈ l.samples, ∀ b ∈ l.samples,
      a.path = b.path ∧ a.pathGeneration = b.pathGeneration) ∧
    l.samples.Pairwise (fun a b => a.windowSequence < b.windowSequence) ∧
    l.samples.IsChain (fun a b => b.span.beginAt = a.span.endAt ∧
      b.cumulativeBytes.toNat = a.cumulativeBytes.toNat + b.windowBytes.toNat) ∧
    (∀ s, l.latest = some s → l.lastSequence = s.windowSequence ∧ l.lastWindow = s.window ∧
      l.lastSpanEnd = s.span.endAt ∧ l.lastCumulative = s.cumulativeBytes ∧
      l.lastPath = s.path ∧ l.lastPathGeneration = s.pathGeneration) ∧
    (∀ first last, l.samples.head? = some first → l.latest = some last →
      ((l.samples.foldl (fun acc s => saturatingAdd acc s.windowBytes) 0).toNat : ℤ) =
        last.cumulativeBytes.toNat - first.cumulativeBytes.toNat + first.windowBytes.toNat ∧
      (deriveMeasurements l.samples l.limits l.completed l.gapDetected l.droppedWindows =
          makeStatus .overflow "sustained rate computation overflowed" ∨
        ∃ m, deriveMeasurements l.samples l.limits l.completed l.gapDetected l.droppedWindows =
            .ok m ∧
          (m.retainedWindowBytes.toNat : ℤ) =
            last.cumulativeBytes.toNat - first.cumulativeBytes.toNat + first.windowBytes.toNat ∧
          m.durationTicks.toNat =
            (l.samples.map fun s => s.span.endAt.toNat - s.span.beginAt.toNat).sum)) ∧
    (∀ s, s.validate = .ok () → l.hasPrevious = true → s.span.beginAt = l.lastSpanEnd →
      l.checkOrder s = .ok () → l.lastCumulative ≤ s.cumulativeBytes) := by
  intro l
  have h : l.WellFormed := (wellFormed_make flow generation limits).runCalls calls
  refine ⟨h.bounded, same_path h.adjoining, pairwise_sequence h.adjoining, ?_, ?_, ?_, ?_⟩
  · exact h.adjoining.imp fun _ _ hab => ⟨hab.span, hab.toNat_cumulative⟩
  · intro s hs
    have hsum := h.summary s hs
    exact ⟨hsum.sequence, hsum.window, hsum.spanEnd, hsum.cumulative, hsum.path,
      hsum.pathGeneration⟩
  · intro first last hfirst hlast
    have hlengths : ticks l.samples =
        (l.samples.map fun s => s.span.endAt.toNat - s.span.beginAt.toNat).sum := by
      unfold ticks
      congr 1
      apply List.map_congr_left
      intro s hs
      exact toNat_length (UInt64.le_of_lt (span_volume_of_validate (h.accepted s hs).2.2.1).1)
    have hsum := h.toNat_windowSum hfirst hlast
    have htotal := (h.total hfirst hlast).1
    refine ⟨by omega, ?_⟩
    obtain ⟨duration, -, -, ⟨-, herror⟩ | ⟨rate, m, -, hm, hdescribes⟩⟩ :=
      h.deriveMeasurements hfirst hlast
    · exact .inl herror
    · have hvolume := congrArg UInt64.toNat hdescribes.retainedWindowBytes
      exact .inr ⟨m, hm, by omega, hdescribes.durationTicks.trans hlengths⟩
  · intro s hvalid hprevious hspan horder
    exact lastCumulative_le_of_checkOrder hvalid hprevious hspan horder

/-! ## Reported evidence -/

/-- The rate over the windows can be computed: `mul_div` does not give up on the product, and the
quotient fits. -/
def RateFits (samples : List FlowSample) : Prop :=
  (ticks samples ∣ volume samples ∨ ticks samples ∣ 1000 ∨ volume samples * 1000 < 2 ^ 64) ∧
    volume samples * 1000 / ticks samples < 2 ^ 64

instance (samples : List FlowSample) : Decidable (RateFits samples) :=
  inferInstanceAs (Decidable (_ ∧ _))

/-- `mul_div` computes the rate exactly where the rate fits. -/
theorem rateFits_iff {sum duration : UInt64} (hsum : sum.toNat = volume samples)
    (hduration : duration.toNat = ticks samples) (hne : duration ≠ 0) :
    (∃ rate, mulDiv sum kKiloTickScale duration = some rate ∧
      rate.toNat = volume samples * 1000 / ticks samples) ∧ RateFits samples ∨
    mulDiv sum kKiloTickScale duration = none ∧ ¬ RateFits samples := by
  have hscale : kKiloTickScale.toNat = 1000 := rfl
  have hpos : ticks samples ≠ 0 := by
    rw [← hduration]
    exact fun h => hne (toNat_eq_zero_iff.mp h)
  have hmap := map_mulDiv sum kKiloTickScale duration
  rw [hsum, hduration, hscale] at hmap
  unfold exactMulDiv at hmap
  by_cases hfits : RateFits samples
  · rw [if_pos hfits.1, if_pos ⟨hpos, hfits.2⟩, Option.map_eq_some_iff] at hmap
    exact .inl ⟨hmap, hfits⟩
  · have hnone : (mulDiv sum kKiloTickScale duration).map UInt64.toNat = none := by
      rw [hmap]
      split_ifs with hproduct hquotient
      · exact absurd ⟨hproduct, hquotient.2⟩ hfits
      · rfl
      · rfl
    exact .inr ⟨Option.map_eq_none_iff.mp hnone, hfits⟩

/-- In every ledger that appends and completions build and that holds a sample, the measurements
report the evidence, with the rate of the retained windows, exactly where that rate can be
computed. -/
theorem evidence_reported_iff (flow : FlowId) (generation : Generation) (limits : LedgerLimits)
    (calls : List Call) {last : FlowSample}
    (hlast : ((make flow generation limits).runCalls calls).latest = some last) :
    let l := (make flow generation limits).runCalls calls
    (l.measurements.evidencePresent = true ∧ l.measurements.completed = l.completed ∧
      l.measurements.protection = last.protection ∧
      l.measurements.cumulativeBytes = last.cumulativeBytes ∧
      l.measurements.sustainedRate.toNat =
        min (2 ^ 64 - 1) (1000 * volume l.samples / ticks l.samples)) ↔
    RateFits l.samples := by
  intro l
  have h : l.WellFormed := (wellFormed_make flow generation limits).runCalls calls
  have hlatest : l.latest = some last := hlast
  obtain ⟨first, hfirst⟩ : ∃ first, l.samples.head? = some first := by
    unfold latest at hlatest
    rcases hs : l.samples with _ | ⟨first, rest⟩
    · rw [hs] at hlatest
      cases hlatest
    · exact ⟨first, rfl⟩
  obtain ⟨duration, hticks, hne, hderived⟩ := h.deriveMeasurements hfirst hlatest
  have hrate := rateFits_iff (h.toNat_windowSum hfirst hlatest) hticks hne
  unfold measurements
  rcases hderived with ⟨hnone, herror⟩ | ⟨rate, m, hsome, hm, hdescribes⟩
  · -- without a rate the record is the blank one
    rw [herror]
    rcases hrate with ⟨⟨rate, hsome, -⟩, -⟩ | ⟨-, hunfit⟩
    · rw [hnone] at hsome
      cases hsome
    · exact ⟨fun hreported => (by cases hreported.1), fun hfits => absurd hfits hunfit⟩
  · rw [hm]
    rcases hrate with ⟨⟨_, hsome', hvalue⟩, hfits⟩ | ⟨hnone, -⟩
    · rw [hsome, Option.some.injEq] at hsome'
      subst hsome'
      have hbound := hfits.2
      refine ⟨fun _ => hfits, fun _ => ⟨hdescribes.present, hdescribes.completed,
        hdescribes.protection, hdescribes.cumulativeBytes, ?_⟩⟩
      show m.sustainedRate.toNat = _
      rw [hdescribes.sustainedRate, hvalue, Nat.mul_comm 1000]
      omega
    · rw [hnone] at hsome
      cases hsome

/-- A kilobyte in a window of ten ticks is reported with its rate. -/
theorem evidence_reported_kilobyte :
    let l := (make ⟨1⟩ ⟨1⟩ {}).runCalls [.append (window 5 ⟨10, 20⟩ 1024 1024)]
    l.latest = some (window 5 ⟨10, 20⟩ 1024 1024) ∧
      l.measurements.evidencePresent = true ∧ l.measurements.sustainedRate.toNat = 102400 := by
  have hlast : ((make ⟨1⟩ ⟨1⟩ {}).runCalls
      [.append (window 5 ⟨10, 20⟩ 1024 1024)]).latest = some (window 5 ⟨10, 20⟩ 1024 1024) := by
    decide +kernel
  have hreported := (evidence_reported_iff ⟨1⟩ ⟨1⟩ {} _ hlast).mpr (by decide +kernel)
  exact ⟨hlast, hreported.1, hreported.2.2.2.2.trans (by decide +kernel)⟩

/-- A window of one hundred and one ticks with two to the sixty bytes is accepted, its rate fits in
one word, and its evidence is reported as absent. -/
theorem large_window_reported_absent :
    let l := (make ⟨1⟩ ⟨1⟩ {}).runCalls [.append (window 5 ⟨10, 111⟩ (2 ^ 60) (2 ^ 60))]
    l.samples ≠ [] ∧ 1000 * volume l.samples / ticks l.samples < 2 ^ 64 ∧
      l.measurements.evidencePresent = false := by
  decide +kernel

end FlowLedger

end EFG
