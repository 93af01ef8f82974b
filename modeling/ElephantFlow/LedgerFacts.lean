/-
# The evidence ledger keeps one contiguous run

`append_cases` lists what `FlowLedger::append` can do to a ledger, and
`WellFormed` says what the ledger of a flow always is: a bounded list of accepted
windows on one path, each adjoining the one before it, with the summary fields of
the ledger taken from the last one.
-/
import ElephantFlow.FlowLedger

namespace EFG

theorem FlowSample.of_validate {s : FlowSample} (h : s.validate = .ok ()) :
    s.flow.valid = true ∧ s.flowGeneration.valid = true ∧
      ¬ (s.priority.known = true ∧ s.priority.level > Priority.kMaxLevel) := by
  simp only [FlowSample.validate, ite_makeStatus_eq_ok, not_not] at h
  obtain ⟨hflow, hgeneration, -, -, -, -, -, -, -, -, -, hpriority, -⟩ := h
  exact ⟨hflow, hgeneration, hpriority⟩

/-- The sample with the digest of its content, as its publisher sends it. -/
def FlowSample.signed (s : FlowSample) : FlowSample :=
  { s with provenance := { s.provenance with digest := s.digest } }

namespace FlowLedger

variable {l : FlowLedger} {s : FlowSample}

/-! ## The outcomes of an append -/

/-- The checks that a sample passes before the epoch may restart. -/
structure Admissible (l : FlowLedger) (s : FlowSample) : Prop where
  flow : s.flow = l.flow
  generation : s.flowGeneration = l.generation
  valid : s.validate = .ok ()
  fresh : ¬ (l.hasPrevious = true ∧ s.windowSequence = l.lastSequence ∧ s.window = l.lastWindow)
  ordered : l.checkOrder s = .ok ()
  grows : l.generationCumulative ≤ s.cumulativeBytes
  contiguous : ¬ (l.hasPrevious = true ∧ s.span.beginAt = l.lastSpanEnd ∧
    s.cumulativeBytes < l.lastCumulative)

section

variable (l : FlowLedger) (s : FlowSample)

@[simp] theorem restartEpoch_limits : (l.restartEpoch s).limits = l.limits := by
  unfold restartEpoch
  split_ifs
  · rfl
  · rfl

@[simp] theorem restartEpoch_flow : (l.restartEpoch s).flow = l.flow := by
  unfold restartEpoch
  split_ifs
  · rfl
  · rfl

@[simp] theorem restartEpoch_generation : (l.restartEpoch s).generation = l.generation := by
  unfold restartEpoch
  split_ifs
  · rfl
  · rfl

@[simp] theorem restartEpoch_completed : (l.restartEpoch s).completed = l.completed := by
  unfold restartEpoch
  split_ifs
  · rfl
  · rfl

@[simp] theorem restartEpoch_completedAt : (l.restartEpoch s).completedAt = l.completedAt := by
  unfold restartEpoch
  split_ifs
  · rfl
  · rfl

/-- An append leaves the ledger alone, restarts the epoch and refuses an oversized window, or
retains the window. -/
theorem append_cases :
    ((∃ e, l.append s = (.error e, l)) ∨ l.append s = (.ok .duplicateIgnored, l)) ∨
    (l.Admissible s ∧ l.oversized s = true ∧ ∃ e, l.append s = (.error e, l.restartEpoch s)) ∨
    (l.Admissible s ∧ l.oversized s = false ∧
      l.append s = (.ok .accepted, (l.restartEpoch s).push s)) := by
  unfold append
  by_cases hid : s.flow ≠ l.flow ∨ s.flowGeneration ≠ l.generation
  · rw [if_pos hid]
    exact .inl (.inl ⟨_, rfl⟩)
  rw [if_neg hid]
  rw [not_or, not_not, not_not] at hid
  rcases hvalid : s.validate with e | ⟨⟩
  · exact .inl (.inl ⟨e, rfl⟩)
  simp only
  by_cases hdup : l.hasPrevious = true ∧ s.windowSequence = l.lastSequence ∧ s.window = l.lastWindow
  · rw [if_pos hdup]
    split_ifs
    · exact .inl (.inr rfl)
    · exact .inl (.inl ⟨_, rfl⟩)
  rw [if_neg hdup]
  rcases horder : l.checkOrder s with e | ⟨⟩
  · exact .inl (.inl ⟨e, rfl⟩)
  simp only
  by_cases hgen : s.cumulativeBytes < l.generationCumulative
  · rw [if_pos hgen]
    exact .inl (.inl ⟨_, rfl⟩)
  rw [if_neg hgen]
  by_cases hcum : l.hasPrevious = true ∧ s.span.beginAt = l.lastSpanEnd ∧
      s.cumulativeBytes < l.lastCumulative
  · rw [if_pos hcum]
    exact .inl (.inl ⟨_, rfl⟩)
  rw [if_neg hcum]
  have hadm : l.Admissible s := ⟨hid.1, hid.2, hvalid, hdup, horder, UInt64.not_lt.mp hgen, hcum⟩
  simp only [restartEpoch_limits]
  by_cases hwindow : l.limits.maxBytesPerWindow ≠ 0 ∧ s.windowBytes > l.limits.maxBytesPerWindow
  · rw [if_pos hwindow]
    exact .inr (.inl ⟨hadm, by simp [oversized, hwindow], _, rfl⟩)
  rw [if_neg hwindow]
  by_cases htotal : l.limits.maxCumulativeBytes ≠ 0 ∧
      s.cumulativeBytes > l.limits.maxCumulativeBytes
  · rw [if_pos htotal]
    exact .inr (.inl ⟨hadm, by simp [oversized, htotal], _, rfl⟩)
  rw [if_neg htotal]
  refine .inr (.inr ⟨hadm, ?_, rfl⟩)
  unfold oversized
  rw [Bool.or_eq_false_iff]
  constructor
  · rw [Bool.and_eq_false_iff]
    simpa using not_and_or.mp hwindow
  · rw [Bool.and_eq_false_iff]
    simpa using not_and_or.mp htotal

end

/-- An admissible sample within the byte ceilings is retained. -/
theorem append_of_admissible (hadm : l.Admissible s) (hsize : l.oversized s = false) :
    l.append s = (.ok .accepted, (l.restartEpoch s).push s) := by
  have hw : ¬ (l.limits.maxBytesPerWindow ≠ 0 ∧ s.windowBytes > l.limits.maxBytesPerWindow) := by
    rintro ⟨h₁, h₂⟩
    simp [oversized, h₁, h₂] at hsize
  have ht : ¬ (l.limits.maxCumulativeBytes ≠ 0 ∧
      s.cumulativeBytes > l.limits.maxCumulativeBytes) := by
    rintro ⟨h₁, h₂⟩
    simp [oversized, h₁, h₂] at hsize
  unfold append
  rw [if_neg (by simp [hadm.flow, hadm.generation]), hadm.valid]
  simp only [restartEpoch_limits]
  rw [if_neg hadm.fresh, hadm.ordered]
  simp only
  rw [if_neg (UInt64.not_lt.mpr hadm.grows), if_neg hadm.contiguous, if_neg hw, if_neg ht]

/-- An admissible sample over a byte ceiling is refused behind the epoch restart. -/
theorem append_of_oversized (hadm : l.Admissible s) (hsize : l.oversized s = true) :
    ∃ e, l.append s = (.error e, l.restartEpoch s) := by
  unfold append
  rw [if_neg (by simp [hadm.flow, hadm.generation]), hadm.valid]
  simp only [restartEpoch_limits]
  rw [if_neg hadm.fresh, hadm.ordered]
  simp only
  rw [if_neg (UInt64.not_lt.mpr hadm.grows), if_neg hadm.contiguous]
  unfold oversized at hsize
  simp only [Bool.or_eq_true, Bool.and_eq_true, decide_eq_true_eq] at hsize
  by_cases hwindow : l.limits.maxBytesPerWindow ≠ 0 ∧ s.windowBytes > l.limits.maxBytesPerWindow
  · rw [if_pos hwindow]
    exact ⟨_, rfl⟩
  · rw [if_neg hwindow, if_pos (hsize.resolve_left hwindow)]
    exact ⟨_, rfl⟩

theorem append_frame (l : FlowLedger) (s : FlowSample) :
    (l.append s).2.flow = l.flow ∧ (l.append s).2.generation = l.generation ∧
      (l.append s).2.limits = l.limits ∧ (l.append s).2.completed = l.completed ∧
      (l.append s).2.completedAt = l.completedAt := by
  rcases append_cases l s with (⟨e, h⟩ | h) | ⟨-, -, e, h⟩ | ⟨-, -, h⟩
  · rw [h]
    exact ⟨rfl, rfl, rfl, rfl, rfl⟩
  · rw [h]
    exact ⟨rfl, rfl, rfl, rfl, rfl⟩
  · rw [h]
    simp
  · rw [h]
    simp [push]

theorem markCompleted_eq_ok {l' : FlowLedger} {t : Tick} (h : l.markCompleted t = .ok l') :
    l' = { l with completed := true, completedAt := t } := by
  unfold markCompleted at h
  split_ifs at h with hc ht hs
  · cases h
    rw [← ht, ← hc]
  · cases h
  · cases h
  · cases h
    rfl

/-! ## The run of retained windows -/

/-- The second window continues the first one on the same path. -/
structure Adjoins (a b : FlowSample) : Prop where
  sequence : a.windowSequence < b.windowSequence
  span : b.span.beginAt = a.span.endAt
  volume : b.cumulativeBytes - a.cumulativeBytes = b.windowBytes
  cumulative : a.cumulativeBytes ≤ b.cumulativeBytes
  path : b.path = a.path
  pathGeneration : b.pathGeneration = a.pathGeneration

/-- The summary fields of the ledger are those of the sample. -/
structure Summarizes (l : FlowLedger) (s : FlowSample) : Prop where
  sequence : l.lastSequence = s.windowSequence
  window : l.lastWindow = s.window
  spanEnd : l.lastSpanEnd = s.span.endAt
  cumulative : l.lastCumulative = s.cumulativeBytes
  path : l.lastPath = s.path
  pathGeneration : l.lastPathGeneration = s.pathGeneration
  generationCumulative : l.generationCumulative = s.cumulativeBytes
  validity : l.latestValidity = s.validity

/-- What the ledger of a flow always is. -/
structure WellFormed (l : FlowLedger) : Prop where
  room : 1 ≤ l.limits.maxSamples
  bounded : l.samples.length ≤ l.limits.maxSamples
  accepted : ∀ s ∈ l.samples, s.flow = l.flow ∧ s.flowGeneration = l.generation ∧
    s.validate = .ok () ∧ l.oversized s = false
  adjoining : l.samples.IsChain Adjoins
  previous : l.hasPrevious = !l.samples.isEmpty
  summary : ∀ s, l.latest = some s → l.Summarizes s

theorem wellFormed_make (flow : FlowId) (generation : Generation) (limits : LedgerLimits) :
    (make flow generation limits).WellFormed where
  room := by
    unfold make
    simp only
    split_ifs
    · exact le_refl 1
    · decide
    · omega
  bounded := by simp [make]
  accepted := by simp [make]
  adjoining := by simp [make]
  previous := rfl
  summary := by simp [make, latest]

/-- The epoch restart empties the run or leaves it. -/
theorem WellFormed.restartEpoch (h : l.WellFormed) (s : FlowSample) :
    (l.restartEpoch s).WellFormed := by
  unfold FlowLedger.restartEpoch
  split_ifs
  · exact ⟨h.room, Nat.zero_le _, by simp, by simp, rfl, by simp [latest]⟩
  · exact h

theorem Admissible.adjoins_restartEpoch (h : l.WellFormed) (hadm : l.Admissible s) {a : FlowSample}
    (ha : (l.restartEpoch s).latest = some a) : Adjoins a s := by
  unfold FlowLedger.restartEpoch at ha
  split_ifs at ha with hr
  · simp [latest] at ha
  -- nothing restarted, so the sample is on the path of the last window and adjoins it
  have hprev : l.hasPrevious = true := by
    rw [h.previous]
    unfold latest at ha
    cases hs : l.samples with
    | nil => simp [hs] at ha
    | cons b bs => rfl
  have hsum := h.summary a ha
  have hsame : l.movedPath s = false ∧ l.discontinuous s = false := by
    simpa [restarts, hprev] using hr
  have hpath : s.path = a.path ∧ s.pathGeneration = a.pathGeneration := by
    have := hsame.1
    simpa [movedPath, hsum.path, hsum.pathGeneration] using this
  have hspan : s.span.beginAt = l.lastSpanEnd := by
    have := hsame.2
    simpa [discontinuous] using this
  have horder := hadm.ordered
  unfold checkOrder at horder
  rw [if_neg (by simp [hprev])] at horder
  split_ifs at horder with h₁ h₂ h₃
  · exact absurd horder (by simp)
  · exact absurd horder (by simp)
  · exact absurd horder (by simp)
  refine ⟨?_, ?_, ?_, ?_, hpath.1, hpath.2⟩
  · rw [← hsum.sequence]
    exact UInt64.not_le.mp h₁
  · rw [hspan, hsum.spanEnd]
  · rw [← hsum.cumulative]
    by_contra hne
    exact h₃ ⟨hspan, hne⟩
  · rw [← hsum.generationCumulative]
    exact hadm.grows

/-- Retaining a window that continues the run keeps the ledger well formed. -/
theorem WellFormed.push (h : l.WellFormed) (hflow : s.flow = l.flow)
    (hgeneration : s.flowGeneration = l.generation) (hvalid : s.validate = .ok ())
    (hsize : l.oversized s = false) (hadjoins : ∀ a, l.latest = some a → Adjoins a s) :
    (l.push s).WellFormed := by
  have hkept : ∀ a ∈ (if l.samples.length ≥ l.limits.maxSamples then l.samples.tail else l.samples),
      a ∈ l.samples := by
    intro a ha
    split_ifs at ha
    · exact List.mem_of_mem_tail ha
    · exact ha
  refine ⟨h.room, ?_, ?_, ?_, ?_, ?_⟩
  · show (_ ++ [s]).length ≤ l.limits.maxSamples
    have hb := h.bounded
    have hr := h.room
    split_ifs with hfull
    · rw [List.length_append, List.length_tail, List.length_singleton]
      omega
    · rw [List.length_append, List.length_singleton]
      omega
  · intro a ha
    rcases List.mem_append.mp ha with ha | ha
    · exact h.accepted a (hkept a ha)
    · rw [List.mem_singleton.mp ha]
      exact ⟨hflow, hgeneration, hvalid, hsize⟩
  · show List.IsChain Adjoins (_ ++ [s])
    rw [List.isChain_append]
    refine ⟨?_, List.isChain_singleton s, ?_⟩
    · split_ifs
      · exact h.adjoining.tail
      · exact h.adjoining
    · intro a ha b hb
      rw [List.head?_cons, Option.mem_some_iff] at hb
      subst hb
      apply hadjoins a
      split_ifs at ha with hfull
      · cases hs : l.samples with
        | nil => simp [hs] at ha
        | cons x xs =>
          rw [hs, List.tail_cons] at ha
          show l.samples.getLast? = some a
          rw [hs]
          cases xs with
          | nil => simp at ha
          | cons y ys => simpa [List.getLast?_cons_cons] using ha
      · exact ha
  · show true = !(_ ++ [s]).isEmpty
    simp
  · intro a ha
    have : a = s := by
      unfold latest FlowLedger.push at ha
      simpa using ha.symm
    subst this
    exact ⟨rfl, rfl, rfl, rfl, rfl, rfl, rfl, rfl⟩

theorem WellFormed.append (h : l.WellFormed) (s : FlowSample) : (l.append s).2.WellFormed := by
  rcases append_cases l s with (⟨e, heq⟩ | heq) | ⟨-, -, e, heq⟩ | ⟨hadm, hsize, heq⟩
  · rw [heq]
    exact h
  · rw [heq]
    exact h
  · rw [heq]
    exact h.restartEpoch s
  · rw [heq]
    apply (h.restartEpoch s).push
    · rw [restartEpoch_flow]
      exact hadm.flow
    · rw [restartEpoch_generation]
      exact hadm.generation
    · exact hadm.valid
    · unfold oversized
      rw [restartEpoch_limits]
      exact hsize
    · intro a ha
      exact hadm.adjoins_restartEpoch h ha

theorem WellFormed.markCompleted (h : l.WellFormed) {l' : FlowLedger} {t : Tick}
    (heq : l.markCompleted t = .ok l') : l'.WellFormed := by
  rw [markCompleted_eq_ok heq]
  exact ⟨h.room, h.bounded, h.accepted, h.adjoining, h.previous,
    fun s hs => ⟨(h.summary s hs).sequence, (h.summary s hs).window, (h.summary s hs).spanEnd,
      (h.summary s hs).cumulative, (h.summary s hs).path, (h.summary s hs).pathGeneration,
      (h.summary s hs).generationCumulative, (h.summary s hs).validity⟩⟩

/-! ## The order of the accepted evidence -/

/-- The second sample comes after the first one in the evidence of a generation. -/
structure Follows (a b : FlowSample) : Prop where
  sequence : a.windowSequence < b.windowSequence
  span : a.span.endAt ≤ b.span.beginAt
  cumulative : a.cumulativeBytes ≤ b.cumulativeBytes

/-- The samples of a run of appends for which `append` returned `Accepted`. -/
def acceptedBy (l : FlowLedger) : List FlowSample → List FlowSample
  | [] => []
  | s :: rest =>
    if (l.append s).1 = .ok .accepted then s :: acceptedBy (l.append s).2 rest
    else acceptedBy (l.append s).2 rest

/-- The sample passes every check on its order, starts a new measurement epoch, and is only then
refused for its volume. -/
def Disrupts (l : FlowLedger) (s : FlowSample) : Prop :=
  l.Admissible s ∧ l.restarts s = true ∧ l.oversized s = true

/-- No append of the run is refused after it has started a new epoch. -/
def Undisrupted (l : FlowLedger) : List FlowSample → Prop
  | [] => True
  | s :: rest => ¬ l.Disrupts s ∧ Undisrupted (l.append s).2 rest

/-- The ledger remembers the sample as its last one. -/
structure Remembers (l : FlowLedger) (s : FlowSample) : Prop where
  previous : l.hasPrevious = true
  sequence : l.lastSequence = s.windowSequence
  spanEnd : l.lastSpanEnd = s.span.endAt
  cumulative : l.generationCumulative = s.cumulativeBytes

theorem remembers_push (l : FlowLedger) (s : FlowSample) : (l.push s).Remembers s :=
  ⟨rfl, rfl, rfl, rfl⟩

theorem Admissible.follows {p : FlowSample} (hadm : l.Admissible s) (hp : l.Remembers p) :
    Follows p s := by
  have horder := hadm.ordered
  simp only [checkOrder, hp.previous, not_true_eq_false, if_false, ite_makeStatus_eq_ok] at horder
  obtain ⟨hsequence, hspan, -⟩ := horder
  rw [hp.sequence] at hsequence
  rw [hp.spanEnd] at hspan
  refine ⟨UInt64.not_le.mp hsequence, UInt64.not_lt.mp hspan, ?_⟩
  rw [← hp.cumulative]
  exact hadm.grows

theorem append_remembers {p : Option FlowSample} (hp : ∀ q, p = some q → l.Remembers q)
    (hs : ¬ l.Disrupts s) :
    if (l.append s).1 = .ok .accepted then
      (∀ q, p = some q → Follows q s) ∧ (l.append s).2.Remembers s
    else ∀ q, p = some q → (l.append s).2.Remembers q := by
  rcases append_cases l s with (⟨e, h⟩ | h) | ⟨hadm, hover, e, h⟩ | ⟨hadm, -, h⟩
  · rw [h, if_neg (by simp)]
    exact hp
  · rw [h, if_neg (by simp)]
    exact hp
  · -- refused for its volume: the condition says that the epoch was not restarted
    have hrestarts : l.restarts s = false := by
      by_contra hne
      exact hs ⟨hadm, by simpa using hne, hover⟩
    have hsame : l.restartEpoch s = l := by
      unfold restartEpoch
      rw [if_neg (by simp [hrestarts])]
    rw [h, if_neg (by simp), hsame]
    exact hp
  · rw [h, if_pos rfl]
    exact ⟨fun q hq => hadm.follows (hp q hq), remembers_push _ s⟩

theorem isChain_acceptedBy {ss : List FlowSample} {p : Option FlowSample}
    (hp : ∀ q, p = some q → l.Remembers q) (hss : l.Undisrupted ss) :
    (p.toList ++ l.acceptedBy ss).IsChain Follows := by
  induction ss generalizing l p with
  | nil =>
    rw [acceptedBy, List.append_nil]
    cases p <;> simp
  | cons s rest ih =>
    have hstep := append_remembers hp hss.1
    rw [acceptedBy]
    by_cases haccepted : (l.append s).1 = .ok .accepted
    · rw [if_pos haccepted] at hstep ⊢
      have hrest : (s :: (l.append s).2.acceptedBy rest).IsChain Follows :=
        ih (p := some s) (fun q hq => Option.some.inj hq ▸ hstep.2) hss.2
      cases p with
      | none => exact hrest
      | some q => exact List.isChain_cons_cons.mpr ⟨hstep.1 q rfl, hrest⟩
    · rw [if_neg haccepted] at hstep ⊢
      exact ih hstep hss.2

/-- Accepted evidence is ordered over the whole generation, in every run that no refused sample
disrupts. -/
theorem acceptedBy_ordered (l : FlowLedger) (ss : List FlowSample) (h : l.Undisrupted ss) :
    (l.acceptedBy ss).IsChain Follows :=
  isChain_acceptedBy (p := none) (by simp) h

instance : DecidableRel Follows := fun a b =>
  decidable_of_iff (a.windowSequence < b.windowSequence ∧ a.span.endAt ≤ b.span.beginAt ∧
      a.cumulativeBytes ≤ b.cumulativeBytes)
    ⟨fun h => ⟨h.1, h.2.1, h.2.2⟩, fun h => ⟨h.sequence, h.span, h.cumulative⟩⟩

/-- A window of flow 1 on path 1. -/
def window (sequence : UInt64) (span : TickSpan) (bytes cumulative : UInt64) : FlowSample :=
  FlowSample.signed
    { flow := ⟨1⟩, flowGeneration := ⟨1⟩, path := ⟨1⟩, pathGeneration := ⟨1⟩, window := ⟨sequence⟩
      windowSequence := sequence, span := span, windowBytes := bytes, cumulativeBytes := cumulative
      validity := ⟨span.endAt, 1000⟩
      provenance := { publisher := { publisher := ⟨1⟩, boot := ⟨1⟩ }, schemaVersion := 1 } }

/-- With a ceiling of ten bytes, the second window is refused after it has emptied the ledger; the
third one is older than the first one and is accepted. -/
theorem acceptedBy_not_ordered : (FlowLedger.make ⟨1⟩ ⟨1⟩ { maxBytesPerWindow := 10 }).acceptedBy
        [window 5 ⟨10, 20⟩ 5 5, window 6 ⟨30, 40⟩ 11 16, window 1 ⟨0, 10⟩ 5 5] =
      [window 5 ⟨10, 20⟩ 5 5, window 1 ⟨0, 10⟩ 5 5] ∧
    ¬ [window 5 ⟨10, 20⟩ 5 5, window 1 ⟨0, 10⟩ 5 5].IsChain Follows := by
  decide +kernel

/-- Two adjoining windows are accepted in their order. -/
theorem acceptedBy_ordered_two :
    ((FlowLedger.make ⟨1⟩ ⟨1⟩ {}).acceptedBy
      [window 1 ⟨0, 10⟩ 5 5, window 2 ⟨10, 20⟩ 5 10]).IsChain Follows := by
  apply acceptedBy_ordered
  refine ⟨fun h => ?_, fun h => ?_, trivial⟩
  · have : (FlowLedger.make ⟨1⟩ ⟨1⟩ {}).oversized (window 1 ⟨0, 10⟩ 5 5) = false := by decide +kernel
    rw [h.2.2] at this
    cases this
  · have : ((FlowLedger.make ⟨1⟩ ⟨1⟩ {}).append (window 1 ⟨0, 10⟩ 5 5)).2.oversized
        (window 2 ⟨10, 20⟩ 5 10) = false := by decide +kernel
    rw [h.2.2] at this
    cases this

end FlowLedger

end EFG
