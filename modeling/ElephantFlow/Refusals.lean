/-
# What a refused call leaves behind

`submit_evidence` and `complete_flow` change the state before they are done with
their checks.  The ledger takes the sample or the completion first and the
decision tick is compared afterwards, so that a call that is refused as stale has
moved the ledger unless the ledger had nothing to take.  In the same way a flow is
created, and room is made for it, before the ledger and the evaluation can refuse
its first sample.

The last step of an evaluation, the recording of its intents, cannot refuse as long
as the hashed attempts are new and distinct (`Recordable`).
-/
import ElephantFlow.Confirmation
import ElephantFlow.Rollover

namespace EFG

/-! ## Status codes -/

/-- The result is a refusal with the code of a late tick. -/
def RefusedStale {α : Type} (x : Except Status α) : Prop := codeOf x = .stale

instance {α : Type} (x : Except Status α) : Decidable (RefusedStale x) :=
  inferInstanceAs (Decidable (codeOf x = .stale))

theorem refusedStale_error {α : Type} {e : Status} :
    RefusedStale (.error e : Except Status α) ↔ e.code = .stale := Iff.rfl

theorem not_refusedStale_makeStatus {α : Type} {code : StatusCode} {m : String} (h : code ≠ .stale) :
    ¬ RefusedStale (makeStatus code m : Except Status α) :=
  fun hstale => h (refusedStale_error.mp hstale)

theorem not_refusedStale_ok {α : Type} (a : α) : ¬ RefusedStale (.ok a : Except Status α) := by
  intro h
  cases h

theorem not_refusedStale_makeValidity (now : Tick) (duration : UInt64) :
    ¬ RefusedStale (makeValidity now duration) := by
  unfold makeValidity
  split_ifs
  · exact not_refusedStale_makeStatus (by decide)
  · exact not_refusedStale_makeStatus (by decide)
  · exact not_refusedStale_ok _

theorem not_refusedStale_next (g : Generation) : ¬ RefusedStale g.next := by
  unfold Generation.next
  split_ifs
  · exact not_refusedStale_makeStatus (by decide)
  · exact not_refusedStale_ok _

theorem ClassificationHistory.refusedStale_record_iff {h : ClassificationHistory}
    {t : ClassificationTransition} :
    RefusedStale (h.record t) ↔ ∃ last, h.latest = some last ∧ t.atTick < last.atTick := by
  unfold ClassificationHistory.record
  rcases h.latest with _ | last
  · exact ⟨fun h => absurd h (not_refusedStale_ok _), fun ⟨_, hlast, _⟩ => nomatch hlast⟩
  simp only [Option.some.injEq, exists_eq_left']
  split_ifs with hlate hchain
  · exact ⟨fun _ => hlate, fun _ => rfl⟩
  · exact ⟨fun h => absurd h (not_refusedStale_makeStatus (by decide)), fun h => absurd h hlate⟩
  · exact ⟨fun h => absurd h (not_refusedStale_ok _), fun h => absurd h hlate⟩

theorem IntentLedger.not_refusedStale_record (l : IntentLedger) (i : GovernanceIntent) :
    ¬ RefusedStale (l.record i).1 := by
  rcases record_cases l i with ⟨e, _, hcode, heq⟩ | ⟨_, _, _, -, heq⟩ | ⟨_, _, -, -, -, heq⟩
  · rw [heq]
    exact fun hstale => hcode (refusedStale_error.mp hstale)
  · rw [heq]
    exact not_refusedStale_ok _
  · rw [heq]
    exact not_refusedStale_ok _

namespace Governor

variable {config : GovernorConfig} {g g' : Governor} {key : FlowKey} {r : FlowRecord} {now : Tick}
  {l : FlowLedger} {s : FlowSample} {e : Status} {outcome : AppendOutcome} {c : FlowClassification}
  {q : IntentRequest} {i : GovernanceIntent} {rs : List IntentRequest} {p : PolicyDocument}

theorem not_refusedStale_emit (cls : FlowClassification) (now : Tick) (q : IntentRequest)
    (g : Governor) : ¬ RefusedStale (emit cls now q g).1 := by
  have hrecord := IntentLedger.not_refusedStale_record g.intents (g.intentOf cls now q)
  unfold emit
  rcases h : g.intents.record (g.intentOf cls now q) with ⟨res, l⟩
  rw [h] at hrecord
  cases res with
  | ok stored => exact not_refusedStale_ok _
  | error e =>
    unfold emitted
    simp only
    split_ifs
    · exact not_refusedStale_ok _
    · exact fun hstale => hrecord hstale

theorem not_refusedStale_produceIntents (g : Governor) (r : FlowRecord) (now : Tick) :
    ¬ RefusedStale (g.produceIntents r now).1 := by
  rcases produceIntents_cases g r now with ⟨-, h⟩ | ⟨-, -, h⟩ | ⟨p, -, -, -, h⟩
  · rw [h]
    exact not_refusedStale_ok _
  · rw [h]
    exact not_refusedStale_ok _
  · rw [h]
    intro hstale
    rcases hres : (emitAll r.classification now ((g.retireStale r.classification).pendingRequests p
      r.classification now) (g.retireStale r.classification)).1 with e | out
    · obtain ⟨q, -, x, hx⟩ := Fallible.collect_error hres
      apply not_refusedStale_emit r.classification now q x
      rw [hx]
      rw [hres] at hstale
      exact hstale
    · rw [hres] at hstale
      exact not_refusedStale_ok _ hstale

/-! ## Late evaluations -/

/-- The evaluation gets as far as the history entry of its candidate. -/
structure Records (g : Governor) (r : FlowRecord) (now : Tick) : Prop where
  changed : unchanged r (g.candidate r now) = false
  validity : ∃ w, makeValidity now g.config.classificationValidityTicks = .ok w
  generation : ∃ n, nextGeneration r (g.candidate r now) = .ok n
  room : g.classificationSequence ≠ u64Max

/-- The decision tick is before the last evaluation of the record, or before the last entry of its
history where the evaluation comes to record one. -/
def Late (g : Governor) (r : FlowRecord) (now : Tick) : Prop :=
  (r.hasClassification = true ∧ now < r.evaluatedTick) ∨
    g.Records r now ∧ ∃ last, r.history.latest = some last ∧ now < last.atTick

section

variable (g : Governor) (r : FlowRecord) (c : FlowClassification) (h : ClassificationHistory)
  (now : Tick)

theorem not_refusedStale_nextGeneration : ¬ RefusedStale (nextGeneration r c) := by
  unfold nextGeneration
  split_ifs
  · exact not_refusedStale_ok _
  · exact not_refusedStale_next _
  · exact not_refusedStale_ok _

theorem not_refusedStale_commit : ¬ RefusedStale (g.commit r c h now).1 := by
  have hproduced := not_refusedStale_produceIntents (g.settle r (stamped c h) h now).1
    (g.settle r (stamped c h) h now).2 now
  unfold commit
  simp only
  rcases hp : (g.settle r (stamped c h) h now).1.produceIntents
    (g.settle r (stamped c h) h now).2 now with ⟨res, x⟩
  rw [hp] at hproduced
  cases res with
  | ok out => exact not_refusedStale_ok _
  | error e => exact fun hstale => hproduced hstale

theorem buildAuthority_eq : ∃ v : AuthorityVector,
    g.buildAuthority r now = (makeValidity now g.config.classificationValidityTicks).map
      fun w => { v with validity := w } := by
  unfold buildAuthority
  rcases makeValidity now g.config.classificationValidityTicks with e | w
  · exact ⟨{}, rfl⟩
  · exact ⟨_, rfl⟩

end

/-- An evaluation that is late refuses as stale and leaves everything but the counters and the
identifiers; any other one does not refuse as stale. -/
theorem evaluate_late (g : Governor) (r : FlowRecord) (now : Tick) :
    (g.Late r now ∧ ∃ e sequence counters, e.code = .stale ∧ g.evaluate r now =
      (.error e, { g with classificationSequence := sequence, counters := counters }, r)) ∨
    (¬ g.Late r now ∧ ¬ RefusedStale (g.evaluate r now).1) := by
  unfold Late evaluate
  by_cases hstale : r.hasClassification = true ∧ now < r.evaluatedTick
  · rw [if_pos hstale]
    exact .inl ⟨.inl hstale, _, _, _, rfl, rfl⟩
  rw [if_neg hstale]
  simp only [hstale, false_or]
  by_cases hu : unchanged r (g.candidate r now) = true
  · refine .inr ⟨fun h => ?_, ?_⟩
    · have hchanged := h.1.changed
      rw [hu] at hchanged
      cases hchanged
    · simp only [hu, if_true]
      exact not_refusedStale_ok _
  rw [Bool.not_eq_true] at hu
  simp only [hu, Bool.false_eq_true, if_false]
  obtain ⟨v, hv⟩ := buildAuthority_eq g r now
  rw [hv]
  rcases hw : makeValidity now g.config.classificationValidityTicks with e | w
  · refine .inr ⟨fun h => ?_, ?_⟩
    · obtain ⟨w, hok⟩ := h.1.validity
      rw [hw] at hok
      cases hok
    · intro hcode
      apply not_refusedStale_makeValidity now g.config.classificationValidityTicks
      rw [hw]
      exact hcode
  rcases hn : nextGeneration r (g.candidate r now) with e | n
  · refine .inr ⟨fun h => ?_, ?_⟩
    · obtain ⟨n, hok⟩ := h.1.generation
      rw [hn] at hok
      cases hok
    · intro hcode
      apply not_refusedStale_nextGeneration r (g.candidate r now)
      rw [hn]
      exact hcode
  by_cases hroom : g.classificationSequence = u64Max
  · refine .inr ⟨fun h => h.1.room hroom, ?_⟩
    simp only [Except.map, hroom, if_true]
    exact not_refusedStale_makeStatus (by decide)
  simp only [Except.map, if_neg hroom]
  have hrecords : g.Records r now := ⟨hu, ⟨w, hw⟩, ⟨n, hn⟩, hroom⟩
  have hhistory := @ClassificationHistory.refusedStale_record_iff r.history (transitionOf r
    (identified (g.candidate r now) { v with validity := w } n ⟨g.classificationSequence + 1⟩) now)
  rcases hh : r.history.record (transitionOf r
    (identified (g.candidate r now) { v with validity := w } n ⟨g.classificationSequence + 1⟩) now)
    with e | h
  · rw [hh, refusedStale_error] at hhistory
    by_cases hcode : e.code = .stale
    · exact .inl ⟨⟨hrecords, hhistory.mp hcode⟩, e, _, _, hcode, rfl⟩
    · exact .inr ⟨fun hlate => hcode (hhistory.mpr hlate.2),
        fun hstale' => hcode (refusedStale_error.mp hstale')⟩
  · rw [hh] at hhistory
    exact .inr ⟨fun hlate => not_refusedStale_ok h (hhistory.mpr hlate.2),
      not_refusedStale_commit _ r _ h now⟩

/-! ## Evidence and completion behind the decision tick -/

/-- The flow of the key has the ledger, the classification and the intents that it had, and its next
evaluation comes to the candidate that it would have come to. -/
structure LeavesFlow (g g' : Governor) (key : FlowKey) (r : FlowRecord) : Prop where
  record : ∃ r', g'.flows[key]? = some r' ∧ r'.ledger = r.ledger ∧
    r'.classification = r.classification ∧ ∀ now, g'.candidate r' now = g.candidate r now
  intents : ∀ (id : IntentId) (i : GovernanceIntent), i.flow = key.flow →
    i.flowGeneration = key.generation →
    (g'.intents.intents[id]? = some i ↔ g.intents.intents[id]? = some i)

/-- A sample that the ledger of the record takes does not come behind the decisions of the flow. -/
def TimelyEvidence (g : Governor) (r : FlowRecord) (s : FlowSample) : Prop :=
  g.policy ≠ none → (r.ledger.append s).1 = .ok .accepted →
    ¬ g.Late { r with ledger := (r.ledger.append s).2 } (decisionTick s)

/-- A completion that the ledger of the record takes, and that it has not yet, does not come behind
the decisions of the flow. -/
def TimelyCompletion (g : Governor) (r : FlowRecord) (atTick : Tick) : Prop :=
  r.ledger.completed = false → ∀ ledger, r.ledger.markCompleted atTick = .ok ledger →
    ¬ g.Late { r with ledger := ledger, completedTick := atTick } atTick

theorem late_congr (g : Governor) (r : FlowRecord) (now : Tick) (intents : IntentLedger)
    (counters : GovernorCounters) :
    Late { g with intents := intents, counters := counters } r now ↔ g.Late r now :=
  ⟨fun h => h.imp id fun ⟨hr, hl⟩ => ⟨⟨hr.1, hr.2, hr.3, hr.4⟩, hl⟩,
    fun h => h.imp id fun ⟨hr, hl⟩ => ⟨⟨hr.1, hr.2, hr.3, hr.4⟩, hl⟩⟩

/-- A sample that the ledger accepts changes it. -/
theorem append_ne (h : (l.append s).1 = .ok .accepted) : (l.append s).2 ≠ l := by
  rcases FlowLedger.append_cases l s with (⟨e, heq⟩ | heq) | ⟨-, -, e, heq⟩ | ⟨hadm, -, heq⟩
  · rw [heq] at h
    cases h
  · rw [heq] at h
    cases h
  · rw [heq] at h
    cases h
  rw [heq]
  intro hsame
  have hprevious : l.hasPrevious = true := (congrArg FlowLedger.hasPrevious hsame).symm
  have hsequence : s.windowSequence = l.lastSequence := congrArg FlowLedger.lastSequence hsame
  have hordered := hadm.ordered
  unfold FlowLedger.checkOrder at hordered
  rw [if_neg (by simp [hprevious]), if_pos (by rw [hsequence]; exact UInt64.le_refl _)] at hordered
  cases hordered

theorem not_refusedStale_append (hvalid : s.validate = .ok ()) : ¬ RefusedStale (l.append s).1 := by
  have horder : ¬ RefusedStale (l.checkOrder s) := by
    unfold FlowLedger.checkOrder
    split_ifs
    all_goals first | exact not_refusedStale_ok _ | exact not_refusedStale_makeStatus (by decide)
  unfold FlowLedger.append
  rw [hvalid]
  rcases hcheck : l.checkOrder s with e | ⟨⟩
  · rw [hcheck, refusedStale_error] at horder
    simp only
    split_ifs
    · exact not_refusedStale_makeStatus (by decide)
    · exact not_refusedStale_ok _
    · exact not_refusedStale_makeStatus (by decide)
    · exact fun hstale => horder (refusedStale_error.mp hstale)
  · simp only
    split_ifs
    all_goals first | exact not_refusedStale_ok _ | exact not_refusedStale_makeStatus (by decide)

/-- A record that was written back with at most another completion tick is left as it was. -/
theorem leavesFlow_setFlow {sequence : UInt64} {counters : GovernorCounters} {intents : IntentLedger}
    (t : Tick) (hintents : ∀ (id : IntentId) (i : GovernanceIntent), i.flow = key.flow →
      i.flowGeneration = key.generation →
      (intents.intents[id]? = some i ↔ g.intents.intents[id]? = some i)) :
    g.LeavesFlow (setFlow
      { g with intents := intents, classificationSequence := sequence, counters := counters }
      key { r with completedTick := t }) key r where
  record := by
    refine ⟨{ r with completedTick := t }, ?_, rfl, rfl, fun now => rfl⟩
    rw [getElem?_setFlow, if_pos rfl]
  intents := hintents

/-- Evidence for a flow that is not tracked and cannot be opened. -/
theorem submitEvidence_of_refused (hr : g.flows[sampleKey s]? = none) (hpolicy : g.policy ≠ none)
    (hvalid : s.validate = .ok ()) (h : g.establishFlow (sampleKey s) = (.error e, g')) :
    g.submitEvidence s = (.error e, g') := by
  unfold submitEvidence openFlow
  rw [if_neg (by simpa using hpolicy), hvalid, hr]
  simp only [h]

theorem submitEvidence_of_opened (hr : g.flows[sampleKey s]? = none) (hpolicy : g.policy ≠ none)
    (hvalid : s.validate = .ok ()) (h : g.establishFlow (sampleKey s) = (.ok (), g'))
    (hr' : g'.flows[sampleKey s]? = some r) :
    g.submitEvidence s = g'.applyEvidence (sampleKey s) r s := by
  unfold submitEvidence openFlow
  rw [if_neg (by simpa using hpolicy), hvalid, hr]
  simp only [h, hr']

theorem applyEvidence_of_error (g : Governor) (key : FlowKey)
    (h : r.ledger.append s = (.error e, l)) : ∃ counters, g.applyEvidence key r s =
      (.error e, setFlow { g with counters := counters } key { r with ledger := l }) := by
  unfold applyEvidence
  rw [h]
  exact ⟨countRefused g.counters e.code, rfl⟩

theorem applyEvidence_of_ok (g : Governor) (key : FlowKey)
    (h : r.ledger.append s = (.ok outcome, l)) : ∃ counters,
    (g.applyEvidence key r s).2 = (evaluateFlow { g with counters := counters } key
      { r with ledger := l } (decisionTick s)).2 ∧
    ∀ e, (g.applyEvidence key r s).1 = .error e ↔ (evaluate { g with counters := counters }
      { r with ledger := l } (decisionTick s)).1 = .error e := by
  refine ⟨countTaken g.counters outcome l s, ?_⟩
  have hcount : ({ g with counters := countTaken g.counters outcome l s } : Governor) =
      g.count (countTaken · outcome l s) := rfl
  rw [hcount]
  unfold applyEvidence evaluateFlow
  rw [h]
  simp only
  rcases (g.count (countTaken · outcome l s)).evaluate { r with ledger := l } (decisionTick s)
    with ⟨res, x⟩
  cases res with
  | ok d => exact ⟨rfl, fun e => ⟨fun h => (by cases h), fun h => (by cases h)⟩⟩
  | error e => exact ⟨rfl, fun e' => ⟨fun h => by cases h; rfl, fun h => by cases h; rfl⟩⟩

/-- Evidence that the ledger takes is refused as stale exactly when its evaluation is late. -/
theorem applyEvidence_of_append (g : Governor) (key : FlowKey)
    (h : r.ledger.append s = (.ok outcome, l)) :
    (g.Late { r with ledger := l } (decisionTick s) ∧
      RefusedStale (g.applyEvidence key r s).1 ∧ ∃ sequence counters,
      (g.applyEvidence key r s).2 = setFlow
        { g with classificationSequence := sequence, counters := counters } key
        { r with ledger := l }) ∨
    (¬ g.Late { r with ledger := l } (decisionTick s) ∧
      ¬ RefusedStale (g.applyEvidence key r s).1) := by
  obtain ⟨counters, hstate, herror⟩ := applyEvidence_of_ok g key h
  rcases evaluate_late { g with counters := counters } { r with ledger := l } (decisionTick s)
    with ⟨hlate, e, sequence, counters', hcode, heq⟩ | ⟨hlate, hstale⟩
  · refine .inl ⟨(late_congr g _ _ _ _).mp hlate, ?_, sequence, counters', ?_⟩
    · rw [(herror e).mpr (by rw [heq])]
      exact hcode
    · rw [hstate]
      unfold evaluateFlow
      rw [heq]
  · refine .inr ⟨fun h => hlate ((late_congr g _ _ _ _).mpr h), fun h => hstale ?_⟩
    rcases hres : (g.applyEvidence key r s).1 with e | d
    · rw [(herror e).mp hres]
      rw [hres] at h
      exact h
    · rw [hres] at h
      exact absurd h (not_refusedStale_ok d)

theorem stale_evidence_leaves_flow_iff (hr : g.flows[sampleKey s]? = some r) :
    (RefusedStale (g.submitEvidence s).1 → g.LeavesFlow (g.submitEvidence s).2 (sampleKey s) r) ↔
      g.TimelyEvidence r s := by
  by_cases hpolicy : g.policy = none
  · refine ⟨fun _ h => absurd hpolicy h, fun _ hstale => absurd hstale ?_⟩
    unfold submitEvidence
    rw [if_pos (by simpa using hpolicy)]
    exact not_refusedStale_makeStatus (by decide)
  rcases hvalid : s.validate with e | ⟨⟩
  · refine ⟨fun _ _ haccepted => ?_, fun _ _ => ?_⟩
    · rcases FlowLedger.append_cases r.ledger s with (⟨e', h⟩ | h) | ⟨hadm, -⟩ | ⟨hadm, -⟩
      · rw [h] at haccepted
        cases haccepted
      · rw [h] at haccepted
        cases haccepted
      · rw [hadm.valid] at hvalid
        cases hvalid
      · rw [hadm.valid] at hvalid
        cases hvalid
    · unfold submitEvidence
      rw [if_neg (by simpa using hpolicy), hvalid]
      exact ⟨⟨r, hr, rfl, rfl, fun _ => rfl⟩, fun _ _ _ _ => Iff.rfl⟩
  rw [submitEvidence_of_tracked hr hpolicy hvalid]
  have hcode := not_refusedStale_append (l := r.ledger) hvalid
  unfold TimelyEvidence
  rcases happend : r.ledger.append s with ⟨res, l⟩
  rw [happend] at hcode
  cases res with
  | error e =>
    constructor
    · intro _ _ haccepted
      cases haccepted
    · intro _ hstale
      unfold applyEvidence at hstale
      rw [happend] at hstale
      exact absurd hstale hcode
  | ok outcome =>
    rcases applyEvidence_of_append g (sampleKey s) happend with
      ⟨hlate, hstale, sequence, counters, hstate⟩ | ⟨hlate, hstale⟩
    · by_cases hout : outcome = .accepted
      · refine ⟨fun h => ?_, fun h => absurd hlate (h hpolicy (by rw [hout]))⟩
        -- the ledger moved although the call was refused
        obtain ⟨⟨r', hr', hledger, -⟩, -⟩ := h hstale
        rw [hstate, getElem?_setFlow, if_pos rfl] at hr'
        cases hr'
        have hne := append_ne (l := r.ledger) (s := s) (by rw [happend, hout])
        rw [happend] at hne
        exact absurd hledger hne
      · refine ⟨fun _ _ h => absurd (Except.ok.inj h) hout, fun _ _ => ?_⟩
        -- a duplicate leaves the ledger
        have hsame : l = r.ledger := by
          rcases FlowLedger.append_cases r.ledger s with (⟨e, h⟩ | h) | ⟨-, -, e, h⟩ | ⟨-, -, h⟩
          · rw [happend] at h
            cases h
          · rw [happend] at h
            cases h
            rfl
          · rw [happend] at h
            cases h
          · rw [happend] at h
            cases h
            exact absurd rfl hout
        rw [hstate, hsame]
        exact leavesFlow_setFlow r.completedTick fun _ _ _ _ => Iff.rfl
    · exact ⟨fun _ _ _ => hlate, fun _ h => absurd h hstale⟩

/-- The intents of a completed flow are not live, so that a completion leaves them alone. -/
theorem intents_of_completed (hreach : Reachable config g) (hr : g.flows[key]? = some r)
    (hdone : r.ledger.completed = true) (id : IntentId) :
    (g.intents.transitionFlowTerminal key.flow key.generation .completed).2.intents[id]? =
      g.intents.intents[id]? := by
  unfold IntentLedger.transitionFlowTerminal IntentLedger.updateLive
  simp only [Std.ExtTreeMap.getElem?_map]
  rcases hi : g.intents.intents[id]? with _ | i
  · rfl
  rw [Option.map_some, if_neg]
  unfold IntentLedger.hits
  simp only [Bool.and_eq_true, decide_eq_true_eq]
  rintro ⟨hlive, hflow, hgeneration⟩
  obtain ⟨r', hr', hsupports⟩ := hreach.justified.intents id i ⟨hi, hlive⟩
  have hkey : (⟨i.flow, i.flowGeneration⟩ : FlowKey) = key := by
    rw [hflow, hgeneration]
  rw [hkey, hr] at hr'
  cases hr'
  rw [hsupports.running] at hdone
  cases hdone

theorem not_refusedStale_markCompleted (l : FlowLedger) (t : Tick) :
    ¬ RefusedStale (l.markCompleted t) := by
  unfold FlowLedger.markCompleted
  split_ifs
  all_goals first | exact not_refusedStale_ok _ | exact not_refusedStale_makeStatus (by decide)

/-- A completion that the ledger takes is refused as stale exactly when its evaluation is late. -/
theorem completeFlow_of_markCompleted {atTick : Tick} (hr : g.flows[key]? = some r)
    (h : r.ledger.markCompleted atTick = .ok l) :
    (g.Late { r with ledger := l, completedTick := atTick } atTick ∧
      RefusedStale (g.completeFlow key.flow key.generation atTick).1 ∧ ∃ sequence counters,
      (g.completeFlow key.flow key.generation atTick).2 = setFlow
        { g with
          intents := (g.intents.transitionFlowTerminal key.flow key.generation .completed).2
          classificationSequence := sequence
          counters := counters } key { r with ledger := l, completedTick := atTick }) ∨
    (¬ g.Late { r with ledger := l, completedTick := atTick } atTick ∧
      ¬ RefusedStale (g.completeFlow key.flow key.generation atTick).1) := by
  have hr' : g.flows[(⟨key.flow, key.generation⟩ : FlowKey)]? = some r := hr
  unfold completeFlow evaluateFlow
  rw [hr']
  simp only [h]
  generalize hx : Governor.count _ _ = x
  have hlate : x.Late { r with ledger := l, completedTick := atTick } atTick ↔
      g.Late { r with ledger := l, completedTick := atTick } atTick := by
    rw [← hx]
    exact late_congr g _ _ _ _
  rcases evaluate_late x { r with ledger := l, completedTick := atTick } atTick
    with ⟨hl, e, sequence, counters, hcode, heq⟩ | ⟨hl, hstale⟩
  · rw [heq]
    exact .inl ⟨hlate.mp hl, refusedStale_error.mpr hcode, sequence, counters, by rw [← hx]; rfl⟩
  · refine .inr ⟨fun h => hl (hlate.mpr h), ?_⟩
    rcases hd : x.evaluate { r with ledger := l, completedTick := atTick } atTick with ⟨res, y⟩
    rw [hd] at hstale
    cases res with
    | ok d => exact not_refusedStale_ok _
    | error e => exact fun h => hstale h

theorem stale_completion_leaves_flow_iff (hreach : Reachable config g) (hr : g.flows[key]? = some r)
    (atTick : Tick) :
    (RefusedStale (g.completeFlow key.flow key.generation atTick).1 →
      g.LeavesFlow (g.completeFlow key.flow key.generation atTick).2 key r) ↔
      g.TimelyCompletion r atTick := by
  unfold TimelyCompletion
  rcases hmark : r.ledger.markCompleted atTick with e | l
  · constructor
    · intro _ _ ledger hledger
      cases hledger
    · intro _ hstale
      have hr' : g.flows[(⟨key.flow, key.generation⟩ : FlowKey)]? = some r := hr
      have hcode := not_refusedStale_markCompleted r.ledger atTick
      rw [hmark] at hcode
      unfold completeFlow at hstale
      rw [hr'] at hstale
      simp only [hmark] at hstale
      exact absurd hstale hcode
  have hl := FlowLedger.markCompleted_eq_ok hmark
  rcases completeFlow_of_markCompleted hr hmark with
    ⟨hlate, hstale, sequence, counters, hstate⟩ | ⟨hlate, hstale⟩
  · rcases hdone : r.ledger.completed with _ | _
    · refine ⟨fun h => ?_, fun h => absurd hlate (h rfl l rfl)⟩
      obtain ⟨⟨r', hr', hledger, -⟩, -⟩ := h hstale
      rw [hstate, getElem?_setFlow, if_pos rfl] at hr'
      cases hr'
      have hcompleted := congrArg FlowLedger.completed hledger
      rw [hdone, hl] at hcompleted
      cases hcompleted
    · refine ⟨fun _ h => (by cases h), fun _ _ => ?_⟩
      have hsame : l = r.ledger := by
        unfold FlowLedger.markCompleted at hmark
        rw [if_pos hdone] at hmark
        split_ifs at hmark
        · cases hmark
          rfl
        · cases hmark
      rw [hstate, hsame]
      refine leavesFlow_setFlow atTick fun id i _ _ => ?_
      rw [intents_of_completed hreach hr hdone id]
  · refine ⟨fun _ _ ledger hledger => ?_, fun _ h => absurd h hstale⟩
    cases hledger
    exact hlate

/-- A call that is refused as stale leaves the flow as it was exactly when what its ledger takes
comes in time. -/
theorem stale_leaves_flow_iff (hreach : Reachable config g) (hr : g.flows[key]? = some r) :
    (∀ s, sampleKey s = key → ((RefusedStale (g.submitEvidence s).1 →
      g.LeavesFlow (g.submitEvidence s).2 key r) ↔ g.TimelyEvidence r s)) ∧
    ∀ atTick, (RefusedStale (g.completeFlow key.flow key.generation atTick).1 →
      g.LeavesFlow (g.completeFlow key.flow key.generation atTick).2 key r) ↔
        g.TimelyCompletion r atTick := by
  refine ⟨?_, fun atTick => stale_completion_leaves_flow_iff hreach hr atTick⟩
  rintro s rfl
  exact stale_evidence_leaves_flow_iff hr

namespace Scenario

/-- The small run, swept at tick 20. -/
def swept : Governor := governor.exec (.tick 20)

theorem reachable_swept : Reachable {} swept := reachable_governor.tail ⟨.tick 20, trivial, rfl⟩

end Scenario

open Scenario

/-- The window that ends before the sweep is refused as stale and stays in the ledger, and so does a
completion before the sweep. -/
theorem stale_call_moves_ledger : Reachable {} swept ∧
    RefusedStale (swept.submitEvidence nextSample).1 ∧
    (swept.flows[flowKey]?.map fun r => r.ledger.samples.length) = some 1 ∧
    ((swept.submitEvidence nextSample).2.flows[flowKey]?.map
      fun r => r.ledger.samples.length) = some 2 ∧
    RefusedStale (swept.completeFlow ⟨1⟩ ⟨1⟩ 15).1 ∧
    (swept.flows[flowKey]?.map fun r => r.ledger.completed) = some false ∧
    ((swept.completeFlow ⟨1⟩ ⟨1⟩ 15).2.flows[flowKey]?.map
      fun r => r.ledger.completed) = some true :=
  ⟨reachable_swept, by decide +kernel, by decide +kernel, by decide +kernel,
    by decide +kernel, by decide +kernel, by decide +kernel⟩

/-- The first window again is refused as stale behind the sweep, and leaves the flow. -/
theorem stale_leaves_flow_duplicate : ∃ r,
    swept.flows[flowKey]? = some r ∧
    RefusedStale (swept.submitEvidence sample).1 ∧
    swept.LeavesFlow (swept.submitEvidence sample).2 flowKey r := by
  obtain ⟨r, hr, hdup⟩ : ∃ r, swept.flows[flowKey]? = some r ∧
    (r.ledger.append sample).1 = .ok .duplicateIgnored := by decide +kernel
  have hstale : RefusedStale (swept.submitEvidence sample).1 := by decide +kernel
  obtain ⟨hevidence, -⟩ := stale_leaves_flow_iff reachable_swept hr
  refine ⟨r, hr, hstale, (hevidence sample rfl).mpr ?_ hstale⟩
  intro _ haccepted
  rw [hdup] at haccepted
  cases haccepted

/-! ## Recording the intents of a decision -/

/-- The kinds of intents that the governor asks for. -/
def askedKinds : List IntentKind :=
  [.observeOnly, .requestAlternatePlacement, .requestRateShaping, .requestSchedulingIsolation,
    .protectReservedFlow, .reduceCompetingAdmission, .escalateCongestion]

section

variable (g : Governor) (auth : IntentAuthorization) (c : FlowClassification)
  (live : List GovernanceIntent) (now : Tick) (b : Bool) (q : IntentRequest)

theorem kinds_requestWhen : ((requestWhen b q).map IntentRequest.kind).Sublist [q.kind] := by
  cases b with
  | false => exact List.nil_sublist _
  | true => exact List.Sublist.refl _

theorem kinds_correctiveRequests :
    ((g.correctiveRequests auth c live now).map IntentRequest.kind).Sublist
      ([IntentKind.requestRateShaping] ++ [IntentKind.requestAlternatePlacement] ++
        [IntentKind.reduceCompetingAdmission] ++ [IntentKind.requestSchedulingIsolation] ++
        [IntentKind.escalateCongestion]) := by
  unfold correctiveRequests
  simp only [List.map_append]
  exact ((((kinds_requestWhen _ _).append (kinds_requestWhen _ _)).append
    (kinds_requestWhen _ _)).append (kinds_requestWhen _ _)).append (kinds_requestWhen _ _)

/-- No kind is asked for twice, and at most six are. -/
theorem kinds_intentRequests :
    ((g.intentRequests auth c live now).map IntentRequest.kind).Nodup ∧
      (g.intentRequests auth c live now).length ≤ 6 := by
  have hsub : ∃ kinds : List IntentKind, (IntentKind.protectReservedFlow :: kinds).Nodup ∧
      kinds.length ≤ 5 ∧ ((if c.authority = .govern then g.governRequests auth c live now
        else []).map IntentRequest.kind).Sublist kinds := by
    split_ifs
    · unfold governRequests
      simp only
      split_ifs
      · exact ⟨[.observeOnly], by decide, by decide, kinds_requestWhen _ _⟩
      · exact ⟨[.observeOnly], by decide, by decide, List.Sublist.refl _⟩
      · refine ⟨_, ?_, ?_, kinds_correctiveRequests g auth c live now⟩
        · decide
        · decide
      · exact ⟨[.observeOnly], by decide, by decide, kinds_requestWhen _ _⟩
    · exact ⟨[], by decide, by decide, List.Sublist.refl _⟩
  obtain ⟨kinds, hnodup, hlength, hsub⟩ := hsub
  have hall : ((g.intentRequests auth c live now).map IntentRequest.kind).Sublist
      ([IntentKind.protectReservedFlow] ++ kinds) := by
    unfold intentRequests
    rw [List.map_append]
    exact (kinds_requestWhen _ _).append hsub
  refine ⟨hnodup.sublist hall, ?_⟩
  have hle := hall.length_le
  rw [List.length_map, List.length_append, List.length_singleton] at hle
  omega

end

theorem kind_mem_askedKinds {auth : IntentAuthorization} {live : List GovernanceIntent}
    (hq : q ∈ g.intentRequests auth c live now) :
    q.kind ∈ askedKinds := by
  have hpermits := permits_of_mem_intentRequests hq
  rcases hkind : q.kind
  all_goals first | decide | skip
  rw [hkind] at hpermits
  cases hpermits

theorem sealed_attempt (i : GovernanceIntent) : i.sealed.attempt = i.attempt := by
  have hdigest : ∀ d, (i.withDigest d).attempt = i.attempt := fun _ => rfl
  exact hdigest _

theorem toNat_succ_le (x : UInt64) : (x + 1).toNat ≤ x.toNat + 1 := by
  rw [UInt64.toNat_add]
  exact Nat.mod_le _ _

/-- What recording a new attempt may add to the ledger: the attempt and one identifier. -/
structure Extends (l l' : IntentLedger) (attempt : AttemptId) : Prop where
  nextId : l'.nextId.value.toNat ≤ l.nextId.value.toNat + 1
  attempts : ∀ a, a ∈ l'.attempts → a = attempt ∨ a ∈ l.attempts

theorem recordNew_of_room {l : IntentLedger} (hid : i.id.valid = false)
    (hroom : l.nextId.value ≠ u64Max) :
    ((∃ stored, (l.recordNew i).1 = .ok stored) ∨
      ∃ e, (l.recordNew i).1 = .error e ∧ e.code = .capacityExceeded) ∧
    Extends l (l.recordNew i).2 i.attempt := by
  unfold IntentLedger.recordNew
  by_cases hfull : l.intents.size ≥ l.maxIntents ∨ l.attempts.size ≥ l.maxAttempts
  · rw [if_pos hfull]
    exact ⟨.inr ⟨_, rfl, rfl⟩, ⟨Nat.le_succ _, fun a ha => .inr ha⟩⟩
  rw [if_neg hfull, if_pos (by simp [hid]), if_neg hroom]
  refine ⟨.inl ⟨_, rfl⟩, ⟨toNat_succ_le _, fun a ha => ?_⟩⟩
  have hmem : a ∈ l.attempts.insertIfNew
      ({ i with id := ⟨l.nextId.value + 1⟩ } : GovernanceIntent).sealed.attempt _ := ha
  rw [sealed_attempt, Std.ExtTreeMap.mem_insertIfNew] at hmem
  exact hmem.imp (fun h => (Std.LawfulEqOrd.eq_of_compare h).symm) id

/-- The intents of the requests can be recorded: their attempts are new and distinct, there are
identifiers for them, and their flow and window are in order. -/
structure Recordable (c : FlowClassification) (now : Tick) (rs : List IntentRequest) (g : Governor) :
    Prop where
  attempts : (rs.map fun q => attemptOf c q.kind now).Nodup
  fresh : ∀ q ∈ rs, attemptOf c q.kind now ∉ g.intents.attempts
  ids : g.intents.nextId.value.toNat + rs.length < 2 ^ 64
  kinds : ∀ q ∈ rs, q.kind ≠ .count
  flow : c.flow.valid = true
  generation : c.flowGeneration.valid = true
  window : now < saturatingAdd now (minOf g.config.intentDurationTicks g.ceilingBounds.durationTicks)

theorem attemptOf_valid (c : FlowClassification) (kind : IntentKind) (now : Tick) :
    (attemptOf c kind now).valid = true := by
  unfold attemptOf
  simp only
  generalize hasherDigest _ = d
  split_ifs with h
  · rfl
  · simpa [StrongId.valid] using h

/-- An intent that the ledger takes, or that is over budget, is reported. -/
theorem emitted_of_recorded (g : Governor) (intent : GovernanceIntent)
    {res : Except Status GovernanceIntent} (l : IntentLedger)
    (h : (∃ stored, res = .ok stored) ∨ ∃ e, res = .error e ∧ e.code = .capacityExceeded) :
    ∃ i counters,
      g.emitted intent (res, l) = (.ok i, { g with intents := l, counters := counters }) := by
  rcases h with ⟨stored, rfl⟩ | ⟨e, rfl, hcode⟩
  · exact ⟨stored, _, rfl⟩
  · simp only [emitted, if_pos hcode]
    exact ⟨_, _, rfl⟩

/-- A recorded intent leaves the condition for the others. -/
theorem Recordable.tail (h : Recordable c now (q :: rs) g) {l : IntentLedger}
    (hextends : Extends g.intents l (attemptOf c q.kind now)) (counters : GovernorCounters) :
    Recordable c now rs { g with intents := l, counters := counters } := by
  have hnodup := List.nodup_cons.mp h.attempts
  refine ⟨hnodup.2, fun q' hq' hmem => ?_, ?_, fun q' hq' => h.kinds q' (List.mem_cons_of_mem _ hq'),
    h.flow, h.generation, h.window⟩
  · rcases hextends.attempts _ hmem with heq | hold
    · exact hnodup.1 (List.mem_map.mpr ⟨q', hq', heq⟩)
    · exact h.fresh q' (List.mem_cons_of_mem _ hq') hold
  · have hids := h.ids
    have hnext := hextends.nextId
    rw [List.length_cons] at hids
    show l.nextId.value.toNat + rs.length < 2 ^ 64
    omega

theorem record_of_new {l : IntentLedger} (hcheck : IntentLedger.checkIntent i = .ok ())
    (hattempt : l.attempts[i.attempt]? = none) :
    l.record i = l.recordNew i := by
  unfold IntentLedger.record
  rw [hcheck, hattempt]

/-- The first request passes the checks of the ledger and is new to it. -/
theorem Recordable.record (h : Recordable c now (q :: rs) g) : g.intents.nextId.value ≠ u64Max ∧
      g.intents.record (g.intentOf c now q) = g.intents.recordNew (g.intentOf c now q) := by
  have hcheck : IntentLedger.checkIntent (g.intentOf c now q) = .ok () := by
    have hwindow : ¬ (g.intentOf c now q).window.endAt ≤ (g.intentOf c now q).window.beginAt :=
      UInt64.not_le.mpr h.window
    have hkind : (g.intentOf c now q).kind ≠ .count := h.kinds q List.mem_cons_self
    unfold IntentLedger.checkIntent
    rw [if_neg (by simp [intentOf, attemptOf_valid]), if_neg (by simp [intentOf, h.flow, h.generation]),
      if_neg hwindow, if_neg hkind]
  have hattempt : g.intents.attempts[(g.intentOf c now q).attempt]? = none :=
    Std.ExtTreeMap.getElem?_eq_none (h.fresh q List.mem_cons_self)
  refine ⟨fun hmax => ?_, ?_⟩
  · have hids := h.ids
    have hlast : u64Max.toNat = 2 ^ 64 - 1 := by decide
    rw [hmax, hlast, List.length_cons] at hids
    omega
  · exact record_of_new hcheck hattempt

/-- One emit under the condition succeeds and leaves the condition for the others. -/
theorem Recordable.emit (h : Recordable c now (q :: rs) g) :
    ∃ i g', Governor.emit c now q g = (.ok i, g') ∧ Recordable c now rs g' := by
  obtain ⟨hroom, hrecord⟩ := h.record
  have hid : (g.intentOf c now q).id.valid = false := rfl
  have hattempt : (g.intentOf c now q).attempt = attemptOf c q.kind now := rfl
  unfold Governor.emit
  rw [hrecord]
  generalize g.intentOf c now q = intent at hid hattempt
  obtain ⟨hresult, hextends⟩ := recordNew_of_room hid hroom
  rw [hattempt] at hextends
  obtain ⟨i, counters, hemitted⟩ := emitted_of_recorded g intent (g.intents.recordNew intent).2 hresult
  exact ⟨i, _, hemitted, h.tail hextends counters⟩

/-- The production of intents succeeds when they can be recorded. -/
theorem Recordable.emitAll (h : Recordable c now rs g) :
    ∃ out, (Governor.emitAll c now rs g).1 = .ok out :=
  Fallible.collect_isOk (P := Recordable c now) (fun _ _ _ hstep => hstep.emit) h

/-! ## Evidence whose intents can be recorded -/

/-- The record that the sample is for. -/
def recordOf (g : Governor) (s : FlowSample) : FlowRecord :=
  (g.flows[sampleKey s]?).getD (g.freshRecord (sampleKey s))

/-- The classification generations that the next commit of the record may carry. -/
def nextGenerations (r : FlowRecord) : List Generation :=
  [.initial, r.classification.generation, ⟨r.classification.generation.value + 1⟩]

/-- The attempts that the evaluation of the sample may make under a classification generation. -/
def attemptsOf (g : Governor) (s : FlowSample) (generation : Generation) : List AttemptId :=
  askedKinds.map fun kind => attemptOf
    { flow := s.flow, flowGeneration := s.flowGeneration, generation := generation
      id := ⟨g.classificationSequence + 1⟩ } kind (decisionTick s)

/-- The identifiers of intents do not run out under the sample, and the hashed attempts that its
evaluation may make are distinct and new. -/
structure AttemptsFree (g : Governor) (s : FlowSample) : Prop where
  ids : g.intents.nextId.value.toNat + 6 < 2 ^ 64
  attempts : ∀ generation ∈ nextGenerations (g.recordOf s), (g.attemptsOf s generation).Nodup ∧
    ∀ a ∈ g.attemptsOf s generation, a ∉ g.intents.attempts

theorem nextGeneration_mem {n : Generation} (h : nextGeneration r c = .ok n) :
    n ∈ nextGenerations r := by
  unfold nextGeneration at h
  unfold nextGenerations
  split_ifs at h
  · cases h
    simp
  · unfold Generation.next at h
    split_ifs at h
    · cases h
    · cases h
      simp
  · cases h
    simp

/-- A valid policy gives its intents a lifetime. -/
theorem maxIntentDurationTicks_ne_zero (h : p.validate = .ok ()) :
    p.authorization.maxIntentDurationTicks ≠ 0 := by
  have htail := validateTail_of_validate h
  unfold PolicyDocument.validateTail at htail
  rcases hspec : p.hysteresis.validate with e | ⟨⟩
  · rw [hspec] at htail
    cases htail
  rcases hauth : p.authorization.validate with e | ⟨⟩
  · rw [hspec, hauth] at htail
    cases htail
  unfold IntentAuthorization.validate at hauth
  simp only [ite_makeStatus_eq_ok] at hauth
  exact hauth.2.1

theorem minOf_ne_zero {a b : UInt64} (ha : a ≠ 0) (hb : b ≠ 0) : minOf a b ≠ 0 := by
  unfold minOf
  split_ifs
  · exact ha
  · exact hb

/-- A tick that a validity window starts at is not the last one. -/
theorem lt_of_makeValidity {duration : UInt64} {w : ValidityWindow}
    (h : makeValidity now duration = .ok w) : now.toNat < 2 ^ 64 - 1 := by
  unfold makeValidity at h
  simp only [ite_makeStatus_eq_ok] at h
  obtain ⟨hpos, hle, -⟩ := h
  have hmax : u64Max.toNat = 2 ^ 64 - 1 := by decide
  have hduration : duration.toNat ≠ 0 := fun h0 =>
    hpos (UInt64.toNat_inj.mp (h0.trans UInt64.toNat_zero.symm))
  have hlt := duration.toNat_lt
  have hbelow : duration ≤ u64Max := by
    rw [UInt64.le_iff_toNat_le, hmax]
    omega
  have hle' := UInt64.le_iff_toNat_le.mp (UInt64.not_lt.mp hle)
  rw [UInt64.toNat_sub_of_le _ _ hbelow, hmax] at hle'
  omega

theorem lt_saturatingAdd {a b : UInt64} (ha : a.toNat < 2 ^ 64 - 1) (hb : b ≠ 0) :
    a < saturatingAdd a b := by
  have hpos : b.toNat ≠ 0 := fun h0 =>
    hb (UInt64.toNat_inj.mp (h0.trans UInt64.toNat_zero.symm))
  rw [UInt64.lt_iff_toNat_lt, toNat_saturatingAdd]
  omega

theorem attemptOf_congr {c' : FlowClassification} (hflow : c.flow = c'.flow)
    (hgeneration : c.flowGeneration = c'.flowGeneration) (hn : c.generation = c'.generation)
    (hid : c.id = c'.id) (kind : IntentKind) (now : Tick) :
    attemptOf c kind now = attemptOf c' kind now := by
  unfold attemptOf
  rw [hflow, hgeneration, hn, hid]

theorem intentsAfter_frame (l : IntentLedger) (c : FlowClassification) :
    (intentsAfter l c).attempts = l.attempts ∧ (intentsAfter l c).nextId = l.nextId := by
  unfold intentsAfter
  split_ifs
  · exact ⟨rfl, rfl⟩
  · exact ⟨rfl, rfl⟩

/-- The requests for a classification can be recorded in a ledger without its attempts. -/
theorem recordable_of_fresh (hp : g.policy = some p) (hpolicy : g.PolicyValid)
    (hduration : g.config.intentDurationTicks ≠ 0) (hnow : now.toNat < 2 ^ 64 - 1)
    (hflow : c.flow.valid = true) (hgeneration : c.flowGeneration.valid = true)
    (hids : g.intents.nextId.value.toNat + 6 < 2 ^ 64)
    (hnodup : (askedKinds.map fun kind => attemptOf c kind now).Nodup)
    (hfresh : ∀ kind ∈ askedKinds, attemptOf c kind now ∉ g.intents.attempts) :
    Recordable c now (g.pendingRequests p c now) g := by
  obtain ⟨hkinds, hlength⟩ := kinds_intentRequests g p.authorization c
    (g.intents.forFlow c.flow c.flowGeneration) now
  have hasked : ∀ q ∈ g.pendingRequests p c now, q.kind ∈ askedKinds := fun q hq =>
    kind_mem_askedKinds hq
  refine ⟨?_, fun q hq => hfresh _ (hasked q hq), ?_, fun q hq hcount => ?_, hflow, hgeneration, ?_⟩
  · have hinj := List.inj_on_of_nodup_map hnodup
    have hmap := List.Nodup.map_on (f := fun kind => attemptOf c kind now) (fun a ha b hb hab => by
      obtain ⟨q, hq, rfl⟩ := List.mem_map.mp ha
      obtain ⟨q', hq', rfl⟩ := List.mem_map.mp hb
      exact hinj (hasked q hq) (hasked q' hq') hab) hkinds
    rw [List.map_map] at hmap
    exact hmap
  · have hle : (g.pendingRequests p c now).length ≤ 6 := hlength
    omega
  · have hmem := hasked q hq
    rw [hcount] at hmem
    exact absurd hmem (by decide)
  · refine lt_saturatingAdd hnow (minOf_ne_zero hduration ?_)
    unfold ceilingBounds
    rw [hp]
    exact minOf_ne_zero hduration (maxIntentDurationTicks_ne_zero (hpolicy p hp))

theorem produceIntents_isOk (hpolicy : g.PolicyValid) (hduration : g.config.intentDurationTicks ≠ 0)
    (hnow : now.toNat < 2 ^ 64 - 1) (hflow : r.classification.flow.valid = true)
    (hgeneration : r.classification.flowGeneration.valid = true)
    (hids : g.intents.nextId.value.toNat + 6 < 2 ^ 64)
    (hnodup : (askedKinds.map fun kind => attemptOf r.classification kind now).Nodup)
    (hfresh : ∀ kind ∈ askedKinds, attemptOf r.classification kind now ∉ g.intents.attempts) :
    ∃ out, (g.produceIntents r now).1 = .ok out := by
  rcases produceIntents_cases g r now with ⟨-, h⟩ | ⟨-, -, h⟩ | ⟨p, hp, -, -, h⟩
  · exact ⟨[], by rw [h]⟩
  · exact ⟨[], by rw [h]⟩
  · rw [h]
    exact (recordable_of_fresh (g := g.retireStale r.classification) hp hpolicy hduration hnow hflow
      hgeneration hids hnodup hfresh).emitAll

/-- The sample is for the record, and the intents of its evaluation can be recorded: the attempts of
the sample are free for the record. -/
structure Unobstructed (g : Governor) (r : FlowRecord) (s : FlowSample) : Prop where
  policy : g.PolicyValid
  duration : g.config.intentDurationTicks ≠ 0
  valid : s.validate = .ok ()
  flow : r.ledger.flow = s.flow
  generation : r.ledger.generation = s.flowGeneration
  ids : g.intents.nextId.value.toNat + 6 < 2 ^ 64
  attempts : ∀ generation ∈ nextGenerations r, (g.attemptsOf s generation).Nodup ∧
    ∀ a ∈ g.attemptsOf s generation, a ∉ g.intents.attempts

theorem Unobstructed.commit_isOk {h : ClassificationHistory} (hfree : g.Unobstructed r s)
    (hcommits : g.Commits r (decisionTick s) c h) :
    ∃ d, (commit { g with classificationSequence := g.classificationSequence + 1 } r c h
      (decisionTick s)).1 = .ok d := by
  obtain ⟨hvalidFlow, hvalidGeneration, -⟩ := FlowSample.of_validate hfree.valid
  obtain ⟨authority, hauthority, hidentity⟩ := hcommits.identity
  have hid : c.id = ⟨g.classificationSequence + 1⟩ := (congrArg FlowClassification.id hidentity).trans rfl
  have hcflow : c.flow = s.flow := hcommits.flow.trans hfree.flow
  have hcgeneration : c.flowGeneration = s.flowGeneration := hcommits.flowGeneration.trans hfree.generation
  obtain ⟨hnodup, hfresh⟩ := hfree.attempts c.generation (nextGeneration_mem hcommits.generation)
  have hattempt : ∀ kind, attemptOf (stamped c h) kind (decisionTick s) = attemptOf
      { flow := s.flow, flowGeneration := s.flowGeneration, generation := c.generation
        id := ⟨g.classificationSequence + 1⟩ } kind (decisionTick s) := by
    intro kind
    apply attemptOf_congr
    · exact hcflow
    · exact hcgeneration
    · rfl
    · exact hid
  have hnow : (decisionTick s).toNat < 2 ^ 64 - 1 := by
    obtain ⟨v, hv⟩ := buildAuthority_eq g r (decisionTick s)
    rw [hv] at hauthority
    rcases hw : makeValidity (decisionTick s) g.config.classificationValidityTicks with e | w
    · rw [hw] at hauthority
      cases hauthority
    · exact lt_of_makeValidity hw
  obtain ⟨index, aggregate, counters, hsettle⟩ := settle_fst
    { g with classificationSequence := g.classificationSequence + 1 } r (stamped c h) h (decisionTick s)
  obtain ⟨hsame, hnext⟩ := intentsAfter_frame g.intents (stamped c h)
  have hproduced : ∃ out, (produceIntents (settle
      { g with classificationSequence := g.classificationSequence + 1 } r (stamped c h) h
      (decisionTick s)).1 (settle { g with classificationSequence := g.classificationSequence + 1 } r
      (stamped c h) h (decisionTick s)).2 (decisionTick s)).1 = .ok out := by
    rw [settle_snd, hsettle]
    apply produceIntents_isOk
    · exact hfree.policy
    · exact hfree.duration
    · exact hnow
    · rw [rebound_classification]
      exact hcflow ▸ hvalidFlow
    · rw [rebound_classification]
      exact hcgeneration ▸ hvalidGeneration
    · show (intentsAfter g.intents (stamped c h)).nextId.value.toNat + 6 < 2 ^ 64
      rw [hnext]
      exact hfree.ids
    · rw [rebound_classification]
      show (askedKinds.map fun kind => attemptOf (stamped c h) kind (decisionTick s)).Nodup
      simp only [hattempt]
      exact hnodup
    · intro kind hkind
      rw [rebound_classification]
      show attemptOf (stamped c h) kind (decisionTick s) ∉
        (intentsAfter g.intents (stamped c h)).attempts
      rw [hsame, hattempt]
      exact hfresh _ (List.mem_map.mpr ⟨kind, hkind, rfl⟩)
  obtain ⟨out, hout⟩ := hproduced
  unfold commit
  simp only
  generalize settle _ _ _ _ _ = settled at hout ⊢
  rcases hp : settled.1.produceIntents settled.2 (decisionTick s) with ⟨res, x⟩
  rw [hp] at hout
  cases hout
  exact ⟨_, rfl⟩

/-! ## Opening a flow -/

theorem victim_ne_none {k : FlowKey} {v : FlowRecord} (hv : g.flows[k]? = some v)
    (hdone : v.ledger.completed = true) : g.victim ≠ none := by
  have hkeep : ∀ (es : List (FlowKey × FlowRecord)) (acc : Option (FlowKey × FlowRecord)),
      (acc ≠ none ∨ ∃ e ∈ es, e.2.ledger.completed = true) → es.foldl victimStep acc ≠ none := by
    intro es
    induction es with
    | nil =>
      rintro acc (hacc | ⟨e, he, -⟩)
      · exact hacc
      · cases he
    | cons x xs ih =>
      intro acc hsome
      apply ih
      have hstep : acc ≠ none ∨ x.2.ledger.completed = true → victimStep acc x ≠ none := by
        intro h
        unfold victimStep
        split_ifs with hcompleted
        · cases acc with
          | none => simp
          | some u =>
            simp only
            split_ifs
            · simp
            · simp
        · exact h.resolve_right hcompleted
      rcases hsome with hacc | ⟨e, he, hcompleted⟩
      · exact .inl (hstep (.inl hacc))
      · rcases List.mem_cons.mp he with rfl | he
        · exact .inl (hstep (.inr hcompleted))
        · exact .inr ⟨e, he, hcompleted⟩
  exact hkeep _ none (.inr ⟨(k, v), Std.ExtTreeMap.mem_toList_iff_getElem?_eq_some.mpr hv, hdone⟩)

/-- There is a place for a new flow, or a completed flow that gives up its own. -/
def Spare (g : Governor) : Prop :=
  g.flows.size < g.config.maxFlows ∨
    ∃ (k : FlowKey) (v : FlowRecord), g.flows[k]? = some v ∧ v.ledger.completed = true

/-- Apart from the population, the binding index and the counters, everything is as it was. -/
structure Cleared (g g' : Governor) : Prop where
  config : g'.config = g.config
  policy : g'.policy = g.policy
  sequence : g'.classificationSequence = g.classificationSequence
  intents : g'.intents = g.intents

/-- Making room refuses exactly when there is none. -/
theorem ensureFlowCapacity_spare (hnew : g.flows[key]? = none) :
    (¬ g.Spare ∧ ∃ e counters, g.ensureFlowCapacity = (.error e, { g with counters := counters })) ∨
    (g.Spare ∧ ∃ g₁, g.ensureFlowCapacity = (.ok (), g₁) ∧ g₁.flows[key]? = none ∧ g.Cleared g₁) := by
  rcases ensureFlowCapacity_cases g with ⟨hroom, heq⟩ | ⟨k, v, hv, -, heq⟩ | ⟨e, hnone, hfull, heq⟩
  · exact .inr ⟨.inl hroom, g, heq, hnew, ⟨rfl, rfl, rfl, rfl⟩⟩
  · refine .inr ⟨.inr ⟨k, v, victim_spec hv⟩, _, heq, ?_, ?_⟩
    · show ((g.updateIndex k v).1.flows.erase k)[key]? = none
      rw [updateIndex_flows, Std.ExtTreeMap.getElem?_erase, hnew, ite_self]
    · have hinputs := sameInputs_updateIndex g k v
      exact ⟨hinputs.config, hinputs.policy, updateIndex_classificationSequence g k v,
        updateIndex_intents g k v⟩
  · refine .inl ⟨?_, e, _, heq⟩
    rintro (hroom | ⟨k, v, hv, hdone⟩)
    · exact absurd hroom (not_lt.mpr hfull)
    · exact victim_ne_none hv hdone hnone

/-- The governor has a fresh record for the key, and everything that its evaluation reads is as it
was. -/
structure Opened (g : Governor) (key : FlowKey) (g' : Governor) : Prop where
  record : g'.flows[key]? = some (g.freshRecord key)
  config : g'.config = g.config
  policy : g'.policy = g.policy
  sequence : g'.classificationSequence = g.classificationSequence
  attempts : g'.intents.attempts = g.intents.attempts
  nextId : g'.intents.nextId = g.intents.nextId

/-- A record that is created behind the room made for it, before intents are fenced. -/
theorem Cleared.opened {g₁ : Governor} (h : g.Cleared g₁) (hnew : g₁.flows[key]? = none)
    (intents : IntentLedger) (hattempts : intents.attempts = g₁.intents.attempts)
    (hnext : intents.nextId = g₁.intents.nextId) (counters : GovernorCounters) :
    g.Opened key { g₁.createFlow key with intents := intents, counters := counters } where
  record := by
    refine (getElem?_createFlow hnew key).trans ?_
    rw [if_pos rfl]
    unfold freshRecord
    rw [h.config]
  config := h.config
  policy := h.policy
  sequence := h.sequence
  attempts := by rw [← h.intents]; exact hattempts
  nextId := by rw [← h.intents]; exact hnext

/-- The key is above the highest generation of its flow. -/
def Newer (g : Governor) (key : FlowKey) : Prop :=
  ∀ highest, g.highestGeneration[key.flow]? = some highest → highest < key.generation

/-- A flow that is not tracked is refused, or opened where it is newer and there is a place. -/
theorem establishFlow_cases (hnew : g.flows[key]? = none) :
    (¬ (g.Newer key ∧ g.Spare) ∧ ∃ e counters,
      g.establishFlow key = (.error e, { g with counters := counters })) ∨
    ((g.Newer key ∧ g.Spare) ∧ ∃ g', g.establishFlow key = (.ok (), g') ∧ g.Opened key g') := by
  unfold establishFlow
  rcases hhighest : g.highestGeneration[key.flow]? with _ | highest
  · have hnewer : g.Newer key := fun h hh => by
      rw [hhighest] at hh
      cases hh
    rcases ensureFlowCapacity_spare hnew with ⟨hfull, e, counters, heq⟩ | ⟨hspare, g₁, heq, hnew₁, hcleared⟩
    · rw [heq]
      exact .inl ⟨fun h => hfull h.2, e, counters, rfl⟩
    · rw [heq]
      exact .inr ⟨⟨hnewer, hspare⟩, _, rfl, hcleared.opened hnew₁ g₁.intents rfl rfl g₁.counters⟩
  · have hnewer : g.Newer key ↔ highest < key.generation := by
      unfold Newer
      rw [hhighest]
      simp
    rw [hnewer]
    simp only
    split_ifs with hretired hsame
    · refine .inl ⟨fun h => ?_, _, _, rfl⟩
      exact absurd (UInt64.lt_trans hretired h.1) (UInt64.lt_irrefl _)
    · refine .inl ⟨fun h => ?_, _, _, rfl⟩
      rw [hsame] at h
      exact absurd h.1 (UInt64.lt_irrefl _)
    · rcases ensureFlowCapacity_spare hnew with ⟨hfull, e, counters, heq⟩ | ⟨hspare, g₁, heq, hnew₁, hcleared⟩
      · rw [heq]
        exact .inl ⟨fun h => hfull h.2, e, counters, rfl⟩
      · rw [heq]
        have hlt : highest < key.generation := by
          refine UInt64.lt_of_le_of_ne (UInt64.not_lt.mp hretired) fun hvalue => hsame ?_
          exact (StrongId.ext hvalue).symm
        exact .inr ⟨⟨hlt, hspare⟩, _, rfl, hcleared.opened hnew₁
          (g₁.intents.fenceOtherGenerations key.flow key.generation).2 rfl rfl _⟩

/-! ## Refused evidence -/

/-- The tracked keys, the highest generations, the binding index and the state of every intent are
the same. -/
structure SameTracked (g g' : Governor) : Prop where
  keys : ∀ k, k ∈ g'.flows ↔ k ∈ g.flows
  highest : g'.highestGeneration = g.highestGeneration
  index : g'.bindingIndex = g.bindingIndex
  intents : ∀ id : IntentId,
    g'.intents.intents[id]?.map GovernanceIntent.state = g.intents.intents[id]?.map GovernanceIntent.state

/-- The sample opens a flow: it is in order and for a generation that is not tracked, above the
highest one of its flow, and there is a place for it. -/
structure Opens (g : Governor) (s : FlowSample) : Prop where
  policy : g.policy ≠ none
  valid : s.validate = .ok ()
  untracked : g.flows[sampleKey s]? = none
  newer : g.Newer (sampleKey s)
  spare : g.Spare

/-- Nothing refuses the first sample of a flow: it is within the byte ceilings, its classification
can be valid from the decision tick on and there is an identifier for it. -/
structure Welcomes (g : Governor) (s : FlowSample) : Prop where
  size : (g.freshRecord (sampleKey s)).ledger.oversized s = false
  validity : ∃ w, makeValidity (decisionTick s) g.config.classificationValidityTicks = .ok w
  sequence : g.classificationSequence ≠ u64Max

theorem SameTracked.setFlow (hr : g.flows[key]? = some r) (r' : FlowRecord) (sequence : UInt64)
    (counters : GovernorCounters) : g.SameTracked (Governor.setFlow
      { g with classificationSequence := sequence, counters := counters } key r') where
  keys := mem_setFlow (g := { g with classificationSequence := sequence, counters := counters }) hr r'
  highest := rfl
  index := rfl
  intents := fun _ => rfl

theorem Unobstructed.append (h : g.Unobstructed r s) {res : Except Status AppendOutcome}
    (happend : r.ledger.append s = (res, l)) (counters : GovernorCounters) :
    Unobstructed { g with counters := counters } { r with ledger := l } s := by
  obtain ⟨hflow, hgeneration, -⟩ := FlowLedger.append_frame r.ledger s
  rw [happend] at hflow hgeneration
  exact ⟨h.policy, h.duration, h.valid, hflow.trans h.flow, hgeneration.trans h.generation, h.ids,
    h.attempts⟩

/-- The ledger of the record takes the sample, and the evaluation behind it commits. -/
def Evaluates (g : Governor) (r : FlowRecord) (s : FlowSample) : Prop :=
  ∃ outcome l counters c h, r.ledger.append s = (.ok outcome, l) ∧
    Commits { g with counters := counters } { r with ledger := l } (decisionTick s) c h

/-- A refused evaluation of a sample whose intents can be recorded if it commits has only moved the
counters and the identifiers. -/
theorem evaluate_error_of_unobstructed
    (h : ∀ c hist, g.Commits r (decisionTick s) c hist → g.Unobstructed r s)
    (he : (g.evaluate r (decisionTick s)).1 = .error e) : ∃ sequence counters,
    (g.evaluate r (decisionTick s)).2 =
      ({ g with classificationSequence := sequence, counters := counters }, r) := by
  rcases evaluate_cases g r (decisionTick s) with
    ⟨e', sequence, counters, heq⟩ | ⟨-, -, heq⟩ | ⟨c, hist, hcommits, heq⟩
  · exact ⟨sequence, counters, by rw [heq]⟩
  · rw [heq] at he
    cases he
  · obtain ⟨d, hd⟩ := (h c hist hcommits).commit_isOk hcommits
    rw [heq, hd] at he
    cases he

theorem sameTracked_applyEvidence (h : g.Evaluates r s → g.Unobstructed r s)
    (hr : g.flows[key]? = some r)
    (he : (g.applyEvidence key r s).1 = .error e) :
    g.SameTracked (g.applyEvidence key r s).2 := by
  rcases happend : r.ledger.append s with ⟨res, l⟩
  cases res with
  | error e' =>
    obtain ⟨counters, heq⟩ := applyEvidence_of_error g key happend
    rw [heq]
    exact SameTracked.setFlow hr { r with ledger := l } g.classificationSequence counters
  | ok outcome =>
    obtain ⟨counters, hstate, herror⟩ := applyEvidence_of_ok g key happend
    obtain ⟨sequence, counters', heq⟩ := evaluate_error_of_unobstructed (fun c hist hc =>
      (h ⟨outcome, l, counters, c, hist, happend, hc⟩).append happend counters) ((herror e).mp he)
    rw [hstate]
    simp only [evaluateFlow, heq]
    exact SameTracked.setFlow hr { r with ledger := l } sequence counters'

/-- Evidence leaves its own flow tracked. -/
theorem mem_applyEvidence (g : Governor) (key : FlowKey) (r : FlowRecord) (s : FlowSample) :
    key ∈ (g.applyEvidence key r s).2.flows := by
  have hset : ∀ (x : Governor) (r' : FlowRecord), key ∈ (x.setFlow key r').flows := by
    intro x r'
    rw [mem_flows_iff]
    exact ⟨r', by rw [getElem?_setFlow, if_pos rfl]⟩
  rcases happend : r.ledger.append s with ⟨res, l⟩
  cases res with
  | error e =>
    obtain ⟨counters, heq⟩ := applyEvidence_of_error g key happend
    rw [heq]
    exact hset _ _
  | ok outcome =>
    obtain ⟨counters, hstate, -⟩ := applyEvidence_of_ok g key happend
    rw [hstate]
    exact hset _ _

/-- A fresh ledger admits every valid sample of its flow. -/
theorem admissible_make (hvalid : s.validate = .ok ()) (limits : LedgerLimits) :
    (FlowLedger.make s.flow s.flowGeneration limits).Admissible s where
  flow := rfl
  generation := rfl
  valid := hvalid
  fresh := by rintro ⟨h, -⟩; cases h
  ordered := rfl
  grows := by
    rw [UInt64.le_iff_toNat_le]
    exact Nat.zero_le _
  contiguous := by rintro ⟨h, -⟩; cases h

/-- The first evaluation of a record is refused exactly for want of a validity window or an
identifier. -/
theorem evaluate_first (g : Governor) (now : Tick) (hc : r.hasClassification = false) (hh : r.history.latest = none) :
    (¬ ((∃ w, makeValidity now g.config.classificationValidityTicks = .ok w) ∧
        g.classificationSequence ≠ u64Max) ∧ ∃ e, (g.evaluate r now).1 = .error e) ∨
    (((∃ w, makeValidity now g.config.classificationValidityTicks = .ok w) ∧
        g.classificationSequence ≠ u64Max) ∧ ∃ c h, g.Commits r now c h ∧ g.evaluate r now =
      { g with classificationSequence := g.classificationSequence + 1 }.commit r c h now) := by
  have hchanged : unchanged r (g.candidate r now) = false := by
    unfold unchanged
    rw [hc]
    rfl
  have hgeneration : nextGeneration r (g.candidate r now) = .ok .initial := by
    unfold nextGeneration
    rw [if_neg (by simp [hc])]
  have hrecord : ∀ t, ∃ h, r.history.record t = .ok h := by
    intro t
    unfold ClassificationHistory.record
    rw [hh]
    exact ⟨_, rfl⟩
  obtain ⟨v, hv⟩ := buildAuthority_eq g r now
  unfold evaluate
  rw [if_neg (by simp [hc])]
  simp only [hchanged, Bool.false_eq_true, if_false]
  rw [hv]
  rcases hw : makeValidity now g.config.classificationValidityTicks with e | w
  · exact .inl ⟨fun h => (by obtain ⟨⟨w, hw'⟩, -⟩ := h; cases hw'), e, rfl⟩
  rw [hgeneration]
  by_cases hroom : g.classificationSequence = u64Max
  · simp only [Except.map, if_pos hroom]
    exact .inl ⟨fun h => h.2 hroom, _, rfl⟩
  simp only [Except.map, if_neg hroom]
  obtain ⟨h, hh⟩ := hrecord (transitionOf r (identified (g.candidate r now)
    { v with validity := w } .initial ⟨g.classificationSequence + 1⟩) now)
  rw [hh]
  refine .inr ⟨⟨⟨w, rfl⟩, hroom⟩, _, h, ⟨by simp [hc], hchanged, hroom, ⟨{ v with validity := w }, ?_, rfl⟩,
    hgeneration, hh⟩, rfl⟩
  rw [hv, hw]
  rfl

/-- The first sample of a flow that was opened for it is refused exactly when it is not welcome. -/
theorem Opened.applyEvidence (h : g.Opened (sampleKey s) g') (hvalid : s.validate = .ok ())
    (hfree : g'.Evaluates (g.freshRecord (sampleKey s)) s →
      g'.Unobstructed (g.freshRecord (sampleKey s)) s) :
    (∃ e, (g'.applyEvidence (sampleKey s) (g.freshRecord (sampleKey s)) s).1 = .error e) ↔
      ¬ g.Welcomes s := by
  have hadm := admissible_make hvalid g.config.ledgerLimits
  by_cases hsize : (g.freshRecord (sampleKey s)).ledger.oversized s = true
  · obtain ⟨e, happend⟩ := FlowLedger.append_of_oversized hadm hsize
    obtain ⟨counters, heq⟩ := applyEvidence_of_error g' (sampleKey s)
      (r := g.freshRecord (sampleKey s)) happend
    rw [heq]
    refine ⟨fun _ hwelcome => ?_, fun _ => ⟨e, rfl⟩⟩
    rw [hwelcome.size] at hsize
    cases hsize
  rw [Bool.not_eq_true] at hsize
  have happend := FlowLedger.append_of_admissible hadm hsize
  obtain ⟨counters, -, herror⟩ := applyEvidence_of_ok g' (sampleKey s)
    (r := g.freshRecord (sampleKey s)) happend
  simp only [herror]
  rcases evaluate_first { g' with counters := counters } (decisionTick s)
    (r := { g.freshRecord (sampleKey s) with ledger := _ }) rfl rfl with
    ⟨hno, hrefused⟩ | ⟨⟨hvalidity, hroom⟩, c, hist, hcommits, heq⟩
  · refine ⟨fun _ hwelcome => hno ⟨?_, ?_⟩, fun _ => hrefused⟩
    · show ∃ w, makeValidity (decisionTick s) g'.config.classificationValidityTicks = .ok w
      rw [h.config]
      exact hwelcome.validity
    · show g'.classificationSequence ≠ u64Max
      rw [h.sequence]
      exact hwelcome.sequence
  · have hclear := hfree ⟨_, _, counters, c, hist, happend, hcommits⟩
    obtain ⟨d, hd⟩ := (hclear.append happend counters).commit_isOk hcommits
    refine ⟨fun ⟨e, he⟩ => ?_, fun hnot => absurd ⟨hsize, ?_, ?_⟩ hnot⟩
    · rw [heq, hd] at he
      cases he
    · rw [← h.config]
      exact hvalidity
    · rw [← h.sequence]
      exact hroom

theorem sameTracked_count (g : Governor) (counters : GovernorCounters) :
    g.SameTracked { g with counters := counters } :=
  ⟨fun _ => Iff.rfl, rfl, rfl, fun _ => rfl⟩

/-- In a reachable state the intents of a sample can be recorded under the record that it is for. -/
theorem AttemptsFree.unobstructed (hreach : Reachable config g) (hfree : g.AttemptsFree s)
    (hvalid : s.validate = .ok ()) (hr : r = g.recordOf s) (hflow : r.ledger.flow = s.flow)
    (hgeneration : r.ledger.generation = s.flowGeneration) :
    g.Unobstructed r s where
  policy := hreach.policyValid
  duration := by
    rw [hreach.config_eq]
    show (if config.intentDurationTicks = 0 then 1 else config.intentDurationTicks) ≠ 0
    split_ifs with hzero
    · decide
    · exact hzero
  valid := hvalid
  flow := hflow
  generation := hgeneration
  ids := hfree.ids
  attempts := by
    rw [hr]
    exact hfree.attempts

/-- Opening a flow leaves the attempts of its first sample free. -/
theorem Unobstructed.opened (h : g.Unobstructed r s) (hopened : g.Opened (sampleKey s) g') :
    g'.Unobstructed r s where
  policy := by
    intro p hp
    rw [hopened.policy] at hp
    exact h.policy p hp
  duration := by
    rw [hopened.config]
    exact h.duration
  valid := h.valid
  flow := h.flow
  generation := h.generation
  ids := by
    rw [hopened.nextId]
    exact h.ids
  attempts := by
    unfold attemptsOf
    rw [hopened.sequence, hopened.attempts]
    exact h.attempts

/-- The sample is taken up, and its evaluation commits a decision. -/
def Commissions (g : Governor) (s : FlowSample) : Prop :=
  g.policy ≠ none ∧ s.validate = .ok () ∧ ∃ g' r, g.openFlow (sampleKey s) = (.ok (), g') ∧
    g'.flows[sampleKey s]? = some r ∧ g'.Evaluates r s

/-- Refused evidence leaves the tracked keys, the highest generations, the binding index and the state
of every intent exactly when it opens no flow, or nothing refuses the first sample of the flow that it
opens.  Only where an evaluation commits must its attempts be free. -/
theorem refused_leaves_tracked_iff (hreach : Reachable config g) (s : FlowSample)
    (hfree : g.Commissions s → g.AttemptsFree s) :
    (∀ e, (g.submitEvidence s).1 = .error e → g.SameTracked (g.submitEvidence s).2) ↔
      (g.Opens s → g.Welcomes s) := by
  by_cases hpolicy : g.policy = none
  · refine ⟨fun _ hopens => absurd hpolicy hopens.policy, fun _ e _ => ?_⟩
    unfold submitEvidence
    rw [if_pos (by simpa using hpolicy)]
    exact sameTracked_count g _
  rcases hvalid : s.validate with e | ⟨⟩
  · refine ⟨fun _ hopens => ?_, fun _ e' _ => ?_⟩
    · have hok := hopens.valid
      rw [hvalid] at hok
      cases hok
    · unfold submitEvidence
      rw [if_neg (by simpa using hpolicy), hvalid]
      exact sameTracked_count g _
  rcases hr : g.flows[sampleKey s]? with _ | r
  swap
  · -- the flow is tracked
    have htracked := (hreach.justified.records _ r hr).tracked
    have hrecord : r = g.recordOf s := by
      unfold recordOf
      rw [hr]
      rfl
    have hopen : g.openFlow (sampleKey s) = (.ok (), g) := by
      unfold openFlow
      rw [hr]
    have hclear : g.Evaluates r s → g.Unobstructed r s := fun hd =>
      (hfree ⟨hpolicy, hvalid, g, r, hopen, hr, hd⟩).unobstructed hreach hvalid hrecord
        htracked.flow htracked.generation
    refine ⟨fun _ hopens => ?_, fun _ e he => ?_⟩
    · have hnone := hopens.untracked
      rw [hr] at hnone
      cases hnone
    · rw [submitEvidence_of_tracked hr hpolicy hvalid] at he ⊢
      exact sameTracked_applyEvidence hclear hr he
  rcases establishFlow_cases hr with ⟨hno, e, counters, heq⟩ | ⟨⟨hnewer, hspare⟩, g', heq, hopened⟩
  · rw [submitEvidence_of_refused hr hpolicy hvalid heq]
    exact ⟨fun _ hopens => absurd ⟨hopens.newer, hopens.spare⟩ hno, fun _ _ _ => sameTracked_count g _⟩
  · have hrecord : g.freshRecord (sampleKey s) = g.recordOf s := by
      unfold recordOf
      rw [hr]
      rfl
    have hopen : g.openFlow (sampleKey s) = (.ok (), g') := by
      unfold openFlow
      rw [hr, heq]
    have hrefused := hopened.applyEvidence hvalid fun hd =>
      ((hfree ⟨hpolicy, hvalid, g', _, hopen, hopened.record, hd⟩).unobstructed hreach hvalid hrecord
        rfl rfl).opened hopened
    have hopens : g.Opens s := ⟨hpolicy, hvalid, hr, hnewer, hspare⟩
    rw [submitEvidence_of_opened hr hpolicy hvalid heq hopened.record]
    refine ⟨fun h _ => ?_, fun h e he => absurd (h hopens) (hrefused.mp ⟨e, he⟩)⟩
    by_contra hunwelcome
    obtain ⟨e, he⟩ := hrefused.mpr hunwelcome
    have hkey := (h e he).keys (sampleKey s)
    have hmem := hkey.mp (mem_applyEvidence _ _ _ _)
    rw [mem_flows_iff, hr] at hmem
    obtain ⟨r, hsome⟩ := hmem
    cases hsome

namespace Scenario

/-- A governor that takes no window above the one of the small run. -/
def narrow : GovernorConfig := { maxBytesPerWindow := 10000 }

/-- The small run under this ceiling. -/
def narrowed : Governor := (make narrow).run commands

/-- The first window of the second generation, above the ceiling. -/
def wideSample : FlowSample :=
  FlowSample.signed { sample with
    flowGeneration := ⟨2⟩, cumulativeBytes := 20000, windowBytes := 20000 }

theorem reachable_narrowed : Reachable narrow narrowed := by
  refine Reachable.run .refl ?_
  simp [commands, Admits]

end Scenario

/-- The oversized first window of a new generation is refused; the generation is tracked and the
intents of the older one are fenced. -/
theorem refused_sample_rolls_over : Reachable narrow narrowed ∧
    codeOf (narrowed.submitEvidence wideSample).1 = .oversized ∧
    (⟨⟨1⟩, ⟨2⟩⟩ : FlowKey) ∉ narrowed.flows ∧
    (⟨⟨1⟩, ⟨2⟩⟩ : FlowKey) ∈ (narrowed.submitEvidence wideSample).2.flows ∧
    narrowed.highestGeneration[(⟨1⟩ : FlowId)]? = some ⟨1⟩ ∧
    (narrowed.submitEvidence wideSample).2.highestGeneration[(⟨1⟩ : FlowId)]? =
      some ⟨2⟩ ∧
    narrowed.intents.liveCount = 1 ∧
    (narrowed.submitEvidence wideSample).2.intents.liveCount = 0 :=
  ⟨reachable_narrowed, by decide +kernel, by decide +kernel, by decide +kernel,
    by decide +kernel, by decide +kernel, by decide +kernel, by decide +kernel⟩

/-- The window that the sweep has overtaken is refused and leaves what is tracked. -/
theorem refused_leaves_tracked_swept :
    RefusedStale (swept.submitEvidence nextSample).1 ∧
    swept.SameTracked (swept.submitEvidence nextSample).2 := by
  have hstale : RefusedStale (swept.submitEvidence nextSample).1 := by decide +kernel
  have hfree : swept.AttemptsFree nextSample := ⟨by decide +kernel, by decide +kernel⟩
  have htracked : swept.flows[sampleKey nextSample]?.isSome = true := by
    decide +kernel
  refine ⟨hstale, ?_⟩
  rcases hres : (swept.submitEvidence nextSample).1 with e | d
  · refine (refused_leaves_tracked_iff reachable_swept _ fun _ => hfree).mpr (fun hopens => ?_) e hres
    rw [hopens.untracked] at htracked
    cases htracked
  · rw [hres] at hstale
    exact absurd hstale (not_refusedStale_ok d)

end Governor

end EFG
