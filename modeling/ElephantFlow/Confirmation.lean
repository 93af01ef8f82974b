/-
# Confirmation: how the elephant state is entered and left

The hysteresis of the governor counts windows.  The windows that count are the ones
an evaluation found new and decided on: `rulings` collects them from a trail, the
latest first, over the time in which the record was an Elephant, or was not.  The
streaks of a record never claim more than these windows show, which gives the two
laws: an Elephant is left after `exit_confirm_windows` of them with the exit rule
False (`exit_confirmed`), and entered after `enter_confirm_windows` of them with the
enter rule True (`entry_confirmed`).  Both need that a record which has just left the
elephant state does not come back on the streaks it left with.
-/
import ElephantFlow.Trails
import ElephantFlow.Envelope

namespace EFG

open ByteCodec

namespace FlowLedger

variable {l : FlowLedger} {s : FlowSample}

theorem latest_append (h : (l.append s).1 = .ok .accepted) : (l.append s).2.latest = some s := by
  rcases append_cases l s with (⟨e, heq⟩ | heq) | ⟨-, -, e, heq⟩ | ⟨-, -, heq⟩
  · rw [heq] at h
    cases h
  · rw [heq] at h
    cases h
  · rw [heq] at h
    cases h
  · rw [heq]
    simp [latest, push]

theorem WellFormed.sequence_lt (hl : l.WellFormed) (h : (l.append s).1 = .ok .accepted)
    {p : FlowSample} (hp : l.latest = some p) : p.windowSequence < s.windowSequence := by
  have hsummary := hl.summary p hp
  have hprevious : l.hasPrevious = true := by
    rw [hl.previous]
    unfold latest at hp
    rcases hs : l.samples with _ | ⟨a, rest⟩
    · rw [hs] at hp
      cases hp
    · rfl
  rcases append_cases l s with (⟨e, heq⟩ | heq) | ⟨-, -, e, heq⟩ | ⟨hadm, -, heq⟩
  · rw [heq] at h
    cases h
  · rw [heq] at h
    cases h
  · rw [heq] at h
    cases h
  · exact (hadm.follows ⟨hprevious, hsummary.sequence, hsummary.spanEnd,
      hsummary.generationCumulative⟩).sequence

/-- What is not accepted changes nothing, unless it disrupts the run. -/
theorem append_of_refused (hs : ¬ l.Disrupts s) (h : (l.append s).1 ≠ .ok .accepted) :
    (l.append s).2 = l := by
  rcases append_cases l s with (⟨e, heq⟩ | heq) | ⟨hadm, hover, e, heq⟩ | ⟨-, -, heq⟩
  · rw [heq]
  · rw [heq]
  · rw [heq]
    have hrestarts : ¬ l.restarts s = true := fun hr => hs ⟨hadm, hr, hover⟩
    show l.restartEpoch s = l
    unfold restartEpoch
    rw [if_neg hrestarts]
  · rw [heq] at h
    exact absurd rfl h

end FlowLedger

namespace Governor

variable {g g' : Governor} {key : FlowKey} {r r' : FlowRecord} {now : Tick} {e : Event}
  {config : GovernorConfig} {cond : Governor → Event → Prop} {ss : List Step} {b : Bool} {t : Step}

/-! ## Rulings -/

/-- The evaluation consults the rules: the flow is neither completed nor suspended. -/
def consults (g : Governor) (r : FlowRecord) (now : Tick) : Bool :=
  !r.ledger.completed && !((g.suspensionReasons r now).1 || (g.measure r).capacityMissing)

/-- What the enter rule says about a record. -/
def enterRuling (g : Governor) (r : FlowRecord) (now : Tick) : Tri :=
  if g.consults r now then g.enterVerdict (g.measure r).measurements else .unknown

/-- What the exit rules say about a record. -/
def exitRuling (g : Governor) (r : FlowRecord) (now : Tick) : Tri :=
  if g.consults r now then (g.exitRules.evaluate (g.measure r).measurements {}).1 else .unknown

/-- A window and what the rules said when it was evaluated. -/
structure Ruling where
  sample : FlowSample
  enter : Tri
  exit : Tri

/-- The window that a step rules on: the step evaluates the record, finds its latest window new,
and commits a decision on it. -/
def Step.ruling (key : FlowKey) (t : Step) : Option Ruling :=
  match t.event with
  | .evaluate k r now =>
    if k = key ∧ newEvidence r = true ∧ newEvidence (t.before.evaluate r now).2.2 = false then
      r.ledger.latest.map fun s => ⟨s, t.before.enterRuling r now, t.before.exitRuling r now⟩
    else none
  | _ => none

/-- The step starts from a record of the key that is, or is not, an Elephant, and does not replace
it. -/
def Step.Continues (key : FlowKey) (b : Bool) (t : Step) : Bool :=
  (t.before.flows[key]?.any fun r => r.isElephant == b) &&
    match t.event with
    | .restore _ _ => false
    | _ => true

/-- The steps since the record of the key is, or is not, an Elephant. -/
def phase (key : FlowKey) (b : Bool) (ss : List Step) : List Step := ss.takeWhile (Step.Continues key b)

/-- The windows ruled on since the record of the key is, or is not, an Elephant. -/
def rulings (key : FlowKey) (b : Bool) (ss : List Step) : List Ruling :=
  (phase key b ss).filterMap (Step.ruling key)

/-- The step is the acceptance of the sample by the ledger of the key. -/
def Step.AcceptsSample (key : FlowKey) (s : FlowSample) (t : Step) : Prop :=
  ∃ r, t.event = .evidence key r s ∧ (r.ledger.append s).1 = .ok .accepted

theorem phase_of_continues (h : t.Continues key b = true) :
    phase key b (t :: ss) = t :: phase key b ss := List.takeWhile_cons_of_pos h

theorem phase_of_not_continues (h : t.Continues key b = false) :
    phase key b (t :: ss) = [] := List.takeWhile_cons_of_neg (by simp [h])

theorem rulings_of_continues (h : t.Continues key b = true) :
    rulings key b (t :: ss) = (t.ruling key).toList ++ rulings key b ss := by
  unfold rulings
  rw [phase_of_continues h, List.filterMap_cons]
  cases t.ruling key with
  | none => rfl
  | some w => rfl

theorem rulings_of_not_continues (h : t.Continues key b = false) :
    rulings key b (t :: ss) = [] := by
  unfold rulings
  rw [phase_of_not_continues h]
  rfl

theorem continues_of_tracked (hr : t.before.flows[key]? = some r) (hb : r.isElephant = b)
    (hkeeps : ∀ bytes now, t.event ≠ .restore bytes now) : t.Continues key b = true := by
  unfold Step.Continues
  rw [hr]
  rcases he : t.event
  case restore bytes now => exact absurd he (hkeeps bytes now)
  all_goals simp [hb]

theorem not_continues_of_tracked (hr : t.before.flows[key]? = some r) (hb : r.isElephant ≠ b) :
    t.Continues key b = false := by
  unfold Step.Continues
  rw [hr]
  simp [hb]

theorem ruling_of_not_evaluate (h : ∀ x now, t.event ≠ .evaluate key x now) :
    t.ruling key = none := by
  unfold Step.ruling
  rcases he : t.event
  case evaluate k x now =>
    have hk : k ≠ key := fun hk => h x now (by rw [he, hk])
    simp [hk]
  all_goals rfl

theorem Move.evaluated {x : FlowRecord} (hmove : Move g (.evaluate key x now) g')
    (hr' : g'.flows[key]? = some r') :
    g.flows[key]? = some x ∧ r' = (g.evaluate x now).2.2 := by
  cases hmove with
  | evaluate _ _ _ hx =>
    rw [getElem?_evaluateFlow, if_pos rfl] at hr'
    exact ⟨hx, (Option.some.inj hr').symm⟩

/-- An evaluation that leaves the record up to its tick rules on nothing. -/
theorem ruling_of_left {t : Tick} (heq : (g.evaluate r now).2.2 = { r with evaluatedTick := t }) :
    (Step.mk g (.evaluate key r now) g').ruling key = none := by
  unfold Step.ruling
  simp only [heq]
  rw [if_neg]
  rintro ⟨-, hnew, hold⟩
  have hsame : newEvidence { r with evaluatedTick := t } = newEvidence r := rfl
  rw [hsame, hnew] at hold
  cases hold

theorem ruling_of_settled (hsettled : Settled g r now (g.evaluate r now).2.2) :
    (Step.mk g (.evaluate key r now) g').ruling key =
      if newEvidence r = true then
        r.ledger.latest.map fun s => ⟨s, g.enterRuling r now, g.exitRuling r now⟩
      else none := by
  unfold Step.ruling
  simp only [hsettled.evaluated, true_and, and_true]

theorem latest_of_newEvidence (h : newEvidence r = true) : ∃ s, r.ledger.latest = some s := by
  unfold newEvidence at h
  rcases hl : r.ledger.latest with _ | s
  · rw [hl] at h
    cases h
  · exact ⟨s, rfl⟩

/-! ## The windows were accepted, each of them once -/

/-- What the trail shows about the windows of a record: a window that waits and the windows ruled on
were accepted in this phase, in the order of their sequences. -/
structure Attested (key : FlowKey) (b : Bool) (ss : List Step) (r : FlowRecord) : Prop where
  pending : newEvidence r = true → ∃ s, r.ledger.latest = some s ∧
    (∃ t ∈ phase key b ss, t.AcceptsSample key s) ∧
    ∀ w ∈ rulings key b ss, w.sample.windowSequence < s.windowSequence
  accepted : ∀ w ∈ rulings key b ss, ∃ t ∈ phase key b ss, t.AcceptsSample key w.sample
  ordered : (rulings key b ss).Pairwise fun w v => v.sample.windowSequence < w.sample.windowSequence
  remembered : ∀ w ∈ rulings key b ss, ∃ s, r.ledger.latest = some s ∧
    w.sample.windowSequence ≤ s.windowSequence

section Attested

variable {t : Step}

/-- Where a phase begins, nothing may be pending. -/
theorem attested_of_start (h : t.Continues key b = false) (hold : newEvidence r = false) :
    Attested key b (t :: ss) r := by
  have hrulings : rulings key b (t :: ss) = [] := rulings_of_not_continues h
  refine ⟨fun hnew => ?_, ?_, ?_, ?_⟩
  · rw [hold] at hnew
    cases hnew
  all_goals simp [hrulings]

theorem Attested.accepted_cons (ha : Attested key b ss r) (hc : t.Continues key b = true) :
    ∀ w ∈ rulings key b ss, ∃ u ∈ phase key b (t :: ss), u.AcceptsSample key w.sample := by
  intro w hw
  obtain ⟨u, hu, haccepts⟩ := ha.accepted w hw
  rw [phase_of_continues hc]
  exact ⟨u, List.mem_cons_of_mem t hu, haccepts⟩

/-- A step that rules on nothing and takes no sample. -/
theorem Attested.keep (ha : Attested key b ss r) (hc : t.Continues key b = true)
    (hnone : t.ruling key = none) (hlatest : r'.ledger.latest = r.ledger.latest)
    (hwindow : r'.evaluatedWindow = r.evaluatedWindow) : Attested key b (t :: ss) r' := by
  have hrulings : rulings key b (t :: ss) = rulings key b ss := by
    rw [rulings_of_continues hc, hnone]
    rfl
  refine ⟨fun hnew => ?_, ?_, ?_, ?_⟩
  · rw [newEvidence_congr hlatest hwindow] at hnew
    obtain ⟨s, hs, ⟨u, hu, haccepts⟩, hless⟩ := ha.pending hnew
    rw [hlatest, hrulings, phase_of_continues hc]
    exact ⟨s, hs, ⟨u, List.mem_cons_of_mem t hu, haccepts⟩, hless⟩
  · rw [hrulings]
    exact ha.accepted_cons hc
  · rw [hrulings]
    exact ha.ordered
  · rw [hrulings, hlatest]
    exact ha.remembered

/-- A step that accepts a sample, which then waits for its evaluation. -/
theorem Attested.accept {s : FlowSample} (ha : Attested key b ss r) (hc : t.Continues key b = true)
    (hl : r.ledger.WellFormed) (he : t.event = .evidence key r s)
    (haccepted : (r.ledger.append s).1 = .ok .accepted) :
    Attested key b (t :: ss) { r with ledger := (r.ledger.append s).2 } := by
  have hnone : t.ruling key = none := ruling_of_not_evaluate fun x now => by simp [he]
  have hrulings : rulings key b (t :: ss) = rulings key b ss := by
    rw [rulings_of_continues hc, hnone]
    rfl
  have hlatest := FlowLedger.latest_append haccepted
  -- the new sample is behind everything that the ledger remembers
  have hless : ∀ w ∈ rulings key b ss, w.sample.windowSequence < s.windowSequence := by
    intro w hw
    obtain ⟨p, hp, hle⟩ := ha.remembered w hw
    exact UInt64.lt_of_le_of_lt hle (hl.sequence_lt haccepted hp)
  refine ⟨fun _ => ⟨s, hlatest, ⟨t, ?_, r, he, haccepted⟩, ?_⟩, ?_, ?_, fun w hw => ?_⟩
  · rw [phase_of_continues hc]
    exact List.mem_cons_self
  · rw [hrulings]
    exact hless
  · rw [hrulings]
    exact ha.accepted_cons hc
  · rw [hrulings]
    exact ha.ordered
  · rw [hrulings] at hw
    exact ⟨s, hlatest, UInt64.le_of_lt (hless w hw)⟩

/-- A step that commits a decision, and rules on the window that waited. -/
theorem Attested.settle (g' : Governor) (ha : Attested key b ss r)
    (hc : (Step.mk g (.evaluate key r now) g').Continues key b = true)
    (hsettled : Settled g r now (g.evaluate r now).2.2) :
    Attested key b (⟨g, .evaluate key r now, g'⟩ :: ss) (g.evaluate r now).2.2 := by
  have hlatest : (g.evaluate r now).2.2.ledger.latest = r.ledger.latest := by rw [hsettled.ledger]
  have hpending : newEvidence (g.evaluate r now).2.2 = true →
      ∃ s, (g.evaluate r now).2.2.ledger.latest = some s ∧
        (∃ t ∈ phase key b (⟨g, .evaluate key r now, g'⟩ :: ss), t.AcceptsSample key s) ∧
        ∀ w ∈ rulings key b (⟨g, .evaluate key r now, g'⟩ :: ss),
          w.sample.windowSequence < s.windowSequence := by
    intro hnew
    rw [hsettled.evaluated] at hnew
    cases hnew
  by_cases hnew : newEvidence r = true
  · obtain ⟨s, hs, ⟨u, hu, haccepts⟩, hless⟩ := ha.pending hnew
    have hrulings : rulings key b (⟨g, .evaluate key r now, g'⟩ :: ss) =
        ⟨s, g.enterRuling r now, g.exitRuling r now⟩ :: rulings key b ss := by
      rw [rulings_of_continues hc, ruling_of_settled hsettled, if_pos hnew, hs]
      rfl
    refine ⟨hpending, ?_, ?_, ?_⟩
    · rw [hrulings, List.forall_mem_cons]
      refine ⟨⟨u, ?_, haccepts⟩, ha.accepted_cons hc⟩
      rw [phase_of_continues hc]
      exact List.mem_cons_of_mem _ hu
    · rw [hrulings, List.pairwise_cons]
      exact ⟨hless, ha.ordered⟩
    · rw [hrulings, List.forall_mem_cons, hlatest, hs]
      exact ⟨⟨s, rfl, UInt64.le_refl _⟩, fun w hw => ⟨s, rfl, UInt64.le_of_lt (hless w hw)⟩⟩
  · have hrulings : rulings key b (⟨g, .evaluate key r now, g'⟩ :: ss) = rulings key b ss := by
      rw [rulings_of_continues hc, ruling_of_settled hsettled, if_neg hnew]
      rfl
    refine ⟨hpending, ?_, ?_, ?_⟩
    · rw [hrulings]
      exact ha.accepted_cons hc
    · rw [hrulings]
      exact ha.ordered
    · rw [hrulings, hlatest]
      exact ha.remembered

end Attested

/-- Conditions under which the windows of a phase are accepted in it and ordered: no refused sample
empties a ledger, and where a record stops to be an Elephant from outside, nothing is pending. -/
structure Attests (cond : Governor → Event → Prop) (b : Bool) : Prop where
  evidence : ∀ g key r s, cond g (.evidence key r s) → ¬ r.ledger.Disrupts s
  invalidate : b = false → ∀ g now, cond g (.invalidate now) → ∀ (key : FlowKey) (r : FlowRecord),
    g.flows[key]? = some r → r.isElephant = true → newEvidence r = false
  restore : b = false → ∀ g bytes now, cond g (.restore bytes now) →
    ∀ (key : FlowKey) (r : FlowRecord), (g.deserialize bytes now).2.flows[key]? = some r →
      newEvidence r = false

theorem Trail.justified (h : Trail cond config ss g) : g.Justified := by
  induction h with
  | start => exact justified_make config
  | step _ _ hmove ih => exact ih.move hmove

theorem isElephant_of_unclassified (h : r.hasClassification = false) : r.isElephant = false := by
  unfold FlowRecord.isElephant
  rw [h]
  rfl

/-- A restored record is not an Elephant. -/
theorem Demoted.not_isElephant (h : Demoted now r) : r.isElephant = false := by
  by_cases hc : r.hasClassification = true
  · unfold FlowRecord.isElephant
    rw [h.state hc]
    simp
  · exact isElephant_of_unclassified (by simpa using hc)

theorem Attested.evaluate (hr : g.flows[key]? = some r)
    (ha : r.isElephant = b → Attested key b ss r) (hb : (g.evaluate r now).2.2.isElephant = b) :
    Attested key b (⟨g, .evaluate key r now, g'⟩ :: ss) (g.evaluate r now).2.2 := by
  by_cases hphase : r.isElephant = b
  · have hc : (Step.mk g (.evaluate key r now) g').Continues key b = true :=
      continues_of_tracked hr hphase (by simp)
    rcases evaluate_record g r now with ⟨t, heq⟩ | hsettled
    · refine (ha hphase).keep hc (ruling_of_left heq) ?_ ?_
      · rw [heq]
      · rw [heq]
    · exact (ha hphase).settle g' hc hsettled
  · have hc : (Step.mk g (.evaluate key r now) g').Continues key b = false :=
      not_continues_of_tracked hr hphase
    rcases evaluate_record g r now with ⟨t, heq⟩ | hsettled
    · rw [heq] at hb
      exact absurd hb hphase
    · exact attested_of_start hc hsettled.evaluated

theorem Trail.attested (hcond : Attests cond b) (h : Trail cond config ss g) :
    ∀ (key : FlowKey) (r : FlowRecord), g.flows[key]? = some r → r.isElephant = b →
      Attested key b ss r := by
  induction h with
  | start =>
    intro key r hr
    exact of_getElem?_empty hr
  | @step ss g g' e htrail he hmove ih =>
    intro key r' hr' hb
    by_cases hevaluate : ∃ x now, e = .evaluate key x now
    · obtain ⟨x, now, rfl⟩ := hevaluate
      obtain ⟨hx, rfl⟩ := hmove.evaluated hr'
      exact .evaluate hx (ih key x hx) hb
    by_cases hrestore : ∃ bytes now, e = .restore bytes now
    · obtain ⟨bytes, now, rfl⟩ := hrestore
      have hc : (Step.mk g (.restore bytes now) g').Continues key b = false := by
        simp [Step.Continues]
      cases hmove with
      | restore _ _ hok =>
        have hdemoted := (Becomes.restored_spec hok hr').2.not_isElephant
        exact attested_of_start hc (hcond.restore (hb.symm.trans hdemoted) g bytes now he key r' hr')
    -- every other move rules on nothing
    have hnone : (Step.mk g e g').ruling key = none :=
      ruling_of_not_evaluate fun x now heq => hevaluate ⟨x, now, heq⟩
    have hcontinues : ∀ {r : FlowRecord}, g.flows[key]? = some r → r.isElephant = b →
        (Step.mk g e g').Continues key b = true := fun hr hphase =>
      continues_of_tracked hr hphase fun bytes now heq => hrestore ⟨bytes, now, heq⟩
    cases hmove.becomes hr' with
    | same _ _ hr => exact (ih key r' hr hb).keep (hcontinues hr hb) hnone rfl rfl
    | fresh hnew =>
      refine attested_of_start ?_ rfl
      simp [Step.Continues, hnew]
    | appended r s hr =>
      have hl := ((Trail.justified htrail).records key r hr).tracked.ledger
      by_cases haccepted : (r.ledger.append s).1 = .ok .accepted
      · exact (ih key r hr hb).accept (hcontinues hr hb) hl rfl haccepted
      · have hsame := FlowLedger.append_of_refused (hcond.evidence g key r s he) haccepted
        exact (ih key r hr hb).keep (hcontinues hr hb) hnone (by rw [hsame]) rfl
    | completed r ledger atTick hr hledger =>
      refine (ih key r hr hb).keep (hcontinues hr hb) hnone ?_ rfl
      rw [FlowLedger.markCompleted_eq_ok hledger]
      rfl
    | evaluated r now => exact absurd ⟨r, now, rfl⟩ hevaluate
    | cleared r now hr => exact (ih key r hr hb).keep (hcontinues hr hb) hnone rfl rfl
    | withdrawn r hist now hr hel =>
      have hb' : b = false := hb.symm.trans (isElephant_suspendedRecord hist)
      refine attested_of_start (not_continues_of_tracked hr (by rw [hel, hb']; decide)) ?_
      rw [newEvidence_congr (r := r) (by simp [suspendedRecord]) (by simp [suspendedRecord])]
      exact hcond.invalidate hb' g now he key r hr hel
    | restored _ bytes now => exact absurd ⟨bytes, now, rfl⟩ hrestore

/-! ## The hysteresis -/

theorem previousState_ne_elephant (hr : r.isElephant = false) : previousState r ≠ .elephant := by
  rw [Ne, ← isElephant_iff, hr]
  decide

theorem verdict_of_not_consults (h : g.consults r now = false) :
    (g.verdict r now).state ≠ .elephant ∧ (g.verdict r now).enterStreak = 0 ∧
      (g.verdict r now).exitStreak = 0 ∧
      ((g.verdict r now).state = .notElephant → r.ledger.completed = true) := by
  rcases verdict_cases g r now with ⟨hdone, heq⟩ | ⟨-, -, heq⟩ | ⟨hrun, hs, hm, -⟩
  · rw [heq]
    exact ⟨by simp, rfl, rfl, fun _ => hdone⟩
  · rw [heq]
    refine ⟨?_, rfl, rfl, fun hstate => ?_⟩
    · split_ifs <;> simp
    · simp only at hstate
      split_ifs at hstate
  · unfold consults at h
    rw [hrun, hs, hm] at h
    cases h

theorem consults_of_verdict (h : (g.verdict r now).state = .elephant) : g.consults r now = true := by
  by_contra hc
  exact (verdict_of_not_consults (by simpa using hc)).1 h

theorem verdict_of_consults (h : g.consults r now = true) : ∃ p, g.policy = some p ∧
    g.verdict r now = hysteresis p.hysteresis r (g.measure r).measurements (g.enterRuling r now)
      (g.exitRuling r now) := by
  have henter : g.enterRuling r now = g.enterVerdict (g.measure r).measurements := by
    unfold enterRuling
    rw [if_pos h]
  have hexit : g.exitRuling r now = (g.exitRules.evaluate (g.measure r).measurements {}).1 := by
    unfold exitRuling
    rw [if_pos h]
  unfold consults at h
  rw [Bool.and_eq_true, Bool.not_eq_true', Bool.not_eq_true', Bool.or_eq_false_iff] at h
  rcases verdict_cases g r now with ⟨hdone, -⟩ | ⟨-, hs | hm, -⟩ | ⟨-, -, -, p, hp, heq⟩
  · rw [h.1] at hdone
    cases hdone
  · rw [h.2.1] at hs
    cases hs
  · rw [h.2.2] at hm
    cases hm
  · rw [henter, hexit]
    exact ⟨p, hp, heq⟩

section Hysteresis

variable {spec : HysteresisSpec} {m : FlowMeasurements} {enter exit : Tri}

theorem hysteresis_of_elephant (hr : r.isElephant = true) :
    (hysteresis spec r m enter exit).exitStreak = (nextStreaks r enter (exit = .false)).2 ∧
      ((hysteresis spec r m enter exit).state = .elephant ∨
        (hysteresis spec r m enter exit).state = .notElephant ∧ exit = .false ∧
          spec.exitConfirmWindows ≤ (hysteresis spec r m enter exit).exitStreak) := by
  have hprevious := isElephant_iff.mp hr
  unfold hysteresis
  simp only [hprevious, if_true]
  by_cases hleaves : decide (exit = .false) = true ∧
      (nextStreaks r enter (exit = .false)).2 ≥ spec.exitConfirmWindows
  · rw [if_pos hleaves]
    exact ⟨rfl, .inr ⟨rfl, of_decide_eq_true hleaves.1, hleaves.2⟩⟩
  · rw [if_neg hleaves]
    exact ⟨rfl, .inl rfl⟩

theorem hysteresis_leaves_elephant (hr : r.isElephant = true)
    (hstate : (hysteresis spec r m enter exit).state = .notElephant) :
    exit = .false ∧ spec.exitConfirmWindows ≤ (hysteresis spec r m enter exit).exitStreak := by
  rcases (@hysteresis_of_elephant r spec m enter exit hr).2 with h | h
  · rw [h] at hstate
    cases hstate
  · exact h.2

theorem hysteresis_enters (hr : r.isElephant = false)
    (hstate : (hysteresis spec r m enter exit).state = .elephant) : enter = .true ∧
      spec.enterConfirmWindows ≤ (nextStreaks r enter (exit = .false)).1 ∧
      (hysteresis spec r m enter exit).exitStreak = (nextStreaks r enter (exit = .false)).2 := by
  have hprevious := previousState_ne_elephant hr
  unfold hysteresis at hstate ⊢
  simp only [hprevious, if_false] at hstate ⊢
  split_ifs at hstate ⊢ with hrests henter hconfirmed
  exact ⟨henter, hconfirmed, rfl⟩

/-- From elsewhere the enter streak moves with the enter rule or is lost. -/
theorem hysteresis_streaks (hr : r.isElephant = false) :
    ((hysteresis spec r m enter exit).enterStreak = 0 ∨
      (hysteresis spec r m enter exit).enterStreak = (nextStreaks r enter (exit = .false)).1) ∧
    (hysteresis spec r m enter exit).exitStreak = (nextStreaks r enter (exit = .false)).2 := by
  have hprevious := previousState_ne_elephant hr
  unfold hysteresis
  simp only [hprevious, if_false]
  split_ifs
  all_goals first | exact ⟨.inr rfl, rfl⟩ | exact ⟨.inl rfl, rfl⟩

end Hysteresis

/-! ## Streaks -/

/-- How many of the latest windows pass the test. -/
def latestRun (test : Ruling → Bool) (ws : List Ruling) : ℕ := (ws.takeWhile test).length

variable {test : Ruling → Bool}

theorem latestRun_cons {w : Ruling} (hw : test w = true) (ws : List Ruling) :
    latestRun test (w :: ws) = latestRun test ws + 1 := by
  unfold latestRun
  rw [List.takeWhile_cons_of_pos hw, List.length_cons]

variable {ws : List Ruling}

/-- A run of `n` windows is long enough to look at the latest `n`, which pass the test. -/
theorem forall_take_of_le_latestRun {n : ℕ} (h : n ≤ latestRun test ws) :
    n ≤ ws.length ∧ ∀ w ∈ ws.take n, test w = true := by
  have hprefix := List.takeWhile_prefix test (l := ws)
  refine ⟨le_trans h hprefix.length_le, fun w hw => ?_⟩
  have hsub : ws.take n <+: ws.takeWhile test := List.prefix_of_prefix_length_le
    (List.take_prefix n ws) hprefix (le_trans (List.length_take_le n ws) h)
  exact List.mem_takeWhile_imp (hsub.subset hw)

theorem latestRun_cons_of_fails {w : Ruling} (hw : test w = false) (ws : List Ruling) :
    latestRun test (w :: ws) = 0 := by
  unfold latestRun
  rw [List.takeWhile_cons_of_neg (by simp [hw]), List.length_nil]

/-- The latest windows pass the test exactly if the run of passing windows is that long. -/
theorem le_latestRun_iff {n : ℕ} :
    n ≤ latestRun test ws ↔ n ≤ ws.length ∧ ∀ w ∈ ws.take n, test w = true := by
  refine ⟨forall_take_of_le_latestRun, ?_⟩
  rintro ⟨hlength, hall⟩
  induction ws generalizing n with
  | nil => exact hlength
  | cons w ws ih =>
    cases n with
    | zero => exact Nat.zero_le _
    | succ n =>
      rw [List.take_succ_cons, List.forall_mem_cons] at hall
      rw [latestRun_cons hall.1]
      exact Nat.succ_le_succ (ih (Nat.le_of_succ_le_succ hlength) hall.2)

theorem toNat_add_one_le (x : UInt32) : (x + 1).toNat ≤ x.toNat + 1 := by
  rw [UInt32.toNat_add]
  exact Nat.mod_le _ _

theorem Move.streaks (hmove : Move g e g') (hr' : g'.flows[key]? = some r')
    (hevaluate : ∀ x now, e ≠ .evaluate key x now) (hrestore : ∀ bytes now, e ≠ .restore bytes now) :
    (r'.isElephant = false ∧ r'.enterStreak = 0 ∧ r'.exitStreak = 0) ∨
      ∃ r, g.flows[key]? = some r ∧ r.isElephant = r'.isElephant ∧ r'.enterStreak = r.enterStreak ∧
        r'.exitStreak = r.exitStreak := by
  cases hmove.becomes hr' with
  | same _ _ hr => exact .inr ⟨r', hr, rfl, rfl, rfl⟩
  | fresh => exact .inl ⟨rfl, rfl, rfl⟩
  | appended r s hr => exact .inr ⟨r, hr, rfl, rfl, rfl⟩
  | completed r ledger atTick hr => exact .inr ⟨r, hr, rfl, rfl, rfl⟩
  | evaluated r now => exact absurd rfl (hevaluate r now)
  | cleared r now _ _ hs => exact .inl ⟨isElephant_clearedRecord hs, rfl, rfl⟩
  | withdrawn r hist now =>
    rw [isElephant_suspendedRecord, rebound_enterStreak, rebound_exitStreak]
    exact .inl ⟨rfl, rfl, rfl⟩
  | restored _ bytes now => exact absurd rfl (hrestore bytes now)

/-- Such a move rules on nothing. -/
theorem rulings_of_kept (hr : g.flows[key]? = some r) (hb : r.isElephant = b)
    (hevaluate : ∀ x now, e ≠ .evaluate key x now) (hrestore : ∀ bytes now, e ≠ .restore bytes now) :
    rulings key b (⟨g, e, g'⟩ :: ss) = rulings key b ss := by
  rw [rulings_of_continues (continues_of_tracked hr hb hrestore),
    ruling_of_not_evaluate (t := ⟨g, e, g'⟩) hevaluate]
  rfl

theorem rulings_of_settled (g' : Governor) (ss : List Step) (hr : g.flows[key]? = some r)
    (hb : r.isElephant = b) (hsettled : Settled g r now (g.evaluate r now).2.2) :
    (newEvidence r = true ∧ ∃ s, rulings key b (⟨g, .evaluate key r now, g'⟩ :: ss) =
      ⟨s, g.enterRuling r now, g.exitRuling r now⟩ :: rulings key b ss) ∨
    (newEvidence r = false ∧
      rulings key b (⟨g, .evaluate key r now, g'⟩ :: ss) = rulings key b ss) := by
  have hc : (Step.mk g (.evaluate key r now) g').Continues key b = true :=
    continues_of_tracked hr hb (by simp)
  rw [rulings_of_continues hc, ruling_of_settled hsettled]
  by_cases hnew : newEvidence r = true
  · obtain ⟨s, hs⟩ := latest_of_newEvidence hnew
    rw [if_pos hnew, hs]
    exact .inl ⟨hnew, s, rfl⟩
  · rw [if_neg hnew]
    exact .inr ⟨by simpa using hnew, rfl⟩

/-- A law about the streaks and the rulings of a phase holds along a trail if committed evaluations
keep it and, outside of the elephant state, cleared and restored streaks meet it. -/
theorem Trail.streaks {P : List Ruling → UInt32 → UInt32 → Prop} (hzero : b = false → ∀ ws, P ws 0 0)
    (hsettle : ∀ {ss : List Step} {g : Governor} {key : FlowKey} {r : FlowRecord} {now : Tick}
      (g' : Governor), Trail cond config ss g → cond g (.evaluate key r now) →
      g.flows[key]? = some r →
      (r.isElephant = b → P (rulings key b ss) r.enterStreak r.exitStreak) →
      Settled g r now (g.evaluate r now).2.2 → (g.evaluate r now).2.2.isElephant = b →
      P (rulings key b (⟨g, .evaluate key r now, g'⟩ :: ss)) (g.verdict r now).enterStreak
        (g.verdict r now).exitStreak)
    (hrestore : b = false → ∀ (g : Governor) (bytes : Bytes) (now : Tick) (key : FlowKey)
      (r : FlowRecord) (ws : List Ruling), cond g (.restore bytes now) →
      (g.deserialize bytes now).2.flows[key]? = some r → P ws r.enterStreak r.exitStreak)
    (h : Trail cond config ss g) :
    ∀ (key : FlowKey) (r : FlowRecord), g.flows[key]? = some r → r.isElephant = b →
      P (rulings key b ss) r.enterStreak r.exitStreak := by
  induction h with
  | start =>
    intro key r hr
    exact of_getElem?_empty hr
  | @step ss g g' e htrail hcond hmove ih =>
    intro key r' hr' hb
    by_cases hevaluate : ∃ x now, e = .evaluate key x now
    · obtain ⟨r, now, rfl⟩ := hevaluate
      obtain ⟨hr, rfl⟩ := hmove.evaluated hr'
      rcases evaluate_record g r now with ⟨t, heq⟩ | hsettled
      · rw [heq] at hb ⊢
        have hc : (Step.mk g (.evaluate key r now) g').Continues key b = true :=
          continues_of_tracked hr hb (by simp)
        rw [rulings_of_continues hc, ruling_of_left heq]
        exact ih key r hr hb
      · rw [hsettled.enterStreak, hsettled.exitStreak]
        exact hsettle g' htrail hcond hr (ih key r hr) hsettled hb
    by_cases hrestored : ∃ bytes now, e = .restore bytes now
    · obtain ⟨bytes, now, rfl⟩ := hrestored
      cases hmove with
      | restore _ _ hok =>
        have hout := (Becomes.restored_spec hok hr').2.not_isElephant
        exact hrestore (hb.symm.trans hout) g bytes now key r' _ hcond hr'
    have hno : ∀ x now, e ≠ .evaluate key x now := fun x now heq => hevaluate ⟨x, now, heq⟩
    have hnor : ∀ bytes now, e ≠ .restore bytes now := fun bytes now heq => hrestored ⟨bytes, now, heq⟩
    rcases hmove.streaks hr' hno hnor with ⟨hout, henter, hexit⟩ | ⟨r, hr, hsame, henter, hexit⟩
    · rw [henter, hexit]
      exact hzero (hb.symm.trans hout) _
    · rw [henter, hexit, rulings_of_kept hr (hsame.trans hb) hno hnor]
      exact ih key r hr (hsame.trans hb)

theorem Settled.isElephant_iff (h : Settled g r now r') :
    r'.isElephant = true ↔ (g.verdict r now).state = .elephant := by
  simp [FlowRecord.isElephant, h.classified, h.state]

/-! ## Leaving the elephant state -/

/-- The exit rule was False on the window. -/
def Ruling.below (w : Ruling) : Bool := w.exit = .false

/-- No record comes back to the elephant state without new evidence while it has an exit streak, no
refused sample empties a ledger, and restores are made where nothing is an Elephant. -/
def Event.Confirms (g : Governor) : Event → Prop
  | .evaluate _ r now => r.isElephant = false → newEvidence r = false → 0 < r.exitStreak →
      g.enterRuling r now = .true →
      ∀ p, g.policy = some p → r.enterStreak < p.hysteresis.enterConfirmWindows
  | .evidence _ r s => ¬ r.ledger.Disrupts s
  | .restore _ _ => ∀ (key : FlowKey) (r : FlowRecord), g.flows[key]? = some r → r.isElephant = false
  | _ => True

theorem attests_confirms : Attests Event.Confirms true where
  evidence := fun _ _ _ _ h => h
  invalidate := fun h => by cases h
  restore := fun h => by cases h

theorem exitStreak_le_of_settled (g' : Governor) (hr : g.flows[key]? = some r) (hel : r.isElephant = true)
    (hle : r.exitStreak.toNat ≤ latestRun Ruling.below (rulings key true ss))
    (hsettled : Settled g r now (g.evaluate r now).2.2) :
    (g.verdict r now).exitStreak.toNat ≤
      latestRun Ruling.below (rulings key true (⟨g, .evaluate key r now, g'⟩ :: ss)) := by
  by_cases hc : g.consults r now = true
  swap
  · rw [(verdict_of_not_consults (by simpa using hc)).2.2.1]
    exact Nat.zero_le _
  obtain ⟨p, -, hverdict⟩ := verdict_of_consults hc
  rw [hverdict, (hysteresis_of_elephant hel).1]
  unfold nextStreaks
  rcases rulings_of_settled g' ss hr hel hsettled with ⟨hnew, s, heq⟩ | ⟨hold, heq⟩
  · rw [heq, if_pos hnew, if_pos (isElephant_iff.mp hel)]
    by_cases hbelow : g.exitRuling r now = .false
    · rw [latestRun_cons (by simp [Ruling.below, hbelow])]
      simp only [hbelow, decide_true, if_true]
      exact le_trans (toNat_add_one_le _) (Nat.succ_le_succ hle)
    · simp only [hbelow, decide_false, Bool.false_eq_true, if_false]
      exact Nat.zero_le _
  · rw [heq, if_neg (by simp [hold])]
    exact hle

theorem exitStreak_of_entry (hcond : Event.Confirms g (.evaluate key r now))
    (hel : r.isElephant = false) (hstate : (g.verdict r now).state = .elephant) :
    (g.verdict r now).exitStreak = 0 := by
  obtain ⟨p, hp, hverdict⟩ := verdict_of_consults (consults_of_verdict hstate)
  rw [hverdict] at hstate ⊢
  obtain ⟨henter, hconfirm, hexit⟩ := hysteresis_enters hel hstate
  rw [hexit]
  unfold nextStreaks at hconfirm ⊢
  have hprevious := previousState_ne_elephant hel
  by_cases hnew : newEvidence r = true
  · rw [if_pos hnew, if_neg hprevious]
  · rw [if_neg hnew] at hconfirm ⊢
    have hnone : ¬ 0 < r.exitStreak := by
      intro hpos
      exact absurd hconfirm (UInt32.not_le.mpr (hcond hel (by simpa using hnew) hpos henter p hp))
    exact UInt32.le_zero_iff.mp (UInt32.not_lt.mp hnone)

/-- The exit streak of an Elephant counts windows ruled on since it became one, all of them below
exit.  Only the condition on evaluations is needed. -/
theorem Trail.exitStreak_le (hconfirms : ∀ g key r now, cond g (.evaluate key r now) →
      Event.Confirms g (.evaluate key r now))
    (h : Trail cond config ss g) :
    ∀ (key : FlowKey) (r : FlowRecord), g.flows[key]? = some r → r.isElephant = true →
      r.exitStreak.toNat ≤ latestRun Ruling.below (rulings key true ss) := by
  refine h.streaks (b := true) (P := fun ws _ exit => exit.toNat ≤ latestRun Ruling.below ws)
    (fun hb => nomatch hb) ?_ (fun hb => nomatch hb)
  intro ss g key r now g' _ hcond hr hle hsettled hel
  by_cases hbefore : r.isElephant = true
  · exact exitStreak_le_of_settled g' hr hbefore (hle hbefore) hsettled
  · rw [exitStreak_of_entry (hconfirms _ _ _ _ hcond) (by simpa using hbefore)
      (hsettled.isElephant_iff.mp hel)]
    exact Nat.zero_le _

/-- An Elephant becomes NotElephant in an evaluation only, where the restores meet the condition. -/
theorem Move.evaluates_of_left (hmove : Move g e g') (hcond : Event.Confirms g e)
    (hr : g.flows[key]? = some r) (hel : r.isElephant = true) (hr' : g'.flows[key]? = some r')
    (hleft : r'.classification.state = .notElephant) : ∃ now, e = .evaluate key r now := by
  have hsame : ∀ {x : FlowRecord}, g.flows[key]? = some x → x = r := by
    intro x hx
    rw [hr] at hx
    exact (Option.some.inj hx).symm
  have hstate : r.classification.state ≠ .notElephant := by
    intro hno
    simp [FlowRecord.isElephant, hno] at hel
  cases hmove.becomes hr' with
  | same _ _ hx =>
    rw [hsame hx] at hleft
    exact absurd hleft hstate
  | fresh hnew =>
    rw [hr] at hnew
    cases hnew
  | appended x s hx =>
    obtain rfl := hsame hx
    exact absurd hleft hstate
  | completed x ledger atTick hx =>
    obtain rfl := hsame hx
    exact absurd hleft hstate
  | evaluated x now hx =>
    obtain rfl := hsame hx
    exact ⟨now, rfl⟩
  | cleared x now hx =>
    obtain rfl := hsame hx
    exact absurd hleft hstate
  | withdrawn x hist now =>
    rw [rebound_classification] at hleft
    cases hleft
  | restored _ bytes now =>
    have hnone := hcond key r hr
    rw [hel] at hnone
    cases hnone

/-- Every run has a trail, and every run of operations made of moves under the condition has one under
it.  Along every trail whose moves meet the condition an Elephant becomes
NotElephant by completion, or after `exit_confirm_windows` windows that were accepted and ruled on
since it became an Elephant, each of them once, with the exit rule False on the latest of them. -/
theorem exit_confirmed (config : GovernorConfig) :
    (∀ g : Governor, Reachable config g → ∃ ss, Trail (fun _ _ => True) config ss g) ∧
    (∀ g : Governor, ReachableUnder (Command.MadeOf Event.Confirms) config g →
      ∃ ss, Trail Event.Confirms config ss g) ∧
    ∀ (ss : List Step) (g g' : Governor) (e : Event) (key : FlowKey) (r r' : FlowRecord),
      Trail Event.Confirms config ss g → Event.Confirms g e → Move g e g' →
      g.flows[key]? = some r → r.isElephant = true → g'.flows[key]? = some r' →
      r'.classification.state = .notElephant →
      (∃ now, e = .evaluate key r now) ∧ (r.ledger.completed = true ∨
        ∃ p, g.policy = some p ∧
          p.hysteresis.exitConfirmWindows.toNat ≤ (rulings key true (⟨g, e, g'⟩ :: ss)).length ∧
          (∀ w ∈ (rulings key true (⟨g, e, g'⟩ :: ss)).take p.hysteresis.exitConfirmWindows.toNat,
            w.exit = .false) ∧
          (rulings key true (⟨g, e, g'⟩ :: ss)).Pairwise
            (fun w v => v.sample.windowSequence < w.sample.windowSequence) ∧
          ∀ w ∈ rulings key true (⟨g, e, g'⟩ :: ss),
            ∃ t ∈ phase key true (⟨g, e, g'⟩ :: ss), t.AcceptsSample key w.sample) := by
  refine ⟨fun g hreach => hreach.trail, fun g h => h.trail_of_madeOf, ?_⟩
  intro ss g g' e key r r' htrail hcond hmove hr hel hr' hleft
  obtain ⟨now, rfl⟩ := hmove.evaluates_of_left hcond hr hel hr' hleft
  refine ⟨⟨now, rfl⟩, ?_⟩
  obtain ⟨-, rfl⟩ := hmove.evaluated hr'
  rcases evaluate_record g r now with ⟨t, heq⟩ | hsettled
  · rw [heq] at hleft
    have hstate : r.classification.state = .notElephant := hleft
    simp [FlowRecord.isElephant, hstate] at hel
  by_cases hdone : r.ledger.completed = true
  · exact .inl hdone
  have hverdict := hsettled.state.symm.trans hleft
  have hc : g.consults r now = true := by
    by_contra hc
    exact hdone ((verdict_of_not_consults (by simpa using hc)).2.2.2 hverdict)
  obtain ⟨p, hp, heq⟩ := verdict_of_consults hc
  have hstreak := exitStreak_le_of_settled g' hr hel
    (htrail.exitStreak_le (fun _ _ _ _ h => h) key r hr hel) hsettled
  rw [heq] at hverdict hstreak
  have hconfirm := (hysteresis_leaves_elephant hel hverdict).2
  obtain ⟨hlength, hbelow⟩ := forall_take_of_le_latestRun
    (le_trans (UInt32.le_iff_toNat_le.mp hconfirm) hstreak)
  have hattested := (htrail.attested attests_confirms key r hr hel).settle g'
    (continues_of_tracked hr hel (by simp)) hsettled
  exact .inr ⟨p, hp, hlength, fun w hw => of_decide_eq_true (hbelow w hw), hattested.ordered,
    hattested.accepted⟩

namespace Scenario

/-- Every window satisfies the enter rule and none the exit rule, and one window confirms. -/
def flappingPolicy : PolicyDocument :=
  { policy with
    exitRule := { nodes := [{ kind := .threshold, threshold := { kind := .never } }] }
    hysteresis := { exitConfirmWindows := 1 } }

/-- The flow of the small run becomes an Elephant with its first window and leaves with its second. -/
def flapping : Governor := ((make {}).setIncarnation boot).run
  [.submitPolicy flappingPolicy, .submitCapacity capacity, .submitPath path, .submitEvidence sample,
    .submitEvidence nextSample]

theorem reachable_flapping : Reachable {} flapping := by
  refine reachable_incarnation.run ?_
  simp [Admits]

end Scenario

open Scenario

/-- After the exit a query makes the flow an Elephant again on its old streak, and the next query
takes it back on the old exit streak: no window was accepted or ruled on in between. -/
theorem left_without_windows : ∃ before entered left : FlowRecord, Reachable {} flapping ∧
    flapping.flows[flowKey]? = some before ∧ before.isElephant = false ∧
    (flapping.exec (.classification ⟨1⟩ ⟨1⟩ 30)).flows[flowKey]? =
      some entered ∧ entered.isElephant = true ∧
    (flapping.run [.classification ⟨1⟩ ⟨1⟩ 30, .classification ⟨1⟩ ⟨1⟩ 31]).flows[
      flowKey]? = some left ∧ left.classification.state = .notElephant ∧
    left.ledger.completed = false ∧
    flapping.policy.map (fun p => p.hysteresis.exitConfirmWindows) = some 1 := by
  obtain ⟨before, hb, hno⟩ : ∃ r, flapping.flows[flowKey]? = some r ∧ r.isElephant = false := by
    decide +kernel
  obtain ⟨entered, he, hyes⟩ : ∃ r, (flapping.exec (.classification ⟨1⟩ ⟨1⟩ 30)).flows[flowKey]? =
    some r ∧ r.isElephant = true := by decide +kernel
  obtain ⟨left, hl, hstate, hrunning⟩ : ∃ r, (flapping.run [.classification ⟨1⟩ ⟨1⟩ 30,
      .classification ⟨1⟩ ⟨1⟩ 31]).flows[flowKey]? = some r ∧
    r.classification.state = .notElephant ∧ r.ledger.completed = false := by decide +kernel
  exact ⟨before, entered, left, reachable_flapping, hb, hno, he, hyes, hl, hstate, hrunning,
    by decide +kernel⟩

/-- The windows of the steady run meet the condition. -/
theorem trail_steady_confirms {n : ℕ} (hn : n ≤ 4) : ∃ ss, Trail Event.Confirms {} ss (steady n).1 := by
  refine trail_steady _ (fun _ => trivial) (fun _ => trivial) (fun _ => trivial)
    (fun _ => steady_undisrupted) ?_ hn
  intro k hk _ hold
  exact absurd ((steady_counts k hk).1.symm.trans hold) (by decide)

/-- The flow is an Elephant when its fourth window is taken, and the evaluation takes it out. -/
theorem steadyNext_leaves : (steadyNext 3).2.isElephant = true ∧
    (decided flowKey (steadyNext 3) 40).2.classification.state = .notElephant ∧
    (steadyNext 3).2.ledger.completed = false := by
  decide +kernel

/-- Two windows confirm, and the fourth window takes the flow out of the elephant state; the trail
shows both windows. -/
theorem exit_confirmed_scenario : ∃ (ss : List Step) (g g' : Governor) (r r' : FlowRecord)
    (p : PolicyDocument), Trail Event.Confirms {} ss g ∧
      g.flows[flowKey]? = some r ∧ r.isElephant = true ∧
      Move g (.evaluate flowKey r 40) g' ∧ g'.flows[flowKey]? = some r' ∧
      r'.classification.state = .notElephant ∧ g.policy = some p ∧
      p.hysteresis.exitConfirmWindows = 2 ∧
      2 ≤ (rulings flowKey true (⟨g, .evaluate flowKey r 40, g'⟩ :: ss)).length := by
  obtain ⟨ss, htrail⟩ := trail_steady_confirms (n := 3) (by decide)
  obtain ⟨hevidence, hr⟩ := move_steadyNext (n := 3) (by decide)
  obtain ⟨hel, hleft, hrunning⟩ := steadyNext_leaves
  have htaken : Trail Event.Confirms {} _ (steadyNext 3).1 :=
    htrail.step (by exact steady_undisrupted (by decide)) hevidence
  obtain ⟨hleave, hr'⟩ := move_decided hr 40
  have hcond : Event.Confirms (steadyNext 3).1 (.evaluate flowKey (steadyNext 3).2 40) :=
    fun hno => absurd (hel.symm.trans hno) (by decide)
  have hpolicy : (steadyNext 3).1.policy = some steadyPolicy := by decide +kernel
  obtain ⟨-, hdone | ⟨p, hp, hlength, -⟩⟩ := (exit_confirmed {}).2.2 _ _ _ _ flowKey _ _ htaken
    hcond hleave hr hel hr' hleft
  · exact absurd (hdone.symm.trans hrunning) (by decide)
  · obtain rfl := Option.some.inj (hpolicy.symm.trans hp)
    exact ⟨_, _, _, _, _, _, htaken, hr, hel, hleave, hr', hleft, hp, rfl, hlength⟩

/-! ## Entering the elephant state -/

theorem exitConfirmWindows_pos {p : PolicyDocument} (h : p.validate = .ok ()) :
    0 < p.hysteresis.exitConfirmWindows := by
  have hspec := hysteresis_of_validate h
  unfold HysteresisSpec.validate at hspec
  rw [ite_makeStatus_eq_ok, not_or] at hspec
  exact UInt32.pos_iff_ne_zero.mpr hspec.1.2

/-- The policy in force was validated. -/
def PolicyValid (g : Governor) : Prop := ∀ p, g.policy = some p → p.validate = .ok ()

open Fallible in
theorem keeps_policyValid_restorePolicy (hasPolicy : Bool) :
    Keeps (fun s : Governor × Bytes => s.1.PolicyValid) (restorePolicy hasPolicy) := by
  refine keeps_restorePolicy_of hasPolicy (fun _ _ p hp => by cases hp)
    fun _ policy rules _ hvalid hrules p hp => ?_
  cases hp
  exact hvalid

theorem restoreStable_policyValid : RestoreStable PolicyValid where

theorem PolicyValid.move (h : g.PolicyValid) (hmove : Move g e g') : g'.PolicyValid := by
  by_cases hkeeps : e.KeepsPolicy
  · intro p hp
    rw [(hmove.policy_eq hkeeps).1] at hp
    exact h p hp
  cases hmove with
  | policy p rules counters hvalid =>
    intro q hq
    cases hq
    exact hvalid
  | reset =>
    intro p hp
    cases hp
  | restore bytes now =>
    unfold Governor.deserialize
    rcases readHeader g.boot bytes with e | ⟨header, rest⟩
    · exact h
    · exact restoreStable_policyValid.keeps_restoreBody now header
        (keeps_policyValid_restorePolicy header.hasPolicy) (g, rest) h
  | _ => exact absurd trivial hkeeps

theorem Reachable.policyValid (h : Reachable config g) : g.PolicyValid :=
  h.invariant (fun _ hp => nomatch hp) fun _ _ _ hx hmove => hx.move hmove

theorem Trail.policyValid (h : Trail cond config ss g) : g.PolicyValid := by
  induction h with
  | start =>
    intro p hp
    cases hp
  | step _ _ hmove ih => exact ih.move hmove

/-- The enter rule was True on the window. -/
def Ruling.qualified (w : Ruling) : Bool := w.enter = .true

/-- A record that has left the elephant state does not meet the enter rule while its exit streak
stands, no refused sample empties a ledger, a new policy finds no Elephant with new evidence, and a
restore brings back neither a streak nor new evidence. -/
def Event.Earns (g : Governor) : Event → Prop
  | .evaluate _ r now => r.isElephant = false → 0 < r.exitStreak → g.enterRuling r now ≠ .true
  | .evidence _ r s => ¬ r.ledger.Disrupts s
  | .invalidate _ => ∀ (key : FlowKey) (r : FlowRecord), g.flows[key]? = some r →
      r.isElephant = true → newEvidence r = false
  | .restore bytes now => ∀ (key : FlowKey) (r : FlowRecord),
      (g.deserialize bytes now).2.flows[key]? = some r → newEvidence r = false ∧ r.enterStreak = 0
  | _ => True

theorem attests_earns : Attests Event.Earns false where
  evidence := fun _ _ _ _ h => h
  invalidate := fun _ _ _ h => h
  restore := fun _ _ _ _ h key r hr => (h key r hr).1

/-- The record has just left the elephant state, or its enter streak counts windows ruled on since
then, all of them with the enter rule True. -/
def Earned (key : FlowKey) (ss : List Step) (r : FlowRecord) : Prop :=
  0 < r.exitStreak ∨ r.enterStreak.toNat ≤ latestRun Ruling.qualified (rulings key false ss)

theorem nextStreak_le_of_settled (g' : Governor) (hcond : Event.Earns g (.evaluate key r now))
    (hr : g.flows[key]? = some r) (hel : r.isElephant = false) (hearned : Earned key ss r)
    (hsettled : Settled g r now (g.evaluate r now).2.2) (henter : g.enterRuling r now = .true)
    (below : Bool) : (nextStreaks r (g.enterRuling r now) below).1.toNat ≤
      latestRun Ruling.qualified (rulings key false (⟨g, .evaluate key r now, g'⟩ :: ss)) := by
  have hle : r.enterStreak.toNat ≤ latestRun Ruling.qualified (rulings key false ss) := by
    rcases hearned with hpos | hle
    · exact absurd henter (hcond hel hpos)
    · exact hle
  have hprevious := previousState_ne_elephant hel
  unfold nextStreaks
  rcases rulings_of_settled g' ss hr hel hsettled with ⟨hnew, s, heq⟩ | ⟨hold, heq⟩
  · rw [heq, latestRun_cons (by simp [Ruling.qualified, henter]), if_pos hnew, if_neg hprevious]
    simp only [henter, if_true]
    exact le_trans (toNat_add_one_le _) (Nat.succ_le_succ hle)
  · rw [heq, if_neg (by simp [hold])]
    exact hle

/-- An evaluation that leaves the record outside of the elephant state. -/
theorem Earned.settle (hcond : Event.Earns g (.evaluate key r now)) (hvalid : g.PolicyValid)
    (hr : g.flows[key]? = some r) (hearned : r.isElephant = false → Earned key ss r)
    (hsettled : Settled g r now (g.evaluate r now).2.2)
    (hel' : (g.evaluate r now).2.2.isElephant = false) :
    0 < (g.verdict r now).exitStreak ∨ (g.verdict r now).enterStreak.toNat ≤
      latestRun Ruling.qualified (rulings key false (⟨g, .evaluate key r now, g'⟩ :: ss)) := by
  by_cases hc : g.consults r now = true
  swap
  · rw [(verdict_of_not_consults (by simpa using hc)).2.1]
    exact .inr (Nat.zero_le _)
  obtain ⟨p, hp, hverdict⟩ := verdict_of_consults hc
  rw [hverdict]
  by_cases hel : r.isElephant = true
  · -- the record has just left, on an exit streak that the policy asked for
    have hleft : (g.verdict r now).state ≠ .elephant := by
      rw [Ne, ← hsettled.isElephant_iff, hel']
      decide
    rw [hverdict] at hleft
    obtain ⟨-, -, hconfirm⟩ := (hysteresis_of_elephant hel).2.resolve_left hleft
    exact .inl (UInt32.lt_of_lt_of_le (exitConfirmWindows_pos (hvalid p hp)) hconfirm)
  rw [Bool.not_eq_true] at hel
  obtain ⟨hzero | hnext, hexit⟩ := @hysteresis_streaks r p.hysteresis (g.measure r).measurements
    (g.enterRuling r now) (g.exitRuling r now) hel
  · rw [hzero]
    exact .inr (Nat.zero_le _)
  rw [hnext, hexit]
  by_cases henter : g.enterRuling r now = .true
  · exact .inr (nextStreak_le_of_settled g' hcond hr hel (hearned hel) hsettled henter _)
  -- the enter rule is not True: new evidence ends the streak, and old evidence leaves it
  have hprevious := previousState_ne_elephant hel
  unfold nextStreaks
  rcases rulings_of_settled g' ss hr hel hsettled with ⟨hnew, s, heq⟩ | ⟨hold, heq⟩
  · rw [if_pos hnew, if_neg hprevious, if_neg henter]
    exact .inr (Nat.zero_le _)
  · rw [heq, if_neg (by simp [hold])]
    exact hearned hel

theorem Trail.earned (h : Trail Event.Earns config ss g) :
    ∀ (key : FlowKey) (r : FlowRecord), g.flows[key]? = some r → r.isElephant = false →
      Earned key ss r := by
  refine h.streaks (b := false) (P := fun ws enter exit => 0 < exit ∨
    enter.toNat ≤ latestRun Ruling.qualified ws) (fun _ _ => .inr (Nat.zero_le _)) ?_ ?_
  · intro ss g key r now g' htrail hcond hr hearned hsettled hel
    exact Earned.settle hcond htrail.policyValid hr hearned hsettled hel
  · intro _ g bytes now key r ws hcond hr
    rw [(hcond key r hr).2]
    exact .inr (Nat.zero_le _)

theorem Move.evaluates_of_entered (hmove : Move g e g') (hr : g.flows[key]? = some r)
    (hel : r.isElephant = false) (hr' : g'.flows[key]? = some r') (hentered : r'.isElephant = true) :
    ∃ now, e = .evaluate key r now := by
  have hsame : ∀ {x : FlowRecord}, g.flows[key]? = some x → x.isElephant = false := by
    intro x hx
    rw [hr] at hx
    rw [← Option.some.inj hx]
    exact hel
  cases hmove.becomes hr' with
  | same _ _ hx => exact absurd (hentered.symm.trans (hsame hx)) (by decide)
  | fresh hnew =>
    rw [hr] at hnew
    cases hnew
  | appended x s hx =>
    have hstill : x.isElephant = true := hentered
    exact absurd (hstill.symm.trans (hsame hx)) (by decide)
  | completed x ledger atTick hx =>
    have hstill : x.isElephant = true := hentered
    exact absurd (hstill.symm.trans (hsame hx)) (by decide)
  | evaluated x now hx =>
    rw [hr] at hx
    cases hx
    exact ⟨now, rfl⟩
  | cleared x now hx =>
    have hstill : x.isElephant = true := hentered
    exact absurd (hstill.symm.trans (hsame hx)) (by decide)
  | withdrawn x hist now =>
    simp [FlowRecord.isElephant, suspendedRecord] at hentered
  | restored _ bytes now hok hx =>
    rw [(Becomes.restored_spec hok hx).2.not_isElephant] at hentered
    cases hentered

/-- Every run of operations made of moves under the condition has a trail under it.  Along every trail
whose moves meet the condition a record becomes an Elephant only after
`enter_confirm_windows` windows that were accepted and ruled on since it was one, each of them once,
with the enter rule True on the latest of them and on no later one otherwise. -/
theorem entry_confirmed (config : GovernorConfig) :
    (∀ g : Governor, Reachable config g → ∃ ss, Trail (fun _ _ => True) config ss g) ∧
    (∀ g : Governor, ReachableUnder (Command.MadeOf Event.Earns) config g →
      ∃ ss, Trail Event.Earns config ss g) ∧
    ∀ (ss : List Step) (g g' : Governor) (e : Event) (key : FlowKey) (r r' : FlowRecord),
      Trail Event.Earns config ss g → Event.Earns g e → Move g e g' →
      g.flows[key]? = some r → r.isElephant = false → g'.flows[key]? = some r' →
      r'.isElephant = true →
      (∃ now, e = .evaluate key r now) ∧ ∃ p, g.policy = some p ∧
        p.hysteresis.enterConfirmWindows.toNat ≤ (rulings key false (⟨g, e, g'⟩ :: ss)).length ∧
        (∀ w ∈ (rulings key false (⟨g, e, g'⟩ :: ss)).take p.hysteresis.enterConfirmWindows.toNat,
          w.enter = .true) ∧
        (rulings key false (⟨g, e, g'⟩ :: ss)).Pairwise
          (fun w v => v.sample.windowSequence < w.sample.windowSequence) ∧
        ∀ w ∈ rulings key false (⟨g, e, g'⟩ :: ss),
          ∃ t ∈ phase key false (⟨g, e, g'⟩ :: ss), t.AcceptsSample key w.sample := by
  refine ⟨fun g hreach => hreach.trail, fun g h => h.trail_of_madeOf, ?_⟩
  intro ss g g' e key r r' htrail hcond hmove hr hel hr' hentered
  obtain ⟨now, rfl⟩ := hmove.evaluates_of_entered hr hel hr' hentered
  refine ⟨⟨now, rfl⟩, ?_⟩
  obtain ⟨-, rfl⟩ := hmove.evaluated hr'
  rcases evaluate_record g r now with ⟨t, heq⟩ | hsettled
  · rw [heq] at hentered
    exact absurd (hentered.symm.trans hel) (by decide)
  have hverdict := hsettled.isElephant_iff.mp hentered
  obtain ⟨p, hp, heq⟩ := verdict_of_consults (consults_of_verdict hverdict)
  rw [heq] at hverdict
  obtain ⟨henter, hconfirm, -⟩ := hysteresis_enters hel hverdict
  have hstreak := nextStreak_le_of_settled g' hcond hr hel (htrail.earned key r hr hel) hsettled
    henter (decide (g.exitRuling r now = .false))
  obtain ⟨hlength, hqualified⟩ := forall_take_of_le_latestRun
    (le_trans (UInt32.le_iff_toNat_le.mp hconfirm) hstreak)
  have hattested := (htrail.attested attests_earns key r hr hel).settle g'
    (continues_of_tracked hr hel (by simp)) hsettled
  exact ⟨p, hp, hlength, fun w hw => of_decide_eq_true (hqualified w hw), hattested.ordered,
    hattested.accepted⟩

/-- The flow left with its second window and is an Elephant again in a query, without a window in
between. -/
theorem entered_without_windows : ∃ elephant left entered : FlowRecord, Reachable {} flapping ∧
    ((((((make {}).setIncarnation Scenario.boot).exec (.submitPolicy flappingPolicy)).exec
      (.submitCapacity capacity)).exec (.submitPath path)).exec
        (.submitEvidence sample)).flows[flowKey]? = some elephant ∧
    elephant.isElephant = true ∧
    flapping.flows[flowKey]? = some left ∧ left.isElephant = false ∧
    (flapping.exec (.classification ⟨1⟩ ⟨1⟩ 30)).flows[flowKey]? =
      some entered ∧ entered.isElephant = true ∧
    flapping.policy.map (fun p => p.hysteresis.enterConfirmWindows) = some 1 := by
  obtain ⟨elephant, hr₀, hyes₀⟩ : ∃ r, ((((((make {}).setIncarnation Scenario.boot).exec
      (.submitPolicy flappingPolicy)).exec (.submitCapacity capacity)).exec (.submitPath path)).exec
        (.submitEvidence sample)).flows[flowKey]? = some r ∧ r.isElephant = true := by
    decide +kernel
  obtain ⟨left, hr₁, hno⟩ : ∃ r, flapping.flows[flowKey]? = some r ∧ r.isElephant = false := by
    decide +kernel
  obtain ⟨entered, hr₂, hyes⟩ : ∃ r, (flapping.exec (.classification ⟨1⟩ ⟨1⟩ 30)).flows[flowKey]? =
    some r ∧ r.isElephant = true := by decide +kernel
  exact ⟨elephant, left, entered, reachable_flapping, hr₀, hyes₀, hr₁, hno, hr₂, hyes,
    by decide +kernel⟩

/-- Two windows confirm, and the second makes the flow an Elephant; the trail shows both windows. -/
theorem entry_confirmed_scenario : ∃ (ss : List Step) (g g' : Governor) (r r' : FlowRecord)
    (p : PolicyDocument), Trail Event.Earns {} ss g ∧
      g.flows[flowKey]? = some r ∧ r.isElephant = false ∧
      Move g (.evaluate flowKey r 20) g' ∧ g'.flows[flowKey]? = some r' ∧
      r'.isElephant = true ∧ g.policy = some p ∧ p.hysteresis.enterConfirmWindows = 2 ∧
      2 ≤ (rulings flowKey false (⟨g, .evaluate flowKey r 20, g'⟩ :: ss)).length := by
  have hearns : ∀ k < 4, Event.Earns (steadyNext k).1
      (.evaluate flowKey (steadyNext k).2 (UInt64.ofNat (10 * k + 10))) := by
    intro k hk hel hpos
    rcases (steady_counts k hk).2.1 with hyes | hzero
    · exact absurd (hyes.symm.trans hel) (by decide)
    · rw [hzero] at hpos
      exact absurd hpos (by decide)
  obtain ⟨ss, htrail⟩ := trail_steady Event.Earns (fun _ => trivial) (fun _ => trivial)
    (fun _ => trivial) (fun _ => steady_undisrupted) hearns (n := 1) (by decide)
  obtain ⟨hevidence, hr⟩ := move_steadyNext (n := 1) (by decide)
  have htaken : Trail Event.Earns {} _ (steadyNext 1).1 :=
    htrail.step (by exact steady_undisrupted (by decide)) hevidence
  obtain ⟨hevaluate, hr'⟩ := move_decided hr 20
  have hel : (steadyNext 1).2.isElephant = false ∧
      (decided flowKey (steadyNext 1) 20).2.isElephant = true := by decide +kernel
  have hpolicy : (steadyNext 1).1.policy = some steadyPolicy := by decide +kernel
  obtain ⟨-, p, hp, hlength, -⟩ := (entry_confirmed {}).2.2 _ _ _ _ flowKey _ _ htaken
    (hearns 1 (by decide)) hevaluate hr hel.1 hr' hel.2
  obtain rfl := Option.some.inj (hpolicy.symm.trans hp)
  exact ⟨_, _, _, _, _, _, htaken, hr, hel.1, hevaluate, hr', hel.2, hp, rfl, hlength⟩

end Governor

end EFG
