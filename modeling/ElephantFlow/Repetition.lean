/-
# Asking twice

An evaluation that finds its stored decision unchanged returns it and writes nothing but ticks.  So
asking twice at one tick gives one answer exactly if the second evaluation passes the idempotency
test.  The first evaluation moves three inputs of the second: the binding of the flow in the
competition index, the state, which selects the reasons that are reported, and the streaks.  The
streaks are a fixed point, since a window is counted once.  The other two are not
(`Again.unchanged_iff`): a flow that enters Elephant, or that is suspended out of it, is decided anew
by the second query with other reasons and another identifier.
-/
import ElephantFlow.Lifetimes
import ElephantFlow.Trails

namespace EFG

/-! ## Sets of reasons -/

namespace ReasonCode

variable {a b : ReasonCode}

theorem or_bits (a b : ReasonCode) : (a ||| b).bits = a.bits ||| b.bits := rfl

theorem eq_of_bits (h : a.bits = b.bits) : a = b := by
  cases a
  cases b
  exact congrArg ReasonCode.mk h

instance : Std.Associative (α := ReasonCode) (· ||| ·) :=
  ⟨fun a b c => eq_of_bits (UInt64.or_assoc a.bits b.bits c.bits)⟩

instance : Std.Commutative (α := ReasonCode) (· ||| ·) :=
  ⟨fun a b => eq_of_bits (UInt64.or_comm a.bits b.bits)⟩

instance : Std.IdempotentOp (α := ReasonCode) (· ||| ·) := ⟨fun _ => eq_of_bits UInt64.or_self⟩

@[simp] theorem or_none (a : ReasonCode) : a ||| none = a := eq_of_bits UInt64.or_zero

@[simp] theorem none_or (a : ReasonCode) : none ||| a = a := eq_of_bits UInt64.zero_or

theorem hasReason_or (a b flag : ReasonCode) :
    hasReason (a ||| b) flag = (hasReason a flag || hasReason b flag) := by
  have hand : (a.bits ||| b.bits) &&& flag.bits = (a.bits &&& flag.bits) ||| (b.bits &&& flag.bits) :=
    by
    apply UInt64.toBitVec_inj.mp
    simp only [UInt64.toBitVec_and, UInt64.toBitVec_or]
    exact BitVec.and_or_distrib_right
  unfold hasReason
  rw [or_bits, hand, Bool.eq_iff_iff]
  simp only [ne_eq, UInt64.or_eq_zero_iff, decide_eq_true_eq, Bool.or_eq_true]
  exact not_and_or

@[simp] theorem hasReason_none (flag : ReasonCode) : hasReason none flag = false := by
  unfold hasReason none
  simp

end ReasonCode

namespace Governor

variable {g g₁ g' : Governor} {r r₁ : FlowRecord} {now : Tick} {key : FlowKey}
  {c : FlowClassification} {h : ClassificationHistory} {flag : ReasonCode} {e : ThresholdTraceEntry}
  {entries : List ThresholdTraceEntry} {spec : HysteresisSpec} {m : FlowMeasurements} {enter : Tri}
  {generation : Generation}

/-! ## The reasons of a candidate -/

/-- The reasons that the measurements give by themselves. -/
def measuredReasons (m : Measured) : ReasonCode :=
  (if m.capacityMissing then .capacityMissing else .none) |||
    (if m.measurements.evidencePresent ∧ ¬ m.measurements.evidenceContiguous then
      .evidenceUnknownField else .none)

/-- The reasons that `enforce_protection` adds. -/
def protectionReasons (g : Governor) (m : FlowMeasurements) : ReasonCode :=
  match g.policy with
  | none => .none
  | some p =>
    if ¬ p.authorization.protectObligations then .none
    else if m.protection = .unknown then .evidenceUnknownField ||| .protectedObligation
    else
      (if m.protection = .protectedFlow then .protectedObligation else .none) |||
      (if m.protection = .nonPreemptible then
        .protectedObligation ||| .nonPreemptibleObligation else .none) |||
      (if m.hasReservation then .protectedObligation ||| .reservedCapacityBounded else .none) |||
      (if m.serviceClass = .reserved || m.serviceClass = .control then
        .protectedObligation ||| .controlClassBounded else .none)

/-- The authority that `enforce_protection` leaves. -/
def protectedAuthority (g : Governor) (m : FlowMeasurements) (level : AuthorityLevel) :
    AuthorityLevel :=
  match g.policy with
  | none => level
  | some p =>
    if ¬ p.authorization.protectObligations then level
    else if m.protection = .unknown then if level = .govern then .observe else level
    else if m.protection = .protectedFlow || m.protection = .nonPreemptible || m.hasReservation ||
        (m.serviceClass = .reserved || m.serviceClass = .control) then
      if level = .govern then .observe else level
    else level

/-- The reasons that a trace adds. -/
def traceReasons (entries : List ThresholdTraceEntry) : ReasonCode :=
  entries.foldl (fun acc e => acc ||| traceReason e) .none

/-- The impact of a measured flow under the active policy. -/
def impactOn (g : Governor) (m : Measured) : ImpactAssessment :=
  match g.policy with
  | none => {}
  | some p => computeImpact m.measurements p m.contention m.competingElephants

/-- The reasons that the protection adds and the authority that it leaves. -/
theorem enforceProtection_spec (g : Governor) (c : FlowClassification) :
    (g.enforceProtection c).reasons = c.reasons ||| g.protectionReasons c.measurements ∧
      (g.enforceProtection c).authority = g.protectedAuthority c.measurements c.authority := by
  unfold enforceProtection protectionReasons protectedAuthority
  cases g.policy with
  | none => simp
  | some p =>
    by_cases hp : p.authorization.protectObligations = true
    · by_cases hm : c.measurements.protection = .unknown
      · simp only [hp, hm, not_true_eq_false, if_false, if_true, and_true]
        ac_rfl
      · simp only [hp, hm, not_true_eq_false, if_false, and_true]
        ac_rfl
    · simp [hp]

theorem candidate_impact (g : Governor) (r : FlowRecord) (now : Tick) :
    (g.candidate r now).impact = g.impactOn (g.measure r) := by
  obtain ⟨_, _, h, -⟩ := enforceProtection_eq g _
  exact congrArg FlowClassification.impact h

theorem candidate_authority_congr (hpolicy : g₁.policy = g.policy)
    (hm : (g₁.measure r₁).measurements = (g.measure r).measurements)
    (hstate : (g₁.verdict r₁ now).state = (g.verdict r now).state) :
    (g₁.candidate r₁ now).authority = (g.candidate r now).authority := by
  unfold candidate
  rw [(enforceProtection_spec _ _).2, (enforceProtection_spec _ _).2]
  unfold protectedAuthority
  rw [hpolicy, hm, hstate]

/-- The reasons that an evaluation reports whatever the state of the flow is. -/
def standingReasons (g : Governor) (r : FlowRecord) (now : Tick) : ReasonCode :=
  (g.evidenceSuspension r now).2 ||| (g.policySuspension now).2 |||
    measuredReasons (g.measure r) ||| g.protectionReasons (g.measure r).measurements

/-- The reasons that only an Elephant gets from its suspension. -/
def withdrawnReasons (g : Governor) (r : FlowRecord) (now : Tick) : ReasonCode :=
  (g.authoritySuspension r now).2 |||
    (if (g.suspensionReasons r now).1 && r.isElephant then .revalidationRequired else .none)

theorem candidate_reasons (g : Governor) (r : FlowRecord) (now : Tick) :
    (g.candidate r now).reasons = g.standingReasons r now ||| (g.withdrawnReasons r now |||
      (g.verdict r now).reasons ||| traceReasons (g.decisionTrace r now).entries) := by
  unfold candidate
  rw [(enforceProtection_spec _ _).1]
  unfold standingReasons withdrawnReasons suspensionReasons measuredReasons traceReasons
  simp only
  ac_rfl

/-! ## Suspension and the state -/

/-- A matching authority vector gives no reason. -/
theorem authoritySuspension_clear (h : (g.authoritySuspension r now).1 = false) :
    (g.authoritySuspension r now).2 = .none := by
  unfold authoritySuspension at h ⊢
  split_ifs at h ⊢
  · rcases hb : g.buildAuthority r now with e | live
    · rw [hb] at h
      cases h
    rw [hb] at h
    simp only at h ⊢
    cases hv : r.classification.authorityVector.compare live with
    | matched => rfl
    | _ => simp [hv] at h
  · rfl

theorem authoritySuspension_outside (hel : r.isElephant = false) :
    g.authoritySuspension r now = (false, .none) := by
  unfold authoritySuspension
  rw [hel]
  rfl

theorem withdrawnReasons_none
    (hcalm : r.isElephant = false ∨ (g.suspensionReasons r now).1 = false) :
    g.withdrawnReasons r now = .none := by
  have hauthority : (g.authoritySuspension r now).2 = .none := by
    rcases hcalm with hel | hs
    · rw [authoritySuspension_outside hel]
    · exact authoritySuspension_clear (suspensionReasons_eq_false hs).2.2
  unfold withdrawnReasons
  rw [hauthority]
  rcases hcalm with hel | hs
  · simp [hel]
  · simp [hs]

theorem hasReason_withdrawn (hs : (g.suspensionReasons r now).1 = true)
    (hel : r.isElephant = true) : hasReason (g.withdrawnReasons r now) .revalidationRequired = true := by
  unfold withdrawnReasons
  rw [hs, hel, ReasonCode.hasReason_or]
  simp only [Bool.and_self, if_true]
  rw [show hasReason .revalidationRequired .revalidationRequired = true from rfl, Bool.or_true]

theorem capacityMissing_iff : (g.measure r).capacityMissing = true ↔
    resolveBinding (g.latestPath r) g.capacities false 0 = none := by
  unfold measure composeMeasurements
  rcases g.latestPath r with _ | path
  · exact iff_of_true rfl rfl
  · rcases hb : resolveBinding (some path) g.capacities false 0 with _ | ⟨resource, capacity⟩
    · simp [hb, makeStatus]
    · simp [hb]

theorem evidenceSuspension_of_capacityMissing (h : (g.measure r).capacityMissing = true)
    (now : Tick) : (g.evidenceSuspension r now).1 = true := by
  by_contra hno
  rw [Bool.not_eq_true] at hno
  obtain ⟨s, path, hs, -, -, hpath, -, hbinding⟩ := of_evidenceSuspension hno
  have hlatest : g.latestPath r = some path := by
    unfold latestPath
    rw [hs]
    exact hpath
  rw [capacityMissing_iff, hlatest] at h
  exact resolveBinding_ne_none hbinding 0 h

/-! ## What the reasons can hold -/

/-- Every reason that evidence, policy, measurements and protection can give. -/
def standingMask : ReasonCode :=
  .evidenceMissing ||| .evidenceStale ||| .telemetryGap ||| .pathUnknown ||| .capacityStale |||
    .capacityMissing ||| .policyChanged ||| .evidenceUnknownField ||| .protectedObligation |||
    .nonPreemptibleObligation ||| .reservedCapacityBounded ||| .controlClassBounded

theorem hasReason_standingReasons (hflag : hasReason standingMask flag = false) (g : Governor)
    (r : FlowRecord) (now : Tick) : hasReason (g.standingReasons r now) flag = false := by
  simp only [standingMask, ReasonCode.hasReason_or, Bool.or_eq_false_iff] at hflag
  have hevidence : hasReason (g.evidenceSuspension r now).2 flag = false := by
    unfold evidenceSuspension
    rcases r.ledger.latest with _ | s
    · exact hflag.1.1.1.1.1.1.1.1.1.1.1
    simp only
    rcases g.paths.find s.path with _ | path
    · simp only [ReasonCode.hasReason_or, apply_ite (hasReason · flag), hflag,
        ReasonCode.hasReason_none, Bool.or_false, ite_self]
    simp only [apply_ite Prod.snd, apply_ite (hasReason · flag), ReasonCode.hasReason_or, hflag,
      ReasonCode.hasReason_none, Bool.or_false, ite_self]
  have hpolicy : hasReason (g.policySuspension now).2 flag = false := by
    unfold policySuspension
    rcases g.policy with _ | p
    · exact hflag.1.1.1.1.1.2
    simp only [apply_ite Prod.snd, apply_ite (hasReason · flag), hflag, ReasonCode.hasReason_none,
      ite_self]
  have hmeasured : hasReason (measuredReasons (g.measure r)) flag = false := by
    unfold measuredReasons
    simp only [ReasonCode.hasReason_or, apply_ite (hasReason · flag), hflag,
      ReasonCode.hasReason_none, Bool.or_false, ite_self]
  have hprotection : hasReason (g.protectionReasons (g.measure r).measurements) flag = false := by
    unfold protectionReasons
    rcases g.policy with _ | p
    · exact ReasonCode.hasReason_none flag
    simp only [ReasonCode.hasReason_or, apply_ite (hasReason · flag), hflag,
      ReasonCode.hasReason_none, Bool.or_false, ite_self]
  unfold standingReasons
  simp only [ReasonCode.hasReason_or, hevidence, hpolicy, hmeasured, hprotection, Bool.or_false]

theorem withdrawn_lost (hs : (g.suspensionReasons r now).1 = true) (hel : r.isElephant = true)
    {a b x : ReasonCode} (hx : hasReason x .revalidationRequired = false)
    (heq : g.standingReasons r now ||| (g.withdrawnReasons r now ||| a ||| b) =
      g.standingReasons r now ||| x) : False := by
  have hmask : hasReason standingMask .revalidationRequired = false := rfl
  have hbit := congrArg (hasReason · .revalidationRequired) heq
  simp only [ReasonCode.hasReason_or, hasReason_withdrawn hs hel, hx,
    hasReason_standingReasons hmask] at hbit
  cases hbit

/-- The reasons of a threshold trace. -/
def thresholdMask : ReasonCode :=
  .volumeThresholdMet ||| .durationThresholdMet ||| .sustainedRateThresholdMet |||
    .resourceShareThresholdMet ||| .belowVolumeThreshold ||| .belowDurationThreshold |||
    .belowRateThreshold ||| .belowShareThreshold

theorem traceReason_cases (e : ThresholdTraceEntry) :
    traceReason e = .none ∨ hasReason (traceReason e) thresholdMask = true := by
  unfold traceReason
  cases e.result <;> cases e.kind <;> first | exact .inl rfl | exact .inr rfl

theorem traceReason_belowRate :
    hasReason (traceReason e) .belowRateThreshold = true ↔
      e.result = .false ∧ (e.kind = .sustainedRate ∨ e.kind = .peakRate) := by
  unfold traceReason
  cases e.result <;> cases e.kind <;> decide

/-- An authority vector that does not match gives no reason of a trace. -/
theorem hasReason_withdrawnReasons (g : Governor) (r : FlowRecord) (now : Tick) :
    hasReason (g.withdrawnReasons r now) thresholdMask = false := by
  have hverdict : ∀ v : BindingVerdict, hasReason (verdictReason v) thresholdMask = false := by
    intro v
    cases v <;> rfl
  have hrevalidation : hasReason .revalidationRequired thresholdMask = false := rfl
  have hauthority : hasReason (g.authoritySuspension r now).2 thresholdMask = false := by
    unfold authoritySuspension
    split_ifs
    · rcases g.buildAuthority r now with e | live
      · exact hrevalidation
      simp only
      split
      · rfl
      · rw [ReasonCode.hasReason_or, hrevalidation, hverdict]
        rfl
    · rfl
  unfold withdrawnReasons
  rw [ReasonCode.hasReason_or, hauthority]
  split_ifs
  · exact hrevalidation
  · rfl

theorem hasReason_traceReasons (entries : List ThresholdTraceEntry) (flag : ReasonCode) :
    hasReason (traceReasons entries) flag = entries.any fun e => hasReason (traceReason e) flag := by
  have main : ∀ acc : ReasonCode,
      hasReason (entries.foldl (fun acc e => acc ||| traceReason e) acc) flag =
        (hasReason acc flag || entries.any fun e => hasReason (traceReason e) flag) := by
    induction entries with
    | nil => simp
    | cons e rest ih =>
      intro acc
      rw [List.foldl_cons, ih, ReasonCode.hasReason_or, List.any_cons, Bool.or_assoc]
  unfold traceReasons
  rw [main, ReasonCode.hasReason_none, Bool.false_or]

theorem hasReason_traceReasons_of_mask (hflag : hasReason thresholdMask flag = false)
    (entries : List ThresholdTraceEntry) : hasReason (traceReasons entries) flag = false := by
  rw [hasReason_traceReasons, List.any_eq_false]
  intro e _
  simp only [thresholdMask, ReasonCode.hasReason_or, Bool.or_eq_false_iff] at hflag
  unfold traceReason
  cases e.result <;> cases e.kind <;> simp [hflag]

/-- The reason of an entry is among those of the trace. -/
theorem traceReasons_or_mem (he : e ∈ entries) :
    traceReason e ||| traceReasons entries = traceReasons entries := by
  have main : ∀ acc : ReasonCode,
      traceReason e ||| entries.foldl (fun acc e => acc ||| traceReason e) acc =
        entries.foldl (fun acc e => acc ||| traceReason e) acc := by
    have hkeep : ∀ (rest : List ThresholdTraceEntry) (acc : ReasonCode),
        traceReason e ||| rest.foldl (fun acc e => acc ||| traceReason e) acc =
          rest.foldl (fun acc e => acc ||| traceReason e) (traceReason e ||| acc) := by
      intro rest
      induction rest with
      | nil => exact fun acc => rfl
      | cons x rest ih =>
        intro acc
        rw [List.foldl_cons, List.foldl_cons, ih]
        congr 1
        ac_rfl
    induction entries with
    | nil => cases he
    | cons x rest ih =>
      intro acc
      rw [List.foldl_cons]
      rcases List.mem_cons.mp he with rfl | hmem
      · rw [hkeep]
        congr 1
        ac_rfl
      · exact ih hmem _
  exact main .none

theorem traceReasons_eq_none (h : ∀ e ∈ entries, traceReason e = .none) :
    traceReasons entries = .none := by
  unfold traceReasons
  induction entries with
  | nil => rfl
  | cons e rest ih =>
    rw [List.foldl_cons, h e List.mem_cons_self, ReasonCode.or_none]
    exact ih fun x hx => h x (List.mem_cons_of_mem e hx)

/-! ## The states that a second evaluation keeps -/

/-- A streak with the latest window counted in, unless that was done before. -/
def countedStreak (r : FlowRecord) (streak : UInt32) : UInt32 :=
  if newEvidence r then streak + 1 else streak

/-- The exit rules on measurements. -/
def exitVerdict (g : Governor) (m : FlowMeasurements) : Tri := (g.exitRules.evaluate m {}).1

/-- The trace of the enter rule on measurements. -/
def enterTrace (g : Governor) (m : FlowMeasurements) : List ThresholdTraceEntry :=
  match g.policy with
  | none => []
  | some p => (p.enterRule.evaluate m {}).2.entries

/-- The rules decide about the flow: it is running and nothing suspends it. -/
structure RulesDecide (g : Governor) (r : FlowRecord) (now : Tick) : Prop where
  running : r.ledger.completed = false
  calm : (g.suspensionReasons r now).1 = false

/-- The rules make an Elephant of a flow that was none. -/
structure Enters (g : Governor) (r : FlowRecord) (now : Tick) : Prop where
  rules : RulesDecide g r now
  revalidated : newEvidence r = true ∨ previousState r ≠ .suspended
  entered : g.enterVerdict (g.measure r).measurements = .true
  confirmed : ∃ p, g.policy = some p ∧ p.hysteresis.enterConfirmWindows ≤ countedStreak r r.enterStreak

/-- The rules dismiss an Elephant. -/
structure Leaves (g : Governor) (r : FlowRecord) (now : Tick) : Prop where
  rules : RulesDecide g r now
  below : g.exitVerdict (g.measure r).measurements = .false
  confirmed : ∃ p, g.policy = some p ∧ p.hysteresis.exitConfirmWindows ≤ countedStreak r r.exitStreak

/-- A record whose evaluation reaches a state that a second evaluation keeps; the flag tells whether
that state is Elephant. -/
inductive Settles (g : Governor) (r : FlowRecord) (now : Tick) : Bool → Prop
  /-- No Elephant, and not about to become one. -/
  | outside (hprevious : previousState r ≠ .elephant) (hout : ¬ Enters g r now) :
      Settles g r now false
  /-- An Elephant that stays one. -/
  | stays (hprevious : previousState r = .elephant) (hrules : RulesDecide g r now)
      (hkeep : ¬ Leaves g r now) : Settles g r now true
  /-- An Elephant that has completed, with nothing to suspend it for. -/
  | completed (hprevious : previousState r = .elephant) (hdone : r.ledger.completed = true)
      (hcalm : (g.suspensionReasons r now).1 = false) : Settles g r now false
  /-- An Elephant that is suspended for its authority vector alone, under an enter rule whose trace
  gives no reason. -/
  | fenced (hprevious : previousState r = .elephant) (hrun : r.ledger.completed = false)
      (hevidence : (g.evidenceSuspension r now).1 = false)
      (hpolicy : (g.policySuspension now).1 = false)
      (hauthority : (g.authoritySuspension r now).1 = true)
      (hsilent : ∀ e ∈ g.enterTrace (g.measure r).measurements, traceReason e = .none) :
      Settles g r now false
  /-- An Elephant that leaves, while its enter rule is false and traces a rate below its
  threshold. -/
  | leaves (hprevious : previousState r = .elephant) (hleave : Leaves g r now)
      (henter : g.enterVerdict (g.measure r).measurements = .false)
      (hrate : ∃ e ∈ g.enterTrace (g.measure r).measurements, e.result = .false ∧
        (e.kind = .sustainedRate ∨ e.kind = .peakRate)) : Settles g r now false

/-- The second evaluation of a record at the tick of the first: `g₁` and `r₁` are what a commit for
`r` has left. -/
structure Again (g : Governor) (r : FlowRecord) (now : Tick) (g₁ : Governor) (r₁ : FlowRecord) :
    Prop where
  sources : SameSources g g₁
  exitRules : g₁.exitRules = g.exitRules
  ledger : r₁.ledger = r.ledger
  classified : r₁.hasClassification = true
  state : r₁.classification.state = (g.verdict r now).state
  reasons : r₁.classification.reasons = (g.candidate r now).reasons
  authority : r₁.classification.authority = (g.candidate r now).authority
  measurements : r₁.classification.measurements = (g.measure r).measurements
  impact : r₁.classification.impact = g.impactOn (g.measure r)
  evaluated : newEvidence r₁ = false
  enterStreak : r₁.enterStreak = (g.verdict r now).enterStreak
  exitStreak : r₁.exitStreak = (g.verdict r now).exitStreak
  matched : g₁.authoritySuspension r₁ now = (false, .none)

theorem verdict_of_suspended (hrun : r.ledger.completed = false)
    (hs : (g.suspensionReasons r now).1 = true) : g.verdict r now =
      ⟨if r.hasClassification && (previousState r = .elephant || previousState r = .suspended)
        then .suspended else .unknown, 0, 0, .none⟩ := by
  unfold verdict
  simp [hrun, hs]

theorem RulesDecide.verdict_eq (hrules : RulesDecide g r now) : ∃ p, g.policy = some p ∧
    g.verdict r now = hysteresis p.hysteresis r (g.measure r).measurements
      (g.enterVerdict (g.measure r).measurements) (g.exitVerdict (g.measure r).measurements) ∧
    (g.decisionTrace r now).entries = g.enterTrace (g.measure r).measurements := by
  obtain ⟨hrun, hs⟩ := hrules
  obtain ⟨hevidence, hpolicy, -⟩ := suspensionReasons_eq_false hs
  obtain ⟨p, hp, -⟩ := of_policySuspension hpolicy
  have hcap : (g.measure r).capacityMissing = false := by
    by_contra hmissing
    rw [Bool.not_eq_false] at hmissing
    rw [evidenceSuspension_of_capacityMissing hmissing now] at hevidence
    cases hevidence
  refine ⟨p, hp, ?_, ?_⟩
  · unfold verdict exitVerdict
    simp [hrun, hs, hcap, hp]
  · unfold decisionTrace enterTrace
    simp [hrun, hs, hcap, hp]

theorem hysteresis_leaves (hprev : previousState r = .elephant)
    (hlong : spec.exitConfirmWindows ≤ countedStreak r r.exitStreak) :
    hysteresis spec r m enter .false = ⟨.notElephant, r.enterStreak, countedStreak r r.exitStreak,
      .policyRuleNotSatisfied ||| .belowRateThreshold⟩ := by
  unfold countedStreak at hlong ⊢
  unfold hysteresis nextStreaks
  cases hnew : newEvidence r with
  | false =>
    simp only [hnew, Bool.false_eq_true, if_false] at hlong
    simp [hprev, hlong]
  | true =>
    simp only [hnew, if_true] at hlong
    simp [hprev, hlong]

/-- An Elephant that does not leave keeps an exit streak that is too short to leave. -/
theorem hysteresis_stays {exit : Tri} (hprev : previousState r = .elephant)
    (hkeep : ¬ (exit = .false ∧ spec.exitConfirmWindows ≤ countedStreak r r.exitStreak)) :
    ∃ streak, ¬ (exit = .false ∧ streak ≥ spec.exitConfirmWindows) ∧
      hysteresis spec r m enter exit = ⟨.elephant, r.enterStreak, streak, .policyRuleSatisfied |||
        (if exit = .false then .hysteresisHeld else .exitThresholdNotReached)⟩ := by
  have hshort : ¬ (exit = .false ∧
      (nextStreaks r enter (exit = .false)).2 ≥ spec.exitConfirmWindows) := by
    rintro ⟨hbelow, hlong⟩
    refine hkeep ⟨hbelow, ?_⟩
    unfold nextStreaks at hlong
    unfold countedStreak
    cases hnew : newEvidence r with
    | false => simpa [hnew] using hlong
    | true => simpa [hnew, hprev, hbelow] using hlong
  refine ⟨_, hshort, ?_⟩
  have henter : (nextStreaks r enter (exit = .false)).1 = r.enterStreak := by
    unfold nextStreaks
    rw [if_pos hprev]
    split_ifs
    all_goals rfl
  unfold hysteresis
  simp only [if_pos hprev, decide_eq_true_eq, if_neg hshort, henter]

theorem hysteresis_outside (hprev : previousState r ≠ .elephant) (spec : HysteresisSpec)
    (m : FlowMeasurements) (enter exit : Tri) : ∃ streak, hysteresis spec r m enter exit =
      if newEvidence r = false ∧ previousState r = .suspended then
        ⟨.suspended, r.enterStreak, r.exitStreak,
          r.classification.reasons ||| .revalidationRequired⟩
      else if enter = .true then
        if spec.enterConfirmWindows ≤ countedStreak r r.enterStreak then
          ⟨.elephant, countedStreak r r.enterStreak, streak, .policyRuleSatisfied⟩
        else ⟨.notElephant, countedStreak r r.enterStreak, streak,
          .policyRuleSatisfied ||| .hysteresisHeld⟩
      else if enter = .unknown then
        if previousState r = .suspended then
          ⟨.suspended, (nextStreaks r enter (exit = .false)).1, streak, .policyRuleIndeterminate |||
            (if m.evidencePresent then .none else .evidenceMissing) |||
            (if m.capacityKnown then .none else .capacityMissing) |||
            r.classification.reasons ||| .revalidationRequired⟩
        else
          ⟨.unknown, (nextStreaks r enter (exit = .false)).1, streak, .policyRuleIndeterminate |||
            (if m.evidencePresent then .none else .evidenceMissing) |||
            (if m.capacityKnown then .none else .capacityMissing)⟩
      else ⟨.notElephant, 0, streak, .policyRuleNotSatisfied⟩ := by
  refine ⟨(nextStreaks r enter (exit = .false)).2, ?_⟩
  unfold hysteresis
  simp only [if_neg hprev, Bool.not_eq_true]
  by_cases hwait : newEvidence r = false ∧ previousState r = .suspended
  · simp only [if_pos hwait]
    unfold nextStreaks
    simp only [hwait.1, Bool.false_eq_true, if_false]
  simp only [if_neg hwait]
  by_cases henter : enter = .true
  · have hcounted : (nextStreaks r enter (exit = .false)).1 = countedStreak r r.enterStreak := by
      unfold nextStreaks countedStreak
      split_ifs
      · rfl
      · rfl
    simp only [if_pos henter, hcounted]
  · simp only [if_neg henter]

theorem hysteresis_again {exit : Tri} (hold : newEvidence r = false) : hysteresis spec r m enter exit =
      if previousState r = .elephant then
        if exit = .false ∧ r.exitStreak ≥ spec.exitConfirmWindows then
          ⟨.notElephant, r.enterStreak, r.exitStreak, .policyRuleNotSatisfied ||| .belowRateThreshold⟩
        else
          ⟨.elephant, r.enterStreak, r.exitStreak, .policyRuleSatisfied |||
            (if exit = .false then .hysteresisHeld else .exitThresholdNotReached)⟩
      else if previousState r = .suspended then
        ⟨.suspended, r.enterStreak, r.exitStreak,
          r.classification.reasons ||| .revalidationRequired⟩
      else if enter = .true then
        if r.enterStreak ≥ spec.enterConfirmWindows then
          ⟨.elephant, r.enterStreak, r.exitStreak, .policyRuleSatisfied⟩
        else ⟨.notElephant, r.enterStreak, r.exitStreak, .policyRuleSatisfied ||| .hysteresisHeld⟩
      else if enter = .unknown then
        ⟨.unknown, r.enterStreak, r.exitStreak, .policyRuleIndeterminate |||
          (if m.evidencePresent then .none else .evidenceMissing) |||
          (if m.capacityKnown then .none else .capacityMissing)⟩
      else ⟨.notElephant, 0, r.exitStreak, .policyRuleNotSatisfied⟩ := by
  unfold hysteresis nextStreaks
  simp only [hold, Bool.false_eq_true, if_false, not_false_eq_true, true_and, decide_eq_true_eq]
  by_cases hsus : previousState r = .suspended
  · simp [hsus]
  · simp [hsus]

theorem Settles.of_suspended {elephant : Bool} (h : Settles g r now elephant)
    (hel : r.isElephant = true) (hs : (g.suspensionReasons r now).1 = true) :
    r.ledger.completed = false ∧ (g.evidenceSuspension r now).1 = false ∧
      (g.policySuspension now).1 = false ∧
      ∀ e ∈ g.enterTrace (g.measure r).measurements, traceReason e = .none := by
  have hcalm : ∀ {x}, (g.suspensionReasons r now).1 = false → x := by
    intro x hno
    rw [hs] at hno
    cases hno
  cases h with
  | outside hprevious => exact absurd (isElephant_iff.mp hel) hprevious
  | stays _ hrules => exact hcalm hrules.calm
  | completed _ _ hc => exact hcalm hc
  | fenced _ hrun hevidence hpolicy _ hsilent => exact ⟨hrun, hevidence, hpolicy, hsilent⟩
  | leaves _ hleave => exact hcalm hleave.rules.calm

section Again

variable (ha : Again g r now g₁ r₁)
include ha

theorem Again.previousState_eq : previousState r₁ = (g.verdict r now).state := by
  unfold previousState
  rw [ha.classified, if_pos rfl, ha.state]

theorem Again.evidenceSuspension_eq :
    g₁.evidenceSuspension r₁ now = g.evidenceSuspension r now := by
  unfold evidenceSuspension
  rw [ha.ledger, ha.sources.paths, ha.sources.capacities]

theorem Again.policySuspension_eq : g₁.policySuspension now = g.policySuspension now := by
  unfold policySuspension
  rw [ha.sources.policy]

theorem Again.suspends : (g₁.suspensionReasons r₁ now).1 =
    ((g.evidenceSuspension r now).1 || (g.policySuspension now).1) := by
  unfold suspensionReasons
  simp only [ha.evidenceSuspension_eq, ha.policySuspension_eq, ha.matched, Bool.or_false]

/-- An Elephant that was decided is not suspended by the second evaluation. -/
theorem Again.withdrawn : g₁.withdrawnReasons r₁ now = .none := by
  apply withdrawnReasons_none
  by_cases hel : r₁.isElephant = true
  · right
    rw [isElephant_iff, ha.previousState_eq] at hel
    obtain ⟨hevidence, hpolicy, -⟩ := suspensionReasons_eq_false (of_verdict_elephant hel).2.1
    rw [ha.suspends, hevidence, hpolicy]
    rfl
  · left
    simpa using hel

theorem Again.latestPath_eq : g₁.latestPath r₁ = g.latestPath r := by
  unfold latestPath
  rw [ha.ledger, ha.sources.paths]

theorem Again.capacityMissing_eq :
    (g₁.measure r₁).capacityMissing = (g.measure r).capacityMissing := by
  rw [Bool.eq_iff_iff, capacityMissing_iff, capacityMissing_iff, ha.latestPath_eq,
    ha.sources.capacities]

variable (hm : (g₁.measure r₁).measurements = (g.measure r).measurements)
include hm

theorem Again.standing : g₁.standingReasons r₁ now = g.standingReasons r now := by
  unfold standingReasons measuredReasons protectionReasons
  rw [ha.evidenceSuspension_eq, ha.policySuspension_eq, ha.capacityMissing_eq, hm,
    ha.sources.policy]

/-- The rules of the second evaluation, where neither evidence nor policy suspends. -/
theorem Again.rules_eq (hrun : r.ledger.completed = false)
    (hevidence : (g.evidenceSuspension r now).1 = false)
    (hpolicy : (g.policySuspension now).1 = false) : ∃ p, g.policy = some p ∧
    g₁.verdict r₁ now = hysteresis p.hysteresis r₁ (g.measure r).measurements
      (g.enterVerdict (g.measure r).measurements) (g.exitVerdict (g.measure r).measurements) ∧
    (g₁.decisionTrace r₁ now).entries = g.enterTrace (g.measure r).measurements := by
  have hcalm : (g₁.suspensionReasons r₁ now).1 = false := by
    rw [ha.suspends, hevidence, hpolicy]
    rfl
  obtain ⟨p, hp, hv, htrace⟩ := RulesDecide.verdict_eq ⟨ha.ledger ▸ hrun, hcalm⟩
  unfold enterVerdict exitVerdict enterTrace at *
  rw [ha.sources.policy, ha.exitRules, hm] at hv
  rw [ha.sources.policy, hm] at htrace
  rw [ha.sources.policy] at hp
  exact ⟨p, hp, hv, htrace⟩

variable (hi : g₁.impactOn (g₁.measure r₁) = g.impactOn (g.measure r))
include hi

/-- The idempotency test of the second evaluation, over undisturbed measurements. -/
theorem Again.unchanged_eq :
    unchanged r₁ (g₁.candidate r₁ now) = true ↔
      (g₁.verdict r₁ now).state = (g.verdict r now).state ∧
      g.standingReasons r now ||| (g.withdrawnReasons r now ||| (g.verdict r now).reasons |||
          traceReasons (g.decisionTrace r now).entries) =
        g.standingReasons r now ||| ((g₁.verdict r₁ now).reasons |||
          traceReasons (g₁.decisionTrace r₁ now).entries) := by
  have hreasons : (g₁.candidate r₁ now).reasons = g.standingReasons r now |||
      ((g₁.verdict r₁ now).reasons ||| traceReasons (g₁.decisionTrace r₁ now).entries) := by
    rw [candidate_reasons, ha.standing hm, ha.withdrawn, ReasonCode.none_or]
  unfold unchanged
  simp only [ha.classified, ha.evaluated, ha.state, ha.reasons, ha.authority, ha.measurements,
    ha.impact, hreasons, candidate_state, candidate_measurements, candidate_impact, hm, hi,
    Bool.not_false, Bool.and_true, Bool.true_and, decide_true, Bool.and_eq_true, decide_eq_true_eq]
  rw [candidate_reasons]
  constructor
  · rintro ⟨⟨hstate, -⟩, heq⟩
    exact ⟨hstate.symm, heq⟩
  · rintro ⟨hstate, heq⟩
    exact ⟨⟨hstate.symm, (candidate_authority_congr ha.sources.policy hm hstate).symm⟩, heq⟩

/-- A completed flow: only the reasons of a suspended Elephant are lost. -/
theorem Again.unchanged_completed (hdone : r.ledger.completed = true) :
    unchanged r₁ (g₁.candidate r₁ now) = true ↔ ∃ elephant, Settles g r now elephant := by
  have hfirst : g.verdict r now = ⟨.notElephant, 0, 0, .flowCompleted⟩ := by
    unfold verdict
    simp only [hdone, if_true]
  have hsecond : g₁.verdict r₁ now = ⟨.notElephant, 0, 0, .flowCompleted⟩ := by
    unfold verdict
    simp only [ha.ledger, hdone, if_true]
  have htrace : (g.decisionTrace r now).entries = [] := by
    unfold decisionTrace
    simp [hdone]
  have htrace₁ : (g₁.decisionTrace r₁ now).entries = [] := by
    unfold decisionTrace
    simp [ha.ledger, hdone]
  rw [ha.unchanged_eq hm hi, hfirst, hsecond, htrace, htrace₁]
  by_cases hcalm : r.isElephant = false ∨ (g.suspensionReasons r now).1 = false
  · rw [withdrawnReasons_none hcalm, ReasonCode.none_or]
    refine iff_of_true ⟨rfl, rfl⟩ ?_
    by_cases hel : previousState r = .elephant
    · refine ⟨_, .completed hel hdone ?_⟩
      rw [← isElephant_iff] at hel
      simpa [hel] using hcalm
    · refine ⟨_, .outside hel fun henters => ?_⟩
      have hrun := henters.rules.running
      rw [hdone] at hrun
      cases hrun
  · rw [not_or, Bool.not_eq_false, Bool.not_eq_false] at hcalm
    apply iff_of_false
    · -- the reason to revalidate goes with the state
      rintro ⟨-, heq⟩
      exact withdrawn_lost hcalm.2 hcalm.1 rfl heq
    · rintro ⟨elephant, hsettles⟩
      have hrun := (hsettles.of_suspended hcalm.1 hcalm.2).1
      rw [hdone] at hrun
      cases hrun

/-- A flow that the second evaluation finds suspended as well. -/
theorem Again.unchanged_suspended (hrun : r.ledger.completed = false)
    (hs : (g.evidenceSuspension r now).1 = true ∨ (g.policySuspension now).1 = true) :
    unchanged r₁ (g₁.candidate r₁ now) = true ↔ ∃ elephant, Settles g r now elephant := by
  have hfirst : (g.suspensionReasons r now).1 = true := by
    unfold suspensionReasons
    rcases hs with hs | hs
    · simp [hs]
    · simp [hs]
  have hsecond : (g₁.suspensionReasons r₁ now).1 = true := by
    rw [ha.suspends, Bool.or_eq_true]
    exact hs
  have hv := verdict_of_suspended hrun hfirst
  have hv₁ := verdict_of_suspended (ha.ledger ▸ hrun) hsecond
  have hstate : (g₁.verdict r₁ now).state = (g.verdict r now).state := by
    rw [hv₁, ha.previousState_eq, ha.classified, hv]
    simp only [Bool.true_and]
    split_ifs <;> simp_all
  have htrace : (g.decisionTrace r now).entries = [] := by
    unfold decisionTrace
    simp [hfirst]
  have htrace₁ : (g₁.decisionTrace r₁ now).entries = [] := by
    unfold decisionTrace
    simp [hsecond]
  have hreasons : (g.verdict r now).reasons = .none := by rw [hv]
  have hreasons₁ : (g₁.verdict r₁ now).reasons = .none := by rw [hv₁]
  rw [ha.unchanged_eq hm hi, htrace, htrace₁, hreasons, hreasons₁]
  cases hel : r.isElephant with
  | false =>
    rw [withdrawnReasons_none (.inl hel), ReasonCode.none_or]
    refine iff_of_true ⟨hstate, rfl⟩ ⟨_, .outside ?_ fun henters => ?_⟩
    · rw [ne_eq, ← isElephant_iff, hel]
      exact Bool.false_ne_true
    · have hcalm := henters.rules.calm
      rw [hfirst] at hcalm
      cases hcalm
  | true =>
    apply iff_of_false
    · rintro ⟨-, heq⟩
      exact withdrawn_lost hfirst hel rfl heq
    · rintro ⟨elephant, hsettles⟩
      obtain ⟨-, hevidence, hpolicy, -⟩ := hsettles.of_suspended hel hfirst
      rw [hevidence, hpolicy] at hs
      rcases hs with hs | hs
      all_goals cases hs

/-- An Elephant suspended for its authority vector alone waits for evidence: the second evaluation
keeps its reasons, and adds those of the trace. -/
theorem Again.unchanged_fenced (hrun : r.ledger.completed = false)
    (hevidence : (g.evidenceSuspension r now).1 = false) (hpolicy : (g.policySuspension now).1 = false)
    (hauthority : (g.authoritySuspension r now).1 = true) :
    unchanged r₁ (g₁.candidate r₁ now) = true ↔ ∃ elephant, Settles g r now elephant := by
  have hel : r.isElephant = true := by
    by_contra hno
    rw [authoritySuspension_outside (by simpa using hno)] at hauthority
    cases hauthority
  have hprev := isElephant_iff.mp hel
  have hfirst : (g.suspensionReasons r now).1 = true := by
    unfold suspensionReasons
    simp [hauthority]
  have hclassified : r.hasClassification = true := by
    unfold FlowRecord.isElephant at hel
    exact (Bool.and_eq_true_iff.mp hel).1
  have hv : g.verdict r now = ⟨.suspended, 0, 0, .none⟩ := by
    rw [verdict_of_suspended hrun hfirst, hprev, hclassified]
    rfl
  have htrace : (g.decisionTrace r now).entries = [] := by
    unfold decisionTrace
    simp [hfirst]
  obtain ⟨p, -, hv₁, htrace₁⟩ := ha.rules_eq hm hrun hevidence hpolicy
  rw [hysteresis_again ha.evaluated, ha.previousState_eq, hv] at hv₁
  simp only [reduceCtorEq, if_false, if_true] at hv₁
  rw [ha.unchanged_eq hm hi, htrace, htrace₁, hv, hv₁, ha.reasons, candidate_reasons, htrace, hv]
  constructor
  · rintro ⟨-, heq⟩
    refine ⟨_, .fenced hprev hrun hevidence hpolicy hauthority fun e he => ?_⟩
    refine (traceReason_cases e).resolve_right fun hbit => ?_
    have htraced : hasReason (traceReasons (g.enterTrace (g.measure r).measurements))
        thresholdMask = true := by
      rw [hasReason_traceReasons]
      exact List.any_eq_true.mpr ⟨e, he, hbit⟩
    have hmask : hasReason standingMask thresholdMask = false := rfl
    have hboth := congrArg (hasReason · thresholdMask) heq
    simp only [ReasonCode.hasReason_or, htraced, hasReason_standingReasons hmask,
      hasReason_withdrawnReasons, Bool.or_true] at hboth
    cases hboth
  · rintro ⟨elephant, hsettles⟩
    obtain ⟨-, -, -, hsilent⟩ := hsettles.of_suspended hel hfirst
    refine ⟨rfl, ?_⟩
    rw [traceReasons_eq_none hsilent, withdrawnReasons, hfirst, hel]
    simp only [Bool.and_self, if_true, ReasonCode.or_none]
    ac_rfl

theorem Again.unchanged_rules (hrules : RulesDecide g r now) : ∃ p, g.policy = some p ∧
    g.verdict r now = hysteresis p.hysteresis r (g.measure r).measurements
      (g.enterVerdict (g.measure r).measurements) (g.exitVerdict (g.measure r).measurements) ∧
    g₁.verdict r₁ now = hysteresis p.hysteresis r₁ (g.measure r).measurements
      (g.enterVerdict (g.measure r).measurements) (g.exitVerdict (g.measure r).measurements) ∧
    r₁.classification.reasons = g.standingReasons r now ||| ((g.verdict r now).reasons |||
      traceReasons (g.enterTrace (g.measure r).measurements)) ∧
    (unchanged r₁ (g₁.candidate r₁ now) = true ↔
      (g₁.verdict r₁ now).state = (g.verdict r now).state ∧
      g.standingReasons r now ||| ((g.verdict r now).reasons |||
          traceReasons (g.enterTrace (g.measure r).measurements)) =
        g.standingReasons r now ||| ((g₁.verdict r₁ now).reasons |||
          traceReasons (g.enterTrace (g.measure r).measurements))) := by
  obtain ⟨p, hp, hv, htrace⟩ := hrules.verdict_eq
  obtain ⟨hevidence, hpolicy, -⟩ := suspensionReasons_eq_false hrules.calm
  obtain ⟨p', hp', hv₁, htrace₁⟩ := ha.rules_eq hm hrules.running hevidence hpolicy
  obtain rfl : p = p' := Option.some.inj (hp.symm.trans hp')
  refine ⟨p, hp, hv, hv₁, ?_, ?_⟩
  · rw [ha.reasons, candidate_reasons, withdrawnReasons_none (.inr hrules.calm), htrace,
      ReasonCode.none_or]
  · rw [ha.unchanged_eq hm hi, withdrawnReasons_none (.inr hrules.calm), htrace, htrace₁,
      ReasonCode.none_or]

theorem Again.unchanged_elephant (hrules : RulesDecide g r now)
    (hprev : previousState r = .elephant) :
    unchanged r₁ (g₁.candidate r₁ now) = true ↔ ∃ elephant, Settles g r now elephant := by
  obtain ⟨p, hp, hv, hv₁, -, hiff⟩ := ha.unchanged_rules hm hi hrules
  rw [hiff]
  clear hiff
  by_cases hleave : Leaves g r now
  · obtain ⟨-, hbelow, p', hp', hconfirmed⟩ := id hleave
    obtain rfl : p = p' := Option.some.inj (hp.symm.trans hp')
    rw [hbelow] at hv hv₁
    rw [hysteresis_leaves hprev hconfirmed] at hv
    rw [hysteresis_again ha.evaluated, ha.previousState_eq, hv] at hv₁
    simp only [reduceCtorEq, if_false] at hv₁
    rw [hv, hv₁]
    have honly : (∃ elephant, Settles g r now elephant) ↔
        g.enterVerdict (g.measure r).measurements = .false ∧
        ∃ e ∈ g.enterTrace (g.measure r).measurements, e.result = .false ∧
          (e.kind = .sustainedRate ∨ e.kind = .peakRate) := by
      constructor
      · rintro ⟨elephant, hsettles⟩
        cases hsettles with
        | outside hprevious => exact absurd hprev hprevious
        | stays _ _ hkeep => exact absurd hleave hkeep
        | completed _ hdone =>
          rw [hrules.running] at hdone
          cases hdone
        | fenced _ _ _ _ hauthority =>
          rw [(suspensionReasons_eq_false hrules.calm).2.2] at hauthority
          cases hauthority
        | leaves _ _ henter hrate => exact ⟨henter, hrate⟩
      · rintro ⟨henter, hrate⟩
        exact ⟨_, .leaves hprev hleave henter hrate⟩
    rw [honly]
    cases henter : g.enterVerdict (g.measure r).measurements with
    | true =>
      refine iff_of_false ?_ fun hc => by cases hc.1
      rw [if_pos rfl]
      split_ifs
      · rintro ⟨hstate, -⟩
        cases hstate
      · -- the rule that holds gives a reason that leaving does not
        rintro ⟨-, heq⟩
        have hmask : hasReason standingMask .policyRuleSatisfied = false := rfl
        have htmask : hasReason thresholdMask .policyRuleSatisfied = false := rfl
        have hbit := congrArg (hasReason · .policyRuleSatisfied) heq
        simp only [ReasonCode.hasReason_or, hasReason_standingReasons hmask,
          hasReason_traceReasons_of_mask htmask] at hbit
        cases hbit
    | unknown =>
      refine iff_of_false ?_ fun hc => by cases hc.1
      rintro ⟨hstate, -⟩
      cases hstate
    | false =>
      simp only [reduceCtorEq, if_false, true_and]
      constructor
      · intro heq
        have hmask : hasReason standingMask .belowRateThreshold = false := rfl
        have hbit := congrArg (hasReason · .belowRateThreshold) heq
        simp only [ReasonCode.hasReason_or, hasReason_standingReasons hmask, Bool.false_or] at hbit
        rw [show hasReason .policyRuleNotSatisfied .belowRateThreshold = false from rfl,
          show hasReason .belowRateThreshold .belowRateThreshold = true from rfl,
          hasReason_traceReasons] at hbit
        obtain ⟨e, he, hrate⟩ := List.any_eq_true.mp hbit.symm
        exact ⟨e, he, traceReason_belowRate.mp hrate⟩
      · rintro ⟨e, he, hrate⟩
        have hreason : traceReason e = .belowRateThreshold := by
          unfold traceReason
          rcases hrate with ⟨hresult, hkind | hkind⟩
          · rw [hresult, hkind]
          · rw [hresult, hkind]
        have hmem := traceReasons_or_mem he
        rw [hreason] at hmem
        calc g.standingReasons r now ||| (.policyRuleNotSatisfied ||| .belowRateThreshold |||
              traceReasons (g.enterTrace (g.measure r).measurements))
            = g.standingReasons r now ||| (.policyRuleNotSatisfied ||| (.belowRateThreshold |||
              traceReasons (g.enterTrace (g.measure r).measurements))) := by ac_rfl
          _ = _ := by rw [hmem]
  · have hkeep : ¬ (g.exitVerdict (g.measure r).measurements = .false ∧
        p.hysteresis.exitConfirmWindows ≤ countedStreak r r.exitStreak) :=
      fun hc => hleave ⟨hrules, hc.1, p, hp, hc.2⟩
    obtain ⟨streak, hshort, hstays⟩ := hysteresis_stays hprev hkeep
    rw [hstays] at hv
    rw [hysteresis_again ha.evaluated, ha.previousState_eq, ha.exitStreak, hv, if_pos rfl,
      if_neg hshort] at hv₁
    rw [hv, hv₁]
    exact iff_of_true ⟨rfl, rfl⟩ ⟨_, .stays hprev hrules hleave⟩

theorem Again.unchanged_outside (hrules : RulesDecide g r now)
    (hprev : previousState r ≠ .elephant) :
    unchanged r₁ (g₁.candidate r₁ now) = true ↔ ¬ Enters g r now := by
  obtain ⟨p, hp, hv, hv₁, hreasons, hiff⟩ := ha.unchanged_rules hm hi hrules
  obtain ⟨streak, hout⟩ := hysteresis_outside hprev p.hysteresis (g.measure r).measurements
    (g.enterVerdict (g.measure r).measurements) (g.exitVerdict (g.measure r).measurements)
  rw [hout] at hv
  rw [hysteresis_again ha.evaluated, ha.previousState_eq, ha.enterStreak, hreasons] at hv₁
  rw [hiff]
  clear hiff hout hreasons
  by_cases hwait : newEvidence r = false ∧ previousState r = .suspended
  · -- the suspension stands, and the reasons have been gathered already
    rw [if_pos hwait] at hv
    rw [hv] at hv₁ ⊢
    simp only [reduceCtorEq, if_false, if_true] at hv₁
    rw [hv₁]
    refine iff_of_true ⟨rfl, ?_⟩ fun henters => ?_
    · simp only
      ac_rfl
    · rcases henters.revalidated with hnew | hne
      · rw [hwait.1] at hnew
        cases hnew
      · exact hne hwait.2
  rw [if_neg hwait] at hv
  have hnot : g.enterVerdict (g.measure r).measurements ≠ .true → ¬ Enters g r now :=
    fun hne henters => hne henters.entered
  cases henter : g.enterVerdict (g.measure r).measurements with
  | true =>
    simp only [henter, if_true] at hv hv₁
    by_cases hlong : p.hysteresis.enterConfirmWindows ≤ countedStreak r r.enterStreak
    · rw [if_pos hlong] at hv
      rw [hv] at hv₁ ⊢
      simp only [if_true] at hv₁
      apply iff_of_false
      · -- an Elephant reports how it stands against its exit rule
        rw [hv₁]
        split_ifs
        · rintro ⟨hstate, -⟩
          cases hstate
        all_goals
          rintro ⟨-, heq⟩
          have hmask : hasReason standingMask (.hysteresisHeld ||| .exitThresholdNotReached) = false :=
            rfl
          have htmask : hasReason thresholdMask (.hysteresisHeld ||| .exitThresholdNotReached) =
            false := rfl
          have hbit := congrArg (hasReason · (.hysteresisHeld ||| .exitThresholdNotReached)) heq
          simp only [ReasonCode.hasReason_or, hasReason_standingReasons hmask,
            hasReason_traceReasons_of_mask htmask] at hbit
          cases hbit
      · rw [not_not]
        refine ⟨hrules, ?_, henter, p, hp, hlong⟩
        rw [not_and_or, Bool.not_eq_false] at hwait
        exact hwait
    · rw [if_neg hlong] at hv
      rw [hv] at hv₁ ⊢
      simp only [reduceCtorEq, if_false, ge_iff_le, if_neg hlong] at hv₁
      rw [hv₁]
      refine iff_of_true ⟨rfl, rfl⟩ fun henters => hlong ?_
      obtain ⟨p', hp', hconfirmed⟩ := henters.confirmed
      rw [Option.some.inj (hp.symm.trans hp')]
      exact hconfirmed
  | unknown =>
    replace hnot := hnot (by simp [henter])
    simp only [henter, reduceCtorEq, if_false, if_true] at hv hv₁
    by_cases hsus : previousState r = .suspended
    · rw [if_pos hsus] at hv
      rw [hv] at hv₁ ⊢
      simp only [reduceCtorEq, if_false, if_true] at hv₁
      rw [hv₁]
      refine iff_of_true ⟨rfl, ?_⟩ hnot
      simp only
      ac_rfl
    · rw [if_neg hsus] at hv
      rw [hv] at hv₁ ⊢
      simp only [reduceCtorEq, if_false] at hv₁
      rw [hv₁]
      exact iff_of_true ⟨rfl, rfl⟩ hnot
  | false =>
    replace hnot := hnot (by simp [henter])
    simp only [henter, reduceCtorEq, if_false] at hv hv₁
    rw [hv] at hv₁ ⊢
    simp only [reduceCtorEq, if_false] at hv₁
    rw [hv₁]
    exact iff_of_true ⟨rfl, rfl⟩ hnot

/-- **When a second evaluation repeats the first.**  Over undisturbed measurements it does so exactly
if the first one reached a state that settles. -/
theorem Again.unchanged_iff :
    unchanged r₁ (g₁.candidate r₁ now) = true ↔ ∃ elephant, Settles g r now elephant := by
  by_cases hdone : r.ledger.completed = true
  · exact ha.unchanged_completed hm hi hdone
  rw [Bool.not_eq_true] at hdone
  by_cases hs : (g.evidenceSuspension r now).1 = true ∨ (g.policySuspension now).1 = true
  · exact ha.unchanged_suspended hm hi hdone hs
  rw [not_or, Bool.not_eq_true, Bool.not_eq_true] at hs
  by_cases hauthority : (g.authoritySuspension r now).1 = true
  · exact ha.unchanged_fenced hm hi hdone hs.1 hs.2 hauthority
  rw [Bool.not_eq_true] at hauthority
  have hrules : RulesDecide g r now := by
    refine ⟨hdone, ?_⟩
    unfold suspensionReasons
    simp [hs, hauthority]
  by_cases hprev : previousState r = .elephant
  · exact ha.unchanged_elephant hm hi hrules hprev
  · rw [ha.unchanged_outside hm hi hrules hprev]
    constructor
    · exact fun hout => ⟨_, .outside hprev hout⟩
    · rintro ⟨elephant, hsettles⟩
      cases hsettles with
      | outside _ hout => exact hout
      | stays hel => exact absurd hel hprev
      | completed hel => exact absurd hel hprev
      | fenced hel => exact absurd hel hprev
      | leaves hel => exact absurd hel hprev

end Again

/-! ## The binding that the first evaluation writes -/

/-- The flow bound to what was measured for it, as an Elephant or not. -/
def boundAnew (g : Governor) (r : FlowRecord) (elephant : Bool) : Governor × FlowRecord :=
  g.updateIndex ⟨r.ledger.flow, r.ledger.generation⟩
    { r with
      hasClassification := true
      classification := { r.classification with
        measurements := (g.measure r).measurements
        state := if elephant then .elephant else .notElephant } }

/-- What is measured for the flow once it is bound to what was measured for it. -/
def remeasured (g : Governor) (r : FlowRecord) (elephant : Bool) : Measured :=
  (g.boundAnew r elephant).1.measure (g.boundAnew r elephant).2

/-- Binding the flow to what was measured for it does not disturb the measurement. -/
structure Undisturbed (g : Governor) (r : FlowRecord) (elephant : Bool) : Prop where
  measurements : (g.remeasured r elephant).measurements = (g.measure r).measurements
  impact : g.impactOn (g.remeasured r elephant) = g.impactOn (g.measure r)

/-- Binding the flow disturbs the measurement, and a digest does not tell. -/
def Collides (g : Governor) (r : FlowRecord) (elephant : Bool) : Prop :=
  (g.remeasured r elephant).measurements.digest = (g.measure r).measurements.digest ∧
    (g.impactOn (g.remeasured r elephant)).digest = (g.impactOn (g.measure r)).digest ∧
    ((g.remeasured r elephant).measurements ≠ (g.measure r).measurements ∨
      g.impactOn (g.remeasured r elephant) ≠ g.impactOn (g.measure r))

/-- A measurement reads the ledger, the tables, the aggregates and the binding of the record. -/
theorem measure_congr (hledger : r₁.ledger = r.ledger) (hpaths : g₁.paths = g.paths)
    (hcapacities : g₁.capacities = g.capacities)
    (haggregate : g₁.resourceAggregate = g.resourceAggregate) (hbound : r₁.bound = r.bound)
    (hresource : r₁.boundResource = r.boundResource) (hshare : r₁.boundShare = r.boundShare)
    (helephant : r₁.boundElephant = r.boundElephant) : g₁.measure r₁ = g.measure r := by
  unfold measure latestPath competing contentionOn
  rw [hledger, hpaths, hcapacities, haggregate, hbound, hresource, hshare, helephant]

/-- The aggregates that `update_index` leaves depend on the index, the aggregates and the binding. -/
theorem updateIndex_aggregate_congr (hindex : g₁.bindingIndex = g.bindingIndex)
    (haggregate : g₁.resourceAggregate = g.resourceAggregate) (hbound : r₁.bound = r.bound)
    (hresource : r₁.boundResource = r.boundResource)
    (hclassified : r₁.hasClassification = r.hasClassification)
    (hm : r₁.classification.measurements = r.classification.measurements)
    (hstate : r₁.classification.state = .elephant ↔ r.classification.state = .elephant)
    (key : FlowKey) :
    (g₁.updateIndex key r₁).1.resourceAggregate = (g.updateIndex key r).1.resourceAggregate := by
  have hunbind : (g₁.unbind key r.boundResource).bindingIndex =
        (g.unbind key r.boundResource).bindingIndex ∧
      (g₁.unbind key r.boundResource).resourceAggregate =
        (g.unbind key r.boundResource).resourceAggregate := by
    unfold unbind
    rw [hindex, haggregate]
    rcases g.bindingIndex[r.boundResource]? with _ | entries
    · exact ⟨hindex, haggregate⟩
    simp only
    rcases entries[key]? with _ | entry
    · exact ⟨hindex, haggregate⟩
    · exact ⟨rfl, rfl⟩
  unfold updateIndex bind
  simp only [hclassified, hm, hstate, hbound, hresource]
  split_ifs
  · exact hunbind.2
  · exact haggregate
  · simp only [hunbind.2]
  · simp only [haggregate]

/-! ## The first evaluation -/

theorem Commits.impact (hc : g.Commits r now c h) : c.impact = g.impactOn (g.measure r) := by
  obtain ⟨_, -, heq⟩ := hc.identity
  rw [← candidate_impact g r now]
  exact (congrArg FlowClassification.impact heq).trans rfl

/-- What a commit leaves is what a second evaluation starts from. -/
theorem Commits.again (hc : g.Commits r now c h) (hsources : SameSources g g')
    (hexit : g'.exitRules = g.exitRules) :
    Again g r now g' (rebound (committedRecord r (stamped c h) h now)) := by
  obtain ⟨authority, hauthority, hid⟩ := hc.identity
  have hsettled := hc.settled
  have hlive : g'.buildAuthority (rebound (committedRecord r (stamped c h) h now)) now =
      .ok authority := by
    rw [hsources.buildAuthority, buildAuthority_congr hsettled.ledger]
    exact hauthority
  have hmatched : (stamped c h).authorityVector.compare authority = .matched := by
    show c.authorityVector.compare authority = .matched
    rw [hid]
    exact compare_identified _ _ _ _
  refine ⟨hsources, hexit, hsettled.ledger, hsettled.classified, hsettled.state, ?_, ?_, ?_, ?_,
    hsettled.evaluated, hsettled.enterStreak, hsettled.exitStreak, ?_⟩
  · rw [rebound_classification]
    show c.reasons = _
    rw [hid]
    rfl
  · rw [rebound_classification]
    exact hc.authority
  · rw [rebound_classification]
    exact hc.measurements
  · rw [rebound_classification]
    exact hc.impact
  · unfold authoritySuspension
    rw [hlive, rebound_classification]
    simp only [committedRecord, hmatched]
    split_ifs
    · rfl
    · rfl

theorem Commits.measure_eq (hc : g.Commits r now c h) (hpaths : g'.paths = g.paths)
    (hcapacities : g'.capacities = g.capacities)
    (haggregate : g'.resourceAggregate = ({ g with classificationSequence :=
      g.classificationSequence + 1 }.settle r (stamped c h) h now).1.resourceAggregate) :
    g'.measure (rebound (committedRecord r (stamped c h) h now)) =
      g.remeasured r ((g.verdict r now).state = .elephant) := by
  obtain ⟨counters, hrevoked⟩ := revokeSuspended_eq
    ({ g with classificationSequence := g.classificationSequence + 1 }.count
      (countCommit r (stamped c h))) (stamped c h)
  have hkey : (⟨(stamped c h).flow, (stamped c h).flowGeneration⟩ : FlowKey) =
      ⟨r.ledger.flow, r.ledger.generation⟩ := by
    rw [stamped_flow, stamped_flowGeneration, hc.flow, hc.flowGeneration]
  have hm : (stamped c h).measurements = (g.measure r).measurements := hc.measurements
  have hstate : (stamped c h).state = .elephant ↔
      (if decide ((g.verdict r now).state = .elephant) then ElephantState.elephant
        else .notElephant) = .elephant := by
    rw [stamped_state, hc.state]
    by_cases hel : (g.verdict r now).state = .elephant
    · simp [hel]
    · simp [hel]
  unfold settle at haggregate
  rw [hkey, hrevoked] at haggregate
  unfold remeasured
  have hinputs := sameInputs_updateIndex g ⟨r.ledger.flow, r.ledger.generation⟩
    { r with
      hasClassification := true
      classification := { r.classification with
        measurements := (g.measure r).measurements
        state := if decide ((g.verdict r now).state = .elephant) then .elephant
          else .notElephant } }
  apply measure_congr
  · unfold boundAnew
    rw [updateIndex_snd, rebound_ledger, rebound_ledger]
    rfl
  · exact hpaths.trans hinputs.paths.symm
  · exact hcapacities.trans hinputs.capacities.symm
  · refine haggregate.trans ?_
    unfold boundAnew
    refine updateIndex_aggregate_congr ?_ ?_ ?_ ?_ ?_ hm hstate _
    all_goals rfl
  all_goals
    unfold boundAnew
    rw [updateIndex_snd]
    unfold rebound committedRecord
    simp only [hm, hstate]
    split_ifs
    all_goals rfl

/-- The flag of a settled record is the state that its evaluation reaches. -/
theorem Settles.elephant_iff {elephant : Bool} (hs : Settles g r now elephant) :
    (g.verdict r now).state = .elephant ↔ elephant = true := by
  cases hs with
  | outside hprevious hout =>
    refine iff_of_false (fun hel => hout ?_) Bool.false_ne_true
    obtain ⟨hrun, hcalm, -⟩ := of_verdict_elephant hel
    have hrules : RulesDecide g r now := ⟨hrun, hcalm⟩
    obtain ⟨p, hp, hv, -⟩ := hrules.verdict_eq
    obtain ⟨streak, heq⟩ := hysteresis_outside hprevious p.hysteresis (g.measure r).measurements
      (g.enterVerdict (g.measure r).measurements) (g.exitVerdict (g.measure r).measurements)
    rw [hv, heq] at hel
    split_ifs at hel with hwait henter hlong
    rw [not_and_or, Bool.not_eq_false] at hwait
    exact ⟨hrules, hwait, henter, p, hp, hlong⟩
  | stays hprevious hrules hkeep =>
    obtain ⟨p, hp, hv, -⟩ := hrules.verdict_eq
    obtain ⟨streak, -, heq⟩ := hysteresis_stays hprevious
      (fun hc => hkeep ⟨hrules, hc.1, p, hp, hc.2⟩)
    rw [hv, heq]
    exact iff_of_true rfl rfl
  | completed _ hdone =>
    refine iff_of_false (fun hel => ?_) Bool.false_ne_true
    rw [(of_verdict_elephant hel).1] at hdone
    cases hdone
  | fenced _ _ _ _ hauthority =>
    refine iff_of_false (fun hel => ?_) Bool.false_ne_true
    rw [(suspensionReasons_eq_false (of_verdict_elephant hel).2.1).2.2] at hauthority
    cases hauthority
  | leaves hprevious hleave =>
    obtain ⟨hrules, hbelow, p', hp', hconfirmed⟩ := hleave
    obtain ⟨p, hp, hv, -⟩ := hrules.verdict_eq
    obtain rfl : p = p' := Option.some.inj (hp.symm.trans hp')
    rw [hv, hbelow, hysteresis_leaves hprevious hconfirmed]
    exact iff_of_false (by simp) Bool.false_ne_true

/-- A second evaluation at the tick of the first will repeat it: the first one repeated itself, or
it reaches a settled state and its binding does not disturb the measurement. -/
def Stable (g : Governor) (r : FlowRecord) (now : Tick) : Prop :=
  unchanged r (g.candidate r now) = true ∨
    ∃ elephant, Settles g r now elephant ∧ Undisturbed g r elephant

/-- After a commit the second evaluation repeats exactly from a stable record, digests that collide
apart. -/
theorem Commits.unchanged_iff (hc : g.Commits r now c h) (hsources : SameSources g g')
    (hexit : g'.exitRules = g.exitRules)
    (haggregate : g'.resourceAggregate = ({ g with classificationSequence :=
      g.classificationSequence + 1 }.settle r (stamped c h) h now).1.resourceAggregate)
    (hr₁ : r₁ = rebound (committedRecord r (stamped c h) h now)) :
    (Stable g r now → unchanged r₁ (g'.candidate r₁ now) = true) ∧
    (unchanged r₁ (g'.candidate r₁ now) = true →
      Stable g r now ∨ ∃ elephant, Collides g r elephant) := by
  have hagain : Again g r now g' r₁ := hr₁ ▸ hc.again hsources hexit
  have hmeasure : g'.measure r₁ = g.remeasured r ((g.verdict r now).state = .elephant) :=
    hr₁ ▸ hc.measure_eq hsources.paths hsources.capacities haggregate
  have himpact : g'.impactOn (g'.measure r₁) =
      g.impactOn (g.remeasured r ((g.verdict r now).state = .elephant)) := by
    rw [hmeasure]
    unfold impactOn
    rw [hsources.policy]
  have hflag : ∀ {elephant}, Settles g r now elephant →
      decide ((g.verdict r now).state = .elephant) = elephant := by
    intro elephant hsettles
    rw [Bool.eq_iff_iff, decide_eq_true_eq]
    exact hsettles.elephant_iff
  constructor
  · rintro (hrepeat | ⟨elephant, hsettles, hm, hi⟩)
    · rw [hc.changed] at hrepeat
      cases hrepeat
    · rw [hflag hsettles] at hmeasure himpact
      exact (hagain.unchanged_iff (by rw [hmeasure, hm]) (himpact.trans hi)).mpr ⟨elephant, hsettles⟩
  · intro hrepeat
    by_cases hsame : (g'.measure r₁).measurements = (g.measure r).measurements ∧
        g'.impactOn (g'.measure r₁) = g.impactOn (g.measure r)
    · obtain ⟨elephant, hsettles⟩ := (hagain.unchanged_iff hsame.1 hsame.2).mp hrepeat
      rw [himpact, hmeasure, hflag hsettles] at hsame
      exact .inl (.inr ⟨elephant, hsettles, hsame.1, hsame.2⟩)
    · -- the test compares digests, and they agree
      unfold unchanged at hrepeat
      simp only [Bool.and_eq_true, decide_eq_true_eq, candidate_measurements, candidate_impact,
        hagain.measurements, hagain.impact] at hrepeat
      refine .inr ⟨decide ((g.verdict r now).state = .elephant), ?_, ?_, ?_⟩
      · rw [← hmeasure]
        exact hrepeat.1.2.symm
      · rw [← himpact]
        exact hrepeat.2.symm
      · rw [← himpact, ← hmeasure]
        exact not_and_or.mp hsame

theorem classification_of_getElem? {flow : FlowId}
    (hr : g.flows[(⟨flow, generation⟩ : FlowKey)]? = some r) :
    g.classification flow generation now =
      ((g.evaluateFlow ⟨flow, generation⟩ r now).1.map FlowDecision.classification,
        (g.evaluateFlow ⟨flow, generation⟩ r now).2) := by
  unfold classification
  rw [hr]
  simp only
  rcases g.evaluateFlow ⟨flow, generation⟩ r now with ⟨e | d, g'⟩
  · rfl
  · rfl

/-- What a successful first query leaves. -/
theorem classification_leaves {flow : FlowId}
    (hr : g.flows[(⟨flow, generation⟩ : FlowKey)]? = some r)
    (hfirst : g.classification flow generation now = (.ok c, g₁)) :
    ∃ r₁ : FlowRecord, g₁.flows[(⟨flow, generation⟩ : FlowKey)]? = some r₁ ∧
      r₁.evaluatedTick = now ∧ r₁.classification = c ∧ r₁.ledger = r.ledger ∧
      g₁.policy = g.policy ∧
      (Stable g r now → unchanged r₁ (g₁.candidate r₁ now) = true) ∧
      (unchanged r₁ (g₁.candidate r₁ now) = true →
        Stable g r now ∨ ∃ elephant, Collides g r elephant) := by
  rw [classification_of_getElem? hr, Prod.mk.injEq] at hfirst
  obtain ⟨hok, rfl⟩ := hfirst
  refine ⟨(g.evaluate r now).2.2, ?_, ?_⟩
  · rw [getElem?_evaluateFlow, if_pos rfl]
  have hok : (g.evaluate r now).1.map FlowDecision.classification = .ok c := hok
  have hpolicy : (g.evaluateFlow ⟨flow, generation⟩ r now).2.policy = g.policy :=
    (sameInputs_evaluate g r now).policy
  have hsources := sameSources_evaluateFlow g ⟨flow, generation⟩ r now
  rcases evaluate_cases g r now with ⟨e, _, _, heq⟩ | ⟨-, hu, heq⟩ | ⟨c', h', hc, heq⟩
  · rw [heq] at hok
    cases hok
  · rw [heq] at hok ⊢
    have hsame : unchanged { r with evaluatedTick := now }
        ((g.evaluateFlow ⟨flow, generation⟩ r now).2.candidate { r with evaluatedTick := now } now) =
        true := by
      unfold evaluateFlow
      rw [heq]
      exact hu
    exact ⟨rfl, Except.ok.inj hok, rfl, hpolicy, fun _ => hsame, fun _ => .inl (.inl hu)⟩
  · rw [heq, commit_snd_snd]
    refine ⟨?_, ?_, ?_, hpolicy, hc.unchanged_iff hsources (sameInputs_evaluate g r now).exitRules ?_ rfl⟩
    · rw [rebound_evaluatedTick]
      rfl
    · rw [rebound_classification]
      rw [heq] at hok
      rcases hd : (commit _ r c' h' now).1 with e | d
      · rw [hd] at hok
        cases hok
      · rw [hd] at hok
        rw [← Except.ok.inj hok]
        exact (commit_decision hd).symm
    · rw [rebound_ledger]
      rfl
    · show (g.evaluate r now).2.1.resourceAggregate = _
      obtain ⟨_, _, hproduced⟩ := produceIntents_snd
        ({ g with classificationSequence := g.classificationSequence + 1 }.settle r (stamped c' h') h'
          now).1 (rebound (committedRecord r (stamped c' h') h' now)) now
      rw [heq, commit_snd_fst, hproduced]

/-! ## The second call -/

/-- The answer repeats the classification, and the call took no identifier, wrote no history entry
and recorded no intent. -/
structure Repeats (c : FlowClassification) (key : FlowKey) (g₁ : Governor)
    (call : Except Status FlowClassification × Governor) : Prop where
  answer : ∃ c', call.1 = .ok c' ∧ c'.id = c.id ∧ c'.generation = c.generation ∧
    c'.state = c.state ∧ c'.authority = c.authority ∧ c'.reasons = c.reasons ∧ c'.digest = c.digest
  history : call.2.flows[key]?.map FlowRecord.history = g₁.flows[key]?.map FlowRecord.history
  intents : call.2.intents = g₁.intents
  identifiers : call.2.classificationSequence = g₁.classificationSequence

/-- An evaluation at the tick of the last one repeats its answer exactly if the idempotency test
finds nothing changed; the counters are not looked at. -/
theorem repeats_evaluateFlow (hr : g.flows[key]? = some r) (htick : r.evaluatedTick = now)
    (counters : GovernorCounters) :
    Repeats r.classification key g
      ((({ g with counters := counters }.evaluateFlow key r now).1.map FlowDecision.classification),
        ({ g with counters := counters }.evaluateFlow key r now).2) ↔
      unchanged r (g.candidate r now) = true := by
  have hcandidate : { g with counters := counters }.candidate r now = g.candidate r now := rfl
  have hfresh : ¬ (r.hasClassification = true ∧ now < r.evaluatedTick) := by
    rw [htick]
    exact fun hc => UInt64.lt_irrefl _ hc.2
  constructor
  · intro hrepeats
    rcases evaluate_cases { g with counters := counters } r now with
      ⟨e, _, _, heq⟩ | ⟨-, hu, -⟩ | ⟨c, h, hc, heq⟩
    · obtain ⟨c', hok, -⟩ := hrepeats.answer
      simp only [evaluateFlow, heq] at hok
      cases hok
    · exact hu
    · -- a new decision takes an identifier
      have hids := hrepeats.identifiers
      obtain ⟨_, _, _, _, hcommit⟩ := commit_governor
        { g with
          counters := counters
          classificationSequence := g.classificationSequence + 1 } r c h now
      simp only [evaluateFlow, heq, hcommit, setFlow] at hids
      exact absurd hids (by simp)
  · intro hu
    have heq : { g with counters := counters }.evaluateFlow key r now =
        (.ok { classification := r.classification },
          ({ g with counters := counters }.advance now).setFlow key { r with evaluatedTick := now }) := by
      unfold evaluateFlow evaluate
      simp only [if_neg hfresh, hcandidate, hu, if_true]
    rw [heq]
    refine ⟨⟨_, rfl, rfl, rfl, rfl, rfl, rfl, rfl⟩, ?_, rfl, rfl⟩
    rw [getElem?_setFlow, if_pos rfl, hr]
    rfl

theorem append_latest {l : FlowLedger} {s : FlowSample} (hl : l.WellFormed)
    (hs : l.latest = some s) : l.append s = (.ok .duplicateIgnored, l) := by
  have hmem : s ∈ l.samples := List.mem_of_getLast? hs
  obtain ⟨hflow, hgeneration, hvalid, -⟩ := hl.accepted s hmem
  have hprevious : l.hasPrevious = true := by
    rw [hl.previous, List.isEmpty_eq_false_iff.mpr (List.ne_nil_of_mem hmem)]
    rfl
  have hsummary := hl.summary s hs
  have hdigest : l.samples.getLast?.map FlowSample.digest = some s.digest := by
    rw [show l.samples.getLast? = some s from hs]
    rfl
  unfold FlowLedger.append
  simp only [hflow, hgeneration, ne_eq, not_true_eq_false, or_self, if_false, hvalid, hprevious,
    hsummary.sequence, hsummary.window, and_self, if_true, hdigest]

/-- The classification that a decision carries, with the governor. -/
def answered (call : Except Status FlowDecision × Governor) :
    Except Status FlowClassification × Governor :=
  (call.1.map FlowDecision.classification, call.2)

/-- The re-submission of the latest window is one more evaluation. -/
theorem answered_resubmission {s : FlowSample} (hr : g.flows[sampleKey s]? = some r)
    (hpolicy : g.policy ≠ none) (hl : r.ledger.WellFormed) (hs : r.ledger.latest = some s) :
    ∃ counters, answered (g.submitEvidence s) =
      answered ({ g with counters := counters }.evaluateFlow (sampleKey s) r (decisionTick s)) := by
  have hvalid : s.validate = .ok () := (hl.accepted s (List.mem_of_getLast? hs)).2.2.1
  refine ⟨countTaken g.counters .duplicateIgnored r.ledger s, ?_⟩
  rw [submitEvidence_of_tracked hr hpolicy hvalid]
  unfold applyEvidence
  rw [append_latest hl hs]
  simp only
  rw [show ({ r with ledger := r.ledger } : FlowRecord) = r from rfl]
  rw [show g.count (countTaken · .duplicateIgnored r.ledger s) =
    { g with counters := countTaken g.counters .duplicateIgnored r.ledger s } from rfl]
  rcases evaluateFlow _ (sampleKey s) r (decisionTick s) with ⟨e | d, g'⟩
  · rfl
  · rfl

/-- **Asking twice.**  After a successful query in a reachable governor, the same query at the same
tick repeats its answer if the record was stable before the first one, and only then, unless the
digests of two different measurements collide; and so does the re-submission of the latest window
of the flow, while there is a policy. -/
theorem asking_twice_repeats {config : GovernorConfig} (h : Reachable config g) {flow : FlowId}
    {generation : Generation} (hr : g.flows[(⟨flow, generation⟩ : FlowKey)]? = some r)
    (hfirst : g.classification flow generation now = (.ok c, g₁)) :
    (Stable g r now →
      Repeats c ⟨flow, generation⟩ g₁ (g₁.classification flow generation now)) ∧
    (Repeats c ⟨flow, generation⟩ g₁ (g₁.classification flow generation now) →
      Stable g r now ∨ ∃ elephant, Collides g r elephant) ∧
    ∀ s, r.ledger.latest = some s → decisionTick s = now →
      (Stable g r now → g.policy ≠ none →
        Repeats c ⟨flow, generation⟩ g₁ (answered (g₁.submitEvidence s))) ∧
      (Repeats c ⟨flow, generation⟩ g₁ (answered (g₁.submitEvidence s)) →
        g.policy ≠ none ∧ (Stable g r now ∨ ∃ elephant, Collides g r elephant)) := by
  obtain ⟨r₁, hr₁, htick, rfl, hledger, hpolicy, hsufficient, hnecessary⟩ :=
    classification_leaves hr hfirst
  have hsound := (h.justified.records _ r hr).tracked
  have hquery := repeats_evaluateFlow hr₁ htick g₁.counters
  rw [classification_of_getElem? hr₁]
  refine ⟨fun hstable => hquery.mpr (hsufficient hstable), fun hrepeats =>
    hnecessary (hquery.mp hrepeats), fun s hs hdecision => ?_⟩
  have hkey : sampleKey s = ⟨flow, generation⟩ := by
    obtain ⟨hflow, hgeneration, -⟩ := hsound.ledger.accepted s (List.mem_of_getLast? hs)
    unfold sampleKey
    rw [hflow, hgeneration, hsound.flow, hsound.generation]
  by_cases hp : g.policy = none
  · refine ⟨fun _ hne => absurd hp hne, fun hrepeats => ?_⟩
    obtain ⟨c', hok, -⟩ := hrepeats.answer
    unfold answered submitEvidence at hok
    rw [hpolicy, hp] at hok
    cases hok
  obtain ⟨counters, heq⟩ := answered_resubmission (hkey ▸ hr₁) (hpolicy ▸ hp)
    (hledger ▸ hsound.ledger) (hledger ▸ hs)
  rw [heq, hkey, hdecision]
  have hagain := repeats_evaluateFlow hr₁ htick counters
  exact ⟨fun hstable _ => hagain.mpr (hsufficient hstable),
    fun hrepeats => ⟨hp, hnecessary (hagain.mp hrepeats)⟩⟩

open Scenario

/-- In the small run at tick 20 the first query finds the Elephant standing, and the second repeats
it. -/
theorem asking_twice_standing : ∃ c g₁,
    governor.classification ⟨1⟩ ⟨1⟩ 20 = (.ok c, g₁) ∧
      Repeats c flowKey g₁ (g₁.classification ⟨1⟩ ⟨1⟩ 20) := by
  obtain ⟨r, hr, hprevious, hrun, hcalm, habove, hm, hi⟩ : ∃ r,
      governor.flows[flowKey]? = some r ∧ previousState r = .elephant ∧
      r.ledger.completed = false ∧ (governor.suspensionReasons r 20).1 = false ∧
      governor.exitVerdict (governor.measure r).measurements ≠ .false ∧
      (governor.remeasured r true).measurements = (governor.measure r).measurements ∧
      governor.impactOn (governor.remeasured r true) = governor.impactOn (governor.measure r) := by
    decide +kernel
  obtain ⟨c, hc⟩ : ∃ c, (governor.classification ⟨1⟩ ⟨1⟩ 20).1 = .ok c := by decide +kernel
  have hfirst : governor.classification ⟨1⟩ ⟨1⟩ 20 =
      (.ok c, (governor.classification ⟨1⟩ ⟨1⟩ 20).2) := Prod.ext hc rfl
  refine ⟨c, _, hfirst, (asking_twice_repeats reachable_governor hr hfirst).1 ?_⟩
  exact .inr ⟨true, .stays hprevious ⟨hrun, hcalm⟩ fun hleave => habove hleave.below, hm, hi⟩

/-- At tick 600 the evidence of the small run is stale.  The first query suspends the Elephant and
asks for revalidation; the second, at the same tick, drops that reason and takes a new identifier
and a new history entry for the same state. -/
theorem asking_twice_decides_twice :
    Reachable {} governor ∧
      okAnd (governor.classification ⟨1⟩ ⟨1⟩ 600).1 (fun c =>
        okAnd ((governor.classification ⟨1⟩ ⟨1⟩ 600).2.classification ⟨1⟩ ⟨1⟩ 600).1
          fun c' => c.state = .suspended && c'.state = .suspended && c'.id ≠ c.id &&
            hasReason c.reasons .revalidationRequired &&
            !hasReason c'.reasons .revalidationRequired && c'.digest ≠ c.digest) = true ∧
      (((governor.classification ⟨1⟩ ⟨1⟩ 600).2.classification ⟨1⟩ ⟨1⟩ 600).2.flows[
        flowKey]?.map fun r => r.history.entries.length) = some 3 := by
  refine ⟨reachable_governor, ?_⟩
  decide +kernel

end Governor

end EFG
