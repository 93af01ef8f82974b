/-
# Evaluating one flow

`Governor::evaluate` and what it calls: the suspension reasons, the live
authority vector, the measurements, the hysteresis decision, the protection
rules and the production of governance intents.  `evaluate` receives the record
by reference in the source; here it returns the new record next to the new
governor, and its caller writes the record back.
-/
import ElephantFlow.Fallible
import ElephantFlow.GovernorState

namespace EFG

open ByteCodec

namespace Governor

/-! ## Authority and suspension -/

/-- The path descriptor of the latest sample. -/
def latestPath (g : Governor) (record : FlowRecord) : Option PathDescriptor :=
  match record.ledger.latest with
  | none => none
  | some s => g.paths.find s.path

/-- The part of `build_authority` that reads the latest sample. -/
def sampleAuthority (v : AuthorityVector) (latest : Option FlowSample) : AuthorityVector :=
  match latest with
  | none => v
  | some s => { v with
      path := s.path
      pathGeneration := s.pathGeneration
      window := s.window
      windowSequence := s.windowSequence
      publisher := s.provenance.publisher.publisher
      publisherBoot := s.provenance.publisher.boot
      boundFlags := v.boundFlags ||| (kAuthorityPathBound ||| kAuthorityWindowBound |||
        kAuthorityPublisherBound) }

/-- The part of `build_authority` that reads the policy. -/
def policyAuthority (v : AuthorityVector) (policy : Option PolicyDocument) : AuthorityVector :=
  match policy with
  | none => v
  | some p => { v with policy := p.id, policyGeneration := p.generation }

/-- The part of `build_authority` that reads the binding capacity. -/
def capacityAuthority (v : AuthorityVector) (binding : Option (ResourceId × ResourceCapacity)) :
    AuthorityVector :=
  match binding with
  | none => v
  | some (_, c) => { v with
      capacity := c.snapshot
      capacityGeneration := c.generation
      boundFlags := v.boundFlags ||| kAuthorityCapacityBound }

/-- `build_authority`. -/
def buildAuthority (g : Governor) (record : FlowRecord) (now : Tick) :
    Except Status AuthorityVector :=
  let base : AuthorityVector :=
    { flow := record.ledger.flow
      flowGeneration := record.ledger.generation
      epoch := g.boot.epoch
      boot := g.boot.boot
      boundFlags := kAuthorityFlowBound ||| kAuthorityPolicyBound ||| kAuthorityEpochBound |||
        kAuthorityBootBound }
  let v := policyAuthority (sampleAuthority base record.ledger.latest) g.policy
  let v := capacityAuthority v (resolveBinding (g.latestPath record) g.capacities false now)
  match makeValidity now g.config.classificationValidityTicks with
  | .error e => .error e
  | .ok validity => .ok { v with validity := validity }

/-- The reason that `suspension_reasons` attaches to a diverging authority vector. -/
def verdictReason : BindingVerdict → ReasonCode
  | .flowGenerationChanged => .flowGenerationChanged
  | .pathGenerationChanged => .pathGenerationChanged
  | .policyGenerationChanged => .policyChanged
  | .capacityGenerationChanged => .capacityStale
  | .publisherChanged | .publisherIncarnationChanged | .epochChanged | .bootChanged | .absent =>
    .evidenceStale
  | .evidenceWindowSuperseded | .matched => .none

/-- Suspension by the evidence of the flow: latest sample, gap, path and capacity. -/
def evidenceSuspension (g : Governor) (record : FlowRecord) (now : Tick) : Bool × ReasonCode :=
  match record.ledger.latest with
  | none => (true, .evidenceMissing)
  | some latest =>
    let stale : Bool := !isFresh record.ledger.latestValidity now
    let gap := record.ledger.gapDetected
    let base := (if stale then ReasonCode.evidenceStale else .none) |||
      (if gap then ReasonCode.telemetryGap else .none)
    match g.paths.find latest.path with
    | none => (true, base ||| .pathUnknown)
    | some path =>
      if ¬ isFresh path.validity now then (true, base ||| .pathUnknown ||| .evidenceStale)
      else if (resolveBinding (some path) g.capacities true now).isNone then
        (true, base ||| .capacityStale ||| .capacityMissing)
      else (stale || gap, base)

/-- Suspension by the policy: absent or not fresh. -/
def policySuspension (g : Governor) (now : Tick) : Bool × ReasonCode :=
  match g.policy with
  | none => (true, .policyChanged)
  | some p => if isFresh p.validity now then (false, .none) else (true, .policyChanged)

/-- Suspension of an Elephant record whose authority vector no longer matches. -/
def authoritySuspension (g : Governor) (record : FlowRecord) (now : Tick) : Bool × ReasonCode :=
  if record.isElephant then
    match g.buildAuthority record now with
    | .error _ => (true, .revalidationRequired)
    | .ok live =>
      match record.classification.authorityVector.compare live with
      | .matched => (false, .none)
      | verdict => (true, .revalidationRequired ||| verdictReason verdict)
  else (false, .none)

/-- `suspension_reasons`: whether to suspend, and why. -/
def suspensionReasons (g : Governor) (record : FlowRecord) (now : Tick) : Bool × ReasonCode :=
  let e := g.evidenceSuspension record now
  let p := g.policySuspension now
  let a := g.authoritySuspension record now
  let suspend := e.1 || p.1 || a.1
  (suspend, e.2 ||| p.2 ||| a.2 |||
    (if suspend && record.isElephant then .revalidationRequired else .none))

/-! ## Measurements -/

/-- What the measurement block of `evaluate` computes. -/
structure Measured where
  measurements : FlowMeasurements := {}
  competingElephants : UInt32 := 0
  contention : BasisPoints := 0
  capacityMissing : Bool := false

/-- The competing population on the bound resource, without the record itself. -/
def competing (g : Governor) (record : FlowRecord) : UInt32 × UInt32 :=
  match record.bound, g.resourceAggregate[record.boundResource]? with
  | true, some agg =>
    (if agg.flows > 0 then agg.flows - 1 else agg.flows,
      if record.boundElephant ∧ agg.elephants > 0 then agg.elephants - 1 else agg.elephants)
  | _, _ => (0, 0)

/-- The summed share of the competing elephants on the binding resource, saturating. -/
def contentionOn (g : Governor) (record : FlowRecord) (m : FlowMeasurements) : BasisPoints :=
  if m.capacityKnown then
    match g.resourceAggregate[m.bindingResource]? with
    | none => 0
    | some agg =>
      let sum :=
        if record.bound ∧ record.boundElephant ∧ m.bindingResource = record.boundResource then
          if agg.elephantShareSum ≥ record.boundShare.toUInt64 then
            agg.elephantShareSum - record.boundShare.toUInt64
          else 0
        else agg.elephantShareSum
      if sum > kBasisPointsScale.toUInt64 then kBasisPointsScale else sum.toUInt32
  else 0

/-- The measurement block of `evaluate`. -/
def measure (g : Governor) (record : FlowRecord) : Measured :=
  let path := g.latestPath record
  let c := g.competing record
  match composeMeasurements record.ledger path g.capacities c.1 c.2 true with
  | .ok m =>
    { measurements := m, competingElephants := c.2, contention := g.contentionOn record m }
  | .error _ =>
    let m : FlowMeasurements := { record.ledger.measurements with
      pathKnown := path.isSome
      competingFlows := c.1
      competingElephants := c.2 }
    { measurements := m, competingElephants := c.2, contention := g.contentionOn record m
      capacityMissing := true }

/-! ## The decision -/

/-- `new_evidence`: the latest window has not been evaluated yet. -/
def newEvidence (record : FlowRecord) : Bool :=
  match record.ledger.latest with
  | none => false
  | some s => s.window ≠ record.evaluatedWindow

/-- `previous_state`. -/
def previousState (record : FlowRecord) : ElephantState :=
  if record.hasClassification then record.classification.state else .unknown

/-- The reason that a threshold trace entry adds. -/
def traceReason (e : ThresholdTraceEntry) : ReasonCode :=
  match e.result, e.kind with
  | .true, .cumulativeBytes => .volumeThresholdMet
  | .true, .durationTicks => .durationThresholdMet
  | .true, .sustainedRate | .true, .peakRate => .sustainedRateThresholdMet
  | .true, .shareOfCapacity | .true, .shareOfAvailable | .true, .excessOverGuarantee =>
    .resourceShareThresholdMet
  | .false, .cumulativeBytes => .belowVolumeThreshold
  | .false, .durationTicks => .belowDurationThreshold
  | .false, .sustainedRate | .false, .peakRate => .belowRateThreshold
  | .false, .shareOfCapacity | .false, .shareOfAvailable | .false, .excessOverGuarantee =>
    .belowShareThreshold
  | _, _ => .none

/-- The state, the streaks and the added reasons of one decision. -/
structure Verdict where
  state : ElephantState
  enterStreak : UInt32 := 0
  exitStreak : UInt32 := 0
  reasons : ReasonCode := .none
  deriving DecidableEq, Repr

/-- The streaks `(enter, exit)` before the state is decided: only new evidence moves them. -/
def nextStreaks (record : FlowRecord) (enter : Tri) (belowExit : Bool) : UInt32 × UInt32 :=
  if newEvidence record then
    if previousState record = .elephant then
      (record.enterStreak, if belowExit then record.exitStreak + 1 else 0)
    else (if enter = .true then record.enterStreak + 1 else 0, 0)
  else (record.enterStreak, record.exitStreak)

/-- The hysteresis branches of `evaluate`: the flow is neither completed nor suspended. -/
def hysteresis (h : HysteresisSpec) (record : FlowRecord) (m : FlowMeasurements) (enter exit : Tri) :
    Verdict :=
  let belowExit : Bool := exit = .false
  let previous := previousState record
  let streaks := nextStreaks record enter belowExit
  if previous = .elephant then
    if belowExit ∧ streaks.2 ≥ h.exitConfirmWindows then
      ⟨.notElephant, streaks.1, streaks.2, .policyRuleNotSatisfied ||| .belowRateThreshold⟩
    else
      ⟨.elephant, streaks.1, streaks.2, .policyRuleSatisfied |||
        (if belowExit then .hysteresisHeld else .exitThresholdNotReached)⟩
  else if ¬ newEvidence record ∧ previous = .suspended then
    -- Revalidation requires fresh evidence: the suspension stands as it is.
    ⟨.suspended, streaks.1, streaks.2, record.classification.reasons ||| .revalidationRequired⟩
  else if enter = .true then
    if streaks.1 ≥ h.enterConfirmWindows then
      ⟨.elephant, streaks.1, streaks.2, .policyRuleSatisfied⟩
    else ⟨.notElephant, streaks.1, streaks.2, .policyRuleSatisfied ||| .hysteresisHeld⟩
  else if enter = .unknown then
    let reasons := ReasonCode.policyRuleIndeterminate |||
      (if m.evidencePresent then .none else .evidenceMissing) |||
      (if m.capacityKnown then .none else .capacityMissing)
    if previous = .suspended then
      ⟨.suspended, streaks.1, streaks.2,
        reasons ||| record.classification.reasons ||| .revalidationRequired⟩
    else ⟨.unknown, streaks.1, streaks.2, reasons⟩
  else ⟨.notElephant, 0, streaks.2, .policyRuleNotSatisfied⟩

/-- The enter rule of the active policy on the measurements of a record. -/
def enterVerdict (g : Governor) (m : FlowMeasurements) : Tri :=
  match g.policy with
  | none => .unknown
  | some p => (p.enterRule.evaluate m {}).1

/-- The verdict of `evaluate`: completion first, then suspension, then the rules.  A missing
policy suspends, so the last branch always has one. -/
def verdict (g : Governor) (record : FlowRecord) (now : Tick) : Verdict :=
  let m := g.measure record
  if record.ledger.completed then ⟨.notElephant, 0, 0, .flowCompleted⟩
  else if (g.suspensionReasons record now).1 || m.capacityMissing then
    let pending := record.hasClassification &&
      (previousState record = .elephant || previousState record = .suspended)
    ⟨if pending then .suspended else .unknown, 0, 0, .none⟩
  else
    match g.policy with
    | none => ⟨.unknown, 0, 0, .none⟩
    | some p =>
      hysteresis p.hysteresis record m.measurements (g.enterVerdict m.measurements)
        (g.exitRules.evaluate m.measurements {}).1

/-- The trace of the enter rule, when the rules are consulted at all. -/
def decisionTrace (g : Governor) (record : FlowRecord) (now : Tick) : ThresholdTrace :=
  let m := g.measure record
  if record.ledger.completed || ((g.suspensionReasons record now).1 || m.capacityMissing) then {}
  else
    match g.policy with
    | none => {}
    | some p => (p.enterRule.evaluate m.measurements {}).2

/-- `enforce_protection`. -/
def enforceProtection (g : Governor) (c : FlowClassification) : FlowClassification :=
  match g.policy with
  | none => c
  | some p =>
    if ¬ p.authorization.protectObligations then c
    else
      let observeOnly (level : AuthorityLevel) : AuthorityLevel :=
        if level = .govern then .observe else level
      let m := c.measurements
      if m.protection = .unknown then
        { c with
          reasons := c.reasons ||| .evidenceUnknownField ||| .protectedObligation
          authority := observeOnly c.authority }
      else
        let classBound : Bool := m.serviceClass = .reserved || m.serviceClass = .control
        let obligation : Bool := m.protection = .protectedFlow || m.protection = .nonPreemptible ||
          m.hasReservation || classBound
        { c with
          reasons := c.reasons |||
            (if m.protection = .protectedFlow then .protectedObligation else .none) |||
            (if m.protection = .nonPreemptible then
              .protectedObligation ||| .nonPreemptibleObligation else .none) |||
            (if m.hasReservation then
              .protectedObligation ||| .reservedCapacityBounded else .none) |||
            (if classBound then .protectedObligation ||| .controlClassBounded else .none)
          authority := if obligation then observeOnly c.authority else c.authority }

/-- The candidate classification of `evaluate`, before identity and authority are attached. -/
def candidate (g : Governor) (record : FlowRecord) (now : Tick) : FlowClassification :=
  let m := g.measure record
  let v := g.verdict record now
  let trace := g.decisionTrace record now
  let reasons := (g.suspensionReasons record now).2 |||
    (if m.capacityMissing then .capacityMissing else .none) |||
    (if m.measurements.evidencePresent ∧ ¬ m.measurements.evidenceContiguous then
      .evidenceUnknownField else .none) |||
    v.reasons ||| trace.entries.foldl (fun acc e => acc ||| traceReason e) .none
  g.enforceProtection
    { flow := record.ledger.flow
      flowGeneration := record.ledger.generation
      decidedAt := now
      state := v.state
      authority := if v.state = .elephant then .govern else .none
      enterStreak := v.enterStreak
      exitStreak := v.exitStreak
      trace := trace.entries
      traceTruncated := trace.truncated
      measurements := m.measurements
      impact := match g.policy with
        | none => {}
        | some p => computeImpact m.measurements p m.contention m.competingElephants
      reasons := reasons }

/-! ## Intents -/

/-- `ceiling_bounds`. -/
def ceilingBounds (g : Governor) : IntentBounds :=
  match g.policy with
  | none => {}
  | some p =>
    { rateReductionBp := p.authorization.maxShapingReductionBp
      durationTicks := minOf g.config.intentDurationTicks p.authorization.maxIntentDurationTicks
      targets := p.authorization.maxTargets
      placement := p.authorization.allowAlternatePlacement
      isolation := p.authorization.allowSchedulingIsolation
      admissionReduction := p.authorization.allowCompetingAdmissionReduction
      congestionEscalation := p.authorization.allowCongestionEscalation }

/-- One call of the `emit` lambda of `produce_intents`. -/
structure IntentRequest where
  kind : IntentKind
  requested : IntentBounds
  state : IntentState := .authorized
  suppressed : SuppressReason := .none
  deriving DecidableEq, Repr

/-- The attempt identifier of an emitted intent. -/
def attemptOf (cls : FlowClassification) (kind : IntentKind) (now : Tick) : AttemptId :=
  let attempt := hasherDigest [le64 cls.flow.value, le64 cls.flowGeneration.value, [kind.toU8],
    le64 cls.generation.value, le64 cls.id.value, le64 now]
  ⟨if attempt = 0 then 1 else attempt⟩

/-- The intent that the `emit` lambda builds. -/
def intentOf (g : Governor) (cls : FlowClassification) (now : Tick) (r : IntentRequest) :
    GovernanceIntent where
  kind := r.kind
  flow := cls.flow
  flowGeneration := cls.flowGeneration
  classification := cls.id
  classificationGeneration := cls.generation
  state := r.state
  suppressed := r.suppressed
  requested := r.requested
  granted := if r.state = .suppressed then {} else narrowBounds r.requested g.ceilingBounds
  severity := cls.impact.severity
  contentionPressure := cls.impact.contentionPressure
  competingElephants := cls.impact.competingElephants
  window := ⟨now, saturatingAdd now
    (minOf g.config.intentDurationTicks g.ceilingBounds.durationTicks)⟩
  authority := cls.authorityVector
  provenance := match g.policy with
    | none => {}
    | some p => p.provenance
  attempt := attemptOf cls r.kind now

/-- The counters of a recorded intent. -/
def countEmitted (c : GovernorCounters) (state : IntentState) : GovernorCounters :=
  let c := { c with intentsProposed := c.intentsProposed + 1 }
  match state with
  | .clamped => { c with intentsClamped := c.intentsClamped + 1 }
  | .suppressed => { c with intentsSuppressed := c.intentsSuppressed + 1 }
  | .authorized => { c with intentsAuthorized := c.intentsAuthorized + 1 }
  | _ => c

/-- The tail of the `emit` lambda, after `record` on the ledger: an exhausted ledger budget reports a
suppressed intent instead. -/
def emitted (g : Governor) (intent : GovernanceIntent) :
    Except Status GovernanceIntent × IntentLedger → Except Status GovernanceIntent × Governor
  | (.ok stored, ledger) =>
    (.ok stored, { g with intents := ledger }.count (countEmitted · stored.state))
  | (.error e, ledger) =>
    if e.code = .capacityExceeded then
      (.ok ({ intent with
          state := .suppressed
          suppressed := .ledgerBudgetExhausted
          granted := {} } : GovernanceIntent).sealed,
        { g with intents := ledger }.count fun c =>
          { c with intentsSuppressed := c.intentsSuppressed + 1 })
    else (.error e, { g with intents := ledger })

/-- The `emit` lambda. -/
def emit (cls : FlowClassification) (now : Tick) (r : IntentRequest) :
    Fallible Status Governor GovernanceIntent := fun g =>
  g.emitted (g.intentOf cls now r) (g.intents.record (g.intentOf cls now r))

/-- The emits of `produce_intents` in order, stopping at the first error. -/
def emitAll (cls : FlowClassification) (now : Tick) :
    List IntentRequest → Fallible Status Governor (List GovernanceIntent) :=
  Fallible.collect (emit cls now)

/-- The lambda `already_live` over the intents that stood before the first emit. -/
def alreadyLive (live : List GovernanceIntent) (cls : FlowClassification) (now : Tick)
    (kind : IntentKind) : Bool :=
  live.any fun i => i.kind = kind && isLive i.state &&
    i.classificationGeneration = cls.generation && now ≥ i.window.beginAt && now < i.window.endAt

/-- A request that is made only under its condition. -/
def requestWhen (c : Bool) (r : IntentRequest) : List IntentRequest := if c then [r] else []

/-- The corrective requests of `produce_intents`, in order. -/
def correctiveRequests (g : Governor) (auth : IntentAuthorization) (cls : FlowClassification)
    (live : List GovernanceIntent) (now : Tick) : List IntentRequest :=
  let m := cls.measurements
  let base : IntentBounds := { durationTicks := g.config.intentDurationTicks }
  let already := alreadyLive live cls now
  let contended : Bool := cls.impact.contentionPressure ≥ auth.minContentionPressure
  let fairDivisor := m.competingFlows + 1
  let fairShare := kBasisPointsScale / (if fairDivisor = 0 then 1 else fairDivisor)
  let needed := if m.shareOfAvailable > fairShare then m.shareOfAvailable - fairShare else 0
  requestWhen (auth.allowRateShaping && needed > 0 && !already .requestRateShaping)
    { kind := .requestRateShaping, requested := { base with rateReductionBp := needed }
      state := if needed ≤ g.ceilingBounds.rateReductionBp then .authorized else .clamped } ++
  requestWhen (auth.allowAlternatePlacement && contended && m.competingFlows > 0 &&
      !already .requestAlternatePlacement)
    { kind := .requestAlternatePlacement, requested := { base with placement := true } } ++
  requestWhen (auth.allowCompetingAdmissionReduction && cls.impact.competingElephants > 0 &&
      contended && !already .reduceCompetingAdmission)
    { kind := .reduceCompetingAdmission
      requested := { base with
        admissionReduction := true, targets := cls.impact.competingElephants }
      state := if cls.impact.competingElephants ≤ g.ceilingBounds.targets then .authorized
        else .clamped } ++
  requestWhen (auth.allowSchedulingIsolation && m.priority.known && m.competingFlows > 0 &&
      contended && !already .requestSchedulingIsolation)
    { kind := .requestSchedulingIsolation, requested := { base with isolation := true } } ++
  requestWhen (auth.allowCongestionEscalation &&
      (cls.impact.contentionPressure ≥ kBasisPointsScale || m.shareOfAvailable ≥ kBasisPointsScale ||
        m.resourceAvailable = 0) && !already .escalateCongestion)
    { kind := .escalateCongestion, requested := { base with congestionEscalation := true } }

/-- The requests of `produce_intents` for a record that governs: a suppressed observation when
the impact is unknown, too small or over budget, the corrective requests otherwise. -/
def governRequests (g : Governor) (auth : IntentAuthorization) (cls : FlowClassification)
    (live : List GovernanceIntent) (now : Tick) : List IntentRequest :=
  let base : IntentBounds := { durationTicks := g.config.intentDurationTicks }
  let observe (reason : SuppressReason) : IntentRequest :=
    { kind := .observeOnly, requested := base, state := .suppressed, suppressed := reason }
  if ¬ cls.measurements.capacityKnown then
    requestWhen (!alreadyLive live cls now .observeOnly) (observe .capacityUnknown)
  else if cls.impact.severity < auth.minImpactSeverity then
    requestWhen (!alreadyLive live cls now .observeOnly) (observe .impactBelowThreshold)
  else if live.countP (fun i => isLive i.state) ≥ kMaxIntentListPerFlow then
    [observe .ledgerBudgetExhausted]
  else g.correctiveRequests auth cls live now

/-- Every request of `produce_intents` for an Elephant record. -/
def intentRequests (g : Governor) (auth : IntentAuthorization) (cls : FlowClassification)
    (live : List GovernanceIntent) (now : Tick) : List IntentRequest :=
  requestWhen (cls.isProtected && !alreadyLive live cls now .protectReservedFlow)
    { kind := .protectReservedFlow
      requested := { durationTicks := g.config.intentDurationTicks } } ++
  (if cls.authority = .govern then g.governRequests auth cls live now else [])

/-- The first step of `produce_intents`: the intents of other classification generations of the
flow are retired. -/
def retireStale (g : Governor) (cls : FlowClassification) : Governor :=
  let revoked := g.intents.revokeStaleGeneration cls.flow cls.flowGeneration cls.generation
  { g with intents := revoked.2 }.count fun c =>
    { c with intentsRevoked := c.intentsRevoked + revoked.1 }

/-- The requests that `produce_intents` makes for the classification of a record. -/
def pendingRequests (g : Governor) (p : PolicyDocument) (cls : FlowClassification) (now : Tick) :
    List IntentRequest :=
  g.intentRequests p.authorization cls (g.intents.forFlow cls.flow cls.flowGeneration) now

/-- `produce_intents`. -/
def produceIntents (g : Governor) (record : FlowRecord) (now : Tick) :
    Except Status (List GovernanceIntent) × Governor :=
  match g.policy with
  | none => (.ok [], g)
  | some p =>
    if ¬ record.hasClassification then (.ok [], g)
    else if record.classification.state ≠ .elephant ∨ record.ledger.completed then
      (.ok [], g.retireStale record.classification)
    else
      emitAll record.classification now
        ((g.retireStale record.classification).pendingRequests p record.classification now)
        (g.retireStale record.classification)

/-! ## Evaluation -/

/-- The idempotency test of `evaluate`. -/
def unchanged (record : FlowRecord) (c : FlowClassification) : Bool :=
  record.hasClassification && !newEvidence record &&
    record.classification.state = c.state &&
    record.classification.authority = c.authority &&
    record.classification.reasons = c.reasons &&
    record.classification.measurements.digest = c.measurements.digest &&
    record.classification.impact.digest = c.impact.digest

/-- The classification generation of a candidate. -/
def nextGeneration (record : FlowRecord) (c : FlowClassification) : Except Status Generation :=
  if record.hasClassification ∧ record.classification.generation.valid then
    if record.classification.state = c.state ∧ record.classification.authority = c.authority then
      .ok record.classification.generation
    else record.classification.generation.next
  else .ok .initial

/-- The history entry of a candidate. -/
def transitionOf (record : FlowRecord) (c : FlowClassification) (now : Tick) :
    ClassificationTransition where
  atTick := now
  fromState := previousState record
  toState := c.state
  authority := c.authority
  reasons := c.reasons
  classification := c.id
  classificationGeneration := c.generation

/-- The decision counter of a state. -/
def countDecision (c : GovernorCounters) (state : ElephantState) : GovernorCounters :=
  let c := { c with decisions := c.decisions + 1 }
  match state with
  | .elephant => { c with elephantDecisions := c.elephantDecisions + 1 }
  | .notElephant => { c with notElephantDecisions := c.notElephantDecisions + 1 }
  | .unknown => { c with unknownDecisions := c.unknownDecisions + 1 }
  | .suspended => { c with suspendedDecisions := c.suspendedDecisions + 1 }

/-- The record after a commit, before the index is updated. -/
def committedRecord (record : FlowRecord) (c : FlowClassification) (h : ClassificationHistory)
    (now : Tick) : FlowRecord :=
  { record with
    history := h
    classification := c
    hasClassification := true
    evaluatedTick := now
    evaluatedWindow := match record.ledger.latest with
      | none => {}
      | some s => s.window
    enterStreak := c.enterStreak
    exitStreak := c.exitStreak }

/-- Entering `Suspended` revokes the live intents of the flow. -/
def revokeSuspended (g : Governor) (c : FlowClassification) : Governor :=
  if c.state = .suspended then
    let revoked := g.intents.revokeFlow c.flow c.flowGeneration
    { g with intents := revoked.2 }.count fun k =>
      { k with
        authorityRevocations := k.authorityRevocations + 1
        revalidations := k.revalidations + 1
        intentsRevoked := k.intentsRevoked + revoked.1 }
  else g

/-- The candidate with the digest of the extended history and its own digest. -/
def stamped (c : FlowClassification) (h : ClassificationHistory) : FlowClassification :=
  let c := { c with historyDigest := h.digest }
  { c with digest := c.computeDigest }

/-- The state has changed, or the flow had no classification. -/
def stateChanged (record : FlowRecord) (c : FlowClassification) : Bool :=
  !record.hasClassification || previousState record ≠ c.state

/-- The authority has changed, or the flow had no classification. -/
def authorityChanged (record : FlowRecord) (c : FlowClassification) : Bool :=
  !record.hasClassification || record.classification.authority ≠ c.authority

/-- The counters of a commit. -/
def countCommit (record : FlowRecord) (c : FlowClassification) (k : GovernorCounters) :
    GovernorCounters :=
  countDecision (if stateChanged record c then { k with transitions := k.transitions + 1 } else k)
    c.state

/-- The commit of a stamped classification, up to the production of intents. -/
def settle (g : Governor) (record : FlowRecord) (c : FlowClassification)
    (h : ClassificationHistory) (now : Tick) : Governor × FlowRecord :=
  let indexed := ((g.count (countCommit record c)).revokeSuspended c).updateIndex
    ⟨c.flow, c.flowGeneration⟩ (committedRecord record c h now)
  (indexed.1.advance now, indexed.2)

/-- The tail of `evaluate`: everything from the history entry on. -/
def commit (g : Governor) (record : FlowRecord) (c : FlowClassification)
    (h : ClassificationHistory) (now : Tick) :
    Except Status FlowDecision × Governor × FlowRecord :=
  let settled := g.settle record (stamped c h) h now
  match settled.1.produceIntents settled.2 now with
  | (.error e, g) => (.error e, g, settled.2)
  | (.ok out, g) =>
    (.ok { classification := stamped c h
           intents := out
           stateChanged := stateChanged record c
           authorityChanged := authorityChanged record c }, g, settled.2)

/-- The candidate with its authority, generation and identifier. -/
def identified (c : FlowClassification) (authority : AuthorityVector) (generation : Generation)
    (id : ClassificationId) : FlowClassification :=
  { c with
    authorityVector := { authority with classificationGeneration := generation }
    generation := generation
    id := id }

/-- `evaluate`. -/
def evaluate (g : Governor) (record : FlowRecord) (now : Tick) :
    Except Status FlowDecision × Governor × FlowRecord :=
  if record.hasClassification ∧ now < record.evaluatedTick then
    (makeStatus .stale "decision tick regressed below the flow's last decision",
      g.count (fun c => { c with staleRefusals := c.staleRefusals + 1 }), record)
  else
    let c := g.candidate record now
    if unchanged record c then
      (.ok { classification := record.classification }, g.advance now,
        { record with evaluatedTick := now })
    else
      match g.buildAuthority record now with
      | .error e => (.error e, g, record)
      | .ok authority =>
        match nextGeneration record c with
        | .error e => (.error e, g, record)
        | .ok generation =>
          if g.classificationSequence = u64Max then
            (makeStatus .overflow "classification identifier space is exhausted", g, record)
          else
            let g := { g with classificationSequence := g.classificationSequence + 1 }
            let c := identified c authority generation ⟨g.classificationSequence⟩
            match record.history.record (transitionOf record c now) with
            | .error e => (.error e, g, record)
            | .ok h => g.commit record c h now

end Governor

end EFG
