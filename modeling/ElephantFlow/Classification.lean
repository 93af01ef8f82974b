/-
# Impact, authority vectors and classifications

`impact.hpp`, `impact.cpp`, `classification.hpp` and `classification.cpp`.  A
classification carries the exact generations that justify it; the history of a
flow is a bounded chain of transitions with a running digest.
-/
import ElephantFlow.Tables

namespace EFG

open ByteCodec

/-! ## Impact -/

/-- `ImpactAssessment`. -/
structure ImpactAssessment where
  defined : Bool := false
  shareOfCapacity : BasisPoints := 0
  shareOfAvailable : BasisPoints := 0
  ratePressure : BasisPoints := 0
  contentionPressure : BasisPoints := 0
  excessRate : UInt64 := 0
  excessOverGuarantee : UInt64 := 0
  competingFlows : UInt32 := 0
  competingElephants : UInt32 := 0
  protectedObligationConflict : Bool := false
  severity : BasisPoints := 0
  deriving DecidableEq, Repr, Inhabited

/-- `ImpactAssessment::digest`. -/
def ImpactAssessment.digest (i : ImpactAssessment) : UInt64 :=
  hasherDigest [leBool i.defined, le32 i.shareOfCapacity, le32 i.shareOfAvailable,
    le32 i.ratePressure, le32 i.contentionPressure, le64 i.excessRate, le64 i.excessOverGuarantee,
    le32 i.competingFlows, le32 i.competingElephants, leBool i.protectedObligationConflict,
    le32 i.severity]

/-- `max_threshold_value`. -/
def maxThresholdValue (rules : RuleSet) (kind : ThresholdKind) : UInt64 :=
  rules.nodes.foldl (fun best node =>
    if node.kind = .threshold ∧ node.threshold.kind = kind then maxOf best node.threshold.value
    else best) 0

/-- The flow carries an obligation that governance has to respect. -/
def FlowMeasurements.obliged (m : FlowMeasurements) : Bool :=
  m.hasReservation || m.protection = .protectedFlow || m.protection = .nonPreemptible ||
    m.serviceClass = .reserved || m.serviceClass = .control

/-- The sustained rate relative to the rate threshold of the policy, in basis points. -/
def ratePressureOf (sustained threshold : UInt64) : BasisPoints :=
  if threshold = 0 then 0
  else
    match mulDiv sustained kBasisPointsScale.toUInt64 threshold with
    | none => kBasisPointsScale
    | some pressure =>
      if pressure > kBasisPointsScale.toUInt64 then kBasisPointsScale else pressure.toUInt32

/-- The rate above the reserved band, as `compute_impact` derives it. -/
def excessOverGuaranteeOf (m : FlowMeasurements) : UInt64 :=
  if m.capacityKnown ∧ m.resourceCapacity ≠ 0 ∧ m.resourceReserved ≠ 0 then
    let reservedShare := toBasisPoints m.resourceReserved m.resourceCapacity
    if m.shareOfCapacity > reservedShare then
      (applyBasisPoints m.sustainedRate (m.shareOfCapacity - reservedShare)).getD 0
    else 0
  else 0

/-- `compute_impact`. -/
def computeImpact (m : FlowMeasurements) (policy : PolicyDocument)
    (contentionPressure : BasisPoints) (competingElephants : UInt32) : ImpactAssessment :=
  if ¬ m.evidencePresent then {}
  else
    let rateThreshold := maxThresholdValue policy.enterRule .sustainedRate
    let contention :=
      if contentionPressure > kBasisPointsScale then kBasisPointsScale else contentionPressure
    let ratePressure := ratePressureOf m.sustainedRate rateThreshold
    let weighted := m.shareOfAvailable.toUInt64 * 4 + contention.toUInt64 * 4 +
      ratePressure.toUInt64 * 2
    let severity := (weighted / 10).toUInt32
    { defined := true
      shareOfCapacity := m.shareOfCapacity
      shareOfAvailable := m.shareOfAvailable
      competingFlows := m.competingFlows
      competingElephants := competingElephants
      contentionPressure := contention
      excessRate :=
        if rateThreshold ≠ 0 ∧ m.sustainedRate > rateThreshold then m.sustainedRate - rateThreshold
        else 0
      ratePressure := ratePressure
      excessOverGuarantee := excessOverGuaranteeOf m
      protectedObligationConflict := m.obliged
      severity := if severity > kBasisPointsScale then kBasisPointsScale else severity }

/-! ## Authority vectors -/

/-- `ElephantState`. -/
inductive ElephantState
  | unknown | notElephant | elephant | suspended
  deriving DecidableEq, Repr, Inhabited

def ElephantState.toU8 : ElephantState → UInt8
  | .unknown => 0 | .notElephant => 1 | .elephant => 2 | .suspended => 3

/-- `AuthorityLevel`. -/
inductive AuthorityLevel
  | none | observe | govern
  deriving DecidableEq, Repr, Inhabited

def AuthorityLevel.toU8 : AuthorityLevel → UInt8
  | .none => 0 | .observe => 1 | .govern => 2

def kAuthorityFlowBound : UInt32 := 1
def kAuthorityPathBound : UInt32 := 2
def kAuthorityCapacityBound : UInt32 := 4
def kAuthorityPolicyBound : UInt32 := 8
def kAuthorityEpochBound : UInt32 := 16
def kAuthorityPublisherBound : UInt32 := 32
def kAuthorityWindowBound : UInt32 := 64
def kAuthorityBootBound : UInt32 := 128

/-- `AuthorityVector`. -/
structure AuthorityVector where
  flow : FlowId := {}
  flowGeneration : Generation := {}
  path : PathId := {}
  pathGeneration : Generation := {}
  capacity : CapacitySnapshotId := {}
  capacityGeneration : Generation := {}
  window : EvidenceWindowId := {}
  windowSequence : UInt64 := 0
  policy : PolicyId := {}
  policyGeneration : Generation := {}
  classificationGeneration : Generation := {}
  epoch : EpochId := {}
  boot : BootId := {}
  publisher : PublisherId := {}
  publisherBoot : BootId := {}
  validity : ValidityWindow := {}
  boundFlags : UInt32 := 0
  deriving DecidableEq, Repr, Inhabited

namespace AuthorityVector

/-- `AuthorityVector::binds`. -/
def binds (v : AuthorityVector) (flag : UInt32) : Bool := v.boundFlags &&& flag ≠ 0

/-- `AuthorityVector::compare`: the first divergence, in the order of the source. -/
def compare (v current : AuthorityVector) : BindingVerdict :=
  if v.binds kAuthorityFlowBound ∧ current.flow ≠ v.flow then .absent
  else if v.binds kAuthorityFlowBound ∧ current.flowGeneration ≠ v.flowGeneration then
    .flowGenerationChanged
  else if v.binds kAuthorityPathBound ∧ current.pathGeneration ≠ v.pathGeneration then
    .pathGenerationChanged
  else if v.binds kAuthorityPathBound ∧ current.path ≠ v.path then .absent
  else if v.binds kAuthorityCapacityBound ∧ current.capacityGeneration ≠ v.capacityGeneration then
    .capacityGenerationChanged
  else if v.binds kAuthorityCapacityBound ∧ current.capacity ≠ v.capacity then .absent
  else if v.binds kAuthorityPolicyBound ∧ current.policyGeneration ≠ v.policyGeneration then
    .policyGenerationChanged
  else if v.binds kAuthorityPolicyBound ∧ current.policy ≠ v.policy then .absent
  else if v.binds kAuthorityWindowBound ∧ current.windowSequence < v.windowSequence then
    .evidenceWindowSuperseded
  else if v.binds kAuthorityEpochBound ∧ current.epoch ≠ v.epoch then .epochChanged
  else if v.binds kAuthorityBootBound ∧ current.boot ≠ v.boot then .bootChanged
  else if v.binds kAuthorityPublisherBound ∧ current.publisher ≠ v.publisher then .publisherChanged
  else if v.binds kAuthorityPublisherBound ∧ current.publisherBoot ≠ v.publisherBoot then
    .publisherIncarnationChanged
  else .matched

/-- `AuthorityVector::digest`. -/
def digest (v : AuthorityVector) : UInt64 :=
  hasherDigest [le64 v.flow.value, le64 v.flowGeneration.value, le64 v.path.value,
    le64 v.pathGeneration.value, le64 v.capacity.value, le64 v.capacityGeneration.value,
    le64 v.window.value, le64 v.windowSequence, le64 v.policy.value, le64 v.policyGeneration.value,
    le64 v.classificationGeneration.value, le64 v.epoch.value, le64 v.boot.value,
    le64 v.publisher.value, le64 v.publisherBoot.value, le64 v.validity.issuedAt,
    le64 v.validity.expiresAt, le32 v.boundFlags]

theorem compare_self (v : AuthorityVector) : v.compare v = .matched := by
  unfold compare
  simp

end AuthorityVector

/-! ## Classifications -/

/-- `FlowClassification`. -/
structure FlowClassification where
  id : ClassificationId := {}
  generation : Generation := {}
  flow : FlowId := {}
  flowGeneration : Generation := {}
  state : ElephantState := .unknown
  authority : AuthorityLevel := .none
  authorityVector : AuthorityVector := {}
  reasons : ReasonCode := .none
  decidedAt : Tick := 0
  validity : ValidityWindow := {}
  measurements : FlowMeasurements := {}
  impact : ImpactAssessment := {}
  trace : List ThresholdTraceEntry := []
  traceTruncated : Bool := false
  enterStreak : UInt32 := 0
  exitStreak : UInt32 := 0
  historyDigest : UInt64 := 0
  digest : UInt64 := 0
  deriving DecidableEq, Repr, Inhabited

namespace FlowClassification

/-- `FlowClassification::is_protected`. -/
def isProtected (c : FlowClassification) : Bool :=
  c.measurements.protection = .protectedFlow || c.measurements.protection = .nonPreemptible ||
    c.measurements.hasReservation || c.measurements.serviceClass = .reserved ||
    c.measurements.serviceClass = .control

/-- `FlowClassification::compute_digest`. -/
def computeDigest (c : FlowClassification) : UInt64 :=
  hasherDigest ([le64 c.id.value, le64 c.generation.value, le64 c.flow.value,
    le64 c.flowGeneration.value, [c.state.toU8], [c.authority.toU8],
    le64 c.authorityVector.digest, le64 c.reasons.bits, le64 c.decidedAt,
    le64 c.validity.issuedAt, le64 c.validity.expiresAt, le64 c.measurements.digest,
    le64 c.impact.digest, le32 (UInt32.ofNat c.trace.length)] ++
    c.trace.flatMap (fun e =>
      [le32 e.nodeIndex, [e.kind.toU8], [e.result.toU8], leBool e.observedDefined,
        le64 e.observedValue, le64 e.thresholdValue]) ++
    [leBool c.traceTruncated, le32 c.enterStreak, le32 c.exitStreak, le64 c.historyDigest])

end FlowClassification

/-! ## History -/

/-- `ClassificationTransition`. -/
structure ClassificationTransition where
  atTick : Tick := 0
  fromState : ElephantState := .unknown
  toState : ElephantState := .unknown
  authority : AuthorityLevel := .none
  reasons : ReasonCode := .none
  classification : ClassificationId := {}
  classificationGeneration : Generation := {}
  deriving DecidableEq, Repr, Inhabited

/-- `ClassificationHistory`. -/
structure ClassificationHistory where
  entries : List ClassificationTransition := []
  maxEntries : ℕ := kMaxHistoryPerFlow
  digest : UInt64 := 0
  foldedCount : UInt64 := 0
  deriving DecidableEq, Repr, Inhabited

namespace ClassificationHistory

/-- The constructor `ClassificationHistory(max_entries)`. -/
def make (maxEntries : ℕ) : ClassificationHistory :=
  { maxEntries := if maxEntries = 0 then 1 else maxEntries }

/-- `ClassificationHistory::latest`. -/
def latest (h : ClassificationHistory) : Option ClassificationTransition := h.entries.getLast?

/-- The digest step of `ClassificationHistory::record`. -/
def chainDigest (digest : UInt64) (t : ClassificationTransition) : UInt64 :=
  hasherDigest [le64 digest, le64 t.atTick, [t.fromState.toU8], [t.toState.toU8],
    [t.authority.toU8], le64 t.reasons.bits, le64 t.classification.value,
    le64 t.classificationGeneration.value]

/-- The append of `ClassificationHistory::record`: the oldest entry is folded when full. -/
def push (h : ClassificationHistory) (t : ClassificationTransition) : ClassificationHistory :=
  { h with
    digest := chainDigest h.digest t
    entries := (if h.entries.length ≥ h.maxEntries then h.entries.tail else h.entries) ++ [t]
    foldedCount := if h.entries.length ≥ h.maxEntries then h.foldedCount + 1 else h.foldedCount }

/-- `ClassificationHistory::record`. -/
def record (h : ClassificationHistory) (t : ClassificationTransition) :
    Except Status ClassificationHistory :=
  match h.latest with
  | none => .ok (h.push t)
  | some last =>
    if t.atTick < last.atTick then
      makeStatus .stale "transition tick regressed below the last entry"
    else if t.fromState ≠ last.toState then
      makeStatus .conflict "transition does not continue the recorded classification chain"
    else .ok (h.push t)

@[simp] theorem latest_push (h : ClassificationHistory) (t : ClassificationTransition) :
    (h.push t).latest = some t := by
  simp [latest, push]

theorem record_eq_ok {h h' : ClassificationHistory} {t : ClassificationTransition}
    (hr : h.record t = .ok h') :
    h' = h.push t ∧ ∀ last, h.latest = some last → last.atTick ≤ t.atTick ∧ t.fromState = last.toState := by
  unfold record at hr
  split at hr
  · rename_i hnone
    cases hr
    exact ⟨rfl, by simp [hnone]⟩
  · rename_i last hlast
    split_ifs at hr with htick hchain
    · cases hr
    · cases hr
    cases hr
    refine ⟨rfl, ?_⟩
    intro l hl
    rw [hlast, Option.some.injEq] at hl
    subst hl
    exact ⟨by grind, not_not.mp hchain⟩

theorem record_of_continues {h : ClassificationHistory} {t : ClassificationTransition}
    (hc : ∀ last, h.latest = some last → last.atTick ≤ t.atTick ∧ t.fromState = last.toState) :
    h.record t = .ok (h.push t) := by
  unfold record
  split
  · rfl
  · rename_i last hlast
    obtain ⟨htick, hchain⟩ := hc last hlast
    rw [if_neg (by grind), if_neg (by simpa using hchain)]

end ClassificationHistory

end EFG
