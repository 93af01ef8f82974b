/-
# Policies

Three valued rules over flow measurements and the authorization envelope
(`tri.hpp`, `intent_kind.hpp`, `policy.hpp`, `policy.cpp`).  A rule set is a
flattened tree of nodes; the recursions of the source over it carry their depth,
which is the structural argument of the recursions here.
-/
import ElephantFlow.FlowLedger

namespace EFG

open ByteCodec

/-! ## Three valued logic -/

/-- `Tri`. -/
inductive Tri
  | false | true | unknown
  deriving DecidableEq, Repr, Inhabited

def Tri.toU8 : Tri → UInt8
  | .false => 0 | .true => 1 | .unknown => 2

/-- `tri_not`. -/
def triNot : Tri → Tri
  | .false => .true
  | .true => .false
  | .unknown => .unknown

/-- `tri_and`. -/
def triAnd (lhs rhs : Tri) : Tri :=
  if lhs = .false ∨ rhs = .false then .false
  else if lhs = .unknown ∨ rhs = .unknown then .unknown
  else .true

/-- `tri_or`. -/
def triOr (lhs rhs : Tri) : Tri :=
  if lhs = .true ∨ rhs = .true then .true
  else if lhs = .unknown ∨ rhs = .unknown then .unknown
  else .false

/-- `tri_from_bool`. -/
def triFromBool (b : Bool) : Tri := if b then .true else .false

/-! ## Reason codes -/

/-- `ReasonCode`: a bitmask of justifications. -/
structure ReasonCode where
  bits : UInt64 := 0
  deriving DecidableEq, Repr, Inhabited

instance : OrOp ReasonCode := ⟨fun a b => ⟨a.bits ||| b.bits⟩⟩

/-- `has_reason`. -/
def hasReason (set flag : ReasonCode) : Bool := set.bits &&& flag.bits ≠ 0

namespace ReasonCode

/-- The reason at one bit position. -/
def bit (position : UInt64) : ReasonCode := ⟨(1 : UInt64) <<< position⟩

def none : ReasonCode := ⟨0⟩
def volumeThresholdMet : ReasonCode := bit 0
def durationThresholdMet : ReasonCode := bit 1
def sustainedRateThresholdMet : ReasonCode := bit 2
def resourceShareThresholdMet : ReasonCode := bit 3
def policyRuleSatisfied : ReasonCode := bit 4
def hysteresisHeld : ReasonCode := bit 5
def exitThresholdNotReached : ReasonCode := bit 6
def belowVolumeThreshold : ReasonCode := bit 8
def belowDurationThreshold : ReasonCode := bit 9
def belowRateThreshold : ReasonCode := bit 10
def belowShareThreshold : ReasonCode := bit 11
def policyRuleNotSatisfied : ReasonCode := bit 12
def evidenceMissing : ReasonCode := bit 13
def evidenceStale : ReasonCode := bit 14
def evidenceUnknownField : ReasonCode := bit 15
def telemetryGap : ReasonCode := bit 16
def capacityMissing : ReasonCode := bit 17
def capacityStale : ReasonCode := bit 18
def pathUnknown : ReasonCode := bit 19
def pathGenerationChanged : ReasonCode := bit 20
def flowGenerationChanged : ReasonCode := bit 21
def policyChanged : ReasonCode := bit 22
def flowCompleted : ReasonCode := bit 23
def policyRuleIndeterminate : ReasonCode := bit 24
def revalidationRequired : ReasonCode := bit 25
def protectedObligation : ReasonCode := bit 32
def nonPreemptibleObligation : ReasonCode := bit 33
def reservedCapacityBounded : ReasonCode := bit 34
def controlClassBounded : ReasonCode := bit 35
def governanceAuthorized : ReasonCode := bit 40
def governanceSuppressed : ReasonCode := bit 41
def governanceClampedToBounds : ReasonCode := bit 42
def impactBelowActionThreshold : ReasonCode := bit 43
def contentionBelowActionThreshold : ReasonCode := bit 44

end ReasonCode

/-! ## Intent kinds -/

/-- `IntentKind`; `count` is the sentinel of the source. -/
inductive IntentKind
  | observeOnly | requestAlternatePlacement | requestRateShaping | requestSchedulingIsolation
  | protectReservedFlow | reduceCompetingAdmission | escalateCongestion | count
  deriving DecidableEq, Repr, Inhabited

def IntentKind.toU8 : IntentKind → UInt8
  | .observeOnly => 0 | .requestAlternatePlacement => 1 | .requestRateShaping => 2
  | .requestSchedulingIsolation => 3 | .protectReservedFlow => 4 | .reduceCompetingAdmission => 5
  | .escalateCongestion => 6 | .count => 7

/-- `is_corrective`: the intent asks an adjacent system to change something. -/
def isCorrective (k : IntentKind) : Bool := k ≠ .observeOnly && k ≠ .protectReservedFlow

/-! ## Thresholds -/

/-- `ThresholdKind`; `count` is the sentinel of the source. -/
inductive ThresholdKind
  | always | never | cumulativeBytes | durationTicks | sustainedRate | peakRate
  | shareOfCapacity | shareOfAvailable | competingFlows | competingElephants
  | excessOverGuarantee | serviceClassIs | priorityAtLeast | isProtected | isNonPreemptible
  | hasReservation | count
  deriving DecidableEq, Repr, Inhabited

def ThresholdKind.toU8 : ThresholdKind → UInt8
  | .always => 0 | .never => 1 | .cumulativeBytes => 2 | .durationTicks => 3 | .sustainedRate => 4
  | .peakRate => 5 | .shareOfCapacity => 6 | .shareOfAvailable => 7 | .competingFlows => 8
  | .competingElephants => 9 | .excessOverGuarantee => 10 | .serviceClassIs => 11
  | .priorityAtLeast => 12 | .isProtected => 13 | .isNonPreemptible => 14 | .hasReservation => 15
  | .count => 16

/-- `Threshold`. -/
structure Threshold where
  kind : ThresholdKind := .always
  value : UInt64 := 0
  classOperand : ServiceClass := .unknown
  deriving DecidableEq, Repr, Inhabited

/-- `Unknown` unless the inputs of a predicate are present. -/
def triWhen (known : Bool) (b : Bool) : Tri := if known then triFromBool b else .unknown

/-- `Threshold::evaluate`. -/
def Threshold.evaluate (t : Threshold) (m : FlowMeasurements) : Tri :=
  match t.kind with
  | .always => .true
  | .never => .false
  | .cumulativeBytes => triWhen m.evidencePresent (m.cumulativeBytes ≥ t.value)
  | .durationTicks => triWhen m.evidencePresent (m.durationTicks ≥ t.value)
  | .sustainedRate =>
    triWhen (m.evidencePresent && m.evidenceContiguous) (m.sustainedRate ≥ t.value)
  | .peakRate => triWhen m.evidencePresent (m.peakWindowRate ≥ t.value)
  | .shareOfCapacity => triWhen m.capacityKnown (m.shareOfCapacity.toUInt64 ≥ t.value)
  | .shareOfAvailable => triWhen m.capacityKnown (m.shareOfAvailable.toUInt64 ≥ t.value)
  | .competingFlows => triWhen m.pathKnown (m.competingFlows.toUInt64 ≥ t.value)
  | .competingElephants => triWhen m.pathKnown (m.competingElephants.toUInt64 ≥ t.value)
  | .excessOverGuarantee => triWhen m.capacityKnown (m.excessOverGuarantee ≥ t.value)
  | .serviceClassIs => triWhen (m.serviceClass ≠ .unknown) (m.serviceClass = t.classOperand)
  | .priorityAtLeast => triWhen m.priority.known (m.priority.level.toUInt64 ≥ t.value)
  | .isProtected =>
    triWhen (m.protection ≠ .unknown)
      (m.protection = .protectedFlow || m.protection = .nonPreemptible)
  | .isNonPreemptible => triWhen (m.protection ≠ .unknown) (m.protection = .nonPreemptible)
  | .hasReservation => triFromBool m.hasReservation
  | .count => .unknown

/-- `Threshold::observed`: whether the quantity is defined, and its value. -/
def Threshold.observed (t : Threshold) (m : FlowMeasurements) : Bool × UInt64 :=
  match t.kind with
  | .cumulativeBytes => (true, m.cumulativeBytes)
  | .durationTicks => (true, m.durationTicks)
  | .sustainedRate => (true, m.sustainedRate)
  | .peakRate => (true, m.peakWindowRate)
  | .shareOfCapacity => (true, m.shareOfCapacity.toUInt64)
  | .shareOfAvailable => (true, m.shareOfAvailable.toUInt64)
  | .competingFlows => (true, m.competingFlows.toUInt64)
  | .competingElephants => (true, m.competingElephants.toUInt64)
  | .excessOverGuarantee => (true, m.excessOverGuarantee)
  | .serviceClassIs => (true, m.serviceClass.toU8.toUInt64)
  | .priorityAtLeast => (m.priority.known, m.priority.level.toUInt64)
  | .isProtected => (m.protection ≠ .unknown, m.protection.toU8.toUInt64)
  | .isNonPreemptible => (m.protection ≠ .unknown, m.protection.toU8.toUInt64)
  | .hasReservation => (true, if m.hasReservation then 1 else 0)
  | .always | .never | .count => (false, 0)

/-- `ThresholdTraceEntry`. -/
structure ThresholdTraceEntry where
  nodeIndex : UInt32 := 0
  kind : ThresholdKind := .always
  result : Tri := .unknown
  observedValue : UInt64 := 0
  thresholdValue : UInt64 := 0
  observedDefined : Bool := false
  deriving DecidableEq, Repr, Inhabited

/-- `ThresholdTrace`. -/
structure ThresholdTrace where
  entries : List ThresholdTraceEntry := []
  truncated : Bool := false
  deriving DecidableEq, Repr, Inhabited

/-- `ThresholdTrace::record`: bounded by `kMaxTraceEntries`. -/
def ThresholdTrace.record (tr : ThresholdTrace) (nodeIndex : UInt32) (t : Threshold) (result : Tri)
    (m : FlowMeasurements) : ThresholdTrace :=
  if tr.entries.length ≥ kMaxTraceEntries then { tr with truncated := true }
  else
    { tr with
      entries := tr.entries ++
        [{ nodeIndex := nodeIndex, kind := t.kind, result := result
           thresholdValue := t.value
           observedDefined := (t.observed m).1
           observedValue := (t.observed m).2 }] }

/-! ## Rule sets -/

/-- `RuleKind`. -/
inductive RuleKind
  | threshold | all | any | not
  deriving DecidableEq, Repr, Inhabited

def RuleKind.toU8 : RuleKind → UInt8
  | .threshold => 0 | .all => 1 | .any => 2 | .not => 3

/-- `RuleNode`. -/
structure RuleNode where
  kind : RuleKind := .all
  threshold : Threshold := {}
  children : List UInt32 := []
  deriving DecidableEq, Repr, Inhabited

/-- `RuleSet`. -/
structure RuleSet where
  nodes : List RuleNode := []
  root : UInt32 := 0
  deriving DecidableEq, Repr, Inhabited

/-- `RuleSet::empty`. -/
def RuleSet.empty (r : RuleSet) : Bool := r.nodes.isEmpty

/-- The mutable part of `EvalState`. -/
structure EvalState where
  trace : ThresholdTrace := {}
  failed : Bool := false
  deriving DecidableEq, Repr, Inhabited

/-- `evaluate_node`; the recursion argument is `kMaxRuleDepth + 1 - depth`. -/
def evaluateNode (rules : RuleSet) (m : FlowMeasurements) :
    ℕ → EvalState → UInt32 → Tri × EvalState
  | 0, st, _ => (.unknown, { st with failed := true })
  | d + 1, st, index =>
    if st.failed then (.unknown, st)
    else
      match rules.nodes[index.toNat]? with
      | none => (.unknown, { st with failed := true })
      | some node =>
        match node.kind with
        | .threshold =>
          let result := node.threshold.evaluate m
          (result, { st with trace := st.trace.record index node.threshold result m })
        | .all =>
          node.children.foldl (fun acc child =>
            let r := evaluateNode rules m d acc.2 child
            (triAnd acc.1 r.1, r.2)) (.true, st)
        | .any =>
          node.children.foldl (fun acc child =>
            let r := evaluateNode rules m d acc.2 child
            (triOr acc.1 r.1, r.2)) (.false, st)
        | .not =>
          match node.children with
          | [] => (.unknown, { st with failed := true })
          | child :: _ =>
            let r := evaluateNode rules m d st child
            (triNot r.1, r.2)

/-- `RuleSet::evaluate`, together with the trace it leaves. -/
def RuleSet.evaluate (r : RuleSet) (m : FlowMeasurements) (trace : ThresholdTrace) :
    Tri × ThresholdTrace :=
  if r.nodes.isEmpty ∨ r.root.toNat ≥ r.nodes.length then (.unknown, trace)
  else
    let res := evaluateNode r m (kMaxRuleDepth + 1) { trace := trace } r.root
    (if res.2.failed then .unknown else res.1, res.2.trace)

/-- The arity and kind checks of `validate_node` on one node. -/
def RuleNode.checkShape (node : RuleNode) : Except Status Unit :=
  match node.kind with
  | .threshold =>
    if ¬ node.children.isEmpty then
      makeStatus .invalidArgument "threshold node must not have children"
    else if node.threshold.kind = .count then
      makeStatus .invalidArgument "threshold kind is not recognized"
    else .ok ()
  | .not =>
    if node.children.length ≠ 1 then
      makeStatus .invalidArgument "not node must have exactly one child"
    else .ok ()
  | .all | .any =>
    if node.children.isEmpty then
      makeStatus .invalidArgument "composite node must have children"
    else .ok ()

/-- `validate_node`: the colours are 0 (new), 1 (on the stack) and 2 (done); the recursion
argument is `kMaxRuleDepth + 1 - depth`. -/
def validateNode (rules : RuleSet) : ℕ → UInt32 → List UInt8 → Except Status (List UInt8)
  | 0, index, _ =>
    if index.toNat ≥ rules.nodes.length then
      makeStatus .invalidArgument "rule node index is out of range"
    else makeStatus .outOfRange "rule nesting exceeds the supported depth"
  | d + 1, index, colour =>
    match rules.nodes[index.toNat]? with
    | none => makeStatus .invalidArgument "rule node index is out of range"
    | some node =>
      if colour[index.toNat]? = some 1 then
        makeStatus .invalidArgument "rule graph contains a cycle"
      else if colour[index.toNat]? = some 2 then .ok colour
      else
        match node.checkShape with
        | .error e => .error e
        | .ok () =>
          match node.children.foldlM (fun colour child => validateNode rules d child colour)
              (colour.set index.toNat 1) with
          | .error e => .error e
          | .ok colour => .ok (colour.set index.toNat 2)

/-- `RuleSet::validate`. -/
def RuleSet.validate (r : RuleSet) : Except Status Unit :=
  if r.nodes.isEmpty then makeStatus .invalidArgument "rule set is empty"
  else if r.nodes.length > kMaxPolicyNodes then
    makeStatus .oversized "rule set exceeds the node ceiling"
  else if r.root.toNat ≥ r.nodes.length then
    makeStatus .invalidArgument "rule root index is out of range"
  else
    match validateNode r (kMaxRuleDepth + 1) r.root (List.replicate r.nodes.length 0) with
    | .error e => .error e
    | .ok _ => .ok ()

/-- The instantaneous threshold kinds that `scale_rule_set` keeps. -/
def ThresholdKind.instantaneous : ThresholdKind → Bool
  | .sustainedRate | .peakRate | .shareOfCapacity | .shareOfAvailable | .excessOverGuarantee
  | .competingFlows | .competingElephants => true
  | _ => false

/-- The first loop of `scale_rule_set`: the scaled leaves. -/
def scaledLeaves (scaleBp : BasisPoints) : List RuleNode → Except Status (List RuleNode)
  | [] => .ok []
  | node :: rest =>
    if node.kind = .threshold ∧ node.threshold.kind.instantaneous then
      match mulDiv node.threshold.value scaleBp.toUInt64 kBasisPointsScale.toUInt64 with
      | none => makeStatus .overflow "scaled threshold overflowed"
      | some scaled =>
        match scaledLeaves scaleBp rest with
        | .error e => .error e
        | .ok leaves =>
          .ok ({ kind := .threshold, threshold := { node.threshold with value := scaled } } :: leaves)
    else scaledLeaves scaleBp rest

/-- The second loop of `scale_rule_set`: chain the leaves by binary conjunctions. -/
def chainLeaves (leaves : List RuleNode) : RuleSet :=
  let built := (List.range' 1 (leaves.length - 1)).foldl (fun (acc : List RuleNode × UInt32) i =>
    (acc.1 ++ [{ kind := .all, children := [acc.2, UInt32.ofNat i] }],
      UInt32.ofNat acc.1.length)) (leaves, 0)
  { nodes := built.1, root := built.2 }

/-- `scale_rule_set`. -/
def scaleRuleSet (rules : RuleSet) (scaleBp : BasisPoints) : Except Status RuleSet :=
  if scaleBp = 0 ∨ scaleBp > kBasisPointsScale then
    makeStatus .outOfRange "rule scale must be inside (0, 10000] basis points"
  else
    match scaledLeaves scaleBp rules.nodes with
    | .error e => .error e
    | .ok leaves =>
      let out : RuleSet :=
        if leaves.isEmpty then { nodes := [{ kind := .threshold }], root := 0 }
        else chainLeaves leaves
      match out.validate with
      | .error e => .error e
      | .ok () => .ok out

/-! ## Policy documents -/

/-- `HysteresisSpec`. -/
structure HysteresisSpec where
  enterConfirmWindows : UInt32 := 1
  exitConfirmWindows : UInt32 := 3
  exitScaleBp : BasisPoints := 8000
  deriving DecidableEq, Repr, Inhabited

/-- `HysteresisSpec::validate`. -/
def HysteresisSpec.validate (h : HysteresisSpec) : Except Status Unit :=
  if h.enterConfirmWindows = 0 ∨ h.exitConfirmWindows = 0 then
    makeStatus .invalidArgument "hysteresis confirmation counts must be positive"
  else if h.enterConfirmWindows > 64 ∨ h.exitConfirmWindows > 64 then
    makeStatus .outOfRange "hysteresis confirmation counts are unreasonably large"
  else if h.exitScaleBp = 0 ∨ h.exitScaleBp > kBasisPointsScale then
    makeStatus .outOfRange "exit scale must be inside (0, 10000] basis points"
  else .ok ()

/-- `IntentAuthorization`: the envelope every produced intent is clamped to. -/
structure IntentAuthorization where
  allowAlternatePlacement : Bool := true
  allowRateShaping : Bool := true
  allowSchedulingIsolation : Bool := true
  allowCompetingAdmissionReduction : Bool := true
  allowCongestionEscalation : Bool := true
  protectObligations : Bool := true
  maxShapingReductionBp : BasisPoints := 2500
  maxIntentDurationTicks : UInt64 := 60000
  maxTargets : UInt32 := 8
  minImpactSeverity : BasisPoints := 1000
  minContentionPressure : BasisPoints := 500
  deriving DecidableEq, Repr, Inhabited

/-- `IntentAuthorization::permits`. -/
def IntentAuthorization.permits (a : IntentAuthorization) : IntentKind → Bool
  | .observeOnly | .protectReservedFlow => true
  | .requestAlternatePlacement => a.allowAlternatePlacement
  | .requestRateShaping => a.allowRateShaping
  | .requestSchedulingIsolation => a.allowSchedulingIsolation
  | .reduceCompetingAdmission => a.allowCompetingAdmissionReduction
  | .escalateCongestion => a.allowCongestionEscalation
  | .count => false

/-- `IntentAuthorization::validate`. -/
def IntentAuthorization.validate (a : IntentAuthorization) : Except Status Unit :=
  if a.maxShapingReductionBp > kBasisPointsScale then
    makeStatus .outOfRange "shaping ceiling exceeds 10000 basis points"
  else if a.maxIntentDurationTicks = 0 then
    makeStatus .invalidArgument "intent lifetime must be positive"
  else if a.maxTargets = 0 then
    makeStatus .invalidArgument "intent target ceiling must be positive"
  else if a.minImpactSeverity > kBasisPointsScale ∨ a.minContentionPressure > kBasisPointsScale then
    makeStatus .outOfRange "authorization thresholds exceed 10000 basis points"
  else .ok ()

/-- `PolicyDocument`. -/
structure PolicyDocument where
  id : PolicyId := {}
  generation : Generation := {}
  enterRule : RuleSet := {}
  exitRule : RuleSet := {}
  hysteresis : HysteresisSpec := {}
  authorization : IntentAuthorization := {}
  validity : ValidityWindow := {}
  provenance : Provenance := {}
  digest : UInt64 := 0
  deriving DecidableEq, Repr, Inhabited

/-- The checks of `PolicyDocument::validate` that follow the rule sets. -/
def PolicyDocument.validateTail (p : PolicyDocument) : Except Status Unit :=
  match p.hysteresis.validate with
  | .error e => .error e
  | .ok () =>
    match p.authorization.validate with
    | .error e => .error e
    | .ok () =>
      if ¬ p.validity.wellFormed then
        makeStatus .invalidArgument "policy validity window is malformed"
      else if ¬ p.provenance.valid then
        makeStatus .invalidArgument "policy provenance is incomplete"
      else if p.provenance.schemaVersion ≠ kSchemaVersion then
        makeStatus .versionMismatch "policy schema version is not supported"
      else if p.digest = 0 then
        makeStatus .invalidArgument "policy digest was never finalized"
      else .ok ()

/-- `PolicyDocument::validate`.  The digest is only required to be present. -/
def PolicyDocument.validate (p : PolicyDocument) : Except Status Unit :=
  if ¬ p.id.valid then makeStatus .invalidArgument "policy identifier is absent"
  else if ¬ p.generation.valid then makeStatus .invalidArgument "policy generation is absent"
  else
    match p.enterRule.validate with
    | .error e => .error e
    | .ok () =>
      if p.exitRule.empty then p.validateTail
      else
        match p.exitRule.validate with
        | .error e => .error e
        | .ok () => p.validateTail

/-- `PolicyDocument::evaluate_enter`. -/
def PolicyDocument.evaluateEnter (p : PolicyDocument) (m : FlowMeasurements)
    (trace : ThresholdTrace) : Tri × ThresholdTrace :=
  p.enterRule.evaluate m trace

/-- `effective_exit_rule`. -/
def effectiveExitRule (p : PolicyDocument) : Except Status RuleSet :=
  if ¬ p.exitRule.empty then .ok p.exitRule
  else scaleRuleSet p.enterRule p.hysteresis.exitScaleBp

/-! ## What a valid policy satisfies -/

section Valid

variable {p : PolicyDocument}

/-- A valid policy has a valid enter rule, a valid exit rule if it states one, and passes the checks
that follow. -/
theorem rules_of_validate (h : p.validate = .ok ()) :
    p.enterRule.validate = .ok () ∧
      (p.exitRule.empty = true ∨ p.exitRule.validate = .ok ()) ∧ p.validateTail = .ok () := by
  unfold PolicyDocument.validate at h
  simp only [ite_makeStatus_eq_ok] at h
  obtain ⟨-, -, h⟩ := h
  rcases henter : p.enterRule.validate with e | ⟨⟩
  · rw [henter] at h
    cases h
  rw [henter] at h
  by_cases hempty : p.exitRule.empty = true
  · simp only [hempty, if_true] at h
    exact ⟨rfl, .inl hempty, h⟩
  · simp only [hempty, Bool.false_eq_true, if_false] at h
    rcases hexit : p.exitRule.validate with e | ⟨⟩
    · rw [hexit] at h
      cases h
    · rw [hexit] at h
      exact ⟨rfl, .inr rfl, h⟩

theorem enterRule_of_validate (h : p.validate = .ok ()) : p.enterRule.validate = .ok () :=
  (rules_of_validate h).1

theorem validateTail_of_validate (h : p.validate = .ok ()) : p.validateTail = .ok () :=
  (rules_of_validate h).2.2

theorem hysteresis_of_validate (h : p.validate = .ok ()) : p.hysteresis.validate = .ok () := by
  have htail := validateTail_of_validate h
  unfold PolicyDocument.validateTail at htail
  rcases hspec : p.hysteresis.validate with e | ⟨⟩
  · rw [hspec] at htail
    cases htail
  · rfl

/-- The exit scale of a valid policy is a part of the whole. -/
theorem exitScale_of_validate (h : p.validate = .ok ()) :
    p.hysteresis.exitScaleBp ≠ 0 ∧ p.hysteresis.exitScaleBp ≤ kBasisPointsScale := by
  have hspec := hysteresis_of_validate h
  unfold HysteresisSpec.validate at hspec
  simp only [ite_makeStatus_eq_ok, not_or] at hspec
  exact ⟨hspec.2.2.1.1, UInt32.not_lt.mp hspec.2.2.1.2⟩

end Valid

end EFG
