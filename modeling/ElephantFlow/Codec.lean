/-
# Canonical encoders and decoders

The wire forms of `codec.cpp`.  An encoder is the list of chunks it writes, a
decoder reads them back in the same order; `decodes_*` is the round trip of each
pair, with the side conditions under which the decoder accepts what the encoder
wrote.
-/
import ElephantFlow.Governor

namespace EFG

open ByteCodec Decoder

/-! ## Errors and small readers -/

/-- `fail`. -/
def truncated (what : String) : Status := ⟨.truncated, what⟩

/-- `oversize`. -/
def oversize (what : String) : Status := ⟨.oversized, what⟩

/-- `bad_value`. -/
def badValue (what : String) : Status := ⟨.corrupt, what⟩

/-- `read_count`. -/
def readCount (ceiling : ℕ) : Decoder Status ℕ := do
  let count ← u32 (truncated "encoded collection length is missing")
  if count.toNat > ceiling then
    refuse (oversize "encoded collection length exceeds the ceiling")
  else pure count.toNat

/-- `read_enum`. -/
def readEnum {α : Type} (limit : UInt8) (cast : UInt8 → α) : Decoder Status α := do
  let raw ← u8 (truncated "encoded enumeration is missing")
  if raw ≥ limit then
    refuse (badValue "encoded enumeration value is not recognized")
  else pure (cast raw)

/-- The count of a collection that fits, in front of its items. -/
@[simp] theorem bind_readCount_apply {β : Type} {ceiling n : ℕ} (h : n ≤ ceiling) (hn : n < 4294967296)
    (f : ℕ → Decoder Status β) (rest : Bytes) :
    (readCount ceiling >>= f) (le32 (UInt32.ofNat n) ++ rest) = f n rest := by
  have hn' : (UInt32.ofNat n).toNat = n := by simpa using Nat.mod_eq_of_lt hn
  have hok : readCount ceiling (le32 (UInt32.ofNat n) ++ rest) = .ok (n, rest) := by
    simp [readCount, hn', Nat.not_lt.mpr h]
  exact bind_of_ok hok

@[simp] theorem bind_readEnum_apply {α β : Type} {limit raw : UInt8} (h : raw < limit)
    (cast : UInt8 → α) (f : α → Decoder Status β) (rest : Bytes) :
    (readEnum limit cast >>= f) (raw :: rest) = f (cast raw) rest := by
  have hok : readEnum limit cast (raw :: rest) = .ok (cast raw, rest) := by
    simp [readEnum, UInt8.not_le.mpr h]
  exact bind_of_ok hok

/-! ## Enumeration casts -/

def ServiceClass.ofU8 : UInt8 → ServiceClass
  | 1 => .bestEffort | 2 => .standard | 3 => .priority | 4 => .reserved | 5 => .control
  | _ => .unknown

def ProtectionState.ofU8 : UInt8 → ProtectionState
  | 1 => .unprotected | 2 => .protectedFlow | 3 => .nonPreemptible | _ => .unknown

def ThresholdKind.ofU8 : UInt8 → ThresholdKind
  | 0 => .always | 1 => .never | 2 => .cumulativeBytes | 3 => .durationTicks | 4 => .sustainedRate
  | 5 => .peakRate | 6 => .shareOfCapacity | 7 => .shareOfAvailable | 8 => .competingFlows
  | 9 => .competingElephants | 10 => .excessOverGuarantee | 11 => .serviceClassIs
  | 12 => .priorityAtLeast | 13 => .isProtected | 14 => .isNonPreemptible | 15 => .hasReservation
  | _ => .count

def RuleKind.ofU8 : UInt8 → RuleKind
  | 0 => .threshold | 1 => .all | 2 => .any | _ => .not

def Tri.ofU8 : UInt8 → Tri
  | 0 => .false | 1 => .true | _ => .unknown

def ElephantState.ofU8 : UInt8 → ElephantState
  | 1 => .notElephant | 2 => .elephant | 3 => .suspended | _ => .unknown

def AuthorityLevel.ofU8 : UInt8 → AuthorityLevel
  | 1 => .observe | 2 => .govern | _ => .none

def IntentKind.ofU8 : UInt8 → IntentKind
  | 0 => .observeOnly | 1 => .requestAlternatePlacement | 2 => .requestRateShaping
  | 3 => .requestSchedulingIsolation | 4 => .protectReservedFlow | 5 => .reduceCompetingAdmission
  | 6 => .escalateCongestion | _ => .count

def IntentState.ofU8 : UInt8 → IntentState
  | 1 => .authorized | 2 => .clamped | 3 => .active | 4 => .revoked | 5 => .fenced
  | 6 => .expired | 7 => .completed | _ => .suppressed

@[simp] theorem ServiceClass.ofU8_toU8 (c : ServiceClass) : ofU8 c.toU8 = c := by cases c <;> rfl

@[simp] theorem ServiceClass.toU8_lt (c : ServiceClass) : c.toU8 < 6 := by cases c <;> decide

@[simp] theorem ProtectionState.ofU8_toU8 (c : ProtectionState) : ofU8 c.toU8 = c := by
  cases c <;> rfl

@[simp] theorem ProtectionState.toU8_lt (c : ProtectionState) : c.toU8 < 4 := by
  cases c <;> decide

@[simp] theorem ThresholdKind.ofU8_toU8 (k : ThresholdKind) : ofU8 k.toU8 = k := by cases k <;> rfl

@[simp] theorem ThresholdKind.toU8_lt_iff (k : ThresholdKind) : k.toU8 < 16 ↔ k ≠ .count := by
  cases k <;> decide

@[simp] theorem RuleKind.ofU8_toU8 (k : RuleKind) : ofU8 k.toU8 = k := by cases k <;> rfl

@[simp] theorem RuleKind.toU8_lt (k : RuleKind) : k.toU8 < 4 := by cases k <;> decide

@[simp] theorem Tri.ofU8_toU8 (t : Tri) : ofU8 t.toU8 = t := by cases t <;> rfl

@[simp] theorem Tri.toU8_lt (t : Tri) : t.toU8 < 3 := by cases t <;> decide

@[simp] theorem ElephantState.ofU8_toU8 (s : ElephantState) : ofU8 s.toU8 = s := by cases s <;> rfl

@[simp] theorem ElephantState.toU8_lt (s : ElephantState) : s.toU8 < 4 := by cases s <;> decide

@[simp] theorem AuthorityLevel.ofU8_toU8 (a : AuthorityLevel) : ofU8 a.toU8 = a := by
  cases a <;> rfl

@[simp] theorem AuthorityLevel.toU8_lt (a : AuthorityLevel) : a.toU8 < 3 := by cases a <;> decide

@[simp] theorem IntentKind.ofU8_toU8 (k : IntentKind) : ofU8 k.toU8 = k := by cases k <;> rfl

@[simp] theorem IntentKind.toU8_lt_iff (k : IntentKind) : k.toU8 < 7 ↔ k ≠ .count := by
  cases k <;> decide

@[simp] theorem IntentState.ofU8_toU8 (s : IntentState) : ofU8 s.toU8 = s := by cases s <;> rfl

@[simp] theorem IntentState.toU8_lt (s : IntentState) : s.toU8 < 8 := by cases s <;> decide

/-! ## Ticks and provenance -/

instance : Wire Status TickSpan where
  encode s := [le64 s.beginAt, le64 s.endAt]
  decode := do
    let e := truncated "tick span is truncated"
    let beginAt ← u64 e
    let endAt ← u64 e
    pure ⟨beginAt, endAt⟩

instance : Wire Status ValidityWindow where
  encode w := [le64 w.issuedAt, le64 w.expiresAt]
  decode := do
    let e := truncated "validity window is truncated"
    let issuedAt ← u64 e
    let expiresAt ← u64 e
    pure ⟨issuedAt, expiresAt⟩

instance : Wire Status Provenance where
  encode p := [le64 p.publisher.publisher.value, le64 p.publisher.boot.value,
    le64 p.publisher.epoch.value, le64 p.publisher.sequence, le64 p.emittedAt,
    le32 p.schemaVersion, le64 p.digest]
  decode := do
    let e := truncated "provenance is truncated"
    let publisher ← u64 e
    let boot ← u64 e
    let epoch ← u64 e
    let sequence ← u64 e
    let emittedAt ← u64 e
    let schemaVersion ← u32 e
    let digest ← u64 e
    pure ⟨⟨⟨publisher⟩, ⟨boot⟩, ⟨epoch⟩, sequence⟩, emittedAt, schemaVersion, digest⟩

/-! ## Policies -/

instance : Wire Status Threshold where
  encode t := [[t.kind.toU8], le64 t.value, [t.classOperand.toU8]]
  decode := do
    let kind ← readEnum 16 ThresholdKind.ofU8
    let value ← u64 (truncated "threshold value is truncated")
    let classOperand ← readEnum 6 ServiceClass.ofU8
    pure ⟨kind, value, classOperand⟩
  Fits t := t.kind ≠ .count
  decodes := by
    intro t h rest
    simp [h, -bind_pure_comp]

instance : Wire Status UInt32 where
  encode v := [le32 v]
  decode := u32 (truncated "rule child index is truncated")
  decodes := by
    intro v _
    simpa using decodes_u32 v _

instance : Wire Status RuleNode where
  encode n := [[n.kind.toU8]] ++ encode n.threshold ++ [le32 (UInt32.ofNat n.children.length)] ++
    n.children.flatMap encode
  decode := do
    let kind ← readEnum 4 RuleKind.ofU8
    let threshold ← decode
    let count ← readCount kMaxPolicyNodes
    let children ← times decode count
    pure ⟨kind, threshold, children⟩
  Fits n := Fits n.threshold ∧ n.children.length ≤ kMaxPolicyNodes
  decodes := by
    rintro n ⟨ht, hc⟩ rest
    have hlt : n.children.length < 4294967296 := lt_of_le_of_lt hc (by decide)
    have hch : ∀ c ∈ n.children, Fits c := fun _ _ => trivial
    simp [ht, hc, hlt, bind_times_decode_apply hch, -bind_pure_comp]

instance : Wire Status RuleSet where
  encode r := [le32 (UInt32.ofNat r.nodes.length), le32 r.root] ++ r.nodes.flatMap encode
  decode := do
    let count ← readCount kMaxPolicyNodes
    let root ← u32 (truncated "rule root index is truncated")
    let nodes ← times decode count
    pure ⟨nodes, root⟩
  Fits r := r.nodes.length ≤ kMaxPolicyNodes ∧ ∀ n ∈ r.nodes, Fits n
  decodes := by
    rintro r ⟨hc, hn⟩ rest
    have hlt : r.nodes.length < 4294967296 := lt_of_le_of_lt hc (by decide)
    simp [hc, hlt, bind_times_decode_apply hn, -bind_pure_comp]

instance : Wire Status HysteresisSpec where
  encode h := [le32 h.enterConfirmWindows, le32 h.exitConfirmWindows, le32 h.exitScaleBp]
  decode := do
    let e := truncated "hysteresis specification is truncated"
    let enterConfirmWindows ← u32 e
    let exitConfirmWindows ← u32 e
    let exitScaleBp ← u32 e
    pure ⟨enterConfirmWindows, exitConfirmWindows, exitScaleBp⟩

instance : Wire Status IntentAuthorization where
  encode a := [leBool a.allowAlternatePlacement, leBool a.allowRateShaping,
    leBool a.allowSchedulingIsolation, leBool a.allowCompetingAdmissionReduction,
    leBool a.allowCongestionEscalation, leBool a.protectObligations, le32 a.maxShapingReductionBp,
    le64 a.maxIntentDurationTicks, le32 a.maxTargets, le32 a.minImpactSeverity,
    le32 a.minContentionPressure]
  decode := do
    let e := truncated "authorization envelope is truncated"
    let allowAlternatePlacement ← bool e
    let allowRateShaping ← bool e
    let allowSchedulingIsolation ← bool e
    let allowCompetingAdmissionReduction ← bool e
    let allowCongestionEscalation ← bool e
    let protectObligations ← bool e
    let maxShapingReductionBp ← u32 e
    let maxIntentDurationTicks ← u64 e
    let maxTargets ← u32 e
    let minImpactSeverity ← u32 e
    let minContentionPressure ← u32 e
    pure ⟨allowAlternatePlacement, allowRateShaping, allowSchedulingIsolation,
      allowCompetingAdmissionReduction, allowCongestionEscalation, protectObligations,
      maxShapingReductionBp, maxIntentDurationTicks, maxTargets, minImpactSeverity,
      minContentionPressure⟩

instance : Wire Status PolicyDocument where
  encode p := [le64 p.id.value, le64 p.generation.value] ++ encode p.enterRule ++
    encode p.exitRule ++ encode p.hysteresis ++ encode p.authorization ++ encode p.validity ++
    encode p.provenance ++ [le64 p.digest]
  decode := do
    let e := truncated "policy identity is truncated"
    let id ← u64 e
    let generation ← u64 e
    let enterRule ← decode
    let exitRule ← decode
    let hysteresis ← decode
    let authorization ← decode
    let validity ← decode
    let provenance ← decode
    let digest ← u64 (truncated "policy digest is truncated")
    pure ⟨⟨id⟩, ⟨generation⟩, enterRule, exitRule, hysteresis, authorization, validity, provenance,
      digest⟩
  Fits p := Fits p.enterRule ∧ Fits p.exitRule
  decodes := by
    rintro p ⟨henter, hexit⟩ rest
    have hh : Fits p.hysteresis := trivial
    have ha : Fits p.authorization := trivial
    have hv : Fits p.validity := trivial
    have hp : Fits p.provenance := trivial
    simp [henter, hexit, hh, ha, hv, hp, -bind_pure_comp]

/-! ## Evidence -/

/-- A priority on the wire: the flag, then the level, which is checked only when known. -/
def encodePriority (p : Priority) : List Bytes := [leBool p.known, [p.level]]

/-- The priority readers of samples and measurements, with their own messages. -/
def decodePriority (flagError levelError rangeError : Status) : Decoder Status Priority := do
  let known ← bool flagError
  let level ← u8 levelError
  if known ∧ level > Priority.kMaxLevel then refuse rangeError
  else pure (if known then some level else none)

/-- A priority within the supported range. -/
def Priority.InRange (p : Priority) : Prop := ∀ level, p = some level → level ≤ kMaxLevel

@[simp] theorem bind_decodePriority_apply {β : Type} {p : Priority} (h : p.InRange)
    (e₁ e₂ e₃ : Status) (f : Priority → Decoder Status β) (rest : Bytes) :
    (decodePriority e₁ e₂ e₃ >>= f) (leBool p.known ++ p.level :: rest) = f p rest := by
  have hok : decodePriority e₁ e₂ e₃ (leBool p.known ++ p.level :: rest) = .ok (p, rest) := by
    unfold decodePriority
    rw [bind_bool_apply, bind_u8_apply]
    cases p with
    | none => rfl
    | some level =>
      have hle := h level rfl
      rw [if_neg (by
        simp only [Priority.level, Option.getD_some, gt_iff_lt, not_and]
        intro _
        exact UInt8.not_lt.mpr hle)]
      rfl
  exact bind_of_ok hok

instance : Wire Status FlowSample where
  encode s := [le64 s.flow.value, le64 s.flowGeneration.value, le64 s.path.value,
    le64 s.pathGeneration.value, le64 s.window.value, le64 s.windowSequence] ++ encode s.span ++
    [le64 s.cumulativeBytes, le64 s.windowBytes, [s.serviceClass.toU8]] ++
    encodePriority s.priority ++
    [[s.protection.toU8], le64 s.reservation.value, le64 s.tenant.value] ++
    encode s.validity ++ encode s.provenance
  decode := do
    let e := truncated "evidence identity is truncated"
    let flow ← u64 e
    let flowGeneration ← u64 e
    let path ← u64 e
    let pathGeneration ← u64 e
    let window ← u64 e
    let windowSequence ← u64 e
    let span ← decode
    let e := truncated "evidence volumes are truncated"
    let cumulativeBytes ← u64 e
    let windowBytes ← u64 e
    let serviceClass ← readEnum 6 ServiceClass.ofU8
    let priority ← decodePriority (truncated "evidence priority flag is truncated")
      (truncated "evidence priority level is truncated")
      (badValue "evidence priority level is out of range")
    let protection ← readEnum 4 ProtectionState.ofU8
    let e := truncated "evidence obligation references are truncated"
    let reservation ← u64 e
    let tenant ← u64 e
    let validity ← decode
    let provenance ← decode
    pure ⟨⟨flow⟩, ⟨flowGeneration⟩, ⟨path⟩, ⟨pathGeneration⟩, ⟨window⟩, windowSequence, span,
      cumulativeBytes, windowBytes, serviceClass, priority, protection, ⟨reservation⟩, ⟨tenant⟩,
      validity, provenance⟩
  Fits s := s.priority.InRange
  decodes := by
    intro s h rest
    have hs : Fits s.span := trivial
    have hv : Fits s.validity := trivial
    have hp : Fits s.provenance := trivial
    simp [encodePriority, h, hs, hv, hp, -bind_pure_comp]

instance : Wire Status FlowMeasurements where
  encode m := [leBool m.evidencePresent, leBool m.evidenceContiguous, leBool m.gapDetected,
    leBool m.capacityKnown, leBool m.pathKnown] ++ encode m.observed ++
    [le64 m.durationTicks, le64 m.cumulativeBytes, le64 m.retainedWindowBytes,
      le64 m.sustainedRate, le64 m.peakWindowRate, le64 m.sampleCount, le64 m.windowCount,
      le64 m.droppedWindows, [m.serviceClass.toU8]] ++ encodePriority m.priority ++
    [[m.protection.toU8], le64 m.reservation.value, leBool m.hasReservation, le64 m.tenant.value,
      leBool m.completed, le64 m.bindingResource.value, le64 m.resourceCapacity,
      le64 m.resourceReserved, le64 m.resourceAvailable, le32 m.shareOfCapacity,
      le32 m.shareOfAvailable, le32 m.competingFlows, le32 m.competingElephants,
      le64 m.excessOverGuarantee, leBool m.fieldsComplete]
  decode := do
    let e := truncated "measurement flags are truncated"
    let evidencePresent ← bool e
    let evidenceContiguous ← bool e
    let gapDetected ← bool e
    let capacityKnown ← bool e
    let pathKnown ← bool e
    let observed ← decode
    let e := truncated "measurement volumes are truncated"
    let durationTicks ← u64 e
    let cumulativeBytes ← u64 e
    let retainedWindowBytes ← u64 e
    let sustainedRate ← u64 e
    let peakWindowRate ← u64 e
    let sampleCount ← u64 e
    let windowCount ← u64 e
    let droppedWindows ← u64 e
    let serviceClass ← readEnum 6 ServiceClass.ofU8
    let priority ← decodePriority (truncated "measurement priority flag is truncated")
      (truncated "measurement priority level is truncated")
      (badValue "measurement priority level is out of range")
    let protection ← readEnum 4 ProtectionState.ofU8
    let e := truncated "measurement tail is truncated"
    let reservation ← u64 e
    let hasReservation ← bool e
    let tenant ← u64 e
    let completed ← bool e
    let bindingResource ← u64 e
    let resourceCapacity ← u64 e
    let resourceReserved ← u64 e
    let resourceAvailable ← u64 e
    let shareOfCapacity ← u32 e
    let shareOfAvailable ← u32 e
    let competingFlows ← u32 e
    let competingElephants ← u32 e
    let excessOverGuarantee ← u64 e
    let fieldsComplete ← bool e
    pure ⟨evidencePresent, evidenceContiguous, gapDetected, capacityKnown, pathKnown, observed,
      durationTicks, cumulativeBytes, retainedWindowBytes, sustainedRate, peakWindowRate,
      sampleCount, windowCount, droppedWindows, serviceClass, priority, protection,
      ⟨reservation⟩, hasReservation, ⟨tenant⟩, completed, ⟨bindingResource⟩, resourceCapacity,
      resourceReserved, resourceAvailable, shareOfCapacity, shareOfAvailable, competingFlows,
      competingElephants, excessOverGuarantee, fieldsComplete⟩
  Fits m := m.priority.InRange
  decodes := by
    intro m h rest
    have ho : Fits m.observed := trivial
    simp [encodePriority, h, ho, -bind_pure_comp]

instance : Wire Status ResourceCapacity where
  encode c := [le64 c.resource.value, le64 c.generation.value, le64 c.snapshot.value] ++
    encode c.span ++ [le64 c.capacity, le64 c.reserved] ++ encode c.validity ++
    encode c.provenance
  decode := do
    let e := truncated "capacity identity is truncated"
    let resource ← u64 e
    let generation ← u64 e
    let snapshot ← u64 e
    let span ← decode
    let e := truncated "capacity volumes are truncated"
    let capacity ← u64 e
    let reserved ← u64 e
    let validity ← decode
    let provenance ← decode
    pure ⟨⟨resource⟩, ⟨generation⟩, ⟨snapshot⟩, span, capacity, reserved, validity, provenance⟩
  decodes := by
    intro c _ rest
    have hs : Fits c.span := trivial
    have hv : Fits c.validity := trivial
    have hp : Fits c.provenance := trivial
    simp [hs, hv, hp, -bind_pure_comp]

instance : Wire Status ResourceId where
  encode r := [le64 r.value]
  decode := do
    let resource ← u64 (truncated "path resource list is truncated")
    pure ⟨resource⟩

instance : Wire Status PathDescriptor where
  encode p := [le64 p.path.value, le64 p.generation.value,
    le32 (UInt32.ofNat p.resources.length)] ++ p.resources.flatMap encode ++ encode p.validity ++
    encode p.provenance
  decode := do
    let e := truncated "path identity is truncated"
    let path ← u64 e
    let generation ← u64 e
    let count ← readCount kMaxResourcesPerPath
    let resources ← times decode count
    let validity ← decode
    let provenance ← decode
    pure ⟨⟨path⟩, ⟨generation⟩, resources, validity, provenance⟩
  Fits p := p.resources.length ≤ kMaxResourcesPerPath
  decodes := by
    intro p h rest
    have hlt : p.resources.length < 4294967296 := lt_of_le_of_lt h (by decide)
    have hr : ∀ r ∈ p.resources, Fits r := fun _ _ => trivial
    have hv : Fits p.validity := trivial
    have hp : Fits p.provenance := trivial
    simp [h, hlt, bind_times_decode_apply hr, hv, hp, -bind_pure_comp]

/-! ## Decisions -/

instance : Wire Status ImpactAssessment where
  encode i := [leBool i.defined, le32 i.shareOfCapacity, le32 i.shareOfAvailable,
    le32 i.ratePressure, le32 i.contentionPressure, le64 i.excessRate, le64 i.excessOverGuarantee,
    le32 i.competingFlows, le32 i.competingElephants, leBool i.protectedObligationConflict,
    le32 i.severity]
  decode := do
    let e := truncated "impact assessment is truncated"
    let defined ← bool e
    let shareOfCapacity ← u32 e
    let shareOfAvailable ← u32 e
    let ratePressure ← u32 e
    let contentionPressure ← u32 e
    let excessRate ← u64 e
    let excessOverGuarantee ← u64 e
    let competingFlows ← u32 e
    let competingElephants ← u32 e
    let protectedObligationConflict ← bool e
    let severity ← u32 e
    pure ⟨defined, shareOfCapacity, shareOfAvailable, ratePressure, contentionPressure, excessRate,
      excessOverGuarantee, competingFlows, competingElephants, protectedObligationConflict,
      severity⟩

instance : Wire Status AuthorityVector where
  encode v := [le64 v.flow.value, le64 v.flowGeneration.value, le64 v.path.value,
    le64 v.pathGeneration.value, le64 v.capacity.value, le64 v.capacityGeneration.value,
    le64 v.window.value, le64 v.windowSequence, le64 v.policy.value, le64 v.policyGeneration.value,
    le64 v.classificationGeneration.value, le64 v.epoch.value, le64 v.boot.value,
    le64 v.publisher.value, le64 v.publisherBoot.value] ++ encode v.validity ++
    [le32 v.boundFlags]
  decode := do
    let e := truncated "authority identity vector is truncated"
    let flow ← u64 e
    let flowGeneration ← u64 e
    let path ← u64 e
    let pathGeneration ← u64 e
    let capacity ← u64 e
    let capacityGeneration ← u64 e
    let window ← u64 e
    let windowSequence ← u64 e
    let policy ← u64 e
    let policyGeneration ← u64 e
    let classificationGeneration ← u64 e
    let epoch ← u64 e
    let boot ← u64 e
    let publisher ← u64 e
    let publisherBoot ← u64 e
    let validity ← decode
    let boundFlags ← u32 (truncated "authority binding flags are truncated")
    pure ⟨⟨flow⟩, ⟨flowGeneration⟩, ⟨path⟩, ⟨pathGeneration⟩, ⟨capacity⟩, ⟨capacityGeneration⟩,
      ⟨window⟩, windowSequence, ⟨policy⟩, ⟨policyGeneration⟩, ⟨classificationGeneration⟩, ⟨epoch⟩,
      ⟨boot⟩, ⟨publisher⟩, ⟨publisherBoot⟩, validity, boundFlags⟩
  decodes := by
    intro v _ rest
    have hv : Fits v.validity := trivial
    simp [hv, -bind_pure_comp]

instance : Wire Status ThresholdTraceEntry where
  encode t := [le32 t.nodeIndex, [t.kind.toU8], [t.result.toU8], leBool t.observedDefined,
    le64 t.observedValue, le64 t.thresholdValue]
  decode := do
    let nodeIndex ← u32 (truncated "threshold trace entry is truncated")
    let kind ← readEnum 16 ThresholdKind.ofU8
    let result ← readEnum 3 Tri.ofU8
    let e := truncated "threshold trace values are truncated"
    let observedDefined ← bool e
    let observedValue ← u64 e
    let thresholdValue ← u64 e
    pure ⟨nodeIndex, kind, result, observedValue, thresholdValue, observedDefined⟩
  Fits t := t.kind ≠ .count
  decodes := by
    intro t h rest
    simp [h, -bind_pure_comp]

instance : Wire Status FlowClassification where
  encode c := [le64 c.id.value, le64 c.generation.value, le64 c.flow.value,
    le64 c.flowGeneration.value, [c.state.toU8], [c.authority.toU8]] ++ encode c.authorityVector ++
    [le64 c.reasons.bits, le64 c.decidedAt] ++ encode c.validity ++ encode c.measurements ++
    encode c.impact ++ [le32 (UInt32.ofNat c.trace.length)] ++ c.trace.flatMap encode ++
    [leBool c.traceTruncated, le32 c.enterStreak, le32 c.exitStreak, le64 c.historyDigest,
      le64 c.digest]
  decode := do
    let e := truncated "classification identity is truncated"
    let id ← u64 e
    let generation ← u64 e
    let flow ← u64 e
    let flowGeneration ← u64 e
    let state ← readEnum 4 ElephantState.ofU8
    let authority ← readEnum 3 AuthorityLevel.ofU8
    let authorityVector ← decode
    let reasons ← u64 (truncated "classification reason mask is truncated")
    let decidedAt ← u64 (truncated "classification decision tick is truncated")
    let validity ← decode
    let measurements ← decode
    let impact ← decode
    let count ← readCount kMaxTraceEntries
    let trace ← times decode count
    let e := truncated "classification tail is truncated"
    let traceTruncated ← bool e
    let enterStreak ← u32 e
    let exitStreak ← u32 e
    let historyDigest ← u64 e
    let digest ← u64 e
    pure ⟨⟨id⟩, ⟨generation⟩, ⟨flow⟩, ⟨flowGeneration⟩, state, authority, authorityVector,
      ⟨reasons⟩, decidedAt, validity, measurements, impact, trace, traceTruncated, enterStreak,
      exitStreak, historyDigest, digest⟩
  Fits c := Fits c.measurements ∧ c.trace.length ≤ kMaxTraceEntries ∧ ∀ t ∈ c.trace, Fits t
  decodes := by
    rintro c ⟨hm, hc, ht⟩ rest
    have hlt : c.trace.length < 4294967296 := lt_of_le_of_lt hc (by decide)
    have ha : Fits c.authorityVector := trivial
    have hv : Fits c.validity := trivial
    have hi : Fits c.impact := trivial
    simp [ha, hv, hm, hi, hc, hlt, bind_times_decode_apply ht, -bind_pure_comp]

instance : Wire Status ClassificationTransition where
  encode t := [le64 t.atTick, [t.fromState.toU8], [t.toState.toU8], [t.authority.toU8],
    le64 t.reasons.bits, le64 t.classification.value, le64 t.classificationGeneration.value]
  decode := do
    let atTick ← u64 (truncated "classification transition tick is truncated")
    let fromState ← readEnum 4 ElephantState.ofU8
    let toState ← readEnum 4 ElephantState.ofU8
    let authority ← readEnum 3 AuthorityLevel.ofU8
    let e := truncated "classification transition tail is truncated"
    let reasons ← u64 e
    let classification ← u64 e
    let generation ← u64 e
    pure ⟨atTick, fromState, toState, authority, ⟨reasons⟩, ⟨classification⟩, ⟨generation⟩⟩

instance : Wire Status IntentBounds where
  encode b := [le32 b.rateReductionBp, le64 b.durationTicks, le32 b.targets, leBool b.placement,
    leBool b.isolation, leBool b.admissionReduction, leBool b.congestionEscalation]
  decode := do
    let e := truncated "intent bounds are truncated"
    let rateReductionBp ← u32 e
    let durationTicks ← u64 e
    let targets ← u32 e
    let placement ← bool e
    let isolation ← bool e
    let admissionReduction ← bool e
    let congestionEscalation ← bool e
    pure ⟨rateReductionBp, durationTicks, targets, placement, isolation, admissionReduction,
      congestionEscalation⟩

instance : Wire Status GovernanceIntent where
  encode i := [le64 i.id.value, le64 i.attempt.value, [i.kind.toU8], le64 i.flow.value,
    le64 i.flowGeneration.value, le64 i.classification.value,
    le64 i.classificationGeneration.value, [i.state.toU8], le32 i.suppressed.bits] ++
    encode i.requested ++ encode i.granted ++
    [le32 i.severity, le32 i.contentionPressure, le32 i.competingElephants] ++ encode i.window ++
    encode i.authority ++ encode i.provenance ++ [le64 i.digest]
  decode := do
    let e := truncated "intent identity is truncated"
    let id ← u64 e
    let attempt ← u64 e
    let kind ← readEnum 7 IntentKind.ofU8
    let e := truncated "intent bindings are truncated"
    let flow ← u64 e
    let flowGeneration ← u64 e
    let classification ← u64 e
    let classificationGeneration ← u64 e
    let state ← readEnum 8 IntentState.ofU8
    let suppressed ← u32 (truncated "intent suppression reason is truncated")
    let requested ← decode
    let granted ← decode
    let e := truncated "intent impact figures are truncated"
    let severity ← u32 e
    let contentionPressure ← u32 e
    let competingElephants ← u32 e
    let window ← decode
    let authority ← decode
    let provenance ← decode
    let digest ← u64 (truncated "intent digest is truncated")
    pure ⟨⟨id⟩, ⟨attempt⟩, kind, ⟨flow⟩, ⟨flowGeneration⟩, ⟨classification⟩,
      ⟨classificationGeneration⟩, state, ⟨suppressed⟩, requested, granted, severity,
      contentionPressure, competingElephants, window, authority, provenance, digest⟩
  Fits i := i.kind ≠ .count
  decodes := by
    intro i h rest
    have hr : Fits i.requested := trivial
    have hg : Fits i.granted := trivial
    have hw : Fits i.window := trivial
    have ha : Fits i.authority := trivial
    have hp : Fits i.provenance := trivial
    simp [h, hr, hg, hw, ha, hp, -bind_pure_comp]

end EFG
