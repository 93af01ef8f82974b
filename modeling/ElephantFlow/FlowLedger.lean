/-
# Flow evidence

The samples, the derived measurements and the bounded ledger of one
`(FlowId, Generation)` pair (`flow.hpp`, `flow.cpp`).  A ledger keeps one
contiguous run of windows; `append` is the only operation that changes the run,
and it restarts the run *before* it checks the configured byte ceilings, so a
refused sample may still have emptied the ledger.
-/
import ElephantFlow.Hash

namespace EFG

open ByteCodec

/-! ## Samples -/

/-- `ServiceClass`. -/
inductive ServiceClass
  | unknown | bestEffort | standard | priority | reserved | control
  deriving DecidableEq, Repr, Inhabited

/-- `ProtectionState`. -/
inductive ProtectionState
  | unknown | unprotected | protectedFlow | nonPreemptible
  deriving DecidableEq, Repr, Inhabited

/-- The encoding of a service class. -/
def ServiceClass.toU8 : ServiceClass → UInt8
  | .unknown => 0 | .bestEffort => 1 | .standard => 2 | .priority => 3 | .reserved => 4
  | .control => 5

/-- The encoding of a protection state. -/
def ProtectionState.toU8 : ProtectionState → UInt8
  | .unknown => 0 | .unprotected => 1 | .protectedFlow => 2 | .nonPreemptible => 3

/-- `Priority`: a level with an explicit unknown state. -/
abbrev Priority := Option UInt8

/-- `Priority::known`. -/
def Priority.known (p : Priority) : Bool := p.isSome

/-- `Priority::level`. -/
def Priority.level (p : Priority) : UInt8 := p.getD 0

/-- `Priority::kMaxLevel`. -/
def Priority.kMaxLevel : UInt8 := 7

/-- `FlowSample`: one observation window of one flow generation. -/
structure FlowSample where
  flow : FlowId := {}
  flowGeneration : Generation := {}
  path : PathId := {}
  pathGeneration : Generation := {}
  window : EvidenceWindowId := {}
  windowSequence : UInt64 := 0
  span : TickSpan := {}
  cumulativeBytes : UInt64 := 0
  windowBytes : UInt64 := 0
  serviceClass : ServiceClass := .unknown
  priority : Priority := none
  protection : ProtectionState := .unknown
  reservation : ReservationId := {}
  tenant : TenantId := {}
  validity : ValidityWindow := {}
  provenance : Provenance := {}
  deriving DecidableEq, Repr, Inhabited

/-- `sample_digest`: everything but the provenance digest itself. -/
def FlowSample.digest (s : FlowSample) : UInt64 :=
  hasherDigest [le64 s.flow.value, le64 s.flowGeneration.value, le64 s.path.value,
    le64 s.pathGeneration.value, le64 s.window.value, le64 s.windowSequence,
    le64 s.span.beginAt, le64 s.span.endAt, le64 s.cumulativeBytes, le64 s.windowBytes,
    [s.serviceClass.toU8], leBool s.priority.known, [s.priority.level], [s.protection.toU8],
    le64 s.reservation.value, le64 s.tenant.value, le64 s.validity.issuedAt,
    le64 s.validity.expiresAt, le64 s.provenance.publisher.publisher.value,
    le64 s.provenance.publisher.boot.value, le64 s.provenance.publisher.epoch.value,
    le64 s.provenance.publisher.sequence, le64 s.provenance.emittedAt,
    le32 s.provenance.schemaVersion]

/-- `FlowSample::validate`. -/
def FlowSample.validate (s : FlowSample) : Except Status Unit :=
  if ¬ s.flow.valid then makeStatus .invalidArgument "flow identifier is absent"
  else if ¬ s.flowGeneration.valid then makeStatus .invalidArgument "flow generation is absent"
  else if ¬ s.path.valid then makeStatus .invalidArgument "path identifier is absent"
  else if ¬ s.pathGeneration.valid then makeStatus .invalidArgument "path generation is absent"
  else if ¬ s.window.valid then
    makeStatus .invalidArgument "evidence window identifier is absent"
  else if s.windowSequence = 0 then
    makeStatus .invalidArgument "evidence window sequence must be positive"
  else if s.span.endAt ≤ s.span.beginAt then
    makeStatus .invalidArgument "evidence span is empty or inverted"
  else if s.windowBytes > s.cumulativeBytes then
    makeStatus .contradictoryEvidence "window volume exceeds cumulative volume for the generation"
  else if ¬ s.validity.wellFormed then
    makeStatus .invalidArgument "evidence validity window is malformed"
  else if s.validity.issuedAt < s.span.beginAt then
    makeStatus .invalidArgument "evidence validity starts before the observed span"
  else if s.validity.expiresAt ≤ s.span.endAt then
    makeStatus .expired "evidence validity expires before the observed span ends"
  else if s.priority.known ∧ s.priority.level > Priority.kMaxLevel then
    makeStatus .outOfRange "priority level is outside the supported range"
  else if ¬ s.provenance.valid then makeStatus .invalidArgument "provenance is incomplete"
  else if s.provenance.schemaVersion ≠ kSchemaVersion then
    makeStatus .versionMismatch "provenance schema version is not supported"
  else if s.provenance.digest ≠ s.digest then
    makeStatus .integrityFailure "evidence digest does not match content"
  else .ok ()

/-! ## Measurements -/

/-- `FlowMeasurements`: the complete input of policy evaluation. -/
structure FlowMeasurements where
  evidencePresent : Bool := false
  evidenceContiguous : Bool := false
  gapDetected : Bool := false
  capacityKnown : Bool := false
  pathKnown : Bool := false
  observed : TickSpan := {}
  durationTicks : UInt64 := 0
  cumulativeBytes : UInt64 := 0
  retainedWindowBytes : UInt64 := 0
  sustainedRate : KiloTickRate := 0
  peakWindowRate : KiloTickRate := 0
  sampleCount : UInt64 := 0
  windowCount : UInt64 := 0
  droppedWindows : UInt64 := 0
  serviceClass : ServiceClass := .unknown
  priority : Priority := none
  protection : ProtectionState := .unknown
  reservation : ReservationId := {}
  hasReservation : Bool := false
  tenant : TenantId := {}
  completed : Bool := false
  bindingResource : ResourceId := {}
  resourceCapacity : KiloTickRate := 0
  resourceReserved : KiloTickRate := 0
  resourceAvailable : KiloTickRate := 0
  shareOfCapacity : BasisPoints := 0
  shareOfAvailable : BasisPoints := 0
  competingFlows : UInt32 := 0
  competingElephants : UInt32 := 0
  excessOverGuarantee : UInt64 := 0
  fieldsComplete : Bool := false
  deriving DecidableEq, Repr, Inhabited

/-- `FlowMeasurements::digest`. -/
def FlowMeasurements.digest (m : FlowMeasurements) : UInt64 :=
  hasherDigest [leBool m.evidencePresent, leBool m.evidenceContiguous, leBool m.gapDetected,
    leBool m.capacityKnown, leBool m.pathKnown, le64 m.observed.beginAt, le64 m.observed.endAt,
    le64 m.durationTicks, le64 m.cumulativeBytes, le64 m.retainedWindowBytes,
    le64 m.sustainedRate, le64 m.peakWindowRate, le64 m.sampleCount, le64 m.windowCount,
    le64 m.droppedWindows, [m.serviceClass.toU8], leBool m.priority.known, [m.priority.level],
    [m.protection.toU8], le64 m.reservation.value, leBool m.hasReservation, le64 m.tenant.value,
    leBool m.completed, le64 m.bindingResource.value, le64 m.resourceCapacity,
    le64 m.resourceReserved, le64 m.resourceAvailable, le32 m.shareOfCapacity,
    le32 m.shareOfAvailable, le32 m.competingFlows, le32 m.competingElephants,
    le64 m.excessOverGuarantee, leBool m.fieldsComplete]

/-! ## The ledger -/

/-- `FlowLedger::Limits`; a zero disables the respective check. -/
structure LedgerLimits where
  maxGapTicks : Tick := 0
  maxSamples : ℕ := kMaxSamplesPerFlow
  maxBytesPerWindow : UInt64 := 0
  maxCumulativeBytes : UInt64 := 0
  deriving DecidableEq, Repr, Inhabited

/-- `AppendOutcome`. -/
inductive AppendOutcome
  | accepted | duplicateIgnored | completed
  deriving DecidableEq, Repr, Inhabited

/-- `FlowLedger`. -/
structure FlowLedger where
  flow : FlowId := {}
  generation : Generation := {}
  limits : LedgerLimits := {}
  samples : List FlowSample := []
  latestValidity : ValidityWindow := {}
  lastSequence : UInt64 := 0
  lastWindow : EvidenceWindowId := {}
  lastSpanEnd : Tick := 0
  lastCumulative : UInt64 := 0
  lastPath : PathId := {}
  lastPathGeneration : Generation := {}
  generationCumulative : UInt64 := 0
  hasPrevious : Bool := false
  pathChanged : Bool := false
  gapDetected : Bool := false
  completed : Bool := false
  completedAt : Tick := 0
  droppedWindows : UInt64 := 0
  deriving DecidableEq, Repr, Inhabited

/-- The adjacent pairs of a list of windows. -/
def adjacent (samples : List FlowSample) : List (FlowSample × FlowSample) :=
  samples.zip samples.tail

/-- The rate of one window, saturating. -/
def windowRate (s : FlowSample) : UInt64 :=
  (mulDiv s.windowBytes kKiloTickScale s.span.length).getD u64Max

/-- `derive_measurements`. -/
def deriveMeasurements (samples : List FlowSample) (limits : LedgerLimits)
    (completed gapDetected : Bool) (droppedWindows : UInt64) : Except Status FlowMeasurements :=
  match samples.head?, samples.getLast? with
  | some first, some last =>
    if last.span.endAt < first.span.beginAt then
      makeStatus .contradictoryEvidence "evidence span ordering is inverted"
    else if samples.any (fun s => s.span.length = 0) then
      makeStatus .contradictoryEvidence "evidence window has zero length"
    else
      let observed : TickSpan := ⟨first.span.beginAt, last.span.endAt⟩
      let windowSum := samples.foldl (fun acc s => saturatingAdd acc s.windowBytes) 0
      let contiguous := decide (samples.length ≥ 2) &&
        (adjacent samples).all (fun p => p.2.span.beginAt = p.1.span.endAt)
      -- A single long gap between retained windows also breaks contiguity.
      let gap := gapDetected || (limits.maxGapTicks ≠ 0 &&
        (adjacent samples).any (fun p => p.2.span.beginAt > p.1.span.endAt &&
          p.2.span.beginAt - p.1.span.endAt > limits.maxGapTicks))
      if observed.length = 0 then
        makeStatus .unknownEvidence "evidence span has zero duration"
      else
        match mulDiv windowSum kKiloTickScale observed.length with
        | none => makeStatus .overflow "sustained rate computation overflowed"
        | some rate =>
          let retained := last.span.endAt - first.span.beginAt
          let sustained :=
            if droppedWindows ≠ 0 ∧ samples.length ≥ 2 ∧ retained ≠ 0 then
              (mulDiv windowSum kKiloTickScale retained).getD rate
            else rate
          .ok {
            evidencePresent := true
            observed := observed
            durationTicks := observed.length
            cumulativeBytes := last.cumulativeBytes
            sampleCount := UInt64.ofNat samples.length
            windowCount := UInt64.ofNat samples.length
            droppedWindows := droppedWindows
            gapDetected := gap
            completed := completed
            serviceClass := last.serviceClass
            priority := last.priority
            protection := last.protection
            reservation := last.reservation
            hasReservation := last.reservation.valid
            tenant := last.tenant
            peakWindowRate := samples.foldl (fun acc s => maxOf acc (windowRate s)) 0
            retainedWindowBytes := windowSum
            evidenceContiguous := contiguous && !gap
            sustainedRate := sustained
            fieldsComplete := !gap && last.serviceClass ≠ .unknown &&
              last.protection ≠ .unknown && last.priority.known }
  | _, _ => .ok { completed := completed, droppedWindows := droppedWindows }

namespace FlowLedger

/-- The constructor `FlowLedger(flow, generation, limits)`. -/
def make (flow : FlowId) (generation : Generation) (limits : LedgerLimits) : FlowLedger :=
  { flow := flow, generation := generation
    limits := { limits with
      maxSamples :=
        if limits.maxSamples = 0 then 1
        else if limits.maxSamples > kMaxSamplesPerFlow then kMaxSamplesPerFlow
        else limits.maxSamples } }

/-- `FlowLedger::latest`. -/
def latest (l : FlowLedger) : Option FlowSample := l.samples.getLast?

/-- `FlowLedger::check_order`.  The cumulative delta is a wrapping subtraction. -/
def checkOrder (l : FlowLedger) (s : FlowSample) : Except Status Unit :=
  if ¬ l.hasPrevious then .ok ()
  else if s.windowSequence ≤ l.lastSequence then
    makeStatus .contradictoryEvidence "evidence window sequence did not advance"
  else if s.span.beginAt < l.lastSpanEnd then
    makeStatus .contradictoryEvidence "evidence windows overlap the previously accepted window"
  else if s.span.beginAt = l.lastSpanEnd ∧ s.cumulativeBytes - l.lastCumulative ≠ s.windowBytes then
    makeStatus .contradictoryEvidence
      "contiguous window volume disagrees with the cumulative delta"
  else .ok ()

/-- The sample is on another path, or on another generation of it, than the last window. -/
def movedPath (l : FlowLedger) (s : FlowSample) : Bool :=
  s.path ≠ l.lastPath || s.pathGeneration ≠ l.lastPathGeneration

/-- The sample does not adjoin the last window. -/
def discontinuous (l : FlowLedger) (s : FlowSample) : Bool := s.span.beginAt ≠ l.lastSpanEnd

/-- The sample cannot extend the retained run and starts a new measurement epoch. -/
def restarts (l : FlowLedger) (s : FlowSample) : Bool :=
  l.hasPrevious && (l.movedPath s || l.discontinuous s)

/-- The epoch restart inside `FlowLedger::append`. -/
def restartEpoch (l : FlowLedger) (s : FlowSample) : FlowLedger :=
  if l.restarts s then
    { l with
      droppedWindows := l.droppedWindows + UInt64.ofNat l.samples.length
      samples := []
      lastSequence := 0
      lastWindow := {}
      lastSpanEnd := 0
      lastCumulative := 0
      hasPrevious := false
      gapDetected := l.discontinuous s && !l.movedPath s && l.limits.maxGapTicks ≠ 0 &&
        s.span.beginAt > l.lastSpanEnd && s.span.beginAt - l.lastSpanEnd > l.limits.maxGapTicks
      pathChanged := l.pathChanged || l.movedPath s }
  else l

/-- The window is over one of the configured byte ceilings. -/
def oversized (l : FlowLedger) (s : FlowSample) : Bool :=
  (l.limits.maxBytesPerWindow ≠ 0 && s.windowBytes > l.limits.maxBytesPerWindow) ||
    (l.limits.maxCumulativeBytes ≠ 0 && s.cumulativeBytes > l.limits.maxCumulativeBytes)

/-- The final part of `FlowLedger::append`: retain the window, dropping the oldest when full. -/
def push (l : FlowLedger) (s : FlowSample) : FlowLedger :=
  { l with
    samples := (if l.samples.length ≥ l.limits.maxSamples then l.samples.tail else l.samples) ++ [s]
    droppedWindows :=
      if l.samples.length ≥ l.limits.maxSamples then l.droppedWindows + 1 else l.droppedWindows
    lastSequence := s.windowSequence
    lastWindow := s.window
    lastSpanEnd := s.span.endAt
    lastCumulative := s.cumulativeBytes
    lastPath := s.path
    lastPathGeneration := s.pathGeneration
    generationCumulative := s.cumulativeBytes
    hasPrevious := true
    latestValidity := s.validity }

/-- `FlowLedger::append`.  The epoch restart precedes the byte ceilings. -/
def append (l : FlowLedger) (s : FlowSample) : Except Status AppendOutcome × FlowLedger :=
  if s.flow ≠ l.flow ∨ s.flowGeneration ≠ l.generation then
    (makeStatus .generationMismatch "sample identity disagrees with the ledger it was routed to", l)
  else
    match s.validate with
    | .error e => (.error e, l)
    | .ok () =>
      if l.hasPrevious ∧ s.windowSequence = l.lastSequence ∧ s.window = l.lastWindow then
        if l.samples.getLast?.map FlowSample.digest = some s.digest then
          (.ok .duplicateIgnored, l)
        else
          (makeStatus .contradictoryEvidence "same window and sequence with different content", l)
      else
        match l.checkOrder s with
        | .error e => (.error e, l)
        | .ok () =>
          if s.cumulativeBytes < l.generationCumulative then
            (makeStatus .contradictoryEvidence
              "cumulative volume regressed inside one flow generation", l)
          else if l.hasPrevious ∧ s.span.beginAt = l.lastSpanEnd ∧
              s.cumulativeBytes < l.lastCumulative then
            (makeStatus .contradictoryEvidence
              "cumulative volume regressed inside one measurement window", l)
          else
            let l := l.restartEpoch s
            if l.limits.maxBytesPerWindow ≠ 0 ∧ s.windowBytes > l.limits.maxBytesPerWindow then
              (makeStatus .oversized "window volume exceeds the configured ceiling", l)
            else if l.limits.maxCumulativeBytes ≠ 0 ∧
                s.cumulativeBytes > l.limits.maxCumulativeBytes then
              (makeStatus .oversized "cumulative volume exceeds the configured ceiling", l)
            else (.ok .accepted, l.push s)

/-- `FlowLedger::mark_completed`. -/
def markCompleted (l : FlowLedger) (completedAt : Tick) : Except Status FlowLedger :=
  if l.completed then
    if l.completedAt = completedAt then .ok l
    else makeStatus .conflict "flow completion time changed after it was recorded"
  else if l.hasPrevious ∧ completedAt < l.lastSpanEnd then
    makeStatus .contradictoryEvidence "completion precedes the last accepted evidence window"
  else .ok { l with completed := true, completedAt := completedAt }

/-- `FlowLedger::measurements`: a failed derivation leaves the default measurements. -/
def measurements (l : FlowLedger) : FlowMeasurements :=
  match deriveMeasurements l.samples l.limits l.completed l.gapDetected l.droppedWindows with
  | .ok m => m
  | .error _ => {}

end FlowLedger

end EFG
