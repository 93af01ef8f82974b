/-
# The state of the governor

Configuration, counters, flow records and the binding index of `governor.hpp`,
with the private helpers of `governor.cpp` that only touch that state: binding
resolution, measurement composition, index maintenance and eviction.
-/
import ElephantFlow.Intervention

namespace EFG

open ByteCodec Std

/-! ## Configuration -/

/-- `GovernorConfig`. -/
structure GovernorConfig where
  maxFlows : ℕ := 32768
  samplesPerFlow : ℕ := 8
  maxHistoryPerFlow : ℕ := kMaxHistoryPerFlow
  maxTraceEntries : ℕ := kMaxTraceEntries
  classificationValidityTicks : UInt64 := 1000
  maxTelemetryGapTicks : UInt64 := 100
  intentDurationTicks : UInt64 := 500
  maxCumulativeBytes : UInt64 := 0
  maxBytesPerWindow : UInt64 := 0
  maxIntents : ℕ := kMaxIntents
  deriving DecidableEq, Repr, Inhabited

namespace GovernorConfig

/-- `GovernorConfig::validate`. -/
def validate (c : GovernorConfig) : Except Status Unit :=
  if c.maxFlows = 0 ∨ c.maxFlows > kMaxFlows then
    makeStatus .outOfRange "max_flows is outside the supported range"
  else if c.samplesPerFlow < 2 ∨ c.samplesPerFlow > kMaxSamplesPerFlow then
    makeStatus .outOfRange "samples_per_flow is outside the supported range"
  else if c.maxHistoryPerFlow = 0 ∨ c.maxHistoryPerFlow > kMaxHistoryPerFlow then
    makeStatus .outOfRange "max_history_per_flow is outside the supported range"
  else if c.maxTraceEntries = 0 ∨ c.maxTraceEntries > kMaxTraceEntries then
    makeStatus .outOfRange "max_trace_entries is outside the supported range"
  else if c.classificationValidityTicks = 0 then
    makeStatus .invalidArgument "classification validity must be positive"
  else if c.intentDurationTicks = 0 then
    makeStatus .invalidArgument "intent lifetime must be positive"
  else if c.maxIntents = 0 ∨ c.maxIntents > kMaxIntents then
    makeStatus .outOfRange "max_intents is outside the supported range"
  else .ok ()

/-- A value forced into `[lo, hi]`, as the constructor of the governor does. -/
def clampTo (lo hi n : ℕ) : ℕ := if n < lo then lo else if n > hi then hi else n

/-- The constructor of `Governor` narrows the configuration instead of refusing it. -/
def clamped (c : GovernorConfig) : GovernorConfig :=
  { c with
    samplesPerFlow := clampTo 2 kMaxSamplesPerFlow c.samplesPerFlow
    maxFlows := clampTo 1 kMaxFlows c.maxFlows
    maxHistoryPerFlow := clampTo 1 kMaxHistoryPerFlow c.maxHistoryPerFlow
    maxTraceEntries :=
      if c.maxTraceEntries = 0 ∨ c.maxTraceEntries > kMaxTraceEntries then kMaxTraceEntries
      else c.maxTraceEntries
    classificationValidityTicks :=
      if c.classificationValidityTicks = 0 then 1 else c.classificationValidityTicks
    intentDurationTicks := if c.intentDurationTicks = 0 then 1 else c.intentDurationTicks
    maxIntents := if c.maxIntents = 0 ∨ c.maxIntents > kMaxIntents then kMaxIntents
      else c.maxIntents }

/-- `ledger_limits`. -/
def ledgerLimits (c : GovernorConfig) : LedgerLimits where
  maxGapTicks := c.maxTelemetryGapTicks
  maxSamples := c.samplesPerFlow
  maxBytesPerWindow := c.maxBytesPerWindow
  maxCumulativeBytes := c.maxCumulativeBytes

/-- What the constructor narrows passes the validation. -/
theorem validate_clamped (c : GovernorConfig) : c.clamped.validate = .ok () := by
  have hclamp : ∀ lo hi n : ℕ, lo ≤ hi → lo ≤ clampTo lo hi n ∧ clampTo lo hi n ≤ hi := by
    intro lo hi n hle
    unfold clampTo
    split_ifs <;> omega
  have hs := hclamp 2 kMaxSamplesPerFlow c.samplesPerFlow (by decide)
  have hf := hclamp 1 kMaxFlows c.maxFlows (by decide)
  have hh := hclamp 1 kMaxHistoryPerFlow c.maxHistoryPerFlow (by decide)
  unfold validate clamped
  rw [if_neg (by simp only; omega), if_neg (by simp only; omega), if_neg (by simp only; omega)]
  have ht : ¬ ((if c.maxTraceEntries = 0 ∨ c.maxTraceEntries > kMaxTraceEntries then kMaxTraceEntries
      else c.maxTraceEntries) = 0 ∨ (if c.maxTraceEntries = 0 ∨ c.maxTraceEntries > kMaxTraceEntries
      then kMaxTraceEntries else c.maxTraceEntries) > kMaxTraceEntries) := by
    split_ifs with h
    · decide
    · exact h
  have hi : ¬ ((if c.maxIntents = 0 ∨ c.maxIntents > kMaxIntents then kMaxIntents
      else c.maxIntents) = 0 ∨ (if c.maxIntents = 0 ∨ c.maxIntents > kMaxIntents
      then kMaxIntents else c.maxIntents) > kMaxIntents) := by
    split_ifs with h
    · decide
    · exact h
  have hone : ∀ x : UInt64, (if x = 0 then 1 else x) ≠ 0 := by
    intro x
    split_ifs with h
    · decide
    · exact h
  rw [if_neg ht, if_neg (hone _), if_neg (hone _), if_neg hi]

end GovernorConfig

/-! ## Records and the governor -/

/-- `FlowKey`: ordered by flow, then by generation. -/
@[ext] structure FlowKey where
  flow : FlowId := {}
  generation : Generation := {}
  deriving DecidableEq, Repr, Inhabited

namespace FlowKey

instance : Ord FlowKey := ⟨compareLex (compareOn FlowKey.flow) (compareOn FlowKey.generation)⟩

instance : TransOrd FlowKey :=
  inferInstanceAs (TransCmp (compareLex (compareOn FlowKey.flow) (compareOn FlowKey.generation)))

instance : LawfulEqOrd FlowKey where
  compare_self := by
    intro a
    exact @ReflCmp.compare_self FlowKey
      (compareLex (compareOn FlowKey.flow) (compareOn FlowKey.generation)) _ a
  eq_of_compare := by
    intro a b h
    obtain ⟨h₁, h₂⟩ := Ordering.then_eq_eq.mp h
    exact FlowKey.ext (LawfulEqOrd.eq_of_compare h₁) (LawfulEqOrd.eq_of_compare h₂)

end FlowKey

/-- `FlowRecord`. -/
structure FlowRecord where
  ledger : FlowLedger := {}
  history : ClassificationHistory := {}
  classification : FlowClassification := {}
  enterStreak : UInt32 := 0
  exitStreak : UInt32 := 0
  hasClassification : Bool := false
  evaluatedTick : Tick := 0
  evaluatedWindow : EvidenceWindowId := {}
  boundResource : ResourceId := {}
  boundShare : BasisPoints := 0
  boundElephant : Bool := false
  bound : Bool := false
  completedTick : Tick := 0
  deriving DecidableEq, Repr, Inhabited

/-- The key under which a record is tracked. -/
def FlowRecord.key (r : FlowRecord) : FlowKey := ⟨r.ledger.flow, r.ledger.generation⟩

/-- The record is classified and its state is Elephant. -/
def FlowRecord.isElephant (r : FlowRecord) : Bool :=
  r.hasClassification && r.classification.state = .elephant

/-- `BindingEntry`. -/
structure BindingEntry where
  elephant : Bool := false
  share : BasisPoints := 0
  deriving DecidableEq, Repr, Inhabited

/-- `ResourceAggregate`. -/
structure ResourceAggregate where
  flows : UInt32 := 0
  elephants : UInt32 := 0
  elephantShareSum : UInt64 := 0
  deriving DecidableEq, Repr, Inhabited

/-- `GovernorCounters`. -/
structure GovernorCounters where
  evidenceAccepted : UInt64 := 0
  evidenceDuplicates : UInt64 := 0
  evidenceRejected : UInt64 := 0
  evidenceContradictory : UInt64 := 0
  evidenceGaps : UInt64 := 0
  evidenceAfterCompletion : UInt64 := 0
  capacityAccepted : UInt64 := 0
  capacityRejected : UInt64 := 0
  pathAccepted : UInt64 := 0
  pathRejected : UInt64 := 0
  policyAccepted : UInt64 := 0
  policyRejected : UInt64 := 0
  decisions : UInt64 := 0
  elephantDecisions : UInt64 := 0
  notElephantDecisions : UInt64 := 0
  unknownDecisions : UInt64 := 0
  suspendedDecisions : UInt64 := 0
  transitions : UInt64 := 0
  revalidations : UInt64 := 0
  authorityRevocations : UInt64 := 0
  flowGenerationRollovers : UInt64 := 0
  flowCompletions : UInt64 := 0
  flowEvictions : UInt64 := 0
  capacityRefusals : UInt64 := 0
  staleRefusals : UInt64 := 0
  ticks : UInt64 := 0
  sweeps : UInt64 := 0
  intentsProposed : UInt64 := 0
  intentsAuthorized : UInt64 := 0
  intentsSuppressed : UInt64 := 0
  intentsClamped : UInt64 := 0
  intentsExpired : UInt64 := 0
  intentsRevoked : UInt64 := 0
  intentsFenced : UInt64 := 0
  restoreEvents : UInt64 := 0
  restoredFlows : UInt64 := 0
  restoredFlowsRequiringRevalidation : UInt64 := 0
  deriving DecidableEq, Repr, Inhabited

/-- `Governor`. -/
structure Governor where
  config : GovernorConfig := {}
  boot : BootIdentity := {}
  tickGuard : TickGuard := {}
  lastTick : Tick := 0
  policy : Option PolicyDocument := none
  exitRules : RuleSet := {}
  capacities : CapacityTable := {}
  paths : PathTable := {}
  flows : ExtTreeMap FlowKey FlowRecord := ∅
  highestGeneration : ExtTreeMap FlowId Generation := ∅
  bindingIndex : ExtTreeMap ResourceId (ExtTreeMap FlowKey BindingEntry) := ∅
  resourceAggregate : ExtTreeMap ResourceId ResourceAggregate := ∅
  intents : IntentLedger := {}
  classificationSequence : UInt64 := 0
  intentSequence : UInt64 := 0
  counters : GovernorCounters := {}

/-- `FlowDecision`. -/
structure FlowDecision where
  classification : FlowClassification := {}
  intents : List GovernanceIntent := []
  stateChanged : Bool := false
  authorityChanged : Bool := false
  evidenceDuplicate : Bool := false
  deriving DecidableEq, Repr, Inhabited

/-- `DecisionBatch`. -/
structure DecisionBatch where
  now : Tick := 0
  decisions : List FlowDecision := []
  suspensions : UInt64 := 0
  revalidations : UInt64 := 0
  revocations : UInt64 := 0
  expirations : UInt64 := 0
  deriving DecidableEq, Repr, Inhabited

/-! ## Binding resolution and measurements -/

/-- A candidate binding beats the best one so far: less unreserved capacity, then a lower
resource identifier. -/
def betterBinding (resource : ResourceId) (available : KiloTickRate)
    (best : ResourceId × ResourceCapacity) : Bool :=
  let bestAvailable := match best.2.available with
    | .ok a => a
    | .error _ => 0
  available < bestAvailable || (available = bestAvailable && resource < best.1)

/-- One iteration of the loop of `resolve_binding`. -/
def resolveStep (capacities : CapacityTable) (requireFresh : Bool) (now : Tick)
    (best : Option (ResourceId × ResourceCapacity)) (resource : ResourceId) :
    Option (ResourceId × ResourceCapacity) :=
  match capacities.find resource with
  | none => best
  | some candidate =>
    if requireFresh ∧ ¬ isFresh candidate.validity now then best
    else
      match candidate.available with
      | .error _ => best
      | .ok available =>
        match best with
        | none => some (resource, candidate)
        | some b => if betterBinding resource available b then some (resource, candidate) else best

/-- `resolve_binding`. -/
def resolveBinding (path : Option PathDescriptor) (capacities : CapacityTable) (requireFresh : Bool)
    (now : Tick) : Option (ResourceId × ResourceCapacity) :=
  match path with
  | none => none
  | some p =>
    if requireFresh ∧ ¬ isFresh p.validity now then none
    else p.resources.foldl (resolveStep capacities requireFresh now) none

/-- `compose_measurements`. -/
def composeMeasurements (ledger : FlowLedger) (path : Option PathDescriptor)
    (capacities : CapacityTable) (competingFlows competingElephants : UInt32)
    (requireCapacity : Bool) : Except Status FlowMeasurements :=
  let out : FlowMeasurements := { ledger.measurements with
    pathKnown := path.isSome
    competingFlows := competingFlows
    competingElephants := competingElephants }
  match path with
  | none =>
    if requireCapacity then makeStatus .notFound "flow path is not present in the path table"
    else .ok out
  | some p =>
    match resolveBinding (some p) capacities false 0 with
    | none =>
      if requireCapacity then
        makeStatus .notFound "no capacity snapshot covers the flow's binding resource"
      else .ok out
    | some (resource, capacity) =>
      let available := match capacity.available with
        | .ok a => a
        | .error _ => 0
      .ok { out with
        capacityKnown := true
        bindingResource := resource
        resourceCapacity := capacity.capacity
        resourceReserved := capacity.reserved
        resourceAvailable := available
        shareOfCapacity := toBasisPoints out.sustainedRate capacity.capacity
        shareOfAvailable :=
          if available > 0 then toBasisPoints (minOf out.sustainedRate available) available
          else if out.sustainedRate > 0 then kBasisPointsScale else 0 }

theorem of_getElem?_empty {α β : Type} [Ord α] [TransOrd α] {k : α} {v : β} {P : Prop}
    (h : (∅ : ExtTreeMap α β)[k]? = some v) : P := by
  simp at h

namespace Governor

/-- The constructor `Governor(config)`. -/
def make (config : GovernorConfig) : Governor :=
  { config := config.clamped
    intents := { maxIntents := config.clamped.maxIntents, maxAttempts := kMaxAttempts } }

/-- A change of the counters only. -/
def count (g : Governor) (f : GovernorCounters → GovernorCounters) : Governor :=
  { g with counters := f g.counters }

/-- `if (now > last_tick_) last_tick_ = now`. -/
def advance (g : Governor) (now : Tick) : Governor :=
  { g with lastTick := if now > g.lastTick then now else g.lastTick }

/-- Write a record back under its key. -/
def setFlow (g : Governor) (key : FlowKey) (record : FlowRecord) : Governor :=
  { g with flows := g.flows.insert key record }

theorem getElem?_setFlow (g : Governor) (key k : FlowKey) (r : FlowRecord) :
    (g.setFlow key r).flows[k]? = if key = k then some r else g.flows[k]? := by
  show (g.flows.insert key r)[k]? = _
  rw [ExtTreeMap.getElem?_insert]
  by_cases hk : key = k
  · rw [if_pos hk, if_pos (hk ▸ ReflCmp.compare_self)]
  · rw [if_neg hk, if_neg (fun h => hk (LawfulEqOrd.eq_of_compare h))]

/-! ## The binding index -/

/-- The aggregate of a resource after one of its entries left, `none` when nothing is bound. -/
def aggregateWithout (agg : ResourceAggregate) (entry : BindingEntry) : Option ResourceAggregate :=
  let agg := { agg with flows := if agg.flows > 0 then agg.flows - 1 else agg.flows }
  let agg :=
    if entry.elephant then
      { agg with
        elephants := if agg.elephants > 0 then agg.elephants - 1 else agg.elephants
        elephantShareSum :=
          if agg.elephantShareSum ≥ entry.share.toUInt64 then
            agg.elephantShareSum - entry.share.toUInt64
          else 0 }
    else agg
  if agg.flows = 0 then none else some agg

/-- The aggregate of a resource after one entry joined. -/
def aggregateWith (agg : ResourceAggregate) (entry : BindingEntry) : ResourceAggregate :=
  if entry.elephant then
    { flows := agg.flows + 1
      elephants := agg.elephants + 1
      elephantShareSum := agg.elephantShareSum + entry.share.toUInt64 }
  else { agg with flows := agg.flows + 1 }

/-- The removal half of `update_index`. -/
def unbind (g : Governor) (key : FlowKey) (resource : ResourceId) : Governor :=
  match g.bindingIndex[resource]? with
  | none => g
  | some entries =>
    match entries[key]? with
    | none => g
    | some entry =>
      { g with
        resourceAggregate :=
          match g.resourceAggregate[resource]? with
          | none => g.resourceAggregate
          | some agg =>
            match aggregateWithout agg entry with
            | none => g.resourceAggregate.erase resource
            | some agg => g.resourceAggregate.insert resource agg
        bindingIndex :=
          if (entries.erase key).isEmpty then g.bindingIndex.erase resource
          else g.bindingIndex.insert resource (entries.erase key) }

/-- The insertion half of `update_index`. -/
def bind (g : Governor) (key : FlowKey) (resource : ResourceId) (entry : BindingEntry) : Governor :=
  { g with
    bindingIndex :=
      g.bindingIndex.insert resource ((g.bindingIndex[resource]?.getD ∅).insert key entry)
    resourceAggregate :=
      g.resourceAggregate.insert resource
        (aggregateWith (g.resourceAggregate[resource]?.getD {}) entry) }

/-- `update_index`: remove the entry of the record, then re-insert it when it is classified
against a known capacity. -/
def updateIndex (g : Governor) (key : FlowKey) (record : FlowRecord) : Governor × FlowRecord :=
  let g := if record.bound then g.unbind key record.boundResource else g
  let record := { record with bound := false }
  if ¬ record.hasClassification ∨ ¬ record.classification.measurements.capacityKnown then
    (g, record)
  else
    let elephant : Bool := record.classification.state = .elephant
    let record := { record with
      boundResource := record.classification.measurements.bindingResource
      boundShare := record.classification.measurements.shareOfCapacity
      boundElephant := elephant
      bound := true }
    (g.bind key record.boundResource ⟨elephant, record.boundShare⟩, record)

/-! ## Population -/

/-- One iteration of the victim search of `evict_one_completed_flow`. -/
def victimStep (victim : Option (FlowKey × FlowRecord)) (entry : FlowKey × FlowRecord) :
    Option (FlowKey × FlowRecord) :=
  if ¬ entry.2.ledger.completed then victim
  else
    match victim with
    | none => some entry
    | some v =>
      if entry.2.completedTick < v.2.completedTick ∨
          (entry.2.completedTick = v.2.completedTick ∧ compare entry.1 v.1 = .lt) then some entry
      else victim

/-- The completed flow that `evict_one_completed_flow` retires. -/
def victim (g : Governor) : Option (FlowKey × FlowRecord) := g.flows.toList.foldl victimStep none

/-- The retirement of a victim: `update_index` runs on its record, then the record is erased. -/
def dropFlow (g : Governor) (key : FlowKey) (record : FlowRecord) : Governor :=
  let g := (g.updateIndex key record).1
  { g with flows := g.flows.erase key }

/-- `evict_one_completed_flow`. -/
def evictOneCompletedFlow (g : Governor) : Option Governor :=
  match g.victim with
  | none => none
  | some (key, record) =>
    some ((g.dropFlow key record).count fun c => { c with flowEvictions := c.flowEvictions + 1 })

/-- `ensure_flow_capacity`. -/
def ensureFlowCapacity (g : Governor) : Except Status Unit × Governor :=
  if g.flows.size < g.config.maxFlows then (.ok (), g)
  else
    match g.evictOneCompletedFlow with
    | some g => (.ok (), g)
    | none =>
      (makeStatus .capacityExceeded
          "flow population ceiling reached and no completed flow can be retired",
        g.count fun c => { c with capacityRefusals := c.capacityRefusals + 1 })

/-- The record that `create_flow` starts from. -/
def freshRecord (g : Governor) (key : FlowKey) : FlowRecord :=
  { ledger := .make key.flow key.generation g.config.ledgerLimits
    history := .make g.config.maxHistoryPerFlow }

/-- `create_flow`: `emplace` keeps a record that is already there. -/
def createFlow (g : Governor) (key : FlowKey) : Governor :=
  { g with
    flows := g.flows.insertIfNew key (g.freshRecord key)
    highestGeneration := g.highestGeneration.insert key.flow key.generation }

end Governor

end EFG
