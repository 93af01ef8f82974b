/-
# The operations of the governor

The public operations of `governor.hpp` over explicit state: every operation
returns its result together with the governor it leaves, so that what an early
return has already changed is part of the model.  Loops over `flows_` run over the
list of keys taken before the loop.
-/
import ElephantFlow.Evaluation

namespace EFG

namespace Governor

/-! ## Policy, capacity and path -/

/-- The body of the loop of `invalidate_all_authority` for one record: an Elephant is recorded as
suspended before it is demoted. -/
def invalidateRecord (g : Governor) (now : Tick) (reason : ReasonCode) (key : FlowKey)
    (record : FlowRecord) : Except Status Unit × Governor :=
  if ¬ record.hasClassification then (.ok (), g)
  else
    let reasons := record.classification.reasons ||| reason ||| .revalidationRequired
    if record.classification.state = .elephant then
      match record.history.record
          { atTick := now
            fromState := .elephant
            toState := .suspended
            authority := .none
            reasons := reasons
            classification := record.classification.id
            classificationGeneration := record.classification.generation } with
      | .error e => (.error e, g)
      | .ok h =>
        let record := { record with
          history := h
          classification := { record.classification with
            state := .suspended
            authority := .none
            reasons := reasons }
          enterStreak := 0
          exitStreak := 0 }
        let g := g.count fun c => { c with authorityRevocations := c.authorityRevocations + 1 }
        let indexed := g.updateIndex key record
        (.ok (), indexed.1.setFlow key indexed.2)
    else
      (.ok (), g.setFlow key { record with
        classification := { record.classification with reasons := reasons }
        enterStreak := 0
        exitStreak := 0 })

/-- One iteration of `invalidate_all_authority`. -/
def invalidateFlow (now : Tick) (reason : ReasonCode) (key : FlowKey) :
    Fallible Status Governor Unit := fun g =>
  match g.flows[key]? with
  | none => (.ok (), g)
  | some record => g.invalidateRecord now reason key record

/-- `invalidate_all_authority`. -/
def invalidateAllAuthority (g : Governor) (now : Tick) (reason : ReasonCode) :
    Except Status Unit × Governor :=
  match Fallible.forEach (invalidateFlow now reason) g.flows.keys g with
  | (.error e, g) => (.error e, g)
  | (.ok (), g) =>
    let revoked := g.intents.revokeAll .revoked .authorityStale
    (.ok (), { g with intents := revoked.2 }.count fun c =>
      { c with intentsRevoked := c.intentsRevoked + revoked.1 })

/-- A refused policy. -/
def rejectPolicy (g : Governor) : Governor :=
  g.count fun c => { c with policyRejected := c.policyRejected + 1 }

/-- An accepted policy. -/
def acceptPolicy (g : Governor) (p : PolicyDocument) : Governor :=
  { g with policy := some p }.count fun c => { c with policyAccepted := c.policyAccepted + 1 }

/-- The second half of `submit_policy`: a generation that is not the retained one. -/
def installPolicy (g : Governor) (p : PolicyDocument) : Except Status Unit × Governor :=
  match effectiveExitRule p with
  | .error e => (.error e, g.rejectPolicy)
  | .ok exitRules =>
    let installed := { g with exitRules := exitRules }.acceptPolicy p
    if g.policy.isSome then
      installed.invalidateAllAuthority (maxOf p.validity.issuedAt g.lastTick) .policyChanged
    else (.ok (), installed)

/-- `submit_policy`.  A re-issue of the retained generation keeps the exit rules and is compared
by its digest field only. -/
def submitPolicy (g : Governor) (p : PolicyDocument) : Except Status Unit × Governor :=
  match p.validate with
  | .error e => (.error e, g)
  | .ok () =>
    match g.policy with
    | none => g.installPolicy p
    | some existing =>
      if p.generation < existing.generation then
        (makeStatus .stale "policy generation is older than the retained one", g.rejectPolicy)
      else if p.generation = existing.generation then
        if p.digest ≠ existing.digest then
          (makeStatus .conflict "same policy generation with different content", g.rejectPolicy)
        else if p.validity.issuedAt < existing.validity.issuedAt then
          (makeStatus .stale "policy re-issue is older than the retained one", g.rejectPolicy)
        else (.ok (), g.acceptPolicy p)
      else g.installPolicy p

/-- `submit_capacity`. -/
def submitCapacity (g : Governor) (c : ResourceCapacity) : Except Status Unit × Governor :=
  match g.capacities.submit c with
  | .error e => (.error e, g.count fun c => { c with capacityRejected := c.capacityRejected + 1 })
  | .ok table =>
    (.ok (), { g with capacities := table }.count fun c =>
      { c with capacityAccepted := c.capacityAccepted + 1 })

/-- `submit_path`. -/
def submitPath (g : Governor) (p : PathDescriptor) : Except Status Unit × Governor :=
  match g.paths.submit p with
  | .error e => (.error e, g.count fun c => { c with pathRejected := c.pathRejected + 1 })
  | .ok table =>
    (.ok (), { g with paths := table }.count fun c => { c with pathAccepted := c.pathAccepted + 1 })

/-! ## Evidence and completion -/

/-- A sample refused for a retired flow generation. -/
def refuseRetired (g : Governor) : Governor :=
  g.count fun c =>
    { c with evidenceRejected := c.evidenceRejected + 1, staleRefusals := c.staleRefusals + 1 }

/-- The creation branches of `submit_evidence`.  A rollover fences the intents of the other
generations of the flow and nothing else about them. -/
def establishFlow (g : Governor) (key : FlowKey) : Except Status Unit × Governor :=
  match g.highestGeneration[key.flow]? with
  | some highest =>
    if key.generation < highest then
      (makeStatus .stale "evidence arrives for a retired flow generation", g.refuseRetired)
    else if key.generation = highest then
      (makeStatus .stale "evidence arrives for a flow generation that was retired",
        g.refuseRetired)
    else
      match g.ensureFlowCapacity with
      | (.error e, g) => (.error e, g)
      | (.ok (), g) =>
        let g := g.createFlow key
        let fenced := g.intents.fenceOtherGenerations key.flow key.generation
        (.ok (), { g with intents := fenced.2 }.count fun c =>
          { c with
            flowGenerationRollovers := c.flowGenerationRollovers + 1
            intentsFenced := c.intentsFenced + fenced.1 })
  | none =>
    match g.ensureFlowCapacity with
    | (.error e, g) => (.error e, g)
    | (.ok (), g) => (.ok (), g.createFlow key)

/-- The counters of a sample that the ledger refused. -/
def countRefused (c : GovernorCounters) (code : StatusCode) : GovernorCounters :=
  if code = .duplicateEvidence then { c with evidenceDuplicates := c.evidenceDuplicates + 1 }
  else if code = .contradictoryEvidence then
    { c with
      evidenceContradictory := c.evidenceContradictory + 1
      evidenceRejected := c.evidenceRejected + 1 }
  else { c with evidenceRejected := c.evidenceRejected + 1 }

/-- The counters of a sample that the ledger took. -/
def countTaken (c : GovernorCounters) (outcome : AppendOutcome) (l : FlowLedger) (s : FlowSample) :
    GovernorCounters :=
  let c :=
    if outcome = .duplicateIgnored then { c with evidenceDuplicates := c.evidenceDuplicates + 1 }
    else
      { c with
        evidenceAccepted := c.evidenceAccepted + 1
        evidenceGaps := if l.gapDetected then c.evidenceGaps + 1 else c.evidenceGaps }
  if l.completed ∧ s.span.endAt > l.completedAt then
    { c with evidenceAfterCompletion := c.evidenceAfterCompletion + 1 }
  else c

/-- The decision tick of a sample. -/
def decisionTick (s : FlowSample) : Tick :=
  if s.validity.issuedAt > s.span.endAt then s.validity.issuedAt else s.span.endAt

/-- Evaluate a tracked record and write it back. -/
def evaluateFlow (g : Governor) (key : FlowKey) (record : FlowRecord) (now : Tick) :
    Except Status FlowDecision × Governor :=
  let r := g.evaluate record now
  (r.1, r.2.1.setFlow key r.2.2)

/-- The part of `submit_evidence` that follows the record lookup. -/
def applyEvidence (g : Governor) (key : FlowKey) (record : FlowRecord) (s : FlowSample) :
    Except Status FlowDecision × Governor :=
  match record.ledger.append s with
  | (.error e, ledger) =>
    (.error e, (g.setFlow key { record with ledger := ledger }).count (countRefused · e.code))
  | (.ok outcome, ledger) =>
    match (g.count (countTaken · outcome ledger s)).evaluateFlow key
        { record with ledger := ledger } (decisionTick s) with
    | (.error e, g) => (.error e, g)
    | (.ok d, g) => (.ok { d with evidenceDuplicate := outcome = .duplicateIgnored }, g)

/-- The key of a sample. -/
def sampleKey (s : FlowSample) : FlowKey := ⟨s.flow, s.flowGeneration⟩

/-- The lookup of `submit_evidence`: the governor with the record of the sample in place. -/
def openFlow (g : Governor) (key : FlowKey) : Except Status Unit × Governor :=
  match g.flows[key]? with
  | some _ => (.ok (), g)
  | none => g.establishFlow key

/-- `submit_evidence`. -/
def submitEvidence (g : Governor) (s : FlowSample) : Except Status FlowDecision × Governor :=
  if g.policy.isNone then
    (makeStatus .notFound "no policy has been submitted",
      g.count fun c => { c with evidenceRejected := c.evidenceRejected + 1 })
  else
    match s.validate with
    | .error e =>
      (.error e, g.count fun c =>
        { c with
          evidenceRejected := c.evidenceRejected + 1
          evidenceContradictory :=
            if e.code = .contradictoryEvidence then c.evidenceContradictory + 1
            else c.evidenceContradictory })
    | .ok () =>
      match g.openFlow (sampleKey s) with
      | (.error e, g) => (.error e, g)
      | (.ok (), g) =>
        match g.flows[sampleKey s]? with
        | none => (makeStatus .internal "flow record could not be established", g)
        | some record => g.applyEvidence (sampleKey s) record s

/-- `complete_flow`. -/
def completeFlow (g : Governor) (flow : FlowId) (generation : Generation) (atTick : Tick) :
    Except Status Unit × Governor :=
  match g.flows[(⟨flow, generation⟩ : FlowKey)]? with
  | none => (makeStatus .notFound "flow generation is not present", g)
  | some record =>
    match record.ledger.markCompleted atTick with
    | .error e => (.error e, g)
    | .ok ledger =>
      let changed := g.intents.transitionFlowTerminal flow generation .completed
      let g := { g with intents := changed.2 }.count fun c =>
        { c with
          flowCompletions := c.flowCompletions + 1
          intentsRevoked := c.intentsRevoked + changed.1 }
      match g.evaluateFlow ⟨flow, generation⟩
          { record with ledger := ledger, completedTick := atTick } atTick with
      | (.error e, g) => (.error e, g)
      | (.ok _, g) => (.ok (), g)

/-! ## Sweeps -/

/-- The batch after one evaluated flow. -/
def batchWith (b : DecisionBatch) (d : FlowDecision) : DecisionBatch :=
  if ¬ d.stateChanged ∧ ¬ d.authorityChanged then b
  else
    let b :=
      if d.classification.state = .suspended then
        { b with
          suspensions := b.suspensions + 1
          revalidations := b.revalidations + 1
          revocations := b.revocations + 1 }
      else b
    { b with decisions := b.decisions ++ [d] }

/-- A record that the sweep evaluates: not ahead of the sweep, and an Elephant or suspended. -/
def sweeps (g : Governor) (record : FlowRecord) (now : Tick) : Bool :=
  !(record.hasClassification && record.evaluatedTick > now) &&
    (record.isElephant || (g.suspensionReasons record now).1)

/-- One iteration of the sweep loop of `tick`; an evaluation error skips the flow. -/
def sweepFlow (now : Tick) (key : FlowKey) (acc : DecisionBatch × Governor) :
    DecisionBatch × Governor :=
  match acc.2.flows[key]? with
  | none => acc
  | some record =>
    if acc.2.sweeps record now then
      match acc.2.evaluateFlow key record now with
      | (.error _, g) => (acc.1, g)
      | (.ok d, g) => (batchWith acc.1 d, g)
    else acc

/-- The sweep loop of `tick`. -/
def sweepLoop (now : Tick) (keys : List FlowKey) (acc : DecisionBatch × Governor) :
    DecisionBatch × Governor :=
  keys.foldl (fun acc key => sweepFlow now key acc) acc

/-- A sweep refused for its tick. -/
def refuseSweep (g : Governor) : Governor :=
  g.count fun c => { c with staleRefusals := c.staleRefusals + 1 }

/-- The part of `tick` before the loop: observe the tick and expire tables and intents. -/
def beginSweep (g : Governor) (guard : TickGuard) (now : Tick) : DecisionBatch × Governor :=
  let expired := g.intents.expire now
  ({ now := now, expirations := expired.1 },
    { g with
      tickGuard := guard
      capacities := g.capacities.expire now
      paths := g.paths.expire now
      intents := expired.2 }.count fun c =>
        { c with
          ticks := c.ticks + 1
          sweeps := c.sweeps + 1
          intentsExpired := c.intentsExpired + expired.1 })

/-- `tick`. -/
def tick (g : Governor) (now : Tick) : Except Status DecisionBatch × Governor :=
  if g.policy.any (fun p => p.validity.wellFormed && now < p.validity.issuedAt) then
    (makeStatus .stale "sweep tick precedes the active policy issue tick", g.refuseSweep)
  else if now < g.lastTick then
    (makeStatus .stale "sweep tick regressed below the last committed tick", g.refuseSweep)
  else
    match g.tickGuard.observe now with
    | .error e => (.error e, g.refuseSweep)
    | .ok guard =>
      let swept := sweepLoop now g.flows.keys (g.beginSweep guard now)
      (.ok swept.1, swept.2.advance now)

/-! ## Queries -/

/-- `classification`: a live answer, which may suspend or re-qualify the flow. -/
def classification (g : Governor) (flow : FlowId) (generation : Generation) (now : Tick) :
    Except Status FlowClassification × Governor :=
  match g.flows[(⟨flow, generation⟩ : FlowKey)]? with
  | none => (makeStatus .notFound "flow generation is not present", g)
  | some record =>
    match g.evaluateFlow ⟨flow, generation⟩ record now with
    | (.error e, g) => (.error e, g)
    | (.ok d, g) => (.ok d.classification, g)

/-- The structured fields of `Explanation`. -/
structure Explanation where
  flow : FlowId
  flowGeneration : Generation
  state : ElephantState
  authority : AuthorityLevel
  reasons : ReasonCode
  truncated : Bool
  measurements : FlowMeasurements
  impact : ImpactAssessment
  trace : List ThresholdTraceEntry
  authorityVector : AuthorityVector
  intents : List GovernanceIntent
  historyDigest : UInt64
  historyFolded : UInt64
  deriving DecidableEq, Repr

/-- `explain`. -/
def explain (g : Governor) (flow : FlowId) (generation : Generation) (now : Tick) :
    Except Status Explanation × Governor :=
  match g.flows[(⟨flow, generation⟩ : FlowKey)]? with
  | none => (makeStatus .notFound "flow generation is not present", g)
  | some record =>
    match g.evaluate record now with
    | (.error e, g, record) => (.error e, g.setFlow ⟨flow, generation⟩ record)
    | (.ok d, g, record) =>
      (.ok { flow := flow
             flowGeneration := generation
             state := d.classification.state
             authority := d.classification.authority
             reasons := d.classification.reasons
             truncated := d.classification.traceTruncated
             measurements := d.classification.measurements
             impact := d.classification.impact
             trace := d.classification.trace
             authorityVector := d.classification.authorityVector
             intents := g.intents.forFlow flow generation
             historyDigest := record.history.digest
             historyFolded := record.history.foldedCount },
        g.setFlow ⟨flow, generation⟩ record)

/-- `set_incarnation`. -/
def setIncarnation (g : Governor) (boot : BootIdentity) : Governor := { g with boot := boot }

/-- `reset`: everything but the configuration returns to the fresh governor. -/
def reset (g : Governor) : Governor :=
  { config := g.config
    intents := { maxIntents := g.config.maxIntents, maxAttempts := kMaxAttempts } }

end Governor

end EFG
