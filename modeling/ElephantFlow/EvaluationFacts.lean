/-
# What an evaluation changes

The frame of `Governor::evaluate`.  An evaluation never writes the inputs of the
governor nor its flow map (`sameInputs_evaluate`, `evaluate_withFlows`), and it
has three outcomes (`evaluate_cases`): it refuses and leaves the record alone, it
keeps the record and only moves its evaluation tick, or it commits a new
classification whose parts are listed in `Commits`.
-/
import ElephantFlow.Governor

namespace EFG

namespace Governor

variable {g g' : Governor} {record : FlowRecord} {now : Tick} {key : FlowKey}
  {c : FlowClassification} {h : ClassificationHistory} {id : IntentId} {i : GovernanceIntent}

/-! ## The inputs of an evaluation -/

/-- The two governors agree on everything that an evaluation never writes. -/
structure SameInputs (g g' : Governor) : Prop where
  config : g'.config = g.config
  boot : g'.boot = g.boot
  tickGuard : g'.tickGuard = g.tickGuard
  policy : g'.policy = g.policy
  exitRules : g'.exitRules = g.exitRules
  capacities : g'.capacities = g.capacities
  paths : g'.paths = g.paths
  flows : g'.flows = g.flows
  highestGeneration : g'.highestGeneration = g.highestGeneration
  intentSequence : g'.intentSequence = g.intentSequence

theorem SameInputs.refl (g : Governor) : SameInputs g g :=
  ⟨rfl, rfl, rfl, rfl, rfl, rfl, rfl, rfl, rfl, rfl⟩

theorem SameInputs.trans {g₁ g₂ g₃ : Governor} (h : SameInputs g₁ g₂) (h' : SameInputs g₂ g₃) :
    SameInputs g₁ g₃ :=
  ⟨h'.config.trans h.config, h'.boot.trans h.boot, h'.tickGuard.trans h.tickGuard,
    h'.policy.trans h.policy, h'.exitRules.trans h.exitRules, h'.capacities.trans h.capacities,
    h'.paths.trans h.paths, h'.flows.trans h.flows,
    h'.highestGeneration.trans h.highestGeneration, h'.intentSequence.trans h.intentSequence⟩

/-- The fields that an evaluation may write. -/
theorem sameInputs_update (g : Governor) (lastTick : Tick)
    (index : Std.ExtTreeMap ResourceId (Std.ExtTreeMap FlowKey BindingEntry))
    (aggregate : Std.ExtTreeMap ResourceId ResourceAggregate) (intents : IntentLedger)
    (sequence : UInt64) (counters : GovernorCounters) :
    SameInputs g { g with
      lastTick := lastTick
      bindingIndex := index
      resourceAggregate := aggregate
      intents := intents
      classificationSequence := sequence
      counters := counters } :=
  ⟨rfl, rfl, rfl, rfl, rfl, rfl, rfl, rfl, rfl, rfl⟩

/-! ## The binding index -/

/-- The record that `update_index` leaves. -/
def rebound (record : FlowRecord) : FlowRecord :=
  if ¬ record.hasClassification ∨ ¬ record.classification.measurements.capacityKnown then
    { record with bound := false }
  else
    { record with
      boundResource := record.classification.measurements.bindingResource
      boundShare := record.classification.measurements.shareOfCapacity
      boundElephant := record.classification.state = .elephant
      bound := true }

section

variable (g : Governor) (intent : GovernanceIntent)
  (r : Except Status GovernanceIntent × IntentLedger) (key : FlowKey) (record : FlowRecord)

theorem updateIndex_snd : (g.updateIndex key record).2 = rebound record := by
  unfold updateIndex rebound
  simp only
  by_cases hc : ¬ record.hasClassification ∨ ¬ record.classification.measurements.capacityKnown
  · rw [if_pos hc, if_pos hc]
  · rw [if_neg hc, if_neg hc]

/-- `update_index` writes nothing of the record but its binding. -/
theorem rebound_eq : ∃ resource share elephant bound,
    rebound record = { record with
      boundResource := resource
      boundShare := share
      boundElephant := elephant
      bound := bound } := by
  unfold rebound
  split_ifs
  · exact ⟨_, _, _, _, rfl⟩
  · exact ⟨_, _, _, _, rfl⟩

@[simp] theorem rebound_ledger : (rebound record).ledger = record.ledger := by
  obtain ⟨_, _, _, _, h⟩ := rebound_eq record
  rw [h]

@[simp] theorem rebound_history : (rebound record).history = record.history := by
  obtain ⟨_, _, _, _, h⟩ := rebound_eq record
  rw [h]

@[simp] theorem rebound_classification :
    (rebound record).classification = record.classification := by
  obtain ⟨_, _, _, _, h⟩ := rebound_eq record
  rw [h]

@[simp] theorem rebound_hasClassification :
    (rebound record).hasClassification = record.hasClassification := by
  obtain ⟨_, _, _, _, h⟩ := rebound_eq record
  rw [h]

@[simp] theorem rebound_evaluatedTick : (rebound record).evaluatedTick = record.evaluatedTick := by
  obtain ⟨_, _, _, _, h⟩ := rebound_eq record
  rw [h]

@[simp] theorem rebound_evaluatedWindow :
    (rebound record).evaluatedWindow = record.evaluatedWindow := by
  obtain ⟨_, _, _, _, h⟩ := rebound_eq record
  rw [h]

@[simp] theorem rebound_enterStreak : (rebound record).enterStreak = record.enterStreak := by
  obtain ⟨_, _, _, _, h⟩ := rebound_eq record
  rw [h]

@[simp] theorem rebound_exitStreak : (rebound record).exitStreak = record.exitStreak := by
  obtain ⟨_, _, _, _, h⟩ := rebound_eq record
  rw [h]

/-- `update_index` writes the index and the aggregates and nothing else of the governor. -/
theorem updateIndex_fst :
    ∃ index aggregate, (g.updateIndex key record).1 =
      { g with bindingIndex := index, resourceAggregate := aggregate } := by
  have hunbind : ∃ index aggregate, (if record.bound then g.unbind key record.boundResource else g) =
      { g with bindingIndex := index, resourceAggregate := aggregate } := by
    split_ifs
    · unfold unbind
      split
      · exact ⟨_, _, rfl⟩
      · split
        · exact ⟨_, _, rfl⟩
        · exact ⟨_, _, rfl⟩
    · exact ⟨_, _, rfl⟩
  obtain ⟨index, aggregate, hg⟩ := hunbind
  unfold updateIndex
  simp only [hg]
  by_cases hc : ¬ record.hasClassification ∨ ¬ record.classification.measurements.capacityKnown
  · rw [if_pos hc]
    exact ⟨_, _, rfl⟩
  · rw [if_neg hc]
    exact ⟨_, _, rfl⟩

theorem sameInputs_updateIndex : SameInputs g (g.updateIndex key record).1 := by
  obtain ⟨index, aggregate, hg⟩ := updateIndex_fst g key record
  rw [hg]
  exact sameInputs_update g _ _ _ _ _ _

@[simp] theorem updateIndex_intents : (g.updateIndex key record).1.intents = g.intents := by
  obtain ⟨index, aggregate, hg⟩ := updateIndex_fst g key record
  rw [hg]

@[simp] theorem updateIndex_lastTick : (g.updateIndex key record).1.lastTick = g.lastTick := by
  obtain ⟨index, aggregate, hg⟩ := updateIndex_fst g key record
  rw [hg]

@[simp] theorem updateIndex_classificationSequence :
    (g.updateIndex key record).1.classificationSequence = g.classificationSequence := by
  obtain ⟨index, aggregate, hg⟩ := updateIndex_fst g key record
  rw [hg]

@[simp] theorem updateIndex_flows : (g.updateIndex key record).1.flows = g.flows :=
  (sameInputs_updateIndex g key record).flows

/-! ## The production of intents -/

/-- Emitting writes the intent ledger and the counters and nothing else of the governor. -/
theorem emitted_snd :
    ∃ counters, (g.emitted intent r).2 = { g with intents := r.2, counters := counters } := by
  obtain ⟨res, ledger⟩ := r
  cases res with
  | ok stored => exact ⟨_, rfl⟩
  | error e =>
    by_cases hcode : e.code = .capacityExceeded
    · simp only [emitted, if_pos hcode]
      exact ⟨_, rfl⟩
    · simp only [emitted, if_neg hcode]
      exact ⟨_, rfl⟩

theorem emitted_intents : (g.emitted intent r).2.intents = r.2 := by
  obtain ⟨counters, h⟩ := emitted_snd g intent r
  rw [h]

end

theorem emit_intents (cls : FlowClassification) (now : Tick) (r : IntentRequest) (g : Governor) :
    (emit cls now r g).2.intents = (g.intents.record (g.intentOf cls now r)).2 :=
  emitted_intents g _ _

theorem emitAll_snd (g : Governor) (cls : FlowClassification) (now : Tick)
    (rs : List IntentRequest) : ∃ intents counters,
      (emitAll cls now rs g).2 = { g with intents := intents, counters := counters } := by
  apply Fallible.Keeps.collect
      (P := fun g' : Governor => ∃ intents counters,
        g' = { g with intents := intents, counters := counters })
  · rintro r - g' ⟨intents, counters, rfl⟩
    obtain ⟨counters', hstep⟩ := emitted_snd { g with intents := intents, counters := counters } _ _
    exact ⟨_, counters', hstep⟩
  · exact ⟨_, _, rfl⟩

/-- The three ways through `produce_intents`. -/
theorem produceIntents_cases (g : Governor) (record : FlowRecord) (now : Tick) :
    (g.policy = none ∨ record.hasClassification = false) ∧ g.produceIntents record now = (.ok [], g) ∨
    (g.policy ≠ none ∧ (record.classification.state ≠ .elephant ∨ record.ledger.completed = true) ∧
      g.produceIntents record now = (.ok [], g.retireStale record.classification)) ∨
    (∃ p, g.policy = some p ∧ record.classification.state = .elephant ∧
      record.ledger.completed = false ∧
      g.produceIntents record now = emitAll record.classification now
        ((g.retireStale record.classification).pendingRequests p record.classification now)
        (g.retireStale record.classification)) := by
  unfold produceIntents
  rcases hp : g.policy with _ | p
  · exact .inl ⟨.inl rfl, rfl⟩
  · by_cases hc : record.hasClassification = true
    · by_cases hs : record.classification.state ≠ .elephant ∨ record.ledger.completed = true
      · exact .inr (.inl ⟨by simp, hs, by simp [hc, hs]⟩)
      · rw [not_or, not_not, Bool.not_eq_true] at hs
        exact .inr (.inr ⟨p, rfl, hs.1, hs.2, by simp [hc, hs]⟩)
    · exact .inl ⟨.inr (by simpa using hc), by simp [hc]⟩

theorem produceIntents_snd (g : Governor) (record : FlowRecord) (now : Tick) :
    ∃ intents counters, (g.produceIntents record now).2 =
      { g with intents := intents, counters := counters } := by
  rcases produceIntents_cases g record now with ⟨-, h⟩ | ⟨-, -, h⟩ | ⟨p, -, -, -, h⟩
  · exact ⟨_, _, by rw [h]⟩
  · exact ⟨_, _, by rw [h]; rfl⟩
  · obtain ⟨intents, counters, hall⟩ := emitAll_snd (g.retireStale record.classification)
      record.classification now _
    exact ⟨intents, counters, by rw [h]; exact hall⟩

/-- The intents after a commit has entered `Suspended`, or not. -/
def intentsAfter (l : IntentLedger) (c : FlowClassification) : IntentLedger :=
  if c.state = .suspended then (l.revokeFlow c.flow c.flowGeneration).2 else l

section

variable (g : Governor) (record : FlowRecord) (c : FlowClassification) (h : ClassificationHistory)
  (now : Tick)

theorem revokeSuspended_eq : ∃ counters,
    g.revokeSuspended c = { g with intents := intentsAfter g.intents c, counters := counters } := by
  unfold revokeSuspended intentsAfter
  split_ifs
  · exact ⟨_, rfl⟩
  · exact ⟨_, rfl⟩

/-! ## The commit -/

@[simp] theorem stamped_state : (stamped c h).state = c.state := rfl

@[simp] theorem stamped_authority : (stamped c h).authority = c.authority := rfl

@[simp] theorem stamped_generation : (stamped c h).generation = c.generation := rfl

@[simp] theorem stamped_flow : (stamped c h).flow = c.flow := rfl

@[simp] theorem stamped_flowGeneration : (stamped c h).flowGeneration = c.flowGeneration := rfl

theorem settle_snd : (g.settle record c h now).2 = rebound (committedRecord record c h now) :=
  updateIndex_snd _ _ _

/-- What the commit writes before intents are produced. -/
theorem settle_fst : ∃ index aggregate counters,
    (g.settle record c h now).1 = { g with
      lastTick := (g.advance now).lastTick
      bindingIndex := index
      resourceAggregate := aggregate
      intents := intentsAfter g.intents c
      counters := counters } := by
  obtain ⟨counters, hr⟩ := revokeSuspended_eq (g.count (countCommit record c)) c
  obtain ⟨index, aggregate, hi⟩ := updateIndex_fst ((g.count (countCommit record c)).revokeSuspended c)
    ⟨c.flow, c.flowGeneration⟩ (committedRecord record c h now)
  refine ⟨index, aggregate, counters, ?_⟩
  show Governor.advance _ now = _
  rw [hi, hr]
  rfl

theorem commit_snd : (g.commit record c h now).2 =
    (((g.settle record (stamped c h) h now).1.produceIntents
      (rebound (committedRecord record (stamped c h) h now)) now).2,
      rebound (committedRecord record (stamped c h) h now)) := by
  rw [← settle_snd g]
  unfold commit
  simp only
  rcases (g.settle record (stamped c h) h now).1.produceIntents _ now with ⟨r, g'⟩
  cases r with
  | error e => rfl
  | ok out => rfl

theorem commit_snd_snd :
    (g.commit record c h now).2.2 = rebound (committedRecord record (stamped c h) h now) := by
  rw [commit_snd]

theorem commit_snd_fst :
    (g.commit record c h now).2.1 =
      ((g.settle record (stamped c h) h now).1.produceIntents
        (rebound (committedRecord record (stamped c h) h now)) now).2 := by
  rw [commit_snd]

/-- Everything a commit may write to the governor. -/
theorem commit_governor : ∃ index aggregate intents counters,
    (g.commit record c h now).2.1 = { g with
      lastTick := (g.advance now).lastTick
      bindingIndex := index
      resourceAggregate := aggregate
      intents := intents
      counters := counters } := by
  obtain ⟨index, aggregate, _, hs⟩ := settle_fst g record (stamped c h) h now
  obtain ⟨intents, counters, hp⟩ := produceIntents_snd (g.settle record (stamped c h) h now).1
    (rebound (committedRecord record (stamped c h) h now)) now
  refine ⟨index, aggregate, intents, counters, ?_⟩
  rw [commit_snd_fst, hp, hs]

end

/-! ## The verdict -/

theorem suspensionReasons_of_no_policy (hp : g.policy = none) (record : FlowRecord) (now : Tick) :
    (g.suspensionReasons record now).1 = true := by
  unfold suspensionReasons policySuspension
  rw [hp]
  simp

/-- The three ways to a verdict. -/
theorem verdict_cases (g : Governor) (record : FlowRecord) (now : Tick) :
    (record.ledger.completed = true ∧ g.verdict record now = ⟨.notElephant, 0, 0, .flowCompleted⟩) ∨
    (record.ledger.completed = false ∧
      ((g.suspensionReasons record now).1 = true ∨ (g.measure record).capacityMissing = true) ∧
      g.verdict record now =
        ⟨if record.hasClassification && (previousState record = .elephant ||
          previousState record = .suspended) then .suspended else .unknown, 0, 0, .none⟩) ∨
    (record.ledger.completed = false ∧ (g.suspensionReasons record now).1 = false ∧
      (g.measure record).capacityMissing = false ∧ ∃ p, g.policy = some p ∧
      g.verdict record now = hysteresis p.hysteresis record (g.measure record).measurements
        (g.enterVerdict (g.measure record).measurements)
        (g.exitRules.evaluate (g.measure record).measurements {}).1) := by
  unfold verdict
  by_cases hc : record.ledger.completed = true
  · exact .inl ⟨hc, by rw [if_pos hc]⟩
  rw [Bool.not_eq_true] at hc
  by_cases hs : (g.suspensionReasons record now).1 = true ∨ (g.measure record).capacityMissing = true
  · refine .inr (.inl ⟨hc, hs, ?_⟩)
    have : ((g.suspensionReasons record now).1 || (g.measure record).capacityMissing) = true := by
      simpa using hs
    simp [hc, this]
  · rw [not_or, Bool.not_eq_true, Bool.not_eq_true] at hs
    refine .inr (.inr ⟨hc, hs.1, hs.2, ?_⟩)
    rcases hp : g.policy with _ | p
    · rw [suspensionReasons_of_no_policy hp] at hs
      exact absurd hs.1 (by simp)
    · exact ⟨p, rfl, by simp [hc, hs]⟩

/-- A running Elephant that is not suspended stays one or leaves by its exit rule, under a
policy. -/
theorem verdict_of_elephant (hc : record.hasClassification = true)
    (hs : record.classification.state = .elephant) (hrun : record.ledger.completed = false)
    (hne : (g.verdict record now).state ≠ .suspended) : g.policy ≠ none := by
  rcases verdict_cases g record now with ⟨hdone, -⟩ | ⟨-, -, heq⟩ | ⟨-, -, -, p, hp, -⟩
  · rw [hrun] at hdone
    cases hdone
  · rw [heq] at hne
    simp [previousState, hc, hs] at hne
  · simp [hp]

/-! ## The candidate -/

theorem enforceProtection_eq (g : Governor) (c : FlowClassification) : ∃ reasons authority,
    g.enforceProtection c = { c with reasons := reasons, authority := authority } ∧
      (c.authority = .none → authority = .none) := by
  unfold enforceProtection
  cases g.policy with
  | none => exact ⟨c.reasons, c.authority, rfl, id⟩
  | some p =>
    have hobserve : c.authority = .none →
        (if c.authority = .govern then AuthorityLevel.observe else c.authority) = .none := by
      intro hnone
      rw [hnone]
      rfl
    by_cases hp : p.authorization.protectObligations = true
    · by_cases hm : c.measurements.protection = .unknown
      · simp only [hp, hm, not_true_eq_false, if_false, if_true]
        exact ⟨_, _, rfl, hobserve⟩
      · simp only [hp, hm, not_true_eq_false, if_false]
        refine ⟨_, _, rfl, fun hnone => ?_⟩
        split
        · exact hobserve hnone
        · exact hnone
    · simp only [if_pos hp]
      exact ⟨c.reasons, c.authority, rfl, id⟩

section Candidate

variable (g : Governor) (record : FlowRecord) (now : Tick)

@[simp] theorem candidate_flow : (g.candidate record now).flow = record.ledger.flow := by
  obtain ⟨_, _, h, -⟩ := enforceProtection_eq g _
  exact congrArg FlowClassification.flow h

@[simp] theorem candidate_flowGeneration :
    (g.candidate record now).flowGeneration = record.ledger.generation := by
  obtain ⟨_, _, h, -⟩ := enforceProtection_eq g _
  exact congrArg FlowClassification.flowGeneration h

@[simp] theorem candidate_state : (g.candidate record now).state = (g.verdict record now).state := by
  obtain ⟨_, _, h, -⟩ := enforceProtection_eq g _
  exact congrArg FlowClassification.state h

@[simp] theorem candidate_measurements :
    (g.candidate record now).measurements = (g.measure record).measurements := by
  obtain ⟨_, _, h, -⟩ := enforceProtection_eq g _
  exact congrArg FlowClassification.measurements h

@[simp] theorem candidate_enterStreak :
    (g.candidate record now).enterStreak = (g.verdict record now).enterStreak := by
  obtain ⟨_, _, h, -⟩ := enforceProtection_eq g _
  exact congrArg FlowClassification.enterStreak h

@[simp] theorem candidate_exitStreak :
    (g.candidate record now).exitStreak = (g.verdict record now).exitStreak := by
  obtain ⟨_, _, h, -⟩ := enforceProtection_eq g _
  exact congrArg FlowClassification.exitStreak h

theorem candidate_authority (hs : (g.verdict record now).state ≠ .elephant) :
    (g.candidate record now).authority = .none := by
  obtain ⟨_, _, h, hnone⟩ := enforceProtection_eq g _
  refine (congrArg FlowClassification.authority h).trans (hnone ?_)
  rw [if_neg hs]

end Candidate

/-! ## The outcomes of an evaluation -/

/-- The classification `c` and the history `h` that an evaluation of the record commits. -/
structure Commits (g : Governor) (record : FlowRecord) (now : Tick) (c : FlowClassification)
    (h : ClassificationHistory) : Prop where
  notStale : ¬ (record.hasClassification = true ∧ now < record.evaluatedTick)
  changed : unchanged record (g.candidate record now) = false
  room : g.classificationSequence ≠ u64Max
  identity : ∃ authority, g.buildAuthority record now = .ok authority ∧
    c = identified (g.candidate record now) authority c.generation ⟨g.classificationSequence + 1⟩
  generation : nextGeneration record (g.candidate record now) = .ok c.generation
  recorded : record.history.record (transitionOf record c now) = .ok h

section Commits

variable (hcommits : g.Commits record now c h)
include hcommits

theorem Commits.flow : c.flow = record.ledger.flow := by
  obtain ⟨_, -, heq⟩ := hcommits.identity
  rw [← candidate_flow g record now]
  exact (congrArg FlowClassification.flow heq).trans rfl

theorem Commits.flowGeneration : c.flowGeneration = record.ledger.generation := by
  obtain ⟨_, -, heq⟩ := hcommits.identity
  rw [← candidate_flowGeneration g record now]
  exact (congrArg FlowClassification.flowGeneration heq).trans rfl

theorem Commits.state : c.state = (g.verdict record now).state := by
  obtain ⟨_, -, heq⟩ := hcommits.identity
  rw [← candidate_state g record now]
  exact (congrArg FlowClassification.state heq).trans rfl

theorem Commits.authority : c.authority = (g.candidate record now).authority := by
  obtain ⟨_, -, heq⟩ := hcommits.identity
  exact (congrArg FlowClassification.authority heq).trans rfl

theorem Commits.enterStreak : c.enterStreak = (g.verdict record now).enterStreak := by
  obtain ⟨_, -, heq⟩ := hcommits.identity
  rw [← candidate_enterStreak g record now]
  exact (congrArg FlowClassification.enterStreak heq).trans rfl

theorem Commits.exitStreak : c.exitStreak = (g.verdict record now).exitStreak := by
  obtain ⟨_, -, heq⟩ := hcommits.identity
  rw [← candidate_exitStreak g record now]
  exact (congrArg FlowClassification.exitStreak heq).trans rfl

theorem Commits.measurements : c.measurements = (g.measure record).measurements := by
  obtain ⟨_, -, heq⟩ := hcommits.identity
  rw [← candidate_measurements g record now]
  exact (congrArg FlowClassification.measurements heq).trans rfl

theorem Commits.evaluate_eq : g.evaluate record now =
    { g with classificationSequence := g.classificationSequence + 1 }.commit record c h now := by
  obtain ⟨authority, ha, hid⟩ := hcommits.identity
  unfold evaluate
  simp only [if_neg hcommits.notStale, hcommits.changed, ha, hcommits.generation,
    if_neg hcommits.room, Bool.false_eq_true, if_false]
  rw [← hid, hcommits.recorded]

end Commits

section

variable (g : Governor) (record : FlowRecord) (now : Tick)

/-- The three outcomes of an evaluation. -/
theorem evaluate_cases :
    (∃ e sequence counters, g.evaluate record now =
      (.error e, { g with classificationSequence := sequence, counters := counters }, record)) ∨
    (¬ (record.hasClassification = true ∧ now < record.evaluatedTick) ∧
      unchanged record (g.candidate record now) = true ∧
      g.evaluate record now = (.ok { classification := record.classification }, g.advance now,
        { record with evaluatedTick := now })) ∨
    (∃ c h, g.Commits record now c h ∧ g.evaluate record now =
      { g with classificationSequence := g.classificationSequence + 1 }.commit record c h now) := by
  unfold evaluate
  by_cases hstale : record.hasClassification = true ∧ now < record.evaluatedTick
  · rw [if_pos hstale]
    exact .inl ⟨_, _, _, rfl⟩
  rw [if_neg hstale]
  by_cases hu : unchanged record (g.candidate record now) = true
  · exact .inr (.inl ⟨hstale, hu, by simp only [hu, if_true]⟩)
  rw [Bool.not_eq_true] at hu
  simp only [hu, Bool.false_eq_true, if_false]
  rcases ha : g.buildAuthority record now with e | authority
  · exact .inl ⟨e, _, _, rfl⟩
  rcases hn : nextGeneration record (g.candidate record now) with e | generation
  · exact .inl ⟨e, _, _, rfl⟩
  by_cases hroom : g.classificationSequence = u64Max
  · simp only [hroom, if_true]
    exact .inl ⟨_, _, _, rfl⟩
  simp only [if_neg hroom]
  rcases hh : record.history.record (transitionOf record
    (identified (g.candidate record now) authority generation ⟨g.classificationSequence + 1⟩) now)
    with e | h
  · exact .inl ⟨e, _, _, rfl⟩
  · exact .inr (.inr ⟨_, h, ⟨hstale, hu, hroom, ⟨authority, ha, rfl⟩, hn, hh⟩, rfl⟩)

/-- Everything an evaluation may write to the governor. -/
theorem evaluate_governor :
    ∃ lastTick index aggregate intents sequence counters, (g.evaluate record now).2.1 = { g with
      lastTick := lastTick
      bindingIndex := index
      resourceAggregate := aggregate
      intents := intents
      classificationSequence := sequence
      counters := counters } := by
  rcases evaluate_cases g record now with ⟨e, sequence, counters, h⟩ | ⟨-, -, h⟩ | ⟨c, hist, -, h⟩
  · rw [h]
    exact ⟨_, _, _, _, _, _, rfl⟩
  · rw [h]
    exact ⟨_, _, _, _, _, _, rfl⟩
  · obtain ⟨index, aggregate, intents, counters, hc⟩ := commit_governor
      { g with classificationSequence := g.classificationSequence + 1 } record c hist now
    rw [h, hc]
    exact ⟨_, _, _, _, _, _, rfl⟩

theorem sameInputs_evaluate : SameInputs g (g.evaluate record now).2.1 := by
  obtain ⟨_, _, _, _, _, _, h⟩ := evaluate_governor g record now
  rw [h]
  exact sameInputs_update g _ _ _ _ _ _

end

/-! ## An evaluation does not read the flow map -/

/-- The governor with another flow map. -/
def withFlows (g : Governor) (flows : Std.ExtTreeMap FlowKey FlowRecord) : Governor :=
  { g with flows := flows }

variable (flows : Std.ExtTreeMap FlowKey FlowRecord)

theorem emit_withFlows (cls : FlowClassification) (now : Tick) (r : IntentRequest) (g : Governor) :
    emit cls now r (g.withFlows flows) =
      ((emit cls now r g).1, (emit cls now r g).2.withFlows flows) := by
  have main : ∀ (intent : GovernanceIntent) (x : Except Status GovernanceIntent × IntentLedger),
      (g.withFlows flows).emitted intent x =
        ((g.emitted intent x).1, (g.emitted intent x).2.withFlows flows) := by
    rintro intent ⟨res, ledger⟩
    cases res with
    | ok stored => rfl
    | error e =>
      by_cases hcode : e.code = .capacityExceeded
      · simp only [emitted, if_pos hcode]
        rfl
      · simp only [emitted, if_neg hcode]
        rfl
  exact main _ _

section

variable (g : Governor) (key : FlowKey) (record : FlowRecord) (c : FlowClassification)
  (h : ClassificationHistory) (now : Tick)

theorem produceIntents_withFlows :
    (g.withFlows flows).produceIntents record now =
      ((g.produceIntents record now).1, (g.produceIntents record now).2.withFlows flows) := by
  unfold produceIntents
  have hp : (g.withFlows flows).policy = g.policy := rfl
  rw [hp]
  cases g.policy with
  | none => rfl
  | some p =>
    simp only
    split_ifs
    · rfl
    · exact Fallible.collect_commutes (f := (withFlows · flows))
        (fun r g => emit_withFlows flows record.classification now r g) _
        (g.retireStale record.classification)
    · rfl

theorem updateIndex_withFlows :
    (g.withFlows flows).updateIndex key record =
      ((g.updateIndex key record).1.withFlows flows, (g.updateIndex key record).2) := by
  have hunbind : (g.withFlows flows).unbind key record.boundResource =
      (g.unbind key record.boundResource).withFlows flows := by
    unfold unbind
    have hi : (g.withFlows flows).bindingIndex = g.bindingIndex := rfl
    rw [hi]
    cases g.bindingIndex[record.boundResource]? with
    | none => rfl
    | some entries =>
      simp only
      cases entries[key]? with
      | none => rfl
      | some entry => rfl
  unfold updateIndex
  rw [hunbind]
  simp only
  split_ifs
  · rfl
  · rfl
  · rfl
  · rfl

theorem settle_withFlows :
    (g.withFlows flows).settle record c h now =
      ((g.settle record c h now).1.withFlows flows, (g.settle record c h now).2) := by
  have hrevoke : ((g.withFlows flows).count (countCommit record c)).revokeSuspended c =
      ((g.count (countCommit record c)).revokeSuspended c).withFlows flows := by
    unfold revokeSuspended
    split_ifs
    · rfl
    · rfl
  unfold settle
  rw [hrevoke, updateIndex_withFlows]
  rfl

theorem commit_withFlows :
    (g.withFlows flows).commit record c h now =
      ((g.commit record c h now).1, (g.commit record c h now).2.1.withFlows flows,
        (g.commit record c h now).2.2) := by
  unfold commit
  rw [settle_withFlows]
  simp only
  rw [produceIntents_withFlows]
  rcases (g.settle record (stamped c h) h now).1.produceIntents _ now with ⟨r, g'⟩
  cases r with
  | error e => rfl
  | ok out => rfl

end

/-- An evaluation over another flow map gives the same decision and the same record. -/
theorem evaluate_withFlows (g : Governor) (record : FlowRecord) (now : Tick) :
    (g.withFlows flows).evaluate record now =
      ((g.evaluate record now).1, (g.evaluate record now).2.1.withFlows flows,
        (g.evaluate record now).2.2) := by
  have hc : (g.withFlows flows).candidate record now = g.candidate record now := rfl
  have hb : (g.withFlows flows).buildAuthority record now = g.buildAuthority record now := rfl
  have hq : (g.withFlows flows).classificationSequence = g.classificationSequence := rfl
  unfold evaluate
  simp only [hc, hb, hq]
  by_cases hstale : record.hasClassification = true ∧ now < record.evaluatedTick
  · simp only [if_pos hstale]
    rfl
  simp only [if_neg hstale]
  by_cases hu : unchanged record (g.candidate record now) = true
  · simp only [if_pos hu]
    rfl
  simp only [if_neg hu]
  rcases g.buildAuthority record now with e | authority
  · rfl
  rcases nextGeneration record (g.candidate record now) with e | generation
  · rfl
  simp only
  by_cases hroom : g.classificationSequence = u64Max
  · simp only [if_pos hroom]
  simp only [if_neg hroom]
  rcases record.history.record _ with e | h
  · rfl
  · exact commit_withFlows flows { g with classificationSequence := g.classificationSequence + 1 }
      record _ h now

theorem evaluateFlow_setFlow (g : Governor) (key : FlowKey) (record₀ record : FlowRecord)
    (now : Tick) : (g.setFlow key record₀).evaluateFlow key record now =
      g.evaluateFlow key record now := by
  have h := evaluate_withFlows (g.flows.insert key record₀) g record now
  have hflows := (sameInputs_evaluate g record now).flows
  have htwice : ∀ r, (g.flows.insert key record₀).insert key r = g.flows.insert key r := by
    intro r
    ext k : 1
    simp only [Std.ExtTreeMap.getElem?_insert]
    split_ifs
    · rfl
    · rfl
  unfold evaluateFlow
  rw [show g.setFlow key record₀ = g.withFlows (g.flows.insert key record₀) from rfl, h]
  simp only [setFlow, withFlows, htwice, hflows]

theorem submitEvidence_of_tracked {s : FlowSample} (hr : g.flows[sampleKey s]? = some record)
    (hpolicy : g.policy ≠ none) (hvalid : s.validate = .ok ()) :
    g.submitEvidence s = g.applyEvidence (sampleKey s) record s := by
  unfold submitEvidence openFlow
  rw [if_neg (by simpa using hpolicy), hvalid, hr]
  simp only [hr]

/-! ## The live intents after a commit -/

/-- The intent was minted for the classification by one of the requests. -/
def Minted (c : FlowClassification) (rs : List IntentRequest) (i : GovernanceIntent) : Prop :=
  i.flow = c.flow ∧ i.flowGeneration = c.flowGeneration ∧
    i.classificationGeneration = c.generation ∧ ∃ r ∈ rs, i.kind = r.kind

theorem live_of_live_emitAll {rs : List IntentRequest}
    (h : (emitAll c now rs g).2.intents.Live id i) :
    g.intents.Live id i ∨ Minted c rs i := by
  revert id i
  apply Fallible.Keeps.collect
      (P := fun g' : Governor => ∀ {id i}, g'.intents.Live id i → g.intents.Live id i ∨ Minted c rs i)
  · intro r hr g' ih id i hlive
    rw [emit_intents] at hlive
    rcases IntentLedger.live_of_live_record hlive with hold | hnew
    · exact ih hold
    · refine .inr ⟨?_, ?_, ?_, r, hr, ?_⟩
      · rw [hnew, GovernanceIntent.sealed_flow]
        rfl
      · rw [hnew, GovernanceIntent.sealed_flowGeneration]
        rfl
      · rw [hnew, GovernanceIntent.sealed_classificationGeneration]
        rfl
      · rw [hnew, GovernanceIntent.sealed_kind]
        rfl
  · intro id i hlive
    exact .inl hlive

theorem authority_of_mem_pendingRequests {p : PolicyDocument} {r : IntentRequest}
    (hr : r ∈ g.pendingRequests p c now) (hk : isCorrective r.kind = true) :
    c.authority = .govern := by
  unfold pendingRequests intentRequests requestWhen at hr
  rcases List.mem_append.mp hr with hr | hr
  · split_ifs at hr
    · rw [List.mem_singleton.mp hr] at hk
      simp [isCorrective] at hk
    · cases hr
  · by_contra hne
    rw [if_neg hne] at hr
    cases hr

/-- A live intent after the production of intents stood before, and not under another
classification generation of the flow, or was minted for the Elephant record. -/
theorem live_of_live_produceIntents (h : (g.produceIntents record now).2.intents.Live id i) :
    (g.intents.Live id i ∧ (g.policy ≠ none → record.hasClassification = true →
      i.flow = record.classification.flow → i.flowGeneration = record.classification.flowGeneration →
      i.classificationGeneration = record.classification.generation)) ∨
    (record.classification.state = .elephant ∧ record.ledger.completed = false ∧
      i.flow = record.classification.flow ∧
      i.flowGeneration = record.classification.flowGeneration ∧
      i.classificationGeneration = record.classification.generation ∧
      (isCorrective i.kind = true → record.classification.authority = .govern)) := by
  have hretired : ∀ {id i}, (g.retireStale record.classification).intents.Live id i →
      g.intents.Live id i ∧ (i.flow = record.classification.flow →
        i.flowGeneration = record.classification.flowGeneration →
        i.classificationGeneration = record.classification.generation) := by
    intro id i hlive
    obtain ⟨hold, hgen⟩ := IntentLedger.live_revokeStaleGeneration.mp hlive
    exact ⟨hold, fun hf hg => hgen ⟨hf, hg⟩⟩
  rcases produceIntents_cases g record now with ⟨hno, heq⟩ | ⟨-, -, heq⟩ | ⟨p, -, hs, hc, heq⟩
  · rw [heq] at h
    refine .inl ⟨h, fun hp hcls => ?_⟩
    rcases hno with hno | hno
    · exact absurd hno hp
    · rw [hno] at hcls
      cases hcls
  · rw [heq] at h
    obtain ⟨hold, hgen⟩ := hretired h
    exact .inl ⟨hold, fun _ _ => hgen⟩
  · rw [heq] at h
    rcases live_of_live_emitAll h with hlive | ⟨hf, hg, hgen, r, hr, hk⟩
    · obtain ⟨hold, hgen⟩ := hretired hlive
      exact .inl ⟨hold, fun _ _ => hgen⟩
    · refine .inr ⟨hs, hc, hf, hg, hgen, fun hcor => ?_⟩
      rw [hk] at hcor
      exact authority_of_mem_pendingRequests hr hcor

theorem live_of_live_commit (hlive : (g.commit record c h now).2.1.intents.Live id i) :
    (g.intents.Live id i ∧ (i.flow = c.flow → i.flowGeneration = c.flowGeneration →
      c.state ≠ .suspended ∧ (g.policy ≠ none → i.classificationGeneration = c.generation))) ∨
    (c.state = .elephant ∧ record.ledger.completed = false ∧ i.flow = c.flow ∧
      i.flowGeneration = c.flowGeneration ∧ i.classificationGeneration = c.generation ∧
      (isCorrective i.kind = true → c.authority = .govern)) := by
  rw [commit_snd_fst] at hlive
  obtain ⟨index, aggregate, counters, hs⟩ := settle_fst g record (stamped c h) h now
  rcases live_of_live_produceIntents hlive with ⟨hold, hgen⟩ | hnew
  · refine .inl ?_
    rw [hs] at hold hgen
    simp only [rebound_classification, rebound_hasClassification] at hgen
    have hintents : (intentsAfter g.intents (stamped c h)).Live id i := hold
    unfold intentsAfter at hintents
    split_ifs at hintents with hsus
    · obtain ⟨hbefore, hne⟩ := IntentLedger.live_revokeFlow.mp hintents
      exact ⟨hbefore, fun hf hg => absurd ⟨hf, hg⟩ hne⟩
    · exact ⟨hintents, fun hf hg => ⟨hsus, fun hp => hgen hp rfl hf hg⟩⟩
  · refine .inr ?_
    simp only [rebound_classification, rebound_ledger] at hnew
    exact hnew

end Governor

end EFG
