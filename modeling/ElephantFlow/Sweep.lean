/-
# A sweep leaves no unsupported Elephant

`Governor::tick` evaluates every Elephant it tracks.  An evaluation can only be
refused for reasons that a reachable state excludes, as long as the tick domain,
the identifiers and the generations are not exhausted (`evaluate_answers`).  One
iteration of the sweep loop therefore leaves its flow supported or not an Elephant
(`Swept.step`), the other iterations do not touch it, and the whole loop leaves
every Elephant supported.
-/
import ElephantFlow.Support

namespace EFG

namespace Governor

variable {g g' g₀ : Governor} {record r : FlowRecord} {now lastTick : Tick} {key : FlowKey}
  {pending : List FlowKey} {batch : DecisionBatch}

/-! ## Evaluations that are not refused -/

theorem buildAuthority_isOk (hticks : g.config.classificationValidityTicks ≠ 0)
    (hnow : now.toNat + g.config.classificationValidityTicks.toNat < 2 ^ 64) (record : FlowRecord) :
    ∃ v, g.buildAuthority record now = .ok v := by
  obtain ⟨w, hw⟩ := makeValidity_isOk hticks hnow
  unfold buildAuthority
  simp only [hw]
  exact ⟨_, rfl⟩

theorem nextGeneration_isOk (c : FlowClassification)
    (h : record.classification.generation.value ≠ u64Max) :
    ∃ generation, nextGeneration record c = .ok generation := by
  unfold nextGeneration Generation.next
  split_ifs
  · exact ⟨_, rfl⟩
  · exact ⟨_, rfl⟩
  · exact ⟨_, rfl⟩

/-- The evaluation repeats the stored answer or commits a new one. -/
def Answers (g : Governor) (record : FlowRecord) (now : Tick) : Prop :=
  (unchanged record (g.candidate record now) = true ∧
    (g.evaluate record now).2.2 = { record with evaluatedTick := now }) ∨
  ∃ c h, g.Commits record now c h ∧
    (g.evaluate record now).2.2 = rebound (committedRecord record (stamped c h) h now)

/-- An evaluation that nothing refuses repeats the stored answer or commits a new one. -/
theorem evaluate_answers (hfresh : ¬ (record.hasClassification = true ∧ now < record.evaluatedTick))
    (hauthority : ∃ v, g.buildAuthority record now = .ok v)
    (hgeneration : record.classification.generation.value ≠ u64Max)
    (hroom : g.classificationSequence ≠ u64Max)
    (hhistory : ∀ last, record.history.latest = some last →
      last.atTick ≤ now ∧ previousState record = last.toState) : Answers g record now := by
  obtain ⟨authority, ha⟩ := hauthority
  obtain ⟨generation, hn⟩ := nextGeneration_isOk (g.candidate record now) hgeneration
  by_cases hu : unchanged record (g.candidate record now) = true
  · refine .inl ⟨hu, ?_⟩
    unfold evaluate
    simp only [if_neg hfresh, if_pos hu]
  · have hrecord := ClassificationHistory.record_of_continues (h := record.history)
      (t := transitionOf record (identified (g.candidate record now) authority generation
        ⟨g.classificationSequence + 1⟩) now) hhistory
    refine .inr ⟨_, _, ⟨hfresh, by simpa using hu, hroom, ⟨authority, ha, rfl⟩, hn, hrecord⟩, ?_⟩
    rw [← commit_snd_snd { g with classificationSequence := g.classificationSequence + 1 }]
    unfold evaluate
    simp only [if_neg hfresh, if_neg hu, ha, hn, if_neg hroom, hrecord]

/-- An evaluation takes at most one classification identifier. -/
theorem evaluate_classificationSequence (g : Governor) (record : FlowRecord) (now : Tick) :
    (g.evaluate record now).2.1.classificationSequence = g.classificationSequence ∨
      (g.classificationSequence ≠ u64Max ∧
        (g.evaluate record now).2.1.classificationSequence = g.classificationSequence + 1) := by
  unfold evaluate
  by_cases hstale : record.hasClassification = true ∧ now < record.evaluatedTick
  · rw [if_pos hstale]
    exact .inl rfl
  rw [if_neg hstale]
  by_cases hu : unchanged record (g.candidate record now) = true
  · simp only [if_pos hu]
    exact .inl rfl
  simp only [if_neg hu]
  rcases g.buildAuthority record now with e | authority
  · exact .inl rfl
  rcases nextGeneration record (g.candidate record now) with e | generation
  · exact .inl rfl
  simp only
  by_cases hroom : g.classificationSequence = u64Max
  · rw [if_pos hroom]
    exact .inl rfl
  rw [if_neg hroom]
  refine .inr ⟨hroom, ?_⟩
  rcases record.history.record _ with e | h
  · rfl
  · obtain ⟨_, _, _, _, hc⟩ := commit_governor
      { g with classificationSequence := g.classificationSequence + 1 } record
      (identified (g.candidate record now) authority generation ⟨g.classificationSequence + 1⟩) h now
    simp only
    rw [hc]

/-! ## One flow of a sweep -/

theorem supported_evaluate (hledger : record.ledger.WellFormed)
    (hanswers : record.isElephant = true → Answers g record now)
    (hel : (g.evaluate record now).2.2.isElephant = true) :
    Supported g (g.evaluate record now).2.2 now := by
  have hcases : (record.isElephant = true ∧ unchanged record (g.candidate record now) = true ∧
        (g.evaluate record now).2.2 = { record with evaluatedTick := now }) ∨
      ∃ c h, g.Commits record now c h ∧
        (g.evaluate record now).2.2 = rebound (committedRecord record (stamped c h) h now) := by
    by_cases hbefore : record.isElephant = true
    · rcases hanswers hbefore with hkept | hcommitted
      · exact .inl ⟨hbefore, hkept⟩
      · exact .inr hcommitted
    · -- only a commit can have made it an Elephant
      rcases evaluate_cases g record now with ⟨e, _, _, heq⟩ | ⟨-, -, heq⟩ | ⟨c, h, hc, heq⟩
      · rw [heq] at hel
        exact absurd hel hbefore
      · rw [heq] at hel
        exact absurd hel hbefore
      · exact .inr ⟨c, h, hc, by rw [heq, commit_snd_snd]⟩
  rcases hcases with ⟨hbefore, hu, heq⟩ | ⟨c, h, hc, heq⟩
  · have hstate : record.classification.state = .elephant := by
      simp only [FlowRecord.isElephant, Bool.and_eq_true, decide_eq_true_eq] at hbefore
      exact hbefore.2
    have hverdict : (g.verdict record now).state = .elephant := by
      rw [← candidate_state, ← (of_unchanged hu).2.1]
      exact hstate
    have hsus := suspensionReasons_eq_false (of_verdict_elephant hverdict).2.1
    rw [heq]
    refine supported_of_not_suspended hledger hverdict rfl ?_
    exact of_authoritySuspension hsus.2.2 hbefore
  · rw [heq] at hel ⊢
    have hverdict : (g.verdict record now).state = .elephant := by
      rw [← hc.state]
      simp only [FlowRecord.isElephant, rebound_classification, Bool.and_eq_true,
        decide_eq_true_eq] at hel
      exact hel.2
    refine supported_of_not_suspended hledger hverdict (by simp [committedRecord]) ?_
    obtain ⟨authority, hauthority, hid⟩ := hc.identity
    refine ⟨authority, ?_, ?_⟩
    · have hsame : (rebound (committedRecord record (stamped c h) h now)).ledger =
          record.ledger := by simp [committedRecord]
      rw [buildAuthority_congr hsame]
      exact hauthority
    · rw [rebound_classification]
      show c.authorityVector.compare authority = .matched
      rw [hid]
      exact compare_identified _ _ _ _

theorem Sound.not_ahead (h : Sound g.config lastTick key record) (hle : lastTick ≤ now) :
    ¬ (record.hasClassification = true ∧ now < record.evaluatedTick) := by
  rintro ⟨hc, hlt⟩
  exact absurd hlt (UInt64.not_lt.mpr (UInt64.le_trans (h.evaluated hc) hle))

theorem Sound.sweeps (h : Sound g.config lastTick key record) (hle : lastTick ≤ now)
    (hel : record.isElephant = true) : g.sweeps record now = true := by
  have hclock : (record.hasClassification && decide (record.evaluatedTick > now)) = false := by
    have hahead := h.not_ahead hle
    simp only [not_and] at hahead
    cases hc : record.hasClassification with
    | false => rfl
    | true => simpa using hahead hc
  simp only [Governor.sweeps, hclock, hel, Bool.not_false, Bool.true_or, Bool.and_true]

theorem Sound.continues (h : Sound g.config lastTick key record) (hle : lastTick ≤ now)
    (hel : record.isElephant = true) :
    ∀ last, record.history.latest = some last →
      last.atTick ≤ now ∧ previousState record = last.toState := by
  simp only [FlowRecord.isElephant, Bool.and_eq_true, decide_eq_true_eq] at hel
  obtain ⟨t, ht, hto, hat⟩ := h.latest hel.1
  intro last hlast
  rw [ht] at hlast
  cases hlast
  refine ⟨UInt64.le_trans (hat (hto.trans hel.2)) hle, ?_⟩
  unfold previousState
  rw [if_pos hel.1]
  exact hto.symm

/-- A sound Elephant whose clock is not ahead is evaluated. -/
theorem Sound.answers (h : Sound g.config lastTick key record) (hle : lastTick ≤ now)
    (hel : record.isElephant = true) (hauthority : ∃ v, g.buildAuthority record now = .ok v)
    (hgeneration : record.classification.generation.value ≠ u64Max)
    (hroom : g.classificationSequence ≠ u64Max) : Answers g record now :=
  evaluate_answers (h.not_ahead hle) hauthority hgeneration hroom (h.continues hle hel)

/-! ## The sweep loop -/

/-- The two governors agree on everything that support is read from. -/
structure SameSources (g g' : Governor) : Prop where
  config : g'.config = g.config
  boot : g'.boot = g.boot
  policy : g'.policy = g.policy
  capacities : g'.capacities = g.capacities
  paths : g'.paths = g.paths

theorem SameSources.buildAuthority (h : SameSources g g') (record : FlowRecord) (now : Tick) :
    g'.buildAuthority record now = g.buildAuthority record now := by
  unfold Governor.buildAuthority latestPath
  rw [h.boot, h.policy, h.paths, h.capacities, h.config]

theorem Supported.congr (h : Supported g r now) (hsame : SameSources g g') :
    Supported g' r now where
  running := h.running
  contiguous := h.contiguous
  evidence := by
    rw [hsame.paths, hsame.capacities]
    exact h.evidence
  policy := by
    rw [hsame.policy]
    exact h.policy
  authority := by
    rw [hsame.buildAuthority]
    exact h.authority

theorem sameSources_evaluateFlow (g : Governor) (key : FlowKey) (record : FlowRecord) (now : Tick) :
    SameSources g (g.evaluateFlow key record now).2 := by
  have h := sameInputs_evaluate g record now
  exact ⟨h.config, h.boot, h.policy, h.capacities, h.paths⟩

theorem SameSources.trans {g₁ g₂ g₃ : Governor} (h : SameSources g₁ g₂) (h' : SameSources g₂ g₃) :
    SameSources g₁ g₃ :=
  ⟨h'.config.trans h.config, h'.boot.trans h.boot, h'.policy.trans h.policy,
    h'.capacities.trans h.capacities, h'.paths.trans h.paths⟩

/-- What the governor a sweep starts from has to offer. -/
structure Sweepable (g : Governor) (now : Tick) : Prop where
  records : ∀ (key : FlowKey) (r : FlowRecord), g.flows[key]? = some r →
    Sound g.config g.lastTick key r
  clock : g.lastTick ≤ now
  authority : ∀ record : FlowRecord, ∃ v, g.buildAuthority record now = .ok v
  generations : ∀ (key : FlowKey) (r : FlowRecord), g.flows[key]? = some r →
    r.classification.generation.value ≠ u64Max
  identifiers : g.classificationSequence.toNat + g.flows.size < 2 ^ 64

/-- The state of the sweep loop: the flows it has not visited are as before, and the Elephants among
the others are supported. -/
structure Swept (g₀ : Governor) (now : Tick) (pending : List FlowKey) (g : Governor) : Prop where
  same : SameSources g₀ g
  untouched : ∀ k ∈ pending, g.flows[k]? = g₀.flows[k]?
  supported : ∀ (k : FlowKey) (r : FlowRecord), k ∉ pending → g.flows[k]? = some r →
    r.isElephant = true → Supported g₀ r now
  identifiers : g.classificationSequence.toNat + pending.length < 2 ^ 64

theorem Swept.next (h : Swept g₀ now (key :: pending) g) (hnew : key ∉ pending)
    (hsame : SameSources g g') (hflows : ∀ k, k ≠ key → g'.flows[k]? = g.flows[k]?)
    (hkey : ∀ r : FlowRecord, g'.flows[key]? = some r → r.isElephant = true → Supported g₀ r now)
    (hids : g'.classificationSequence.toNat ≤ g.classificationSequence.toNat + 1) :
    Swept g₀ now pending g' := by
  refine ⟨h.same.trans hsame, fun k hk => ?_, fun k r hk hr hel => ?_, ?_⟩
  · have hne : k ≠ key := fun heq => hnew (heq ▸ hk)
    rw [hflows k hne]
    exact h.untouched k (List.mem_cons_of_mem _ hk)
  · by_cases heq : k = key
    · rw [heq] at hr
      exact hkey r hr hel
    · rw [hflows k heq] at hr
      exact h.supported k r (by simp [heq, hk]) hr hel
  · have hlen := h.identifiers
    rw [List.length_cons] at hlen
    omega

/-- One iteration of the sweep loop. -/
theorem Swept.step (h₀ : Sweepable g₀ now) (h : Swept g₀ now (key :: pending) g)
    (hnew : key ∉ pending) :
    Swept g₀ now pending (sweepFlow now key (batch, g)).2 := by
  have hbefore : g.flows[key]? = g₀.flows[key]? := h.untouched key List.mem_cons_self
  unfold sweepFlow
  simp only
  rcases hr : g.flows[key]? with _ | record
  · -- nothing is tracked under the key
    refine h.next hnew ⟨rfl, rfl, rfl, rfl, rfl⟩ (fun _ _ => rfl) (fun r hsome => ?_)
      (Nat.le_succ _)
    rw [hr] at hsome
    cases hsome
  have hr₀ : g₀.flows[key]? = some record := by rw [← hbefore, hr]
  have hsound := h₀.records key record hr₀
  simp only
  by_cases hsweeps : g.sweeps record now = true
  · rw [if_pos hsweeps]
    have hstep : Swept g₀ now pending (g.evaluateFlow key record now).2 := by
      refine h.next hnew (sameSources_evaluateFlow g key record now) (fun k hne => ?_)
        (fun r hsome hel => ?_) ?_
      · rw [getElem?_evaluateFlow, if_neg (Ne.symm hne)]
      · rw [getElem?_evaluateFlow, if_pos rfl] at hsome
        cases hsome
        have hsame : SameSources g g₀ := ⟨h.same.config.symm, h.same.boot.symm, h.same.policy.symm,
          h.same.capacities.symm, h.same.paths.symm⟩
        refine Supported.congr (supported_evaluate hsound.tracked.ledger (fun hbefore => ?_) hel) hsame
        have hsound' : Sound g.config g₀.lastTick key record := by
          rw [h.same.config]
          exact hsound
        refine hsound'.answers h₀.clock hbefore ?_ (h₀.generations key record hr₀) ?_
        · obtain ⟨v, hv⟩ := h₀.authority record
          exact ⟨v, by rw [h.same.buildAuthority]; exact hv⟩
        · -- the identifiers last for the flows that are still to come
          intro hmax
          have hids := h.identifiers
          rw [hmax, List.length_cons] at hids
          have hval : u64Max.toNat = 2 ^ 64 - 1 := by decide
          omega
      · show (g.evaluate record now).2.1.classificationSequence.toNat ≤ _
        rcases evaluate_classificationSequence g record now with hq | ⟨-, hq⟩
        · rw [hq]
          exact Nat.le_succ _
        · rw [hq, UInt64.toNat_add]
          exact Nat.mod_le _ _
    rcases hd : g.evaluateFlow key record now with ⟨e | d, g'⟩
    · rw [hd] at hstep
      exact hstep
    · rw [hd] at hstep
      exact hstep
  · rw [if_neg hsweeps]
    refine h.next hnew ⟨rfl, rfl, rfl, rfl, rfl⟩ (fun _ _ => rfl) (fun r hsome hel => ?_)
      (Nat.le_succ _)
    -- a skipped record is not an Elephant, since no clock is ahead of the sweep
    rw [hr] at hsome
    cases hsome
    have hsound' : Sound g.config g₀.lastTick key record := by
      rw [h.same.config]
      exact hsound
    exact absurd (hsound'.sweeps h₀.clock hel) hsweeps

theorem Swept.loop (h₀ : Sweepable g₀ now) (acc : DecisionBatch × Governor)
    (h : Swept g₀ now pending acc.2) (hnodup : pending.Nodup) :
    Swept g₀ now [] (sweepLoop now pending acc).2 := by
  induction pending generalizing acc with
  | nil => exact h
  | cons key pending ih =>
    obtain ⟨hnew, hnodup⟩ := List.nodup_cons.mp hnodup
    have hstep : Swept g₀ now pending (sweepFlow now key acc).2 := Swept.step h₀ h hnew
    exact ih _ hstep hnodup

theorem swept_start (h₀ : Sweepable g₀ now) : Swept g₀ now g₀.flows.keys g₀ where
  same := ⟨rfl, rfl, rfl, rfl, rfl⟩
  untouched := fun _ _ => rfl
  supported := by
    intro k r hk hr _
    exfalso
    apply hk
    rw [Std.ExtTreeMap.mem_keys, ← Std.ExtTreeMap.isSome_getElem?_iff_mem, hr]
    rfl
  identifiers := by
    rw [Std.ExtTreeMap.length_keys]
    exact h₀.identifiers

/-! ## Ticks -/

theorem clamped_classificationValidityTicks (config : GovernorConfig) :
    config.clamped.classificationValidityTicks ≠ 0 := by
  show (if config.classificationValidityTicks = 0 then 1 else config.classificationValidityTicks) ≠ 0
  split_ifs with h
  · decide
  · exact h

/-- The two halves of a successful sweep. -/
theorem tick_eq_ok (hok : (g.tick now).1 = .ok batch) :
    g.lastTick ≤ now ∧ ∃ guard, g.tickGuard.observe now = .ok guard ∧ (g.tick now).2 =
      (sweepLoop now g.flows.keys (g.beginSweep guard now)).2.advance now := by
  unfold tick at hok ⊢
  by_cases hissued : g.policy.any (fun p => p.validity.wellFormed && now < p.validity.issuedAt) = true
  · rw [if_pos hissued] at hok
    cases hok
  rw [if_neg hissued] at hok ⊢
  by_cases hlast : now < g.lastTick
  · rw [if_pos hlast] at hok
    cases hok
  rw [if_neg hlast] at hok ⊢
  rcases hguard : g.tickGuard.observe now with e | guard
  · rw [hguard] at hok
    cases hok
  · exact ⟨UInt64.not_lt.mp hlast, guard, rfl, rfl⟩

/-- After a successful sweep of a reachable governor every Elephant is supported at the tick of the
sweep, as long as the tick domain, the identifiers and the generations are not exhausted. -/
theorem tick_supported {config : GovernorConfig} {batch : DecisionBatch} (h : Reachable config g)
    (hnow : now.toNat + g.config.classificationValidityTicks.toNat < 2 ^ 64)
    (hids : g.classificationSequence.toNat + g.flows.size < 2 ^ 64)
    (hgens : ∀ (key : FlowKey) (r : FlowRecord), g.flows[key]? = some r →
      r.classification.generation.value ≠ u64Max)
    (hok : (g.tick now).1 = .ok batch) :
    ∀ (key : FlowKey) (r : FlowRecord), (g.tick now).2.flows[key]? = some r →
      r.classification.state = .elephant → Supported (g.tick now).2 r now := by
  intro key r hr hstate
  have hafter : Reachable config (g.tick now).2 := h.tail ⟨.tick now, trivial, rfl⟩
  have hel := hafter.isElephant_of_state hr hstate
  obtain ⟨hclock, guard, -, heq⟩ := tick_eq_ok hok
  have hticks : g.config.classificationValidityTicks ≠ 0 := by
    rw [h.config_eq]
    exact clamped_classificationValidityTicks config
  have h₀ : Sweepable (g.beginSweep guard now).2 now :=
    ⟨h.justified.records, hclock, buildAuthority_isOk hticks hnow, hgens, hids⟩
  have hswept := Swept.loop h₀ (g.beginSweep guard now) (swept_start h₀) Std.ExtTreeMap.nodup_keys
  have hr' : (sweepLoop now g.flows.keys (g.beginSweep guard now)).2.flows[key]? = some r := by
    rw [heq] at hr
    exact hr
  have hsupported := hswept.supported key r (by simp) hr' hel
  rw [heq]
  refine hsupported.congr ?_
  exact ⟨hswept.same.config, hswept.same.boot, hswept.same.policy, hswept.same.capacities,
    hswept.same.paths⟩

open Scenario

/-- The sweep of the small run at tick 20 leaves its Elephant supported. -/
theorem tick_supported_scenario : ∃ r : FlowRecord,
    (governor.tick 20).2.flows[flowKey]? = some r ∧
      Supported (governor.tick 20).2 r 20 := by
  obtain ⟨r, hr, hstate⟩ : ∃ r, (governor.tick 20).2.flows[flowKey]? = some r ∧
    r.classification.state = .elephant := by decide +kernel
  have hgens : ∀ e ∈ governor.flows.toList, e.2.classification.generation.value ≠ u64Max := by
    decide +kernel
  obtain ⟨batch, hbatch⟩ : ∃ batch, (governor.tick 20).1 = .ok batch := by decide +kernel
  exact ⟨r, hr, tick_supported reachable_governor (by decide +kernel) (by decide +kernel)
    (fun key x hx => hgens _ (Std.ExtTreeMap.mem_toList_iff_getElem?_eq_some.mpr hx)) hbatch _ r hr
    hstate⟩

end Governor

end EFG
