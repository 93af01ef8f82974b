/-
# No live intent without a justification

The invariant of the governor that ties its intents to its records.  `Sound` is
what every tracked record satisfies, `Justified` adds that every live intent
belongs to an Elephant record that carries exactly its classification generation.
Every move keeps it, so it holds in every state that a run reaches.
-/
import ElephantFlow.Runs

namespace EFG

open Std

namespace Governor

variable {g g' : Governor} {key : FlowKey} {r r' : FlowRecord} {now : Tick} {c : FlowClassification}
  {h : ClassificationHistory} {i : GovernanceIntent}

/-! ## Records -/

/-- What every tracked record satisfies, in a governor with the given configuration and clock. -/
structure Sound (config : GovernorConfig) (lastTick : Tick) (key : FlowKey) (r : FlowRecord) :
    Prop where
  tracked : Tracked config key r
  authority : r.classification.state ≠ .elephant → r.classification.authority = .none
  latest : r.hasClassification = true → ∃ t, r.history.latest = some t ∧
    t.toState = r.classification.state ∧ (t.toState = .elephant → t.atTick ≤ lastTick)
  evaluated : r.hasClassification = true → r.evaluatedTick ≤ lastTick

/-- The record is an Elephant that the intent may rest on. -/
structure Supports (r : FlowRecord) (i : GovernanceIntent) : Prop where
  classified : r.hasClassification = true
  state : r.classification.state = .elephant
  generation : r.classification.generation = i.classificationGeneration
  authority : isCorrective i.kind = true → r.classification.authority = .govern
  running : r.ledger.completed = false

/-- Sound records, and live intents that rest on one of them. -/
structure Justified (g : Governor) : Prop where
  records : ∀ (key : FlowKey) (r : FlowRecord), g.flows[key]? = some r →
    Sound g.config g.lastTick key r
  intents : ∀ (id : IntentId) (i : GovernanceIntent), g.intents.Live id i →
    ∃ r : FlowRecord, g.flows[(⟨i.flow, i.flowGeneration⟩ : FlowKey)]? = some r ∧ Supports r i

variable {config : GovernorConfig} {lastTick lastTick' : Tick}

theorem Sound.later (h : Sound config lastTick key r) (hle : lastTick ≤ lastTick') :
    Sound config lastTick' key r where
  tracked := h.tracked
  authority := h.authority
  latest := by
    intro hc
    obtain ⟨t, ht, hto, hat⟩ := h.latest hc
    exact ⟨t, ht, hto, fun hel => UInt64.le_trans (hat hel) hle⟩
  evaluated := fun hc => UInt64.le_trans (h.evaluated hc) hle

theorem Sound.congr (h : Sound config lastTick key r) (htracked : Tracked config key r')
    (hc : r'.classification.state = r.classification.state)
    (ha : r'.classification.authority = r.classification.authority)
    (hhas : r'.hasClassification = r.hasClassification) (hhist : r'.history = r.history)
    (htick : r'.evaluatedTick = r.evaluatedTick) : Sound config lastTick key r' where
  tracked := htracked
  authority := by
    rw [hc, ha]
    exact h.authority
  latest := by
    rw [hhas, hhist, hc]
    exact h.latest
  evaluated := by
    rw [hhas, htick]
    exact h.evaluated

theorem sound_freshRecord (g : Governor) (key : FlowKey) :
    Sound g.config g.lastTick key (g.freshRecord key) where
  tracked := tracked_freshRecord g key
  authority := fun _ => rfl
  latest := fun h => by cases h
  evaluated := fun h => by cases h

theorem Sound.rebound (h : Sound config lastTick key r) :
    Sound config lastTick key (Governor.rebound r) :=
  h.congr h.tracked.rebound (by simp) (by simp) (by simp) (by simp) (by simp)

/-! ## An evaluation -/

theorem Sound.commit (hr : Sound g.config lastTick key r) (hcommits : g.Commits r now c h)
    (hnow : now ≤ lastTick') :
    Sound g.config lastTick' key
      (Governor.rebound (committedRecord r (stamped c h) h now)) := by
  apply Sound.rebound
  refine ⟨⟨hr.tracked.flow, hr.tracked.generation, hr.tracked.limits, hr.tracked.ledger,
    fun hno => by cases hno⟩, ?_, ?_, fun _ => hnow⟩
  · intro hs
    have hs' : c.state ≠ .elephant := hs
    show c.authority = .none
    rw [hcommits.state] at hs'
    rw [hcommits.authority]
    exact candidate_authority g r now hs'
  · intro _
    obtain ⟨hpush, -⟩ := ClassificationHistory.record_eq_ok hcommits.recorded
    refine ⟨transitionOf r c now, ?_, rfl, fun _ => hnow⟩
    show h.latest = _
    rw [hpush, ClassificationHistory.latest_push]

theorem Commits.unchanged_of_generation (hcommits : g.Commits r now c h)
    (hc : r.hasClassification = true) (hgen : c.generation = r.classification.generation) :
    c.state = r.classification.state ∧ c.authority = r.classification.authority := by
  have hnext := hcommits.generation
  unfold nextGeneration at hnext
  have hstate : c.state = (g.candidate r now).state := by
    rw [hcommits.state, candidate_state]
  split_ifs at hnext with hvalid hsame
  · rw [hstate, hcommits.authority]
    exact ⟨hsame.1.symm, hsame.2.symm⟩
  · -- a changed classification gets the next generation, which is another one
    exact absurd hgen (Generation.next_ne hnext)
  · -- an absent generation is replaced by the initial one
    exfalso
    have hinitial : Generation.initial = c.generation := Except.ok.inj hnext
    rw [hgen] at hinitial
    apply hvalid
    refine ⟨hc, ?_⟩
    rw [← hinitial]
    rfl

/-- The live intents after a commit rest on the new record, or on another one as before. -/
theorem Justified.intents_commit (hg : g.Justified) (hr : g.flows[key]? = some r)
    (hcommits : g.Commits r now c h) {sequence : UInt64} {id : IntentId}
    (hlive : (({ g with classificationSequence := sequence } : Governor).commit r c h
      now).2.1.intents.Live id i) :
    (⟨i.flow, i.flowGeneration⟩ = key ∧
      Supports (Governor.rebound (committedRecord r (stamped c h) h now)) i) ∨
    (⟨i.flow, i.flowGeneration⟩ ≠ key ∧ ∃ r' : FlowRecord,
      g.flows[(⟨i.flow, i.flowGeneration⟩ : FlowKey)]? = some r' ∧ Supports r' i) := by
  have hsound := hg.records key r hr
  have hflow : c.flow = key.flow := hcommits.flow.trans hsound.tracked.flow
  have hgeneration : c.flowGeneration = key.generation :=
    hcommits.flowGeneration.trans hsound.tracked.generation
  rcases live_of_live_commit hlive with ⟨hold, hkept⟩ | ⟨hs, hrun, hf, hfg, hgen, hcor⟩
  · obtain ⟨r', hr', hsup⟩ := hg.intents id i hold
    by_cases hkey : (⟨i.flow, i.flowGeneration⟩ : FlowKey) = key
    · refine .inl ⟨hkey, ?_⟩
      rw [hkey, hr] at hr'
      cases hr'
      have hf : i.flow = c.flow := by rw [hflow, ← hkey]
      have hfg : i.flowGeneration = c.flowGeneration := by rw [hgeneration, ← hkey]
      obtain ⟨hnsus, hgen⟩ := hkept hf hfg
      rw [hcommits.state] at hnsus
      have hpolicy := verdict_of_elephant hsup.classified hsup.state hsup.running hnsus
      have hgen' := hgen hpolicy
      obtain ⟨hst, hau⟩ := hcommits.unchanged_of_generation hsup.classified
        (hgen'.symm.trans hsup.generation.symm)
      refine ⟨by simp [committedRecord], ?_, ?_, ?_, ?_⟩
      · simpa [committedRecord, hst] using hsup.state
      · simpa [committedRecord] using hgen'.symm
      · intro hcor
        simpa [committedRecord, hau] using hsup.authority hcor
      · simpa [committedRecord] using hsup.running
    · exact .inr ⟨hkey, r', hr', hsup⟩
  · refine .inl ⟨?_, ?_⟩
    · rw [hf, hfg, hflow, hgeneration]
    · refine ⟨by simp [committedRecord], ?_, ?_, ?_, ?_⟩
      · simpa [committedRecord] using hs
      · simpa [committedRecord] using hgen.symm
      · intro hk
        simpa [committedRecord] using hcor hk
      · simpa [committedRecord] using hrun

theorem Justified.replace (hg : g.Justified) (hconfig : g'.config = g.config)
    (htick : g.lastTick ≤ g'.lastTick)
    (hflows : ∀ k, g'.flows[k]? = if key = k then some r' else g.flows[k]?)
    (hr' : Sound g.config g'.lastTick key r')
    (hintents : ∀ id i, g'.intents.Live id i →
      (⟨i.flow, i.flowGeneration⟩ = key ∧ Supports r' i) ∨
      (⟨i.flow, i.flowGeneration⟩ ≠ key ∧ ∃ r'' : FlowRecord,
        g.flows[(⟨i.flow, i.flowGeneration⟩ : FlowKey)]? = some r'' ∧ Supports r'' i)) :
    g'.Justified := by
  refine ⟨fun k x hx => ?_, fun id i hlive => ?_⟩
  · rw [hflows] at hx
    rw [hconfig]
    split_ifs at hx with hk
    · rw [← hk, ← Option.some.inj hx]
      exact hr'
    · exact (hg.records k x hx).later htick
  · rcases hintents id i hlive with ⟨hk, hsup⟩ | ⟨hk, r'', hr'', hsup⟩
    · exact ⟨r', by rw [hflows, if_pos hk.symm], hsup⟩
    · exact ⟨r'', by rw [hflows, if_neg (Ne.symm hk)]; exact hr'', hsup⟩

theorem Justified.intents_keep (hg : g.Justified) (hr : g.flows[key]? = some r)
    (hclassification : r'.classification = r.classification)
    (hhas : r'.hasClassification = r.hasClassification)
    (hcompleted : r'.ledger.completed = r.ledger.completed) {id : IntentId}
    (hlive : g.intents.Live id i) :
    (⟨i.flow, i.flowGeneration⟩ = key ∧ Supports r' i) ∨
      (⟨i.flow, i.flowGeneration⟩ ≠ key ∧ ∃ r'' : FlowRecord,
        g.flows[(⟨i.flow, i.flowGeneration⟩ : FlowKey)]? = some r'' ∧ Supports r'' i) := by
  obtain ⟨r'', hr'', hsup⟩ := hg.intents id i hlive
  by_cases hkey : (⟨i.flow, i.flowGeneration⟩ : FlowKey) = key
  · rw [hkey, hr] at hr''
    cases hr''
    refine .inl ⟨hkey, ⟨?_, ?_, ?_, ?_, ?_⟩⟩
    · rw [hhas]
      exact hsup.classified
    · rw [hclassification]
      exact hsup.state
    · rw [hclassification]
      exact hsup.generation
    · rw [hclassification]
      exact hsup.authority
    · rw [hcompleted]
      exact hsup.running
  · exact .inr ⟨hkey, r'', hr'', hsup⟩

theorem lastTick_le_advance (g : Governor) (now : Tick) :
    g.lastTick ≤ (g.advance now).lastTick ∧ now ≤ (g.advance now).lastTick := by
  unfold advance
  simp only
  split_ifs with h
  · exact ⟨UInt64.le_of_lt h, UInt64.le_refl _⟩
  · exact ⟨UInt64.le_refl _, UInt64.not_lt.mp h⟩

theorem getElem?_evaluateFlow (g : Governor) (key k : FlowKey) (r : FlowRecord) (now : Tick) :
    (g.evaluateFlow key r now).2.flows[k]? =
      if key = k then some (g.evaluate r now).2.2 else g.flows[k]? := by
  show ((g.evaluate r now).2.1.setFlow key (g.evaluate r now).2.2).flows[k]? = _
  rw [getElem?_setFlow, (sameInputs_evaluate g r now).flows]

theorem Justified.evaluate (hg : g.Justified) (hr : g.flows[key]? = some r) (now : Tick) :
    (g.evaluateFlow key r now).2.Justified := by
  have hsound := hg.records key r hr
  have hflows := fun k => getElem?_evaluateFlow g key k r now
  have hconfig : (g.evaluateFlow key r now).2.config = g.config :=
    (sameInputs_evaluate g r now).config
  rcases evaluate_cases g r now with ⟨e, sequence, counters, heq⟩ | ⟨-, -, heq⟩ | ⟨c, h, hc, heq⟩
  · -- refused: the record and the intents stand
    refine hg.replace hconfig ?_ hflows ?_ ?_
    · rw [evaluateFlow, heq]
      exact UInt64.le_refl _
    · rw [evaluateFlow, heq]
      exact hsound
    · intro id i hlive
      rw [evaluateFlow, heq] at hlive
      rw [heq]
      exact hg.intents_keep hr rfl rfl rfl hlive
  · -- kept: only the evaluation tick moves
    obtain ⟨hle, hnow⟩ := lastTick_le_advance g now
    refine hg.replace hconfig ?_ hflows ?_ ?_
    · rw [evaluateFlow, heq]
      exact hle
    · rw [evaluateFlow, heq]
      have hlater := hsound.later hle
      exact ⟨⟨hlater.tracked.flow, hlater.tracked.generation, hlater.tracked.limits,
        hlater.tracked.ledger, hlater.tracked.unclassified⟩, hlater.authority, hlater.latest,
        fun _ => hnow⟩
    · intro id i hlive
      rw [evaluateFlow, heq] at hlive
      rw [heq]
      refine hg.intents_keep hr ?_ ?_ ?_ hlive
      · rfl
      · rfl
      · rfl
  · -- committed
    obtain ⟨hle, hnow⟩ := lastTick_le_advance g now
    obtain ⟨index, aggregate, intents, counters, hgov⟩ := commit_governor
      { g with classificationSequence := g.classificationSequence + 1 } r c h now
    have htick : (g.evaluateFlow key r now).2.lastTick = (g.advance now).lastTick := by
      rw [evaluateFlow, heq]
      show (Governor.commit _ r c h now).2.1.lastTick = _
      rw [hgov]
      rfl
    refine hg.replace hconfig ?_ hflows ?_ ?_
    · rw [htick]
      exact hle
    · rw [htick, heq, commit_snd_snd]
      exact hsound.commit hc hnow
    · intro id i hlive
      rw [evaluateFlow, heq] at hlive
      rw [heq, commit_snd_snd]
      exact hg.intents_commit hr hc hlive

/-! ## The other moves -/

/-- Nothing but the records, the intents, the configuration and the clock counts, and intents may
only die. -/
theorem Justified.congr (hg : g.Justified) (hconfig : g'.config = g.config)
    (htick : g.lastTick ≤ g'.lastTick) (hflows : g'.flows = g.flows)
    (hintents : ∀ id i, g'.intents.Live id i → g.intents.Live id i) : g'.Justified := by
  refine ⟨fun k x hx => ?_, fun id i hlive => ?_⟩
  · rw [hflows] at hx
    rw [hconfig]
    exact (hg.records k x hx).later htick
  · rw [hflows]
    exact hg.intents id i (hintents id i hlive)

/-- A record with another ledger of its flow is as sound as before. -/
theorem Sound.withLedger (h : Sound config lastTick key r) (hclassification :
    r'.classification = r.classification) (hhas : r'.hasClassification = r.hasClassification)
    (hhist : r'.history = r.history) (htick : r'.evaluatedTick = r.evaluatedTick)
    (htracked : Tracked config key r') : Sound config lastTick key r' :=
  h.congr htracked (by rw [hclassification]) (by rw [hclassification]) hhas hhist htick

/-- Every Elephant of a justified governor can be withdrawn. -/
theorem Justified.withdrawable (hg : g.Justified) (hnow : g.lastTick ≤ now) (reason : ReasonCode) :
    Withdrawable now reason g := by
  intro k x hx hel
  simp only [FlowRecord.isElephant, Bool.and_eq_true, decide_eq_true_eq] at hel
  obtain ⟨t, ht, hto, hat⟩ := (hg.records k x hx).latest hel.1
  refine ⟨_, ClassificationHistory.record_of_continues fun last hlast => ?_⟩
  rw [ht] at hlast
  cases hlast
  rw [hel.2] at hto
  exact ⟨UInt64.le_trans (hat hto) hnow, hto.symm⟩

/-- The records stay sound while authority is withdrawn. -/
theorem keeps_sound (c : GovernorConfig) (t now : Tick) (reason : ReasonCode) (k : FlowKey) :
    Fallible.Keeps (fun x : Governor => x.config = c ∧ x.lastTick = t ∧
      ∀ (key : FlowKey) (r : FlowRecord), x.flows[key]? = some r → Sound c t key r)
      (invalidateFlow now reason k) := by
  apply keeps_invalidateFlow
  · rintro x key r ⟨hconfig, htick, hx⟩ hr hc hs
    refine ⟨hconfig, htick, fun k' r' hr' => ?_⟩
    rw [getElem?_setFlow] at hr'
    split_ifs at hr' with hk
    · rw [← hk, ← Option.some.inj hr']
      have hsound := hx key r hr
      refine hsound.congr ?_ rfl rfl rfl rfl rfl
      exact ⟨hsound.tracked.flow, hsound.tracked.generation, hsound.tracked.limits,
        hsound.tracked.ledger, fun hno => absurd (hno.symm.trans hc) (by simp)⟩
    · exact hx k' r' hr'
  · rintro x key r h ⟨hconfig, htick, hx⟩ hr hel hh
    obtain ⟨index, aggregate, counters, heq⟩ := withdrawn_eq x reason key r h
    refine ⟨by rw [heq]; exact hconfig, by rw [heq]; exact htick, fun k' r' hr' => ?_⟩
    rw [getElem?_withdrawn] at hr'
    split_ifs at hr' with hk
    · rw [← hk, ← Option.some.inj hr']
      have hsound := hx key r hr
      have hc : r.hasClassification = true := by
        simp only [FlowRecord.isElephant, Bool.and_eq_true] at hel
        exact hel.1
      apply Sound.rebound
      refine ⟨⟨hsound.tracked.flow, hsound.tracked.generation, hsound.tracked.limits,
        hsound.tracked.ledger, fun hno => absurd (hno.symm.trans hc) (by simp)⟩, fun _ => rfl, ?_,
        fun _ => hsound.evaluated hc⟩
      intro _
      obtain ⟨hpush, -⟩ := ClassificationHistory.record_eq_ok hh
      refine ⟨withdrawal now reason r, ?_, rfl, fun hne => by cases hne⟩
      show h.latest = _
      rw [hpush, ClassificationHistory.latest_push]
    · exact hx k' r' hr'

theorem Justified.invalidate (hg : g.Justified) (hnow : g.lastTick ≤ now) (reason : ReasonCode) :
    (g.invalidateAllAuthority now reason).2.Justified := by
  obtain ⟨g₁, counters, hloop, -, heq⟩ := invalidateAllAuthority_eq (hg.withdrawable hnow reason)
  have hkeep := Fallible.Keeps.forEach (fun k (_ : k ∈ g.flows.keys) =>
    keeps_sound g.config g.lastTick now reason k) g ⟨rfl, rfl, hg.records⟩
  rw [hloop] at hkeep
  obtain ⟨hconfig, htick, hrecords⟩ := hkeep
  rw [heq]
  refine ⟨fun k x hx => ?_, fun id i hlive => absurd hlive (IntentLedger.live_revokeAll rfl)⟩
  show Sound g₁.config g₁.lastTick k x
  rw [hconfig, htick]
  exact hrecords k x hx

/-- A completed flow that is retired has no live intent. -/
theorem Justified.evict (hg : g.Justified) (hr : g.flows[key]? = some r)
    (hdone : r.ledger.completed = true) : (g.dropFlow key r).Justified := by
  have hinputs := sameInputs_updateIndex g key r
  have hflows : (g.dropFlow key r).flows = g.flows.erase key := by
    show (g.updateIndex key r).1.flows.erase key = _
    rw [hinputs.flows]
  refine ⟨fun k x hx => ?_, fun id i hlive => ?_⟩
  · rw [hflows, ExtTreeMap.getElem?_erase] at hx
    split_ifs at hx
    show Sound (g.updateIndex key r).1.config (g.updateIndex key r).1.lastTick k x
    rw [hinputs.config, updateIndex_lastTick]
    exact hg.records k x hx
  · have hold : g.intents.Live id i := by
      have hintents : (g.dropFlow key r).intents = g.intents := updateIndex_intents g key r
      rw [← hintents]
      exact hlive
    obtain ⟨r', hr', hsup⟩ := hg.intents id i hold
    refine ⟨r', ?_, hsup⟩
    rw [hflows, ExtTreeMap.getElem?_erase, if_neg ?_]
    · exact hr'
    · intro hk
      rw [← LawfulEqOrd.eq_of_compare hk, hr] at hr'
      cases hr'
      have hrun := hsup.running
      rw [hdone] at hrun
      cases hrun

theorem getElem?_createFlow {k : FlowKey} (hnew : g.flows[k]? = none) (key : FlowKey) :
    (g.createFlow k).flows[key]? = if k = key then some (g.freshRecord k) else g.flows[key]? := by
  show (g.flows.insertIfNew k (g.freshRecord k))[key]? = _
  rw [ExtTreeMap.getElem?_insertIfNew]
  by_cases hk : k = key
  · subst hk
    have hnot : k ∉ g.flows := by
      rw [← ExtTreeMap.isSome_getElem?_iff_mem, hnew]
      simp
    rw [if_pos ⟨ReflCmp.compare_self, hnot⟩, if_pos rfl]
  · rw [if_neg fun hc => hk (LawfulEqOrd.eq_of_compare hc.1), if_neg hk]

theorem Justified.create (hg : g.Justified) (hnew : g.flows[key]? = none) :
    (g.createFlow key).Justified := by
  refine hg.replace rfl (UInt64.le_refl _) (getElem?_createFlow hnew) (sound_freshRecord g key)
    fun id i hlive => ?_
  obtain ⟨r', hr', hsup⟩ := hg.intents id i hlive
  refine .inr ⟨fun hk => ?_, r', hr', hsup⟩
  rw [hk, hnew] at hr'
  cases hr'

theorem Restored.justified (h : Restored g g' now) : g'.Justified := by
  refine ⟨fun k x hx => ?_, fun id i hlive => absurd hlive (h.idle id i)⟩
  obtain ⟨htracked, hdemoted, -⟩ := h.records k x hx
  rw [h.config]
  refine ⟨htracked, fun _ => ?_, fun hc => ?_, fun hc => ?_⟩
  · by_cases hc : x.hasClassification = true
    · exact hdemoted.authority hc
    · rw [htracked.unclassified (by simpa using hc)]
  · obtain ⟨t, ht, hto⟩ := hdemoted.latest hc
    refine ⟨t, ht, hto.trans (hdemoted.state hc).symm, fun hel => ?_⟩
    rw [hto] at hel
    cases hel
  · rw [hdemoted.evaluatedTick hc]
    exact h.lastTick

theorem Justified.move {e : Event} (hg : g.Justified) (hmove : Move g e g') : g'.Justified := by
  cases hmove with
  | inputs => exact hg.congr rfl (UInt64.le_refl _) rfl fun _ _ h => h
  | advance now => exact hg.congr rfl (lastTick_le_advance g now).1 rfl fun _ _ h => h
  | policy => exact hg.congr rfl (UInt64.le_refl _) rfl fun _ _ h => h
  | invalidate now hnow => exact hg.invalidate hnow _
  | evict key record hvictim =>
    obtain ⟨hr, hdone⟩ := victim_spec hvictim
    exact hg.evict hr hdone
  | create key hnew => exact hg.create hnew
  | retire select state update hdead =>
    exact hg.congr rfl (UInt64.le_refl _) rfl fun _ _ h =>
      IntentLedger.live_of_live_updateLive hdead h
  | evidence record s hrecord =>
    have hsound := hg.records _ record hrecord
    refine hg.replace rfl (UInt64.le_refl _) (fun k => getElem?_setFlow g _ k _) ?_ fun id i hlive => ?_
    · exact hsound.withLedger rfl rfl rfl rfl (hsound.tracked.append s)
    · refine hg.intents_keep hrecord ?_ ?_ ?_ hlive
      · rfl
      · rfl
      · exact (FlowLedger.append_frame record.ledger s).2.2.2.1
  | complete key record ledger atTick hrecord hledger hidle =>
    have hsound := hg.records _ record hrecord
    refine hg.replace rfl (UInt64.le_refl _) (fun k => getElem?_setFlow g _ k _) ?_ fun id i hlive => ?_
    · have htracked := hsound.tracked.markCompleted hledger
      refine hsound.withLedger rfl rfl rfl rfl ?_
      exact ⟨htracked.flow, htracked.generation, htracked.limits, htracked.ledger,
        htracked.unclassified⟩
    · -- the completed flow has no live intent left
      obtain ⟨r', hr', hsup⟩ := hg.intents id i hlive
      refine .inr ⟨fun hk => ?_, r', hr', hsup⟩
      apply hidle id i hlive
      rw [← hk]
      exact ⟨rfl, rfl⟩
  | evaluate key record now hrecord => exact hg.evaluate hrecord now
  | reset =>
    refine ⟨fun k x hx => ?_, fun id i hlive => ?_⟩
    · exact of_getElem?_empty hx
    · exact of_getElem?_empty hlive.1
  | restore bytes now hok => exact (deserialize_spec hok).justified

theorem justified_make (config : GovernorConfig) : (make config).Justified := by
  refine ⟨fun k x hx => ?_, fun id i hlive => ?_⟩
  · exact of_getElem?_empty hx
  · exact of_getElem?_empty hlive.1

theorem Reachable.justified (h : Reachable config g) : g.Justified :=
  h.invariant (justified_make config) fun _ _ _ hg hmove => hg.move hmove

/-- A tracked record in the elephant state is classified. -/
theorem Reachable.isElephant_of_state {r : FlowRecord} (h : Reachable config g)
    (hr : g.flows[key]? = some r) (hstate : r.classification.state = .elephant) :
    r.isElephant = true := by
  by_contra hno
  have hc : r.hasClassification = false := by
    simpa [FlowRecord.isElephant, hstate] using hno
  rw [(h.justified.records key r hr).tracked.unclassified hc] at hstate
  cases hstate

/-! ## Every state of a run -/

/-- In every state that a run reaches, a live intent belongs to a tracked record that is an Elephant,
carries the classification generation of the intent and grants what a corrective intent needs, and a
record that is not an Elephant has no authority. -/
theorem live_intent_justified {config : GovernorConfig} (h : Reachable config g) :
    (∀ (id : IntentId) (i : GovernanceIntent), g.intents.intents[id]? = some i →
      isLive i.state = true → ∃ r : FlowRecord,
        g.flows[(⟨i.flow, i.flowGeneration⟩ : FlowKey)]? = some r ∧ r.hasClassification = true ∧
          r.classification.state = .elephant ∧
          r.classification.generation = i.classificationGeneration ∧
          (isCorrective i.kind = true → r.classification.authority = .govern)) ∧
    ∀ (key : FlowKey) (r : FlowRecord), g.flows[key]? = some r →
      r.classification.state ≠ .elephant → r.classification.authority = .none := by
  have hg := h.justified
  refine ⟨fun id i hi hlive => ?_, fun key r hr => (hg.records key r hr).authority⟩
  obtain ⟨r, hr, hsup⟩ := hg.intents id i ⟨hi, hlive⟩
  exact ⟨r, hr, hsup.classified, hsup.state, hsup.generation, hsup.authority⟩

open Scenario

/-- The Elephant of the small run justifies its live intent. -/
theorem live_intent_justified_scenario : ∃ (i : GovernanceIntent) (r : FlowRecord),
    isLive i.state = true ∧
    governor.flows[(⟨i.flow, i.flowGeneration⟩ : FlowKey)]? = some r ∧
    r.classification.state = .elephant := by
  obtain ⟨i, hi, hlive⟩ : ∃ i, governor.intents.intents[(⟨1⟩ : IntentId)]? = some i ∧
    isLive i.state = true := by decide +kernel
  obtain ⟨r, hr, -, hstate, -⟩ :=
    (live_intent_justified reachable_governor).1 ⟨1⟩ i hi hlive
  exact ⟨i, r, hlive, hr, hstate⟩

end Governor

end EFG
