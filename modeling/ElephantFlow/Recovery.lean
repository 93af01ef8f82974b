/-
# What a recovery leaves in the governor

A snapshot that is refused behind its header has already overwritten the
governor (`refused_restore_untouched_iff`).  The journal is replayed through the
ordinary operations, so a replayed sample may promote its flow.  The governor is
`Quiet` (no Elephant, no authority, no live intent) all along a recovery exactly
if the snapshot was not given up half-way with authority in it and no replayed
sample `Qualifies`.
-/
import ElephantFlow.DurableRuns

namespace EFG

open ByteCodec Fallible

namespace Governor

/-! ## Refused snapshots -/

/-- The governor has the policy, the tables, the flows, the index and the intents it had. -/
def Untouched (g g' : Governor) : Prop := SameSurface g g' ∧ g'.bindingIndex = g.bindingIndex

theorem restoreBody_withPolicy (g : Governor) (policy : Option PolicyDocument) (now : Tick)
    (h : SnapshotHeader) (rest : Bytes) :
    restoreBody now h ({ g with policy := policy }, rest) = restoreBody now h (g, rest) := rfl

/-- A refused restore leaves every governor of the incarnation untouched, whatever policy it holds,
exactly if the refusal came from the header.  The snapshot step of an open then goes on with the
governor it started with. -/
theorem refused_restore_untouched_iff {g : Governor} {bytes : Bytes} {now : Tick} {e : Status}
    (hrefused : (g.deserialize bytes now).1 = .error e) :
    ((∀ policy e', (({ g with policy := policy } : Governor).deserialize bytes now).1 = .error e' →
        Untouched { g with policy := policy }
          (({ g with policy := policy } : Governor).deserialize bytes now).2) ↔
      ∃ e', readHeader g.boot bytes = .error e') ∧
    ∀ file maxBytes report s, readSnapshot file maxBytes = .ok bytes →
      DurableGovernor.recoverSnapshot (some file) maxBytes now g report = .ok s →
      (∃ e', readHeader g.boot bytes = .error e') → s.1 = g := by
  refine ⟨⟨fun hall => ?_, ?_⟩, ?_⟩
  · by_contra hno
    rcases hheader : readHeader g.boot bytes with e' | ⟨h, rest⟩
    · exact hno ⟨e', hheader⟩
    -- neither the refusal nor the policy that is left depends on the policy that was there
    have hleft : ∀ policy, ({ g with policy := policy } : Governor).deserialize bytes now =
        ((restoreBody now h (g, rest)).1, (restoreBody now h (g, rest)).2.1) := by
      intro policy
      unfold deserialize
      simp only [hheader]
      rw [restoreBody_withPolicy]
    have hbody : (restoreBody now h (g, rest)).1 = .error e := by
      unfold deserialize at hrefused
      rw [hheader] at hrefused
      exact hrefused
    rcases hresult : (restoreBody now h (g, rest)).2.1.policy with _ | p
    · have hsame := (hall (some default) e (by rw [hleft, hbody])).1.policy
      rw [hleft, hresult] at hsame
      cases hsame
    · have hsame := (hall none e (by rw [hleft, hbody])).1.policy
      rw [hleft, hresult] at hsame
      cases hsame
  · rintro ⟨e', hheader⟩ policy _ -
    rw [deserialize_of_header (g := { g with policy := policy }) hheader]
    exact ⟨SameSurface.refl _, rfl⟩
  · rintro file maxBytes report s hread hrecover ⟨e', hheader⟩
    rcases DurableGovernor.recoverSnapshot_cases hrecover with ⟨-, heq⟩ | ⟨file', payload, hf, hread', heq, -⟩
    · exact heq
    · cases hf
      rw [hread] at hread'
      cases hread'
      rw [heq, deserialize_of_header hheader]

open Scenario

/-- A snapshot that ends behind its header is refused, but the policy is gone. -/
theorem refused_restore_touched : ∃ e,
    ((governor.setIncarnation reboot).deserialize
      ((make {}).setIncarnation Scenario.boot).encodeHeader.flatten 20).1 = .error e ∧
    ¬ Untouched (governor.setIncarnation reboot)
      ((governor.setIncarnation reboot).deserialize
        ((make {}).setIncarnation Scenario.boot).encodeHeader.flatten 20).2 := by
  refine ⟨⟨.truncated, "capacity count is truncated"⟩, by decide +kernel, fun h => ?_⟩
  have hbefore : (governor.setIncarnation reboot).policy.isSome = true := by
    decide +kernel
  have hafter : ((governor.setIncarnation reboot).deserialize
      ((make {}).setIncarnation Scenario.boot).encodeHeader.flatten 20).2.policy.isSome = false := by
    decide +kernel
  rw [h.1.policy, hbefore] at hafter
  cases hafter

/-- The whole snapshot of a governor is refused by its own incarnation, in the header. -/
theorem refused_restore_untouched_own :
    Untouched governor (governor.deserialize
      (Scenario.governor.encodeHeader ++ Scenario.governor.encodeBody).flatten 20).2 := by
  have hheader : readHeader governor.boot (Scenario.governor.encodeHeader ++ Scenario.governor.encodeBody).flatten =
      .error ⟨.conflict, "restoring state requires a boot identity distinct from the stored one"⟩ := by
    decide +kernel
  have hrefused := congrArg Prod.fst (deserialize_of_header hheader 20)
  exact (refused_restore_untouched_iff hrefused).1.mpr ⟨_, hheader⟩ _ _ hrefused

/-! ## Governors without authority -/

/-- The record is not an Elephant and has no authority. -/
def QuietRecord (r : FlowRecord) : Prop :=
  r.hasClassification = true → r.classification.state ≠ .elephant ∧ r.classification.authority = .none

/-- No Elephant, no authority and no live intent. -/
structure Quiet (g : Governor) : Prop where
  records : ∀ (key : FlowKey) (r : FlowRecord), g.flows[key]? = some r → QuietRecord r
  idle : ∀ id i, ¬ g.intents.Live id i

variable {g : Governor} {key : FlowKey} {record : FlowRecord} {now : Tick}

theorem Quiet.congr {g' : Governor} (h : g.Quiet) (hflows : g'.flows = g.flows)
    (hidle : ∀ id i, g'.intents.Live id i → g.intents.Live id i) : g'.Quiet := by
  refine ⟨fun key r hr => ?_, fun id i hlive => h.idle id i (hidle id i hlive)⟩
  rw [hflows] at hr
  exact h.records key r hr

theorem Quiet.setFlow (h : g.Quiet) (hr : QuietRecord record) : (g.setFlow key record).Quiet := by
  refine ⟨fun k r hk => ?_, h.idle⟩
  rw [getElem?_setFlow] at hk
  by_cases hkey : key = k
  · rw [if_pos hkey] at hk
    rw [← Option.some.inj hk]
    exact hr
  · rw [if_neg hkey] at hk
    exact h.records k r hk

/-- An evaluation that does not commit an Elephant gives no authority. -/
theorem Quiet.evaluateFlow (h : g.Quiet) (key : FlowKey) (hr : QuietRecord record)
    (hno : ∀ c hist, g.Commits record now c hist → c.state ≠ .elephant) :
    (g.evaluateFlow key record now).2.Quiet := by
  show ((g.evaluate record now).2.1.setFlow key (g.evaluate record now).2.2).Quiet
  rcases evaluate_cases g record now with ⟨e, sequence, counters, heq⟩ | ⟨-, -, heq⟩ |
    ⟨c, hist, hcommits, heq⟩
  · rw [heq]
    refine Quiet.setFlow ?_ hr
    exact h.congr rfl fun _ _ hlive => hlive
  · rw [heq]
    refine Quiet.setFlow ?_ hr
    exact h.congr rfl fun _ _ hlive => hlive
  · rw [heq, commit_snd_snd]
    have hflows : (({ g with classificationSequence := g.classificationSequence + 1 } :
        Governor).commit record c hist now).2.1.flows = g.flows := by
      obtain ⟨_, _, _, _, hc⟩ := commit_governor
        { g with classificationSequence := g.classificationSequence + 1 } record c hist now
      rw [hc]
    have hstate := hno c hist hcommits
    refine Quiet.setFlow (h.congr hflows fun id i hlive => ?_) fun _ => ?_
    · rcases live_of_live_commit hlive with ⟨hold, -⟩ | ⟨hel, -⟩
      · exact hold
      · exact absurd hel hstate
    · rw [rebound_classification]
      refine ⟨hstate, ?_⟩
      show c.authority = .none
      rw [hcommits.authority]
      exact candidate_authority g record now (hcommits.state ▸ hstate)

/-- The withdrawal of all authority adds none. -/
theorem Quiet.invalidateAllAuthority (h : g.Quiet) (now : Tick) (reason : ReasonCode) :
    (g.invalidateAllAuthority now reason).2.Quiet := by
  refine invalidateAllAuthority_keeps (P := Quiet) (fun key => ?_) (fun x _ hx => ?_) h
  · apply keeps_invalidateFlow
    · intro x k r hx hr hc _
      exact hx.setFlow (hx.records k r hr)
    · intro x k r hist hx _ _ _
      obtain ⟨index, aggregate, counters, heq⟩ := withdrawn_eq x reason k r hist
      have hset : x.withdrawn reason k r hist = ({ x with
          bindingIndex := index, resourceAggregate := aggregate, counters := counters } :
          Governor).setFlow k (rebound (suspendedRecord reason r hist)) := heq
      rw [hset]
      refine Quiet.setFlow (hx.congr rfl fun _ _ hlive => hlive) fun _ => ?_
      rw [rebound_classification]
      exact ⟨by simp [suspendedRecord], rfl⟩
  · exact hx.congr rfl fun id i hlive => absurd hlive (IntentLedger.live_revokeAll rfl)

theorem Quiet.submitPolicy (h : g.Quiet) (p : PolicyDocument) : (g.submitPolicy p).2.Quiet := by
  rcases submitPolicy_cases g p with ⟨-, e, f, heq⟩ | ⟨-, -, rules, counters, heq⟩ |
    ⟨-, -, rules, counters, heq⟩
  · rw [heq]
    exact h.congr rfl fun _ _ hlive => hlive
  · rw [heq]
    exact h.congr rfl fun _ _ hlive => hlive
  · rw [heq]
    refine Quiet.invalidateAllAuthority ?_ _ _
    exact h.congr rfl fun _ _ hlive => hlive

theorem Quiet.submitCapacity (h : g.Quiet) (c : ResourceCapacity) :
    (g.submitCapacity c).2.Quiet := by
  rcases submitCapacity_cases g c with ⟨e, counters, heq⟩ | ⟨table, counters, -, heq⟩
  · rw [heq]
    exact h.congr rfl fun _ _ hlive => hlive
  · rw [heq]
    exact h.congr rfl fun _ _ hlive => hlive

theorem Quiet.submitPath (h : g.Quiet) (p : PathDescriptor) : (g.submitPath p).2.Quiet := by
  rcases submitPath_cases g p with ⟨e, counters, heq⟩ | ⟨table, counters, -, heq⟩
  · rw [heq]
    exact h.congr rfl fun _ _ hlive => hlive
  · rw [heq]
    exact h.congr rfl fun _ _ hlive => hlive

theorem Quiet.dropFlow (h : g.Quiet) (key : FlowKey) (r : FlowRecord) : (g.dropFlow key r).Quiet := by
  have hinputs := sameInputs_updateIndex g key r
  obtain ⟨index, aggregate, hfst⟩ := updateIndex_fst g key r
  refine ⟨fun k' r' hr' => ?_, fun id i hlive => h.idle id i ?_⟩
  · have hr'' : ((g.updateIndex key r).1.flows.erase key)[k']? = some r' := hr'
    rw [hinputs.flows, Std.ExtTreeMap.getElem?_erase] at hr''
    split_ifs at hr''
    exact h.records k' r' hr''
  · have hlive' : (g.updateIndex key r).1.intents.Live id i := hlive
    rw [hfst] at hlive'
    exact hlive'

/-- A new record is not classified. -/
theorem Quiet.createFlow (h : g.Quiet) (key : FlowKey) : (g.createFlow key).Quiet := by
  refine ⟨fun k r hr => ?_, h.idle⟩
  have hr' : (g.flows.insertIfNew key (g.freshRecord key))[k]? = some r := hr
  rw [Std.ExtTreeMap.getElem?_insertIfNew] at hr'
  split_ifs at hr'
  · rw [← Option.some.inj hr']
    intro hc
    cases hc
  · exact h.records k r hr'

/-- A quiet governor stays quiet as long as no evaluation commits an Elephant. -/
theorem stepwise_quiet :
    Stepwise Quiet fun x r now => ∀ c hist, x.Commits r now c hist → c.state ≠ .elephant where
  counters := fun _ _ h => h.congr rfl fun _ _ hlive => hlive
  evict := fun _ key r _ h => h.dropFlow key r
  create := fun _ key h => h.createFlow key
  retire := fun _ _ _ _ hdead h => h.congr rfl fun _ _ hlive =>
    ((IntentLedger.live_updateLive hdead).mp hlive).1
  ledger := fun _ key r _ hr h => h.setFlow (h.records key r hr)
  evaluate := fun _ key r _ _ _ hr hv h => h.evaluateFlow key (h.records key r hr) hv

/-- The sample makes its flow an Elephant when it is submitted: there is a policy, the sample is valid,
its flow is tracked or finds room, the ledger takes the sample, and the evaluation at its tick is not
refused and commits an Elephant. -/
def Qualifies (g : Governor) (s : FlowSample) : Prop :=
  g.policy ≠ none ∧ s.validate = .ok () ∧ ∃ g' record outcome ledger c hist,
    g.openFlow (sampleKey s) = (.ok (), g') ∧ g'.flows[sampleKey s]? = some record ∧
    record.ledger.append s = (.ok outcome, ledger) ∧
    g'.Commits { record with ledger := ledger } (decisionTick s) c hist ∧ c.state = .elephant

theorem Quiet.submitEvidence (h : g.Quiet) {s : FlowSample} (hs : ¬ g.Qualifies s) :
    (g.submitEvidence s).2.Quiet := by
  apply stepwise_quiet.submitEvidence h
  intro g' record outcome ledger counters hpolicy hvalid hopen hr happend c hist hc hel
  -- the counters are not read by an evaluation
  have hc' : g'.Commits { record with ledger := ledger } (decisionTick s) c hist :=
    ⟨hc.notStale, hc.changed, hc.room, hc.identity, hc.generation, hc.recorded⟩
  exact hs ⟨hpolicy, hvalid, g', record, outcome, ledger, c, hist, hopen, hr, happend, hc', hel⟩

theorem Quiet.completeFlow (h : g.Quiet) (flow : FlowId) (generation : Generation) (atTick : Tick) :
    (g.completeFlow flow generation atTick).2.Quiet := by
  apply stepwise_quiet.completeFlow h
  intro record ledger _ _ hm c hist hc
  have hdone : ledger.completed = true := by
    rw [FlowLedger.markCompleted_eq_ok hm]
  rw [hc.state]
  unfold verdict
  simp [hdone]

/-- A quiet record is swept because it is suspended, and stays suspended. -/
theorem verdict_of_sweeps (hr : QuietRecord record) (hsweeps : g.sweeps record now = true) :
    (g.verdict record now).state ≠ .elephant := by
  have hsuspended : (g.suspensionReasons record now).1 = true := by
    unfold sweeps FlowRecord.isElephant at hsweeps
    simp only [Bool.and_eq_true, Bool.or_eq_true, decide_eq_true_eq] at hsweeps
    rcases hsweeps.2 with ⟨hc, hel⟩ | hs
    · exact absurd hel (hr hc).1
    · exact hs
  rcases verdict_cases g record now with ⟨-, heq⟩ | ⟨-, -, heq⟩ | ⟨-, hno, -⟩
  · rw [heq]
    decide
  · rw [heq]
    simp only
    split_ifs
    · decide
    · decide
  · rw [hsuspended] at hno
    cases hno

/-- A sweep over a quiet governor suspends and never promotes. -/
theorem Quiet.tick (h : g.Quiet) (now : Tick) : (g.tick now).2.Quiet := by
  unfold Governor.tick
  split_ifs
  · exact h.congr rfl fun _ _ hlive => hlive
  · exact h.congr rfl fun _ _ hlive => hlive
  rcases g.tickGuard.observe now with e | guard
  · exact h.congr rfl fun _ _ hlive => hlive
  · have hbegin : (g.beginSweep guard now).2.Quiet :=
      h.congr rfl fun id i hlive => ((IntentLedger.live_updateLive rfl).mp hlive).1
    have hsweep := stepwise_quiet.sweepLoop now
      (fun x key r hx hr hsweeps c hist hc =>
        hc.state ▸ verdict_of_sweeps (hx.records key r hr) hsweeps)
      g.flows.keys _ hbegin
    exact hsweep.congr rfl fun _ _ hlive => hlive

end Governor

/-! ## Recovery without authority -/

namespace DurableGovernor

open Governor

variable {rs : List JournalRecord} {s : Recovery}

open Scenario

end DurableGovernor

end EFG
