/-
# A sweep only withdraws

`Governor::tick` runs the same evaluation that grants authority on evidence.  The
guard of its loop lets a flow that is no Elephant through only when it is
suspended, and then the evaluation cannot make it one.  One iteration therefore
leaves no new Elephant, and issues intents only for a flow that was an Elephant and
still is one (`Withheld.step`); the later iterations do not touch that flow.
-/
import ElephantFlow.Sweep
import ElephantFlow.Issuance

namespace EFG

namespace Governor

variable {g g' g₀ : Governor} {record r : FlowRecord} {now : Tick} {key : FlowKey}
  {pending : List FlowKey}

/-! ## One evaluation -/

theorem not_suspended_of_granted (hbefore : record.isElephant = false)
    (hafter : (g.evaluate record now).2.2.isElephant = true) :
    (g.suspensionReasons record now).1 = false := by
  rcases evaluate_cases g record now with ⟨e, sequence, counters, heq⟩ | ⟨-, -, heq⟩ | ⟨c, h, hc, heq⟩
  · rw [heq, hbefore] at hafter
    cases hafter
  · -- an idempotent answer keeps the classification
    rw [heq] at hafter
    have hsame : record.isElephant = true := hafter
    rw [hbefore] at hsame
    cases hsame
  · rw [heq, commit_snd_snd] at hafter
    have hstate : c.state = .elephant := by
      simpa [FlowRecord.isElephant, committedRecord] using hafter
    rw [hc.state] at hstate
    exact (of_verdict_elephant hstate).2.1

theorem isElephant_of_sweeps (hsweeps : g.sweeps record now = true)
    (hafter : (g.evaluate record now).2.2.isElephant = true) : record.isElephant = true := by
  by_contra hno
  rw [Bool.not_eq_true] at hno
  have hsus := not_suspended_of_granted hno hafter
  rw [sweeps, hno, hsus] at hsweeps
  simp at hsweeps

/-! ## The loop -/

/-- The state of the sweep loop: the flows it has not visited are as before, every Elephant was one
before the sweep, and every intent added so far names a visited Elephant. -/
structure Withheld (g₀ : Governor) (pending : List FlowKey) (g : Governor) : Prop where
  untouched : ∀ k ∈ pending, g.flows[k]? = g₀.flows[k]?
  elephants : ∀ (k : FlowKey) (r : FlowRecord), g.flows[k]? = some r → r.isElephant = true →
    ∃ r₀ : FlowRecord, g₀.flows[k]? = some r₀ ∧ r₀.isElephant = true
  keys : ∀ (k : FlowKey) (r : FlowRecord), g.flows[k]? = some r → r.key = k
  issued : ∀ (id : IntentId) (i : GovernanceIntent), id ∉ g₀.intents.intents →
    g.intents.intents[id]? = some i → (⟨i.flow, i.flowGeneration⟩ : FlowKey) ∉ pending ∧
      ∃ r : FlowRecord, g.flows[(⟨i.flow, i.flowGeneration⟩ : FlowKey)]? = some r ∧
        r.isElephant = true

/-- Skipping a flow. -/
theorem Withheld.skip (h : Withheld g₀ (key :: pending) g) :
    Withheld g₀ pending g where
  untouched := fun k hk => h.untouched k (List.mem_cons_of_mem _ hk)
  elephants := h.elephants
  keys := h.keys
  issued := fun id i hnew hi =>
    ⟨fun hk => (h.issued id i hnew hi).1 (List.mem_cons_of_mem _ hk), (h.issued id i hnew hi).2⟩

theorem evaluate_key (g : Governor) (record : FlowRecord) (now : Tick) :
    (g.evaluate record now).2.2.key = record.key := by
  unfold FlowRecord.key
  rw [evaluate_ledger]

theorem Withheld.evaluate (h : Withheld g₀ (key :: pending) g) (hkey : key ∉ pending)
    (hr : g.flows[key]? = some record) (hsweeps : g.sweeps record now = true) :
    Withheld g₀ pending (g.evaluateFlow key record now).2 := by
  have hbefore : g₀.flows[key]? = some record := by
    rw [← h.untouched key List.mem_cons_self]
    exact hr
  have hrecord : record.key = key := h.keys key record hr
  refine ⟨fun k hk => ?_, fun k r hk hel => ?_, fun k r hk => ?_, fun id i hnew hi => ?_⟩
  · have hne : key ≠ k := fun heq => hkey (heq ▸ hk)
    rw [getElem?_evaluateFlow, if_neg hne]
    exact h.untouched k (List.mem_cons_of_mem _ hk)
  · rw [getElem?_evaluateFlow] at hk
    split_ifs at hk with heq
    · subst heq
      rw [← Option.some.inj hk] at hel
      exact ⟨record, hbefore, isElephant_of_sweeps hsweeps hel⟩
    · exact h.elephants k r hk hel
  · rw [getElem?_evaluateFlow] at hk
    split_ifs at hk with heq
    · rw [← Option.some.inj hk, evaluate_key, hrecord]
      exact heq
    · exact h.keys k r hk
  · rw [getElem?_evaluateFlow]
    have hi' : (g.evaluate record now).2.1.intents.intents[id]? = some i := hi
    rcases stored_of_stored_evaluate hi' with
      ⟨j, hj, hflow, hgeneration, -⟩ | hissued
    · -- the entry was added by an earlier iteration and still names the same flow
      obtain ⟨hdone, r, hr', hel⟩ := h.issued id j hnew hj
      rw [hflow, hgeneration]
      have hne : ¬ key = ⟨j.flow, j.flowGeneration⟩ := by
        intro heq
        exact hdone (heq ▸ List.mem_cons_self)
      rw [if_neg hne]
      exact ⟨fun hk => hdone (List.mem_cons_of_mem _ hk), r, hr', hel⟩
    · have hnames := hissued.names
      have hthis : key = ⟨i.flow, i.flowGeneration⟩ := by
        rw [hnames.1, hnames.2]
        exact hrecord.symm
      rw [if_pos hthis, ← hthis]
      exact ⟨hkey, _, rfl, hissued.isElephant⟩

/-- One iteration of the sweep loop. -/
theorem Withheld.step {batch : DecisionBatch} (h : Withheld g₀ (key :: pending) g)
    (hkey : key ∉ pending) :
    Withheld g₀ pending (sweepFlow now key (batch, g)).2 := by
  unfold sweepFlow
  simp only
  rcases hr : g.flows[key]? with _ | record
  · exact h.skip
  simp only
  by_cases hsweeps : g.sweeps record now = true
  · rw [if_pos hsweeps]
    have hstep := h.evaluate hkey hr hsweeps
    rcases hd : g.evaluateFlow key record now with ⟨e | d, g'⟩
    · rw [hd] at hstep
      exact hstep
    · rw [hd] at hstep
      exact hstep
  · rw [if_neg hsweeps]
    exact h.skip

theorem Withheld.loop (acc : DecisionBatch × Governor) (h : Withheld g₀ pending acc.2)
    (hnodup : pending.Nodup) :
    Withheld g₀ [] (sweepLoop now pending acc).2 := by
  induction pending generalizing acc with
  | nil => exact h
  | cons key pending ih =>
    obtain ⟨hkey, hnodup⟩ := List.nodup_cons.mp hnodup
    exact ih _ (Withheld.step h hkey) hnodup

/-! ## Ticks -/

/-- A refused sweep counts a refusal and does nothing else. -/
theorem tick_eq_error {e : Status} (h : (g.tick now).1 = .error e) :
    (g.tick now).2 = g.refuseSweep := by
  unfold tick at h ⊢
  split_ifs at h ⊢
  · rfl
  · rfl
  rcases hguard : g.tickGuard.observe now with e' | guard
  · rfl
  · rw [hguard] at h
    cases h

/-- Whatever a sweep returns, an Elephant after it was an Elephant before it, and an intent that it
adds to the ledger names a flow that was an Elephant before and after the sweep. -/
theorem tick_never_grants {config : GovernorConfig} (h : Reachable config g) (now : Tick) :
    (∀ (key : FlowKey) (r : FlowRecord), (g.tick now).2.flows[key]? = some r →
      r.classification.state = .elephant →
        ∃ r₀ : FlowRecord, g.flows[key]? = some r₀ ∧ r₀.classification.state = .elephant) ∧
    ∀ (id : IntentId) (i : GovernanceIntent), id ∉ g.intents.intents →
      (g.tick now).2.intents.intents[id]? = some i →
        (∃ r₀ : FlowRecord, g.flows[(⟨i.flow, i.flowGeneration⟩ : FlowKey)]? = some r₀ ∧
          r₀.classification.state = .elephant) ∧
        ∃ r : FlowRecord, (g.tick now).2.flows[(⟨i.flow, i.flowGeneration⟩ : FlowKey)]? = some r ∧
          r.classification.state = .elephant := by
  have hstate : ∀ r : FlowRecord, r.isElephant = true → r.classification.state = .elephant := by
    intro r hel
    simpa using (Bool.and_eq_true_iff.mp hel).2
  rcases htick : (g.tick now).1 with e | batch
  · rw [tick_eq_error htick]
    refine ⟨fun key r hr hel => ⟨r, hr, hel⟩, fun id i hnew hi => absurd ?_ hnew⟩
    rw [← Std.ExtTreeMap.isSome_getElem?_iff_mem]
    exact Option.isSome_of_eq_some hi
  obtain ⟨-, guard, -, heq⟩ := tick_eq_ok htick
  have hkeys : ∀ (k : FlowKey) (r : FlowRecord), g.flows[k]? = some r → r.key = k := by
    intro k r hr
    have htracked := (h.justified.records k r hr).tracked
    exact FlowKey.ext htracked.flow htracked.generation
  have hstart : Withheld g g.flows.keys (g.beginSweep guard now).2 := by
    refine ⟨fun _ _ => rfl, fun k r hr hel => ⟨r, hr, hel⟩, hkeys, fun id i hnew hi => absurd ?_ hnew⟩
    -- the expiry pass adds no entry
    have hmem : id ∈ (g.intents.expire now).2.intents := by
      rw [← Std.ExtTreeMap.isSome_getElem?_iff_mem]
      exact Option.isSome_of_eq_some hi
    exact (IntentLedger.mem_updateLive _ _ _).mp hmem
  have hdone : Withheld g [] (sweepLoop now g.flows.keys (g.beginSweep guard now)).2 :=
    hstart.loop _ Std.ExtTreeMap.nodup_keys
  have hafter : Reachable config (g.tick now).2 := h.tail ⟨.tick now, trivial, rfl⟩
  refine ⟨fun key r hr hel => ?_, fun id i hnew hi => ?_⟩
  · have hclassified := hafter.isElephant_of_state hr hel
    rw [heq] at hr
    obtain ⟨r₀, hr₀, hel₀⟩ := hdone.elephants key r hr hclassified
    exact ⟨r₀, hr₀, hstate r₀ hel₀⟩
  · rw [heq] at hi ⊢
    obtain ⟨-, r, hr, hel⟩ := hdone.issued id i hnew hi
    obtain ⟨r₀, hr₀, hel₀⟩ := hdone.elephants _ r hr hel
    exact ⟨⟨r₀, hr₀, hstate r₀ hel₀⟩, r, hr, hstate r hel⟩

open Scenario

/-- The Elephant that the sweep of the small run leaves was one before the sweep. -/
theorem tick_never_grants_scenario : ∃ r r₀ : FlowRecord,
    (governor.tick 20).2.flows[flowKey]? = some r ∧
      r.classification.state = .elephant ∧
      governor.flows[flowKey]? = some r₀ ∧
      r₀.classification.state = .elephant := by
  obtain ⟨r, hr, hstate⟩ : ∃ r, (governor.tick 20).2.flows[flowKey]? = some r ∧
    r.classification.state = .elephant := by decide +kernel
  obtain ⟨r₀, hr₀, hstate₀⟩ := (tick_never_grants reachable_governor 20).1 _ r hr hstate
  exact ⟨r, r₀, hr, hstate, hr₀, hstate₀⟩

end Governor

end EFG
