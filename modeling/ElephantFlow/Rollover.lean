/-
# Generations of a flow

A rollover leaves the record of the older generation in place: it is swept,
queried and fed with evidence as before.  In runs in which a flow rolls over only
when no generation of it is tracked, every tracked generation is the highest one of
its flow (`Current`), so that an older generation is void for good
(`older_generation_void`).
-/
import ElephantFlow.Projection

namespace EFG

open ByteCodec Std

namespace Governor

variable {g g' : Governor} {key : FlowKey} {r : FlowRecord}

/-! ## Tracked keys -/

theorem mem_flows_iff : key ∈ g.flows ↔ ∃ r, g.flows[key]? = some r := by
  rw [← ExtTreeMap.isSome_getElem?_iff_mem, Option.isSome_iff_exists]

/-- Writing a tracked record back tracks nothing new. -/
theorem mem_setFlow (hr : g.flows[key]? = some r) (r' : FlowRecord) (k : FlowKey) :
    k ∈ (g.setFlow key r').flows ↔ k ∈ g.flows := ((SameKeys.refl g).setFlow hr r').keys k

/-- Every tracked generation is the highest one of its flow. -/
def Current (g : Governor) : Prop :=
  ∀ key ∈ g.flows, g.highestGeneration[key.flow]? = some key.generation

/-- The highest generation of every tracked flow is tracked. -/
def Crowned (g : Governor) : Prop :=
  ∀ key ∈ g.flows, ∃ highest, g.highestGeneration[key.flow]? = some highest ∧
    (⟨key.flow, highest⟩ : FlowKey) ∈ g.flows

/-- No flow is tracked under two generations. -/
def SingleGeneration (g : Governor) : Prop :=
  ∀ key ∈ g.flows, ∀ key' ∈ g.flows, key.flow = key'.flow → key = key'

theorem Current.crowned (h : g.Current) : g.Crowned := fun key hk => ⟨key.generation, h key hk, hk⟩

theorem Crowned.current (h : g.Crowned) (hsingle : g.SingleGeneration) : g.Current := by
  intro key hk
  obtain ⟨highest, hh, hmem⟩ := h key hk
  rw [hh, hsingle key hk _ hmem rfl]

theorem Current.congr (h : g.Current) (hkeys : ∀ k, k ∈ g'.flows → k ∈ g.flows)
    (hhighest : g'.highestGeneration = g.highestGeneration) : g'.Current := by
  intro k hk
  rw [hhighest]
  exact h k (hkeys k hk)

theorem Crowned.congr (h : g.Crowned) (hkeys : ∀ k, k ∈ g'.flows ↔ k ∈ g.flows)
    (hhighest : g'.highestGeneration = g.highestGeneration) : g'.Crowned := by
  intro k hk
  obtain ⟨highest, hh, hmem⟩ := h k ((hkeys k).mp hk)
  exact ⟨highest, by rw [hhighest]; exact hh, (hkeys _).mpr hmem⟩

theorem getElem?_highest_insert (highest : ExtTreeMap FlowId Generation) (flow f : FlowId)
    (generation : Generation) : (highest.insert flow generation)[f]? =
      if flow = f then some generation else highest[f]? := by
  rw [ExtTreeMap.getElem?_insert]
  by_cases hf : flow = f
  · rw [if_pos hf, if_pos (hf ▸ ReflCmp.compare_self)]
  · rw [if_neg hf, if_neg fun h => hf (LawfulEqOrd.eq_of_compare h)]

theorem mem_createFlow (g : Governor) (key k : FlowKey) :
    k ∈ (g.createFlow key).flows ↔ key = k ∨ k ∈ g.flows := by
  show k ∈ g.flows.insertIfNew key (g.freshRecord key) ↔ _
  rw [ExtTreeMap.mem_insertIfNew]
  constructor
  · rintro (hk | hk)
    · exact .inl (LawfulEqOrd.eq_of_compare hk)
    · exact .inr hk
  · rintro (rfl | hk)
    · exact .inl ReflCmp.compare_self
    · exact .inr hk

theorem Crowned.createFlow (h : g.Crowned) (key : FlowKey) : (g.createFlow key).Crowned := by
  intro k hk
  rw [mem_createFlow] at hk
  show ∃ highest, (g.highestGeneration.insert key.flow key.generation)[k.flow]? = some highest ∧ _
  rw [getElem?_highest_insert]
  by_cases hflow : key.flow = k.flow
  · refine ⟨key.generation, by rw [if_pos hflow], ?_⟩
    rw [mem_createFlow, ← hflow]
    exact .inl rfl
  · rw [if_neg hflow]
    have hold : k ∈ g.flows := by
      rcases hk with rfl | hk
      · exact absurd rfl hflow
      · exact hk
    obtain ⟨highest, hh, hmem⟩ := h k hold
    exact ⟨highest, hh, (mem_createFlow g key _).mpr (.inr hmem)⟩

theorem Current.createFlow (h : g.Current) (hnone : ∀ k ∈ g.flows, k.flow ≠ key.flow) :
    (g.createFlow key).Current := by
  intro k hk
  show (g.highestGeneration.insert key.flow key.generation)[k.flow]? = _
  rw [getElem?_highest_insert]
  rcases (mem_createFlow g key k).mp hk with rfl | hk
  · rw [if_pos rfl]
  · rw [if_neg (Ne.symm (hnone k hk))]
    exact h k hk

/-! ## Restores -/

theorem Crowned.setFlow (h : g.Crowned) {r₀ : FlowRecord} (hr₀ : g.flows[key]? = some r₀)
    (r : FlowRecord) : (g.setFlow key r).Crowned := h.congr (mem_setFlow hr₀ r) rfl

theorem restoreStable_crowned : RestoreStable Crowned where
  cleared := fun _ _ _ hk => absurd hk ExtTreeMap.not_mem_empty
  created := by
    intro x key r hx
    obtain ⟨r₀, hr₀⟩ := mem_flows_iff.mp ((mem_createFlow x key key).mpr (.inl rfl))
    exact (hx.createFlow key).setFlow hr₀ r
  replaced := fun _ _ _ r' hr hx => hx.setFlow hr r'

/-- A restore crowns the flows that it reads. -/
theorem Crowned.deserialize (h : g.Crowned) (bytes : Bytes) (now : Tick) :
    (g.deserialize bytes now).2.Crowned := by
  unfold Governor.deserialize
  rcases readHeader g.boot bytes with e | ⟨header, rest⟩
  · exact h
  · exact restoreStable_crowned.keeps_restoreBody now header
      (keeps_restorePolicy header.hasPolicy fun _ _ _ hx => hx) (g, rest) h

/-! ## Every state of a run -/

/-- A flow is created only when no generation of it is tracked, and restores track one generation
of a flow. -/
def CreatesAlone (g : Governor) : Event → Prop
  | .create key => ∀ k ∈ g.flows, k.flow ≠ key.flow
  | .restore bytes now => (g.deserialize bytes now).2.SingleGeneration
  | _ => True

theorem Current.move {e : Event} (h : g.Current) (halone : CreatesAlone g e) (hmove : Move g e g') :
    g'.Current := by
  cases hmove with
  | inputs => exact h
  | advance => exact h
  | policy => exact h
  | invalidate now hnow =>
    have hkeys : ∀ k, k ∈ (g.invalidateAllAuthority now .policyChanged).2.flows ↔ k ∈ g.flows :=
      invalidateAllAuthority_keeps (P := fun x : Governor => ∀ k, k ∈ x.flows ↔ k ∈ g.flows)
        (fun key => keeps_mem_flows g key) (fun _ _ hx => hx) fun _ => Iff.rfl
    obtain ⟨_, _, _, _, _, heq⟩ := invalidateAllAuthority_rest g now .policyChanged
    exact h.congr (fun k hk => (hkeys k).mp hk) (by rw [heq])
  | evict key record hvictim hfull =>
    have hinputs := sameInputs_updateIndex g key record
    refine h.congr (fun k hk => ?_) hinputs.highestGeneration
    have hk' : k ∈ (g.updateIndex key record).1.flows.erase key := hk
    rw [hinputs.flows, ExtTreeMap.mem_erase] at hk'
    exact hk'.2
  | create key hnew hnewer hflow hgeneration hroom => exact h.createFlow halone
  | retire => exact h
  | evidence record s hrecord hvalid =>
    exact h.congr (fun k hk => (mem_setFlow hrecord _ k).mp hk) rfl
  | complete key record ledger atTick hrecord hledger hidle =>
    exact h.congr (fun k hk => (mem_setFlow hrecord _ k).mp hk) rfl
  | evaluate key record now hrecord =>
    have hinputs := sameInputs_evaluate g record now
    refine h.congr (fun k hk => ?_) hinputs.highestGeneration
    have hrecord' : (g.evaluate record now).2.1.flows[key]? = some record := by
      rw [hinputs.flows]
      exact hrecord
    have hk' := (mem_setFlow hrecord' _ k).mp hk
    rw [hinputs.flows] at hk'
    exact hk'
  | reset =>
    intro k hk
    exact absurd hk ExtTreeMap.not_mem_empty
  | restore bytes now hok => exact (h.crowned.deserialize bytes now).current halone

/-- A sample that rolls a flow over arrives only when no generation of the flow is tracked, and a
restored snapshot tracks one generation of a flow. -/
def RollsOverAlone (g : Governor) : Command → Prop
  | .submitEvidence s => g.flows[sampleKey s]? = none →
      (∀ highest, g.highestGeneration[s.flow]? = some highest → highest < s.flowGeneration) →
      ∀ k ∈ g.flows, k.flow ≠ s.flow
  | .deserialize bytes now => (g.deserialize bytes now).2.SingleGeneration
  | _ => True

theorem ReachableUnder.current {config : GovernorConfig} (h : ReachableUnder RollsOverAlone config g) :
    g.Current := by
  refine h.invariant (P := Current) ?_ fun x cmd hreach hx hadmits hcond => ?_
  · intro k hk
    exact absurd hk ExtTreeMap.not_mem_empty
  have hperforms : Performs CreatesAlone x (x.exec cmd) := by
    refine exec_performs ?_ ?_ ?_ hreach.bounded.flows hadmits
    · intro y e he
      cases e with
      | create => exact absurd he id
      | restore => exact absurd he id
      | _ => trivial
    · rintro s rfl hnew
      refine ⟨fun _ _ _ _ => trivial, fun y hy hnewer k hk => ?_⟩
      refine hcond hnew hnewer k ?_
      rcases hy with rfl | ⟨v, r, -, hflows⟩
      · exact hk
      · rw [hflows, ExtTreeMap.mem_erase] at hk
        exact hk.2
    · rintro bytes now rfl
      exact hcond
  exact hperforms.invariant (fun y e y' hy hc hmove => hy.move hc hmove) hx

/-- Evidence for a generation below the highest one that is not tracked is refused and changes no
record. -/
theorem submitEvidence_retired {s : FlowSample} {highest : Generation}
    (hnew : g.flows[sampleKey s]? = none) (hh : g.highestGeneration[s.flow]? = some highest)
    (hlt : s.flowGeneration < highest) :
    (∃ e, (g.submitEvidence s).1 = .error e) ∧ (g.submitEvidence s).2.flows = g.flows := by
  have hopen : g.openFlow (sampleKey s) = (makeStatus .stale
      "evidence arrives for a retired flow generation", g.refuseRetired) := by
    have hh' : g.highestGeneration[(sampleKey s).flow]? = some highest := hh
    unfold openFlow establishFlow
    rw [hnew]
    simp only
    rw [hh']
    simp only
    rw [if_pos (show (sampleKey s).generation < highest from hlt)]
  unfold submitEvidence
  by_cases hp : g.policy.isNone = true
  · rw [if_pos hp]
    exact ⟨⟨_, rfl⟩, rfl⟩
  rw [if_neg hp]
  rcases s.validate with e | ⟨⟩
  · exact ⟨⟨e, rfl⟩, rfl⟩
  · simp only [hopen]
    exact ⟨⟨_, rfl⟩, rfl⟩

/-- In every state of a run in which flows roll over alone, a generation below the highest one of its
flow is void: its record, if it is tracked, is no Elephant and has no authority, it has no live intent,
and evidence for it is refused and leaves its ledger alone. -/
theorem older_generation_void {config : GovernorConfig} (h : ReachableUnder RollsOverAlone config g)
    {highest : Generation} (hh : g.highestGeneration[key.flow]? = some highest)
    (hlt : key.generation < highest) :
    (∀ r : FlowRecord, g.flows[key]? = some r →
      r.isElephant = false ∧ r.classification.authority = .none) ∧
    (∀ (id : IntentId) (i : GovernanceIntent), g.intents.Live id i →
      ¬ (i.flow = key.flow ∧ i.flowGeneration = key.generation)) ∧
    ∀ s : FlowSample, sampleKey s = key → (∃ e, (g.submitEvidence s).1 = .error e) ∧
      (g.submitEvidence s).2.flows[key]?.map FlowRecord.ledger =
        g.flows[key]?.map FlowRecord.ledger := by
  -- the generation is not tracked at all
  have hnone : g.flows[key]? = none := by
    rw [Option.eq_none_iff_forall_ne_some]
    intro r hr
    have hcurrent := h.current key (mem_flows_iff.mpr ⟨r, hr⟩)
    rw [hh, Option.some.injEq] at hcurrent
    rw [hcurrent, StrongId.lt_iff] at hlt
    exact UInt64.lt_irrefl _ hlt
  refine ⟨?_, ?_, ?_⟩
  · intro r hr
    rw [hnone] at hr
    cases hr
  · rintro id i hlive ⟨hflow, hgeneration⟩
    obtain ⟨r, hr, -⟩ := h.reachable.justified.intents id i hlive
    rw [hflow, hgeneration, hnone] at hr
    cases hr
  · rintro s rfl
    obtain ⟨herror, hflows⟩ := submitEvidence_retired hnone hh hlt
    exact ⟨herror, by rw [hflows]⟩

namespace Scenario

/-- The first window of the second generation of the flow of the small run. -/
def renewedSample : FlowSample := FlowSample.signed { sample with flowGeneration := ⟨2⟩ }

/-- Two flows that are completed in turn, each of them in the place of the other, before the first one
rolls over. -/
def rollingOver : List Command :=
  [.submitPolicy policy, .submitEvidence sample, .completeFlow ⟨1⟩ ⟨1⟩ 20, .submitEvidence secondSample,
    .completeFlow ⟨2⟩ ⟨1⟩ 20, .submitEvidence renewedSample]

end Scenario

open Scenario

/-- A rollover leaves the older generation an Elephant that still takes evidence. -/
theorem older_generation_governs :
    Reachable {} ((make {}).run (commands ++ [.submitEvidence renewedSample])) ∧
    ((make {}).run (commands ++ [.submitEvidence renewedSample])).highestGeneration[
      (⟨1⟩ : FlowId)]? = some ⟨2⟩ ∧
    (((make {}).run (commands ++ [.submitEvidence renewedSample])).flows[
      flowKey]?.any fun r => r.isElephant && r.classification.authority = .govern) =
        true ∧
    (((make {}).run (commands ++ [.submitEvidence renewedSample])).submitEvidence
      sample).1.isOk = true := by
  refine ⟨Reachable.run .refl ?_, by decide +kernel, by decide +kernel, by decide +kernel⟩
  simp [commands, Admits]

/-- In a population of one flow the first generation is gone before the second one arrives. -/
theorem older_generation_void_alone :
    ((make single).run rollingOver).highestGeneration[(⟨1⟩ : FlowId)]? = some ⟨2⟩ ∧
    ∃ e, (((make single).run rollingOver).submitEvidence sample).1 =
      .error e := by
  have hhighest : ((make single).run rollingOver).highestGeneration[
      (⟨1⟩ : FlowId)]? = some ⟨2⟩ := by decide +kernel
  have hempty : ∀ k ∈ ((make single).run (rollingOver.take 1)).flows.keys, k.flow ≠ ⟨1⟩ := by
    decide +kernel
  have hsecond : ∀ k ∈ ((make single).run (rollingOver.take 3)).flows.keys, k.flow ≠ ⟨2⟩ := by
    decide +kernel
  have hfirst : ∀ k ∈ ((make single).run (rollingOver.take 5)).flows.keys, k.flow ≠ ⟨1⟩ := by
    decide +kernel
  have hrun : ReachableUnder RollsOverAlone single
      ((make single).run rollingOver) := by
    refine ReachableUnder.run .refl ⟨trivial, trivial, trivial, ?_, trivial, trivial, trivial, ?_,
      trivial, trivial, trivial, ?_, trivial⟩
    · intro _ _ k hk
      exact hempty k (ExtTreeMap.mem_keys.mpr hk)
    · intro _ _ k hk
      exact hsecond k (ExtTreeMap.mem_keys.mpr hk)
    · intro _ _ k hk
      exact hfirst k (ExtTreeMap.mem_keys.mpr hk)
  obtain ⟨-, -, hrefused⟩ := @older_generation_void _ flowKey _ hrun _ hhighest (by decide)
  exact ⟨hhighest, (hrefused sample rfl).1⟩

end Governor

end EFG
