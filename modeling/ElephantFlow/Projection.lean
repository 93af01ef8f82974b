/-
# The binding index over whole runs

The index is the projection of the flow records (`Projects`).  Every move keeps
it, but for the eviction of a flow that is still classified against a known
capacity: `update_index` then puts the entry of the victim back, and the record
is erased behind it.  In runs without such an eviction the index is the projection
in every state (`index_projects`).
-/
import ElephantFlow.Likeness

namespace EFG

open GroupedMap

namespace Governor

variable {g g' : Governor} {key : FlowKey} {r : FlowRecord}

theorem Projects.congr (h : g.Projects) (hindex : g'.bindingIndex = g.bindingIndex)
    (hagg : g'.resourceAggregate = g.resourceAggregate) (hflows : g'.flows = g.flows) :
    g'.Projects := by
  refine ⟨h.indexed.congr hindex hagg, ?_⟩
  rw [hindex, hflows]
  exact h.entries

theorem Projects.createFlow (h : g.Projects) (hnew : g.flows[key]? = none) :
    (g.createFlow key).Projects := by
  refine ⟨h.indexed.congr rfl rfl, fun resource k entry => ?_⟩
  show (group g.bindingIndex resource)[k]? = some entry ↔
    ∃ x, (g.flows.insertIfNew key (g.freshRecord key))[k]? = some x ∧ _
  rw [insertIfNew_of_new hnew, Std.ExtTreeMap.getElem?_insert, h.entries]
  by_cases hk : compare key k = .eq
  · -- neither the key nor its fresh record is bound
    rw [if_pos hk, ← Std.LawfulEqOrd.eq_of_compare hk, hnew]
    constructor
    · rintro ⟨x, hx, -⟩
      cases hx
    · rintro ⟨x, hx, hbound, -⟩
      cases hx
      cases hbound
  · rw [if_neg hk]

/-- The record has an entry to put into the index. -/
def Indexable (r : FlowRecord) : Prop :=
  r.hasClassification = true ∧ r.classification.measurements.capacityKnown = true

instance (r : FlowRecord) : Decidable (Indexable r) := inferInstanceAs (Decidable (_ ∧ _))

/-- The eviction of a flow that has no entry to put back. -/
theorem Projects.dropFlow (h : g.Projects) (hr : g.flows[key]? = some r) (hclean : ¬ Indexable r) :
    (g.dropFlow key r).Projects := by
  obtain ⟨hindexed, hgroups⟩ := h.released hr
  have hindex : (g.updateIndex key r).1 = if r.bound then g.unbind key r.boundResource else g := by
    unfold Governor.updateIndex
    have hc : ¬ r.hasClassification ∨ ¬ r.classification.measurements.capacityKnown := by
      rw [← not_and_or]
      exact hclean
    simp only
    rw [if_pos hc]
  refine ⟨?_, fun resource k entry => ?_⟩
  · show Indexed { (g.updateIndex key r).1 with flows := _ }
    rw [hindex]
    exact hindexed.congr rfl rfl
  · show (group (g.updateIndex key r).1.bindingIndex resource)[k]? = some entry ↔
      ∃ x, ((g.updateIndex key r).1.flows.erase key)[k]? = some x ∧ _
    rw [updateIndex_flows, hindex, hgroups, Std.ExtTreeMap.getElem?_erase,
      Std.ExtTreeMap.getElem?_erase]
    by_cases hk : compare key k = .eq
    · rw [if_pos hk, if_pos hk]
      simp
    · rw [if_neg hk, if_neg hk]
      exact h.entries resource k entry

theorem Projects.evaluateFlow (h : g.Projects) (hr : g.flows[key]? = some r) (hkey : r.key = key)
    (hsize : g.flows.size < 2 ^ 32) (now : Tick) : (g.evaluateFlow key r now).2.Projects := by
  unfold Governor.evaluateFlow
  simp only
  rcases evaluate_cases g r now with ⟨e, sequence, counters, heq⟩ | ⟨-, -, heq⟩ | ⟨c, hist, hc, heq⟩
  · rw [heq]
    exact (h.setFlow hr rfl rfl rfl).congr rfl rfl rfl
  · rw [heq]
    exact (h.setFlow (r := { r with evaluatedTick := now }) hr rfl rfl rfl).congr rfl rfl rfl
  · -- the commit runs `update_index` under the key of the record
    have hcommit : (⟨c.flow, c.flowGeneration⟩ : FlowKey) = key := by
      rw [hc.flow, hc.flowGeneration]
      exact hkey
    obtain ⟨intents, counters, hgov⟩ := commit_index
      { g with classificationSequence := g.classificationSequence + 1 } r c hist now
    have hsame : Projects { g with classificationSequence := g.classificationSequence + 1 } :=
      h.congr rfl rfl rfl
    have hindexed := hsame.updateIndex (r := committedRecord r (stamped c hist) hist now) hr rfl rfl
      hsize
    rw [heq, commit_snd_snd, hgov, hcommit]
    exact hindexed.congr rfl rfl rfl

theorem keeps_projects (now : Tick) (reason : ReasonCode) (key : FlowKey) :
    Fallible.Keeps (fun x : Governor => x.Projects ∧ x.flows.size < 2 ^ 32)
      (invalidateFlow now reason key) := by
  apply keeps_invalidateFlow
  · rintro x k r ⟨hx, hsize⟩ hr - -
    refine ⟨hx.setFlow hr rfl rfl rfl, ?_⟩
    rw [size_setFlow_of_tracked hr]
    exact hsize
  · rintro x k r hist ⟨hx, hsize⟩ hr - -
    refine ⟨?_, ?_⟩
    · have hcounted : (x.count countWithdrawal).Projects := hx.congr rfl rfl rfl
      exact hcounted.updateIndex (r := suspendedRecord reason r hist) hr rfl rfl hsize
    · rw [withdrawn_flows]
      exact lt_of_eq_of_lt (size_setFlow_of_tracked hr _) hsize

/-- No victim that is evicted has an entry to put back. -/
def EvictsClean (_ : Governor) : Event → Prop
  | .evict _ r => ¬ Indexable r
  | _ => True

/-- A move keeps the projection, unless it evicts a flow that has an entry to put back. -/
theorem Projects.move {e : Event} (h : g.Projects) (hb : g.Bounded) (hj : g.Justified)
    (hclean : EvictsClean g e) (hmove : Move g e g') : g'.Projects := by
  have hsize : g.flows.size < 2 ^ 32 := by
    have := le_trans hb.flows hb.config
    exact lt_of_le_of_lt this (by decide)
  cases hmove with
  | inputs => exact h.congr rfl rfl rfl
  | advance => exact h.congr rfl rfl rfl
  | policy => exact h.congr rfl rfl rfl
  | invalidate now hnow =>
    exact (invalidateAllAuthority_keeps
      (P := fun x : Governor => x.Projects ∧ x.flows.size < 2 ^ 32)
      (fun k => keeps_projects now .policyChanged k)
      (fun x _ hx => ⟨hx.1.congr rfl rfl rfl, hx.2⟩) ⟨h, hsize⟩).1
  | evict key record hvictim hfull => exact h.dropFlow (victim_spec hvictim).1 hclean
  | create key hnew hnewer hflow hgeneration hroom => exact h.createFlow hnew
  | retire => exact h.congr rfl rfl rfl
  | evidence record s hrecord hvalid => exact h.setFlow hrecord rfl rfl rfl
  | complete key record ledger atTick hrecord hledger hidle => exact h.setFlow hrecord rfl rfl rfl
  | evaluate key record now hrecord =>
    have htracked := (hj.records key record hrecord).tracked
    exact h.evaluateFlow hrecord (FlowKey.ext htracked.flow htracked.generation) hsize now
  | reset =>
    refine projects_empty rfl rfl fun k x hx => ?_
    exact of_getElem?_empty hx
  | restore bytes now hok => exact (deserialize_spec hok).projects

/-! ## Every state of a run -/

/-- The operation evicts no flow that has an entry to put back: only evidence for a flow that is not
tracked evicts, and only when the population is full. -/
def EvictsUnindexed (g : Governor) : Command → Prop
  | .submitEvidence s => g.flows[sampleKey s]? = none → g.config.maxFlows ≤ g.flows.size →
      ∀ key r, g.victim = some (key, r) → ¬ Indexable r
  | _ => True

/-- No subtraction of `update_index` is cut off at zero, whichever entry it takes out. -/
def Unguarded (g : Governor) : Prop :=
  ∀ (resource : ResourceId) (key : FlowKey) (entry : BindingEntry),
    (group g.bindingIndex resource)[key]? = some entry →
      ∃ agg, g.resourceAggregate[resource]? = some agg ∧ 0 < agg.flows ∧
        (entry.elephant = true → 0 < agg.elephants ∧ entry.share.toUInt64 ≤ agg.elephantShareSum)

theorem Projects.unguarded (h : g.Projects) : g.Unguarded := by
  intro resource key entry he
  rcases hagg : g.resourceAggregate[resource]? with _ | agg
  · rw [(h.indexed.present resource).mp hagg] at he
    simp at he
  · exact ⟨agg, rfl, (h.indexed.aggregates resource agg hagg).covers he⟩

theorem evictsClean_of_steady (g : Governor) (e : Event) (he : e.Steady) : EvictsClean g e := by
  cases e with
  | evict => exact absurd he id
  | _ => trivial

/-- Moves that evict no flow with an entry to put back keep the projection. -/
theorem Projects.performs (h : g.Projects) (hb : g.Bounded) (hj : g.Justified)
    (hmoves : Performs EvictsClean g g') : g'.Projects :=
  (hmoves.invariant (P := fun y : Governor => y.Projects ∧ y.Bounded ∧ y.Justified)
    (fun _ _ _ hy hc hmove =>
      ⟨hy.1.move hy.2.1 hy.2.2 hc hmove, hy.2.1.move hmove, hy.2.2.move hmove⟩) ⟨h, hb, hj⟩).1

/-- In every state of a run that evicts no flow with an entry to put back, the index is the projection
of the records, its aggregates are the counts and sums of its entries, and no subtraction of
`update_index` is cut off at zero, also between the iterations of an invalidation and of a sweep. -/
theorem index_projects {config : GovernorConfig} (h : ReachableUnder EvictsUnindexed config g) :
    g.Projects ∧ g.Unguarded ∧
    (∀ now reason keys,
      (Fallible.forEach (invalidateFlow now reason) keys g).2.Projects ∧
      (Fallible.forEach (invalidateFlow now reason) keys g).2.Unguarded) ∧
    ∀ guard now keys,
      (sweepLoop now keys (g.beginSweep guard now)).2.Projects ∧
      (sweepLoop now keys (g.beginSweep guard now)).2.Unguarded := by
  have hprojects : g.Projects := by
    refine h.invariant (P := Projects) ?_ fun x cmd hreach hx hadmits hcond => ?_
    · refine projects_empty rfl rfl fun k x hx => ?_
      exact of_getElem?_empty hx
    · refine hx.performs hreach.bounded hreach.justified ?_
      refine exec_performs evictsClean_of_steady ?_ (fun _ _ _ => trivial) hreach.bounded.flows hadmits
      rintro s rfl hnew
      exact ⟨fun k r hv hfull => hcond hnew hfull k r hv, fun _ _ _ => trivial⟩
  have hb := h.reachable.bounded
  refine ⟨hprojects, hprojects.unguarded, fun now reason keys => ?_, fun guard now keys => ?_⟩
  · have hsize : g.flows.size < 2 ^ 32 :=
      lt_of_le_of_lt (le_trans hb.flows hb.config) (by decide)
    have hloop := (Fallible.Keeps.forEach (fun k (_ : k ∈ keys) => keeps_projects now reason k) g
      ⟨hprojects, hsize⟩).1
    exact ⟨hloop, hloop.unguarded⟩
  · have hplain : ∀ x e, Event.Plain e → EvictsClean x e :=
      fun x e he => evictsClean_of_steady x e he.steady
    have hloop := hprojects.performs hb h.reachable.justified
      ((moves_beginSweep hplain guard now).trans (moves_sweepLoop hplain now keys _))
    exact ⟨hloop, hloop.unguarded⟩

namespace Scenario

/-- A population of one flow. -/
def single : GovernorConfig := { maxFlows := 1 }

/-- The sample of the small run for a second flow. -/
def secondSample : FlowSample := FlowSample.signed { sample with flow := ⟨2⟩ }

/-- The flow of the small run is completed, and a second flow takes its place. -/
def replacing : List Command :=
  [.completeFlow ⟨1⟩ ⟨1⟩ 20, .submitEvidence secondSample]

/-- The same without a path, which arrives before the next window of the second flow. -/
def rebinding : List Command :=
  [.submitPolicy policy, .submitEvidence sample, .completeFlow ⟨1⟩ ⟨1⟩ 20,
    .submitEvidence secondSample, .submitCapacity capacity, .submitPath path,
    .submitEvidence (FlowSample.signed { window 2 ⟨10, 20⟩ with flow := ⟨2⟩ })]

end Scenario

open Scenario

/-- The entry of an evicted flow stays in the index when the flow was classified against a known
capacity. -/
theorem index_keeps_evicted : Reachable single
      ((make single).run (commands ++ replacing)) ∧
    ((make single).run (commands ++ replacing)).flows[
      flowKey]?.isNone = true ∧
    (group ((make single).run (commands ++ replacing)).bindingIndex ⟨1⟩)[
      flowKey]?.isSome = true ∧
    ¬ ((make single).run (commands ++ replacing)).Projects := by
  have hreach : Reachable single
      ((make single).run (commands ++ replacing)) := by
    refine Reachable.run .refl ?_
    simp [commands, replacing, Admits]
  have hgone : ((make single).run (commands ++ replacing)).flows[
      flowKey]?.isNone = true := by decide +kernel
  have hentry : (group ((make single).run
      (commands ++ replacing)).bindingIndex ⟨1⟩)[
        flowKey]?.isSome = true := by decide +kernel
  refine ⟨hreach, hgone, hentry, fun hprojects => ?_⟩
  obtain ⟨entry, he⟩ := Option.isSome_iff_exists.mp hentry
  obtain ⟨r, hr, -⟩ := (hprojects.entries _ _ entry).mp he
  rw [hr] at hgone
  cases hgone

/-- Without a path the first flow has no capacity, so that its eviction leaves nothing behind; the second
flow is bound and indexed. -/
theorem index_projects_rebinding : ((make single).run rebinding).Projects ∧
    (group ((make single).run rebinding).bindingIndex ⟨1⟩)[
      (⟨⟨2⟩, ⟨1⟩⟩ : FlowKey)]?.isSome = true := by
  -- only the first sample of the second flow finds the population full
  have hvictim : (((make single).run (rebinding.take 3)).victim.all
    fun v => !decide (Indexable v.2)) = true := by decide +kernel
  have hrun : ReachableUnder EvictsUnindexed single ((make single).run rebinding) := by
    refine ReachableUnder.run .refl ⟨trivial, trivial, trivial, ?_, trivial, trivial, trivial, ?_,
      trivial, trivial, trivial, trivial, trivial, ?_, trivial⟩
    · exact fun _ hfull => absurd hfull (by decide +kernel)
    · intro _ _ key r hv
      have hnone : Option.all (fun v => !decide (Indexable v.2)) (some (key, r)) = true := hv ▸ hvictim
      simpa using hnone
    · exact fun hnew => absurd hnew (by decide +kernel)
  exact ⟨(index_projects hrun).1, by decide +kernel⟩

end Governor

end EFG
