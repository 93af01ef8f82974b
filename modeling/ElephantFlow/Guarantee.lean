/-
# The excess over the reserved guarantee

The impact assessment derives by how much a flow exceeds what is reserved on its binding resource.
The measurements, which the thresholds of a policy read, have a field for the same quantity, and
nothing ever writes it.  So policy and impact agree about the excess exactly while there is none
(`Commits.seesExcess_iff`).
-/
import ElephantFlow.Repetition
import ElephantFlow.Shares
import ElephantFlow.Trails

namespace EFG

namespace Governor

variable {g g' : Governor} {key : FlowKey} {r r' : FlowRecord} {now : Tick} {e : Event}
  {c : FlowClassification} {h : ClassificationHistory}

/-- A decision with a known capacity that reports an excess over the guarantee has measurements with
an excess, for which a threshold of 1 is met. -/
def SeesExcess (c : FlowClassification) : Prop :=
  c.measurements.capacityKnown = true → 0 < c.impact.excessOverGuarantee →
    0 < c.measurements.excessOverGuarantee ∧
      ({ kind := .excessOverGuarantee, value := 1 } : Threshold).evaluate c.measurements = .true

/-- The rate of the flow is above the part of its binding resource that is reserved, and by so much
that the excess is not rounded to zero. -/
def ExceedsGuarantee (g : Governor) (r : FlowRecord) : Prop :=
  g.policy ≠ none ∧ r.ledger.measurements.evidencePresent = true ∧
    ∃ resource snapshot, resolveBinding (g.latestPath r) g.capacities false 0 = some (resource, snapshot) ∧
      snapshot.capacity ≠ 0 ∧ snapshot.reserved ≠ 0 ∧
      let share := toBasisPoints r.ledger.measurements.sustainedRate snapshot.capacity
      let reserved := toBasisPoints snapshot.reserved snapshot.capacity
      reserved < share ∧
        0 < (applyBasisPoints r.ledger.measurements.sustainedRate (share - reserved)).getD 0

/-! ## One decision -/

theorem measure_ledger (g : Governor) (r : FlowRecord) :
    (g.measure r).measurements.excessOverGuarantee = 0 ∧
      (g.measure r).measurements.evidencePresent = r.ledger.measurements.evidencePresent ∧
      (g.measure r).measurements.sustainedRate = r.ledger.measurements.sustainedRate := by
  have hledger := (measurements_unbound r.ledger).2
  unfold measure composeMeasurements
  rcases g.latestPath r with _ | path
  · exact ⟨hledger, rfl, rfl⟩
  · rcases hb : resolveBinding (some path) g.capacities false 0 with _ | ⟨resource, snapshot⟩
    · simp only [hb]
      exact ⟨hledger, rfl, rfl⟩
    · simp only [hb]
      exact ⟨hledger, trivial, trivial⟩

theorem measure_binding (g : Governor) (r : FlowRecord) :
    (resolveBinding (g.latestPath r) g.capacities false 0 = none ∧
      (g.measure r).measurements.capacityKnown = false) ∨
    ∃ resource snapshot, resolveBinding (g.latestPath r) g.capacities false 0 = some (resource, snapshot) ∧
      (g.measure r).measurements.capacityKnown = true ∧
      (g.measure r).measurements.resourceCapacity = snapshot.capacity ∧
      (g.measure r).measurements.resourceReserved = snapshot.reserved ∧
      (g.measure r).measurements.shareOfCapacity =
        toBasisPoints r.ledger.measurements.sustainedRate snapshot.capacity := by
  have hledger := (measurements_unbound r.ledger).1
  unfold measure composeMeasurements
  rcases g.latestPath r with _ | path
  · exact .inl ⟨rfl, hledger⟩
  · rcases hb : resolveBinding (some path) g.capacities false 0 with _ | ⟨resource, snapshot⟩
    · simp only [hb]
      exact .inl ⟨trivial, hledger⟩
    · simp only [hb]
      exact .inr ⟨resource, snapshot, rfl, trivial, rfl, rfl, rfl⟩

theorem impactOn_excess_iff (hknown : (g.measure r).measurements.capacityKnown = true) :
    0 < (g.impactOn (g.measure r)).excessOverGuarantee ↔ g.ExceedsGuarantee r := by
  obtain ⟨-, hpresent, hrate⟩ := measure_ledger g r
  rcases measure_binding g r with ⟨-, hno⟩ | ⟨resource, snapshot, hb, -, hcapacity, hreserved, hshare⟩
  · rw [hno] at hknown
    cases hknown
  unfold impactOn ExceedsGuarantee
  rw [hb]
  rcases g.policy with _ | p
  · simp
  simp only
  unfold computeImpact
  by_cases hevidence : r.ledger.measurements.evidencePresent = true
  swap
  · simp [hpresent, hevidence]
  simp only [hpresent, hevidence, not_true_eq_false, if_false, excessOverGuaranteeOf, hknown,
    hcapacity, hreserved, hshare, hrate, true_and]
  constructor
  · intro hpos
    split_ifs at hpos with hbound habove
    · exact ⟨nofun, resource, snapshot, rfl, hbound.1, hbound.2, habove, hpos⟩
    · cases hpos
    · cases hpos
  · rintro ⟨-, resource', snapshot', heq, hbound₁, hbound₂, habove, hpos⟩
    cases heq
    rw [if_pos ⟨hbound₁, hbound₂⟩, if_pos habove]
    exact hpos

theorem Commits.seesExcess_iff (hc : g.Commits r now c h) :
    SeesExcess c ↔ ¬ g.ExceedsGuarantee r := by
  unfold SeesExcess
  rw [hc.measurements, hc.impact, (measure_ledger g r).1]
  constructor
  · intro hsees hexceeds
    have hknown : (g.measure r).measurements.capacityKnown = true := by
      obtain ⟨-, -, resource, snapshot, hb, -⟩ := hexceeds
      rcases measure_binding g r with ⟨hnone, -⟩ | ⟨_, _, -, hknown, -⟩
      · rw [hb] at hnone
        cases hnone
      · exact hknown
    exact absurd (hsees hknown ((impactOn_excess_iff hknown).mpr hexceeds)).1 (by decide)
  · intro hwithin hknown hpos
    exact absurd ((impactOn_excess_iff hknown).mp hpos) hwithin

/-! ## Runs -/

/-- An evaluation is for a flow within its guarantee, and a restore brings decisions that see the
excess. -/
def Event.WithinGuarantee (g : Governor) : Event → Prop
  | .evaluate _ r _ => ¬ g.ExceedsGuarantee r
  | .restore bytes now => ∀ (key : FlowKey) (r : FlowRecord),
      (g.deserialize bytes now).2.flows[key]? = some r → SeesExcess r.classification
  | _ => True

theorem seesExcess_evaluate (hwithin : ¬ g.ExceedsGuarantee r) (hr : SeesExcess r.classification)
    (now : Tick) : SeesExcess (g.evaluate r now).2.2.classification := by
  rcases evaluate_cases g r now with ⟨_, _, _, heq⟩ | ⟨-, -, heq⟩ | ⟨c, hist, hc, heq⟩
  · rw [heq]
    exact hr
  · rw [heq]
    exact hr
  · rw [heq, commit_snd_snd, rebound_classification]
    exact hc.seesExcess_iff.mpr hwithin

theorem Move.seesExcess (hmove : Move g e g') (hwithin : Event.WithinGuarantee g e)
    (hg : ∀ (key : FlowKey) (r : FlowRecord), g.flows[key]? = some r → SeesExcess r.classification)
    (hr' : g'.flows[key]? = some r') : SeesExcess r'.classification := by
  cases hmove.becomes hr' with
  | same _ _ hr => exact hg key r' hr
  | fresh => exact nofun
  | appended r s hr => exact hg key r hr
  | completed r ledger atTick hr => exact hg key r hr
  | evaluated r now hr => exact seesExcess_evaluate hwithin (hg key r hr) now
  | cleared r now hr => exact hg key r hr
  | withdrawn r hist now hr =>
    rw [rebound_classification]
    exact hg key r hr
  | restored _ bytes now hok hr => exact hwithin key r' hr

/-- **Policy and impact see the same excess** in a decision that is made exactly if the flow does not
exceed its guarantee then; and in every stored decision of a run whose evaluations are all for flows
within their guarantee. -/
theorem excess_seen_iff (config : GovernorConfig) :
    (∀ (g : Governor) (r : FlowRecord) (now : Tick) (c : FlowClassification)
      (h : ClassificationHistory), g.Commits r now c h → (SeesExcess c ↔ ¬ g.ExceedsGuarantee r)) ∧
    (∀ g : Governor, ReachableUnder (Command.MadeOf Event.WithinGuarantee) config g →
      ∃ ss, Trail Event.WithinGuarantee config ss g) ∧
    ∀ (ss : List Step) (g : Governor), Trail Event.WithinGuarantee config ss g →
      ∀ (key : FlowKey) (r : FlowRecord), g.flows[key]? = some r → SeesExcess r.classification := by
  refine ⟨fun g r now c h hc => hc.seesExcess_iff, fun g h => h.trail_of_madeOf,
    fun ss g htrail => ?_⟩
  induction htrail with
  | start =>
    intro key r hr
    exact of_getElem?_empty hr
  | step _ hwithin hmove ih => exact fun key r hr => hmove.seesExcess hwithin ih hr

open Scenario

/-- In the steady run nothing is reserved, and the decision on its second window sees the excess. -/
theorem excess_seen_steady : (steady 2).2.classification.measurements.capacityKnown = true ∧
    SeesExcess (steady 2).2.classification := by
  have hfree : ∀ n < 4, (resolveBinding ((steadyNext n).1.latestPath (steadyNext n).2)
      (steadyNext n).1.capacities false 0).all (fun b => b.2.reserved = 0) = true := by
    decide +kernel
  have hwithin : ∀ n < 4, ¬ (steadyNext n).1.ExceedsGuarantee (steadyNext n).2 := by
    rintro n hn ⟨-, -, resource, snapshot, hb, -, hreserved, -⟩
    have hall := hfree n hn
    rw [hb] at hall
    exact hreserved (of_decide_eq_true hall)
  obtain ⟨ss, htrail⟩ := trail_steady Event.WithinGuarantee (fun _ => trivial)
    (fun _ => trivial) (fun _ => trivial) (fun _ _ => trivial) hwithin (n := 2) (by decide)
  exact ⟨by decide +kernel, (excess_seen_iff {}).2.2 ss _ htrail _ _ (getElem?_steady 2)⟩

/-- The small run on a resource of which a tenth is reserved. -/
def Scenario.overGuarantee : Governor :=
  ((make {}).setIncarnation boot).run [.submitPolicy policy,
    .submitCapacity { capacity with reserved := 100 }, .submitPath path, .submitEvidence sample]

/-- Its flow takes the whole resource: the impact reports an excess, and no threshold sees it. -/
theorem excess_unseen : Reachable {} overGuarantee ∧
    (overGuarantee.flows[flowKey]?.any fun r =>
      r.classification.measurements.capacityKnown &&
        (decide (0 < r.classification.impact.excessOverGuarantee) &&
          (r.classification.measurements.excessOverGuarantee = 0 &&
            ({ kind := .excessOverGuarantee, value := 1 } : Threshold).evaluate
              r.classification.measurements = .false))) = true := by
  constructor
  · refine reachable_incarnation.run ?_
    simp [Admits]
  · decide +kernel

end Governor

end EFG
