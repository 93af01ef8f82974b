/-
# What an Elephant decision rests on

An evaluation answers Elephant only for a flow that is running and not suspended.
`Supported` lists what that means for the record it leaves: fresh evidence without
a gap, a fresh path with a fresh capacity snapshot on it, a fresh policy, and an
authority vector that matches the live one.  The snapshot that the measurements
and the authority vector are taken from is another matter: it is chosen without
looking at freshness.
-/
import ElephantFlow.BindingChoice
import ElephantFlow.Justification

namespace EFG

namespace Governor

variable {g g' : Governor} {record r : FlowRecord} {now : Tick} {d : FlowDecision}
  {key : FlowKey}

/-! ## Suspension -/

theorem of_verdict_elephant (h : (g.verdict record now).state = .elephant) :
    record.ledger.completed = false ∧ (g.suspensionReasons record now).1 = false ∧
      (g.measure record).capacityMissing = false := by
  rcases verdict_cases g record now with ⟨-, heq⟩ | ⟨-, -, heq⟩ | ⟨hrun, hsus, hcap, -⟩
  · rw [heq] at h
    cases h
  · rw [heq] at h
    simp only at h
    split_ifs at h
  · exact ⟨hrun, hsus, hcap⟩

/-- The three parts of a suspension. -/
theorem suspensionReasons_eq_false (h : (g.suspensionReasons record now).1 = false) :
    (g.evidenceSuspension record now).1 = false ∧ (g.policySuspension now).1 = false ∧
      (g.authoritySuspension record now).1 = false := by
  unfold suspensionReasons at h
  simp only [Bool.or_eq_false_iff] at h
  exact ⟨h.1.1, h.1.2, h.2⟩

theorem of_evidenceSuspension (h : (g.evidenceSuspension record now).1 = false) :
    ∃ s path, record.ledger.latest = some s ∧ isFresh record.ledger.latestValidity now = true ∧
      record.ledger.gapDetected = false ∧ g.paths.find s.path = some path ∧
      isFresh path.validity now = true ∧
      resolveBinding (some path) g.capacities true now ≠ none := by
  unfold evidenceSuspension at h
  rcases hs : record.ledger.latest with _ | s
  · rw [hs] at h
    cases h
  rw [hs] at h
  simp only at h
  rcases hp : g.paths.find s.path with _ | path
  · rw [hp] at h
    cases h
  rw [hp] at h
  simp only at h
  by_cases hfresh : isFresh path.validity now = true
  swap
  · rw [if_pos hfresh] at h
    cases h
  rw [if_neg (not_not.mpr hfresh)] at h
  by_cases hbinding : (resolveBinding (some path) g.capacities true now).isNone = true
  · rw [if_pos hbinding] at h
    cases h
  rw [if_neg hbinding] at h
  simp only [Bool.or_eq_false_iff, Bool.not_eq_false'] at h
  refine ⟨s, path, rfl, h.1, h.2, hp, hfresh, fun hnone => hbinding ?_⟩
  rw [hnone]
  rfl

theorem of_policySuspension (h : (g.policySuspension now).1 = false) :
    ∃ p, g.policy = some p ∧ isFresh p.validity now = true := by
  unfold policySuspension at h
  rcases hp : g.policy with _ | p
  · rw [hp] at h
    cases h
  rw [hp] at h
  simp only at h
  split_ifs at h with hfresh
  exact ⟨p, rfl, hfresh⟩

theorem of_authoritySuspension (h : (g.authoritySuspension record now).1 = false)
    (hel : record.isElephant = true) : ∃ live, g.buildAuthority record now = .ok live ∧
      record.classification.authorityVector.compare live = .matched := by
  unfold authoritySuspension at h
  rw [if_pos hel] at h
  rcases hlive : g.buildAuthority record now with e | live
  · rw [hlive] at h
    cases h
  rw [hlive] at h
  refine ⟨live, rfl, ?_⟩
  cases hv : record.classification.authorityVector.compare live with
  | matched => rfl
  | _ => simp [hv] at h

theorem compare_identified (c : FlowClassification) (authority : AuthorityVector)
    (generation : Generation) (id : ClassificationId) :
    (identified c authority generation id).authorityVector.compare authority = .matched :=
  AuthorityVector.compare_self authority

/-! ## The support of an Elephant -/

/-- Everything that an Elephant record has to rest on at a tick. -/
structure Supported (g : Governor) (r : FlowRecord) (now : Tick) : Prop where
  running : r.ledger.completed = false
  contiguous : r.ledger.gapDetected = false
  evidence : ∃ s path, r.ledger.latest = some s ∧ isFresh s.validity now = true ∧
    g.paths.find s.path = some path ∧ isFresh path.validity now = true ∧
    ∃ resource ∈ path.resources, ∃ c : ResourceCapacity, g.capacities.find resource = some c ∧
      isFresh c.validity now = true
  policy : ∃ p, g.policy = some p ∧ isFresh p.validity now = true
  authority : ∃ live, g.buildAuthority r now = .ok live ∧
    r.classification.authorityVector.compare live = .matched

theorem supported_of_not_suspended (hledger : record.ledger.WellFormed)
    (hverdict : (g.verdict record now).state = .elephant) (hsame : r.ledger = record.ledger)
    (hauthority : ∃ live, g.buildAuthority r now = .ok live ∧
      r.classification.authorityVector.compare live = .matched) : Supported g r now := by
  obtain ⟨hrun, hsus, -⟩ := of_verdict_elephant hverdict
  obtain ⟨hevidence, hpolicy, -⟩ := suspensionReasons_eq_false hsus
  obtain ⟨s, path, hs, hfresh, hgap, hpath, hpfresh, hbinding⟩ := of_evidenceSuspension hevidence
  have hvalidity : record.ledger.latestValidity = s.validity := (hledger.summary s hs).validity
  refine ⟨?_, ?_, ⟨s, path, ?_, ?_, hpath, hpfresh, exists_fresh_of_resolveBinding hbinding⟩,
    of_policySuspension hpolicy, hauthority⟩
  · rw [hsame]
    exact hrun
  · rw [hsame]
    exact hgap
  · rw [hsame]
    exact hs
  · rw [← hvalidity]
    exact hfresh

theorem buildAuthority_congr (hledger : r.ledger = record.ledger) :
    g.buildAuthority r now = g.buildAuthority record now := by
  unfold buildAuthority latestPath
  rw [hledger]

/-! ## The decision of an evaluation -/

theorem commit_decision {c : FlowClassification} {h : ClassificationHistory}
    (hd : (g.commit record c h now).1 = .ok d) : d.classification = stamped c h := by
  unfold commit at hd
  simp only at hd
  generalize (g.settle record (stamped c h) h now).1.produceIntents
    (g.settle record (stamped c h) h now).2 now = produced at hd
  obtain ⟨res, g'⟩ := produced
  cases res with
  | error e => cases hd
  | ok out =>
    cases hd
    rfl

theorem decision_cases (hd : (g.evaluate record now).1 = .ok d) :
    (unchanged record (g.candidate record now) = true ∧ d.classification = record.classification) ∨
    ∃ c h, g.Commits record now c h ∧ d.classification = stamped c h := by
  rcases evaluate_cases g record now with ⟨e, _, _, heq⟩ | ⟨-, hu, heq⟩ | ⟨c, h, hc, heq⟩
  · rw [heq] at hd
    cases hd
  · rw [heq] at hd
    cases hd
    exact .inl ⟨hu, rfl⟩
  · rw [heq] at hd
    exact .inr ⟨c, h, hc, commit_decision hd⟩

/-- What the idempotency test compares. -/
theorem of_unchanged {c : FlowClassification} (h : unchanged record c = true) :
    record.hasClassification = true ∧ record.classification.state = c.state ∧
      record.classification.measurements.digest = c.measurements.digest := by
  simp only [unchanged, Bool.and_eq_true, decide_eq_true_eq] at h
  exact ⟨h.1.1.1.1.1.1, h.1.1.1.1.2, h.1.2⟩

theorem verdict_of_decision (hd : (g.evaluate record now).1 = .ok d)
    (hs : d.classification.state = .elephant) : (g.verdict record now).state = .elephant := by
  rcases decision_cases hd with ⟨hu, heq⟩ | ⟨c, h, hc, heq⟩
  · rw [← candidate_state, ← (of_unchanged hu).2.1, ← heq]
    exact hs
  · rw [heq] at hs
    rw [← hc.state]
    exact hs

theorem authority_of_decision (hd : (g.evaluate record now).1 = .ok d)
    (hs : d.classification.state = .elephant) : ∃ live, g.buildAuthority record now = .ok live ∧
      d.classification.authorityVector.compare live = .matched := by
  have hverdict := verdict_of_decision hd hs
  obtain ⟨-, hsus, -⟩ := of_verdict_elephant hverdict
  rcases decision_cases hd with ⟨hu, heq⟩ | ⟨c, h, hc, heq⟩
  · -- the stored vector was compared before the answer was repeated
    have hel : record.isElephant = true := by
      rw [heq] at hs
      simp [FlowRecord.isElephant, hs, (of_unchanged hu).1]
    rw [heq]
    exact of_authoritySuspension (suspensionReasons_eq_false hsus).2.2 hel
  · obtain ⟨authority, hauthority, hid⟩ := hc.identity
    refine ⟨authority, hauthority, ?_⟩
    rw [heq]
    show c.authorityVector.compare authority = .matched
    rw [hid]
    exact compare_identified _ _ _ _

/-! ## The snapshot of the measurements -/

/-- The share of the unreserved capacity that a rate takes. -/
def shareOf (rate available : KiloTickRate) : BasisPoints :=
  if available > 0 then toBasisPoints (minOf rate available) available
  else if rate > 0 then kBasisPointsScale else 0

/-- Known measurements are taken from the covering snapshot that binding resolution chooses without
looking at freshness. -/
theorem measure_of_capacity (now : Tick) (h : (g.measure record).capacityMissing = false) :
    ∃ path resource snapshot, g.latestPath record = some path ∧
      resolveBinding (some path) g.capacities false now = some (resource, snapshot) ∧
      (g.measure record).measurements.bindingResource = resource ∧
      (g.measure record).measurements.shareOfCapacity =
        toBasisPoints (g.measure record).measurements.sustainedRate snapshot.capacity ∧
      (g.measure record).measurements.shareOfAvailable =
        shareOf (g.measure record).measurements.sustainedRate (availability snapshot) := by
  unfold measure at h ⊢
  simp only at h ⊢
  rcases hm : composeMeasurements record.ledger (g.latestPath record) g.capacities
    (g.competing record).1 (g.competing record).2 true with e | m
  · rw [hm] at h
    cases h
  unfold composeMeasurements at hm
  rcases hp : g.latestPath record with _ | path
  · rw [hp] at hm
    cases hm
  rw [hp] at hm
  simp only at hm
  rcases hb : resolveBinding (some path) g.capacities false 0 with _ | ⟨resource, snapshot⟩
  · rw [hb] at hm
    cases hm
  rw [hb] at hm
  simp only [Except.ok.injEq] at hm
  refine ⟨path, resource, snapshot, rfl, ?_, ?_, ?_, ?_⟩
  · rw [resolveBinding_false (some path) now 0]
    exact hb
  · rw [← hm]
  · rw [← hm]
  · rw [← hm]
    rfl

theorem buildAuthority_capacity {live : AuthorityVector} {path : PathDescriptor}
    {resource : ResourceId} {snapshot : ResourceCapacity}
    (h : g.buildAuthority record now = .ok live) (hp : g.latestPath record = some path)
    (hb : resolveBinding (some path) g.capacities false now = some (resource, snapshot)) :
    live.capacity = snapshot.snapshot ∧ live.capacityGeneration = snapshot.generation := by
  unfold buildAuthority at h
  simp only [hp, hb] at h
  rcases hv : makeValidity now g.config.classificationValidityTicks with e | validity
  · rw [hv] at h
    cases h
  rw [hv] at h
  cases h
  exact ⟨rfl, rfl⟩

/-- The snapshot behind an Elephant decision, and when it is fresh: exactly if every stale snapshot
that covers the path of the flow is beaten by a fresh one. -/
theorem elephant_snapshot_fresh_iff (hd : (g.evaluate record now).1 = .ok d)
    (hs : d.classification.state = .elephant) :
    ∃ path resource snapshot live, g.latestPath record = some path ∧
      g.capacities.find resource = some snapshot ∧
      -- the snapshot that the measurements of the decision are computed from
      (d.classification.measurements = (g.measure record).measurements ∨
        d.classification = record.classification ∧
          d.classification.measurements.digest = (g.measure record).measurements.digest) ∧
      (g.measure record).measurements.bindingResource = resource ∧
      (g.measure record).measurements.shareOfCapacity =
        toBasisPoints (g.measure record).measurements.sustainedRate snapshot.capacity ∧
      (g.measure record).measurements.shareOfAvailable =
        shareOf (g.measure record).measurements.sustainedRate (availability snapshot) ∧
      -- and that its authority vector names
      g.buildAuthority record now = .ok live ∧
      d.classification.authorityVector.compare live = .matched ∧
      live.capacity = snapshot.snapshot ∧ live.capacityGeneration = snapshot.generation ∧
      (isFresh snapshot.validity now = true ↔ FreshFirst path g.capacities now) := by
  obtain ⟨-, -, hcap⟩ := of_verdict_elephant (verdict_of_decision hd hs)
  obtain ⟨path, resource, snapshot, hpath, hbinding, hresource, hshare, havailable⟩ :=
    measure_of_capacity now hcap
  obtain ⟨live, hlive, hmatch⟩ := authority_of_decision hd hs
  obtain ⟨hsnapshot, hgeneration⟩ := buildAuthority_capacity hlive hpath hbinding
  have hfind : g.capacities.find resource = some snapshot := (mem_resolveBinding hbinding).2
  refine ⟨path, resource, snapshot, live, hpath, hfind, ?_, hresource, hshare, havailable, hlive,
    hmatch, hsnapshot, hgeneration, isFresh_resolveBinding_iff hbinding⟩
  rcases decision_cases hd with ⟨hu, heq⟩ | ⟨c, h, hc, heq⟩
  · refine .inr ⟨heq, ?_⟩
    rw [heq, (of_unchanged hu).2.2, candidate_measurements]
  · refine .inl ?_
    rw [heq]
    exact hc.measurements

namespace Scenario

/-- The snapshot of the first resource, but only valid until tick 15. -/
def expiring : ResourceCapacity := { capacity with validity := ⟨0, 15⟩ }

/-- A second resource with more capacity. -/
def ample : ResourceCapacity := { capacity with resource := ⟨2⟩, capacity := 2000 }

/-- The governor of the small run, over a path with both resources. -/
def mixed : Governor := ((make {}).setIncarnation boot).run
  [.submitPolicy policy, .submitCapacity expiring, .submitCapacity ample,
    .submitPath { path with resources := [⟨1⟩, ⟨2⟩] }, .submitEvidence sample]

theorem reachable_mixed : Reachable {} mixed := by
  refine reachable_incarnation.run ?_
  simp [Admits]

end Scenario

open Scenario

/-- At tick 20 the flow is answered to be an Elephant on the snapshot that expired at tick 15. -/
theorem elephant_snapshot_stale : ∃ (g : Governor) (record : FlowRecord) (d : FlowDecision)
    (snapshot : ResourceCapacity), Reachable {} g ∧
      g.flows[flowKey]? = some record ∧ (g.evaluate record 20).1 = .ok d ∧
      d.classification.state = .elephant ∧
      g.capacities.find d.classification.measurements.bindingResource = some snapshot ∧
      isFresh snapshot.validity 20 = false := by
  obtain ⟨record, hrecord, d, hd, hel, snapshot, hfind, hstale⟩ : ∃ record,
      mixed.flows[flowKey]? = some record ∧ ∃ d, (mixed.evaluate record 20).1 = .ok d ∧
      d.classification.state = .elephant ∧ ∃ c,
        mixed.capacities.find d.classification.measurements.bindingResource = some c ∧
        isFresh c.validity 20 = false := by decide +kernel
  exact ⟨mixed, record, d, snapshot, reachable_mixed, hrecord, hd, hel, hfind, hstale⟩

/-- On a single fresh resource the decision of the small run rests on a fresh snapshot. -/
theorem elephant_snapshot_fresh_scenario : ∃ (record : FlowRecord) (d : FlowDecision)
    (snapshot : ResourceCapacity), governor.flows[flowKey]? = some record ∧
      (governor.evaluate record 20).1 = .ok d ∧
      governor.capacities.find (governor.measure record).measurements.bindingResource
        = some snapshot ∧ isFresh snapshot.validity 20 = true := by
  obtain ⟨record, hrecord, d, hd, hel, path, hpath, hall⟩ : ∃ record,
      governor.flows[flowKey]? = some record ∧ ∃ d, (governor.evaluate record 20).1 = .ok d ∧
      d.classification.state = .elephant ∧ ∃ path, governor.latestPath record = some path ∧
        ∀ x ∈ coverings path governor.capacities, isFresh x.2.validity 20 = true := by
    decide +kernel
  obtain ⟨path', resource, snapshot, -, hpath', hfind, -, hresource, -, -, -, -, -, -, hiff⟩ :=
    elephant_snapshot_fresh_iff hd hel
  rw [hpath] at hpath'
  cases hpath'
  have hfirst : FreshFirst path governor.capacities 20 := by
    intro x hx hstale
    rw [hall x hx] at hstale
    cases hstale
  exact ⟨record, d, snapshot, hrecord, hd, by rw [hresource]; exact hfind, hiff.mpr hfirst⟩

end Governor

end EFG
