/-
# One run under two incarnations

A governor stamps its boot identity on the authority vectors of its
classifications.  Apart from the stamps, the digests over them, the intents and
the counters, two governors that take the same inputs under two boot identities
stay the same: `Twin` is kept by every input (`Twin.take`).  In particular the
policy, the tables, the tracked flows and their ledgers do not depend on the
incarnation.
-/
import ElephantFlow.DurableRuns

namespace EFG

open Fallible

open Std

namespace Governor

variable {g g' : Governor} {record : FlowRecord} {key : FlowKey} {now : Tick} {boot : BootIdentity}
  {v : AuthorityVector} {acc acc' : DecisionBatch × Governor}

/-! ## Stamps -/

/-- The stamps of an incarnation on a classification, with the digest over them. -/
structure Mark where
  boot : BootId := {}
  epoch : EpochId := {}
  digest : UInt64 := 0

/-- The authority vector with other stamps. -/
def stampVector (m : Mark) (v : AuthorityVector) : AuthorityVector :=
  { v with boot := m.boot, epoch := m.epoch }

/-- The classification with other stamps. -/
def stampClassification (m : Mark) (c : FlowClassification) : FlowClassification :=
  { c with authorityVector := stampVector m c.authorityVector, digest := m.digest }

/-- The record with other stamps. -/
def marked (m : Mark) (r : FlowRecord) : FlowRecord :=
  { r with classification := stampClassification m r.classification }

/-- The classification of the record carries the stamps of the incarnation. -/
def Stamped (boot : BootIdentity) (r : FlowRecord) : Prop :=
  r.hasClassification = true → r.classification.authorityVector.boot = boot.boot ∧
    r.classification.authorityVector.epoch = boot.epoch

/-- The governor under another boot identity, with other intents and counters. -/
def rehosted (g : Governor) (boot : BootIdentity) (intents : IntentLedger)
    (counters : GovernorCounters) : Governor :=
  { g with boot := boot, intents := intents, counters := counters }

theorem compare_stampVector (m : Mark) {live : AuthorityVector} (hboot : live.boot = v.boot)
    (hepoch : live.epoch = v.epoch) :
    (stampVector m v).compare (stampVector m live) = v.compare live := by
  unfold AuthorityVector.compare AuthorityVector.binds stampVector
  simp [hboot, hepoch]

theorem stampVector_sampleAuthority (m : Mark) (v : AuthorityVector) (latest : Option FlowSample) :
    sampleAuthority (stampVector m v) latest = stampVector m (sampleAuthority v latest) := by
  cases latest with
  | none => rfl
  | some s => rfl

theorem stampVector_policyAuthority (m : Mark) (v : AuthorityVector) (policy : Option PolicyDocument) :
    policyAuthority (stampVector m v) policy = stampVector m (policyAuthority v policy) := by
  cases policy with
  | none => rfl
  | some p => rfl

theorem stampVector_capacityAuthority (m : Mark) (v : AuthorityVector)
    (binding : Option (ResourceId × ResourceCapacity)) :
    capacityAuthority (stampVector m v) binding = stampVector m (capacityAuthority v binding) := by
  cases binding with
  | none => rfl
  | some b => rfl

theorem buildAuthority_rehosted (g : Governor) (record : FlowRecord) (now : Tick) (m : Mark)
    (boot : BootIdentity) (intents : IntentLedger) (counters : GovernorCounters) (d : UInt64) :
    (g.rehosted boot intents counters).buildAuthority (marked m record) now =
      (g.buildAuthority record now).map (stampVector ⟨boot.boot, boot.epoch, d⟩) := by
  have hvalidity : ∀ (m : Mark) (v v' : AuthorityVector) (validity : ValidityWindow), v' = stampVector m v →
      (Except.ok { v' with validity := validity } : Except Status AuthorityVector) =
        .ok (stampVector m { v with validity := validity }) := by
    rintro m v _ validity rfl
    rfl
  unfold buildAuthority
  simp only
  have hv : makeValidity now (g.rehosted boot intents counters).config.classificationValidityTicks =
      makeValidity now g.config.classificationValidityTicks := rfl
  rw [hv]
  rcases makeValidity now g.config.classificationValidityTicks with e | validity
  · rfl
  · apply hvalidity
    rw [← stampVector_capacityAuthority, ← stampVector_policyAuthority, ← stampVector_sampleAuthority]
    rfl

/-- The live authority vector carries the stamps of the governor. -/
theorem buildAuthority_stamps (h : g.buildAuthority record now = .ok v) :
    v.boot = g.boot.boot ∧ v.epoch = g.boot.epoch := by
  have hself : stampVector ⟨g.boot.boot, g.boot.epoch, 0⟩ v = v := by
    have hsame := buildAuthority_rehosted g record now
      ⟨record.classification.authorityVector.boot, record.classification.authorityVector.epoch,
        record.classification.digest⟩ g.boot g.intents g.counters 0
    rw [h] at hsame
    exact (Except.ok.inj (h.symm.trans hsame)).symm
  exact ⟨congrArg AuthorityVector.boot hself.symm, congrArg AuthorityVector.epoch hself.symm⟩

/-! ## Decisions do not depend on the incarnation -/

section Rehosted

variable {m : Mark} {boot : BootIdentity} (intents : IntentLedger) (counters : GovernorCounters)
  (now : Tick) (hown : Stamped g.boot record) (hmark : Stamped boot (marked m record))
include hown hmark

theorem authoritySuspension_rehosted :
    (g.rehosted boot intents counters).authoritySuspension (marked m record) now =
      g.authoritySuspension record now := by
  have he : (marked m record).isElephant = record.isElephant := rfl
  unfold authoritySuspension
  rw [he, buildAuthority_rehosted g record now m boot intents counters m.digest]
  by_cases helephant : record.isElephant = true
  · have hclassified : record.hasClassification = true := by
      unfold FlowRecord.isElephant at helephant
      exact (Bool.and_eq_true _ _ ▸ helephant).1
    rw [if_pos helephant, if_pos helephant]
    rcases hlive : g.buildAuthority record now with e | live
    · rfl
    · -- both vectors carry the stamps of the governor that compares them
      obtain ⟨hboot, hepoch⟩ := buildAuthority_stamps hlive
      obtain ⟨hrboot, hrepoch⟩ := hown hclassified
      obtain ⟨hmboot, hmepoch⟩ := hmark hclassified
      have hm : m = ⟨boot.boot, boot.epoch, m.digest⟩ := by
        rw [show boot.boot = m.boot from hmboot.symm, show boot.epoch = m.epoch from hmepoch.symm]
      have hcompare := compare_stampVector ⟨boot.boot, boot.epoch, m.digest⟩
        (hboot.trans hrboot.symm) (hepoch.trans hrepoch.symm)
      have hvector : (marked m record).classification.authorityVector =
          stampVector ⟨boot.boot, boot.epoch, m.digest⟩ record.classification.authorityVector := by
        rw [← hm]
        rfl
      simp only [Except.map]
      rw [hvector, hcompare]
  · rw [if_neg helephant, if_neg helephant]

theorem suspensionReasons_rehosted :
    (g.rehosted boot intents counters).suspensionReasons (marked m record) now =
      g.suspensionReasons record now := by
  unfold suspensionReasons
  rw [authoritySuspension_rehosted intents counters now hown hmark]
  rfl

theorem sweeps_rehosted :
    (g.rehosted boot intents counters).sweeps (marked m record) now = g.sweeps record now := by
  unfold sweeps
  rw [suspensionReasons_rehosted intents counters now hown hmark]
  rfl

theorem candidate_rehosted :
    (g.rehosted boot intents counters).candidate (marked m record) now = g.candidate record now := by
  have hsuspend := suspensionReasons_rehosted intents counters now hown hmark
  have hverdict : (g.rehosted boot intents counters).verdict (marked m record) now =
      g.verdict record now := by
    unfold verdict
    rw [hsuspend]
    rfl
  have htrace : (g.rehosted boot intents counters).decisionTrace (marked m record) now =
      g.decisionTrace record now := by
    unfold decisionTrace
    rw [hsuspend]
    rfl
  unfold candidate
  rw [hsuspend, hverdict, htrace]
  rfl

end Rehosted

/-! ## The commit under another incarnation -/

theorem unbindable_marked (m : Mark) (record : FlowRecord) :
    (¬ (marked m record).hasClassification ∨
      ¬ (marked m record).classification.measurements.capacityKnown) =
    (¬ record.hasClassification ∨ ¬ record.classification.measurements.capacityKnown) := rfl

theorem updateIndex_rehosted (g : Governor) (key : FlowKey) (record : FlowRecord) (m : Mark)
    (boot : BootIdentity) (intents : IntentLedger) (counters : GovernorCounters) :
    ((g.rehosted boot intents counters).updateIndex key (marked m record)).1 =
      (g.updateIndex key record).1.rehosted boot intents counters := by
  have hunbind : (if record.bound then
        (g.rehosted boot intents counters).unbind key record.boundResource
      else g.rehosted boot intents counters) =
      (if record.bound then g.unbind key record.boundResource else g).rehosted boot intents
        counters := by
    split_ifs
    · unfold unbind
      have hi : (g.rehosted boot intents counters).bindingIndex = g.bindingIndex := rfl
      rw [hi]
      cases g.bindingIndex[record.boundResource]? with
      | none => rfl
      | some entries =>
        simp only
        cases entries[key]? with
        | none => rfl
        | some entry => rfl
    · rfl
  have hb : (marked m record).bound = record.bound := rfl
  have hr : (marked m record).boundResource = record.boundResource := rfl
  unfold updateIndex
  rw [hb, hr, hunbind]
  simp only
  by_cases hc : ¬ record.hasClassification ∨ ¬ record.classification.measurements.capacityKnown
  · rw [if_pos hc, if_pos ((unbindable_marked m record).mpr hc)]
  · rw [if_neg hc, if_neg (mt (unbindable_marked m record).mp hc)]
    rfl

theorem rebound_marked (m : Mark) (record : FlowRecord) :
    rebound (marked m record) = marked m (rebound record) := by
  unfold rebound
  by_cases hc : ¬ record.hasClassification ∨ ¬ record.classification.measurements.capacityKnown
  · rw [if_pos hc, if_pos ((unbindable_marked m record).mpr hc)]
    rfl
  · rw [if_neg hc, if_neg (mt (unbindable_marked m record).mp hc)]
    rfl

theorem commit_index (g : Governor) (record : FlowRecord) (c : FlowClassification)
    (h : ClassificationHistory) (now : Tick) : ∃ intents counters,
    (g.commit record c h now).2.1 =
      ((g.updateIndex ⟨c.flow, c.flowGeneration⟩
        (committedRecord record (stamped c h) h now)).1.advance now).rehosted g.boot intents
          counters := by
  obtain ⟨counters₁, hrevoke⟩ := revokeSuspended_eq (g.count (countCommit record (stamped c h)))
    (stamped c h)
  have hsettle : (g.settle record (stamped c h) h now).1 =
      ((g.updateIndex ⟨c.flow, c.flowGeneration⟩
        (committedRecord record (stamped c h) h now)).1.advance now).rehosted g.boot
          (intentsAfter g.intents (stamped c h)) counters₁ := by
    have hindex := updateIndex_rehosted g ⟨c.flow, c.flowGeneration⟩
      (committedRecord record (stamped c h) h now)
      ⟨(stamped c h).authorityVector.boot, (stamped c h).authorityVector.epoch, (stamped c h).digest⟩
      g.boot (intentsAfter g.intents (stamped c h)) counters₁
    unfold settle
    rw [hrevoke]
    exact congrArg (Governor.advance · now) hindex
  obtain ⟨intents, counters, hp⟩ := produceIntents_snd (g.settle record (stamped c h) h now).1
    (rebound (committedRecord record (stamped c h) h now)) now
  refine ⟨intents, counters, ?_⟩
  rw [commit_snd_fst, hp, hsettle]
  rfl

theorem commit_rehosted (g : Governor) (record : FlowRecord) (c : FlowClassification)
    (h : ClassificationHistory) (now : Tick) (m m' : Mark) (boot : BootIdentity)
    (intents : IntentLedger) (counters : GovernorCounters) : ∃ m'' intents' counters',
    m''.boot = m'.boot ∧ m''.epoch = m'.epoch ∧
    ((g.rehosted boot intents counters).commit (marked m record)
      { c with authorityVector := stampVector m' c.authorityVector } h now).2 =
      ((g.commit record c h now).2.1.rehosted boot intents' counters',
        marked m'' (g.commit record c h now).2.2) := by
  -- the digest is taken over the stamps: the two classifications have two digests
  have hstamped : ∀ c : FlowClassification, ∃ d,
      stamped c h = { c with historyDigest := h.digest, digest := d } := fun c => ⟨_, rfl⟩
  have hrecord : ∃ d, committedRecord (marked m record)
      (stamped { c with authorityVector := stampVector m' c.authorityVector } h) h now =
      marked ⟨m'.boot, m'.epoch, d⟩ (committedRecord record (stamped c h) h now) := by
    obtain ⟨d, hd⟩ := hstamped c
    obtain ⟨d', hd'⟩ := hstamped { c with authorityVector := stampVector m' c.authorityVector }
    rw [hd, hd']
    exact ⟨d', rfl⟩
  obtain ⟨d, hrecord⟩ := hrecord
  obtain ⟨intents₁, counters₁, hg⟩ := commit_index g record c h now
  obtain ⟨intents₂, counters₂, hg'⟩ := commit_index (g.rehosted boot intents counters)
    (marked m record) { c with authorityVector := stampVector m' c.authorityVector } h now
  refine ⟨⟨m'.boot, m'.epoch, d⟩, intents₂, counters₂, rfl, rfl, Prod.ext ?_ ?_⟩
  · rw [hg', hg, hrecord, updateIndex_rehosted]
    rfl
  · rw [commit_snd_snd, commit_snd_snd, hrecord, rebound_marked]

variable {m : Mark}

theorem evaluate_rehosted (intents : IntentLedger) (counters : GovernorCounters) (now : Tick)
    (hown : Stamped g.boot record) (hmark : Stamped boot (marked m record)) :
    ∃ m' intents' counters', Stamped g.boot (g.evaluate record now).2.2 ∧
      Stamped boot (marked m' (g.evaluate record now).2.2) ∧
      ((g.rehosted boot intents counters).evaluate (marked m record) now).2 =
        ((g.evaluate record now).2.1.rehosted boot intents' counters',
          marked m' (g.evaluate record now).2.2) := by
  have hc := candidate_rehosted intents counters now hown hmark
  have hb := buildAuthority_rehosted g record now m boot intents counters 0
  have hu : ∀ c, unchanged (marked m record) c = unchanged record c := fun _ => rfl
  have hn : ∀ c, nextGeneration (marked m record) c = nextGeneration record c := fun _ => rfl
  have hq : (g.rehosted boot intents counters).classificationSequence =
    g.classificationSequence := rfl
  have hh : (marked m record).history = record.history := rfl
  unfold evaluate
  simp only [hc, hb, hu, hn, hq, hh]
  by_cases hstale : record.hasClassification = true ∧ now < record.evaluatedTick
  · have hstale' : (marked m record).hasClassification = true ∧
      now < (marked m record).evaluatedTick := hstale
    rw [if_pos hstale, if_pos hstale']
    exact ⟨m, _, _, hown, hmark, rfl⟩
  have hstale' : ¬ ((marked m record).hasClassification = true ∧
    now < (marked m record).evaluatedTick) := hstale
  rw [if_neg hstale, if_neg hstale']
  by_cases hsame : unchanged record (g.candidate record now) = true
  · simp only [if_pos hsame]
    exact ⟨m, _, _, hown, hmark, rfl⟩
  simp only [if_neg hsame]
  rcases hlive : g.buildAuthority record now with e | authority
  · exact ⟨m, _, _, hown, hmark, rfl⟩
  simp only [Except.map]
  rcases nextGeneration record (g.candidate record now) with e | generation
  · exact ⟨m, _, _, hown, hmark, rfl⟩
  by_cases hroom : g.classificationSequence = u64Max
  · simp only [if_pos hroom]
    exact ⟨m, _, _, hown, hmark, rfl⟩
  simp only [if_neg hroom]
  have ht : transitionOf (marked m record) (identified (g.candidate record now)
        (stampVector ⟨boot.boot, boot.epoch, 0⟩ authority) generation
        ⟨g.classificationSequence + 1⟩) now =
      transitionOf record (identified (g.candidate record now) authority generation
        ⟨g.classificationSequence + 1⟩) now := rfl
  rw [ht]
  rcases record.history.record _ with e | h
  · exact ⟨m, _, _, hown, hmark, rfl⟩
  · obtain ⟨m', intents', counters', hboot, hepoch, hcommit⟩ := commit_rehosted
      { g with classificationSequence := g.classificationSequence + 1 } record
      (identified (g.candidate record now) authority generation ⟨g.classificationSequence + 1⟩) h now
      m ⟨boot.boot, boot.epoch, 0⟩ boot intents counters
    refine ⟨m', intents', counters', ?_, ?_, hcommit⟩
    · intro _
      rw [commit_snd_snd, rebound_classification]
      obtain ⟨hboot, hepoch⟩ := buildAuthority_stamps hlive
      exact ⟨hboot, hepoch⟩
    · intro _
      exact ⟨hboot, hepoch⟩

/-! ## Twins -/

/-- The flow map with other stamps on each record. -/
def markedFlows (marks : FlowKey → Mark) (flows : ExtTreeMap FlowKey FlowRecord) :
    ExtTreeMap FlowKey FlowRecord :=
  flows.map fun key r => marked (marks key) r

/-- The second governor is the first under another incarnation: the records carry the stamps of that
one, and intents and counters are its own. -/
def Twin (g g' : Governor) : Prop :=
  ∃ boot marks intents counters,
    g' = (g.rehosted boot intents counters).withFlows (markedFlows marks g.flows) ∧
    ∀ (key : FlowKey) (r : FlowRecord), g.flows[key]? = some r →
      Stamped g.boot r ∧ Stamped boot (marked (marks key) r)

section

variable (marks : FlowKey → Mark) (flows : ExtTreeMap FlowKey FlowRecord) (key : FlowKey)
  (m : Mark) (r : FlowRecord)

theorem getElem?_markedFlows :
    (markedFlows marks flows)[key]? = flows[key]?.map (marked (marks key)) := by
  unfold markedFlows
  rw [ExtTreeMap.getElem?_map]

theorem keys_markedFlows : (markedFlows marks flows).keys = flows.keys := by
  unfold markedFlows
  rw [ExtTreeMap.keys_map]

/-- A record that is written back takes its mark along. -/
theorem insert_markedFlows :
    (markedFlows marks flows).insert key (marked m r) =
      markedFlows (Function.update marks key m) (flows.insert key r) := by
  ext k : 1
  rw [getElem?_markedFlows, ExtTreeMap.getElem?_insert, ExtTreeMap.getElem?_insert]
  by_cases hk : compare key k = .eq
  · have : key = k := LawfulEqOrd.eq_of_compare hk
    subst this
    rw [if_pos hk, if_pos hk, Function.update_self]
    rfl
  · have hne : k ≠ key := fun h => hk (h ▸ ReflCmp.compare_self)
    rw [if_neg hk, if_neg hk, Function.update_of_ne hne, getElem?_markedFlows]

theorem erase_markedFlows :
    (markedFlows marks flows).erase key = markedFlows marks (flows.erase key) := by
  ext k : 1
  rw [getElem?_markedFlows, ExtTreeMap.getElem?_erase, ExtTreeMap.getElem?_erase,
    getElem?_markedFlows]
  split_ifs
  · rfl
  · rfl

end

theorem twin_make (config : GovernorConfig) (boot boot' : BootIdentity) :
    Twin ((make config).setIncarnation boot) ((make config).setIncarnation boot') := by
  refine ⟨boot', fun _ => {}, (make config).intents, {}, ?_, ?_⟩
  · rfl
  · intro key r hr
    exact of_getElem?_empty hr

/-- What twins have in common. -/
structure Recovers (g g' : Governor) : Prop where
  policy : g'.policy = g.policy
  capacities : g'.capacities = g.capacities
  paths : g'.paths = g.paths
  ledgers : ∀ key : FlowKey,
    g'.flows[key]?.map FlowRecord.ledger = g.flows[key]?.map FlowRecord.ledger

theorem Twin.recovers (h : Twin g g') : Recovers g g' := by
  obtain ⟨boot, marks, intents, counters, rfl, -⟩ := h
  refine ⟨rfl, rfl, rfl, fun key => ?_⟩
  show (markedFlows marks g.flows)[key]?.map FlowRecord.ledger = _
  rw [getElem?_markedFlows, Option.map_map]
  rfl

theorem Twin.find (h : Twin g g') (key : FlowKey) :
    (g.flows[key]? = none ∧ g'.flows[key]? = none) ∨
    ∃ m r, g.flows[key]? = some r ∧ g'.flows[key]? = some (marked m r) ∧ Stamped g.boot r ∧
      Stamped g'.boot (marked m r) := by
  obtain ⟨boot, marks, intents, counters, rfl, hstamped⟩ := h
  have hfind : ((g.rehosted boot intents counters).withFlows (markedFlows marks g.flows)).flows[key]? =
      g.flows[key]?.map (marked (marks key)) := getElem?_markedFlows marks g.flows key
  rcases hr : g.flows[key]? with _ | r
  · rw [hr] at hfind
    exact .inl ⟨rfl, hfind⟩
  · rw [hr] at hfind
    exact .inr ⟨marks key, r, rfl, hfind, hstamped key r hr⟩

theorem Twin.count (h : Twin g g') (f f' : GovernorCounters → GovernorCounters) :
    Twin (g.count f) (g'.count f') := by
  obtain ⟨boot, marks, intents, counters, rfl, hstamped⟩ := h
  exact ⟨boot, marks, _, _, rfl, hstamped⟩

theorem Twin.withIntents (h : Twin g g') (l l' : IntentLedger) :
    Twin { g with intents := l } { g' with intents := l' } := by
  obtain ⟨boot, marks, intents, counters, rfl, hstamped⟩ := h
  exact ⟨boot, marks, _, _, rfl, hstamped⟩

theorem Twin.advance (h : Twin g g') (now : Tick) : Twin (g.advance now) (g'.advance now) := by
  obtain ⟨boot, marks, intents, counters, rfl, hstamped⟩ := h
  exact ⟨boot, marks, _, _, rfl, hstamped⟩

theorem Twin.setFlow (h : Twin g g') (key : FlowKey) (record : FlowRecord)
    (hr : Stamped g.boot record) (hm : Stamped g'.boot (marked m record)) :
    Twin (g.setFlow key record) (g'.setFlow key (marked m record)) := by
  obtain ⟨boot, marks, intents, counters, rfl, hstamped⟩ := h
  refine ⟨boot, Function.update marks key m, intents, counters, ?_, ?_⟩
  · show ((g.rehosted boot intents counters).withFlows
      ((markedFlows marks g.flows).insert key (marked m record))) = _
    rw [insert_markedFlows]
    rfl
  · intro k x hx
    rw [getElem?_setFlow] at hx
    by_cases hk : key = k
    · subst hk
      rw [if_pos rfl] at hx
      cases hx
      rw [Function.update_self]
      exact ⟨hr, hm⟩
    · rw [if_neg hk] at hx
      rw [Function.update_of_ne (Ne.symm hk)]
      exact hstamped k x hx

theorem Twin.evaluateFlow (h : Twin g g') (key : FlowKey) (record : FlowRecord) (now : Tick)
    (hr : Stamped g.boot record) (hm : Stamped g'.boot (marked m record)) :
    Twin (g.evaluateFlow key record now).2 (g'.evaluateFlow key (marked m record) now).2 := by
  obtain ⟨boot, marks, intents, counters, rfl, hstamped⟩ := h
  have hm' : Stamped boot (marked m record) := hm
  obtain ⟨m', intents', counters', hown, hmark, heq⟩ :=
    evaluate_rehosted intents counters now hr hm'
  have hinputs := sameInputs_evaluate g record now
  have htwin : Twin (g.evaluate record now).2.1
      (((g.evaluate record now).2.1.rehosted boot intents' counters').withFlows
        (markedFlows marks g.flows)) := by
    refine ⟨boot, marks, intents', counters', ?_, ?_⟩
    · rw [hinputs.flows]
    · rw [hinputs.flows, hinputs.boot]
      exact hstamped
  have hset := htwin.setFlow (m := m') key (g.evaluate record now).2.2
    (by rw [hinputs.boot]; exact hown) hmark
  have hevaluate := evaluate_withFlows (markedFlows marks g.flows)
    (g.rehosted boot intents counters) (marked m record) now
  unfold Governor.evaluateFlow
  simp only
  rw [hevaluate]
  simp only
  rw [heq]
  exact hset

/-! ## Inputs of twins -/

theorem Twin.updateIndex (h : Twin g g') (key : FlowKey) (m : Mark) (record : FlowRecord) :
    Twin (g.updateIndex key record).1 (g'.updateIndex key (marked m record)).1 := by
  obtain ⟨boot, marks, intents, counters, rfl, hstamped⟩ := h
  have hinputs := sameInputs_updateIndex g key record
  rw [updateIndex_withFlows]
  simp only
  rw [updateIndex_rehosted]
  refine ⟨boot, marks, intents, counters, ?_, ?_⟩
  · rw [hinputs.flows]
  · rw [hinputs.flows, hinputs.boot]
    exact hstamped

theorem invalidateRecord_eq (g : Governor) (now : Tick) (reason : ReasonCode) (key : FlowKey)
    (r : FlowRecord) : g.invalidateRecord now reason key r =
      if r.hasClassification = false then (.ok (), g)
      else if r.classification.state = .elephant then
        match r.history.record (withdrawal now reason r) with
        | .error e => (.error e, g)
        | .ok h => (.ok (), g.withdrawn reason key r h)
      else (.ok (), g.setFlow key (clearedRecord reason r)) := by
  rcases invalidateRecord_cases g now reason key r with
    ⟨hc, heq⟩ | ⟨hc, hs, heq⟩ | ⟨hel, e, he, heq⟩ | ⟨hel, h, hh, heq⟩
  · rw [heq, if_pos hc]
  · rw [heq, if_neg (by simp [hc]), if_neg hs]
  · simp only [FlowRecord.isElephant, Bool.and_eq_true, decide_eq_true_eq] at hel
    rw [heq, if_neg (by simp [hel.1]), if_pos hel.2, he]
  · simp only [FlowRecord.isElephant, Bool.and_eq_true, decide_eq_true_eq] at hel
    rw [heq, if_neg (by simp [hel.1]), if_pos hel.2, hh]

theorem Twin.withdrawn (h : Twin g g') (reason : ReasonCode) (key : FlowKey)
    (hist : ClassificationHistory) (hr : Stamped g.boot record)
    (hm : Stamped g'.boot (marked m record)) :
    Twin (g.withdrawn reason key record hist) (g'.withdrawn reason key (marked m record) hist) := by
  have hindex := (h.count countWithdrawal countWithdrawal).updateIndex key m
    (suspendedRecord reason record hist)
  have hboot : ((g.count countWithdrawal).updateIndex key (suspendedRecord reason record hist)).1.boot =
      g.boot := (sameInputs_updateIndex _ _ _).boot
  have hboot' : ((g'.count countWithdrawal).updateIndex key
      (marked m (suspendedRecord reason record hist))).1.boot = g'.boot :=
    (sameInputs_updateIndex _ _ _).boot
  have hset := hindex.setFlow (m := m) key (rebound (suspendedRecord reason record hist))
    (fun hc => by
      rw [rebound_hasClassification] at hc
      rw [hboot, rebound_classification]
      exact hr hc)
    (fun hc => by
      rw [← rebound_marked, rebound_hasClassification] at hc
      rw [hboot', ← rebound_marked, rebound_classification]
      exact hm hc)
  rw [← rebound_marked] at hset
  exact hset

theorem Twin.invalidateFlow (h : Twin g g') (now : Tick) (reason : ReasonCode) (key : FlowKey) :
    (invalidateFlow now reason key g').1 = (invalidateFlow now reason key g).1 ∧
      Twin (invalidateFlow now reason key g).2 (invalidateFlow now reason key g').2 := by
  unfold Governor.invalidateFlow
  rcases h.find key with ⟨hr, hr'⟩ | ⟨m, r, hr, hr', hown, hmark⟩
  · rw [hr, hr']
    exact ⟨rfl, h⟩
  rw [hr, hr']
  simp only
  rw [invalidateRecord_eq, invalidateRecord_eq]
  have hhas : (marked m r).hasClassification = r.hasClassification := rfl
  have hstate : (marked m r).classification.state = r.classification.state := rfl
  have hhistory : (marked m r).history.record (withdrawal now reason (marked m r)) =
    r.history.record (withdrawal now reason r) := rfl
  rw [hhas, hstate, hhistory]
  split_ifs
  · exact ⟨rfl, h⟩
  · rcases r.history.record (withdrawal now reason r) with e | hist
    · exact ⟨rfl, h⟩
    · exact ⟨rfl, h.withdrawn reason key hist hown hmark⟩
  · exact ⟨rfl, h.setFlow key _ hown hmark⟩

theorem Twin.keys (h : Twin g g') : g'.flows.keys = g.flows.keys := by
  obtain ⟨boot, marks, intents, counters, rfl, -⟩ := h
  exact keys_markedFlows marks g.flows

theorem Twin.invalidateAllAuthority (h : Twin g g') (now : Tick) (reason : ReasonCode) :
    (g'.invalidateAllAuthority now reason).1 = (g.invalidateAllAuthority now reason).1 ∧
      Twin (g.invalidateAllAuthority now reason).2 (g'.invalidateAllAuthority now reason).2 := by
  have hloop : (forEach (Governor.invalidateFlow now reason) g.flows.keys g').1 =
        (forEach (Governor.invalidateFlow now reason) g.flows.keys g).1 ∧
      Twin (forEach (Governor.invalidateFlow now reason) g.flows.keys g).2
        (forEach (Governor.invalidateFlow now reason) g.flows.keys g').2 :=
    forEach_related (R := Twin) (fun key _ x x' hx => hx.invalidateFlow now reason key) h
  unfold Governor.invalidateAllAuthority
  rw [h.keys]
  generalize forEach (Governor.invalidateFlow now reason) g.flows.keys g = loop at hloop ⊢
  generalize forEach (Governor.invalidateFlow now reason) g.flows.keys g' = loop' at hloop ⊢
  obtain ⟨r, x⟩ := loop
  obtain ⟨r', x'⟩ := loop'
  obtain ⟨hr, hx⟩ := hloop
  simp only at hr hx
  subst hr
  cases r' with
  | error e => exact ⟨rfl, hx⟩
  | ok u =>
    obtain ⟨boot, marks, intents, counters, rfl, hstamped⟩ := hx
    exact ⟨rfl, boot, marks, _, _, rfl, hstamped⟩

theorem Twin.rejectPolicy (h : Twin g g') : Twin g.rejectPolicy g'.rejectPolicy := h.count _ _

theorem Twin.acceptPolicy (h : Twin g g') (p : PolicyDocument) :
    Twin (g.acceptPolicy p) (g'.acceptPolicy p) := by
  obtain ⟨boot, marks, intents, counters, rfl, hstamped⟩ := h
  exact ⟨boot, marks, _, _, rfl, hstamped⟩

theorem Twin.withRules (h : Twin g g') (rules : RuleSet) :
    Twin { g with exitRules := rules } { g' with exitRules := rules } := by
  obtain ⟨boot, marks, intents, counters, rfl, hstamped⟩ := h
  exact ⟨boot, marks, _, _, rfl, hstamped⟩

theorem Twin.lastTick (h : Twin g g') : g'.lastTick = g.lastTick := by
  obtain ⟨boot, marks, intents, counters, rfl, -⟩ := h
  rfl

theorem Twin.installPolicy (h : Twin g g') (p : PolicyDocument) :
    (g'.installPolicy p).1 = (g.installPolicy p).1 ∧
      Twin (g.installPolicy p).2 (g'.installPolicy p).2 := by
  unfold Governor.installPolicy
  rcases effectiveExitRule p with e | rules
  · exact ⟨rfl, h.rejectPolicy⟩
  · have hinstalled := (h.withRules rules).acceptPolicy p
    have hpolicy : g'.policy = g.policy := h.recovers.policy
    have htick : maxOf p.validity.issuedAt g'.lastTick = maxOf p.validity.issuedAt g.lastTick := by
      rw [h.lastTick]
    simp only
    by_cases hsome : g.policy.isSome = true
    · rw [if_pos hsome, if_pos (hpolicy ▸ hsome), htick]
      exact hinstalled.invalidateAllAuthority _ _
    · rw [if_neg hsome, if_neg (hpolicy ▸ hsome)]
      exact ⟨rfl, hinstalled⟩

theorem Twin.submitPolicy (h : Twin g g') (p : PolicyDocument) :
    (g'.submitPolicy p).1 = (g.submitPolicy p).1 ∧
      Twin (g.submitPolicy p).2 (g'.submitPolicy p).2 := by
  unfold Governor.submitPolicy
  rw [h.recovers.policy]
  rcases p.validate with e | ⟨⟩
  · exact ⟨rfl, h⟩
  rcases g.policy with _ | existing
  · exact h.installPolicy p
  simp only
  split_ifs
  · exact ⟨rfl, h.rejectPolicy⟩
  · exact ⟨rfl, h.rejectPolicy⟩
  · exact ⟨rfl, h.rejectPolicy⟩
  · exact ⟨rfl, h.acceptPolicy p⟩
  · exact h.installPolicy p

theorem Twin.submitCapacity (h : Twin g g') (c : ResourceCapacity) :
    (g'.submitCapacity c).1 = (g.submitCapacity c).1 ∧
      Twin (g.submitCapacity c).2 (g'.submitCapacity c).2 := by
  unfold Governor.submitCapacity
  rw [h.recovers.capacities]
  obtain ⟨boot, marks, intents, counters, rfl, hstamped⟩ := h
  rcases g.capacities.submit c with e | table
  · exact ⟨rfl, boot, marks, _, _, rfl, hstamped⟩
  · exact ⟨rfl, boot, marks, _, _, rfl, hstamped⟩

theorem Twin.submitPath (h : Twin g g') (p : PathDescriptor) :
    (g'.submitPath p).1 = (g.submitPath p).1 ∧ Twin (g.submitPath p).2 (g'.submitPath p).2 := by
  unfold Governor.submitPath
  rw [h.recovers.paths]
  obtain ⟨boot, marks, intents, counters, rfl, hstamped⟩ := h
  rcases g.paths.submit p with e | table
  · exact ⟨rfl, boot, marks, _, _, rfl, hstamped⟩
  · exact ⟨rfl, boot, marks, _, _, rfl, hstamped⟩

/-- The victim of an eviction is the one of the twin. -/
theorem victim_markedFlows (marks : FlowKey → Mark) (g : Governor) :
    (g.withFlows (markedFlows marks g.flows)).victim =
      g.victim.map fun e => (e.1, marked (marks e.1) e.2) := by
  have hstep : ∀ (v : Option (FlowKey × FlowRecord)) (e : FlowKey × FlowRecord),
      victimStep (v.map fun e => (e.1, marked (marks e.1) e.2)) (e.1, marked (marks e.1) e.2) =
        (victimStep v e).map fun e => (e.1, marked (marks e.1) e.2) := by
    intro v e
    unfold victimStep
    have hdone : (marked (marks e.1) e.2).ledger.completed = e.2.ledger.completed := rfl
    have htick : (marked (marks e.1) e.2).completedTick = e.2.completedTick := rfl
    simp only [hdone, htick]
    by_cases hc : ¬ e.2.ledger.completed
    · rw [if_pos hc, if_pos hc]
    rw [if_neg hc, if_neg hc]
    cases v with
    | none => rfl
    | some w =>
      have hw : (marked (marks w.1) w.2).completedTick = w.2.completedTick := rfl
      simp only [Option.map_some, hw]
      split_ifs
      · rfl
      · rfl
  -- the search runs over the two lists of entries in step
  have hfold : ∀ (l : List (FlowKey × FlowRecord)) (v : Option (FlowKey × FlowRecord)),
      (l.map fun e => (e.1, marked (marks e.1) e.2)).foldl victimStep
          (v.map fun e => (e.1, marked (marks e.1) e.2)) =
        (l.foldl victimStep v).map fun e => (e.1, marked (marks e.1) e.2) := by
    intro l
    induction l with
    | nil => exact fun _ => rfl
    | cons e l ih =>
      intro v
      rw [List.map_cons, List.foldl_cons, List.foldl_cons, hstep]
      exact ih _
  have hlist : (markedFlows marks g.flows).toList =
      g.flows.toList.map fun e => (e.1, marked (marks e.1) e.2) := by
    unfold markedFlows
    rw [ExtTreeMap.toList_map]
  show (markedFlows marks g.flows).toList.foldl victimStep none = _
  rw [hlist]
  exact hfold g.flows.toList none

theorem Twin.dropFlow (h : Twin g g') (key : FlowKey) (m : Mark) (record : FlowRecord) :
    Twin (g.dropFlow key record) (g'.dropFlow key (marked m record)) := by
  obtain ⟨boot, marks, intents, counters, heq, hstamped⟩ := h.updateIndex key m record
  refine ⟨boot, marks, intents, counters, ?_, ?_⟩
  · unfold Governor.dropFlow
    rw [heq]
    show ((g.updateIndex key record).1.rehosted boot intents counters).withFlows
      ((markedFlows marks (g.updateIndex key record).1.flows).erase key) = _
    rw [erase_markedFlows]
    rfl
  · intro k x hx
    have hx' : ((g.updateIndex key record).1.flows.erase key)[k]? = some x := hx
    rw [ExtTreeMap.getElem?_erase] at hx'
    by_cases hk : compare key k = .eq
    · rw [if_pos hk] at hx'
      cases hx'
    · rw [if_neg hk] at hx'
      exact hstamped k x hx'

theorem Twin.ensureFlowCapacity (h : Twin g g') :
    g'.ensureFlowCapacity.1 = g.ensureFlowCapacity.1 ∧
      Twin g.ensureFlowCapacity.2 g'.ensureFlowCapacity.2 := by
  have hsize : g'.flows.size = g.flows.size := by
    obtain ⟨boot, marks, intents, counters, rfl, -⟩ := h
    exact ExtTreeMap.size_map
  have hconfig : g'.config = g.config := by
    obtain ⟨boot, marks, intents, counters, rfl, -⟩ := h
    rfl
  have hvictim : (g.victim = none ∧ g'.victim = none) ∨ ∃ key m r, g.victim = some (key, r) ∧
      g'.victim = some (key, marked m r) := by
    obtain ⟨boot, marks, intents, counters, rfl, -⟩ := h
    have hv := victim_markedFlows marks (g.rehosted boot intents counters)
    have hg : (g.rehosted boot intents counters).victim = g.victim := rfl
    rw [hg] at hv
    rcases hr : g.victim with _ | ⟨key, r⟩
    · rw [hr] at hv
      exact .inl ⟨rfl, hv⟩
    · rw [hr] at hv
      exact .inr ⟨key, marks key, r, rfl, hv⟩
  unfold Governor.ensureFlowCapacity evictOneCompletedFlow
  rw [hsize, hconfig]
  by_cases hroom : g.flows.size < g.config.maxFlows
  · rw [if_pos hroom, if_pos hroom]
    exact ⟨rfl, h⟩
  rw [if_neg hroom, if_neg hroom]
  rcases hvictim with ⟨hv, hv'⟩ | ⟨key, m, r, hv, hv'⟩
  · simp only [hv, hv', true_and]
    exact h.count _ _
  · simp only [hv, hv', true_and]
    exact (h.dropFlow key m r).count _ _

theorem insertIfNew_of_new {flows : ExtTreeMap FlowKey FlowRecord} (hnew : flows[key]? = none)
    (r : FlowRecord) : flows.insertIfNew key r = flows.insert key r := by
  have hmem : key ∉ flows := by
    rw [← ExtTreeMap.isSome_getElem?_iff_mem, hnew]
    simp
  ext k : 1
  rw [ExtTreeMap.getElem?_insertIfNew, ExtTreeMap.getElem?_insert]
  by_cases hk : compare key k = .eq
  · rw [if_pos ⟨hk, hmem⟩, if_pos hk]
  · rw [if_neg fun h => hk h.1, if_neg hk]

theorem Twin.createFlow (h : Twin g g') (hnew : g.flows[key]? = none) :
    Twin (g.createFlow key) (g'.createFlow key) := by
  have hnew' : g'.flows[key]? = none := by
    rcases h.find key with ⟨-, hr'⟩ | ⟨m, r, hr, -⟩
    · exact hr'
    · rw [hnew] at hr
      cases hr
  have hset : Twin (g.setFlow key (g.freshRecord key)) (g'.setFlow key (g'.freshRecord key)) := by
    -- a fresh record has no classification to stamp
    have hfresh : g'.freshRecord key = marked {} (g.freshRecord key) := by
      obtain ⟨boot, marks, intents, counters, rfl, -⟩ := h
      rfl
    rw [hfresh]
    refine h.setFlow key _ ?_ ?_
    · intro hc
      cases hc
    · intro hc
      cases hc
  unfold Governor.createFlow
  rw [insertIfNew_of_new hnew, insertIfNew_of_new hnew']
  obtain ⟨boot, marks, intents, counters, heq, hstamped⟩ := hset
  have hhighest : g'.highestGeneration = g.highestGeneration := by
    obtain ⟨_, _, _, _, rfl, -⟩ := h
    rfl
  refine ⟨boot, marks, intents, counters, ?_, hstamped⟩
  rw [hhighest]
  exact congrArg (fun x : Governor =>
    { x with highestGeneration := g.highestGeneration.insert key.flow key.generation }) heq

theorem Twin.highestGeneration (h : Twin g g') : g'.highestGeneration = g.highestGeneration := by
  obtain ⟨_, _, _, _, rfl, -⟩ := h
  rfl

theorem ensureFlowCapacity_new (hnew : g.flows[key]? = none) :
    g.ensureFlowCapacity.2.flows[key]? = none := by
  rcases ensureFlowCapacity_cases g with ⟨-, heq⟩ | ⟨k, r, -, -, heq⟩ | ⟨e, -, -, heq⟩
  · rw [heq]
    exact hnew
  · rw [heq]
    show ((g.updateIndex k r).1.flows.erase k)[key]? = none
    rw [updateIndex_flows, ExtTreeMap.getElem?_erase, hnew, ite_self]
  · rw [heq]
    exact hnew

theorem Twin.refuseRetired (h : Twin g g') : Twin g.refuseRetired g'.refuseRetired := h.count _ _

/-- The creation of a flow in twins, with the room it needs. -/
theorem Twin.openFlow (h : Twin g g') (key : FlowKey) :
    (g'.openFlow key).1 = (g.openFlow key).1 ∧ Twin (g.openFlow key).2 (g'.openFlow key).2 := by
  unfold Governor.openFlow
  rcases h.find key with ⟨hnew, hnew'⟩ | ⟨m, r, hr, hr', -, -⟩
  · rw [hnew, hnew']
    simp only
    obtain ⟨hroom, htwin⟩ := h.ensureFlowCapacity
    have hnew₁ := ensureFlowCapacity_new hnew
    unfold establishFlow
    rw [h.highestGeneration]
    generalize g.ensureFlowCapacity = room at hroom htwin hnew₁ ⊢
    generalize g'.ensureFlowCapacity = room' at hroom htwin ⊢
    obtain ⟨res, x⟩ := room
    obtain ⟨res', x'⟩ := room'
    simp only at hroom htwin hnew₁
    subst hroom
    rcases g.highestGeneration[key.flow]? with _ | highest
    · cases res' with
      | error e => exact ⟨rfl, htwin⟩
      | ok u => exact ⟨rfl, htwin.createFlow hnew₁⟩
    · simp only
      by_cases hlow : key.generation < highest
      · rw [if_pos hlow, if_pos hlow]
        exact ⟨rfl, h.refuseRetired⟩
      rw [if_neg hlow, if_neg hlow]
      by_cases hsame : key.generation = highest
      · rw [if_pos hsame, if_pos hsame]
        exact ⟨rfl, h.refuseRetired⟩
      rw [if_neg hsame, if_neg hsame]
      cases res' with
      | error e => exact ⟨rfl, htwin⟩
      | ok u =>
        refine ⟨rfl, ?_⟩
        obtain ⟨boot, marks, intents, counters, heq, hstamped⟩ := htwin.createFlow hnew₁
        simp only
        rw [heq]
        exact ⟨boot, marks, _, _, rfl, hstamped⟩
  · rw [hr, hr']
    exact ⟨rfl, h⟩

theorem applyEvidence_snd (g : Governor) (key : FlowKey) (record : FlowRecord) (s : FlowSample) :
    (g.applyEvidence key record s).2 =
      match record.ledger.append s with
      | (.error e, ledger) =>
        (g.setFlow key { record with ledger := ledger }).count (countRefused · e.code)
      | (.ok outcome, ledger) =>
        ((g.count (countTaken · outcome ledger s)).evaluateFlow key
          { record with ledger := ledger } (decisionTick s)).2 := by
  unfold Governor.applyEvidence
  rcases record.ledger.append s with ⟨e | outcome, ledger⟩
  · rfl
  · simp only
    rcases (g.count (countTaken · outcome ledger s)).evaluateFlow key
      { record with ledger := ledger } (decisionTick s) with ⟨e | d, x⟩
    · rfl
    · rfl

theorem Twin.applyEvidence (h : Twin g g') (key : FlowKey) (s : FlowSample)
    (hr : Stamped g.boot record) (hm : Stamped g'.boot (marked m record)) :
    Twin (g.applyEvidence key record s).2 (g'.applyEvidence key (marked m record) s).2 := by
  have hledger : (marked m record).ledger = record.ledger := rfl
  rw [applyEvidence_snd, applyEvidence_snd, hledger]
  rcases record.ledger.append s with ⟨e | outcome, ledger⟩
  · exact (h.setFlow key { record with ledger := ledger } hr hm).count _ _
  · exact (h.count (countTaken · outcome ledger s) (countTaken · outcome ledger s)).evaluateFlow key
      { record with ledger := ledger } (decisionTick s) hr hm

theorem Twin.submitEvidence (h : Twin g g') (s : FlowSample) :
    Twin (g.submitEvidence s).2 (g'.submitEvidence s).2 := by
  have hpolicy : g'.policy = g.policy := h.recovers.policy
  unfold Governor.submitEvidence
  rw [hpolicy]
  by_cases hnone : g.policy.isNone = true
  · rw [if_pos hnone, if_pos hnone]
    simp only
    exact h.count _ _
  rw [if_neg hnone, if_neg hnone]
  rcases s.validate with e | ⟨⟩
  · simp only
    exact h.count _ _
  obtain ⟨hresult, htwin⟩ := h.openFlow (sampleKey s)
  simp only
  generalize g.openFlow (sampleKey s) = opened at hresult htwin ⊢
  generalize g'.openFlow (sampleKey s) = opened' at hresult htwin ⊢
  obtain ⟨res, x⟩ := opened
  obtain ⟨res', x'⟩ := opened'
  simp only at hresult htwin
  subst hresult
  cases res' with
  | error e => exact htwin
  | ok u =>
    simp only
    rcases htwin.find (sampleKey s) with ⟨hr, hr'⟩ | ⟨m, r, hr, hr', hown, hmark⟩
    · rw [hr, hr']
      exact htwin
    · rw [hr, hr']
      exact htwin.applyEvidence (sampleKey s) s hown hmark

/-! ## Sweeps of twins -/

theorem Twin.sweepFlow (h : Twin acc.2 acc'.2) (now : Tick) (key : FlowKey) :
    Twin (sweepFlow now key acc).2 (sweepFlow now key acc').2 := by
  have hsnd : ∀ (acc : DecisionBatch × Governor) (r : FlowRecord), acc.2.flows[key]? = some r →
      (Governor.sweepFlow now key acc).2 =
        if acc.2.sweeps r now then (acc.2.evaluateFlow key r now).2 else acc.2 := by
    intro acc r hr
    unfold Governor.sweepFlow
    rw [hr]
    simp only
    by_cases hs : acc.2.sweeps r now = true
    · rw [if_pos hs, if_pos hs]
      rcases acc.2.evaluateFlow key r now with ⟨e | d, x⟩
      · rfl
      · rfl
    · rw [if_neg hs, if_neg hs]
  rcases h.find key with ⟨hr, hr'⟩ | ⟨m, r, hr, hr', hown, hmark⟩
  · unfold Governor.sweepFlow
    rw [hr, hr']
    exact h
  · have hsweeps : acc'.2.sweeps (marked m r) now = acc.2.sweeps r now := by
      obtain ⟨boot, marks, intents, counters, heq, -⟩ := h
      rw [heq] at hmark ⊢
      exact sweeps_rehosted intents counters now hown hmark
    rw [hsnd acc r hr, hsnd acc' (marked m r) hr', hsweeps]
    by_cases hs : acc.2.sweeps r now = true
    · rw [if_pos hs, if_pos hs]
      exact h.evaluateFlow key r now hown hmark
    · rw [if_neg hs, if_neg hs]
      exact h

theorem Twin.sweepLoop (h : Twin acc.2 acc'.2) (now : Tick) (keys : List FlowKey) :
    Twin (sweepLoop now keys acc).2 (sweepLoop now keys acc').2 := by
  induction keys generalizing acc acc' with
  | nil => exact h
  | cons key keys ih => exact ih (h.sweepFlow now key)

theorem Twin.refuseSweep (h : Twin g g') : Twin g.refuseSweep g'.refuseSweep := h.count _ _

theorem Twin.tick (h : Twin g g') (now : Tick) : Twin (g.tick now).2 (g'.tick now).2 := by
  have hpolicy : g'.policy = g.policy := h.recovers.policy
  have hguard : g'.tickGuard = g.tickGuard := by
    obtain ⟨_, _, _, _, rfl, -⟩ := h
    rfl
  have hbegin : ∀ guard, Twin (g.beginSweep guard now).2 (g'.beginSweep guard now).2 := by
    intro guard
    obtain ⟨boot, marks, intents, counters, rfl, hstamped⟩ := h
    exact ⟨boot, marks, _, _, rfl, hstamped⟩
  unfold Governor.tick
  rw [hpolicy, h.lastTick, hguard, h.keys]
  split_ifs
  · exact h.refuseSweep
  · exact h.refuseSweep
  · rcases g.tickGuard.observe now with e | guard
    · exact h.refuseSweep
    · exact ((hbegin guard).sweepLoop now g.flows.keys).advance now

theorem Twin.take (h : Twin g g') (i : Input) : Twin (g.take i) (g'.take i) := by
  cases i with
  | policy p => exact (h.submitPolicy p).2
  | capacity c => exact (h.submitCapacity c).2
  | path p => exact (h.submitPath p).2
  | evidence s => exact h.submitEvidence s
  | tick now => exact h.tick now

/-! ## Completions and queries of twins -/

theorem completeFlow_snd {flow : FlowId} {generation : Generation} {atTick : Tick} {l : FlowLedger}
    (hr : g.flows[(⟨flow, generation⟩ : FlowKey)]? = some record)
    (hl : record.ledger.markCompleted atTick = .ok l) :
    ∃ f, (g.completeFlow flow generation atTick).2 = (Governor.evaluateFlow
      (Governor.count { g with intents :=
        (g.intents.transitionFlowTerminal flow generation .completed).2 } f)
      ⟨flow, generation⟩ { record with ledger := l, completedTick := atTick } atTick).2 := by
  unfold completeFlow
  rw [hr]
  simp only [hl]
  refine ⟨fun c => { c with
    flowCompletions := c.flowCompletions + 1
    intentsRevoked := c.intentsRevoked +
      (g.intents.transitionFlowTerminal flow generation .completed).1 }, ?_⟩
  generalize Governor.evaluateFlow _ _ _ _ = x
  obtain ⟨e | d, x⟩ := x
  · rfl
  · rfl

theorem Twin.completeFlow (h : Twin g g') (flow : FlowId) (generation : Generation) (atTick : Tick) :
    Twin (g.completeFlow flow generation atTick).2 (g'.completeFlow flow generation atTick).2 := by
  rcases h.find ⟨flow, generation⟩ with ⟨hr, hr'⟩ | ⟨m, r, hr, hr', hown, hmark⟩
  · unfold Governor.completeFlow
    rw [hr, hr']
    exact h
  have hledger : (marked m r).ledger = r.ledger := rfl
  rcases hl : r.ledger.markCompleted atTick with e | l
  · unfold Governor.completeFlow
    rw [hr, hr']
    simp only [hledger, hl]
    exact h
  · obtain ⟨f, hstate⟩ := completeFlow_snd hr hl
    obtain ⟨f', hstate'⟩ := completeFlow_snd hr' (hledger ▸ hl)
    rw [hstate, hstate']
    have htwin := (h.withIntents (g.intents.transitionFlowTerminal flow generation .completed).2
      (g'.intents.transitionFlowTerminal flow generation .completed).2).count f f'
    exact htwin.evaluateFlow ⟨flow, generation⟩ { r with ledger := l, completedTick := atTick } atTick
      hown hmark

theorem Twin.classification (h : Twin g g') (flow : FlowId) (generation : Generation) (now : Tick) :
    Twin (g.classification flow generation now).2 (g'.classification flow generation now).2 := by
  have hsnd : ∀ (x : Governor) (r : FlowRecord), x.flows[(⟨flow, generation⟩ : FlowKey)]? = some r →
      (x.classification flow generation now).2 = (x.evaluateFlow ⟨flow, generation⟩ r now).2 := by
    intro x r hr
    unfold Governor.classification
    rw [hr]
    simp only
    rcases x.evaluateFlow ⟨flow, generation⟩ r now with ⟨e | d, y⟩
    · rfl
    · rfl
  rcases h.find ⟨flow, generation⟩ with ⟨hr, hr'⟩ | ⟨m, r, hr, hr', hown, hmark⟩
  · unfold Governor.classification
    rw [hr, hr']
    exact h
  · rw [hsnd g r hr, hsnd g' (marked m r) hr']
    exact h.evaluateFlow ⟨flow, generation⟩ r now hown hmark

/-- The operations that decide about flows within one incarnation. -/
def Command.Decides : Command → Prop
  | .submitPolicy _ | .submitCapacity _ | .submitPath _ | .submitEvidence _ => True
  | .completeFlow _ _ _ | .tick _ | .classification _ _ _ => True
  | _ => False

/-- Twins that perform the same operation stay twins. -/
theorem Twin.exec (h : Twin g g') {cmd : Command} (hcmd : Command.Decides cmd) :
    Twin (g.exec cmd) (g'.exec cmd) := by
  cases cmd with
  | submitPolicy p => exact (h.submitPolicy p).2
  | submitCapacity c => exact (h.submitCapacity c).2
  | submitPath p => exact (h.submitPath p).2
  | submitEvidence s => exact h.submitEvidence s
  | completeFlow flow generation atTick => exact h.completeFlow flow generation atTick
  | tick now => exact h.tick now
  | classification flow generation now => exact h.classification flow generation now
  | _ => exact absurd hcmd id

theorem Twin.run (h : Twin g g') {cmds : List Command} (hcmds : ∀ cmd ∈ cmds, Command.Decides cmd) :
    Twin (g.run cmds) (g'.run cmds) := by
  induction cmds generalizing g g' with
  | nil => exact h
  | cons cmd cmds ih =>
    exact ih (h.exec (hcmds cmd List.mem_cons_self)) fun c hc => hcmds c (List.mem_cons_of_mem _ hc)

/-- The incarnation does not influence decisions: after the same operations the records of two
governors that were set to two incarnations before are the same, apart from the boot and the epoch in
the authority vector and the digest of the classification. -/
theorem incarnation_indifferent (config : GovernorConfig) (boot boot' : BootIdentity)
    (cmds : List Command) (hcmds : ∀ cmd ∈ cmds, Command.Decides cmd) (key : FlowKey) :
    ∃ m, (((make config).setIncarnation boot').run cmds).flows[key]? =
      (((make config).setIncarnation boot).run cmds).flows[key]?.map (marked m) := by
  have htwin := (twin_make config boot boot').run hcmds
  rcases htwin.find key with ⟨hr, hr'⟩ | ⟨m, r, hr, hr', -, -⟩
  · exact ⟨{}, by rw [hr, hr']; rfl⟩
  · exact ⟨m, by rw [hr, hr']; rfl⟩

open Scenario

/-- The small run under its two incarnations. -/
theorem incarnation_indifferent_scenario : ∃ m,
    (((make {}).setIncarnation reboot).run commands).flows[
      flowKey]? =
    governor.flows[flowKey]?.map (marked m) := by
  refine incarnation_indifferent {} Scenario.boot reboot commands ?_ flowKey
  unfold commands
  simp only [List.forall_mem_cons, Command.Decides, true_and, List.not_mem_nil, IsEmpty.forall_iff,
    implies_true]

end Governor

end EFG
