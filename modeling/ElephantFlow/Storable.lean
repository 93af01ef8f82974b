/-
# What a snapshot can hold

Which governors can be written down and read back.  The wire format bounds the
trace of a classification, knows no `Count` threshold and no priority above the
ceiling, and a restore records every transition, window and intent again; so the
facts below are about what the records, the tables and the intents of a reachable
governor always are: histories are chains (`Chained`), classifications fit the
format, table entries are valid under their own key (`Sound`), and the intents
can be recorded in the order of their identifiers (`Recorded`).
-/
import ElephantFlow.KeyedMap
import ElephantFlow.ExitRules
import ElephantFlow.Confirmation
import ElephantFlow.DurableRuns
import ElephantFlow.Population
import ElephantFlow.TableRuns
import ElephantFlow.WireForms

namespace EFG

open ByteCodec KeyedMap Std

/-! ## Histories -/

namespace ClassificationHistory

/-- The second transition can be recorded behind the first. -/
def Continues (a b : ClassificationTransition) : Prop :=
  a.atTick ≤ b.atTick ∧ b.fromState = a.toState

/-- The entries continue one another. -/
def Chained (h : ClassificationHistory) : Prop := h.entries.IsChain Continues

theorem Chained.record {h h' : ClassificationHistory} {t : ClassificationTransition}
    (hh : h.Chained) (hr : h.record t = .ok h') : h'.Chained := by
  obtain ⟨rfl, hlast⟩ := record_eq_ok hr
  -- the oldest entry may be folded; what is left is a chain that ends in the same entry
  have htail : ∀ l : List ClassificationTransition, l.IsChain Continues → l.tail.IsChain Continues ∧
      ∀ a ∈ l.tail.getLast?, a ∈ l.getLast? := by
    intro l hl
    cases l with
    | nil => exact ⟨hl, by simp⟩
    | cons a l =>
      refine ⟨hl.tail, ?_⟩
      cases l with
      | nil => simp
      | cons b l => simp [List.getLast?_cons_cons]
  show List.IsChain Continues ((if _ then _ else _) ++ [t])
  refine List.isChain_append.mpr ⟨?_, List.isChain_singleton t, ?_⟩
  · split_ifs
    · exact (htail _ hh).1
    · exact hh
  · intro a ha b hb
    have hb' : t = b := by simpa using hb
    subst hb'
    split_ifs at ha
    · exact hlast a ((htail _ hh).2 a ha)
    · exact hlast a ha

end ClassificationHistory

/-! ## Traces -/

/-- The trace fits the wire format. -/
def ThresholdTrace.Fits (tr : ThresholdTrace) : Prop :=
  tr.entries.length ≤ kMaxTraceEntries ∧ ∀ e ∈ tr.entries, ByteCodec.Fits e

theorem ThresholdTrace.Fits.record {tr : ThresholdTrace} (h : tr.Fits) (index : UInt32)
    {t : Threshold} (ht : t.kind ≠ .count) (result : Tri) (m : FlowMeasurements) :
    (tr.record index t result m).Fits := by
  unfold ThresholdTrace.record
  split_ifs with hfull
  · exact h
  · refine ⟨?_, fun e he => ?_⟩
    · simp only [List.length_append, List.length_singleton]
      omega
    · rcases List.mem_append.mp he with he | he
      · exact h.2 e he
      · rw [List.mem_singleton.mp he]
        exact ht

namespace RuleSet

variable {rules : RuleSet} {m : FlowMeasurements}

theorem kind_of_checkShape {node : RuleNode} (h : node.checkShape = .ok ())
    (hkind : node.kind = .threshold) : node.threshold.kind ≠ .count := by
  unfold RuleNode.checkShape at h
  rw [hkind] at h
  simp only [ite_makeStatus_eq_ok, not_not] at h
  exact h.2.1

theorem fits_foldChildren {d : ℕ} {op : Tri → Tri → Tri} {children : List UInt32}
    (hchild : ∀ child ∈ children, ∀ st : EvalState, st.trace.Fits →
      (evaluateNode rules m d st child).2.trace.Fits)
    {acc : Tri × EvalState} (hacc : acc.2.trace.Fits) :
    (foldChildren rules m d op children acc).2.trace.Fits := by
  induction children generalizing acc with
  | nil => exact hacc
  | cons child rest ih =>
    rw [foldChildren_cons]
    exact ih (fun c hc => hchild c (List.mem_cons_of_mem _ hc))
      (hchild child List.mem_cons_self acc.2 hacc)

theorem fits_evaluateNode {d : ℕ} {st : EvalState} {index : UInt32} (hs : rules.Sound index)
    (h : st.trace.Fits) : (evaluateNode rules m d st index).2.trace.Fits := by
  induction d generalizing st index with
  | zero => exact h
  | succ d ih =>
    by_cases hfailed : st.failed = true
    · unfold evaluateNode
      rw [if_pos hfailed]
      exact h
    have hst : st.failed = false := by simpa using hfailed
    obtain ⟨node, hnode, hshape⟩ := hs index .refl
    have hchild : ∀ child ∈ node.children, ∀ st : EvalState, st.trace.Fits →
        (evaluateNode rules m d st child).2.trace.Fits :=
      fun child hmem st' hst' => ih (hs.child ⟨node, hnode, hmem⟩) hst'
    cases hkind : node.kind with
    | threshold =>
      have heq : (evaluateNode rules m (d + 1) st index).2.trace =
          st.trace.record index node.threshold (node.threshold.evaluate m) m := by
        simp [evaluateNode, hst, hnode, hkind]
      rw [heq]
      exact h.record index (kind_of_checkShape hshape hkind) _ m
    | all =>
      rw [evaluateNode_all hst hnode hkind]
      exact fits_foldChildren hchild h
    | any =>
      rw [evaluateNode_any hst hnode hkind]
      exact fits_foldChildren hchild h
    | not =>
      obtain ⟨only, honly⟩ := RuleNode.children_of_not hshape hkind
      rw [evaluateNode_not hst hnode hkind honly]
      exact hchild only (by simp [honly]) st h

theorem fits_evaluate (h : rules.validate = .ok ()) : (rules.evaluate m {}).2.Fits := by
  have hempty : ThresholdTrace.Fits {} := ⟨Nat.zero_le _, by simp⟩
  unfold RuleSet.evaluate
  rw [if_neg (validate_root h)]
  exact fits_evaluateNode (fun j hj => wellShaped_of_validate h hj) hempty

end RuleSet

/-! ## Classifications -/

theorem ensures_decodePriority (e₁ e₂ e₃ : Status) :
    Ensures (decodePriority e₁ e₂ e₃) Priority.InRange := by
  refine Ensures.skip fun known => Ensures.skip fun level => ?_
  by_cases hbad : known = true ∧ level > Priority.kMaxLevel
  · rw [if_pos hbad]
    exact Ensures.refuse _ _
  · rw [if_neg hbad]
    refine Ensures.pure fun l hl => ?_
    cases known with
    | false => cases hl
    | true =>
      obtain rfl : level = l := Option.some.inj hl
      exact UInt8.not_lt.mp fun hgt => hbad ⟨rfl, hgt⟩

theorem ensures_readCount (ceiling : ℕ) : Ensures (readCount ceiling) (· ≤ ceiling) := by
  refine Ensures.skip fun count => ?_
  split_ifs with hgt
  · exact Ensures.refuse _ _
  · exact Ensures.pure (Nat.not_lt.mp hgt)

theorem ensures_thresholdKind : Ensures (readEnum 16 ThresholdKind.ofU8) (· ≠ .count) := by
  refine Ensures.skip fun raw => ?_
  split_ifs with hge
  · exact Ensures.refuse _ _
  · refine Ensures.pure ?_
    have hkinds : ∀ i < (16 : UInt8).toNat, ThresholdKind.ofU8 (UInt8.ofNat i) ≠ .count := by decide
    have hraw := hkinds raw.toNat (UInt8.lt_iff_toNat_lt.mp (UInt8.not_le.mp hge))
    rwa [UInt8.ofNat_toNat] at hraw

theorem ensures_measurements : Ensures (decode : Decoder Status FlowMeasurements) Fits := by
  iterate 15 refine Ensures.skip fun _ => ?_
  refine Ensures.bind (ensures_decodePriority _ _ _) fun priority hpriority => ?_
  iterate 15 refine Ensures.skip fun _ => ?_
  exact Ensures.pure hpriority

theorem ensures_traceEntry : Ensures (decode : Decoder Status ThresholdTraceEntry) Fits := by
  refine Ensures.skip fun _ => Ensures.bind ensures_thresholdKind fun kind hkind => ?_
  iterate 4 refine Ensures.skip fun _ => ?_
  exact Ensures.pure hkind

/-- A classification that was read fits the format that it was read from. -/
theorem ensures_classification : Ensures (decode : Decoder Status FlowClassification) Fits := by
  iterate 10 refine Ensures.skip fun _ => ?_
  refine Ensures.bind ensures_measurements fun m hm => Ensures.skip fun _ => ?_
  refine Ensures.bind (ensures_readCount _) fun count hcount => ?_
  refine Ensures.bind (ensures_traceEntry.times count) ?_
  rintro trace ⟨rfl, htrace⟩
  iterate 5 refine Ensures.skip fun _ => ?_
  exact Ensures.pure ⟨hm, hcount, htrace⟩

/-! ## Records -/

theorem FlowSample.fits_of_validate {s : FlowSample} (h : s.validate = .ok ()) : Fits s := by
  have hrange : ¬ (s.priority.known = true ∧ s.priority.level > Priority.kMaxLevel) := by
    unfold FlowSample.validate at h
    simp only [ite_makeStatus_eq_ok] at h
    exact h.2.2.2.2.2.2.2.2.2.2.2.1
  intro level hlevel
  refine UInt8.not_lt.mp fun hgt => hrange ⟨?_, ?_⟩
  · rw [hlevel]
    rfl
  · rw [hlevel]
    exact hgt

namespace Governor

variable {g g' : Governor} {r : FlowRecord} {config : GovernorConfig} {now : Tick}

theorem priority_measurements (l : FlowLedger) : l.measurements.priority = none ∨
    ∃ s ∈ l.samples, l.measurements.priority = s.priority := by
  unfold FlowLedger.measurements
  rcases h : deriveMeasurements l.samples l.limits l.completed l.gapDetected l.droppedWindows
    with e | m
  · exact .inl rfl
  unfold deriveMeasurements at h
  split at h
  · -- every early return is an error
    rename_i first last _ hlast
    simp only at h
    split at h
    · cases h
    split at h
    · cases h
    split at h
    · cases h
    split at h
    · cases h
    cases h
    exact .inr ⟨last, List.mem_of_getLast? hlast, rfl⟩
  · cases h
    exact .inl rfl

theorem fits_measurements {l : FlowLedger} (h : l.WellFormed) : Wire.Fits l.measurements := by
  show l.measurements.priority.InRange
  rcases priority_measurements l with hp | ⟨s, hs, hp⟩
  · rw [hp]
    exact fun _ hno => nomatch hno
  · rw [hp]
    exact FlowSample.fits_of_validate (h.accepted s hs).2.2.1

theorem priority_composeMeasurements {l : FlowLedger} {path : Option PathDescriptor}
    {capacities : CapacityTable} {flows elephants : UInt32} {required : Bool} {m : FlowMeasurements}
    (h : composeMeasurements l path capacities flows elephants required = .ok m) :
    m.priority = l.measurements.priority := by
  unfold composeMeasurements at h
  rcases path with _ | p
  · simp only at h
    split_ifs at h
    · cases h
    · rw [← Except.ok.inj h]
  rcases hb : resolveBinding (some p) capacities false 0 with _ | ⟨resource, capacity⟩
  · simp only [hb] at h
    split_ifs at h
    · cases h
    · rw [← Except.ok.inj h]
  · simp only [hb] at h
    rw [← Except.ok.inj h]

theorem fits_measure (g : Governor) (h : r.ledger.WellFormed) :
    Wire.Fits (g.measure r).measurements := by
  have hledger : r.ledger.measurements.priority.InRange := fits_measurements h
  show (g.measure r).measurements.priority.InRange
  unfold measure
  rcases hm : composeMeasurements r.ledger (g.latestPath r) g.capacities (g.competing r).1
    (g.competing r).2 true with e | m
  · simp only [hm]
    exact hledger
  · simp only [hm]
    rw [priority_composeMeasurements hm]
    exact hledger

theorem Commits.trace {c : FlowClassification} {h : ClassificationHistory}
    (hc : g.Commits r now c h) : c.trace = (g.decisionTrace r now).entries := by
  obtain ⟨_, -, hid⟩ := hc.identity
  obtain ⟨_, _, hprotected, -⟩ := enforceProtection_eq g _
  exact (congrArg FlowClassification.trace hid).trans (congrArg FlowClassification.trace hprotected)

theorem fits_decisionTrace (hvalid : g.PolicyValid) (r : FlowRecord) (now : Tick) :
    (g.decisionTrace r now).Fits := by
  have hempty : ThresholdTrace.Fits {} := ⟨Nat.zero_le _, by simp⟩
  unfold decisionTrace
  dsimp only
  split_ifs
  · exact hempty
  · rcases hp : g.policy with _ | p
    · exact hempty
    · exact RuleSet.fits_evaluate (enterRule_of_validate (hvalid p hp))

/-- The record can be written down: its classification fits the format, and its history can be
recorded again. -/
structure Storable (r : FlowRecord) : Prop where
  history : r.history.Chained
  classification : r.hasClassification = true → Wire.Fits r.classification

theorem recordStable_storable : RecordStable Storable where
  appended := fun _ _ h => ⟨h.history, h.classification⟩
  completed := fun _ _ _ h _ => ⟨h.history, h.classification⟩
  recorded := fun _ _ _ h hrecord => ⟨h.history.record hrecord, h.classification⟩
  scalars := fun _ _ _ _ _ _ h => ⟨h.history, h.classification⟩
  classified := by
    rintro r c ⟨bs, rest, hread⟩ h
    exact ⟨h.history, fun _ => ensures_classification bs c rest hread⟩

/-- What an evaluation needs for its classification to fit the format. -/
def Classifiable (g : Governor) (r : FlowRecord) : Prop := g.PolicyValid ∧ r.ledger.WellFormed

theorem moveStable_storable : MoveStable config Classifiable Storable where
  fresh := fun _ _ _ => ⟨List.isChain_nil, fun h => nomatch h⟩
  ledger := fun _ _ _ h => ⟨h.history, h.classification⟩
  bound := fun r h => by
    obtain ⟨_, _, _, _, heq⟩ := rebound_eq r
    rw [heq]
    exact ⟨h.history, h.classification⟩
  cleared := fun _ h => ⟨h.history, h.classification⟩
  suspended := fun _ _ _ h hrecord => ⟨h.history.record hrecord, h.classification⟩
  committed := by
    rintro g r now c hist ⟨hvalid, hledger⟩ h hc
    refine ⟨h.history.record hc.recorded, fun _ => ?_⟩
    have htrace := fits_decisionTrace hvalid r now
    refine ⟨?_, ?_, ?_⟩
    · show Wire.Fits c.measurements
      rw [hc.measurements]
      exact fits_measure g hledger
    · show c.trace.length ≤ _
      rw [hc.trace]
      exact htrace.1
    · show ∀ t ∈ c.trace, Wire.Fits t
      rw [hc.trace]
      exact htrace.2
  restored := recordStable_storable
  demoted := fun _ _ _ _ h hc hrecord => ⟨h.history.record hrecord, fun _ => h.classification hc⟩

/-- Every record of a reachable governor can be written down. -/
theorem Reachable.storable (h : Reachable config g) {key : FlowKey}
    (hr : g.flows[key]? = some r) : Storable r := by
  have hall : g.Justified ∧ g.PolicyValid ∧ AllRecords config.clamped Storable g := by
    refine h.invariant (P := fun x => x.Justified ∧ x.PolicyValid ∧
      AllRecords config.clamped Storable x)
      ⟨justified_make config, ?_, rfl, fun key r hr => ?_⟩ ?_
    · intro p hp
      cases hp
    · exact of_getElem?_empty hr
    · rintro x e x' ⟨hjustified, hvalid, hrecords⟩ hmove
      refine ⟨hjustified.move hmove, hvalid.move hmove, moveStable_storable.move hmove ?_ hrecords⟩
      exact fun k r' hr' => ⟨hvalid, (hjustified.records k r' hr').tracked.ledger⟩
  exact hall.2.2.2 key r hr

/-- Every tracked key names a flow and a generation. -/
def ValidKeys (g : Governor) : Prop :=
  ∀ key ∈ g.flows, key.flow.valid = true ∧ key.generation.valid = true

open Fallible in
theorem keeps_validKeys_restoreFlow :
    Keeps (fun s : Governor × Bytes => s.1.ValidKeys) restoreFlow := by
  refine Keeps.bind_of (R := fun key : FlowKey => key.flow.valid = true ∧ key.generation.valid = true)
    keeps_readFlowKey ?_ ?_
  · intro s key s' hread
    obtain ⟨flow, s₁, -, hread⟩ := bind_eq_ok_iff.mp hread
    obtain ⟨generation, s₂, -, hread⟩ := bind_eq_ok_iff.mp hread
    obtain ⟨_, s₃, hensure, hread⟩ := bind_eq_ok_iff.mp hread
    obtain ⟨hvalid, -⟩ := ensure_eq_ok_iff.mp hensure
    cases hread
    simpa using hvalid
  · intro key hkey s hs k hk
    obtain ⟨r, hr⟩ := restoreInto_snd key s
    rw [hr] at hk
    obtain ⟨r₀, hr₀⟩ := mem_flows_iff.mp ((mem_createFlow s.1 key key).mpr (.inl rfl))
    rcases (mem_createFlow s.1 key k).mp ((mem_setFlow hr₀ r k).mp hk) with rfl | hk
    · exact hkey
    · exact hs k hk

theorem resumeStable_validKeys : ResumeStable ValidKeys where
  replaced := fun _ _ _ r' hr hx k hk => hx k ((mem_setFlow hr r' k).mp hk)

theorem validKeys_deserialize {bytes : Bytes} (hok : (g.deserialize bytes now).1 = .ok ()) :
    (g.deserialize bytes now).2.ValidKeys :=
  deserialize_establishes (fun _ _ _ hk => absurd hk ExtTreeMap.not_mem_empty)
    keeps_validKeys_restoreFlow (fun _ _ hx => hx) (fun _ _ hx => hx)
    (resumeStable_validKeys.keeps_resume now) hok

theorem Reachable.validKeys (h : Reachable config g) : g.ValidKeys := by
  refine h.invariant (P := ValidKeys) ?_ fun x e x' hx hmove key hk => ?_
  · intro k hk
    exact absurd hk ExtTreeMap.not_mem_empty
  obtain ⟨r', hr'⟩ := mem_flows_iff.mp hk
  cases hmove.becomes hr' with
  | same e r hr => exact hx key (mem_flows_iff.mpr ⟨_, hr⟩)
  | fresh hnew =>
    cases hmove with
    | create _ _ _ hflow hgeneration => exact ⟨hflow, hgeneration⟩
  | appended r s hr => exact hx key (mem_flows_iff.mpr ⟨_, hr⟩)
  | completed r ledger atTick hr => exact hx key (mem_flows_iff.mpr ⟨_, hr⟩)
  | evaluated r now hr => exact hx key (mem_flows_iff.mpr ⟨_, hr⟩)
  | cleared r now hr => exact hx key (mem_flows_iff.mpr ⟨_, hr⟩)
  | withdrawn r hist now hr => exact hx key (mem_flows_iff.mpr ⟨_, hr⟩)
  | restored r bytes now hok hr => exact validKeys_deserialize hok key (mem_flows_iff.mpr ⟨_, hr⟩)

end Governor

/-! ## Tables -/

namespace CapacityTable

variable {t t' : CapacityTable} {c : ResourceCapacity}

/-- Every entry of the table is valid and stands under its own resource. -/
structure Sound (t : CapacityTable) : Prop where
  limit : t.maxResources = kMaxResources
  entries : Keyed ResourceCapacity.resource (fun c => c.validate = .ok ()) kMaxResources t.entries

theorem sound_empty : Sound {} := ⟨rfl, keyed_empty⟩

theorem Sound.submit (ht : t.Sound) (h : t.submit c = .ok t') : t'.Sound := by
  obtain ⟨hvalid, hroom, hsame, hupdates⟩ := submit_eq_ok h
  rw [ht.limit] at hroom
  rw [hsame]
  refine ⟨ht.limit, ?_⟩
  rcases hupdates.change with hinsert | ⟨hkept, -⟩
  · rw [hinsert]
    exact ht.entries.insert hvalid hroom
  · rw [hkept]
    exact ht.entries

theorem Sound.expire (ht : t.Sound) (now : Tick) : (t.expire now).Sound :=
  ⟨ht.limit, ht.entries.filter _⟩

end CapacityTable

namespace PathTable

variable {t t' : PathTable} {p : PathDescriptor}

/-- Every entry of the table is valid and stands under its own path. -/
structure Sound (t : PathTable) : Prop where
  limit : t.maxPaths = kMaxPaths
  width : t.maxResourcesPerPath = kMaxResourcesPerPath
  entries : Keyed PathDescriptor.path (fun p => p.validate = .ok ()) kMaxPaths t.entries

theorem sound_empty : Sound {} := ⟨rfl, rfl, keyed_empty⟩

theorem Sound.submit (ht : t.Sound) (h : t.submit p = .ok t') : t'.Sound := by
  obtain ⟨⟨hvalid, -⟩, hroom, hsame, hupdates⟩ := submit_eq_ok h
  rw [ht.limit] at hroom
  rw [hsame]
  refine ⟨ht.limit, ht.width, ?_⟩
  rcases hupdates.change with hinsert | ⟨hkept, -⟩
  · rw [hinsert]
    exact ht.entries.insert hvalid hroom
  · rw [hkept]
    exact ht.entries

theorem Sound.expire (ht : t.Sound) (now : Tick) : (t.expire now).Sound :=
  ⟨ht.limit, ht.width, ht.entries.filter _⟩

end PathTable

namespace Governor

variable {g g' : Governor} {config : GovernorConfig} {now : Tick}

/-- The tables hold valid entries under their own keys. -/
def SoundTables (g : Governor) : Prop := g.capacities.Sound ∧ g.paths.Sound

theorem SoundTables.congr (h : g.SoundTables) (hsame : SameSetting g g') : g'.SoundTables := by
  unfold SoundTables
  rw [hsame.capacities, hsame.paths]
  exact h

theorem SoundTables.tick (h : g.SoundTables) (now : Tick) : (g.tick now).2.SoundTables := by
  rcases tick_setting g now with hsame | hsame
  · exact h.congr hsame
  · exact SoundTables.congr (g := { g with
      capacities := g.capacities.expire now, paths := g.paths.expire now })
      ⟨h.1.expire now, h.2.expire now⟩ hsame

open Fallible in
/-- The tables of a snapshot are filled by submissions. -/
theorem soundTables_restoreTables {s t : Governor × Bytes} (h : restoreTables s = (.ok (), t)) :
    t.1.SoundTables := by
  obtain ⟨_, s₁, hcapacities, hpaths⟩ := bind_eq_ok_iff.mp h
  have hcapacity : Keeps (fun s : CapacityTable × Bytes => s.1.Sound) restoreCapacity :=
    (Keeps.read _).bind fun c => keeps_attempt fun x y hx hy => hx.submit hy
  have hpath : Keeps (fun s : PathTable × Bytes => s.1.Sound) restorePath :=
    (Keeps.read _).bind fun p => keeps_attempt fun x y hx hy => hx.submit hy
  obtain ⟨capacities, _, hpart₁, hs₁⟩ := focus_eq_ok hcapacities
  obtain ⟨paths, _, hpart₂, ht⟩ := focus_eq_ok hpaths
  obtain ⟨n₁, rest₁, -, -, htimes₁⟩ := counted_eq_ok hpart₁
  obtain ⟨n₂, rest₂, -, -, htimes₂⟩ := counted_eq_ok hpart₂
  have h₁ := hcapacity.times n₁ (_, rest₁) CapacityTable.sound_empty
  rw [htimes₁] at h₁
  have h₂ := hpath.times n₂ (_, rest₂) PathTable.sound_empty
  rw [htimes₂] at h₂
  rw [ht, hs₁]
  exact ⟨h₁, h₂⟩

theorem flowsStable_soundTables : FlowsStable SoundTables where

theorem SoundTables.exec (h : g.SoundTables) {cmd : Command} (hadmits : g.Admits cmd) :
    (g.exec cmd).SoundTables := by
  cases cmd with
  | submitPolicy p => exact h.congr (sameSetting_submitPolicy g p)
  | submitCapacity c =>
    show (g.submitCapacity c).2.SoundTables
    rcases submitCapacity_cases g c with ⟨e, counters, heq⟩ | ⟨table, counters, htable, heq⟩
    · rw [heq]
      exact h
    · rw [heq]
      exact ⟨h.1.submit htable, h.2⟩
  | submitPath p =>
    show (g.submitPath p).2.SoundTables
    rcases submitPath_cases g p with ⟨e, counters, heq⟩ | ⟨table, counters, htable, heq⟩
    · rw [heq]
      exact h
    · rw [heq]
      exact ⟨h.1, h.2.submit htable⟩
  | submitEvidence s => exact h.congr (sameSetting_submitEvidence g s)
  | completeFlow flow generation atTick =>
    exact h.congr (sameSetting_completeFlow g flow generation atTick)
  | tick now => exact h.tick now
  | classification flow generation now => exact h.congr (sameSetting_classification g flow generation now)
  | explain flow generation now => exact h.congr (sameSetting_explain g flow generation now)
  | setIncarnation boot => exact h
  | reset => exact ⟨CapacityTable.sound_empty, PathTable.sound_empty⟩
  | deserialize bytes now =>
    exact flowsStable_soundTables.deserialize (fun _ _ => soundTables_restoreTables) hadmits

theorem Reachable.soundTables (h : Reachable config g) : g.SoundTables := by
  induction h with
  | refl => exact ⟨CapacityTable.sound_empty, PathTable.sound_empty⟩
  | tail _ hstep ih =>
    obtain ⟨cmd, hadmits, rfl⟩ := hstep
    exact ih.exec hadmits

end Governor

/-! ## Intents -/

namespace IntentLedger

variable {l : IntentLedger} {i : GovernanceIntent}

/-- Every intent stands under its own valid identifier, would pass the checks of a recording again,
and its attempt leads back to it. -/
structure Recorded (l : IntentLedger) : Prop where
  intents : ∀ (id : IntentId) (i : GovernanceIntent), l.intents[id]? = some i →
    i.id = id ∧ id.valid = true ∧ checkIntent i = .ok ()
  attempts : ∀ (id : IntentId) (i : GovernanceIntent), l.intents[id]? = some i →
    l.attempts[i.attempt]? = some id

theorem recorded_empty (maxIntents maxAttempts : ℕ) :
    Recorded { maxIntents := maxIntents, maxAttempts := maxAttempts } := by
  refine ⟨fun id i h => ?_, fun id i h => ?_⟩
  · simp at h
  · simp at h

theorem checkIntent_congr {j : GovernanceIntent} (hattempt : j.attempt = i.attempt)
    (hflow : j.flow = i.flow) (hgeneration : j.flowGeneration = i.flowGeneration)
    (hwindow : j.window = i.window) (hkind : j.kind = i.kind) : checkIntent j = checkIntent i := by
  unfold checkIntent
  rw [hattempt, hflow, hgeneration, hwindow, hkind]

theorem sealed_attempt (i : GovernanceIntent) : i.sealed.attempt = i.attempt := by
  unfold GovernanceIntent.sealed GovernanceIntent.withDigest
  rfl

theorem checkIntent_sealed (i : GovernanceIntent) : checkIntent i.sealed = checkIntent i :=
  checkIntent_congr (sealed_attempt i) (GovernanceIntent.sealed_flow i)
    (GovernanceIntent.sealed_flowGeneration i) (GovernanceIntent.sealed_window i)
    (GovernanceIntent.sealed_kind i)

theorem Recorded.updateLive (h : l.Recorded) (select : GovernanceIntent → Bool) (state : IntentState)
    {update : GovernanceIntent → GovernanceIntent} (hupdate : ReasonOnly update) :
    (l.updateLive select state update).2.Recorded := by
  have hold : ∀ (id : IntentId) i', (l.updateLive select state update).2.intents[id]? = some i' →
      ∃ i, l.intents[id]? = some i ∧ i'.id = i.id ∧ i'.attempt = i.attempt ∧
        checkIntent i' = checkIntent i := by
    intro id i' hi'
    have hi'' : (l.intents.map _)[id]? = some i' := hi'
    rw [ExtTreeMap.getElem?_map] at hi''
    obtain ⟨i, hi, rfl⟩ := Option.map_eq_some_iff.mp hi''
    refine ⟨i, hi, ?_⟩
    obtain ⟨reason, hreason⟩ := hupdate i
    split_ifs
    · rw [hreason, GovernanceIntent.sealed_id, sealed_attempt, checkIntent_sealed]
      exact ⟨rfl, rfl, checkIntent_congr rfl rfl rfl rfl rfl⟩
    · exact ⟨rfl, rfl, rfl⟩
  refine ⟨fun id i' hi' => ?_, fun id i' hi' => ?_⟩
  · obtain ⟨i, hi, hid, -, hcheck⟩ := hold id i' hi'
    rw [hid, hcheck]
    exact h.intents id i hi
  · obtain ⟨i, hi, -, hattempt, -⟩ := hold id i' hi'
    rw [hattempt]
    exact h.attempts id i hi

/-- An intent with a new attempt is put into the ledger, or its identifier is taken already. -/
theorem Recorded.emplace (h : l.Recorded) (hnew : l.attempts[i.attempt]? = none)
    (hvalid : i.id.valid = true) (hcheck : checkIntent i = .ok ()) : (l.emplace i).Recorded := by
  have hold : ∀ (id : IntentId) i', (l.emplace i).intents[id]? = some i' →
      l.intents[id]? = some i' ∨ (i.id = id ∧ i = i') := by
    intro id i' hi'
    rw [emplace_intents, ExtTreeMap.getElem?_insertIfNew] at hi'
    split_ifs at hi' with hkey
    · exact .inr ⟨LawfulEqOrd.eq_of_compare hkey.1, Option.some.inj hi'⟩
    · exact .inl hi'
  refine ⟨fun id i' hi' => ?_, fun id i' hi' => ?_⟩
  · rcases hold id i' hi' with hi | ⟨rfl, rfl⟩
    · exact h.intents id i' hi
    · exact ⟨rfl, hvalid, hcheck⟩
  · show (l.attempts.insertIfNew i.attempt i.id)[i'.attempt]? = some id
    rw [ExtTreeMap.getElem?_insertIfNew]
    have hfresh : i.attempt ∉ l.attempts := by
      rw [ExtTreeMap.mem_iff_isSome_getElem?, hnew]
      simp
    rcases hold id i' hi' with hi | ⟨rfl, rfl⟩
    · have hattempt := h.attempts id i' hi
      rw [if_neg]
      · exact hattempt
      · rintro ⟨hsame, -⟩
        rw [LawfulEqOrd.eq_of_compare hsame, hattempt] at hnew
        cases hnew
    · rw [if_pos ⟨ReflCmp.compare_self, hfresh⟩]

theorem Recorded.record (h : l.Recorded) (i : GovernanceIntent) : (l.record i).2.Recorded := by
  refine record_keeps (fun _ => ⟨h.intents, h.attempts⟩) fun id nextId hcheck hnew hadmits => ?_
  have hcounted : IntentLedger.Recorded { l with nextId := nextId } := ⟨h.intents, h.attempts⟩
  refine hcounted.emplace ?_ ?_ ?_
  · rw [sealed_attempt]
    exact hnew
  · rw [GovernanceIntent.sealed_id]
    exact hadmits.valid
  · rw [checkIntent_sealed]
    exact hcheck

end IntentLedger

namespace Governor

variable {g : Governor} {config : GovernorConfig}

theorem ledgerStable_recorded : LedgerStable IntentLedger.Recorded where
  pass := fun _ _ _ _ hupdate h => h.updateLive _ _ hupdate
  record := fun _ i h => h.record i

theorem Reachable.recorded (h : Reachable config g) : g.intents.Recorded :=
  h.invariant (P := fun x => x.intents.Recorded) (IntentLedger.recorded_empty _ _)
    fun _ _ _ hx hmove => ledgerStable_recorded.move hmove (IntentLedger.recorded_empty _ _) hx

end Governor

end EFG
