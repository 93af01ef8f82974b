/-
# Snapshots that can be restored

When the snapshot of a reachable governor can be restored, and what it keeps.  The
restore reads a policy back only if its rules fit the wire format, synthesizes the
exit rules once more, appends the retained windows and only then marks the
completion, refuses a history that has folded an entry, and records a demotion that
must not lie before the latest transition.  `Restorable` collects what this needs,
and a snapshot is restored exactly then (`snapshot_restored_iff`), as long as the
children of every rule node can be counted in the word that their count is written to.
-/
import ElephantFlow.Rebuild

namespace EFG

open ByteCodec Fallible Std

/-! ## Rules that do not fit the format -/

/-- The number of children fits the word it is written to. -/
def RuleNode.Countable (n : RuleNode) : Prop := n.children.length < 2 ^ 32

def RuleSet.Countable (r : RuleSet) : Prop := ∀ n ∈ r.nodes, n.Countable

def PolicyDocument.Countable (p : PolicyDocument) : Prop :=
  p.enterRule.Countable ∧ p.exitRule.Countable

theorem refuses_threshold {t : Threshold} (h : ¬ Wire.Fits t) :
    Refuses (decode : Decoder Status Threshold) (encoded t) := by
  have hkind : t.kind = .count := not_not.mp h
  have hraw : t.kind.toU8 ≥ 16 := by
    rw [hkind]
    decide
  intro rest
  refine ⟨_, bind_of_error (e := badValue "encoded enumeration value is not recognized") ?_⟩
  show readEnum 16 ThresholdKind.ofU8 (t.kind.toU8 :: _) = _
  unfold readEnum
  rw [bind_u8_apply, if_pos hraw]
  rfl

theorem decodes_readCount {ceiling n : ℕ} (h : n ≤ ceiling) (hn : n < 2 ^ 32) :
    Decodes (readCount ceiling) (le32 (UInt32.ofNat n)) n := by
  have hvalue : (UInt32.ofNat n).toNat = n := UInt32.toNat_ofNat_of_lt' hn
  intro rest
  unfold readCount
  rw [bind_u32_apply, hvalue, if_neg (Nat.not_lt.mpr h)]
  rfl

theorem refuses_readCount {ceiling n : ℕ} (h : ceiling < n) (hn : n < 2 ^ 32) :
    Refuses (readCount ceiling) (le32 (UInt32.ofNat n)) := by
  have hvalue : (UInt32.ofNat n).toNat = n := UInt32.toNat_ofNat_of_lt' hn
  intro rest
  refine ⟨oversize "encoded collection length exceeds the ceiling", ?_⟩
  unfold readCount
  rw [bind_u32_apply, hvalue, if_pos h]
  rfl

/-- A node whose threshold or whose children do not fit is refused. -/
theorem refuses_ruleNode {n : RuleNode} (hcount : n.Countable) (h : ¬ Wire.Fits n) :
    Refuses (decode : Decoder Status RuleNode) (encoded n) := by
  have hbytes : encoded n = [n.kind.toU8] ++ (encoded n.threshold ++
      (le32 (UInt32.ofNat n.children.length) ++ n.children.flatMap encoded)) := by
    show ([[n.kind.toU8]] ++ encode n.threshold ++ [le32 (UInt32.ofNat n.children.length)] ++
      n.children.flatMap encode).flatten = _
    simp only [List.flatten_append, flatten_flatMap_encode, List.flatten_cons, List.flatten_nil,
      List.append_nil, List.append_assoc, encoded]
  have hkind : Decodes (readEnum 4 RuleKind.ofU8) [n.kind.toU8] n.kind := by
    intro rest
    unfold readEnum
    rw [List.singleton_append, bind_u8_apply,
      if_neg (UInt8.not_le.mpr (RuleKind.toU8_lt n.kind)), RuleKind.ofU8_toU8]
    rfl
  rw [hbytes]
  refine hkind.refuses ?_
  by_cases hthreshold : Wire.Fits n.threshold
  · have hmany : kMaxPolicyNodes < n.children.length :=
      Nat.not_le.mp fun hle => h ⟨hthreshold, hle⟩
    exact (decodes_encoded hthreshold).refuses ((refuses_readCount hmany hcount).bind _)
  · exact (refuses_threshold hthreshold).bind _

theorem refuses_ruleSet {r : RuleSet} (hcount : r.Countable) (hsize : r.nodes.length ≤ kMaxPolicyNodes)
    (h : ¬ Wire.Fits r) : Refuses (decode : Decoder Status RuleSet) (encoded r) := by
  have hbytes : encoded r = le32 (UInt32.ofNat r.nodes.length) ++ (le32 r.root ++
      (r.nodes.flatMap encoded ++ [])) := by
    show ([le32 (UInt32.ofNat r.nodes.length), le32 r.root] ++ r.nodes.flatMap encode).flatten = _
    simp only [List.flatten_append, flatten_flatMap_encode, List.flatten_cons, List.flatten_nil,
      List.append_nil, List.append_assoc]
  have hbad : ∃ n ∈ r.nodes, ¬ Wire.Fits n := by
    by_contra hno
    push Not at hno
    exact h ⟨hsize, hno⟩
  obtain ⟨bad, hmem, hbad⟩ := hbad
  rw [hbytes]
  refine (decodes_readCount hsize (hsize.trans_lt (by decide))).refuses
    ((decodes_u32 _ _).refuses ((refuses_times (fun n hn => ?_) ⟨bad, hmem, ?_⟩).bind []))
  · by_cases hfits : Wire.Fits n
    · exact .inl (decodes_encoded hfits)
    · exact .inr (refuses_ruleNode (hcount n hn) hfits)
  · exact refuses_ruleNode (hcount bad hmem) hbad

variable {p : PolicyDocument}

/-- The rule sets of a valid policy are within the ceiling. -/
theorem length_nodes_of_validate (h : p.validate = .ok ()) :
    p.enterRule.nodes.length ≤ kMaxPolicyNodes ∧ p.exitRule.nodes.length ≤ kMaxPolicyNodes := by
  have hset : ∀ r : RuleSet, r.validate = .ok () → r.nodes.length ≤ kMaxPolicyNodes := by
    intro r hr
    unfold RuleSet.validate at hr
    simp only [ite_makeStatus_eq_ok] at hr
    exact Nat.not_lt.mp hr.2.1
  obtain ⟨henter, hexit, -⟩ := rules_of_validate h
  refine ⟨hset _ henter, ?_⟩
  rcases hexit with hempty | hvalid
  · rw [List.isEmpty_iff.mp hempty]
    exact Nat.zero_le _
  · exact hset _ hvalid

theorem refuses_policy (hvalid : p.validate = .ok ()) (hcount : p.Countable) (h : ¬ Wire.Fits p) :
    Refuses (decode : Decoder Status PolicyDocument) (encoded p) := by
  obtain ⟨henter, hexit⟩ := length_nodes_of_validate hvalid
  have hbytes : ∃ rest, encoded p = le64 p.id.value ++ (le64 p.generation.value ++
      (encoded p.enterRule ++ (encoded p.exitRule ++ rest))) := by
    refine ⟨(encode p.hysteresis ++ encode p.authorization ++ encode p.validity ++
      encode p.provenance ++ [le64 p.digest]).flatten, ?_⟩
    show ([le64 p.id.value, le64 p.generation.value] ++ encode p.enterRule ++
      encode p.exitRule ++ encode p.hysteresis ++ encode p.authorization ++ encode p.validity ++
      encode p.provenance ++ [le64 p.digest]).flatten = _
    simp only [List.flatten_append, List.flatten_cons, List.flatten_nil, List.append_nil,
      List.append_assoc, encoded]
  obtain ⟨rest, hbytes⟩ := hbytes
  rw [hbytes]
  refine (decodes_u64 _ _).refuses ((decodes_u64 _ _).refuses ?_)
  by_cases hfits : Wire.Fits p.enterRule
  · have hbad : ¬ Wire.Fits p.exitRule := fun hno => h ⟨hfits, hno⟩
    exact (decodes_encoded hfits).refuses ((refuses_ruleSet hcount.2 hexit hbad).bind _)
  · exact (refuses_ruleSet hcount.1 henter hfits).bind _

namespace Governor

variable {source g g' : Governor} {config : GovernorConfig} {now : Tick} {key : FlowKey}
  {r : FlowRecord} {p : PolicyDocument}

/-! ## Snapshots -/

/-- The children of every rule node of the policy can be counted. -/
def Countable (g : Governor) : Prop := ∀ p, g.policy = some p → p.Countable

/-- The bytes of a snapshot. -/
def snapshot (g : Governor) : Bytes := (g.encodeHeader ++ g.encodeBody).flatten

theorem serialize_buffer {ceiling : ℕ} (h : (g.serialize { ceiling := ceiling }).1 = .ok ()) :
    (g.serialize { ceiling := ceiling }).2.buffer = g.snapshot := by
  unfold serialize at h ⊢
  dsimp only at h ⊢
  by_cases hover : (({ ceiling := ceiling } : ByteWriter).writeAll
      (g.encodeHeader ++ g.encodeBody)).overflowed = true
  · rw [if_pos hover] at h
    cases h
  · rw [if_neg hover]
    exact ByteWriter.writeAll_buffer (by simpa using hover)

theorem serialize_of_length_le {ceiling : ℕ} (h : g.snapshot.length ≤ ceiling) :
    (g.serialize { ceiling := ceiling }).1 = .ok () := by
  have hfits : (({ ceiling := ceiling } : ByteWriter).writeAll
      (g.encodeHeader ++ g.encodeBody)).overflowed = false := by
    apply ByteWriter.writeAll_overflowed_eq_false rfl
    show 0 + g.snapshot.length ≤ ceiling
    omega
  unfold serialize
  dsimp only
  rw [if_neg (by simp [hfits])]

/-- An incarnation that does not succeed the stored one is refused. -/
theorem readHeader_of_not_succeeds {boot : BootIdentity} (h : ¬ Succeeds boot source) (rest : Bytes) :
    ∃ e, readHeader boot (source.encodeHeader.flatten ++ rest) = .error e := by
  unfold readHeader encodeHeader
  simp only [List.flatten_cons, List.flatten_nil, List.append_nil, List.append_assoc,
    bind_u32_apply]
  rw [if_neg (not_not_intro rfl), if_neg (not_not_intro rfl)]
  simp only [bind_u64_apply]
  by_cases hvalid : boot.valid = true
  · rw [if_neg (not_not_intro hvalid)]
    by_cases hboot : boot.boot = source.boot.boot
    · rw [if_pos hboot]
      exact ⟨_, rfl⟩
    · have hepoch : boot.epoch ≤ source.boot.epoch :=
        Decidable.not_not.mp fun hlt => h ⟨hvalid, hboot, hlt⟩
      rw [if_neg hboot, if_pos hepoch]
      exact ⟨_, rfl⟩
  · rw [if_pos hvalid]
    exact ⟨_, rfl⟩

theorem deserialize_of_refused (hp : source.policy = some p)
    (hrefuses : Refuses (decode : Decoder Status PolicyDocument) (encoded p))
    (hboot : Succeeds g.boot source) (rest : Bytes) :
    ∃ e, (g.deserialize (source.snapshot ++ rest) now).1 = .error e := by
  have hbody : ∃ tail, source.encodeBody.flatten = encoded p ++ tail := by
    rw [flatten_encodeBody, hp]
    exact ⟨_, rfl⟩
  obtain ⟨tail, hbody⟩ := hbody
  obtain ⟨e, he⟩ := hrefuses (tail ++ rest)
  have hread : Fallible.read (decode : Decoder Status PolicyDocument)
      ({ g with policy := none, exitRules := {} }, encoded p ++ (tail ++ rest)) =
      (.error e, ({ g with policy := none, exitRules := {} }, encoded p ++ (tail ++ rest))) := by
    unfold Fallible.read
    rw [he]
  have hflag : source.header.hasPolicy = true := by
    show source.policy.isSome = true
    rw [hp]
    rfl
  have hpolicy : restorePolicy source.header.hasPolicy (g, encoded p ++ (tail ++ rest)) =
      (.error e, ({ g with policy := none, exitRules := {} }, encoded p ++ (tail ++ rest))) := by
    unfold restorePolicy assign
    rw [Fallible.bind_of_ok (modify_apply _ _), hflag, if_pos rfl, Fallible.bind_of_error hread]
  refine ⟨e, ?_⟩
  unfold deserialize snapshot
  rw [List.flatten_append, List.append_assoc, readHeader_apply hboot, hbody, List.append_assoc]
  dsimp only
  unfold restoreBody
  rw [Fallible.bind_of_error hpolicy]

/-- What is restored from the snapshot of a governor whose policy can be counted could be read. -/
theorem legible_of_restored (h : Reachable config source) (hcount : source.Countable) {rest : Bytes}
    (hok : (g.deserialize (source.snapshot ++ rest) now).1 = .ok ()) :
    Succeeds g.boot source ∧ source.Legible := by
  have hboot : Succeeds g.boot source := by
    by_contra hno
    obtain ⟨e, he⟩ := readHeader_of_not_succeeds hno (source.encodeBody.flatten ++ rest)
    unfold snapshot at hok
    rw [List.flatten_append, List.append_assoc, deserialize_of_header he] at hok
    cases hok
  refine ⟨hboot, h.legible fun p hp => ?_⟩
  by_contra hno
  obtain ⟨e, he⟩ := deserialize_of_refused hp
    (refuses_policy (h.policyValid p hp) (hcount p hp) hno) hboot rest
  rw [he] at hok
  cases hok

/-- In front of a legible snapshot the restore succeeds exactly when the parts can be rebuilt. -/
theorem decides_deserialize (h : Reachable config source) (hlegible : source.Legible)
    (hboot : Succeeds g.boot source) (hceiling : g.config.maxIntents ≤ kMaxAttempts) (rest : Bytes) :
    ((g.deserialize (source.snapshot ++ rest) now).1 = .ok () ↔ Loads source g now) ∧
      ((g.deserialize (source.snapshot ++ rest) now).1 = .ok () →
        Loaded source g (g.deserialize (source.snapshot ++ rest) now).2 now) := by
  have hload : Decides (source.load now) g (Loads source g now) ()
      ((source.reassembled g now).resumption now) :=
    decides_load h.soundTables h.recorded hceiling
  rw [show g.deserialize (source.snapshot ++ rest) now = source.load now g from
    deserialize_of_legible hlegible hboot now rest]
  refine ⟨hload.fst_eq_ok_iff, fun hok => ?_⟩
  rw [hload.1 (hload.fst_eq_ok_iff.mp hok)]
  exact loaded_resumption source g now

/-! ## What can be restored -/

/-- What a restore at the tick needs of a record: the completion does not precede the latest window,
the history has folded nothing, and the demotion does not precede the latest transition. -/
structure RestorableRecord (now : Tick) (r : FlowRecord) : Prop where
  completion : r.ledger.completed = true → ∀ s, r.ledger.latest = some s →
    s.span.endAt ≤ r.ledger.completedAt
  folded : r.history.foldedCount = 0
  digest : r.history.digest = r.history.entries.foldl ClassificationHistory.chainDigest 0
  demotion : r.hasClassification = true → ∀ t, r.history.latest = some t → t.atTick ≤ now

/-- What a restore at the tick needs of a governor: a policy that fits the format and has exit rules,
records that can be rebuilt, and identifiers that leave one more. -/
structure Restorable (g : Governor) (now : Tick) : Prop where
  policy : ∀ p, g.policy = some p → Wire.Fits p ∧ ∃ rules, effectiveExitRule p = .ok rules
  flows : ∀ (key : FlowKey) (r : FlowRecord), g.flows[key]? = some r → RestorableRecord now r
  intents : ∀ id ∈ g.intents.intents, id.value ≠ u64Max

/-- What fits the format can be counted. -/
theorem countable_of_fits (h : Wire.Fits p) : p.Countable := by
  have hset : ∀ r : RuleSet, Wire.Fits r → r.Countable := fun r hr n hn =>
    (hr.2 n hn).2.trans_lt (by decide)
  exact ⟨hset _ h.1, hset _ h.2⟩

theorem replayed_last (config : GovernorConfig) (key : FlowKey) (stored : FlowRecord) :
    (stored.ledger.latest = none ∧ (replayed config key stored).hasPrevious = false) ∨
    (∃ s, stored.ledger.latest = some s ∧ (replayed config key stored).hasPrevious = true ∧
      (replayed config key stored).lastSpanEnd = s.span.endAt) := by
  unfold replayed
  rcases hlast : stored.ledger.latest with _ | s
  · rw [List.getLast?_eq_none_iff.mp hlast]
    exact .inl ⟨rfl, rfl⟩
  · obtain ⟨hsummary, hprevious⟩ := FlowLedger.summarizes_foldl_push
      (l := .make key.flow key.generation config.ledgerLimits) hlast
    exact .inr ⟨s, rfl, hprevious, hsummary.spanEnd⟩

theorem latest_foldl_push (n : ℕ) (ts : List ClassificationTransition) :
    (ts.foldl ClassificationHistory.push (.make n)).latest = ts.getLast? := by
  rcases List.eq_nil_or_concat ts with rfl | ⟨before, t, rfl⟩
  · rfl
  · rw [List.concat_eq_append, List.foldl_append, List.foldl_cons, List.foldl_nil,
      ClassificationHistory.latest_push, List.getLast?_concat]

/-- Under the same configuration a reachable record is rebuilt exactly when its completion does not
precede its latest window and its history has folded nothing. -/
theorem decides_loadRecord_of_reachable (h : Reachable config source)
    (hsame : g.config = source.config) (hr : source.flows[key]? = some r) :
    Decides (loadRecord r) (g.freshRecord key) (Rebuildable r (replayed g.config key r)) ()
      (loadedRecord r (completedAs r.ledger (replayed g.config key r))
        (r.history.entries.foldl ClassificationHistory.push (.make g.config.maxHistoryPerFlow))) := by
  obtain ⟨hsamples, hhistory⟩ := h.lengths hr
  have htracked : Tracked g.config key r := by
    rw [hsame]
    exact (h.justified.records key r hr).tracked
  exact decides_loadRecord_of_tracked htracked (h.storable hr).history hsamples hhistory

/-- The completion of a record is marked again exactly when it does not precede its latest window. -/
theorem rebuildable_iff (config : GovernorConfig) (key : FlowKey) (r : FlowRecord) :
    Rebuildable r (replayed config key r) ↔
      (r.ledger.completed = true → ∀ s, r.ledger.latest = some s →
        s.span.endAt ≤ r.ledger.completedAt) ∧
      r.history.foldedCount = 0 ∧
      r.history.digest = r.history.entries.foldl ClassificationHistory.chainDigest 0 := by
  have hcompletion : (r.ledger.completed = true → ¬ ((replayed config key r).hasPrevious = true ∧
      r.ledger.completedAt < (replayed config key r).lastSpanEnd)) ↔
      (r.ledger.completed = true → ∀ s, r.ledger.latest = some s →
        s.span.endAt ≤ r.ledger.completedAt) := by
    rcases replayed_last config key r with ⟨hnone, hnew⟩ | ⟨s, hsome, hprevious, hend⟩
    · simp [hnone, hnew]
    · simp [hsome, hprevious, hend]
  rw [← hcompletion]
  exact ⟨fun h => ⟨h.completion, h.folded, h.digest⟩, fun h => ⟨h.1, h.2.1, h.2.2⟩⟩

/-- The demotion of a record whose history ends in its state is recorded exactly when it does not
precede the latest transition. -/
theorem demotable_iff (hlatest : r.hasClassification = true → ∃ t, r.history.latest = some t ∧
      t.toState = r.classification.state) :
    Demotable now r ↔
      (r.hasClassification = true → ∀ t, r.history.latest = some t → t.atTick ≤ now) := by
  refine imp_congr_right fun hc => ?_
  obtain ⟨t, ht, hstate⟩ := hlatest hc
  constructor
  · rintro ⟨h, hrecord⟩ last hlast
    exact ((ClassificationHistory.record_eq_ok hrecord).2 last hlast).1
  · intro hle
    refine ⟨_, ClassificationHistory.record_of_continues fun last hlast => ⟨hle last hlast, ?_⟩⟩
    rw [ht] at hlast
    rw [← Option.some.inj hlast]
    exact hstate.symm

theorem restorableRecord_iff (h : Reachable config source) (hsame : g.config = source.config)
    (hr : source.flows[key]? = some r) :
    Rebuilds g (key, r) ∧ Demotable now (rebuilt g key r) ↔ RestorableRecord now r := by
  have hload := decides_loadRecord_of_reachable h hsame hr
  have hkey : (key.flow.valid && key.generation.valid) = true := by
    have hvalid := h.validKeys key (mem_flows_iff.mpr ⟨r, hr⟩)
    rw [hvalid.1, hvalid.2]
    rfl
  have hrebuilds : Rebuilds g (key, r) ↔ Rebuildable r (replayed g.config key r) :=
    ⟨fun hrebuild => hload.fst_eq_ok_iff.mp hrebuild.2, fun hrebuild =>
      ⟨hkey, hload.fst_eq_ok_iff.mpr hrebuild⟩⟩
  have hdemotable : Rebuildable r (replayed g.config key r) → (Demotable now (rebuilt g key r) ↔
      (r.hasClassification = true → ∀ t, r.history.latest = some t → t.atTick ≤ now)) := by
    intro hrebuild
    -- the history that is rebuilt ends as the stored one, in the stored state
    have hrebuilt : rebuilt g key r = _ := congrArg Prod.snd (hload.1 hrebuild)
    have hlatest := latest_foldl_push g.config.maxHistoryPerFlow r.history.entries
    rw [hrebuilt, demotable_iff]
    · show (r.hasClassification = true → ∀ t, (r.history.entries.foldl ClassificationHistory.push
        (.make g.config.maxHistoryPerFlow)).latest = some t → t.atTick ≤ now) ↔ _
      rw [hlatest]
      exact Iff.rfl
    · intro hc
      have hc' : r.hasClassification = true := hc
      obtain ⟨t, ht, hstate, -⟩ := (h.justified.records key r hr).latest hc'
      refine ⟨t, hlatest.trans ht, ?_⟩
      show _ = (if r.hasClassification then r.classification else {}).state
      rw [if_pos hc']
      exact hstate
  rw [hrebuilds]
  constructor
  · rintro ⟨hrebuild, hdemote⟩
    obtain ⟨hcompletion, hfolded, hdigest⟩ := (rebuildable_iff _ _ _).mp hrebuild
    exact ⟨hcompletion, hfolded, hdigest, (hdemotable hrebuild).mp hdemote⟩
  · intro hall
    have hrebuild := (rebuildable_iff g.config key r).mpr
      ⟨hall.completion, hall.folded, hall.digest⟩
    exact ⟨hrebuild, (hdemotable hrebuild).mpr hall.demotion⟩

/-- Under the same configuration the parts of a reachable governor can be rebuilt exactly when its
records are restorable, its exit rules can be synthesized, and no identifier is the last one. -/
theorem loads_iff (h : Reachable config source) (hsame : g.config = source.config) :
    Loads source g now ↔
      (∀ p, source.policy = some p → ∃ rules, effectiveExitRule p = .ok rules) ∧
      (∀ (key : FlowKey) (r : FlowRecord), source.flows[key]? = some r → RestorableRecord now r) ∧
      ∀ id ∈ source.intents.intents, id.value ≠ u64Max := by
  have hsized := sized_of_reachable h
  have hroom : source.flows.size ≤ g.config.maxFlows ∧
      source.intents.intents.size ≤ g.config.maxIntents := by
    rw [hsame]
    exact ⟨hsized.flows, hsized.intents⟩
  constructor
  · intro hloads
    refine ⟨fun p hp => (hloads.policy p hp).2, fun key r hr => ?_, fun id hid => ?_⟩
    · exact (restorableRecord_iff h hsame hr).mp (hloads.flows key r hr)
    · obtain ⟨i, hi⟩ := ExtTreeMap.isSome_getElem?_iff_mem.mpr hid |> Option.isSome_iff_exists.mp
      have hne := hloads.intents i (KeyedMap.mem_values_iff.mpr ⟨id, hi⟩)
      rwa [(h.recorded.intents id i hi).1] at hne
  · rintro ⟨hpolicy, hflows, hlast⟩
    refine ⟨fun p hp => ⟨h.policyValid p hp, hpolicy p hp⟩, hroom, fun key r hr => ?_,
      fun i hi => ?_⟩
    · exact (restorableRecord_iff h hsame hr).mpr (hflows key r hr)
    · obtain ⟨id, hid⟩ := KeyedMap.mem_values_iff.mp hi
      rw [(h.recorded.intents id i hid).1]
      exact hlast id (ExtTreeMap.mem_iff_isSome_getElem?.mpr (by rw [hid]; rfl))

theorem maxIntents_le_kMaxAttempts (config : GovernorConfig) :
    config.clamped.maxIntents ≤ kMaxAttempts :=
  (ceilings_of_clamped config).2.2.trans (by decide)

section Restored

variable (h : Reachable config source) (hsame : g.config = source.config)
include h hsame

theorem maxIntents_le_of_same : g.config.maxIntents ≤ kMaxAttempts := by
  rw [hsame, h.config_eq]
  exact maxIntents_le_kMaxAttempts config

theorem restored_of_restorable (hboot : Succeeds g.boot source) (hrestorable : source.Restorable now)
    (rest : Bytes) : (g.deserialize (source.snapshot ++ rest) now).1 = .ok () := by
  have hlegible := h.legible fun p hp => (hrestorable.policy p hp).1
  have hloads : Loads source g now := (loads_iff h hsame).mpr
    ⟨fun p hp => (hrestorable.policy p hp).2, hrestorable.flows, hrestorable.intents⟩
  exact (decides_deserialize h hlegible hboot (maxIntents_le_of_same h hsame) rest).1.mpr hloads

theorem restorable_of_restored (hcount : source.Countable) {rest : Bytes}
    (hok : (g.deserialize (source.snapshot ++ rest) now).1 = .ok ()) :
    Succeeds g.boot source ∧ source.Restorable now ∧ Loads source g now ∧
      Loaded source g (g.deserialize (source.snapshot ++ rest) now).2 now := by
  obtain ⟨hboot, hlegible⟩ := legible_of_restored h hcount hok
  obtain ⟨hiff, hloaded⟩ :=
    decides_deserialize h hlegible hboot (maxIntents_le_of_same h hsame) rest
  have hloads := hiff.mp hok
  obtain ⟨hrules, hflows, hlast⟩ := (loads_iff h hsame).mp hloads
  exact ⟨hboot, ⟨fun p hp => ⟨hlegible.policy p hp, hrules p hp⟩, hflows, hlast⟩, hloads,
    hloaded hok⟩

end Restored

/-- The snapshot of a reachable governor is restored by a valid later incarnation, at a tick of its
own, exactly when the governor is restorable at that tick: its policy fits the format and has exit
rules, no completion precedes the latest window, no history has folded an entry, no latest transition
lies behind the tick, and no intent has the last identifier.  A rule node with more children than a
word can count is the one case in which the bytes do not tell what was stored. -/
theorem snapshot_restored_iff (h : Reachable config g) {ceiling : ℕ}
    (hserialize : (g.serialize { ceiling := ceiling }).1 = .ok ()) {b : BootIdentity}
    (hboot : b.boot ≠ g.boot.boot) (hepoch : g.boot.epoch < b.epoch) :
    g.Countable ∧ (((make config).setIncarnation b).deserialize
      (g.serialize { ceiling := ceiling }).2.buffer now).1 = .ok () ↔
    b.valid = true ∧ g.Restorable now := by
  have hsame : ((make config).setIncarnation b).config = g.config := h.config_eq.symm
  rw [serialize_buffer hserialize, ← List.append_nil g.snapshot]
  constructor
  · rintro ⟨hcount, hok⟩
    obtain ⟨hsucceeds, hrestorable, -⟩ := restorable_of_restored h hsame hcount hok
    exact ⟨hsucceeds.1, hrestorable⟩
  · rintro ⟨hvalid, hrestorable⟩
    have hsucceeds : Succeeds ((make config).setIncarnation b).boot g :=
      ⟨hvalid, hboot, UInt64.not_le.mpr hepoch⟩
    exact ⟨fun p hp => countable_of_fits (hrestorable.policy p hp).1,
      restored_of_restorable h hsame hsucceeds hrestorable []⟩

namespace Scenario

theorem fits_policy : Wire.Fits policy := by
  refine ⟨⟨by decide, ?_⟩, by decide, fun n hn => nomatch hn⟩
  show ∀ n ∈ [({ kind := .threshold } : RuleNode)], _
  simp only [List.mem_singleton, forall_eq]
  exact ⟨(by decide : ThresholdKind.always ≠ .count), by decide⟩

/-- A governor under the policy of the small run, checked record by record. -/
theorem restorable_of_checks (hpolicy : g.policy = some policy)
    (hflows : ∀ e ∈ g.flows.toList, e.2.ledger.completed = false ∧ e.2.history.foldedCount = 0 ∧
      e.2.history.digest = e.2.history.entries.foldl ClassificationHistory.chainDigest 0 ∧ ∀ t ∈
      e.2.history.latest, t.atTick ≤ now)
    (hintents : ∀ id ∈ g.intents.intents.keys, id.value ≠ u64Max) : g.Restorable now := by
  refine ⟨fun p hp => ?_, fun key r hr => ?_, fun id hid => ?_⟩
  · rw [hpolicy] at hp
    obtain rfl := Option.some.inj hp
    exact ⟨fits_policy, { nodes := [{ kind := .threshold }] }, by decide +kernel⟩
  · obtain ⟨hopen, hfolded, hdigest, htick⟩ :=
      hflows (key, r) (ExtTreeMap.mem_toList_iff_getElem?_eq_some.mpr hr)
    refine ⟨fun hc => ?_, hfolded, hdigest, fun _ t ht => htick t ht⟩
    rw [hopen] at hc
    cases hc
  · exact hintents id (ExtTreeMap.mem_keys.mpr hid)

/-- What the restore of the small run at tick 20 needs. -/
theorem restorable_governor : governor.Restorable 20 :=
  restorable_of_checks (by decide +kernel) (by decide +kernel) (by decide +kernel)

end Scenario

open Scenario

/-- The small run is restored by the second incarnation. -/
theorem governor_restored : governor.Countable ∧
    (((make {}).setIncarnation reboot).deserialize (governor.serialize
      { ceiling := governor.snapshot.length }).2.buffer 20).1 = .ok () :=
  (snapshot_restored_iff reachable_governor (serialize_of_length_le le_rfl)
    (by decide +kernel) (by decide +kernel)).mpr ⟨by decide, restorable_governor⟩

namespace Scenario

/-- The small run completed, with one more window behind the completion. -/
def overrun : Governor := governor.run [.completeFlow ⟨1⟩ ⟨1⟩ 10, .submitEvidence nextSample]

theorem reachable_overrun : Reachable {} overrun := by
  refine reachable_governor.run ?_
  simp [Admits]

end Scenario

set_option maxRecDepth 20000 in
/-- Evidence that is accepted behind the completion makes a snapshot that no later incarnation
restores: the windows are appended first, and then the completion precedes the last of them. -/
theorem overrun_not_restored : Reachable {} overrun ∧
    (overrun.serialize { ceiling := overrun.snapshot.length }).1 = .ok () ∧
    reboot.valid = true ∧ reboot.boot ≠ overrun.boot.boot ∧
    overrun.boot.epoch < reboot.epoch ∧ overrun.lastTick ≤ 20 ∧
    (((make {}).setIncarnation reboot).deserialize (overrun.serialize
      { ceiling := overrun.snapshot.length }).2.buffer 20).1 ≠ .ok () := by
  rw [serialize_buffer (serialize_of_length_le le_rfl)]
  exact ⟨reachable_overrun, serialize_of_length_le le_rfl, by decide +kernel, by decide +kernel,
    by decide +kernel, by decide +kernel, by decide +kernel⟩

/-! ## What a restore keeps of the evidence -/

/-- The two ledgers say the same about the flow. -/
structure SameEvidence (l l' : FlowLedger) : Prop where
  measurements : l'.measurements = l.measurements
  completed : l'.completed = l.completed
  gapDetected : l'.gapDetected = l.gapDetected
  droppedWindows : l'.droppedWindows = l.droppedWindows

/-- Evidence for the flow generation is refused as one of a retired generation. -/
def RefusesGeneration (g : Governor) (key : FlowKey) : Prop :=
  ∃ text, (g.openFlow key).1 = makeStatus .stale text

/-- Making room is refused for want of room alone. -/
theorem ensureFlowCapacity_ne_stale {e : Status} {x : Governor}
    (h : g.ensureFlowCapacity = (.error e, x)) (text : String) :
    (.error e : Except Status Unit) ≠ makeStatus .stale text := by
  intro hstale
  cases hstale
  unfold ensureFlowCapacity at h
  split_ifs at h with hroom
  · cases h
  · rcases hvictim : g.evictOneCompletedFlow with _ | x'
    · rw [hvictim] at h
      cases h
    · rw [hvictim] at h
      cases h

theorem refusesGeneration_iff : g.RefusesGeneration key ↔
    key ∉ g.flows ∧ ∃ highest, g.highestGeneration[key.flow]? = some highest ∧
      key.generation ≤ highest := by
  unfold RefusesGeneration openFlow
  rcases hr : g.flows[key]? with _ | r
  swap
  · constructor
    · rintro ⟨text, hno⟩
      cases hno
    · rintro ⟨hno, -⟩
      exact absurd (mem_flows_iff.mpr ⟨r, hr⟩) hno
  have hnew : key ∉ g.flows := fun hmem => by
    obtain ⟨r, hsome⟩ := mem_flows_iff.mp hmem
    rw [hr] at hsome
    cases hsome
  dsimp only
  unfold establishFlow
  rcases hhighest : g.highestGeneration[key.flow]? with _ | highest
  · refine ⟨?_, fun h => nomatch h.2⟩
    rintro ⟨text, hstale⟩
    rcases hroom : g.ensureFlowCapacity with ⟨e | ⟨⟩, x⟩
    · rw [hroom] at hstale
      exact absurd hstale (ensureFlowCapacity_ne_stale hroom text)
    · rw [hroom] at hstale
      cases hstale
  · dsimp only
    by_cases hlt : key.generation < highest
    · rw [if_pos hlt]
      exact ⟨fun _ => ⟨hnew, highest, rfl, UInt64.le_of_lt hlt⟩, fun _ => ⟨_, rfl⟩⟩
    · rw [if_neg hlt]
      by_cases heq : key.generation = highest
      · rw [if_pos heq, heq]
        exact ⟨fun _ => ⟨hnew, highest, rfl, UInt64.le_refl _⟩, fun _ => ⟨_, rfl⟩⟩
      · rw [if_neg heq]
        constructor
        · rintro ⟨text, hstale⟩
          rcases hroom : g.ensureFlowCapacity with ⟨e | ⟨⟩, x⟩
          · rw [hroom] at hstale
            exact absurd hstale (ensureFlowCapacity_ne_stale hroom text)
          · rw [hroom] at hstale
            cases hstale
        · rintro ⟨-, h, hsome, hle⟩
          obtain rfl := Option.some.inj hsome
          exact absurd (StrongId.ext (UInt64.le_antisymm hle (UInt64.not_lt.mp hlt))) heq

theorem generation_le_of_compare {k k' : FlowKey} (h : compare k k' = .lt)
    (hflow : k'.flow = k.flow) : k.generation ≤ k'.generation := by
  have hlex : (compare k.flow k'.flow).then (compare k.generation k'.generation) = .lt := h
  have hsame : compare k.flow k.flow = .eq := ReflCmp.compare_self
  rw [hflow, hsame] at hlex
  exact UInt64.le_of_lt (Std.compare_eq_lt.mp hlex)

theorem highest_of_sorted {l : List (FlowKey × FlowRecord)}
    (hsorted : l.Pairwise fun e e' => compare e.1 e'.1 = .lt) :
    (∀ (flow : FlowId) (highest : Generation),
      (l.foldl (fun m e => m.insert e.1.flow e.1.generation)
        (∅ : ExtTreeMap FlowId Generation))[flow]? = some highest →
      ∃ e ∈ l, e.1 = ⟨flow, highest⟩) ∧
    ∀ e ∈ l, ∃ highest, (l.foldl (fun m e => m.insert e.1.flow e.1.generation)
      (∅ : ExtTreeMap FlowId Generation))[e.1.flow]? = some highest ∧
        e.1.generation ≤ highest := by
  induction l using List.reverseRecOn with
  | nil =>
    refine ⟨fun flow highest h => ?_, fun e he => nomatch he⟩
    simp at h
  | append_singleton l last ih =>
    obtain ⟨hinit, -, hlast⟩ := List.pairwise_append.mp hsorted
    obtain ⟨hfrom, hbelow⟩ := ih hinit
    rw [List.foldl_append]
    refine ⟨fun flow highest h => ?_, fun e he => ?_⟩
    · rw [List.foldl_cons, List.foldl_nil, getElem?_highest_insert] at h
      split_ifs at h with hflow
      · refine ⟨last, by simp, ?_⟩
        rw [← hflow, ← Option.some.inj h]
      · obtain ⟨e, he, heq⟩ := hfrom flow highest h
        exact ⟨e, List.mem_append_left _ he, heq⟩
    · rw [List.foldl_cons, List.foldl_nil, getElem?_highest_insert]
      rcases List.mem_append.mp he with hold | hnew
      · by_cases hflow : last.1.flow = e.1.flow
        · -- a later entry of the same flow has a higher generation
          rw [if_pos hflow]
          refine ⟨_, rfl, ?_⟩
          have hlt := hlast e hold last (List.mem_singleton_self last)
          exact generation_le_of_compare hlt hflow
        · rw [if_neg hflow]
          exact hbelow e hold
      · rw [List.mem_singleton.mp hnew, if_pos rfl]
        exact ⟨_, rfl, UInt64.le_refl _⟩

theorem demoted_ledger (boot : BootIdentity) (now : Tick) (r : FlowRecord) :
    (demoted boot now r).ledger = r.ledger := by
  unfold demoted
  split_ifs
  · rcases r.history.record (demotion now r) with e | hist
    · rfl
    · rfl
  · rfl

theorem ledger_of_loaded (h : Reachable config source) (hsame : g.config = source.config)
    (hloads : Loads source g now) (hloaded : Loaded source g g' now)
    (hr : source.flows[key]? = some r) : ∃ r' : FlowRecord, g'.flows[key]? = some r' ∧
      r'.ledger = completedAs r.ledger (replayed g.config key r) := by
  have hload := decides_loadRecord_of_reachable h hsame hr
  have hrebuild := hload.fst_eq_ok_iff.mp (hloads.flows key r hr).1.2
  have hrebuilt : (rebuilt g key r).ledger = completedAs r.ledger (replayed g.config key r) :=
    congrArg (fun x => x.2.ledger) (hload.1 hrebuild)
  refine ⟨rebound (demoted g.boot now (rebuilt g key r)), ?_, ?_⟩
  · rw [hloaded.flows key, hr]
    rfl
  · rw [rebound_ledger, demoted_ledger, hrebuilt]

/-- A completion that is marked again changes nothing but the completion. -/
theorem completedAs_frame (stored l : FlowLedger) :
    (completedAs stored l).samples = l.samples ∧ (completedAs stored l).limits = l.limits ∧
    (completedAs stored l).gapDetected = l.gapDetected ∧
    (completedAs stored l).droppedWindows = l.droppedWindows ∧
    (l.completed = false → (completedAs stored l).completed = stored.completed) := by
  unfold completedAs
  split_ifs with hc
  · exact ⟨rfl, rfl, rfl, rfl, fun _ => hc.symm⟩
  · exact ⟨rfl, rfl, rfl, rfl, fun hl => hl.trans (Bool.not_eq_true _ ▸ hc).symm⟩

/-- Appending the retained windows again makes the ledger of a flow without its gaps and without the
count of what was dropped. -/
theorem sameEvidence_replayed_iff (h : Tracked config key r) :
    SameEvidence r.ledger (completedAs r.ledger (replayed config key r)) ↔
      r.ledger.gapDetected = false ∧ r.ledger.droppedWindows = 0 := by
  have hroom : (FlowLedger.make key.flow key.generation config.ledgerLimits).samples.length +
      r.ledger.samples.length ≤
        (FlowLedger.make key.flow key.generation config.ledgerLimits).limits.maxSamples := by
    rw [← h.limits]
    show 0 + _ ≤ _
    rw [Nat.zero_add]
    exact h.ledger.bounded
  obtain ⟨hsamples, hdropped⟩ := FlowLedger.samples_foldl_push hroom
  obtain ⟨-, -, hlimits, hgap, hopen⟩ := FlowLedger.frame_foldl_push
    (.make key.flow key.generation config.ledgerLimits) r.ledger.samples
  obtain ⟨hsamples', hlimits', hgap', hdropped', hcompleted⟩ :=
    completedAs_frame r.ledger (replayed config key r)
  constructor
  · intro hsame
    exact ⟨hsame.gapDetected.symm.trans (hgap'.trans hgap),
      hsame.droppedWindows.symm.trans (hdropped'.trans hdropped)⟩
  · rintro ⟨hnogap, hnone⟩
    have hgaps := (hgap'.trans hgap).trans hnogap.symm
    have hdrops := (hdropped'.trans hdropped).trans hnone.symm
    refine ⟨?_, hcompleted hopen, hgaps, hdrops⟩
    unfold FlowLedger.measurements
    rw [hsamples'.trans hsamples, hlimits'.trans (hlimits.trans h.limits.symm), hcompleted hopen,
      hgaps, hdrops]
    rfl

/-- The restored governor tracks the flows of the snapshot. -/
theorem mem_flows_of_loaded (hloaded : Loaded source g g' now) (key : FlowKey) :
    key ∈ g'.flows ↔ key ∈ source.flows := by
  rw [mem_flows_iff, mem_flows_iff, hloaded.flows key]
  constructor
  · rintro ⟨r', hr'⟩
    obtain ⟨r, hr, -⟩ := Option.map_eq_some_iff.mp hr'
    exact ⟨r, hr⟩
  · rintro ⟨r, hr⟩
    rw [hr]
    exact ⟨_, rfl⟩

/-- The restored governor refuses every generation that was refused exactly when every flow is still
tracked under a generation that is not below its highest one. -/
theorem refusesGeneration_of_loaded_iff (hloaded : Loaded source g g' now) :
    (∀ key : FlowKey, source.RefusesGeneration key → g'.RefusesGeneration key) ↔
      ∀ (flow : FlowId) (highest : Generation), source.highestGeneration[flow]? = some highest →
        ∃ generation, (⟨flow, generation⟩ : FlowKey) ∈ source.flows ∧ highest ≤ generation := by
  obtain ⟨hfrom, hbelow⟩ := highest_of_sorted
    (ExtTreeMap.ordered_keys_toList (t := source.flows))
  rw [← hloaded.highestGeneration] at hfrom hbelow
  constructor
  · intro hall flow highest hhighest
    by_cases hmem : (⟨flow, highest⟩ : FlowKey) ∈ source.flows
    · exact ⟨highest, hmem, UInt64.le_refl _⟩
    · have hrefused := hall ⟨flow, highest⟩
        (refusesGeneration_iff.mpr ⟨hmem, highest, hhighest, UInt64.le_refl _⟩)
      obtain ⟨-, generation, hgeneration, hle⟩ := refusesGeneration_iff.mp hrefused
      obtain ⟨e, he, hkey⟩ := hfrom flow generation hgeneration
      refine ⟨generation, ?_, hle⟩
      rw [← hkey, mem_flows_iff]
      exact ⟨e.2, ExtTreeMap.mem_toList_iff_getElem?_eq_some.mp he⟩
  · intro hall key hrefused
    obtain ⟨hnew, highest, hhighest, hle⟩ := refusesGeneration_iff.mp hrefused
    obtain ⟨generation, hmem, hge⟩ := hall key.flow highest hhighest
    obtain ⟨r, hr⟩ := mem_flows_iff.mp hmem
    obtain ⟨top, htop, hle'⟩ := hbelow _ (ExtTreeMap.mem_toList_iff_getElem?_eq_some.mpr hr)
    refine refusesGeneration_iff.mpr ⟨?_, top, htop, ?_⟩
    · rwa [mem_flows_of_loaded hloaded]
    · exact UInt64.le_trans hle (UInt64.le_trans hge hle')

/-- Under the same configuration a snapshot that is restored keeps what evidence has established
exactly when no ledger has seen a gap or dropped a window, and every flow is still tracked under a
generation that is not below its highest one. -/
theorem restore_keeps_evidence_iff (h : Reachable config g) {ceiling : ℕ}
    (hserialize : (g.serialize { ceiling := ceiling }).1 = .ok ()) (hcount : g.Countable)
    {x : Governor} (hsame : x.config = g.config)
    (hok : (x.deserialize (g.serialize { ceiling := ceiling }).2.buffer now).1 = .ok ()) :
    ((∀ (key : FlowKey) (r : FlowRecord), g.flows[key]? = some r → ∃ r' : FlowRecord,
        (x.deserialize (g.serialize { ceiling := ceiling }).2.buffer now).2.flows[key]? = some r' ∧
          SameEvidence r.ledger r'.ledger) ∧
      ∀ key : FlowKey, g.RefusesGeneration key →
        (x.deserialize (g.serialize { ceiling := ceiling }).2.buffer now).2.RefusesGeneration key) ↔
    (∀ (key : FlowKey) (r : FlowRecord), g.flows[key]? = some r →
        r.ledger.gapDetected = false ∧ r.ledger.droppedWindows = 0) ∧
      ∀ (flow : FlowId) (highest : Generation), g.highestGeneration[flow]? = some highest →
        ∃ generation, (⟨flow, generation⟩ : FlowKey) ∈ g.flows ∧ highest ≤ generation := by
  rw [serialize_buffer hserialize, ← List.append_nil g.snapshot] at hok ⊢
  obtain ⟨-, -, hloads, hloaded⟩ := restorable_of_restored h hsame hcount hok
  generalize (x.deserialize (g.snapshot ++ []) now).2 = g' at hloaded ⊢
  refine and_congr (forall₃_congr fun key r hr => ?_) ?_
  · obtain ⟨r', hr', hledger⟩ := ledger_of_loaded h hsame hloads hloaded hr
    have htracked : Tracked x.config key r := by
      rw [hsame]
      exact (h.justified.records key r hr).tracked
    rw [← sameEvidence_replayed_iff htracked, ← hledger]
    constructor
    · rintro ⟨r'', hr'', hsame⟩
      rw [hr'] at hr''
      rwa [Option.some.inj hr'']
    · exact fun hsame => ⟨r', hr', hsame⟩
  · exact refusesGeneration_of_loaded_iff hloaded

namespace Scenario

/-- The second incarnation restores the small run. -/
theorem deserialize_governor : (((make {}).setIncarnation reboot).deserialize
    (governor.serialize { ceiling := governor.snapshot.length }).2.buffer 20).1 = .ok () := by
  rw [serialize_buffer (serialize_of_length_le le_rfl), ← List.append_nil (snapshot _)]
  exact restored_of_restorable reachable_governor reachable_governor.config_eq.symm
    ⟨by decide, by decide +kernel, by decide +kernel⟩ restorable_governor []

theorem evidence_governor :
    (∀ e ∈ governor.flows.toList, e.2.ledger.gapDetected = false ∧ e.2.ledger.droppedWindows = 0) ∧
    ∀ e ∈ governor.highestGeneration.toList, (⟨e.1, e.2⟩ : FlowKey) ∈ governor.flows := by
  decide +kernel

end Scenario

/-- The restored flow of the small run says what the stored one said. -/
theorem governor_keeps_evidence :
    (∀ (key : FlowKey) (r : FlowRecord), governor.flows[key]? = some r →
      ∃ r' : FlowRecord, (((make {}).setIncarnation reboot).deserialize
        (governor.serialize
          { ceiling := governor.snapshot.length }).2.buffer 20).2.flows[key]? = some r' ∧
          SameEvidence r.ledger r'.ledger) ∧
    ∀ key : FlowKey, governor.RefusesGeneration key →
      (((make {}).setIncarnation reboot).deserialize (governor.serialize
        { ceiling := governor.snapshot.length }).2.buffer 20).2.RefusesGeneration key := by
  have hcount : governor.Countable := fun p hp =>
    countable_of_fits (restorable_governor.policy p hp).1
  have hsame : ((make {}).setIncarnation reboot).config = governor.config :=
    reachable_governor.config_eq.symm
  refine (restore_keeps_evidence_iff reachable_governor (serialize_of_length_le le_rfl)
    hcount hsame deserialize_governor).mpr
    ⟨fun key r hr => ?_, fun flow highest hsome => ?_⟩
  · exact evidence_governor.1 (key, r)
      (ExtTreeMap.mem_toList_iff_getElem?_eq_some.mpr hr)
  · have hmem := evidence_governor.2 (flow, highest)
      (ExtTreeMap.mem_toList_iff_getElem?_eq_some.mpr hsome)
    exact ⟨highest, hmem, UInt64.le_refl _⟩

namespace Scenario

/-- A window of the second flow behind a gap. -/
def skippingSample : FlowSample := FlowSample.signed
  { secondSample with window := ⟨2⟩, windowSequence := 2, span := ⟨90, 100⟩, cumulativeBytes := 20000
                      validity := ⟨100, 500⟩ }

/-- A population of one flow that tells gaps. -/
def watchful : GovernorConfig := { maxFlows := 1, maxTelemetryGapTicks := 5 }

/-- The governor that tracks one flow retires the first flow for the second one, whose evidence has a
gap. -/
def forgetful : Governor := ((make watchful).setIncarnation boot).run
  [.submitPolicy policy, .submitEvidence sample, .completeFlow ⟨1⟩ ⟨1⟩ 20,
    .submitEvidence secondSample, .submitEvidence skippingSample]

theorem reachable_forgetful : Reachable watchful forgetful := by
  refine reachable_incarnation.run ?_
  simp [Admits]

/-- The restored governor. -/
def remembered : Governor := (((make watchful).setIncarnation reboot).deserialize
  (forgetful.serialize { ceiling := forgetful.snapshot.length }).2.buffer 100).2

end Scenario

set_option maxRecDepth 20000 in
/-- The snapshot is restored, and the gap of the second flow and the retirement of the first one are
gone with it: the restored governor no longer refuses the evidence as one for a retired generation. -/
theorem restore_forgets_evidence : Reachable watchful forgetful ∧
    (forgetful.serialize { ceiling := forgetful.snapshot.length }).1 = .ok () ∧
    reboot.boot ≠ forgetful.boot.boot ∧
    forgetful.boot.epoch < reboot.epoch ∧ forgetful.lastTick ≤ 100 ∧
    (((make watchful).setIncarnation reboot).deserialize
      (forgetful.serialize
        { ceiling := forgetful.snapshot.length }).2.buffer 100).1 = .ok () ∧
    (∃ r r' : FlowRecord, forgetful.flows[(⟨⟨2⟩, ⟨1⟩⟩ : FlowKey)]? = some r ∧
      remembered.flows[(⟨⟨2⟩, ⟨1⟩⟩ : FlowKey)]? = some r' ∧
      r.ledger.gapDetected = true ∧ r'.ledger.gapDetected = false) ∧
    forgetful.RefusesGeneration flowKey ∧
    ¬ remembered.RefusesGeneration flowKey := by
  unfold remembered
  rw [serialize_buffer (serialize_of_length_le le_rfl)]
  obtain ⟨hok, ⟨r', hr', hno⟩, hnone⟩ :
      let x := ((make watchful).setIncarnation reboot).deserialize forgetful.snapshot 100
      x.1 = .ok () ∧ (∃ r, x.2.flows[(⟨⟨2⟩, ⟨1⟩⟩ : FlowKey)]? = some r ∧
        r.ledger.gapDetected = false) ∧ x.2.highestGeneration[(⟨1⟩ : FlowId)]? = none := by
    decide +kernel
  obtain ⟨r, hr, hgap⟩ : ∃ r, forgetful.flows[(⟨⟨2⟩, ⟨1⟩⟩ : FlowKey)]? = some r ∧
      r.ledger.gapDetected = true := by decide +kernel
  refine ⟨reachable_forgetful, serialize_of_length_le le_rfl, by decide +kernel, by decide +kernel,
    by decide +kernel, hok, ⟨r, r', hr, hr', hgap, hno⟩, ?_, fun hrefuses => ?_⟩
  · exact refusesGeneration_iff.mpr ⟨by decide +kernel, ⟨1⟩, by decide +kernel, by decide⟩
  · obtain ⟨-, highest, hhighest, -⟩ := refusesGeneration_iff.mp hrefuses
    rw [hnone] at hhighest
    cases hhighest

end Governor

end EFG
