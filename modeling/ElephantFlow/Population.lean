/-
# Bounded populations

Every structure of the governor has a configured ceiling: the tracked flows, the
entries of the intent ledger, the windows of a ledger and the entries of a
history.  The ceilings hold in every state of a run.

The map of the highest generations is the exception.  An evicted flow stays in it,
so that it grows with every flow that was ever created.  It keeps within the
ceiling of the flows in every run whose evidence finds its flow in the map, or
room for one more entry.
-/
import ElephantFlow.Rollover
import ElephantFlow.Sweep

namespace EFG

open ByteCodec Std

/-! ## Histories -/

namespace ClassificationHistory

/-- A history that retains at most `n` entries. -/
structure Capped (n : ℕ) (h : ClassificationHistory) : Prop where
  ceiling : h.maxEntries = n
  room : 1 ≤ n
  entries : h.entries.length ≤ n

variable {h : ClassificationHistory}

theorem Capped.push {n : ℕ} (hh : h.Capped n) (t : ClassificationTransition) :
    (h.push t).Capped n := by
  refine ⟨hh.ceiling, hh.room, ?_⟩
  have hroom := hh.room
  have hentries := hh.entries
  show (_ ++ [t]).length ≤ n
  rw [List.length_append, List.length_singleton, hh.ceiling]
  split_ifs with hfull
  · rw [List.length_tail]
    omega
  · omega

theorem Capped.record {n : ℕ} {h' : ClassificationHistory} {t : ClassificationTransition}
    (hh : h.Capped n) (hr : h.record t = .ok h') : h'.Capped n := by
  rw [(record_eq_ok hr).1]
  exact hh.push t

end ClassificationHistory

/-! ## Intent ledgers -/

namespace IntentLedger

/-- A ledger that holds at most `n` intents. -/
structure Capped (n : ℕ) (l : IntentLedger) : Prop where
  ceiling : l.maxIntents = n
  intents : l.intents.size ≤ n

variable {n : ℕ} {l : IntentLedger}

theorem Capped.updateLive (h : l.Capped n) (select : GovernanceIntent → Bool) (state : IntentState)
    (update : GovernanceIntent → GovernanceIntent) :
    (l.updateLive select state update).2.Capped n := by
  refine ⟨h.ceiling, ?_⟩
  show (l.intents.map _).size ≤ n
  rw [ExtTreeMap.size_map]
  exact h.intents

/-- An intent is added only below the ceiling. -/
theorem Capped.record (h : l.Capped n) (i : GovernanceIntent) : (l.record i).2.Capped n := by
  refine record_keeps (fun _ => ⟨h.ceiling, h.intents⟩) fun id nextId _ _ hadmits => ⟨h.ceiling, ?_⟩
  rw [emplace_intents, ← h.ceiling]
  exact ExtTreeMap.size_insertIfNew_le.trans hadmits.room.1

end IntentLedger

namespace Governor

variable {g g' : Governor} {key : FlowKey} {r : FlowRecord} {now : Tick} {e : Event}
  {config : GovernorConfig} {E : Governor → FlowRecord → Prop} {Q : FlowRecord → Prop}
  {cmd : Command}

/-- A property of intent ledgers that passes over the live intents and recordings keep. -/
structure LedgerStable (L : IntentLedger → Prop) : Prop where
  pass : ∀ l select state update, IntentLedger.ReasonOnly update → L l →
    L (l.updateLive select state update).2
  record : ∀ l i, L l → L (l.record i).2

theorem ledgerStable_capped (n : ℕ) : LedgerStable (IntentLedger.Capped n) where
  pass := fun _ _ _ _ _ h => h.updateLive _ _ _
  record := fun _ i h => h.record i

section LedgerStable

variable {L : IntentLedger → Prop} (hL : LedgerStable L)
include hL

theorem LedgerStable.produceIntents (h : L g.intents) (record : FlowRecord) (now : Tick) :
    L (g.produceIntents record now).2.intents := by
  have hretired : L (g.retireStale record.classification).intents := hL.pass _ _ _ _ IntentLedger.reasonOnly_markStale h
  rcases produceIntents_cases g record now with ⟨-, heq⟩ | ⟨-, -, heq⟩ | ⟨p, -, -, -, heq⟩
  · rw [heq]
    exact h
  · rw [heq]
    exact hretired
  · rw [heq]
    refine Fallible.Keeps.collect (P := fun x : Governor => L x.intents) (fun q _ x hx => ?_) _ hretired
    show L (emit record.classification now q x).2.intents
    rw [emit_intents]
    exact hL.record _ _ hx

theorem LedgerStable.evaluate (h : L g.intents) (record : FlowRecord) (now : Tick) :
    L (g.evaluate record now).2.1.intents := by
  rcases evaluate_cases g record now with ⟨e, _, _, heq⟩ | ⟨-, -, heq⟩ | ⟨c, hist, -, heq⟩
  · rw [heq]
    exact h
  · rw [heq]
    exact h
  · rw [heq, commit_snd_fst]
    refine hL.produceIntents ?_ _ now
    obtain ⟨index, aggregate, counters, hs⟩ := settle_fst
      { g with classificationSequence := g.classificationSequence + 1 } record (stamped c hist) hist now
    rw [hs]
    show L (intentsAfter g.intents (stamped c hist))
    unfold intentsAfter
    split_ifs
    · exact hL.pass _ _ _ _ IntentLedger.reasonOnly_id h
    · exact h

open Fallible in
theorem LedgerStable.restoreIntents {s t : Governor × Bytes} (hrun : restoreIntents s = (.ok (), t))
    (hstart : L { maxIntents := s.1.config.maxIntents, maxAttempts := kMaxAttempts }) :
    L t.1.intents := by
  have hitem : Keeps (fun t : IntentLedger × Bytes => L t.1) restoreIntent := by
    refine (Keeps.read _).bind fun intent t ht => ?_
    have hrecord := hL.record t.1 intent ht
    rcases hr : t.1.record intent with ⟨e | stored, l⟩
    · rw [hr] at hrecord
      exact hrecord
    · rw [hr] at hrecord
      exact hrecord
  obtain ⟨maxIntents, s', hgets, hrun⟩ := bind_eq_ok_iff.mp hrun
  cases hgets
  obtain ⟨l, rest, hcounted, rfl⟩ := focus_eq_ok hrun
  obtain ⟨count, rest', -, -, htimes⟩ := counted_eq_ok hcounted
  have hkept := hitem.times count (_, rest') hstart
  rw [htimes] at hkept
  exact hkept

open Fallible in
theorem LedgerStable.deserialize {bytes : Bytes} (hok : (g.deserialize bytes now).1 = .ok ())
    (hstart : L { maxIntents := g.config.maxIntents, maxAttempts := kMaxAttempts }) :
    L (g.deserialize bytes now).2.intents := by
  obtain ⟨header, s₁, s₂, s₃, ⟨hconfig, -⟩, -, hflows, hread, hrun⟩ := deserialize_stages hok
  have hconfig₂ : s₂.1.config = g.config := by
    obtain ⟨⟨⟨_, _, heq⟩, -⟩, -⟩ := restoreFlows_eq_ok hflows
    rw [heq]
    exact hconfig
  have hledger : L s₃.1.intents := hL.restoreIntents hread (by rw [hconfig₂]; exact hstart)
  have hresume : Keeps (fun x : Governor => L x.intents) (resumeAfterRestore now) := by
    refine keeps_resumeAfterRestore (fun _ _ _ _ hx _ _ _ => hx) (fun _ hx => hx)
      (fun y key r hy _ => ?_) fun x _ _ hx => hL.pass _ _ _ _ (fun _ => ⟨.authorityStale, rfl⟩) hx
    show L (y.updateIndex key r).1.intents
    rw [updateIndex_intents]
    exact hy
  have hend := hresume (s₃.1.withHeader header now) hledger
  rw [hrun] at hend
  exact hend

theorem LedgerStable.move (hmove : Move g e g')
    (hstart : L { maxIntents := g.config.maxIntents, maxAttempts := kMaxAttempts })
    (h : L g.intents) : L g'.intents := by
  cases hmove with
  | inputs => exact h
  | advance => exact h
  | policy => exact h
  | invalidate now hnow =>
    refine invalidateAllAuthority_keeps (P := fun x => L x.intents) (fun key => ?_)
      (fun x _ hx => hL.pass _ _ _ _ (fun _ => ⟨.authorityStale, rfl⟩) hx) h
    exact keeps_invalidateFlow_of_inputs fun _ _ _ _ _ hx => hx
  | evict k record =>
    show L (g.updateIndex k record).1.intents
    rw [updateIndex_intents]
    exact h
  | create => exact h
  | retire select state update hdead hstate hupdate => exact hL.pass _ _ _ _ hupdate h
  | evidence => exact h
  | complete => exact h
  | evaluate k record now => exact hL.evaluate h record now
  | reset => exact hstart
  | restore bytes now hok => exact hL.deserialize hok hstart

end LedgerStable

/-! ## Records -/

/-- A property of records that every change of a record keeps.  What an evaluation may assume of the
governor and the record it starts from is `E`. -/
structure MoveStable (config : GovernorConfig) (E : Governor → FlowRecord → Prop)
    (Q : FlowRecord → Prop) : Prop where
  fresh : ∀ (g : Governor) key, g.config = config → Q (g.freshRecord key)
  ledger : ∀ r ledger completedTick, Q r →
    Q { r with ledger := ledger, completedTick := completedTick }
  bound : ∀ r, Q r → Q (rebound r)
  cleared : ∀ r, Q r → Q (clearedRecord .policyChanged r)
  suspended : ∀ r t h, Q r → r.history.record t = .ok h → Q (suspendedRecord .policyChanged r h)
  committed : ∀ (g : Governor) r now c h, E g r → Q r → g.Commits r now c h →
    Q (committedRecord r (stamped c h) h now)
  restored : RecordStable Q
  demoted : ∀ r boot now h, Q r → r.hasClassification = true →
    r.history.record (demotion now r) = .ok h → Q (demotedRecord boot now r h)

theorem MoveStable.evaluate (hQ : MoveStable config E Q) (hE : E g r) (h : Q r) (now : Tick) :
    Q (g.evaluate r now).2.2 := by
  rcases evaluate_cases g r now with ⟨e, _, _, heq⟩ | ⟨-, -, heq⟩ | ⟨c, hist, hc, heq⟩
  · rw [heq]
    exact h
  · rw [heq]
    exact hQ.restored.scalars r r.enterStreak r.exitStreak now r.evaluatedWindow r.completedTick h
  · rw [heq, commit_snd_snd]
    exact hQ.bound _ (hQ.committed g r now c hist hE h hc)

/-- A move keeps such a property of all records. -/
theorem MoveStable.move (hQ : MoveStable config E Q) (hmove : Move g e g')
    (hE : ∀ (key : FlowKey) (r : FlowRecord), g.flows[key]? = some r → E g r)
    (h : AllRecords config Q g) : AllRecords config Q g' := by
  cases hmove with
  | inputs => exact h
  | advance => exact h
  | policy => exact h
  | invalidate now hnow =>
    refine invalidateAllAuthority_keeps (P := AllRecords config Q) (fun key => ?_)
      (fun x _ hx => hx) h
    apply keeps_invalidateFlow
    · intro x k r hx hr _ _
      exact hx.setFlow (hQ.cleared r (hx.2 k r hr))
    · intro x k r hist hx hr _ hh
      obtain ⟨index, aggregate, counters, heq⟩ := withdrawn_eq x .policyChanged k r hist
      rw [heq]
      exact AllRecords.setFlow (g := { x with
        bindingIndex := index, resourceAggregate := aggregate, counters := counters }) hx
        (hQ.bound _ (hQ.suspended r _ hist (hx.2 k r hr) hh))
  | evict k record =>
    have hinputs := sameInputs_updateIndex g k record
    refine ⟨hinputs.config.trans h.1, fun key r hr => ?_⟩
    have hr' : ((g.updateIndex k record).1.flows.erase k)[key]? = some r := hr
    rw [hinputs.flows, ExtTreeMap.getElem?_erase] at hr'
    split_ifs at hr'
    exact h.2 key r hr'
  | create key => exact h.createFlow (hQ.fresh g key h.1)
  | retire => exact h
  | evidence record s hrecord =>
    exact h.setFlow (hQ.ledger record _ record.completedTick (h.2 _ record hrecord))
  | complete key record ledger atTick hrecord =>
    exact h.setFlow (hQ.ledger record ledger atTick (h.2 _ record hrecord))
  | evaluate key record now hrecord =>
    have hinputs := sameInputs_evaluate g record now
    have h' : AllRecords config Q (g.evaluate record now).2.1 :=
      ⟨hinputs.config.trans h.1, fun k r hr => h.2 k r (by rw [← hinputs.flows]; exact hr)⟩
    exact h'.setFlow (hQ.evaluate (hE key record hrecord) (h.2 key record hrecord) now)
  | reset =>
    refine ⟨h.1, fun key r hr => ?_⟩
    exact of_getElem?_empty hr
  | restore bytes now hok =>
    rw [← h.1]
    exact hQ.restored.deserialize hQ.bound hQ.demoted
      (fun x key hx => hQ.fresh x key (hx.trans h.1)) hok

/-- The history of the record keeps to the configured ceiling. -/
def KeepsHistory (config : GovernorConfig) (r : FlowRecord) : Prop :=
  r.history.Capped config.maxHistoryPerFlow

theorem recordStable_keepsHistory : RecordStable (KeepsHistory config) where
  appended := fun _ _ h => h
  completed := fun _ _ _ h _ => h
  recorded := fun _ _ _ h hrecord => h.record hrecord
  scalars := fun _ _ _ _ _ _ h => h
  classified := fun _ _ _ h => h

theorem moveStable_keepsHistory (hroom : 1 ≤ config.maxHistoryPerFlow) :
    MoveStable config (fun _ _ => True) (KeepsHistory config) where
  fresh := by
    rintro g key rfl
    refine ⟨?_, hroom, Nat.zero_le _⟩
    show (if g.config.maxHistoryPerFlow = 0 then 1 else _) = _
    rw [if_neg (by omega)]
  ledger := fun _ _ _ h => h
  bound := fun r h => by
    obtain ⟨_, _, _, _, heq⟩ := rebound_eq r
    rw [heq]
    exact h
  cleared := fun _ h => h
  suspended := fun _ _ _ h hrecord => h.record hrecord
  committed := fun _ _ _ _ _ _ h hc => h.record hc.recorded
  restored := recordStable_keepsHistory
  demoted := fun _ _ _ _ h _ hrecord => h.record hrecord

/-! ## The highest generations -/

/-- Every tracked flow has a highest generation, and there are no more of them than tracked
flows. -/
structure Remembered (g : Governor) : Prop where
  tracked : ∀ key ∈ g.flows, key.flow ∈ g.highestGeneration
  size : g.highestGeneration.size ≤ g.flows.size

theorem Remembered.createFlow (h : g.Remembered) (key : FlowKey) : (g.createFlow key).Remembered := by
  refine ⟨fun k hk => ?_, ?_⟩
  · show k.flow ∈ g.highestGeneration.insert key.flow key.generation
    rw [ExtTreeMap.mem_insert]
    rcases (mem_createFlow g key k).mp hk with rfl | hk
    · exact .inl ReflCmp.compare_self
    · exact .inr (h.tracked k hk)
  · show (g.highestGeneration.insert key.flow key.generation).size ≤
      (g.flows.insertIfNew key (g.freshRecord key)).size
    have hsize := h.size
    rw [ExtTreeMap.size_insert, ExtTreeMap.size_insertIfNew]
    by_cases hk : key ∈ g.flows
    · rw [if_pos (ExtTreeMap.contains_iff_mem.mpr (h.tracked key hk)), if_pos hk]
      exact hsize
    · rw [if_neg hk]
      split_ifs <;> omega

theorem Remembered.setFlow (h : g.Remembered) (hr : g.flows[key]? = some r) (r' : FlowRecord) :
    (g.setFlow key r').Remembered := by
  refine ⟨fun k hk => h.tracked k ((mem_setFlow hr r' k).mp hk), ?_⟩
  rw [size_setFlow_of_tracked hr]
  exact h.size

theorem remembered_cleared (g : Governor) : Remembered { g with
    flows := ∅, highestGeneration := ∅, bindingIndex := ∅, resourceAggregate := ∅ } :=
  ⟨fun _ hk => absurd hk ExtTreeMap.not_mem_empty, by simp⟩

theorem restoreStable_remembered : RestoreStable Remembered where
  tables := fun _ _ _ h => ⟨h.tracked, h.size⟩
  cleared := fun g _ => remembered_cleared g
  created := by
    intro x key r hx
    obtain ⟨r₀, hr₀⟩ := mem_flows_iff.mp ((mem_createFlow x key key).mpr (.inl rfl))
    exact (hx.createFlow key).setFlow hr₀ r
  replaced := fun _ _ _ r' hr hx => hx.setFlow hr r'
  intents := fun _ _ h => ⟨h.tracked, h.size⟩
  index := fun _ _ _ h => ⟨h.tracked, h.size⟩
  clock := fun _ _ _ _ _ _ h => ⟨h.tracked, h.size⟩

theorem Move.highestGeneration (hmove : Move g e g') :
    g'.highestGeneration = g.highestGeneration ∨
    (∃ key, e = .create key ∧
      g'.highestGeneration = g.highestGeneration.insert key.flow key.generation) ∨
    g'.highestGeneration = ∅ ∨
    (∃ bytes now, e = .restore bytes now) ∧ g'.highestGeneration.size ≤ g.config.maxFlows := by
  cases hmove with
  | invalidate now hnow =>
    obtain ⟨_, _, _, _, _, heq⟩ := invalidateAllAuthority_rest g now .policyChanged
    exact .inl (by rw [heq])
  | evict k record => exact .inl (sameInputs_updateIndex g k record).highestGeneration
  | create key => exact .inr (.inl ⟨key, rfl, rfl⟩)
  | evaluate k record now => exact .inl (sameInputs_evaluate g record now).highestGeneration
  | reset => exact .inr (.inr (.inl rfl))
  | restore bytes now hok =>
    have hremembered := restoreStable_remembered.deserialize (fun x _ => remembered_cleared x) hok
    exact .inr (.inr (.inr ⟨⟨bytes, now, rfl⟩,
      hremembered.size.trans (deserialize_spec hok).bounded⟩))
  | _ => exact .inl rfl

/-- Evidence finds its flow among the highest generations, or room for one more of them. -/
def RemembersFlow (g : Governor) : Command → Prop
  | .submitEvidence s =>
    s.flow ∈ g.highestGeneration ∨ g.highestGeneration.size < g.config.maxFlows
  | _ => True

theorem size_insert_insert {highest : ExtTreeMap FlowId Generation} (flow : FlowId)
    (generation generation' : Generation) :
    ((highest.insert flow generation).insert flow generation').size =
      (highest.insert flow generation').size := by
  have hmem : (highest.insert flow generation).contains flow = true := by simp
  rw [ExtTreeMap.size_insert, if_pos hmem, ExtTreeMap.size_insert, ExtTreeMap.size_insert]

/-- The flows that an operation adds are the flow of its sample. -/
def Adds (cmd : Command) (_ : Governor) : Event → Prop
  | .create key => ∃ s, cmd = .submitEvidence s ∧ key.flow = s.flow
  | .restore _ _ => ∀ s, cmd ≠ .submitEvidence s
  | _ => True

theorem exec_adds (hb : g.Bounded) (hadmits : g.Admits cmd) :
    Performs (Adds cmd) g (g.exec cmd) := by
  refine exec_performs (fun x e he => ?_) (fun s hs _ => ⟨fun _ _ _ _ => trivial, fun x _ _ => ?_⟩)
    (fun bytes now hcmd s hs => ?_) hb.flows hadmits
  · cases e with
    | evict | create | restore => exact absurd he id
    | _ => trivial
  · exact ⟨s, hs, rfl⟩
  · rw [hcmd] at hs
    cases hs

/-- The highest generations fit, also after the flow of the sample of the operation joins them. -/
structure Fits (config : GovernorConfig) (cmd : Command) (g : Governor) : Prop where
  config_eq : g.config = config
  size : g.highestGeneration.size ≤ config.maxFlows
  sample : ∀ s generation, cmd = .submitEvidence s →
    (g.highestGeneration.insert s.flow generation).size ≤ config.maxFlows

theorem Fits.move (hpos : 1 ≤ config.maxFlows) (h : Fits config cmd g) (hadds : Adds cmd g e)
    (hmove : Move g e g') : Fits config cmd g' := by
  have hconfig : g'.config = config := hmove.config_eq.trans h.config_eq
  rcases hmove.highestGeneration with hsame | ⟨key, rfl, hcreated⟩ | hempty | ⟨⟨bytes, now, rfl⟩, hsize⟩
  · exact ⟨hconfig, by rw [hsame]; exact h.size, by rw [hsame]; exact h.sample⟩
  · obtain ⟨s, rfl, hflow⟩ := hadds
    refine ⟨hconfig, ?_, ?_⟩
    · rw [hcreated, hflow]
      exact h.sample s key.generation rfl
    · rintro s' generation ⟨⟩
      rw [hcreated, hflow, size_insert_insert]
      exact h.sample s generation rfl
  · refine ⟨hconfig, ?_, fun s generation _ => ?_⟩
    · rw [hempty]
      simp
    · rw [hempty, ExtTreeMap.size_insert]
      simpa using hpos
  · refine ⟨hconfig, ?_, fun s _ hs => absurd hs (hadds s)⟩
    rw [← h.config_eq]
    exact hsize

/-- An operation under the condition keeps the highest generations within the ceiling. -/
theorem size_highestGeneration_exec (hb : g.Bounded) (hpos : 1 ≤ g.config.maxFlows)
    (hsize : g.highestGeneration.size ≤ g.config.maxFlows) (hadmits : g.Admits cmd)
    (hroom : g.RemembersFlow cmd) : (g.exec cmd).highestGeneration.size ≤ g.config.maxFlows := by
  have hstart : Fits g.config cmd g := by
    refine ⟨rfl, hsize, ?_⟩
    rintro s generation rfl
    rw [ExtTreeMap.size_insert]
    rcases hroom with hmem | hlt
    · rw [if_pos (ExtTreeMap.contains_iff_mem.mpr hmem)]
      exact hsize
    · split_ifs <;> omega
  exact (Performs.invariant (fun _ _ _ hx => hx.move hpos) (exec_adds hb hadmits) hstart).size

/-! ## Runs -/

/-- The tracked flows, the intents, the samples of every ledger and the entries of every history stay
within the configured ceilings. -/
structure Sized (g : Governor) : Prop where
  flows : g.flows.size ≤ g.config.maxFlows
  intents : g.intents.intents.size ≤ g.config.maxIntents
  samples : ∀ (key : FlowKey) (r : FlowRecord), g.flows[key]? = some r →
    r.ledger.samples.length ≤ r.ledger.limits.maxSamples
  histories : ∀ (key : FlowKey) (r : FlowRecord), g.flows[key]? = some r →
    r.history.entries.length ≤ g.config.maxHistoryPerFlow

theorem one_le_clamped (config : GovernorConfig) :
    1 ≤ config.clamped.maxFlows ∧ 1 ≤ config.clamped.maxHistoryPerFlow := by
  have hclamp : ∀ hi n : ℕ, 1 ≤ hi → 1 ≤ GovernorConfig.clampTo 1 hi n := by
    intro hi n hhi
    unfold GovernorConfig.clampTo
    split_ifs <;> omega
  exact ⟨hclamp _ _ (by decide), hclamp _ _ (by decide)⟩

theorem capped_intents (h : Reachable config g) : g.intents.Capped config.clamped.maxIntents := by
  have hstart : IntentLedger.Capped config.clamped.maxIntents
      { maxIntents := config.clamped.maxIntents, maxAttempts := kMaxAttempts } :=
    ⟨rfl, Nat.zero_le _⟩
  have hrun := h.invariant (P := fun x => x.config = config.clamped ∧
    x.intents.Capped config.clamped.maxIntents) ⟨rfl, hstart⟩ ?_
  · exact hrun.2
  · rintro x e x' ⟨hconfig, hcapped⟩ hmove
    refine ⟨hmove.config_eq.trans hconfig, (ledgerStable_capped _).move hmove ?_ hcapped⟩
    rw [hconfig]
    exact hstart

theorem keepsHistory_of_reachable (h : Reachable config g) :
    AllRecords config.clamped (KeepsHistory config.clamped) g := by
  refine h.invariant ⟨rfl, fun key r hr => ?_⟩ fun _ _ _ hx hmove =>
    (moveStable_keepsHistory (one_le_clamped config).2).move hmove (fun _ _ _ => trivial) hx
  exact of_getElem?_empty hr

theorem sized_of_reachable (h : Reachable config g) : g.Sized where
  flows := h.bounded.flows
  intents := by
    rw [h.config_eq]
    exact (capped_intents h).intents
  samples := fun key r hr => (h.justified.records key r hr).tracked.ledger.bounded
  histories := fun key r hr => by
    rw [h.config_eq]
    exact ((keepsHistory_of_reachable h).2 key r hr).entries

/-- In every run the flows, the intents, the samples and the histories stay within their ceilings; the
highest generations do in every run whose evidence is for remembered flows or finds room for one more. -/
theorem populations_bounded (config : GovernorConfig) :
    (∀ g, Reachable config g → g.Sized) ∧
    ∀ g, ReachableUnder RemembersFlow config g → g.highestGeneration.size ≤ g.config.maxFlows := by
  refine ⟨fun g hg => sized_of_reachable hg, fun g hg => ?_⟩
  refine hg.invariant (P := fun x => x.highestGeneration.size ≤ x.config.maxFlows) ?_ ?_
  · show (∅ : ExtTreeMap FlowId Generation).size ≤ _
    simp
  · intro x cmd hx hsize hadmits hroom
    have hpos : 1 ≤ x.config.maxFlows := by
      rw [hx.config_eq]
      exact (one_le_clamped config).1
    have hx' : Reachable config (x.exec cmd) := hx.tail ⟨cmd, hadmits, rfl⟩
    rw [hx'.config_eq, ← hx.config_eq]
    exact size_highestGeneration_exec hx.bounded hpos hsize hadmits hroom

open Scenario

/-- The flow of the small run finds room. -/
theorem populations_bounded_scenario :
    governor.Sized ∧
    governor.highestGeneration.size ≤ governor.config.maxFlows := by
  obtain ⟨hsized, hhighest⟩ := populations_bounded {}
  refine ⟨hsized _ reachable_governor, hhighest _ ?_⟩
  refine ReachableUnder.run (Relation.ReflTransGen.single ⟨.setIncarnation Scenario.boot, trivial,
    trivial, rfl⟩) ⟨trivial, trivial, trivial, trivial, trivial, trivial, trivial, .inr ?_, trivial⟩
  decide +kernel

/-- The governor that tracks one flow remembers every flow that it tracked. -/
theorem evicted_flow_remembered :
    Reachable single ((make single).run rollingOver) ∧
    ((make single).run rollingOver).config.maxFlows = 1 ∧
    ((make single).run rollingOver).flows.size = 1 ∧
    ((make single).run rollingOver).highestGeneration.size = 2 := by
  refine ⟨Reachable.run .refl ?_, by decide +kernel, by decide +kernel, by decide +kernel⟩
  intro cmd hcmd g
  simp only [rollingOver, List.mem_cons, List.not_mem_nil, or_false] at hcmd
  rcases hcmd with rfl | rfl | rfl | rfl | rfl | rfl <;> trivial

end Governor

end EFG
