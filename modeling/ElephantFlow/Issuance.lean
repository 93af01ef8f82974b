/-
# What an evaluation puts into the intent ledger

Every entry of the ledger after an evaluation stood there before (`Stems`) or is the
sealed copy of an intent that `produce_intents` built for the classification it has
just committed (`Issued`).  The requests behind these intents are permitted by the
policy, and their envelopes lie inside the ceiling (`Issued.inside`).
-/
import ElephantFlow.EvaluationFacts

namespace EFG

open ByteCodec

/-! ## Envelopes -/

/-- Elementwise at most: numbers by their order, permissions by implication. -/
structure IntentBounds.AtMost (a b : IntentBounds) : Prop where
  rateReductionBp : a.rateReductionBp ≤ b.rateReductionBp
  durationTicks : a.durationTicks ≤ b.durationTicks
  targets : a.targets ≤ b.targets
  placement : a.placement = true → b.placement = true
  isolation : a.isolation = true → b.isolation = true
  admissionReduction : a.admissionReduction = true → b.admissionReduction = true
  congestionEscalation : a.congestionEscalation = true → b.congestionEscalation = true

theorem ite_lt_le_left (a b : UInt32) : (if a < b then a else b) ≤ a := by
  split_ifs with h
  · exact UInt32.le_refl _
  · exact UInt32.not_lt.mp h

theorem ite_lt_le_right (a b : UInt32) : (if a < b then a else b) ≤ b := by
  split_ifs with h
  · exact UInt32.le_of_lt h
  · exact UInt32.le_refl _

theorem narrowBounds_le_requested (requested ceiling : IntentBounds) :
    (narrowBounds requested ceiling).AtMost requested where
  rateReductionBp := ite_lt_le_left _ _
  durationTicks := minOf_le_left _ _
  targets := ite_lt_le_left _ _
  placement := fun h => (Bool.and_eq_true_iff.mp h).1
  isolation := fun h => (Bool.and_eq_true_iff.mp h).1
  admissionReduction := fun h => (Bool.and_eq_true_iff.mp h).1
  congestionEscalation := fun h => (Bool.and_eq_true_iff.mp h).1

theorem narrowBounds_le_ceiling (requested ceiling : IntentBounds) :
    (narrowBounds requested ceiling).AtMost ceiling where
  rateReductionBp := ite_lt_le_right _ _
  durationTicks := minOf_le_right _ _
  targets := ite_lt_le_right _ _
  placement := fun h => (Bool.and_eq_true_iff.mp h).2
  isolation := fun h => (Bool.and_eq_true_iff.mp h).2
  admissionReduction := fun h => (Bool.and_eq_true_iff.mp h).2
  congestionEscalation := fun h => (Bool.and_eq_true_iff.mp h).2

/-! ## Entries of the ledger -/

namespace IntentLedger

variable {l l' : IntentLedger} {id : IntentId} {i j : GovernanceIntent}
  {select : GovernanceIntent → Bool} {state : IntentState}
  {update : GovernanceIntent → GovernanceIntent}

theorem mem_updateLive (select : GovernanceIntent → Bool) (state : IntentState)
    (update : GovernanceIntent → GovernanceIntent) :
    id ∈ (l.updateLive select state update).2.intents ↔ id ∈ l.intents :=
  Std.ExtTreeMap.mem_map

theorem stored_of_stored_record (h : (l.record i).2.intents[id]? = some j) :
    l.intents[id]? = some j ∨ j = ({ i with id := id } : GovernanceIntent).sealed := by
  rcases record_intents l i with hsame | ⟨new, hnew⟩
  · rw [hsame] at h
    exact .inl h
  · rw [hnew, Std.ExtTreeMap.getElem?_insertIfNew] at h
    split_ifs at h with hc
    · have hid : new = id := Std.LawfulEqOrd.eq_of_compare hc.1
      subst hid
      exact .inr (Option.some.inj h).symm
    · exact .inl h

/-- The intent continues an entry of the ledger: the entry itself, or the entry in a state that is
neither live nor suppressed. -/
def Stems (l : IntentLedger) (id : IntentId) (i : GovernanceIntent) : Prop :=
  ∃ j, l.intents[id]? = some j ∧ i.flow = j.flow ∧ i.flowGeneration = j.flowGeneration ∧
    (i = j ∨ (isLive i.state = false ∧ i.state ≠ .suppressed))

theorem Stems.refl (h : l.intents[id]? = some i) : l.Stems id i := ⟨i, h, rfl, rfl, .inl rfl⟩

theorem Stems.mem (h : l.Stems id i) : id ∈ l.intents := by
  obtain ⟨j, hj, -⟩ := h
  rw [← Std.ExtTreeMap.isSome_getElem?_iff_mem]
  exact Option.isSome_of_eq_some hj

theorem Stems.trans (h : l'.Stems id i)
    (hbefore : ∀ j, l'.intents[id]? = some j → l.Stems id j) : l.Stems id i := by
  obtain ⟨j, hj, hflow, hgeneration, hstate⟩ := h
  obtain ⟨k, hk, hflow', hgeneration', hstate'⟩ := hbefore j hj
  refine ⟨k, hk, hflow.trans hflow', hgeneration.trans hgeneration', ?_⟩
  rcases hstate with rfl | hdead
  · exact hstate'
  · exact .inr hdead

/-- A live intent that continues an entry is that entry. -/
theorem Stems.live (h : l.Stems id i) (hlive : isLive i.state = true) : l.Live id i := by
  obtain ⟨j, hj, -, -, rfl | ⟨hdead, -⟩⟩ := h
  · exact ⟨hj, hlive⟩
  · rw [hlive] at hdead
    cases hdead

/-- A suppressed intent that continues an entry is that entry. -/
theorem Stems.suppressed (h : l.Stems id i) (hstate : i.state = .suppressed) :
    l.intents[id]? = some i := by
  obtain ⟨j, hj, -, -, rfl | ⟨-, hne⟩⟩ := h
  · exact hj
  · exact absurd hstate hne

/-- A pass that moves no intent to `Suppressed` leaves the suppressed entries that were there. -/
theorem stored_of_suppressed_updateLive
    (h : (l.updateLive select state update).2.intents[id]? = some i) (hstate : state ≠ .suppressed)
    (hi : i.state = .suppressed) : l.intents[id]? = some i := by
  rw [updateLive, Std.ExtTreeMap.getElem?_map, Option.map_eq_some_iff] at h
  obtain ⟨j, hj, hji⟩ := h
  by_cases hhit : hits select j = true
  · rw [if_pos hhit] at hji
    rw [← hji, GovernanceIntent.sealed_state] at hi
    exact absurd hi hstate
  · rw [if_neg hhit] at hji
    rw [← hji]
    exact hj

/-- A pass that ends intents leaves continuations of the entries. -/
theorem stems_updateLive (h : (l.updateLive select state update).2.intents[id]? = some i)
    (hdead : isLive state = false) (hstate : state ≠ .suppressed)
    (hflow : ∀ i, (update i).flow = i.flow)
    (hgeneration : ∀ i, (update i).flowGeneration = i.flowGeneration) : l.Stems id i := by
  rw [updateLive, Std.ExtTreeMap.getElem?_map, Option.map_eq_some_iff] at h
  obtain ⟨j, hj, hji⟩ := h
  by_cases hhit : hits select j = true
  · rw [if_pos hhit] at hji
    refine ⟨j, hj, ?_, ?_, .inr ⟨?_, ?_⟩⟩
    · rw [← hji, GovernanceIntent.sealed_flow]
      exact hflow j
    · rw [← hji, GovernanceIntent.sealed_flowGeneration]
      exact hgeneration j
    · rw [← hji, GovernanceIntent.sealed_state]
      exact hdead
    · rw [← hji, GovernanceIntent.sealed_state]
      exact hstate
  · rw [if_neg hhit] at hji
    subst hji
    exact .refl hj

end IntentLedger

namespace Governor

variable {g g' x : Governor} {record : FlowRecord} {now : Tick} {c : FlowClassification}
  {h : ClassificationHistory} {id : IntentId} {i : GovernanceIntent} {rs : List IntentRequest}
  {d : FlowDecision} {r : IntentRequest} {l : IntentLedger} {auth : IntentAuthorization}
  {live out : List GovernanceIntent} {p : PolicyDocument}

/-- The intent is the sealed copy, under its identifier, of what one of the requests asks for. -/
def Issued (g : Governor) (c : FlowClassification) (now : Tick) (rs : List IntentRequest)
    (id : IntentId) (i : GovernanceIntent) : Prop :=
  ∃ r ∈ rs, ∃ intent, intent = g.intentOf c now r ∧
    i = ({ intent with id := id } : GovernanceIntent).sealed

theorem intentOf_congr (hconfig : g'.config = g.config) (hpolicy : g'.policy = g.policy)
    (c : FlowClassification) (now : Tick) (r : IntentRequest) :
    g'.intentOf c now r = g.intentOf c now r := by
  unfold intentOf ceilingBounds
  rw [hconfig, hpolicy]

theorem Issued.congr (hissued : g.Issued c now rs id i)
    (hconfig : g'.config = g.config) (hpolicy : g'.policy = g.policy) : g'.Issued c now rs id i := by
  obtain ⟨r, hr, intent, hintent, heq⟩ := hissued
  exact ⟨r, hr, intent, hintent.trans (intentOf_congr hconfig hpolicy c now r).symm, heq⟩

theorem Issued.names (hissued : g.Issued c now rs id i) :
    i.flow = c.flow ∧ i.flowGeneration = c.flowGeneration := by
  obtain ⟨r, -, intent, hintent, heq⟩ := hissued
  rw [heq, GovernanceIntent.sealed_flow, GovernanceIntent.sealed_flowGeneration]
  rw [hintent]
  exact ⟨rfl, rfl⟩

theorem emit_inputs (x : Governor) (c : FlowClassification) (now : Tick) (r : IntentRequest) :
    (emit c now r x).2.config = x.config ∧ (emit c now r x).2.policy = x.policy := by
  unfold emit
  obtain ⟨counters, hx⟩ := emitted_snd x (x.intentOf c now r) (x.intents.record (x.intentOf c now r))
  rw [hx]
  exact ⟨rfl, rfl⟩

theorem issued_of_stored_record (hr : r ∈ rs) (hconfig : x.config = g.config)
    (hpolicy : x.policy = g.policy)
    (hstored : (x.intents.record (x.intentOf c now r)).2.intents[id]? = some i) :
    x.intents.intents[id]? = some i ∨ g.Issued c now rs id i := by
  have hintent := intentOf_congr hconfig hpolicy c now r
  generalize x.intentOf c now r = intent at hstored hintent
  rcases IntentLedger.stored_of_stored_record hstored with hold | hnew
  · exact .inl hold
  · exact .inr ⟨r, hr, intent, hintent, hnew⟩

/-- The state of the emit loop: the inputs of the start, and entries that stood there or were
issued since. -/
structure Emitting (g : Governor) (c : FlowClassification) (now : Tick) (rs : List IntentRequest)
    (x : Governor) : Prop where
  config : x.config = g.config
  policy : x.policy = g.policy
  entries : ∀ id i, x.intents.intents[id]? = some i →
    g.intents.intents[id]? = some i ∨ g.Issued c now rs id i

theorem Emitting.refl (g : Governor) (c : FlowClassification) (now : Tick)
    (rs : List IntentRequest) : Emitting g c now rs g := ⟨rfl, rfl, fun _ _ => .inl⟩

theorem Emitting.emit (hx : Emitting g c now rs x) (hr : r ∈ rs) :
    Emitting g c now rs (Governor.emit c now r x).2 := by
  obtain ⟨hconfig', hpolicy'⟩ := emit_inputs x c now r
  refine ⟨hconfig'.trans hx.config, hpolicy'.trans hx.policy, fun id i hi => ?_⟩
  rw [emit_intents] at hi
  rcases issued_of_stored_record hr hx.config hx.policy hi with hold | hissued
  · exact hx.entries id i hold
  · exact .inr hissued

theorem emitting_emitAll (g : Governor) (c : FlowClassification) (now : Tick)
    (rs : List IntentRequest) : Emitting g c now rs (emitAll c now rs g).2 := by
  have hkeeps : Fallible.Keeps (Emitting g c now rs) (emitAll c now rs) := by
    apply Fallible.Keeps.collect
    intro r hr x hx
    exact hx.emit hr
  exact hkeeps g (Emitting.refl g c now rs)

theorem stems_retireStale (hi : (g.retireStale c).intents.intents[id]? = some i) :
    g.intents.Stems id i := by
  have hretired : (g.retireStale c).intents =
      (g.intents.revokeStaleGeneration c.flow c.flowGeneration c.generation).2 := rfl
  rw [hretired, IntentLedger.revokeStaleGeneration] at hi
  exact IntentLedger.stems_updateLive hi rfl (by decide) (fun _ => rfl) (fun _ => rfl)

/-- Entering `Suspended` only ends entries that are there. -/
theorem stems_intentsAfter (hi : (intentsAfter l c).intents[id]? = some i) : l.Stems id i := by
  unfold intentsAfter at hi
  split_ifs at hi
  · rw [IntentLedger.revokeFlow, IntentLedger.transitionFlowTerminal] at hi
    exact IntentLedger.stems_updateLive hi rfl (by decide) (fun _ => rfl) (fun _ => rfl)
  · exact .refl hi

theorem stored_of_stored_produceIntents
    (hstored : (g.produceIntents record now).2.intents.intents[id]? = some i) :
    g.intents.Stems id i ∨
    ∃ p, g.policy = some p ∧ record.classification.state = .elephant ∧
      record.ledger.completed = false ∧ g.Issued record.classification now
        ((g.retireStale record.classification).pendingRequests p record.classification now) id i := by
  rcases produceIntents_cases g record now with ⟨-, heq⟩ | ⟨-, -, heq⟩ | ⟨p, hp, hs, hc, heq⟩
  · rw [heq] at hstored
    exact .inl (.refl hstored)
  · rw [heq] at hstored
    exact .inl (stems_retireStale hstored)
  · rw [heq] at hstored
    rcases (emitting_emitAll _ _ _ _).entries id i hstored with hold | hissued
    · exact .inl (stems_retireStale hold)
    · exact .inr ⟨p, hp, hs, hc, hissued.congr rfl rfl⟩

theorem evaluate_ledger (g : Governor) (record : FlowRecord) (now : Tick) :
    (g.evaluate record now).2.2.ledger = record.ledger := by
  rcases evaluate_cases g record now with ⟨e, sequence, counters, heq⟩ | ⟨-, -, heq⟩ | ⟨c, h, hc, heq⟩
  · rw [heq]
  · rw [heq]
  · rw [heq, commit_snd_snd, rebound_ledger]
    rfl

/-- The evaluation committed an Elephant and issued the intent for it. -/
def IssuedFor (g : Governor) (record : FlowRecord) (now : Tick) (id : IntentId)
    (i : GovernanceIntent) : Prop :=
  ∃ p c h live, g.policy = some p ∧ g.Commits record now c h ∧
    g.evaluate record now =
      { g with classificationSequence := g.classificationSequence + 1 }.commit record c h now ∧
    c.state = .elephant ∧ record.ledger.completed = false ∧
    g.Issued (stamped c h) now (g.intentRequests p.authorization (stamped c h) live now) id i

theorem IssuedFor.isElephant (hissued : g.IssuedFor record now id i) :
    (g.evaluate record now).2.2.isElephant = true := by
  obtain ⟨p, c, h, live, -, -, heq, hstate, -⟩ := hissued
  rw [heq, commit_snd_snd]
  simpa [FlowRecord.isElephant, committedRecord, stamped] using hstate

theorem IssuedFor.names (hissued : g.IssuedFor record now id i) :
    i.flow = record.ledger.flow ∧ i.flowGeneration = record.ledger.generation := by
  obtain ⟨p, c, h, live, -, hc, -, -, -, hissued⟩ := hissued
  obtain ⟨hflow, hgeneration⟩ := hissued.names
  exact ⟨hflow.trans hc.flow, hgeneration.trans hc.flowGeneration⟩

theorem stored_of_stored_evaluate
    (hstored : (g.evaluate record now).2.1.intents.intents[id]? = some i) :
    g.intents.Stems id i ∨ g.IssuedFor record now id i := by
  rcases evaluate_cases g record now with ⟨e, sequence, counters, heq⟩ | ⟨-, -, heq⟩ | ⟨c, h, hc, heq⟩
  · rw [heq] at hstored
    exact .inl (.refl hstored)
  · rw [heq] at hstored
    exact .inl (.refl hstored)
  · rw [heq, commit_snd_fst] at hstored
    obtain ⟨index, aggregate, counters, hs⟩ := settle_fst
      { g with classificationSequence := g.classificationSequence + 1 } record (stamped c h) h now
    rw [hs] at hstored
    rcases stored_of_stored_produceIntents hstored with hold | ⟨p, hp, hstate, hrun, hissued⟩
    · exact .inl (hold.trans fun j hj => stems_intentsAfter hj)
    simp only [rebound_classification, rebound_ledger] at hstate hrun hissued
    exact .inr ⟨p, c, h, _, hp, hc, heq, hstate, hrun, hissued.congr rfl rfl⟩

/-! ## Envelopes of issued intents -/

theorem mem_requestWhen {b : Bool} {r' : IntentRequest} :
    r ∈ requestWhen b r' ↔ b = true ∧ r = r' := by
  cases b with
  | false => simp [requestWhen]
  | true => simp [requestWhen]

theorem permits_of_mem_correctiveRequests (hr : r ∈ g.correctiveRequests auth c live now) :
    auth.permits r.kind = true := by
  unfold correctiveRequests at hr
  simp only [List.mem_append, mem_requestWhen, Bool.and_eq_true] at hr
  -- every corrective request is made under the switch of its own kind
  rcases hr with (((⟨hb, rfl⟩ | ⟨hb, rfl⟩) | ⟨hb, rfl⟩) | ⟨hb, rfl⟩) | ⟨hb, rfl⟩
  · exact hb.1.1
  · exact hb.1.1.1
  · exact hb.1.1.1
  · exact hb.1.1.1.1
  · exact hb.1.1

theorem permits_of_mem_intentRequests (hr : r ∈ g.intentRequests auth c live now) :
    auth.permits r.kind = true := by
  unfold intentRequests at hr
  rcases List.mem_append.mp hr with hr | hr
  · obtain ⟨-, rfl⟩ := mem_requestWhen.mp hr
    rfl
  split_ifs at hr with hgovern
  · unfold governRequests at hr
    simp only at hr
    split_ifs at hr
    · obtain ⟨-, rfl⟩ := mem_requestWhen.mp hr
      rfl
    · rw [List.mem_singleton.mp hr]
      rfl
    · exact permits_of_mem_correctiveRequests hr
    · obtain ⟨-, rfl⟩ := mem_requestWhen.mp hr
      rfl
  · cases hr

/-- The intent stays inside what the policy in force permits. -/
structure Inside (g : Governor) (i : GovernanceIntent) : Prop where
  policy : ∃ p, g.policy = some p ∧ p.authorization.permits i.kind = true ∧
    i.window.length ≤ minOf g.config.intentDurationTicks p.authorization.maxIntentDurationTicks
  ceiling : i.granted.AtMost g.ceilingBounds
  requested : i.granted.AtMost i.requested

/-- The empty envelope is below every other. -/
theorem atMost_default (b : IntentBounds) : IntentBounds.AtMost {} b where
  rateReductionBp := by
    rw [UInt32.le_iff_toNat_le]
    exact Nat.zero_le _
  durationTicks := by
    rw [UInt64.le_iff_toNat_le]
    exact Nat.zero_le _
  targets := by
    rw [UInt32.le_iff_toNat_le]
    exact Nat.zero_le _
  placement := fun h => by cases h
  isolation := fun h => by cases h
  admissionReduction := fun h => by cases h
  congestionEscalation := fun h => by cases h

/-- The window of a built intent is no longer than the ceiling allows. -/
theorem window_intentOf_le (hp : g.policy = some p) (c : FlowClassification) (now : Tick)
    (r : IntentRequest) : (g.intentOf c now r).window.length ≤
      minOf g.config.intentDurationTicks p.authorization.maxIntentDurationTicks := by
  have hceiling : g.ceilingBounds.durationTicks =
      minOf g.config.intentDurationTicks p.authorization.maxIntentDurationTicks := by
    unfold ceilingBounds
    rw [hp]
  show TickSpan.length ⟨now, saturatingAdd now
    (minOf g.config.intentDurationTicks g.ceilingBounds.durationTicks)⟩ ≤ _
  rw [hceiling]
  unfold TickSpan.length
  split_ifs
  · exact UInt64.le_trans (saturatingAdd_sub_le _ _) (minOf_le_right _ _)
  · rw [UInt64.le_iff_toNat_le]
    exact Nat.zero_le _

theorem granted_intentOf (g : Governor) (c : FlowClassification) (now : Tick) (r : IntentRequest) :
    (g.intentOf c now r).granted.AtMost g.ceilingBounds ∧
      (g.intentOf c now r).granted.AtMost (g.intentOf c now r).requested := by
  show (if r.state = .suppressed then {} else narrowBounds r.requested g.ceilingBounds).AtMost _ ∧
    (if r.state = .suppressed then {} else narrowBounds r.requested g.ceilingBounds).AtMost
      r.requested
  split_ifs
  · exact ⟨atMost_default _, atMost_default _⟩
  · exact ⟨narrowBounds_le_ceiling _ _, narrowBounds_le_requested _ _⟩

theorem Issued.inside (hp : g.policy = some p)
    (hissued : g.Issued c now (g.intentRequests p.authorization c live now) id i) : g.Inside i := by
  obtain ⟨r, hr, intent, hintent, heq⟩ := hissued
  have hpermits := permits_of_mem_intentRequests hr
  have hwindow := window_intentOf_le hp c now r
  have hgranted := granted_intentOf g c now r
  have hkind : (g.intentOf c now r).kind = r.kind := rfl
  rw [← hintent] at hwindow hgranted hkind
  refine ⟨⟨p, hp, ?_, ?_⟩, ?_, ?_⟩
  · rw [heq, GovernanceIntent.sealed_kind]
    exact hkind ▸ hpermits
  · rw [heq, GovernanceIntent.sealed_window]
    exact hwindow
  · rw [heq, GovernanceIntent.sealed_granted]
    exact hgranted.1
  · rw [heq, GovernanceIntent.sealed_granted, GovernanceIntent.sealed_requested]
    exact hgranted.2

theorem IssuedFor.inside (hissued : g.IssuedFor record now id i) : g.Inside i := by
  obtain ⟨p, c, h, live, hp, -, -, -, -, hissued⟩ := hissued
  exact hissued.inside hp

theorem Issued.suppressed (hissued : g.Issued c now rs id i) (hstate : i.state = .suppressed) :
    i.granted = {} := by
  obtain ⟨r, -, intent, hintent, heq⟩ := hissued
  have hgranted : (g.intentOf c now r).state = .suppressed → (g.intentOf c now r).granted = {} :=
    fun h => if_pos h
  rw [← hintent] at hgranted
  rw [heq, GovernanceIntent.sealed_state] at hstate
  rw [heq, GovernanceIntent.sealed_granted]
  exact hgranted hstate

theorem IssuedFor.suppressed (hissued : g.IssuedFor record now id i)
    (hstate : i.state = .suppressed) : i.granted = {} := by
  obtain ⟨p, c, h, live, -, -, -, -, -, hissued⟩ := hissued
  exact hissued.suppressed hstate

/-! ## Reported intents -/

/-- A recording that succeeds reports an entry that stood there, or a sealed copy of the intent. -/
theorem reported_record {j : GovernanceIntent} (hok : (l.record j).1 = .ok i) :
    (∃ id : IntentId, l.intents[id]? = some i) ∨
      ∃ id, i = ({ j with id := id } : GovernanceIntent).sealed := by
  rcases IntentLedger.record_cases l j with ⟨e, _, -, heq⟩ | ⟨existing, stored, _, hstored, heq⟩ |
    ⟨id, _, -, -, -, heq⟩
  · rw [heq] at hok
    cases hok
  · rw [heq] at hok
    cases hok
    exact .inl ⟨existing, hstored⟩
  · rw [heq] at hok
    cases hok
    exact .inr ⟨id, rfl⟩

theorem reported_emit (hx : Emitting g c now rs x) (hr : r ∈ rs) (hok : (emit c now r x).1 = .ok i) :
    (∃ id : IntentId, x.intents.intents[id]? = some i) ∨ (∃ id, g.Issued c now rs id i) ∨
      i.state = .suppressed ∧ i.granted = {} := by
  unfold emit at hok
  have hintent := intentOf_congr hx.config hx.policy c now r
  generalize x.intentOf c now r = intent at hok hintent
  rcases hrecord : x.intents.record intent with ⟨e | stored, ledger⟩
  · rw [hrecord] at hok
    simp only [emitted] at hok
    split_ifs at hok
    refine .inr (.inr ?_)
    rw [← Except.ok.inj hok, GovernanceIntent.sealed_granted, GovernanceIntent.sealed_state]
    exact ⟨rfl, rfl⟩
  · rw [hrecord] at hok
    have hstored : (x.intents.record intent).1 = .ok i := by
      rw [hrecord]
      exact hok
    rcases reported_record hstored with hentry | ⟨id, hcopy⟩
    · exact .inl hentry
    · exact .inr (.inl ⟨id, r, hr, intent, hintent, hcopy⟩)

theorem reported_emitAll (hok : (emitAll c now rs g).1 = .ok out) (hi : i ∈ out) :
    (∃ id : IntentId, g.intents.intents[id]? = some i) ∨ (∃ id, g.Issued c now rs id i) ∨
      i.state = .suppressed ∧ i.granted = {} := by
  have hstep : ∀ r ∈ rs, ∀ (x : Governor) (j : GovernanceIntent), Emitting g c now rs x →
      (emit c now r x).1 = .ok j →
      (∃ id : IntentId, g.intents.intents[id]? = some j) ∨ (∃ id, g.Issued c now rs id j) ∨
        j.state = .suppressed ∧ j.granted = {} := by
    intro r hr x j hx hj
    rcases reported_emit hx hr hj with ⟨id, hentry⟩ | hissued | hnone
    · rcases hx.entries id j hentry with hold | hissued
      · exact .inl ⟨id, hold⟩
      · exact .inr (.inl ⟨id, hissued⟩)
    · exact .inr (.inl hissued)
    · exact .inr (.inr hnone)
  have hkeep : ∀ r ∈ rs, Fallible.Keeps (Emitting g c now rs) (emit c now r) :=
    fun r hr x hx => hx.emit hr
  unfold emitAll at hok
  exact Fallible.collect_forall hkeep hstep (Emitting.refl g c now rs) hok i hi

theorem reported_produceIntents (hok : (g.produceIntents record now).1 = .ok out) (hi : i ∈ out) :
    (∃ id, g.intents.Stems id i) ∨
      (∃ p id, g.policy = some p ∧ record.classification.state = .elephant ∧
        record.ledger.completed = false ∧ g.Issued record.classification now
          ((g.retireStale record.classification).pendingRequests p record.classification now) id i) ∨
      i.state = .suppressed ∧ i.granted = {} := by
  rcases produceIntents_cases g record now with ⟨-, heq⟩ | ⟨-, -, heq⟩ | ⟨p, hp, hs, hc, heq⟩
  · rw [heq] at hok
    cases hok
    cases hi
  · rw [heq] at hok
    cases hok
    cases hi
  · rw [heq] at hok
    rcases reported_emitAll hok hi with ⟨id, hentry⟩ | ⟨id, hissued⟩ | hnone
    · exact .inl ⟨id, stems_retireStale hentry⟩
    · exact .inr (.inl ⟨p, id, hp, hs, hc, hissued.congr rfl rfl⟩)
    · exact .inr (.inr hnone)

theorem commit_fst (hok : (g.commit record c h now).1 = .ok d) :
    ((g.settle record (stamped c h) h now).1.produceIntents
      (g.settle record (stamped c h) h now).2 now).1 = .ok d.intents := by
  unfold commit at hok
  simp only at hok
  rcases hp : (g.settle record (stamped c h) h now).1.produceIntents
    (g.settle record (stamped c h) h now).2 now with ⟨e | out, g'⟩
  · rw [hp] at hok
    cases hok
  · rw [hp] at hok
    cases hok
    rfl

theorem reported_evaluate_cases (hok : (g.evaluate record now).1 = .ok d) (hi : i ∈ d.intents) :
    (∃ id, g.intents.Stems id i) ∨ (∃ id, g.IssuedFor record now id i) ∨
      i.state = .suppressed ∧ i.granted = {} := by
  rcases evaluate_cases g record now with ⟨e, sequence, counters, heq⟩ | ⟨-, -, heq⟩ | ⟨c, h, hc, heq⟩
  · rw [heq] at hok
    cases hok
  · -- an idempotent answer reports no intent
    rw [heq] at hok
    cases hok
    cases hi
  · rw [heq] at hok
    obtain ⟨index, aggregate, counters, hs⟩ := settle_fst
      { g with classificationSequence := g.classificationSequence + 1 } record (stamped c h) h now
    have hout := commit_fst hok
    rw [settle_snd, hs] at hout
    rcases reported_produceIntents hout hi with ⟨id, hentry⟩ |
      ⟨p, id, hp, hstate, hrun, hissued⟩ | hnone
    · exact .inl ⟨id, hentry.trans fun j hj => stems_intentsAfter hj⟩
    · simp only [rebound_classification, rebound_ledger] at hstate hrun hissued
      exact .inr (.inl ⟨id, p, c, h, _, hp, hc, heq, hstate, hrun, hissued.congr rfl rfl⟩)
    · exact .inr (.inr hnone)

theorem reported_evaluate (hok : (g.evaluate record now).1 = .ok d)
    (hi : i ∈ d.intents) (hstate : i.state = .suppressed) :
    i.granted = {} ∨ ∃ id : IntentId, g.intents.intents[id]? = some i := by
  rcases reported_evaluate_cases hok hi with ⟨id, hentry⟩ | ⟨id, hissued⟩ | ⟨-, hnone⟩
  · exact .inr ⟨id, hentry.suppressed hstate⟩
  · exact .inl (hissued.suppressed hstate)
  · exact .inl hnone

end Governor

end EFG
