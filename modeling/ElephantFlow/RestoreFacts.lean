/-
# What a successful restore leaves

The records that a restore builds are records of their keys over well formed
ledgers (`Tracked`), whatever the bytes were.  When the restore succeeds, every
classified record has been demoted to `Suspended` without authority and every
intent has been fenced (`deserialize_spec`).
-/
import ElephantFlow.LedgerFacts
import ElephantFlow.BindingIndex
import ElephantFlow.Snapshot

namespace EFG

open ByteCodec Std Fallible

namespace Governor

/-! ## Records of their keys -/

/-- The record belongs to the key, over a well formed ledger with the configured limits, and has
the default classification as long as it has none. -/
structure Tracked (config : GovernorConfig) (key : FlowKey) (r : FlowRecord) : Prop where
  flow : r.ledger.flow = key.flow
  generation : r.ledger.generation = key.generation
  limits : r.ledger.limits = (FlowLedger.make key.flow key.generation config.ledgerLimits).limits
  ledger : r.ledger.WellFormed
  unclassified : r.hasClassification = false → r.classification = {}

variable {config : GovernorConfig} {key : FlowKey} {r : FlowRecord} {missing tooMany : Status}
  {g₀ g g' : Governor} {P : Governor → Prop} {t : Governor × Bytes} {now : Tick}
  {h : ClassificationHistory} {bytes : Bytes} {Q : FlowRecord → Prop}

theorem tracked_freshRecord (g : Governor) (key : FlowKey) :
    Tracked g.config key (g.freshRecord key) where
  flow := rfl
  generation := rfl
  limits := rfl
  ledger := FlowLedger.wellFormed_make _ _ _
  unclassified := fun _ => rfl

theorem Tracked.append (h : Tracked config key r) (s : FlowSample) :
    Tracked config key { r with ledger := (r.ledger.append s).2 } := by
  obtain ⟨hflow, hgeneration, hlimits, -, -⟩ := FlowLedger.append_frame r.ledger s
  exact ⟨hflow.trans h.flow, hgeneration.trans h.generation, hlimits.trans h.limits,
    h.ledger.append s, h.unclassified⟩

theorem Tracked.markCompleted (h : Tracked config key r) {l : FlowLedger} {t : Tick}
    (heq : r.ledger.markCompleted t = .ok l) : Tracked config key { r with ledger := l } := by
  have hl := FlowLedger.markCompleted_eq_ok heq
  exact ⟨by rw [hl]; exact h.flow, by rw [hl]; exact h.generation, by rw [hl]; exact h.limits,
    h.ledger.markCompleted heq, h.unclassified⟩

theorem Tracked.rebound (h : Tracked config key r) : Tracked config key (rebound r) := by
  obtain ⟨_, _, _, _, heq⟩ := rebound_eq r
  rw [heq]
  exact ⟨h.flow, h.generation, h.limits, h.ledger, h.unclassified⟩

/-! ## Rebuilding one record -/

/-- A record in the middle of a restore. -/
def Rebuilding (config : GovernorConfig) (key : FlowKey) (r : FlowRecord) : Prop :=
  Tracked config key r ∧ r.bound = false

theorem keeps_assign {σ : Type} {P : σ → Prop} {f : σ → σ} (h : ∀ x, P x → P (f x)) :
    Keeps (fun s => P s.1) (assign f) :=
  Keeps.modify fun s hs => h s.1 hs

theorem keeps_attempt {σ : Type} {P : σ → Prop} {f : σ → Except Status σ}
    (h : ∀ x y, P x → f x = .ok y → P y) : Keeps (fun s => P s.1) (attempt f) := by
  apply Keeps.update
  intro s s' hs heq
  rcases hf : f s.1 with e | y
  · rw [hf] at heq
    cases heq
  · rw [hf] at heq
    cases heq
    exact h s.1 y hs hf

theorem keeps_counted {σ : Type} {P : σ → Prop} {ceiling : ℕ} {before : σ → σ}
    {item : Restore σ Unit} (hbefore : ∀ x, P x → P (before x))
    (hitem : Keeps (fun s => P s.1) item) :
    Keeps (fun s => P s.1) (counted missing tooMany ceiling before item) :=
  (Keeps.read _).bind fun _ => (Keeps.ensure _ _).bind fun _ =>
    (keeps_assign hbefore).bind fun _ => hitem.times _

/-- The classification comes out of its decoder. -/
def ReadBack (c : FlowClassification) : Prop :=
  ∃ bs rest, (decode : Decoder Status FlowClassification) bs = .ok (c, rest)

/-- A property of records that survives every change a restore makes to one record. -/
structure RecordStable (Q : FlowRecord → Prop) : Prop where
  appended : ∀ r s, Q r → Q { r with ledger := (r.ledger.append s).2 }
  completed : ∀ r l t, Q r → r.ledger.markCompleted t = .ok l → Q { r with ledger := l }
  recorded : ∀ r t h, Q r → r.history.record t = .ok h → Q { r with history := h }
  scalars : ∀ r enterStreak exitStreak evaluatedTick evaluatedWindow completedTick, Q r → Q { r with
    enterStreak := enterStreak
    exitStreak := exitStreak
    evaluatedTick := evaluatedTick
    evaluatedWindow := evaluatedWindow
    completedTick := completedTick }
  classified : ∀ r c, ReadBack c → Q r → Q { r with classification := c, hasClassification := true }

section RecordStable

variable {Q : FlowRecord → Prop} (hQ : RecordStable Q)
include hQ

theorem RecordStable.keeps_restoreSample : Keeps (fun s => Q s.1) restoreSample := by
  refine (Keeps.read _).bind fun sample s hs => ?_
  have happend := hQ.appended s.1 sample hs
  rcases hl : s.1.ledger.append sample with ⟨res, ledger⟩
  rw [hl] at happend
  simp only
  cases res with
  | ok _ => exact happend
  | error _ => exact happend

theorem RecordStable.keeps_restoreTransition : Keeps (fun s => Q s.1) restoreTransition := by
  refine (Keeps.read _).bind fun t => keeps_attempt fun x y hx heq => ?_
  rcases hh : x.history.record t with e | h
  · rw [hh] at heq
    cases heq
  · rw [hh] at heq
    cases heq
    exact hQ.recorded x t h hx hh

theorem RecordStable.keeps_restoreScalars : Keeps (fun s => Q s.1) restoreScalars := by
  unfold restoreScalars
  have hscalar := hQ.scalars
  refine (Keeps.read _).bind fun _ => (keeps_assign fun x hx => hscalar x _ _ _ _ _ hx).bind fun _ => ?_
  refine (Keeps.read _).bind fun _ => (keeps_assign fun x hx => hscalar x _ _ _ _ _ hx).bind fun _ => ?_
  refine (Keeps.read _).bind fun _ => (keeps_assign fun x hx => hscalar x _ _ _ _ _ hx).bind fun _ => ?_
  refine (Keeps.read _).bind fun _ => (keeps_assign fun x hx => hscalar x _ _ _ _ _ hx).bind fun _ => ?_
  refine (Keeps.read _).bind fun _ => (Keeps.read _).bind fun _ => (Keeps.read _).bind fun _ => ?_
  exact (Keeps.read _).bind fun _ => (keeps_assign fun x hx => hscalar x _ _ _ _ _ hx).bind fun _ =>
    Keeps.pure _

theorem RecordStable.keeps_restoreHistory : Keeps (fun s => Q s.1) restoreHistory :=
  (keeps_counted (fun _ hx => hx) hQ.keeps_restoreTransition).bind fun _ =>
    (Keeps.read _).bind fun _ => (Keeps.read _).bind fun _ => (Keeps.ensure _ _).bind fun _ =>
      (Keeps.gets _).bind fun _ => Keeps.ensure _ _

theorem RecordStable.keeps_restoreCompletion (completed : Bool) (t : Tick) :
    Keeps (fun s => Q s.1) (restoreCompletion completed t) := by
  unfold restoreCompletion
  split_ifs
  · refine keeps_attempt fun x y hx heq => ?_
    rcases hl : x.ledger.markCompleted t with e | l
    · rw [hl] at heq
      cases heq
    · rw [hl] at heq
      cases heq
      exact hQ.completed x l t hx hl
  · exact Keeps.pure _

theorem RecordStable.keeps_restoreRecord : Keeps (fun s => Q s.1) restoreRecord := by
  refine (Keeps.read _).bind fun has => ?_
  refine Keeps.bind_of (R := fun c => has = true → ReadBack c) ?_ ?_ fun c hc => ?_
  · unfold readClassification
    split_ifs
    · exact Keeps.read _
    · exact Keeps.pure _
  · intro s c s' hread hhas
    unfold readClassification at hread
    rw [if_pos hhas] at hread
    exact ⟨s.2, s'.2, (read_eq_ok_iff.mp hread).2⟩
  refine hQ.keeps_restoreScalars.bind fun completion => ?_
  refine (keeps_counted (fun _ hx => hx) hQ.keeps_restoreSample).bind fun _ => ?_
  refine (hQ.keeps_restoreCompletion _ _).bind fun _ => hQ.keeps_restoreHistory.bind fun _ => ?_
  unfold restoreClassification
  split_ifs with hhas
  · exact keeps_assign fun x hx => hQ.classified x _ (hc hhas) hx
  · exact Keeps.pure _

end RecordStable

theorem recordStable_rebuilding : RecordStable (Rebuilding config key) where
  appended := fun _ s hx => ⟨hx.1.append s, hx.2⟩
  completed := fun _ _ _ hx hl => ⟨hx.1.markCompleted hl, hx.2⟩
  recorded := fun _ _ _ hx _ =>
    ⟨⟨hx.1.flow, hx.1.generation, hx.1.limits, hx.1.ledger, hx.1.unclassified⟩, hx.2⟩
  scalars := fun _ _ _ _ _ _ hx =>
    ⟨⟨hx.1.flow, hx.1.generation, hx.1.limits, hx.1.ledger, hx.1.unclassified⟩, hx.2⟩
  classified := fun _ _ _ hx =>
    ⟨⟨hx.1.flow, hx.1.generation, hx.1.limits, hx.1.ledger, fun h => absurd h (by simp)⟩, hx.2⟩

/-! ## Rebuilding the flows -/

/-- The governor differs from `g₀` in its flows only, and they are in the middle of a restore. -/
def RebuildingFlows (g₀ g : Governor) : Prop :=
  (∃ flows highest, g = { g₀ with flows := flows, highestGeneration := highest }) ∧
    ∀ key r, g.flows[key]? = some r → Rebuilding g₀.config key r

theorem rebuilding_freshRecord (g : Governor) (key : FlowKey) :
    Rebuilding g.config key (g.freshRecord key) := ⟨tracked_freshRecord g key, rfl⟩

theorem RebuildingFlows.createFlow (h : RebuildingFlows g₀ g) (key : FlowKey) :
    RebuildingFlows g₀ (g.createFlow key) := by
  obtain ⟨⟨flows, highest, rfl⟩, hrecords⟩ := h
  refine ⟨⟨_, _, rfl⟩, fun k r hr => ?_⟩
  have hr' : ((flows.insertIfNew key (g₀.freshRecord key))[k]?) = some r := hr
  rw [ExtTreeMap.getElem?_insertIfNew] at hr'
  split_ifs at hr' with hk
  · have heq : key = k := LawfulEqOrd.eq_of_compare hk.1
    subst heq
    rw [← Option.some.inj hr']
    exact rebuilding_freshRecord g₀ key
  · exact hrecords k r hr'

theorem RebuildingFlows.setFlow (h : RebuildingFlows g₀ g) (hr : Rebuilding g₀.config key r) :
    RebuildingFlows g₀ (g.setFlow key r) := by
  obtain ⟨⟨flows, highest, rfl⟩, hrecords⟩ := h
  refine ⟨⟨_, _, rfl⟩, fun k r' hr' => ?_⟩
  have hk : (flows.insert key r)[k]? = some r' := hr'
  rw [ExtTreeMap.getElem?_insert] at hk
  split_ifs at hk with heq
  · have : key = k := LawfulEqOrd.eq_of_compare heq
    subst this
    rw [← Option.some.inj hk]
    exact hr
  · exact hrecords k r' hk

theorem keeps_readFlowKey : Keeps (fun s => P s.1) readFlowKey :=
  (Keeps.read _).bind fun _ => (Keeps.read _).bind fun _ => (Keeps.ensure _ _).bind fun _ =>
    Keeps.pure _

theorem restoreInto_snd (key : FlowKey) (s : Governor × Bytes) :
    ∃ r, (restoreInto key s).2.1 = (s.1.createFlow key).setFlow key r :=
  ⟨_, rfl⟩

theorem keeps_restoreFlow (g₀ : Governor) :
    Keeps (fun s => RebuildingFlows g₀ s.1) restoreFlow := by
  refine keeps_readFlowKey.bind fun key => ?_
  refine (keeps_assign fun x hx => hx.createFlow key).bind fun _ s hs => ?_
  have hrecord : Rebuilding g₀.config key (s.1.flows[key]?.getD (s.1.freshRecord key)) := by
    rcases hr : s.1.flows[key]? with _ | r
    · have hconfig : s.1.config = g₀.config := by
        obtain ⟨⟨_, _, hg⟩, -⟩ := hs
        rw [hg]
      rw [← hconfig]
      exact rebuilding_freshRecord s.1 key
    · exact hs.2 _ r hr
  exact hs.setFlow (recordStable_rebuilding.keeps_restoreRecord (_, s.2) hrecord)

theorem size_createFlow_setFlow (g : Governor) (key : FlowKey) (r : FlowRecord) :
    ((g.createFlow key).setFlow key r).flows.size ≤ g.flows.size + 1 := by
  show ((g.flows.insertIfNew key (g.freshRecord key)).insert key r).size ≤ _
  have hmem : (g.flows.insertIfNew key (g.freshRecord key)).contains key = true := by
    rw [ExtTreeMap.contains_insertIfNew]
    simp
  rw [ExtTreeMap.size_insert, if_pos hmem, ExtTreeMap.size_insertIfNew]
  split_ifs
  · omega
  · omega

/-- A restored flow adds at most one record. -/
theorem size_restoreFlow (s : Governor × Bytes) :
    (restoreFlow s).2.1.flows.size ≤ s.1.flows.size + 1 := by
  apply Keeps.bind_post (P := fun t : Governor × Bytes => t.1 = s.1)
    (Q := fun t : Governor × Bytes => t.1.flows.size ≤ s.1.flows.size + 1)
    (keeps_readFlowKey (P := fun g => g = s.1))
  · intro t ht
    rw [ht]
    omega
  · intro key t ht
    obtain ⟨r, hr⟩ := restoreInto_snd key t
    rw [hr, ← ht]
    exact size_createFlow_setFlow t.1 key r
  · rfl

theorem counted_eq_ok {σ : Type} {ceiling : ℕ} {before : σ → σ} {item : Restore σ Unit}
    {s t : σ × Bytes} (h : counted missing tooMany ceiling before item s = (.ok (), t)) :
    ∃ count rest, count ≤ ceiling ∧ count < 2 ^ 32 ∧
      times item count (before s.1, rest) = (.ok (), t) := by
  obtain ⟨count, s₁, hread, h⟩ := bind_eq_ok_iff.mp h
  obtain ⟨u, s₂, hensure, h⟩ := bind_eq_ok_iff.mp h
  obtain ⟨u', s₃, hassign, h⟩ := bind_eq_ok_iff.mp h
  obtain ⟨hs, -⟩ := read_eq_ok_iff.mp hread
  obtain ⟨hle, rfl⟩ := ensure_eq_ok_iff.mp hensure
  cases hassign
  rw [← hs]
  exact ⟨count.toNat, s₁.2, by simpa using hle, count.toNat_lt, h⟩

/-- The flows that a restore has read: at most as many as configured, each of them rebuilt from a
fresh record, over an empty index. -/
theorem restoreFlows_eq_ok {s : Governor × Bytes} (h : restoreFlows s = (.ok (), t)) :
    RebuildingFlows { s.1 with
      flows := ∅, highestGeneration := ∅, bindingIndex := ∅, resourceAggregate := ∅ } t.1 ∧
    t.1.flows.size ≤ s.1.config.maxFlows ∧ t.1.flows.size < 2 ^ 32 := by
  obtain ⟨maxFlows, s', hgets, h⟩ := bind_eq_ok_iff.mp h
  cases hgets
  obtain ⟨count, rest, hle, hlt, hrun⟩ := counted_eq_ok h
  constructor
  · have hkeep := (keeps_restoreFlow { s.1 with
      flows := ∅, highestGeneration := ∅, bindingIndex := ∅, resourceAggregate := ∅ }).times count
    have := hkeep (_, rest) ⟨⟨∅, ∅, rfl⟩, fun key r hr => by simp at hr⟩
    rw [hrun] at this
    exact this
  · have hsize := times_le (μ := fun s : Governor × Bytes => s.1.flows.size)
      size_restoreFlow count ({ s.1 with
        flows := ∅, highestGeneration := ∅, bindingIndex := ∅, resourceAggregate := ∅ }, rest)
    rw [hrun] at hsize
    simp only [ExtTreeMap.size_empty, Nat.zero_add] at hsize
    exact ⟨hsize.trans hle, hsize.trans_lt hlt⟩

/-! ## The other parts of the state -/

theorem focus_eq_ok {σ τ : Type} {part : σ → τ} {put : σ → τ → σ} {m : Restore τ Unit}
    {s t : σ × Bytes} (h : focus part put m s = (.ok (), t)) :
    ∃ y rest, m (part s.1, s.2) = (.ok (), (y, rest)) ∧ t = (put s.1 y, rest) := by
  rcases hm : m (part s.1, s.2) with ⟨res, y, rest⟩
  unfold focus at h
  rw [hm] at h
  cases h
  exact ⟨y, rest, rfl, rfl⟩

/-- The parts of a restore that change one component leave everything else alone. -/
theorem keeps_focus_of_put {σ τ : Type} {P : σ → Prop} {part : σ → τ} {put : σ → τ → σ}
    {m : Restore τ Unit} (hput : ∀ x y, P x → P (put x y)) :
    Keeps (fun s => P s.1) (focus part put m) :=
  fun s hs => hput s.1 _ hs

/-- The restored policy is valid and comes with its exit rule. -/
theorem keeps_restorePolicy_of (hasPolicy : Bool)
    (hclear : ∀ g, P g → P { g with policy := none, exitRules := {} })
    (hput : ∀ g policy rules, P g → policy.validate = .ok () → effectiveExitRule policy = .ok rules →
      P { g with policy := some policy, exitRules := rules }) :
    Keeps (fun s => P s.1) (restorePolicy hasPolicy) := by
  refine (keeps_assign hclear).bind fun _ => ?_
  split_ifs
  · refine (Keeps.read _).bind fun policy s hs => ?_
    rcases hvalid : policy.validate with e | ⟨⟩
    · exact hs
    rw [bind_of_ok (lift_apply _ _)]
    rcases hrules : effectiveExitRule policy with e | rules
    · exact hs
    rw [bind_of_ok (lift_apply _ _)]
    exact hput s.1 policy rules hs hvalid hrules
  · exact Keeps.pure _

theorem keeps_restorePolicy (hasPolicy : Bool)
    (hput : ∀ g policy rules, P g → P { g with policy := policy, exitRules := rules }) :
    Keeps (fun s => P s.1) (restorePolicy hasPolicy) :=
  keeps_restorePolicy_of hasPolicy (fun g hg => hput g _ _ hg) fun g _ _ hg _ _ => hput g _ _ hg

theorem keeps_restoreTables
    (hput : ∀ g capacities paths, P g → P { g with capacities := capacities, paths := paths }) :
    Keeps (fun s => P s.1) restoreTables :=
  (keeps_focus_of_put fun g y hg => hput g y g.paths hg).bind fun _ =>
    keeps_focus_of_put fun g y hg => hput g g.capacities y hg

theorem keeps_restoreIntents (hput : ∀ g intents, P g → P { g with intents := intents }) :
    Keeps (fun s => P s.1) restoreIntents :=
  (Keeps.gets _).bind fun _ => keeps_focus_of_put fun g y hg => hput g y hg

/-! ## Demotion -/

/-- A record that `resume_after_restore` has been over: suspended, without authority, its streaks
gone and its chain closed by the demotion. -/
structure Demoted (now : Tick) (r : FlowRecord) : Prop where
  state : r.hasClassification = true → r.classification.state = .suspended
  authority : r.hasClassification = true → r.classification.authority = .none
  enterStreak : r.hasClassification = true → r.enterStreak = 0
  exitStreak : r.hasClassification = true → r.exitStreak = 0
  evaluatedTick : r.hasClassification = true → r.evaluatedTick = now
  latest : r.hasClassification = true → ∃ t, r.history.latest = some t ∧ t.toState = .suspended

theorem Demoted.rebound (h : Demoted now r) : Demoted now (rebound r) := by
  obtain ⟨_, _, _, _, heq⟩ := rebound_eq r
  rw [heq]
  exact ⟨h.state, h.authority, h.enterStreak, h.exitStreak, h.evaluatedTick, h.latest⟩

theorem demoted_demotedRecord (boot : BootIdentity) (now : Tick)
    (hh : r.history.record (demotion now r) = .ok h) :
    Demoted now (demotedRecord boot now r h) := by
  obtain ⟨hpush, -⟩ := ClassificationHistory.record_eq_ok hh
  refine ⟨fun _ => rfl, fun _ => rfl, fun _ => rfl, fun _ => rfl, fun _ => rfl,
    fun _ => ⟨demotion now r, ?_, rfl⟩⟩
  show h.latest = _
  rw [hpush, ClassificationHistory.latest_push]

theorem rebuilding_demotedRecord {boot : BootIdentity} (hr : Rebuilding config key r)
    (hc : r.hasClassification = true) :
    Rebuilding config key (demotedRecord boot now r h) :=
  ⟨⟨hr.1.flow, hr.1.generation, hr.1.limits, hr.1.ledger,
    fun hno => absurd (hno.symm.trans hc) (by simp)⟩, hr.2⟩

/-- The outcomes of one iteration of the demotion loop. -/
theorem demoteFlow_cases (now : Tick) (key : FlowKey) (g : Governor) :
    (∃ e, demoteFlow now key g = (.error e, g)) ∨
    ((∀ r, g.flows[key]? = some r → r.hasClassification = false) ∧
      demoteFlow now key g = (.ok (), g)) ∨
    (∃ r h, g.flows[key]? = some r ∧ r.hasClassification = true ∧
      r.history.record (demotion now r) = .ok h ∧
      demoteFlow now key g = (.ok (), g.setFlow key (demotedRecord g.boot now r h))) := by
  unfold demoteFlow
  rcases hr : g.flows[key]? with _ | r
  · exact .inr (.inl ⟨by simp, rfl⟩)
  · simp only
    by_cases hc : r.hasClassification = true
    · rw [if_neg (by simp [hc])]
      rcases hh : r.history.record (demotion now r) with e | h
      · exact .inl ⟨e, rfl⟩
      · exact .inr (.inr ⟨r, h, rfl, hc, hh, rfl⟩)
    · rw [if_pos (by simp [hc])]
      refine .inr (.inl ⟨fun r' hr' => ?_, rfl⟩)
      rw [← Option.some.inj hr']
      simpa using hc

theorem keeps_demoteFlow (hdemoted : ∀ x key r h, P x → x.flows[key]? = some r →
      r.hasClassification = true → r.history.record (demotion now r) = .ok h →
      P (x.setFlow key (demotedRecord x.boot now r h))) (key : FlowKey) :
    Keeps P (demoteFlow now key) := by
  intro x hx
  rcases demoteFlow_cases now key x with ⟨e, heq⟩ | ⟨-, heq⟩ | ⟨r, hist, hr, hc, hh, heq⟩
  · rw [heq]
    exact hx
  · rw [heq]
    exact hx
  · rw [heq]
    exact hdemoted x key r hist hx hr hc hh

/-- The governor differs from `g₀` in its flow map only, with the same keys. -/
structure SameKeys (g₀ g : Governor) : Prop where
  frame : ∃ flows, g = { g₀ with flows := flows }
  keys : ∀ key, key ∈ g.flows ↔ key ∈ g₀.flows
  size : g.flows.size = g₀.flows.size

theorem SameKeys.refl (g : Governor) : SameKeys g g := ⟨⟨g.flows, rfl⟩, fun _ => Iff.rfl, rfl⟩

theorem SameKeys.setFlow (h : SameKeys g₀ g) (hr : g.flows[key]? = some r) (r' : FlowRecord) :
    SameKeys g₀ (g.setFlow key r') := by
  have hmem : key ∈ g.flows := by
    rw [← ExtTreeMap.isSome_getElem?_iff_mem, hr]
    rfl
  obtain ⟨⟨flows, hg⟩, hkeys, hsize⟩ := h
  refine ⟨⟨(g.setFlow key r').flows, by rw [hg]; rfl⟩, fun k => ?_, ?_⟩
  · rw [← hkeys k]
    show k ∈ g.flows.insert key r' ↔ _
    rw [ExtTreeMap.mem_insert]
    constructor
    · rintro (hk | hk)
      · have : key = k := LawfulEqOrd.eq_of_compare hk
        exact this ▸ hmem
      · exact hk
    · exact .inr
  · show (g.flows.insert key r').size = _
    rw [ExtTreeMap.size_insert, if_pos (ExtTreeMap.contains_iff_mem.mpr hmem), hsize]

/-- The demotion loop over all keys, when it ends without an error. -/
theorem forEach_demoteFlow {c : GovernorConfig}
    (hrecords : ∀ key r, g.flows[key]? = some r → Rebuilding c key r)
    (h : forEach (demoteFlow now) g.flows.keys g = (.ok (), g')) :
    SameKeys g g' ∧ (∀ key r, g'.flows[key]? = some r → Rebuilding c key r ∧ Demoted now r) := by
  have hkeep : Keeps (fun x => SameKeys g x ∧
      ∀ key r, x.flows[key]? = some r → Rebuilding c key r)
      (forEach (demoteFlow now) g.flows.keys) := by
    refine Keeps.forEach fun key _ => keeps_demoteFlow ?_ key
    rintro x key r hist ⟨hsame, hx⟩ hr hc -
    refine ⟨hsame.setFlow hr _, fun k r' hr' => ?_⟩
    rw [getElem?_setFlow] at hr'
    split_ifs at hr' with hk
    · subst hk
      rw [← Option.some.inj hr']
      exact rebuilding_demotedRecord (hx _ r hr) hc
    · exact hx k r' hr'
  have hdone : ∀ key ∈ g.flows.keys, ∀ r, g'.flows[key]? = some r → Demoted now r := by
    refine forEach_establishes
      (Q := fun key x => ∀ r, x.flows[key]? = some r → Demoted now r) ?_ ?_ h
    · intro key x x' hstep r hr
      rcases demoteFlow_cases now key x with ⟨e, heq⟩ | ⟨hno, heq⟩ | ⟨r', hist, hr', hc, hh, heq⟩
      · rw [heq] at hstep
        cases hstep
      · rw [heq] at hstep
        cases hstep
        have := hno r hr
        exact ⟨by simp [this], by simp [this], by simp [this], by simp [this], by simp [this],
          by simp [this]⟩
      · rw [heq] at hstep
        cases hstep
        rw [getElem?_setFlow, if_pos rfl] at hr
        rw [← Option.some.inj hr]
        exact demoted_demotedRecord x.boot now hh
    · intro key key' x x' hbefore hstep r hr
      rcases demoteFlow_cases now key' x with ⟨e, heq⟩ | ⟨-, heq⟩ | ⟨r', hist, hr', hc, hh, heq⟩
      · rw [heq] at hstep
        cases hstep
      · rw [heq] at hstep
        cases hstep
        exact hbefore r hr
      · rw [heq] at hstep
        cases hstep
        rw [getElem?_setFlow] at hr
        split_ifs at hr with hk
        · rw [← Option.some.inj hr]
          exact demoted_demotedRecord x.boot now hh
        · exact hbefore r hr
  obtain ⟨hsame, hall⟩ := hkeep g ⟨.refl g, hrecords⟩
  rw [h] at hsame hall
  refine ⟨hsame, fun key r hr => ⟨hall key r hr, hdone key ?_ r hr⟩⟩
  rw [ExtTreeMap.mem_keys, ← hsame.keys, ← ExtTreeMap.isSome_getElem?_iff_mem, hr]
  rfl

/-! ## The whole restore -/

/-- The governor right before the index rebuild of a restore. -/
structure Prepared (g g' : Governor) (now : Tick) : Prop where
  config : g'.config = g.config
  boot : g'.boot = g.boot
  bounded : g'.flows.size ≤ g.config.maxFlows
  small : g'.flows.size < 2 ^ 32
  records : ∀ key r, g'.flows[key]? = some r → Rebuilding g.config key r ∧ Demoted now r

theorem deserialize_stages (hok : (g.deserialize bytes now).1 = .ok ()) :
    ∃ header s₁ s₂ s₃, (s₁.1.config = g.config ∧ s₁.1.boot = g.boot) ∧
      (∃ s₀, restoreTables s₀ = (.ok (), s₁)) ∧ restoreFlows s₁ = (.ok (), s₂) ∧ restoreIntents s₂ = (.ok (), s₃) ∧
      resumeAfterRestore now (s₃.1.withHeader header now) = (.ok (), (g.deserialize bytes now).2) := by
  unfold deserialize at hok ⊢
  rcases hh : readHeader g.boot bytes with e | ⟨h, rest⟩
  · rw [hh] at hok
    cases hok
  rw [hh] at hok
  simp only at hok ⊢
  rcases hrun : restoreBody now h (g, rest) with ⟨res, t⟩
  rw [hrun] at hok
  simp only at hok
  subst hok
  obtain ⟨_, s₁, hpolicy, hrun⟩ := bind_eq_ok_iff.mp hrun
  obtain ⟨_, s₂, htables, hrun⟩ := bind_eq_ok_iff.mp hrun
  obtain ⟨_, s₃, hflows, hrun⟩ := bind_eq_ok_iff.mp hrun
  obtain ⟨_, s₄, hintents, hrun⟩ := bind_eq_ok_iff.mp hrun
  obtain ⟨_, s₅, hassign, hrun⟩ := bind_eq_ok_iff.mp hrun
  cases hassign
  have hshell : s₂.1.config = g.config ∧ s₂.1.boot = g.boot := by
    have h₁ := keeps_restorePolicy (P := fun x => x.config = g.config ∧ x.boot = g.boot) h.hasPolicy
      (fun _ _ _ hx => hx) (g, rest) ⟨rfl, rfl⟩
    rw [hpolicy] at h₁
    have h₂ := keeps_restoreTables (P := fun x => x.config = g.config ∧ x.boot = g.boot)
      (fun _ _ _ hx => hx) s₁ h₁
    rw [htables] at h₂
    exact h₂
  obtain ⟨hres, hstate⟩ := Prod.ext_iff.mp hrun
  exact ⟨h, s₂, s₃, s₄, hshell, ⟨s₁, htables⟩, hflows, hintents,
    Prod.ext hres (congrArg Prod.fst hstate)⟩

/-- A successful restore ends with the index rebuild and the fencing over prepared records. -/
theorem deserialize_eq_resumed (hok : (g.deserialize bytes now).1 = .ok ()) :
    ∃ g' keys elephants, Prepared g g' now ∧ (g.deserialize bytes now).2 =
      (g'.reindexed keys).resumed now keys.length elephants := by
  obtain ⟨header, s₁, s₂, s₃, ⟨hconfig, hboot⟩, -, hflows, hintents, hresume⟩ := deserialize_stages hok
  obtain ⟨⟨⟨flows, highest, hs₂⟩, hrecords⟩, hsize⟩ := restoreFlows_eq_ok hflows
  have hkept := keeps_restoreIntents
    (P := fun x => x.config = s₂.1.config ∧ x.boot = s₂.1.boot ∧ x.flows = s₂.1.flows)
    (fun _ _ hx => hx) s₂ ⟨rfl, rfl, rfl⟩
  rw [hintents] at hkept
  obtain ⟨hconfig₃, hboot₃, hflows₃⟩ := hkept
  rw [← hflows₃, hconfig] at hsize
  obtain ⟨keys, x₁, hkeys, hresume⟩ := bind_eq_ok_iff.mp hresume
  cases hkeys
  obtain ⟨elephants, x₂, helephants, hresume⟩ := bind_eq_ok_iff.mp hresume
  cases helephants
  obtain ⟨_, g₂, hloop, hresume⟩ := bind_eq_ok_iff.mp hresume
  have hbefore : ∀ key r, (s₃.1.withHeader header now).flows[key]? = some r →
      Rebuilding g.config key r := by
    intro key r hr
    rw [← hconfig]
    apply hrecords key r
    rw [← hflows₃]
    exact hr
  obtain ⟨⟨⟨flows, hg₂⟩, -, hsame⟩, hdone⟩ := forEach_demoteFlow hbefore hloop
  refine ⟨g₂, _, _, ⟨?_, ?_, ?_, ?_, hdone⟩, (congrArg Prod.snd hresume).symm⟩
  · rw [hg₂]
    show s₃.1.config = _
    rw [hconfig₃, hs₂]
    exact hconfig
  · rw [hg₂]
    show s₃.1.boot = _
    rw [hboot₃, hs₂]
    exact hboot
  · rw [hsame]
    exact hsize.1
  · rw [hsame]
    exact hsize.2

/-- The index rebuild touches the index and the bindings of the records. -/
theorem reindexFlow_cases (g : Governor) (key : FlowKey) :
    (g.flows[key]? = none ∧ g.reindexFlow key = g) ∨
    (∃ r, g.flows[key]? = some r ∧
      g.reindexFlow key = (g.updateIndex key r).1.setFlow key (rebound r)) := by
  unfold reindexFlow
  rcases hr : g.flows[key]? with _ | r
  · exact .inl ⟨rfl, rfl⟩
  · refine .inr ⟨r, rfl, ?_⟩
    simp only [updateIndex_snd]

/-- What the rebuild of the index keeps: everything that survives a rebinding of the records. -/
theorem reindexed_keeps (keys : List FlowKey)
    (h : P { g with bindingIndex := ∅, resourceAggregate := ∅ })
    (step : ∀ x key r, P x → x.flows[key]? = some r → P ((x.updateIndex key r).1.setFlow key
      (rebound r))) :
    P (g.reindexed keys) := by
  unfold reindexed
  generalize { g with bindingIndex := ∅, resourceAggregate := ∅ } = x at h
  induction keys generalizing x with
  | nil => exact h
  | cons key keys ih =>
    rw [List.foldl_cons]
    apply ih
    rcases reindexFlow_cases x key with ⟨-, heq⟩ | ⟨r, hr, heq⟩
    · rw [heq]
      exact h
    · rw [heq]
      exact step x key r h hr

theorem keeps_resumeAfterRestore (hdemoted : ∀ x key r h, P x → x.flows[key]? = some r →
      r.hasClassification = true → r.history.record (demotion now r) = .ok h →
      P (x.setFlow key (demotedRecord x.boot now r h)))
    (hindex : ∀ x, P x → P { x with bindingIndex := ∅, resourceAggregate := ∅ })
    (hrebound : ∀ x key r, P x → x.flows[key]? = some r →
      P ((x.updateIndex key r).1.setFlow key (rebound r)))
    (hresumed : ∀ x restored elephants, P x → P (x.resumed now restored elephants)) :
    Keeps P (resumeAfterRestore now) := by
  refine (Keeps.gets _).bind fun keys => (Keeps.gets _).bind fun elephants => ?_
  refine (Keeps.forEach fun key _ => keeps_demoteFlow hdemoted key).bind fun _ => ?_
  exact Keeps.modify fun x hx => hresumed _ _ _ (reindexed_keeps keys (hindex x hx) hrebound)

/-- A property of governors that survives every change the end of a restore makes. -/
structure ResumeStable (P : Governor → Prop) : Prop where
  replaced : ∀ g key r r', g.flows[key]? = some r → P g → P (g.setFlow key r') := by
    exact fun _ _ _ _ _ hx => hx
  intents : ∀ g intents, P g → P { g with intents := intents } := by exact fun _ _ hx => hx
  index : ∀ g index aggregate, P g →
    P { g with bindingIndex := index, resourceAggregate := aggregate } := by
    exact fun _ _ _ hx => hx
  clock : ∀ g classificationSequence intentSequence guard lastTick counters, P g → P { g with
    classificationSequence := classificationSequence
    intentSequence := intentSequence
    tickGuard := guard
    lastTick := lastTick
    counters := counters } := by exact fun _ _ _ _ _ _ hx => hx

/-- A property of governors that survives every change a restore makes behind the tables. -/
structure FlowsStable (P : Governor → Prop) : Prop extends ResumeStable P where
  cleared : ∀ g, P g → P { g with
    flows := ∅, highestGeneration := ∅, bindingIndex := ∅, resourceAggregate := ∅ } := by
    exact fun _ hx => hx
  created : ∀ g key r, P g → P ((g.createFlow key).setFlow key r) := by exact fun _ _ _ hx => hx

/-- A property of governors that survives every change a restore makes, the policy apart. -/
structure RestoreStable (P : Governor → Prop) : Prop extends FlowsStable P where
  tables : ∀ g capacities paths, P g → P { g with capacities := capacities, paths := paths } := by
    exact fun _ _ _ hx => hx

/-- The end of a restore keeps what survives its changes. -/
theorem ResumeStable.keeps_resume (h : ResumeStable P) (now : Tick) :
    Keeps P (resumeAfterRestore now) := by
  refine keeps_resumeAfterRestore (fun x key r _ hx hr _ _ => h.replaced x key r _ hr hx)
    (fun x hx => h.index x ∅ ∅ hx) (fun y key r hy hr => ?_) fun x restored elephants hx => ?_
  · obtain ⟨index, aggregate, heq⟩ := updateIndex_fst y key r
    rw [heq]
    exact h.replaced _ key r _ hr (h.index y index aggregate hy)
  · have hfenced := h.intents x (x.intents.revokeAll .fenced .authorityStale).2 hx
    have hclock := fun sequence intentSequence guard lastTick counters =>
      h.clock _ sequence intentSequence guard lastTick counters hfenced
    exact hclock _ _ _ _ _

theorem FlowsStable.keeps_restoreFlows (h : FlowsStable P) :
    Keeps (fun s : Governor × Bytes => P s.1) restoreFlows := by
  have hflow : Keeps (fun s : Governor × Bytes => P s.1) restoreFlow :=
    keeps_readFlowKey.bind fun key s hs => by
      obtain ⟨r, hr⟩ := restoreInto_snd key s
      rw [hr]
      exact h.created s.1 key r hs
  unfold restoreFlows
  exact (Keeps.gets _).bind fun _ => keeps_counted h.cleared hflow

/-- Behind its policy a restore keeps what survives its changes, also when it is refused half
way. -/
theorem RestoreStable.keeps_restoreBody (h : RestoreStable P) (now : Tick) (header : SnapshotHeader)
    (hpolicy : Keeps (fun s : Governor × Bytes => P s.1) (restorePolicy header.hasPolicy)) :
    Keeps (fun s : Governor × Bytes => P s.1) (restoreBody now header) := by
  unfold restoreBody
  refine hpolicy.bind fun _ => (keeps_restoreTables h.tables).bind fun _ => ?_
  refine h.keeps_restoreFlows.bind fun _ => (keeps_restoreIntents h.intents).bind fun _ => ?_
  exact (keeps_assign fun x hx => h.clock x _ _ _ _ _ hx).bind fun _ s hs => h.keeps_resume now s.1 hs

/-- What holds of a governor without flows, and survives the rest of a restore, holds behind every
restore that succeeds. -/
theorem deserialize_establishes
    (hcleared : ∀ x : Governor, x.config = g.config →
      P { x with flows := ∅, highestGeneration := ∅, bindingIndex := ∅, resourceAggregate := ∅ })
    (hflow : Keeps (fun s : Governor × Bytes => P s.1) restoreFlow)
    (hintents : ∀ x intents, P x → P { x with intents := intents })
    (hheader : ∀ x h, P x → P (withHeader x h now)) (hresume : Keeps P (resumeAfterRestore now))
    (hok : (g.deserialize bytes now).1 = .ok ()) :
    P (g.deserialize bytes now).2 := by
  obtain ⟨header, s₁, s₂, s₃, ⟨hconfig, -⟩, -, hflows, hread, hrun⟩ := deserialize_stages hok
  obtain ⟨maxFlows, s', hgets, hflows⟩ := bind_eq_ok_iff.mp hflows
  cases hgets
  obtain ⟨count, rest, -, -, htimes⟩ := counted_eq_ok hflows
  have hkept := hflow.times count (_, rest) (hcleared s₁.1 hconfig)
  rw [htimes] at hkept
  have hkept' := keeps_restoreIntents hintents s₂ hkept
  rw [hread] at hkept'
  have hend := hresume _ (hheader s₃.1 header hkept')
  rw [hrun] at hend
  exact hend

/-- What the tables of a snapshot establish and the rest of a restore keeps, holds behind every
restore that succeeds. -/
theorem FlowsStable.deserialize (h : FlowsStable P)
    (htables : ∀ s t, restoreTables s = (.ok (), t) → P t.1)
    (hok : (g.deserialize bytes now).1 = .ok ()) : P (g.deserialize bytes now).2 := by
  obtain ⟨header, s₁, s₂, s₃, -, ⟨s₀, hread⟩, hflows, hintents, hrun⟩ := deserialize_stages hok
  have h₂ := h.keeps_restoreFlows s₁ (htables s₀ s₁ hread)
  rw [hflows] at h₂
  have h₃ := keeps_restoreIntents h.intents s₂ h₂
  rw [hintents] at h₃
  have hheader : P (s₃.1.withHeader header now) := h.clock s₃.1 _ _ _ _ _ h₃
  have hend := h.keeps_resume now _ hheader
  rw [hrun] at hend
  exact hend

/-- Behind a successful restore holds what survives its changes and holds without flows. -/
theorem RestoreStable.deserialize (h : RestoreStable P)
    (hcleared : ∀ x : Governor, x.config = g.config →
      P { x with flows := ∅, highestGeneration := ∅, bindingIndex := ∅, resourceAggregate := ∅ })
    (hok : (g.deserialize bytes now).1 = .ok ()) : P (g.deserialize bytes now).2 := by
  refine deserialize_establishes hcleared ?_ h.intents
    (fun x _ hx => h.clock x _ _ _ _ _ hx) (h.keeps_resume now) hok
  refine keeps_readFlowKey.bind fun key s hs => ?_
  obtain ⟨r, hr⟩ := restoreInto_snd key s
  rw [hr]
  exact h.created s.1 key r hs

/-- Every record of the governor has the property, and the configuration is the given one. -/
def AllRecords (config : GovernorConfig) (Q : FlowRecord → Prop) (g : Governor) : Prop :=
  g.config = config ∧ ∀ (key : FlowKey) (r : FlowRecord), g.flows[key]? = some r → Q r

theorem AllRecords.setFlow (h : AllRecords config Q g) (hr : Q r) :
    AllRecords config Q (g.setFlow key r) := by
  refine ⟨h.1, fun k r' hr' => ?_⟩
  rw [getElem?_setFlow] at hr'
  split_ifs at hr'
  · rw [← Option.some.inj hr']
    exact hr
  · exact h.2 k r' hr'

theorem AllRecords.createFlow (h : AllRecords config Q g) (hfresh : Q (g.freshRecord key)) :
    AllRecords config Q (g.createFlow key) := by
  refine ⟨h.1, fun k r hr => ?_⟩
  have hr' : (g.flows.insertIfNew key (g.freshRecord key))[k]? = some r := hr
  rw [ExtTreeMap.getElem?_insertIfNew] at hr'
  split_ifs at hr'
  · rw [← Option.some.inj hr']
    exact hfresh
  · exact h.2 k r hr'

/-- Every restored record has the properties that a fresh record has and that the changes of a
restore keep. -/
theorem RecordStable.deserialize (hQ : RecordStable Q)
    (hrebound : ∀ r, Q r → Q (Governor.rebound r))
    (hdemoted : ∀ r boot now h, Q r → r.hasClassification = true → r.history.record (demotion now r)
      = .ok h → Q (demotedRecord boot now r h))
    (hfresh : ∀ (x : Governor) (key : FlowKey), x.config = g.config → Q (x.freshRecord key))
    (hok : (g.deserialize bytes now).1 = .ok ()) :
    AllRecords g.config Q (g.deserialize bytes now).2 := by
  refine deserialize_establishes (P := AllRecords g.config Q) (fun x hx => ⟨hx, ?_⟩) ?_
    (fun _ _ hx => hx) (fun _ _ hx => hx) ?_ hok
  · intro key r hr
    simp at hr
  · refine keeps_readFlowKey.bind fun key => ?_
    refine (keeps_assign fun x hx => hx.createFlow (hfresh x key hx.1)).bind fun _ s hs => ?_
    have hrecord : Q (s.1.flows[key]?.getD (s.1.freshRecord key)) := by
      rcases hr : s.1.flows[key]? with _ | r
      · exact hfresh s.1 key hs.1
      · exact hs.2 key r hr
    exact hs.setFlow (hQ.keeps_restoreRecord (_, s.2) hrecord)
  · refine keeps_resumeAfterRestore ?_ (fun x hx => hx) (fun y key r hy hr => ?_)
      fun x _ _ hx => hx
    · intro x key r hist hx hr hc hh
      exact hx.setFlow (hdemoted r x.boot now hist (hx.2 key r hr) hc hh)
    · have hinputs := sameInputs_updateIndex y key r
      have hy' : AllRecords g.config Q (y.updateIndex key r).1 :=
        ⟨hinputs.config.trans hy.1, fun k r' hr' => hy.2 k r' (by rw [← hinputs.flows]; exact hr')⟩
      exact hy'.setFlow (hrebound r (hy.2 key r hr))

/-- The governor in the middle of the index rebuild: the records visited so far are bound, none of
them as an elephant. -/
structure Rebinding (g g' : Governor) (now : Tick) : Prop where
  config : g'.config = g.config
  boot : g'.boot = g.boot
  bounded : g'.flows.size ≤ g.config.maxFlows
  small : g'.flows.size < 2 ^ 32
  projects : g'.Projects
  records : ∀ key r, g'.flows[key]? = some r →
    Tracked g.config key r ∧ Demoted now r ∧ (r.bound = true → r.boundElephant = false)

theorem Prepared.rebinding (h : Prepared g g' now) :
    Rebinding g { g' with bindingIndex := ∅, resourceAggregate := ∅ } now where
  config := h.config
  boot := h.boot
  bounded := h.bounded
  small := h.small
  projects := projects_empty rfl rfl fun key r hr => (h.records key r hr).1.2
  records := by
    intro key r hr
    obtain ⟨hrebuilding, hdemoted⟩ := h.records key r hr
    exact ⟨hrebuilding.1, hdemoted, fun hbound => absurd hbound (by simp [hrebuilding.2])⟩

theorem Demoted.boundElephant_rebound (h : Demoted now r)
    (hbound : (Governor.rebound r).bound = true) : (Governor.rebound r).boundElephant = false := by
  unfold Governor.rebound at hbound ⊢
  split_ifs at hbound ⊢ with hc
  · rw [not_or, not_not] at hc
    simp [h.state hc.1]

theorem Rebinding.step (h : Rebinding g g' now) (hr : g'.flows[key]? = some r) :
    Rebinding g ((g'.updateIndex key r).1.setFlow key (Governor.rebound r)) now := by
  have hinputs := sameInputs_updateIndex g' key r
  have hr' : (g'.updateIndex key r).1.flows[key]? = some r := by
    rw [hinputs.flows]
    exact hr
  have hsize : ((g'.updateIndex key r).1.setFlow key (Governor.rebound r)).flows.size =
      g'.flows.size := by
    rw [((SameKeys.refl _).setFlow hr' _).size, hinputs.flows]
  refine ⟨hinputs.config.trans h.config, hinputs.boot.trans h.boot, ?_, ?_, ?_, fun k r' hk => ?_⟩
  · rw [hsize]
    exact h.bounded
  · rw [hsize]
    exact h.small
  · exact h.projects.updateIndex hr rfl rfl h.small
  · rw [getElem?_setFlow, hinputs.flows] at hk
    split_ifs at hk with hkey
    · subst hkey
      rw [← Option.some.inj hk]
      obtain ⟨htracked, hdemoted, -⟩ := h.records key r hr
      exact ⟨htracked.rebound, hdemoted.rebound, hdemoted.boundElephant_rebound⟩
    · exact h.records k r' hk

/-- What a successful restore leaves. -/
structure Restored (g g' : Governor) (now : Tick) : Prop where
  config : g'.config = g.config
  boot : g'.boot = g.boot
  bounded : g'.flows.size ≤ g.config.maxFlows
  lastTick : now ≤ g'.lastTick
  idle : ∀ id i, ¬ g'.intents.Live id i
  projects : g'.Projects
  records : ∀ key r, g'.flows[key]? = some r →
    Tracked g.config key r ∧ Demoted now r ∧ (r.bound = true → r.boundElephant = false)

theorem deserialize_spec (hok : (g.deserialize bytes now).1 = .ok ()) :
    Restored g (g.deserialize bytes now).2 now := by
  obtain ⟨g', keys, elephants, hprep, heq⟩ := deserialize_eq_resumed hok
  rw [heq]
  have h : Rebinding g (g'.reindexed keys) now :=
    reindexed_keeps (P := fun x => Rebinding g x now) keys hprep.rebinding
      fun x key r hx hr => hx.step hr
  refine ⟨h.config, h.boot, h.bounded, ?_, ?_, ?_, h.records⟩
  · show now ≤ if (g'.reindexed keys).lastTick > now then (g'.reindexed keys).lastTick else now
    split_ifs with hlt
    · exact UInt64.le_of_lt hlt
    · exact UInt64.le_refl now
  · intro id i
    exact IntentLedger.live_revokeAll rfl
  · exact ⟨h.projects.indexed.congr rfl rfl, h.projects.entries⟩

end Governor

end EFG
