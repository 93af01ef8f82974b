/-
# Runs of the governor

A run applies public operations one after another (`Command`, `exec`).  Every
operation is taken apart into the few changes of state it is made of: `Move`
lists them with their guards, and `exec_performs` shows that what an operation
does, on every path through it and with every early return, is a sequence of
moves.  An invariant is then proved once for every move and holds in every state
that a run reaches (`Reachable.invariant`, `Performs.invariant`).
-/
import ElephantFlow.RestoreFacts
import ElephantFlow.Invalidation

namespace EFG

open ByteCodec Std

/-! ## Operations -/

/-- The public operations of the governor. -/
inductive Command
  | submitPolicy (p : PolicyDocument)
  | submitCapacity (c : ResourceCapacity)
  | submitPath (p : PathDescriptor)
  | submitEvidence (s : FlowSample)
  | completeFlow (flow : FlowId) (generation : Generation) (atTick : Tick)
  | tick (now : Tick)
  | classification (flow : FlowId) (generation : Generation) (now : Tick)
  | explain (flow : FlowId) (generation : Generation) (now : Tick)
  | setIncarnation (boot : BootIdentity)
  | reset
  | deserialize (bytes : Bytes) (now : Tick)

namespace IntentLedger

/-- The update of an intent touches no more than the reason of its suppression. -/
def ReasonOnly (update : GovernanceIntent → GovernanceIntent) : Prop :=
  ∀ i, ∃ reason, update i = { i with suppressed := reason }

theorem reasonOnly_id : ReasonOnly id := fun i => ⟨i.suppressed, rfl⟩

theorem reasonOnly_markStale : ReasonOnly markStale := fun _ => ⟨.authorityStale, rfl⟩

end IntentLedger

namespace Governor

/-- The governor that an operation leaves, whatever it returns. -/
def exec (g : Governor) : Command → Governor
  | .submitPolicy p => (g.submitPolicy p).2
  | .submitCapacity c => (g.submitCapacity c).2
  | .submitPath p => (g.submitPath p).2
  | .submitEvidence s => (g.submitEvidence s).2
  | .completeFlow flow generation atTick => (g.completeFlow flow generation atTick).2
  | .tick now => (g.tick now).2
  | .classification flow generation now => (g.classification flow generation now).2
  | .explain flow generation now => (g.explain flow generation now).2
  | .setIncarnation boot => g.setIncarnation boot
  | .reset => g.reset
  | .deserialize bytes now => (g.deserialize bytes now).2

/-- The governor after a list of operations. -/
def run (g : Governor) (cmds : List Command) : Governor := cmds.foldl exec g

/-- A run may contain failed operations, except that a restore has to succeed: a refused one leaves
a governor that its owner has to discard. -/
def Admits (g : Governor) : Command → Prop
  | .deserialize bytes now => (g.deserialize bytes now).1 = .ok ()
  | _ => True

/-- The states that a run of operations reaches from the fresh governor. -/
def Reachable (config : GovernorConfig) : Governor → Prop :=
  Relation.ReflTransGen (fun g g' => ∃ cmd, g.Admits cmd ∧ g' = g.exec cmd) (make config)

/-! ## Moves -/

/-- What a move is about. -/
inductive Event
  | inputs
  | advance (now : Tick)
  | policy (p : PolicyDocument)
  | invalidate (now : Tick)
  | evict (key : FlowKey) (record : FlowRecord)
  | create (key : FlowKey)
  | retire
  | evidence (key : FlowKey) (record : FlowRecord) (s : FlowSample)
  | complete (key : FlowKey) (record : FlowRecord) (atTick : Tick)
  | evaluate (key : FlowKey) (record : FlowRecord) (now : Tick)
  | reset
  | restore (bytes : Bytes) (now : Tick)

/-- The rules in force after a policy was taken: its own exit rules, or the ones in force when it
re-issues the retained document. -/
def RulesOf (g : Governor) (p : PolicyDocument) (rules : RuleSet) : Prop :=
  effectiveExitRule p = .ok rules ∨
    ∃ q, g.policy = some q ∧ q.generation = p.generation ∧ q.digest = p.digest ∧ rules = g.exitRules

/-- The changes of state that the operations are made of. -/
inductive Move : Governor → Event → Governor → Prop
  /-- Tables, incarnation, tick guard and counters. -/
  | inputs (g : Governor) (boot : BootIdentity) (guard : TickGuard) (capacities : CapacityTable)
      (paths : PathTable) (counters : GovernorCounters) :
      Move g .inputs { g with
        boot := boot
        tickGuard := guard
        capacities := capacities
        paths := paths
        counters := counters }
  | advance (g : Governor) (now : Tick) : Move g (.advance now) (g.advance now)
  | policy (g : Governor) (p : PolicyDocument) (rules : RuleSet) (counters : GovernorCounters)
      (hvalid : p.validate = .ok ()) (hrules : g.RulesOf p rules) :
      Move g (.policy p) { g with policy := some p, exitRules := rules, counters := counters }
  /-- A new policy generation withdraws every classification. -/
  | invalidate (g : Governor) (now : Tick) (hnow : g.lastTick ≤ now) :
      Move g (.invalidate now) (g.invalidateAllAuthority now .policyChanged).2
  | evict (g : Governor) (key : FlowKey) (record : FlowRecord)
      (hvictim : g.victim = some (key, record)) (hfull : g.config.maxFlows ≤ g.flows.size) :
      Move g (.evict key record) (g.dropFlow key record)
  | create (g : Governor) (key : FlowKey) (hnew : g.flows[key]? = none)
      (hnewer : ∀ highest, g.highestGeneration[key.flow]? = some highest → highest < key.generation)
      (hflow : key.flow.valid = true) (hgeneration : key.generation.valid = true)
      (hroom : g.flows.size < g.config.maxFlows) :
      Move g (.create key) (g.createFlow key)
  /-- A pass over the live intents that moves its selection to a dead state, never to
  `Suppressed`, and updates no more than the reason. -/
  | retire (g : Governor) (select : GovernanceIntent → Bool) (state : IntentState)
      (update : GovernanceIntent → GovernanceIntent) (hdead : isLive state = false)
      (hstate : state ≠ .suppressed)
      (hupdate : IntentLedger.ReasonOnly update) :
      Move g .retire { g with intents := (g.intents.updateLive select state update).2 }
  | evidence (g : Governor) (record : FlowRecord) (s : FlowSample)
      (hrecord : g.flows[sampleKey s]? = some record) (hvalid : s.validate = .ok ()) :
      Move g (.evidence (sampleKey s) record s)
        (g.setFlow (sampleKey s) { record with ledger := (record.ledger.append s).2 })
  /-- Completion, once the intents of the flow are retired. -/
  | complete (g : Governor) (key : FlowKey) (record : FlowRecord) (ledger : FlowLedger)
      (atTick : Tick) (hrecord : g.flows[key]? = some record)
      (hledger : record.ledger.markCompleted atTick = .ok ledger)
      (hidle : ∀ id i, g.intents.Live id i → ¬ (i.flow = key.flow ∧ i.flowGeneration = key.generation)) :
      Move g (.complete key record atTick)
        (g.setFlow key { record with ledger := ledger, completedTick := atTick })
  | evaluate (g : Governor) (key : FlowKey) (record : FlowRecord) (now : Tick)
      (hrecord : g.flows[key]? = some record) :
      Move g (.evaluate key record now) (g.evaluateFlow key record now).2
  | reset (g : Governor) : Move g .reset g.reset
  | restore (g : Governor) (bytes : Bytes) (now : Tick)
      (hok : (g.deserialize bytes now).1 = .ok ()) :
      Move g (.restore bytes now) (g.deserialize bytes now).2

/-- A sequence of moves, each of them under the condition. -/
def Performs (cond : Governor → Event → Prop) : Governor → Governor → Prop :=
  Relation.ReflTransGen fun g g' => ∃ e, cond g e ∧ Move g e g'

variable {cond : Governor → Command → Prop} {P : Governor → Prop} {g : Governor}
  {config : GovernorConfig} {cmds : List Command}

/-- What every move keeps, a sequence of moves keeps. -/
theorem Performs.invariant {cond : Governor → Event → Prop}
    (step : ∀ g e g', P g → cond g e → Move g e g' → P g') {g g' : Governor}
    (h : Performs cond g g') (hg : P g) : P g' := by
  induction h with
  | refl => exact hg
  | tail _ hmove ih =>
    obtain ⟨e, hcond, hmove⟩ := hmove
    exact step _ e _ ih hcond hmove

/-! ## Every operation is a sequence of moves -/

section Operations

/-- A move that neither retires nor creates nor restores a flow. -/
def Event.Steady : Event → Prop
  | .evict _ _ => False
  | .create _ => False
  | .restore _ _ => False
  | _ => True

/-- A move that does not change the policy either. -/
def Event.Routine : Event → Prop
  | .policy _ => False
  | .invalidate _ => False
  | e => e.Steady

/-- A move that takes no evidence either. -/
def Event.Plain : Event → Prop
  | .evidence _ _ _ => False
  | e => e.Routine

variable {e : Event} {key : FlowKey} {record : FlowRecord} {p : PolicyDocument}

theorem Event.Plain.steady (h : e.Plain) : e.Steady := by
  cases e with
  | policy => exact trivial
  | invalidate => exact trivial
  | evidence => exact trivial
  | _ => exact h

variable {g : Governor} {cond : Governor → Event → Prop}

theorem Performs.single {g g' : Governor} (hc : cond g e) (h : Move g e g') : Performs cond g g' :=
  Relation.ReflTransGen.single ⟨e, hc, h⟩

theorem Performs.trans {g₁ g₂ g₃ : Governor} (h : Performs cond g₁ g₂) (h' : Performs cond g₂ g₃) :
    Performs cond g₁ g₃ :=
  Relation.ReflTransGen.trans h h'

theorem victim_spec (h : g.victim = some (key, record)) :
    g.flows[key]? = some record ∧ record.ledger.completed = true := by
  have main : ∀ (es : List (FlowKey × FlowRecord)) (acc : Option (FlowKey × FlowRecord)),
      (∀ e, acc = some e → e ∈ g.flows.toList ∧ e.2.ledger.completed = true) →
      (∀ e ∈ es, e ∈ g.flows.toList) →
      ∀ e, es.foldl victimStep acc = some e → e ∈ g.flows.toList ∧ e.2.ledger.completed = true := by
    intro es
    induction es with
    | nil =>
      intro acc hacc _ e he
      exact hacc e he
    | cons x xs ih =>
      intro acc hacc hes e he
      refine ih (victimStep acc x) ?_ (fun y hy => hes y (List.mem_cons_of_mem _ hy)) e he
      intro y hy
      have hx := hes x List.mem_cons_self
      unfold victimStep at hy
      split_ifs at hy with hc
      · rcases acc with _ | v
        · cases hy
          exact ⟨hx, hc⟩
        · simp only at hy
          split_ifs at hy
          · cases hy
            exact ⟨hx, hc⟩
          · exact hacc y hy
      · exact hacc y hy
  obtain ⟨hmem, hc⟩ := main g.flows.toList none (by simp) (fun _ he => he) (key, record) h
  exact ⟨ExtTreeMap.mem_toList_iff_getElem?_eq_some.mp hmem, hc⟩

/-- Making room retires a completed flow, refuses, or does nothing. -/
theorem ensureFlowCapacity_cases (g : Governor) :
    (g.flows.size < g.config.maxFlows ∧ g.ensureFlowCapacity = (.ok (), g)) ∨
    (∃ key record, g.victim = some (key, record) ∧ g.config.maxFlows ≤ g.flows.size ∧
      g.ensureFlowCapacity = (.ok (), (g.dropFlow key record).count fun c =>
        { c with flowEvictions := c.flowEvictions + 1 })) ∨
    (∃ e, g.victim = none ∧ g.config.maxFlows ≤ g.flows.size ∧
      g.ensureFlowCapacity = (.error e, g.count fun c =>
        { c with capacityRefusals := c.capacityRefusals + 1 })) := by
  unfold ensureFlowCapacity
  by_cases hroom : g.flows.size < g.config.maxFlows
  · rw [if_pos hroom]
    exact .inl ⟨hroom, rfl⟩
  · rw [if_neg hroom]
    unfold evictOneCompletedFlow
    rcases hv : g.victim with _ | ⟨key, record⟩
    · exact .inr (.inr ⟨_, rfl, Nat.ge_of_not_lt hroom, rfl⟩)
    · exact .inr (.inl ⟨key, record, rfl, Nat.ge_of_not_lt hroom, rfl⟩)

theorem size_erase_victim (h : g.flows[key]? = some record) :
    (g.flows.erase key).size + 1 = g.flows.size := by
  have hmem : g.flows.contains key = true := by
    rw [ExtTreeMap.contains_iff_mem, ← ExtTreeMap.isSome_getElem?_iff_mem, h]
    rfl
  have hpos : 0 < g.flows.size := by
    rw [Nat.pos_iff_ne_zero]
    intro hzero
    have hempty : g.flows = ∅ := ExtTreeMap.eq_empty_iff_size_eq_zero.mpr hzero
    rw [hempty] at h
    simp at h
  rw [ExtTreeMap.size_erase, if_pos hmem]
  omega

/-- The two moves by which evidence for a flow that is not tracked changes the population meet the
condition: the eviction of a victim, and the creation, with or without an eviction before it. -/
structure Populates (cond : Governor → Event → Prop) (g : Governor) (key : FlowKey) : Prop where
  evict : ∀ k r, g.victim = some (k, r) → g.config.maxFlows ≤ g.flows.size → cond g (.evict k r)
  create : ∀ x : Governor, (x = g ∨ ∃ k r, g.victim = some (k, r) ∧ x.flows = g.flows.erase k) →
    (∀ highest, g.highestGeneration[key.flow]? = some highest → highest < key.generation) →
    cond x (.create key)

variable (hplain : ∀ x e, Event.Plain e → cond x e)
include hplain

theorem Performs.plain {g g' : Governor} (h : Move g e g') (he : e.Plain := by trivial) :
    Performs cond g g' :=
  .single (hplain g e he) h

theorem moves_counters (g : Governor) (counters : GovernorCounters) :
    Performs cond g { g with counters := counters } :=
  .plain hplain (.inputs g g.boot g.tickGuard g.capacities g.paths counters)

theorem moves_count (g : Governor) (f : GovernorCounters → GovernorCounters) :
    Performs cond g (g.count f) := moves_counters hplain g _

theorem moves_evaluateFlow (now : Tick) (h : g.flows[key]? = some record) :
    Performs cond g (g.evaluateFlow key record now).2 :=
  .plain hplain (.evaluate g key record now h)

theorem moves_installPolicy (hpolicy : ∀ x, cond x (.policy p))
    (hinvalidate : ∀ x now, x.flows = g.flows → cond x (.invalidate now))
    (hvalid : p.validate = .ok ()) :
    Performs cond g (g.installPolicy p).2 := by
  unfold installPolicy
  rcases hr : effectiveExitRule p with e | rules
  · exact moves_counters hplain g _
  · have hinstall : Performs cond g _ := .single (hpolicy g)
      (.policy g p rules { g.counters with policyAccepted := g.counters.policyAccepted + 1 }
        hvalid (.inl hr))
    simp only
    split_ifs
    · refine hinstall.trans (.single (hinvalidate _ _ rfl) (.invalidate _ _ ?_))
      exact le_maxOf_right _ _
    · exact hinstall

theorem moves_submitPolicy (hpolicy : ∀ x, cond x (.policy p))
    (hinvalidate : ∀ x now, x.flows = g.flows → cond x (.invalidate now)) :
    Performs cond g (g.submitPolicy p).2 := by
  unfold submitPolicy
  rcases hvalid : p.validate with e | ⟨⟩
  · exact .refl
  rcases hp : g.policy with _ | existing
  · exact moves_installPolicy hplain hpolicy hinvalidate hvalid
  simp only
  split_ifs with hold hsame hdigest hissued
  · exact moves_counters hplain g _
  · exact moves_counters hplain g _
  · exact moves_counters hplain g _
  · exact .single (hpolicy g) (.policy g p g.exitRules _ hvalid
      (.inr ⟨existing, hp, hsame.symm, (not_not.mp hdigest).symm, rfl⟩))
  · exact moves_installPolicy hplain hpolicy hinvalidate hvalid

theorem moves_submitCapacity (c : ResourceCapacity) : Performs cond g (g.submitCapacity c).2 := by
  unfold submitCapacity
  rcases g.capacities.submit c with e | table
  · exact moves_counters hplain g _
  · exact .plain hplain (.inputs g g.boot g.tickGuard table g.paths _)

theorem moves_submitPath (p : PathDescriptor) : Performs cond g (g.submitPath p).2 := by
  unfold submitPath
  rcases g.paths.submit p with e | table
  · exact moves_counters hplain g _
  · exact .plain hplain (.inputs g g.boot g.tickGuard g.capacities table _)

/-- After room was made for it, a new flow can be created. -/
theorem moves_ensureFlowCapacity_createFlow (hnew : g.flows[key]? = none)
    (hnewer : ∀ highest, g.highestGeneration[key.flow]? = some highest → highest < key.generation)
    (hflow : key.flow.valid = true) (hgeneration : key.generation.valid = true)
    (hb : g.flows.size ≤ g.config.maxFlows) (hpop : Populates cond g key) {g' : Governor}
    (h : g.ensureFlowCapacity = (.ok (), g')) : Performs cond g (g'.createFlow key) := by
  rcases ensureFlowCapacity_cases g with ⟨hroom, heq⟩ | ⟨k, r, hv, hfull, heq⟩ | ⟨e, -, -, heq⟩
  · rw [heq] at h
    cases h
    exact .single (hpop.create g (.inl rfl) hnewer) (.create g key hnew hnewer hflow hgeneration hroom)
  · rw [heq] at h
    cases h
    have hinputs := sameInputs_updateIndex g k r
    have hsize := size_erase_victim (victim_spec hv).1
    have hflows : (g.updateIndex k r).1.flows.erase k = g.flows.erase k := by rw [hinputs.flows]
    refine ((Performs.single (hpop.evict k r hv hfull) (.evict g k r hv hfull)).trans (moves_count hplain _ _)).trans
      (Performs.single (hpop.create _ (.inr ⟨k, r, hv, hflows⟩) hnewer)
        (Move.create _ key ?_ ?_ hflow hgeneration ?_))
    · show ((g.updateIndex k r).1.flows.erase k)[key]? = none
      rw [hinputs.flows, ExtTreeMap.getElem?_erase, hnew]
      split_ifs
      · rfl
      · rfl
    · intro highest hh
      apply hnewer highest
      rw [← hinputs.highestGeneration]
      exact hh
    · show ((g.updateIndex k r).1.flows.erase k).size < (g.updateIndex k r).1.config.maxFlows
      rw [hinputs.flows, hinputs.config]
      omega
  · rw [heq] at h
    cases h

theorem moves_ensureFlowCapacity_error {e : Status} {g' : Governor}
    (h : g.ensureFlowCapacity = (.error e, g')) : Performs cond g g' := by
  rcases ensureFlowCapacity_cases g with ⟨hroom, heq⟩ | ⟨k, r, hv, hfull, heq⟩ | ⟨e', -, -, heq⟩
  · rw [heq] at h
    cases h
  · rw [heq] at h
    cases h
  · rw [heq] at h
    cases h
    exact moves_counters hplain g _

theorem moves_establishFlow (hnew : g.flows[key]? = none) (hflow : key.flow.valid = true)
    (hgeneration : key.generation.valid = true) (hb : g.flows.size ≤ g.config.maxFlows)
    (hpop : Populates cond g key) :
    Performs cond g (g.establishFlow key).2 := by
  unfold establishFlow
  rcases hh : g.highestGeneration[key.flow]? with _ | highest
  · simp only
    rcases hc : g.ensureFlowCapacity with ⟨e | ⟨⟩, g'⟩
    · exact moves_ensureFlowCapacity_error hplain hc
    · exact moves_ensureFlowCapacity_createFlow hplain hnew (by simp [hh]) hflow hgeneration hb hpop hc
  · simp only
    split_ifs with hlt heq
    · exact moves_counters hplain g _
    · exact moves_counters hplain g _
    · have hgt : highest < key.generation := by
        rw [StrongId.lt_iff] at hlt ⊢
        have hne : key.generation.value ≠ highest.value := fun h => heq (StrongId.ext h)
        grind
      rcases hc : g.ensureFlowCapacity with ⟨e | ⟨⟩, g'⟩
      · exact moves_ensureFlowCapacity_error hplain hc
      · refine (moves_ensureFlowCapacity_createFlow hplain hnew ?_ hflow hgeneration hb hpop hc).trans ?_
        · intro h hsome
          rw [hh] at hsome
          rw [← Option.some.inj hsome]
          exact hgt
        · exact (Performs.plain hplain (.retire _ _ .fenced _ rfl (by decide)
            IntentLedger.reasonOnly_markStale)).trans
            (moves_counters hplain _ _)

theorem moves_applyEvidence {s : FlowSample} (hsample : cond g (.evidence (sampleKey s) record s))
    (hrecord : g.flows[sampleKey s]? = some record) (hvalid : s.validate = .ok ()) :
    Performs cond g (g.applyEvidence (sampleKey s) record s).2 := by
  have hevidence := Performs.single hsample (.evidence g record s hrecord hvalid)
  unfold applyEvidence
  rcases happ : record.ledger.append s with ⟨e | outcome, ledger⟩
  · rw [happ] at hevidence
    exact hevidence.trans (moves_counters hplain _ _)
  · rw [happ] at hevidence
    simp only
    have hstep : ((g.setFlow (sampleKey s) { record with ledger := ledger }).count
        (countTaken · outcome ledger s)).flows[sampleKey s]? =
        some { record with ledger := ledger } := by
      show (g.setFlow (sampleKey s) { record with ledger := ledger }).flows[sampleKey s]? = _
      rw [getElem?_setFlow, if_pos rfl]
    have heval := moves_evaluateFlow hplain (decisionTick s) hstep
    have hsame : ((g.setFlow (sampleKey s) { record with ledger := ledger }).count
        (countTaken · outcome ledger s)) = (g.count (countTaken · outcome ledger s)).setFlow
          (sampleKey s) { record with ledger := ledger } := rfl
    rw [hsame, evaluateFlow_setFlow] at heval
    have hall := hevidence.trans ((moves_counters hplain _ _).trans heval)
    rcases hd : (g.count (countTaken · outcome ledger s)).evaluateFlow (sampleKey s)
      { record with ledger := ledger } (decisionTick s) with ⟨e | d, g'⟩
    · rw [hd] at hall
      exact hall
    · rw [hd] at hall
      exact hall

theorem moves_submitEvidence {s : FlowSample} (hsample : ∀ x r, cond x (.evidence (sampleKey s) r s))
    (hb : g.flows.size ≤ g.config.maxFlows)
    (hpop : g.flows[sampleKey s]? = none → Populates cond g (sampleKey s)) :
    Performs cond g (g.submitEvidence s).2 := by
  unfold submitEvidence
  split_ifs
  · exact moves_counters hplain g _
  rcases hvalid : s.validate with e | ⟨⟩
  · exact moves_counters hplain g _
  simp only
  have hopen : Performs cond g (g.openFlow (sampleKey s)).2 := by
    unfold openFlow
    obtain ⟨hflow, hgeneration, -⟩ := FlowSample.of_validate hvalid
    rcases hr : g.flows[sampleKey s]? with _ | r
    · exact moves_establishFlow hplain hr hflow hgeneration hb (hpop hr)
    · exact .refl
  rcases ho : g.openFlow (sampleKey s) with ⟨e | ⟨⟩, g'⟩
  · rw [ho] at hopen
    exact hopen
  · rw [ho] at hopen
    simp only
    rcases hr : g'.flows[sampleKey s]? with _ | record
    · exact hopen
    · exact hopen.trans (moves_applyEvidence hplain (hsample g' record) hr hvalid)

theorem moves_completeFlow (flow : FlowId) (generation : Generation) (atTick : Tick) :
    Performs cond g (g.completeFlow flow generation atTick).2 := by
  unfold completeFlow
  rcases hr : g.flows[(⟨flow, generation⟩ : FlowKey)]? with _ | record
  · exact .refl
  simp only
  rcases hm : record.ledger.markCompleted atTick with e | ledger
  · exact .refl
  simp only
  generalize hf : (fun c : GovernorCounters => { c with
    flowCompletions := c.flowCompletions + 1
    intentsRevoked := c.intentsRevoked +
      (g.intents.transitionFlowTerminal flow generation .completed).1 }) = f
  generalize hg₁ : ({ g with
    intents := (g.intents.transitionFlowTerminal flow generation .completed).2 }.count f) = g₁
  have hretire : Performs cond g g₁ := by
    rw [← hg₁]
    exact (Performs.plain hplain (.retire g _ .completed id rfl (by decide)
      IntentLedger.reasonOnly_id)).trans
      (moves_count hplain _ f)
  have hr₁ : g₁.flows[(⟨flow, generation⟩ : FlowKey)]? = some record := by
    rw [← hg₁]
    exact hr
  have hidle : ∀ id i, g₁.intents.Live id i → ¬ (i.flow = flow ∧ i.flowGeneration = generation) := by
    rw [← hg₁]
    intro id i hlive
    exact ((IntentLedger.live_transitionFlowTerminal rfl).mp hlive).2
  have hcomplete := Performs.plain hplain (.complete g₁ ⟨flow, generation⟩ record ledger atTick hr₁ hm hidle)
  have hstep : (g₁.setFlow ⟨flow, generation⟩
      { record with ledger := ledger, completedTick := atTick }).flows[
        (⟨flow, generation⟩ : FlowKey)]? =
      some { record with ledger := ledger, completedTick := atTick } := by
    rw [getElem?_setFlow, if_pos rfl]
  have heval := moves_evaluateFlow hplain atTick hstep
  rw [evaluateFlow_setFlow] at heval
  have hall := hretire.trans (hcomplete.trans heval)
  rcases hd : g₁.evaluateFlow ⟨flow, generation⟩
    { record with ledger := ledger, completedTick := atTick } atTick with ⟨e | d, g'⟩
  · rw [hd] at hall
    exact hall
  · rw [hd] at hall
    exact hall

theorem moves_sweepFlow (now : Tick) (key : FlowKey) (acc : DecisionBatch × Governor) :
    Performs cond acc.2 (sweepFlow now key acc).2 := by
  unfold sweepFlow
  rcases hr : acc.2.flows[key]? with _ | record
  · exact .refl
  simp only
  split_ifs
  · have heval := moves_evaluateFlow hplain now hr
    rcases hd : acc.2.evaluateFlow key record now with ⟨e | d, g'⟩
    · rw [hd] at heval
      exact heval
    · rw [hd] at heval
      exact heval
  · exact .refl

theorem moves_sweepLoop (now : Tick) (keys : List FlowKey) (acc : DecisionBatch × Governor) :
    Performs cond acc.2 (sweepLoop now keys acc).2 := by
  unfold sweepLoop
  induction keys generalizing acc with
  | nil => exact .refl
  | cons key keys ih =>
    rw [List.foldl_cons]
    exact (moves_sweepFlow hplain now key acc).trans (ih _)

theorem moves_beginSweep (guard : TickGuard) (now : Tick) :
    Performs cond g (g.beginSweep guard now).2 :=
  (Performs.plain hplain (.inputs g g.boot guard (g.capacities.expire now) (g.paths.expire now)
    g.counters)).trans ((Performs.plain hplain (.retire _ _ .expired id rfl (by decide)
      IntentLedger.reasonOnly_id)).trans (moves_counters hplain _ _))

theorem moves_tick (now : Tick) : Performs cond g (g.tick now).2 := by
  unfold tick
  split_ifs
  · exact moves_counters hplain g _
  · exact moves_counters hplain g _
  rcases g.tickGuard.observe now with e | guard
  · exact moves_counters hplain g _
  · exact ((moves_beginSweep hplain guard now).trans (moves_sweepLoop hplain now _ _)).trans
      (.plain hplain (.advance _ now))

theorem moves_classification (flow : FlowId) (generation : Generation) (now : Tick) :
    Performs cond g (g.classification flow generation now).2 := by
  unfold classification
  rcases hr : g.flows[(⟨flow, generation⟩ : FlowKey)]? with _ | record
  · exact .refl
  · have heval := moves_evaluateFlow hplain now hr
    simp only
    rcases hd : g.evaluateFlow ⟨flow, generation⟩ record now with ⟨e | d, g'⟩
    · rw [hd] at heval
      exact heval
    · rw [hd] at heval
      exact heval

theorem moves_explain (flow : FlowId) (generation : Generation) (now : Tick) :
    Performs cond g (g.explain flow generation now).2 := by
  unfold explain
  rcases hr : g.flows[(⟨flow, generation⟩ : FlowKey)]? with _ | record
  · exact .refl
  · have heval := moves_evaluateFlow hplain now hr
    unfold evaluateFlow at heval
    simp only
    rcases hd : g.evaluate record now with ⟨e | d, g', record'⟩
    · rw [hd] at heval
      exact heval
    · rw [hd] at heval
      exact heval

end Operations

/-- Every operation, whatever it returns, is a sequence of moves that meet the condition, if its
policies, samples, evictions, creations and restores do. -/
theorem exec_performs_of {cond : Governor → Event → Prop} {cmd : Command}
    (hplain : ∀ x e, Event.Plain e → cond x e)
    (hpolicy : ∀ p, cmd = .submitPolicy p → Performs cond g (g.submitPolicy p).2)
    (hsample : ∀ s, cmd = .submitEvidence s → ∀ x r, cond x (.evidence (sampleKey s) r s))
    (hpop : ∀ s, cmd = .submitEvidence s → g.flows[sampleKey s]? = none → Populates cond g
      (sampleKey s))
    (hrestore : ∀ bytes now, cmd = .deserialize bytes now → cond g (.restore bytes now))
    (hb : g.flows.size ≤ g.config.maxFlows) (hadmits : g.Admits cmd) :
    Performs cond g (g.exec cmd) := by
  cases cmd with
  | submitPolicy p => exact hpolicy p rfl
  | submitCapacity c => exact moves_submitCapacity hplain c
  | submitPath p => exact moves_submitPath hplain p
  | submitEvidence s => exact moves_submitEvidence hplain (hsample s rfl) hb (hpop s rfl)
  | completeFlow flow generation atTick => exact moves_completeFlow hplain flow generation atTick
  | tick now => exact moves_tick hplain now
  | classification flow generation now => exact moves_classification hplain flow generation now
  | explain flow generation now => exact moves_explain hplain flow generation now
  | setIncarnation boot =>
    exact .plain hplain (.inputs g boot g.tickGuard g.capacities g.paths g.counters)
  | reset => exact .plain hplain (.reset g)
  | deserialize bytes now => exact .single (hrestore bytes now rfl) (.restore g bytes now hadmits)

/-- Every operation, whatever it returns, is a sequence of moves that meet the condition, if its
evictions, creations and restores do. -/
theorem exec_performs {cond : Governor → Event → Prop} {cmd : Command}
    (hsteady : ∀ x e, Event.Steady e → cond x e)
    (hpop : ∀ s, cmd = .submitEvidence s → g.flows[sampleKey s]? = none → Populates cond g
      (sampleKey s))
    (hrestore : ∀ bytes now, cmd = .deserialize bytes now → cond g (.restore bytes now))
    (hb : g.flows.size ≤ g.config.maxFlows) (hadmits : g.Admits cmd) :
    Performs cond g (g.exec cmd) := by
  have hplain : ∀ x e, Event.Plain e → cond x e := fun x e he => hsteady x e he.steady
  refine exec_performs_of hplain (fun p _ => ?_) (fun s _ x r => hsteady x _ trivial) hpop hrestore
    hb hadmits
  exact moves_submitPolicy hplain (fun x => hsteady x _ trivial)
    (fun x now _ => hsteady x _ trivial)

/-- A sequence of moves without a condition. -/
abbrev Moves : Governor → Governor → Prop := Performs fun _ _ => True

/-! ## The population of a run -/

/-- At most as many flows as configured, and not more than the source supports. -/
structure Bounded (g : Governor) : Prop where
  flows : g.flows.size ≤ g.config.maxFlows
  config : g.config.maxFlows ≤ kMaxFlows

theorem bounded_make (config : GovernorConfig) : (make config).Bounded := by
  refine ⟨?_, ?_⟩
  · show (∅ : ExtTreeMap FlowKey FlowRecord).size ≤ _
    rw [ExtTreeMap.size_empty]
    exact Nat.zero_le _
  · show GovernorConfig.clampTo 1 kMaxFlows config.maxFlows ≤ kMaxFlows
    unfold GovernorConfig.clampTo
    have : 1 ≤ kMaxFlows := by decide
    split_ifs <;> omega

theorem Bounded.congr {g g' : Governor} (h : g.Bounded) (hconfig : g'.config = g.config)
    (hflows : g'.flows.size ≤ g.flows.size) : g'.Bounded := by
  refine ⟨?_, ?_⟩
  · rw [hconfig]
    exact hflows.trans h.flows
  · rw [hconfig]
    exact h.config

theorem size_setFlow_of_tracked {key : FlowKey} {r : FlowRecord} (hr : g.flows[key]? = some r)
    (r' : FlowRecord) :
    (g.setFlow key r').flows.size = g.flows.size := ((SameKeys.refl g).setFlow hr r').size

theorem Bounded.move {g g' : Governor} {e : Event} (h : g.Bounded) (hmove : Move g e g') :
    g'.Bounded := by
  cases hmove with
  | inputs => exact h.congr rfl le_rfl
  | advance => exact h.congr rfl le_rfl
  | policy => exact h.congr rfl le_rfl
  | invalidate now =>
    refine invalidateAllAuthority_keeps (P := Bounded) (fun key => ?_) (fun x _ hx => ?_) h
    · apply keeps_invalidateFlow
      · intro x k r hx hr _ _
        exact hx.congr rfl (size_setFlow_of_tracked hr _).le
      · intro x k r hist hx hr _ _
        obtain ⟨index, aggregate, counters, heq⟩ := withdrawn_eq x .policyChanged k r hist
        refine hx.congr (by rw [heq]) (Eq.le ?_)
        rw [withdrawn_flows]
        exact size_setFlow_of_tracked hr _
    · exact hx.congr rfl le_rfl
  | evict key record hvictim =>
    have hinputs := sameInputs_updateIndex g key record
    refine h.congr hinputs.config ?_
    show ((g.updateIndex key record).1.flows.erase key).size ≤ _
    rw [hinputs.flows]
    have := size_erase_victim (victim_spec hvictim).1
    omega
  | create key hnew _ _ _ hroom =>
    refine ⟨?_, h.config⟩
    show (g.flows.insertIfNew key (g.freshRecord key)).size ≤ g.config.maxFlows
    rw [ExtTreeMap.size_insertIfNew]
    split_ifs <;> omega
  | retire => exact h.congr rfl le_rfl
  | evidence record s hrecord => exact h.congr rfl (size_setFlow_of_tracked hrecord _).le
  | complete key record ledger atTick hrecord =>
    exact h.congr rfl (size_setFlow_of_tracked hrecord _).le
  | evaluate key record now hrecord =>
    have hinputs := sameInputs_evaluate g record now
    refine h.congr hinputs.config (Eq.le ?_)
    show ((g.evaluate record now).2.1.flows.insert key _).size = _
    rw [hinputs.flows]
    exact size_setFlow_of_tracked hrecord _
  | reset =>
    refine h.congr rfl ?_
    show (∅ : ExtTreeMap FlowKey FlowRecord).size ≤ _
    rw [ExtTreeMap.size_empty]
    exact Nat.zero_le _
  | restore bytes now hok =>
    have hrestored := deserialize_spec hok
    refine ⟨?_, ?_⟩
    · rw [hrestored.config]
      exact hrestored.bounded
    · rw [hrestored.config]
      exact h.config

theorem Move.config_eq {g g' : Governor} {e : Event} (hmove : Move g e g') :
    g'.config = g.config := by
  cases hmove with
  | invalidate now hnow =>
    obtain ⟨_, _, _, _, _, heq⟩ := invalidateAllAuthority_rest g now .policyChanged
    rw [heq]
  | evict key record => exact (sameInputs_updateIndex g key record).config
  | evaluate key record now => exact (sameInputs_evaluate g record now).config
  | restore bytes now hok => exact (deserialize_spec hok).config
  | _ => rfl

/-- A run of operations is a sequence of moves. -/
theorem Reachable.moves (h : Reachable config g) : Moves (make config) g := by
  induction h with
  | refl => exact .refl
  | tail _ hstep ih =>
    obtain ⟨cmd, hadmits, rfl⟩ := hstep
    have hbounded : Bounded _ :=
      Performs.invariant (fun g e g' hg _ hmove => hg.move hmove) ih (bounded_make config)
    exact ih.trans (exec_performs (fun _ _ _ => trivial)
      (fun _ _ _ => ⟨fun _ _ _ _ => trivial, fun _ _ _ => trivial⟩) (fun _ _ _ => trivial)
      hbounded.flows hadmits)

/-- What holds of the fresh governor and every move keeps, holds in every state of a run. -/
theorem Reachable.invariant (h : Reachable config g) (hmake : P (make config))
    (step : ∀ g e g', P g → Move g e g' → P g') : P g :=
  Performs.invariant (fun g e g' hg _ hmove => step g e g' hg hmove) h.moves hmake

theorem Reachable.bounded (h : Reachable config g) : g.Bounded :=
  h.invariant (bounded_make config) fun _ _ _ hg hmove => hg.move hmove

/-- The configuration of a governor is the narrowed one it was made with. -/
theorem Reachable.config_eq (h : Reachable config g) : g.config = config.clamped :=
  h.invariant (P := fun g => g.config = config.clamped) rfl fun _ _ _ hg hmove =>
    hmove.config_eq.trans hg

/-- The states that runs reach in which every operation meets the condition where it is called. -/
def ReachableUnder (cond : Governor → Command → Prop) (config : GovernorConfig) : Governor → Prop :=
  Relation.ReflTransGen (fun g g' => ∃ cmd, g.Admits cmd ∧ cond g cmd ∧ g' = g.exec cmd) (make config)

theorem ReachableUnder.reachable (h : ReachableUnder cond config g) : Reachable config g := by
  induction h with
  | refl => exact .refl
  | tail _ hstep ih =>
    obtain ⟨cmd, hadmits, -, heq⟩ := hstep
    exact ih.tail ⟨cmd, hadmits, heq⟩

/-- What holds of the fresh governor and every operation under the condition keeps, holds in every
state of such a run. -/
theorem ReachableUnder.invariant (h : ReachableUnder cond config g) (hmake : P (make config))
    (step : ∀ (g : Governor) (cmd : Command), Reachable config g → P g → g.Admits cmd → cond g cmd →
      P (g.exec cmd)) :
    P g := by
  induction h with
  | refl => exact hmake
  | tail hrun hstep ih =>
    obtain ⟨cmd, hadmits, hcond, rfl⟩ := hstep
    exact step _ cmd (ReachableUnder.reachable hrun) ih hadmits hcond

/-- Every operation of the list meets the condition where it is called. -/
def Meets (cond : Governor → Command → Prop) : Governor → List Command → Prop
  | _, [] => True
  | g, cmd :: cmds => g.Admits cmd ∧ cond g cmd ∧ Meets cond (g.exec cmd) cmds

theorem ReachableUnder.run (h : ReachableUnder cond config g) (hmeets : Meets cond g cmds) :
    ReachableUnder cond config (g.run cmds) := by
  induction cmds generalizing g with
  | nil => exact h
  | cons cmd cmds ih => exact ih (h.tail ⟨cmd, hmeets.1, hmeets.2.1, rfl⟩) hmeets.2.2

/-- Operations other than restores lead from one reachable state to another. -/
theorem Reachable.run (h : Reachable config g)
    (hadmits : ∀ cmd ∈ cmds, ∀ g : Governor, g.Admits cmd) :
    Reachable config (g.run cmds) := by
  induction cmds generalizing g with
  | nil => exact h
  | cons cmd cmds ih =>
    have hstep : Reachable config (g.exec cmd) := h.tail ⟨cmd, hadmits cmd (by simp) g, rfl⟩
    exact ih hstep fun c hc => hadmits c (by simp [hc])

/-! ## A small run

One policy that every window satisfies, one resource, one path over it and one window of one flow:
after the four submissions the flow is an Elephant with a live intent. -/

namespace Scenario

def provenance : Provenance where
  publisher := { publisher := ⟨1⟩, boot := ⟨1⟩, epoch := ⟨1⟩, sequence := 1 }
  schemaVersion := 1

/-- Every window qualifies, and one window confirms. -/
def policy : PolicyDocument where
  id := ⟨1⟩
  generation := ⟨1⟩
  enterRule := { nodes := [{ kind := .threshold }] }
  authorization := { minImpactSeverity := 0 }
  validity := ⟨0, 1000⟩
  provenance := provenance
  digest := 1

def capacity : ResourceCapacity where
  resource := ⟨1⟩
  generation := ⟨1⟩
  snapshot := ⟨1⟩
  span := ⟨0, 10⟩
  capacity := 1000
  validity := ⟨0, 1000⟩
  provenance := provenance

def path : PathDescriptor where
  path := ⟨1⟩
  generation := ⟨1⟩
  resources := [⟨1⟩]
  validity := ⟨0, 1000⟩
  provenance := provenance

def sample : FlowSample :=
  FlowSample.signed
    { flow := ⟨1⟩, flowGeneration := ⟨1⟩, path := ⟨1⟩, pathGeneration := ⟨1⟩, window := ⟨1⟩
      windowSequence := 1, span := ⟨0, 10⟩, cumulativeBytes := 10000, windowBytes := 10000
      serviceClass := .standard, priority := some 1, protection := .unprotected
      validity := ⟨10, 500⟩, provenance := provenance }

/-- A window of the same flow. -/
def window (n : UInt64) (span : TickSpan) : FlowSample := FlowSample.signed
  { sample with window := ⟨n⟩, windowSequence := n, span := span, cumulativeBytes := 10000 * n
                validity := ⟨span.endAt, 500⟩ }

/-- The flow of the small run. -/
abbrev flowKey : FlowKey := ⟨⟨1⟩, ⟨1⟩⟩

/-- The first incarnation. -/
def boot : BootIdentity := { boot := ⟨1⟩, epoch := ⟨1⟩ }

/-- The second incarnation. -/
def reboot : BootIdentity := { boot := ⟨2⟩, epoch := ⟨2⟩ }

/-- The four submissions. -/
def commands : List Command :=
  [.submitPolicy policy, .submitCapacity capacity, .submitPath path, .submitEvidence sample]

/-- The governor after the four submissions. -/
def governor : Governor := ((make {}).setIncarnation boot).run commands

theorem reachable_incarnation : Reachable config ((make config).setIncarnation boot) :=
  Relation.ReflTransGen.single ⟨.setIncarnation boot, trivial, rfl⟩

theorem reachable_governor : Reachable {} governor := by
  refine reachable_incarnation.run ?_
  simp [commands, Admits]

/-- The small run meets a condition that its policy meets and that says nothing about the other
inputs. -/
theorem reachableUnder_governor {cond : Governor → Command → Prop}
    (hboot : ∀ x boot, cond x (.setIncarnation boot))
    (hpolicy : cond ((make {}).setIncarnation boot) (.submitPolicy policy))
    (hcapacity : ∀ x c, cond x (.submitCapacity c)) (hpath : ∀ x p, cond x (.submitPath p))
    (hevidence : ∀ x s, cond x (.submitEvidence s)) : ReachableUnder cond {} governor := by
  have hstart : ReachableUnder cond {} ((make {}).setIncarnation boot) :=
    Relation.ReflTransGen.single ⟨.setIncarnation boot, trivial, hboot _ _, rfl⟩
  exact hstart.run ⟨trivial, hpolicy, trivial, hcapacity _ _, trivial, hpath _ _, trivial,
    hevidence _ _, trivial⟩

end Scenario

end Governor

end EFG
