/-
# A path that moves under an Elephant

`build_authority` takes the path generation from the latest sample of the flow, as the decision did,
and never from the path table.  So a descriptor of a newer generation is not noticed by itself: the
next evaluation withdraws the Elephant exactly if it suspends it for something else, finds it
completed or lets it leave by its exit rule (`evaluate_elephant_iff`).  What is withdrawn by a
suspension stays withdrawn, whatever is done with it, until a sample of the flow is accepted, of
whatever path generation (`Barred.move`).
-/
import ElephantFlow.Repetition
import ElephantFlow.Trails

namespace EFG

namespace Governor

variable {g g' x : Governor} {key : FlowKey} {r r' : FlowRecord} {now : Tick} {e : Event}
  {d : FlowDecision} {config : GovernorConfig}

/-! ## One evaluation of an Elephant -/

theorem verdict_elephant_iff (hprev : previousState r = .elephant) :
    (g.verdict r now).state = .elephant ↔ RulesDecide g r now ∧ ¬ Leaves g r now := by
  constructor
  · intro hel
    obtain ⟨hrun, hcalm, -⟩ := of_verdict_elephant hel
    refine ⟨⟨hrun, hcalm⟩, fun hleave => ?_⟩
    obtain ⟨hrules, hbelow, p', hp', hconfirmed⟩ := hleave
    obtain ⟨p, hp, hv, -⟩ := hrules.verdict_eq
    obtain rfl : p = p' := Option.some.inj (hp.symm.trans hp')
    rw [hv, hbelow, hysteresis_leaves hprev hconfirmed] at hel
    cases hel
  · rintro ⟨hrules, hkeep⟩
    exact (Settles.stays hprev hrules hkeep).elephant_iff.mpr rfl

theorem state_of_evaluate (hok : (g.evaluate r now).1 = .ok d) :
    (g.evaluate r now).2.2.hasClassification = true ∧
      (g.evaluate r now).2.2.classification.state = (g.verdict r now).state := by
  rcases evaluate_cases g r now with ⟨e, _, _, heq⟩ | ⟨-, hu, heq⟩ | ⟨c, h, hc, heq⟩
  · rw [heq] at hok
    cases hok
  · rw [heq]
    refine ⟨(of_unchanged hu).1, ?_⟩
    rw [← candidate_state]
    exact (of_unchanged hu).2.1
  · rw [heq, commit_snd_snd]
    exact ⟨hc.settled.classified, hc.settled.state⟩

/-- **An evaluated Elephant.**  It stays one exactly if the rules decide about it and do not dismiss
it. -/
theorem evaluate_elephant_iff (hel : r.isElephant = true) (hok : (g.evaluate r now).1 = .ok d) :
    (g.evaluate r now).2.2.isElephant = true ↔ RulesDecide g r now ∧ ¬ Leaves g r now := by
  obtain ⟨hclassified, hstate⟩ := state_of_evaluate hok
  rw [← verdict_elephant_iff (isElephant_iff.mp hel), FlowRecord.isElephant, hclassified, hstate]
  simp

/-- The tick domain, the identifiers and the generations leave room for a decision. -/
structure Roomy (g : Governor) (r : FlowRecord) (now : Tick) : Prop where
  ticks : now.toNat + g.config.classificationValidityTicks.toNat < 2 ^ 64
  identifiers : g.classificationSequence ≠ u64Max
  generations : r.classification.generation.value ≠ u64Max

/-- An evaluation that may be refused withdraws an Elephant exactly if it reaches another verdict and
there is room for it. -/
theorem evaluate_withdraws_iff {lastTick : Tick} (hs : Sound g.config lastTick key r)
    (hle : lastTick ≤ now) (hticks : g.config.classificationValidityTicks ≠ 0)
    (hel : r.isElephant = true) :
    (g.evaluate r now).2.2.isElephant = false ↔
      ¬ (RulesDecide g r now ∧ ¬ Leaves g r now) ∧ Roomy g r now := by
  rw [← verdict_elephant_iff (isElephant_iff.mp hel)]
  have hel' := hel
  simp only [FlowRecord.isElephant, Bool.and_eq_true, decide_eq_true_eq] at hel'
  constructor
  · intro hout
    rcases evaluate_cases g r now with ⟨e, _, _, heq⟩ | ⟨-, -, heq⟩ | ⟨c, h, hc, heq⟩
    · rw [heq, hel] at hout
      cases hout
    · rw [heq] at hout
      have hsame : r.isElephant = false := hout
      rw [hel] at hsame
      cases hsame
    · have hstate : (g.verdict r now).state ≠ .elephant := by
        intro hverdict
        rw [heq, commit_snd_snd, FlowRecord.isElephant, hc.settled.classified, hc.settled.state,
          hverdict] at hout
        cases hout
      have hnew := hc.redecides hel'.1
      refine ⟨hstate, hnew.ticks, hnew.identifiers, fun hmax => hstate ?_⟩
      rw [← candidate_state, ← (hnew.generations hmax).1]
      exact hel'.2
  · rintro ⟨hstate, hroom⟩
    have hchanged : unchanged r (g.candidate r now) = false := by
      by_contra hu
      rw [Bool.not_eq_false] at hu
      apply hstate
      rw [← candidate_state, ← (of_unchanged hu).2.1]
      exact hel'.2
    have hnew : Redecides g r now :=
      ⟨hchanged, hroom.ticks, hroom.identifiers, fun hmax => absurd hmax hroom.generations⟩
    obtain ⟨c, h, hc⟩ := hnew.commits hs hle hel hticks
    rw [hc.evaluate_eq, commit_snd_snd, FlowRecord.isElephant, hc.settled.classified,
      hc.settled.state]
    simpa using hstate

/-! ## What is withdrawn -/

/-- The flow is no Elephant and has no live intent. -/
structure Withdrawn (key : FlowKey) (g : Governor) : Prop where
  record : ∀ r : FlowRecord, g.flows[key]? = some r → r.isElephant = false
  intents : ∀ (id : IntentId) (i : GovernanceIntent), g.intents.Live id i →
    ¬ (i.flow = key.flow ∧ i.flowGeneration = key.generation)

theorem withdrawn_of_out (hg : g.Justified)
    (hout : ∀ r : FlowRecord, g.flows[key]? = some r → r.isElephant = false) : Withdrawn key g := by
  refine ⟨hout, ?_⟩
  rintro id i hlive ⟨hflow, hgeneration⟩
  obtain ⟨r, hr, hsupports⟩ := hg.intents id i hlive
  rw [hflow, hgeneration] at hr
  have hno := hout r hr
  rw [FlowRecord.isElephant, hsupports.classified, hsupports.state] at hno
  cases hno

theorem withdrawn_iff (hg : g.Justified) (hr : g.flows[key]? = some r) :
    Withdrawn key g ↔ r.isElephant = false := by
  refine ⟨fun hw => hw.record r hr, fun hno => withdrawn_of_out hg fun x hx => ?_⟩
  rw [hr] at hx
  rw [← Option.some.inj hx]
  exact hno

/-- A record that cannot become an Elephant without evidence: it has completed, or it is suspended
and its evidence was evaluated. -/
structure Barred (r : FlowRecord) : Prop where
  out : r.isElephant = false
  shut : r.ledger.completed = true ∨ (Resting r ∧ newEvidence r = false)

theorem barred_of_evaluate (hel : r.isElephant = true)
    (hout : (g.evaluate r now).2.2.isElephant = false) (hno : ¬ RulesDecide g r now) :
    Barred (g.evaluate r now).2.2 := by
  refine ⟨hout, ?_⟩
  rcases evaluate_record g r now with ⟨t, heq⟩ | hsettled
  · rw [heq] at hout
    have hsame : r.isElephant = false := hout
    rw [hel] at hsame
    cases hsame
  by_cases hdone : r.ledger.completed = true
  · left
    rw [hsettled.ledger]
    exact hdone
  · rw [Bool.not_eq_true] at hdone
    right
    have hsuspended : (g.suspensionReasons r now).1 = true := by
      by_contra hcalm
      exact hno ⟨hdone, by simpa using hcalm⟩
    have hclassified : r.hasClassification = true := by
      simp only [FlowRecord.isElephant, Bool.and_eq_true] at hel
      exact hel.1
    refine ⟨⟨hsettled.classified, ?_⟩, hsettled.evaluated⟩
    rw [hsettled.state, verdict_of_suspended hdone hsuspended, hclassified, isElephant_iff.mp hel]
    rfl

/-- The event neither accepts a sample of the flow, nor starts it anew, nor restores a snapshot. -/
def Event.Unfed (key : FlowKey) (_ : Governor) : Event → Prop
  | .evidence k r s => k = key → (r.ledger.append s).1 ≠ .ok .accepted
  | .create k => k ≠ key
  | .restore _ _ => False
  | _ => True

/-- The same condition on operations. -/
def Command.Unfed (key : FlowKey) (g : Governor) : Command → Prop
  | .submitEvidence s => sampleKey s = key →
      (∀ r : FlowRecord, g.flows[key]? = some r → (r.ledger.append s).1 ≠ .ok .accepted) ∧
      (g.flows[key]? = none → ∃ highest, g.highestGeneration[key.flow]? = some highest ∧
        key.generation ≤ highest)
  | .deserialize _ _ => False
  | _ => True

theorem Event.Plain.unfed (he : e.Plain) (key : FlowKey) (x : Governor) : Event.Unfed key x e := by
  cases e with
  | evidence => exact he.elim
  | create => exact he.elim
  | restore => exact he.elim
  | _ => exact trivial

/-- A sample that is not accepted feeds nothing. -/
theorem submitEvidence_unfed {s : FlowSample}
    (h : Command.Unfed (sampleKey s) g (.submitEvidence s)) :
    Performs (Event.Unfed (sampleKey s)) g (g.submitEvidence s).2 := by
  have hplain : ∀ (x : Governor) (e : Event), e.Plain → Event.Unfed (sampleKey s) x e :=
    fun x e he => he.unfed (sampleKey s) x
  obtain ⟨htracked, hgone⟩ := h rfl
  by_cases hpolicy : g.policy = none
  · unfold submitEvidence
    rw [if_pos (by rw [hpolicy]; rfl)]
    exact moves_counters hplain g _
  rcases hvalid : s.validate with e | ⟨⟩
  · unfold submitEvidence
    rw [if_neg (by simpa using hpolicy), hvalid]
    exact moves_counters hplain g _
  rcases hr : g.flows[sampleKey s]? with _ | r
  · -- the generation is retired
    obtain ⟨highest, hhighest, hle⟩ := hgone hr
    unfold submitEvidence openFlow establishFlow
    rw [if_neg (by simpa using hpolicy), hvalid, hr]
    simp only [hhighest]
    by_cases hlt : (sampleKey s).generation < highest
    · rw [if_pos hlt]
      exact moves_counters hplain g _
    · have heq : (sampleKey s).generation = highest := by
        rw [StrongId.lt_iff] at hlt
        rw [StrongId.le_iff] at hle
        exact StrongId.ext (UInt64.le_antisymm hle (UInt64.not_lt.mp hlt))
      rw [if_neg hlt, if_pos heq]
      exact moves_counters hplain g _
  · rw [submitEvidence_of_tracked hr hpolicy hvalid]
    exact moves_applyEvidence hplain (fun _ => htracked r hr) hr hvalid

/-- An operation that feeds the flow nothing is made of such moves. -/
theorem exec_unfed {cmd : Command} (hreach : Reachable config g) (hadmits : g.Admits cmd)
    (h : Command.Unfed key g cmd) : Performs (Event.Unfed key) g (g.exec cmd) := by
  have hplain : ∀ (x : Governor) (e : Event), e.Plain → Event.Unfed key x e :=
    fun x e he => he.unfed key x
  by_cases hown : ∃ s, cmd = .submitEvidence s ∧ sampleKey s = key
  · obtain ⟨s, rfl, rfl⟩ := hown
    exact submitEvidence_unfed h
  refine exec_performs_of hplain ?_ ?_ ?_ ?_ hreach.bounded.flows hadmits
  · rintro p rfl
    exact moves_submitPolicy hplain (fun _ => trivial) fun _ _ _ => trivial
  · intro s hs x r hk
    exact absurd ⟨s, hs, hk⟩ hown
  · intro s hs _
    exact ⟨fun _ _ _ _ => trivial, fun _ _ _ hk => hown ⟨s, hs, hk⟩⟩
  · rintro bytes now rfl
    exact h

theorem Becomes.barred (h : Becomes g key e r') (hcond : Event.Unfed key g e)
    (hall : ∀ r : FlowRecord, g.flows[key]? = some r → Barred r) : Barred r' := by
  cases h with
  | same _ _ hr => exact hall r' hr
  | fresh => exact absurd rfl hcond
  | appended r s hr =>
    have hr := hall r hr
    refine ⟨hr.out, ?_⟩
    rcases hr.shut with hdone | ⟨hrests, hold⟩
    · exact .inl ((FlowLedger.append_frame r.ledger s).2.2.2.1.trans hdone)
    · refine .inr ⟨hrests, ?_⟩
      by_contra hnew
      exact hcond rfl (accepted_of_newEvidence hold (by simpa using hnew))
  | completed r ledger atTick hr hledger =>
    refine ⟨(hall r hr).out, .inl ?_⟩
    rw [FlowLedger.markCompleted_eq_ok hledger]
  | evaluated r now hr =>
    have hbarred := hall r hr
    rcases evaluate_record g r now with ⟨t, heq⟩ | hsettled
    · rw [heq]
      exact ⟨hbarred.out, hbarred.shut⟩
    by_cases hdone : r.ledger.completed = true
    · refine ⟨?_, .inl (hsettled.ledger ▸ hdone)⟩
      rw [FlowRecord.isElephant, hsettled.state]
      unfold verdict
      rw [if_pos hdone]
      simp
    · obtain ⟨hrests, hold⟩ := hbarred.shut.resolve_left hdone
      have hsuspended : (g.verdict r now).state = .suspended := by
        by_contra hleft
        rw [newEvidence_of_verdict hrests (by simpa using hdone) hleft] at hold
        cases hold
      refine ⟨?_, .inr ⟨⟨hsettled.classified, hsettled.state.trans hsuspended⟩, hsettled.evaluated⟩⟩
      rw [FlowRecord.isElephant, hsettled.state, hsuspended]
      simp
  | cleared r now hr => exact ⟨(hall r hr).out, (hall r hr).shut⟩
  | withdrawn r h now hr hel =>
    rw [(hall r hr).out] at hel
    cases hel
  | restored _ bytes now => exact hcond.elim

/-- In every run of operations that feed the flow nothing it stays withdrawn. -/
def StaysWithdrawn (key : FlowKey) (g : Governor) : Prop :=
  ∀ cmds, Meets (Command.Unfed key) g cmds → Withdrawn key (g.run cmds)

/-- **What stays withdrawn.**  A barred flow does, until it is fed. -/
theorem Barred.staysWithdrawn (hreach : Reachable config g) (hr : g.flows[key]? = some r)
    (h : Barred r) : StaysWithdrawn key g := by
  have main : ∀ (cmds : List Command) (x : Governor), Reachable config x →
      (∀ r : FlowRecord, x.flows[key]? = some r → Barred r) → Meets (Command.Unfed key) x cmds →
      Withdrawn key (x.run cmds) := by
    intro cmds
    induction cmds with
    | nil =>
      intro x hx hall _
      exact withdrawn_of_out hx.justified fun r hr => (hall r hr).out
    | cons cmd cmds ih =>
      rintro x hx hall ⟨hadmits, hunfed, hrest⟩
      refine ih (x.exec cmd) (hx.tail ⟨cmd, hadmits, rfl⟩) ?_ hrest
      refine Performs.invariant (P := fun y => ∀ r : FlowRecord, y.flows[key]? = some r → Barred r)
        (fun y e y' hy hcond hmove r hr => ?_) (exec_unfed hx hadmits hunfed) hall
      exact (hmove.becomes hr).barred hcond hy
  intro cmds hmeets
  refine main cmds g hreach (fun x hx => ?_) hmeets
  rw [hr] at hx
  rw [← Option.some.inj hx]
  exact h

/-! ## The operations -/

theorem find_submitPath {p : PathDescriptor} (hok : (g.submitPath p).1 = .ok ()) :
    ∃ q, (g.submitPath p).2.paths.find p.path = some q ∧ q.generation = p.generation := by
  unfold submitPath at hok ⊢
  rcases hsubmit : g.paths.submit p with e | table
  · rw [hsubmit] at hok
    cases hok
  simp only
  unfold PathTable.submit at hsubmit
  rcases hvalid : p.validate with e | ⟨⟩
  · rw [hvalid] at hsubmit
    cases hsubmit
  rw [hvalid] at hsubmit
  simp only at hsubmit
  have hinsert : ∃ q, ({ g.paths with entries := g.paths.entries.insert p.path p } : PathTable).find
      p.path = some q ∧ q.generation = p.generation :=
    ⟨p, Std.ExtTreeMap.getElem?_insert_self, rfl⟩
  rcases hold : g.paths.entries[p.path]? with _ | existing
  · rw [hold] at hsubmit
    simp only at hsubmit
    split_ifs at hsubmit
    · cases hsubmit
    · cases hsubmit
    · obtain rfl := Except.ok.inj hsubmit
      exact hinsert
  · rw [hold] at hsubmit
    simp only at hsubmit
    split_ifs at hsubmit with _ _ _ hsame
    · cases hsubmit
    · cases hsubmit
    · cases hsubmit
    · obtain rfl := Except.ok.inj hsubmit
      exact ⟨existing, hold, hsame.1.symm⟩
    · cases hsubmit
    · obtain rfl := Except.ok.inj hsubmit
      exact hinsert

theorem getElem?_explain (hr : g.flows[key]? = some r) :
    (g.explain key.flow key.generation now).2.flows[key]? = some (g.evaluate r now).2.2 := by
  unfold explain
  rw [show g.flows[(⟨key.flow, key.generation⟩ : FlowKey)]? = some r from hr]
  simp only
  rcases g.evaluate r now with ⟨e | d, g', r'⟩
  · simp only
    rw [getElem?_setFlow, if_pos rfl]
  · simp only
    rw [getElem?_setFlow, if_pos rfl]

theorem getElem?_tick_elephant (h : Reachable config g) {batch : DecisionBatch}
    (hok : (g.tick now).1 = .ok batch) (hr : g.flows[key]? = some r) (hel : r.isElephant = true)
    {before after : List FlowKey} (hkeys : g.flows.keys = before ++ key :: after) :
    (g.tick now).2.flows[key]? = some ((g.atTurn now before).evaluate r now).2.2 := by
  obtain ⟨⟨acc, hacc, hflows⟩, hsame, hconfig⟩ := getElem?_tick hok hkeys
  rw [hflows, ← hacc]
  rw [← hacc] at hsame hconfig
  have hsound := h.justified.records key r hr
  have hsweeps : acc.2.sweeps r now = true := by
    have hs : Sound acc.2.config g.lastTick key r := by
      rw [hconfig]
      exact hsound
    exact hs.sweeps (tick_eq_ok hok).1 hel
  unfold sweepFlow
  rw [hsame, hr]
  simp only [if_pos hsweeps]
  have hafter : (acc.2.evaluateFlow key r now).2.flows[key]? = some (acc.2.evaluate r now).2.2 := by
    rw [getElem?_evaluateFlow, if_pos rfl]
  rcases hd : acc.2.evaluateFlow key r now with ⟨e | d, g'⟩
  · rw [hd] at hafter
    exact hafter
  · rw [hd] at hafter
    exact hafter

/-- **When a path move withdraws an Elephant.**  In a reachable governor an Elephant names its path
in an older generation than a descriptor that is then accepted.  The next successful query withdraws
it if and only if the rules do not decide about it, or dismiss it; the next successful sweep if and
only if moreover there is room for the decision at its turn.  A flow that the rules did not decide
about stays withdrawn in every run that does not feed it. -/
theorem path_move_withdraws_iff (h : Reachable config g) {p : PathDescriptor} {s : FlowSample}
    (hpath : (g.submitPath p).1 = .ok ()) (hr : g.flows[key]? = some r) (hel : r.isElephant = true)
    (hs : r.ledger.latest = some s) (hp : s.path = p.path)
    (hmoved : s.pathGeneration < p.generation) (hx : (g.submitPath p).2 = x) (now : Tick) :
    (∃ q, x.latestPath r = some q ∧ s.pathGeneration < q.generation) ∧
    (∀ c, (x.classification key.flow key.generation now).1 = .ok c →
      (Withdrawn key (x.classification key.flow key.generation now).2 ↔
        ¬ (RulesDecide x r now ∧ ¬ Leaves x r now)) ∧
      (¬ RulesDecide x r now →
        StaysWithdrawn key (x.classification key.flow key.generation now).2)) ∧
    (∀ y, (x.explain key.flow key.generation now).1 = .ok y →
      (Withdrawn key (x.explain key.flow key.generation now).2 ↔
        ¬ (RulesDecide x r now ∧ ¬ Leaves x r now)) ∧
      (¬ RulesDecide x r now → StaysWithdrawn key (x.explain key.flow key.generation now).2)) ∧
    ∀ batch before after, (x.tick now).1 = .ok batch → x.flows.keys = before ++ key :: after →
      (Withdrawn key (x.tick now).2 ↔
        ¬ (RulesDecide (x.atTurn now before) r now ∧ ¬ Leaves (x.atTurn now before) r now) ∧
          Roomy (x.atTurn now before) r now) ∧
      (¬ RulesDecide (x.atTurn now before) r now → Roomy (x.atTurn now before) r now →
        StaysWithdrawn key (x.tick now).2) := by
  have hreach : Reachable config x := hx ▸ h.tail ⟨.submitPath p, trivial, rfl⟩
  have hflows : x.flows = g.flows := by
    rw [← hx]
    unfold submitPath
    rcases g.paths.submit p with e | table
    · rfl
    · rfl
  have hr' : x.flows[key]? = some r := by rw [hflows, hr]
  -- what an evaluation that answers leaves
  have hquery : ∀ z : Governor, Reachable config z →
      z.flows[key]? = some (x.evaluate r now).2.2 → ∀ d, (x.evaluate r now).1 = .ok d →
      (Withdrawn key z ↔ ¬ (RulesDecide x r now ∧ ¬ Leaves x r now)) ∧
        (¬ RulesDecide x r now → StaysWithdrawn key z) := by
    intro z hz hrecord d hd
    have hiff := evaluate_elephant_iff hel hd
    refine ⟨?_, fun hno => ?_⟩
    · rw [withdrawn_iff hz.justified hrecord, ← hiff, Bool.not_eq_true]
    · have hout : (x.evaluate r now).2.2.isElephant = false := by
        rw [← Bool.not_eq_true, hiff]
        exact fun hc => hno hc.1
      exact (barred_of_evaluate hel hout hno).staysWithdrawn hz hrecord
  refine ⟨?_, fun c hc => ?_, fun y hy => ?_, fun batch before after hok hkeys => ?_⟩
  · obtain ⟨q, hq, hgeneration⟩ := find_submitPath hpath
    refine ⟨q, ?_, hgeneration ▸ hmoved⟩
    unfold latestPath
    rw [hs, ← hx]
    simp only
    rw [hp]
    exact hq
  · obtain ⟨d, hd, -⟩ := classification_eq_ok hr' hc
    refine hquery _ (hreach.tail ⟨.classification key.flow key.generation now, trivial, rfl⟩) ?_ d hd
    rw [classification_of_getElem? hr', getElem?_evaluateFlow, if_pos rfl]
  · obtain ⟨d, hd, -⟩ := explain_eq_ok hr' hy
    refine hquery _ (hreach.tail ⟨.explain key.flow key.generation now, trivial, rfl⟩) ?_ d hd
    exact getElem?_explain hr'
  · have hsame := (getElem?_tick hok hkeys).2.2
    have hsound : Sound (x.atTurn now before).config x.lastTick key r := by
      rw [hsame]
      exact hreach.justified.records key r hr'
    have hrecord := getElem?_tick_elephant hreach hok hr' hel hkeys
    have hz : Reachable config (x.tick now).2 := hreach.tail ⟨.tick now, trivial, rfl⟩
    have hiff := evaluate_withdraws_iff hsound (tick_eq_ok hok).1
      (hsame ▸ hreach.classificationValidityTicks_ne) hel
    refine ⟨?_, fun hno hroom => ?_⟩
    · rw [withdrawn_iff hz.justified hrecord, hiff]
    · have hout := hiff.mpr ⟨fun hc => hno hc.1, hroom⟩
      exact (barred_of_evaluate hel hout hno).staysWithdrawn hz hrecord

namespace Scenario

/-- The path of the small run in its second generation. -/
def movedPath : PathDescriptor := { path with generation := ⟨2⟩ }

/-- The small run after the path has moved. -/
def moved : Governor := (governor.submitPath movedPath).2

theorem reachable_moved : Reachable {} moved := reachable_governor.tail ⟨.submitPath movedPath, trivial, rfl⟩

end Scenario

open Scenario

/-- At tick 600 the evidence of the small run is stale as well, and the query withdraws the
Elephant for good. -/
theorem path_move_withdraws_stale :
    Withdrawn flowKey (moved.classification ⟨1⟩ ⟨1⟩ 600).2 ∧
      StaysWithdrawn flowKey (moved.classification ⟨1⟩ ⟨1⟩ 600).2 := by
  obtain ⟨r, hr, hel, hsuspended, s, hs, hpath, hgeneration⟩ : ∃ r,
      governor.flows[flowKey]? = some r ∧ r.isElephant = true ∧
      (moved.suspensionReasons r 600).1 = true ∧ ∃ s, r.ledger.latest = some s ∧
        s.path = movedPath.path ∧ s.pathGeneration < movedPath.generation := by decide +kernel
  obtain ⟨c, hc⟩ : ∃ c, (moved.classification ⟨1⟩ ⟨1⟩ 600).1 = .ok c := by decide +kernel
  have haccepted : (governor.submitPath movedPath).1 = .ok () := by decide +kernel
  have hno : ¬ RulesDecide moved r 600 := by
    intro hrules
    rw [hrules.calm] at hsuspended
    cases hsuspended
  obtain ⟨hiff, hstays⟩ := (path_move_withdraws_iff reachable_governor haccepted hr hel hs
    hpath hgeneration (rfl : _ = moved) 600).2.1 c hc
  exact ⟨hiff.mpr fun hrules => hno hrules.1, hstays hno⟩

/-- At tick 20 nothing else is wrong: the query and the sweep leave the Elephant and its live intent,
though its latest sample names the first generation of the path and the table has the second. -/
theorem path_move_unnoticed :
    Reachable {} moved ∧
      isOk (governor.submitPath movedPath).1 = true ∧
      (governor.flows[flowKey]?.any fun r => r.isElephant &&
        decide (r.ledger.latest.map (fun s => s.pathGeneration.value) = some 1)) = true ∧
      (moved.paths.find ⟨1⟩).map (fun q => q.generation.value) = some 2 ∧
      isOk (moved.classification ⟨1⟩ ⟨1⟩ 20).1 = true ∧
      ((moved.classification ⟨1⟩ ⟨1⟩ 20).2.flows[flowKey]?.any
        FlowRecord.isElephant) = true ∧
      ((moved.classification ⟨1⟩ ⟨1⟩ 20).2.intents.forFlow ⟨1⟩ ⟨1⟩).any
        (fun i => isLive i.state) = true ∧
      isOk (moved.tick 20).1 = true ∧
      ((moved.tick 20).2.flows[flowKey]?.any
        FlowRecord.isElephant) = true := by
  refine ⟨reachable_moved, ?_⟩
  decide +kernel

end Governor

end EFG
