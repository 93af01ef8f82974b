/-
# Live intents, obligations and the policy in force

Two invariants of runs that restrict what a live intent may say.  An Elephant that
governs carries no obligation, as long as every policy protects obligations
(`Shielded`), and every live intent stays inside the policy in force (`Confined`),
although its envelope was computed when it was issued: a new policy generation
withdraws every intent, and a re-issued one changes nothing that an envelope
depends on.
-/
import ElephantFlow.RecordChanges
import ElephantFlow.Recording
import ElephantFlow.Issuance
import ElephantFlow.Support

namespace EFG

open ByteCodec

namespace Governor

variable {g g' : Governor} {record r : FlowRecord} {now : Tick} {key : FlowKey} {e : Event}
  {config : GovernorConfig} {id : IntentId} {i : GovernanceIntent}

/-! ## Obligations -/

/-- The measurements carry an obligation, or leave open whether they do. -/
def Obligated (m : FlowMeasurements) : Prop :=
  m.protection = .unknown ∨ m.protection = .protectedFlow ∨ m.protection = .nonPreemptible ∨
    m.hasReservation = true ∨ m.serviceClass = .reserved ∨ m.serviceClass = .control

instance (m : FlowMeasurements) : Decidable (Obligated m) := by
  unfold Obligated
  infer_instance

theorem not_obligated_of_enforceProtection {p : PolicyDocument} {c : FlowClassification}
    (hp : g.policy = some p) (hprotects : p.authorization.protectObligations = true)
    (hgovern : (g.enforceProtection c).authority = .govern) : ¬ Obligated c.measurements := by
  have hobserve : ∀ level : AuthorityLevel,
      (if level = .govern then AuthorityLevel.observe else level) ≠ .govern := by
    intro level
    cases level <;> decide
  intro hobligated
  unfold enforceProtection at hgovern
  rw [hp] at hgovern
  simp only [hprotects, not_true_eq_false, if_false] at hgovern
  by_cases hunknown : c.measurements.protection = .unknown
  · rw [if_pos hunknown] at hgovern
    exact hobserve _ hgovern
  · rw [if_neg hunknown] at hgovern
    have hobligation : (c.measurements.protection = .protectedFlow ||
        c.measurements.protection = .nonPreemptible || c.measurements.hasReservation ||
        (c.measurements.serviceClass = .reserved || c.measurements.serviceClass = .control)) =
        true := by
      simp only [Bool.or_eq_true, decide_eq_true_eq]
      rcases hobligated with h | h | h | h | h | h
      · exact absurd h hunknown
      · exact .inl (.inl (.inl h))
      · exact .inl (.inl (.inr h))
      · exact .inl (.inr h)
      · exact .inr (.inl h)
      · exact .inr (.inr h)
    simp only [hobligation, if_true] at hgovern
    exact hobserve _ hgovern

/-- Every policy protects obligations, and no record that governs carries one. -/
structure Shielded (g : Governor) : Prop where
  policy : ∀ p, g.policy = some p → p.authorization.protectObligations = true
  records : ∀ (key : FlowKey) (r : FlowRecord), g.flows[key]? = some r →
    r.classification.authority = .govern → ¬ Obligated r.classification.measurements

theorem Shielded.evaluate (hg : g.Shielded) (hr : g.flows[key]? = some record)
    (hgovern : (g.evaluate record now).2.2.classification.authority = .govern) :
    ¬ Obligated (g.evaluate record now).2.2.classification.measurements := by
  rcases evaluate_cases g record now with ⟨e, sequence, counters, heq⟩ | ⟨-, -, heq⟩ | ⟨c, h, hc, heq⟩
  · rw [heq] at hgovern ⊢
    exact hg.records key record hr hgovern
  · rw [heq] at hgovern ⊢
    exact hg.records key record hr hgovern
  · rw [heq, commit_snd_snd] at hgovern ⊢
    simp only [rebound_classification] at hgovern ⊢
    have hauthority : (g.candidate record now).authority = .govern := hc.authority.symm.trans hgovern
    have hmeasurements : c.measurements = (g.candidate record now).measurements := by
      rw [hc.measurements, candidate_measurements]
    show ¬ Obligated c.measurements
    rw [hmeasurements]
    -- without a policy the flow is suspended and nothing governs
    rcases hp : g.policy with _ | p
    · have hsuspended := suspensionReasons_of_no_policy hp record now
      have hstate : (g.verdict record now).state ≠ .elephant := by
        intro hel
        have hrules := (of_verdict_elephant hel).2.1
        rw [hsuspended] at hrules
        cases hrules
      rw [candidate_authority g record now hstate] at hauthority
      cases hauthority
    · rw [candidate_measurements]
      exact not_obligated_of_enforceProtection hp (hg.policy p hp) hauthority

/-! ## Moves and the policy in force -/

/-- A move that leaves the policy in force alone. -/
def Event.KeepsPolicy : Event → Prop
  | .policy _ => False
  | .reset => False
  | .restore _ _ => False
  | _ => True

theorem Move.policy_eq (hmove : Move g e g') (he : e.KeepsPolicy) :
    g'.policy = g.policy ∧ g'.config = g.config := by
  cases hmove with
  | inputs => exact ⟨rfl, rfl⟩
  | advance => exact ⟨rfl, rfl⟩
  | policy => exact he.elim
  | invalidate now =>
    obtain ⟨_, _, _, _, _, heq⟩ := invalidateAllAuthority_rest g now .policyChanged
    rw [heq]
    exact ⟨rfl, rfl⟩
  | evict key record =>
    have hinputs := sameInputs_updateIndex g key record
    exact ⟨hinputs.policy, hinputs.config⟩
  | create => exact ⟨rfl, rfl⟩
  | retire => exact ⟨rfl, rfl⟩
  | evidence => exact ⟨rfl, rfl⟩
  | complete => exact ⟨rfl, rfl⟩
  | evaluate key record now =>
    have hinputs := sameInputs_evaluate g record now
    exact ⟨hinputs.policy, hinputs.config⟩
  | reset => exact he.elim
  | restore => exact he.elim

theorem Move.live (hmove : Move g e g') (hlive : g'.intents.Live id i) :
    g.intents.Live id i ∨ ∃ key record now, e = .evaluate key record now ∧
      g.flows[key]? = some record ∧ g.IssuedFor record now id i := by
  cases hmove with
  | inputs => exact .inl hlive
  | advance => exact .inl hlive
  | policy => exact .inl hlive
  | invalidate now =>
    refine .inl (invalidateAllAuthority_keeps
      (P := fun x => ∀ id i, x.intents.Live id i → g.intents.Live id i) (fun key => ?_)
      (fun x _ hx id i hi => ?_) (fun _ _ h => h) id i hlive)
    · exact keeps_invalidateFlow_of_inputs fun _ _ _ _ _ hx => hx
    · exact hx id i (IntentLedger.live_of_live_updateLive rfl hi)
  | evict key record =>
    have hintents : (g.dropFlow key record).intents = g.intents := updateIndex_intents g key record
    rw [hintents] at hlive
    exact .inl hlive
  | create => exact .inl hlive
  | retire select state update hdead => exact .inl (IntentLedger.live_of_live_updateLive hdead hlive)
  | evidence => exact .inl hlive
  | complete => exact .inl hlive
  | evaluate key record now hrecord =>
    rcases stored_of_stored_evaluate hlive.1 with hold | hissued
    · exact .inl (hold.live hlive.2)
    · exact .inr ⟨key, record, now, rfl, hrecord, hissued⟩
  | reset =>
    exact of_getElem?_empty hlive.1
  | restore bytes now hok => exact absurd hlive ((deserialize_spec hok).idle id i)

/-! ## Runs under protecting policies -/

/-- Every policy that a move installs protects obligations. -/
def Event.Protects (g : Governor) : Event → Prop
  | .policy p => p.authorization.protectObligations = true
  | .restore bytes now => ∀ p, (g.deserialize bytes now).2.policy = some p →
      p.authorization.protectObligations = true
  | _ => True

theorem Shielded.records_move (hg : g.Shielded) (hmove : Move g e g') (key : FlowKey)
    (r : FlowRecord) (hr : g'.flows[key]? = some r) (hgovern : r.classification.authority = .govern) :
    ¬ Obligated r.classification.measurements := by
  cases hmove.becomes hr with
  | same _ _ hbefore => exact hg.records key r hbefore hgovern
  | fresh => cases hgovern
  | appended r s hbefore => exact hg.records key r hbefore hgovern
  | completed r ledger atTick hbefore => exact hg.records key r hbefore hgovern
  | evaluated r now hbefore => exact hg.evaluate hbefore hgovern
  | cleared r now hbefore => exact hg.records key r hbefore hgovern
  | withdrawn r h now =>
    rw [rebound_classification] at hgovern
    cases hgovern
  | restored _ bytes now hok hr =>
    obtain ⟨htracked, hdemoted⟩ := Becomes.restored_spec hok hr
    by_cases hc : r.hasClassification = true
    · rw [hdemoted.authority hc] at hgovern
      cases hgovern
    · rw [htracked.unclassified (by simpa using hc)] at hgovern
      cases hgovern

theorem Shielded.move (hg : g.Shielded) (hprotects : Event.Protects g e) (hmove : Move g e g') :
    g'.Shielded := by
  refine ⟨fun p hp => ?_, hg.records_move hmove⟩
  by_cases hkeeps : e.KeepsPolicy
  · rw [(hmove.policy_eq hkeeps).1] at hp
    exact hg.policy p hp
  cases hmove with
  | policy p' =>
    rw [← Option.some.inj hp]
    exact hprotects
  | reset => cases hp
  | restore bytes now hok => exact hprotects p hp
  | _ => exact absurd trivial hkeeps

/-- Every policy that an operation submits or restores protects obligations. -/
def Command.Protects (g : Governor) : Command → Prop
  | .submitPolicy p => p.authorization.protectObligations = true
  | .deserialize bytes now => ∀ p, (g.deserialize bytes now).2.policy = some p →
      p.authorization.protectObligations = true
  | _ => True

theorem shielded_make (config : GovernorConfig) : (make config).Shielded := by
  refine ⟨fun p hp => ?_, fun key r hr => ?_⟩
  · cases hp
  exact of_getElem?_empty hr

theorem Shielded.exec {cmd : Command} (hg : g.Shielded) (hb : g.flows.size ≤ g.config.maxFlows)
    (hadmits : g.Admits cmd) (hprotects : Command.Protects g cmd) : (g.exec cmd).Shielded := by
  have hplain : ∀ x e, Event.Plain e → Event.Protects x e := by
    intro x e he
    cases e with
    | policy => exact he.elim
    | restore => exact he.elim
    | _ => exact trivial
  have hperforms : Performs Event.Protects g (g.exec cmd) := by
    refine exec_performs_of hplain ?_ (fun _ _ _ _ => trivial) ?_ ?_ hb hadmits
    · rintro p rfl
      exact moves_submitPolicy hplain (fun x => hprotects) (fun x now _ => trivial)
    · intro s _ _
      exact ⟨fun _ _ _ _ => trivial, fun _ _ _ => trivial⟩
    · rintro bytes now rfl
      exact hprotects
  exact hperforms.invariant (fun x e x' hx hcond hmove => hx.move hcond hmove) hg

/-- In a run whose policies all protect obligations, a live corrective intent names a flow whose
classification carries no obligation. -/
theorem corrective_intents_spare_obligations
    (h : ReachableUnder Command.Protects config g) (id : IntentId) (i : GovernanceIntent)
    (hlive : g.intents.Live id i) (hcorrective : isCorrective i.kind = true) :
    ∃ r : FlowRecord, g.flows[(⟨i.flow, i.flowGeneration⟩ : FlowKey)]? = some r ∧
      ¬ Obligated r.classification.measurements := by
  have hshielded : g.Shielded := h.invariant (shielded_make config)
    fun x cmd hreach hx hadmits hcond => hx.exec hreach.bounded.flows hadmits hcond
  obtain ⟨r, hr, hsupports⟩ := h.reachable.justified.intents id i hlive
  exact ⟨r, hr, hshielded.records _ r hr (hsupports.authority hcorrective)⟩

open Scenario

/-- The live intent of the small run escalates congestion. -/
theorem live_governor : ∃ i : GovernanceIntent, governor.intents.Live ⟨1⟩ i ∧
    isCorrective i.kind = true := by
  obtain ⟨i, hi, hlive, hcorrective⟩ : ∃ i, governor.intents.intents[(⟨1⟩ : IntentId)]? = some i ∧
    isLive i.state = true ∧ isCorrective i.kind = true := by decide +kernel
  exact ⟨i, ⟨hi, hlive⟩, hcorrective⟩

/-- The small run has a live corrective intent, and its flow carries no obligation. -/
theorem corrective_intents_spare_obligations_scenario : ∃ (i : GovernanceIntent) (r : FlowRecord),
    governor.intents.Live ⟨1⟩ i ∧ isCorrective i.kind = true ∧
      governor.flows[(⟨i.flow, i.flowGeneration⟩ : FlowKey)]? = some r ∧
      ¬ Obligated r.classification.measurements := by
  have hrun : ReachableUnder Command.Protects {} governor :=
    reachableUnder_governor (fun _ _ => trivial) rfl (fun _ _ => trivial)
      (fun _ _ => trivial) (fun _ _ => trivial)
  obtain ⟨i, hlive, hcorrective⟩ := live_governor
  obtain ⟨r, hr, hfree⟩ := corrective_intents_spare_obligations hrun ⟨1⟩ i hlive hcorrective
  exact ⟨i, r, hlive, hcorrective, hr, hfree⟩

/-! ## Envelopes -/

theorem Inside.congr (h : g.Inside i) (hconfig : g'.config = g.config)
    (hpolicy : ∀ p, g.policy = some p → ∃ p', g'.policy = some p' ∧
      p'.authorization = p.authorization) : g'.Inside i := by
  obtain ⟨p, hp, hpermits, hwindow⟩ := h.policy
  obtain ⟨p', hp', hauth⟩ := hpolicy p hp
  have hceiling : g'.ceilingBounds = g.ceilingBounds := by
    unfold ceilingBounds
    rw [hp, hp']
    simp only [hauth, hconfig]
  refine ⟨⟨p', hp', ?_, ?_⟩, ?_, h.requested⟩
  · rw [hauth]
    exact hpermits
  · rw [hauth, hconfig]
    exact hwindow
  · rw [hceiling]
    exact h.ceiling

/-- Every live intent is inside the policy in force. -/
def Confined (g : Governor) : Prop := ∀ id i, g.intents.Live id i → g.Inside i

theorem Confined.congr (hlive : ∀ id i, g'.intents.Live id i → g.Inside i)
    (hpolicy : g'.policy = g.policy) (hconfig : g'.config = g.config) : g'.Confined := by
  intro id i hi
  refine (hlive id i hi).congr hconfig fun p hp => ⟨p, ?_, rfl⟩
  rw [hpolicy]
  exact hp

theorem Confined.of_idle (h : ∀ id i, ¬ g.intents.Live id i) : g.Confined :=
  fun id i hlive => absurd hlive (h id i)

/-- A move that leaves the policy in force alone, or every intent dead. -/
def Event.Confines : Event → Prop
  | .policy _ => False
  | .invalidate _ => False
  | _ => True

theorem Confined.move (hg : g.Confined) (he : e.Confines) (hmove : Move g e g') : g'.Confined := by
  by_cases hkeeps : e.KeepsPolicy
  · obtain ⟨hpolicy, hconfig⟩ := hmove.policy_eq hkeeps
    refine .congr (fun id i hlive => ?_) hpolicy hconfig
    rcases hmove.live hlive with hold | ⟨key, record, now, -, -, hissued⟩
    · exact hg id i hold
    · exact hissued.inside
  cases hmove with
  | policy => exact he.elim
  | reset =>
    refine .of_idle fun id i hlive => ?_
    exact of_getElem?_empty hlive.1
  | restore bytes now hok => exact .of_idle (deserialize_spec hok).idle
  | _ => exact absurd trivial hkeeps

/-- A policy of the retained generation carries the authorization of the retained one. -/
def KeepsContent (g : Governor) : Command → Prop
  | .submitPolicy p => ∀ q, g.policy = some q → q.generation = p.generation →
      q.authorization = p.authorization
  | _ => True

/-- A policy submission as a whole: a superseding policy withdraws every intent. -/
theorem Confined.submitPolicy {p : PolicyDocument} (hg : g.Confined) (hjustified : g.Justified)
    (hcontent : g.KeepsContent (.submitPolicy p)) : (g.submitPolicy p).2.Confined := by
  rcases submitPolicy_cases g p with ⟨-, e, f, heq⟩ | ⟨hrefused, hsupersedes, rules, counters, heq⟩ |
    ⟨-, -, rules, counters, heq⟩
  · rw [heq]
    exact .congr hg rfl rfl
  · -- the first policy finds no live intent, a re-issued one changes no envelope
    rw [heq]
    intro id i hlive
    refine (hg id i hlive).congr rfl fun q hq => ⟨p, rfl, ?_⟩
    have hnot : ¬ p.generation < q.generation := by
      intro hlt
      apply hrefused
      refine .inr ?_
      rw [hq]
      exact .inl hlt
    have hsame : q.generation = p.generation := by
      by_contra hne
      exact hsupersedes ⟨q, hq, hnot, Ne.symm hne⟩
    exact (hcontent q hq hsame).symm
  · have hjustified' : ({ g with policy := some p, exitRules := rules, counters := counters } :
        Governor).Justified := hjustified.congr rfl (UInt64.le_refl _) rfl fun _ _ h => h
    obtain ⟨g₁, counters', -, -, hall⟩ := invalidateAllAuthority_eq
      (hjustified'.withdrawable (le_maxOf_right p.validity.issuedAt g.lastTick) .policyChanged)
    rw [heq, hall]
    exact .of_idle fun id i => IntentLedger.live_revokeAll rfl

theorem Confined.exec {cmd : Command} (hg : g.Confined) (hreach : Reachable config g)
    (hadmits : g.Admits cmd) (hcontent : g.KeepsContent cmd) : (g.exec cmd).Confined := by
  by_cases hpolicy : ∃ p, cmd = .submitPolicy p
  · obtain ⟨p, rfl⟩ := hpolicy
    exact hg.submitPolicy hreach.justified hcontent
  have hplain : ∀ (x : Governor) (e : Event), e.Plain → e.Confines := by
    intro x e he
    cases e with
    | policy => exact he.elim
    | invalidate => exact he.elim
    | _ => exact trivial
  have hperforms : Performs (fun _ e => e.Confines) g (g.exec cmd) := by
    refine exec_performs_of hplain ?_ (fun _ _ _ _ => trivial) ?_ ?_ hreach.bounded.flows hadmits
    · intro p hp
      exact absurd ⟨p, hp⟩ hpolicy
    · intro s _ _
      exact ⟨fun _ _ _ _ => trivial, fun _ _ _ => trivial⟩
    · intro bytes now _
      exact trivial
  exact hperforms.invariant (fun x e x' hx hcond hmove => hx.move hcond hmove) hg

/-! ## Suppressed intents -/

/-- No suppressed entry of the ledger is granted anything. -/
def Muted (g : Governor) : Prop :=
  ∀ (id : IntentId) (i : GovernanceIntent), g.intents.intents[id]? = some i →
    i.state = .suppressed → i.granted = {}

/-- A restored ledger holds no suppressed intent with a grant. -/
def RestoresMuted (g : Governor) : Command → Prop
  | .deserialize bytes now => (g.deserialize bytes now).2.Muted
  | _ => True

theorem Muted.move (hg : g.Muted)
    (hrestore : ∀ bytes now, e = .restore bytes now → (g.deserialize bytes now).2.Muted)
    (hmove : Move g e g') : g'.Muted := by
  cases hmove with
  | inputs => exact hg
  | advance => exact hg
  | policy => exact hg
  | invalidate now =>
    refine invalidateAllAuthority_keeps (P := Muted) (fun key => ?_) (fun x _ hx id i hi hs => ?_) hg
    · exact keeps_invalidateFlow_of_inputs fun _ _ _ _ _ hx => hx
    · exact hx id i (IntentLedger.stored_of_suppressed_updateLive hi (by decide) hs) hs
  | evict key record =>
    intro id i hi
    have hintents : (g.dropFlow key record).intents = g.intents := updateIndex_intents g key record
    rw [hintents] at hi
    exact hg id i hi
  | create => exact hg
  | retire select state update hdead hstate =>
    intro id i hi hs
    exact hg id i (IntentLedger.stored_of_suppressed_updateLive hi hstate hs) hs
  | evidence => exact hg
  | complete => exact hg
  | evaluate key record now =>
    intro id i hi hs
    rcases stored_of_stored_evaluate hi with hold | hissued
    · exact hg id i (hold.suppressed hs) hs
    · exact hissued.suppressed hs
  | reset =>
    intro id i hi
    exact of_getElem?_empty hi
  | restore bytes now => exact hrestore bytes now rfl

theorem ReachableUnder.muted (h : ReachableUnder RestoresMuted config g) : g.Muted := by
  refine h.invariant ?_ fun x cmd hreach hx hadmits hcond => ?_
  · intro id i hi
    exact of_getElem?_empty hi
  have hperforms : Performs (fun y e => ∀ bytes now, e = .restore bytes now →
      (y.deserialize bytes now).2.Muted) x (x.exec cmd) := by
    refine exec_performs ?_ ?_ ?_ hreach.bounded.flows hadmits
    · rintro y e he bytes now rfl
      exact he.elim
    · intro s _ _
      exact ⟨fun _ _ _ _ _ _ he => (by cases he), fun _ _ _ _ _ he => (by cases he)⟩
    · rintro bytes now rfl _ _ he
      cases he
      exact hcond
  exact hperforms.invariant (fun y e y' hy hrestore hmove => hy.move hrestore hmove) hx

/-! ## Every state of a run -/

/-- In a run whose re-submitted policies keep their content, every live intent is inside the policy
in force.  A suppressed intent that an evaluation adds to the ledger is granted nothing, and so is
every suppressed intent that it reports, unless it stood in the ledger before; where no restored
ledger holds one with a grant, none stands there. -/
theorem live_intents_inside (h : ReachableUnder KeepsContent config g) :
    (∀ (id : IntentId) (i : GovernanceIntent), g.intents.Live id i →
      (∃ p, g.policy = some p ∧ p.authorization.permits i.kind = true ∧
        i.window.length ≤
          minOf g.config.intentDurationTicks p.authorization.maxIntentDurationTicks) ∧
      i.granted.AtMost g.ceilingBounds ∧ i.granted.AtMost i.requested) ∧
    (∀ (x : Governor) (record : FlowRecord) (now : Tick) (id : IntentId) (i : GovernanceIntent),
      id ∉ x.intents.intents → (x.evaluate record now).2.1.intents.intents[id]? = some i →
      i.state = .suppressed → i.granted = {}) ∧
    (∀ (x : Governor) (record : FlowRecord) (now : Tick) (d : FlowDecision) (i : GovernanceIntent),
      (x.evaluate record now).1 = .ok d → i ∈ d.intents → i.state = .suppressed →
      i.granted = {} ∨ ∃ id : IntentId, x.intents.intents[id]? = some i) ∧
    (ReachableUnder RestoresMuted config g → ∀ (id : IntentId) (i : GovernanceIntent),
      g.intents.intents[id]? = some i → i.state = .suppressed → i.granted = {}) := by
  have hconfined : g.Confined := by
    refine h.invariant ?_ fun x cmd hreach hx hadmits hcond => hx.exec hreach hadmits hcond
    refine .of_idle fun id i hlive => ?_
    exact of_getElem?_empty hlive.1
  refine ⟨fun id i hlive => ?_, fun x record now id i hnew hi hs => ?_,
    fun x record now d i hok hi hs => reported_evaluate hok hi hs, fun hmuted => hmuted.muted⟩
  · have hinside := hconfined id i hlive
    exact ⟨hinside.policy, hinside.ceiling, hinside.requested⟩
  · rcases stored_of_stored_evaluate hi with hold | hissued
    · exact absurd hold.mem hnew
    · exact hissued.suppressed hs

/-- The live intent of the small run is inside its policy. -/
theorem live_intents_inside_scenario : ∃ i : GovernanceIntent,
    governor.intents.Live ⟨1⟩ i ∧
      i.granted.AtMost governor.ceilingBounds ∧ i.granted.AtMost i.requested := by
  have hrun : ReachableUnder KeepsContent {} governor := by
    refine reachableUnder_governor (fun _ _ => trivial) ?_ (fun _ _ => trivial)
      (fun _ _ => trivial) (fun _ _ => trivial)
    -- the first policy meets no retained one
    intro q hq
    cases hq
  obtain ⟨i, hlive, -⟩ := live_governor
  exact ⟨i, hlive, ((live_intents_inside hrun).1 ⟨1⟩ i hlive).2⟩

end Governor

end EFG
