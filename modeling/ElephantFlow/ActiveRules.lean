/-
# The exit rules in force

The governor keeps the exit rules of its policy beside the policy.  A new policy
generation and a restore compute them anew; a re-issue of the retained generation
replaces the policy and keeps the rules, and it is told from other content by the digest
field of the document alone.  So the rules belong to the policy in every run in which an
accepted re-issue repeats the content (`exitRules_of_policy`).

An Elephant leaves by the exit rules in force: after `exit_confirm_windows` windows in a
row on which they are `False`, and after no others (`leaves_iff_below_exit`).  The rule
that is synthesized for a policy without instantaneous thresholds is never `False`.
-/
import ElephantFlow.Confirmation
import ElephantFlow.ExitSynthesis

namespace EFG

open ByteCodec

/-- The documents agree in their rules, hysteresis and authorization. -/
structure PolicyDocument.SameContent (p q : PolicyDocument) : Prop where
  enterRule : p.enterRule = q.enterRule
  exitRule : p.exitRule = q.exitRule
  hysteresis : p.hysteresis = q.hysteresis
  authorization : p.authorization = q.authorization

theorem PolicyDocument.SameContent.effectiveExitRule_eq {p q : PolicyDocument}
    (h : p.SameContent q) : effectiveExitRule p = effectiveExitRule q := by
  unfold effectiveExitRule
  rw [h.enterRule, h.exitRule, h.hysteresis]

namespace Governor

variable {g g' : Governor} {e : Event} {config : GovernorConfig} {p q : PolicyDocument}

/-! ## The rules of the policy -/

/-- The exit rules in force are those of the policy in force. -/
def RulesInForce (g : Governor) : Prop :=
  ∀ p, g.policy = some p → effectiveExitRule p = .ok g.exitRules

theorem RulesInForce.congr (h : g.RulesInForce) (hpolicy : g'.policy = g.policy)
    (hrules : g'.exitRules = g.exitRules) : g'.RulesInForce := by
  intro p hp
  rw [hpolicy] at hp
  rw [hrules]
  exact h p hp

theorem rulesInForce_invalidateAllAuthority (h : g.RulesInForce) (now : Tick)
    (reason : ReasonCode) : (g.invalidateAllAuthority now reason).2.RulesInForce := by
  obtain ⟨_, _, _, _, _, heq⟩ := invalidateAllAuthority_rest g now reason
  rw [heq]
  exact h.congr rfl rfl

open Fallible in
theorem keeps_rulesInForce_restorePolicy (hasPolicy : Bool) :
    Keeps (fun s : Governor × Bytes => s.1.RulesInForce) (restorePolicy hasPolicy) := by
  refine keeps_restorePolicy_of hasPolicy (fun _ _ p hp => by cases hp)
    fun _ policy rules _ hvalid hrules p hp => ?_
  cases hp
  exact hrules

theorem restoreStable_rulesInForce : RestoreStable RulesInForce where

theorem RulesInForce.move (h : g.RulesInForce) (he : ∀ p, e ≠ .policy p) (hmove : Move g e g') :
    g'.RulesInForce := by
  cases hmove with
  | policy p => exact absurd rfl (he p)
  | invalidate now => exact rulesInForce_invalidateAllAuthority h now _
  | evict key record =>
    have hinputs := sameInputs_updateIndex g key record
    exact h.congr hinputs.policy hinputs.exitRules
  | evaluate key record now =>
    have hinputs := sameInputs_evaluate g record now
    exact h.congr hinputs.policy hinputs.exitRules
  | reset =>
    intro p hp
    cases hp
  | restore bytes now =>
    unfold Governor.deserialize
    rcases readHeader g.boot bytes with e | ⟨header, rest⟩
    · exact h
    · exact restoreStable_rulesInForce.keeps_restoreBody now header
        (keeps_rulesInForce_restorePolicy header.hasPolicy) (g, rest) h
  | _ => exact h.congr rfl rfl

theorem RulesInForce.installPolicy (h : g.RulesInForce) (p : PolicyDocument) :
    (g.installPolicy p).2.RulesInForce := by
  unfold Governor.installPolicy
  rcases hrules : effectiveExitRule p with e | rules
  · exact h.congr rfl rfl
  have hinstalled : (acceptPolicy { g with exitRules := rules } p).RulesInForce := by
    intro q hq
    cases hq
    exact hrules
  simp only
  split_ifs
  · exact rulesInForce_invalidateAllAuthority hinstalled _ _
  · exact hinstalled

/-- A submission that the governor takes as a re-issue repeats the content of the retained
document. -/
def Command.Reissues (g : Governor) : Command → Prop
  | .submitPolicy p => ∀ q, g.policy = some q → p.validate = .ok () →
      q.generation = p.generation → q.digest = p.digest →
      q.validity.issuedAt ≤ p.validity.issuedAt → q.SameContent p
  | _ => True

theorem RulesInForce.submitPolicy (h : g.RulesInForce)
    (hcond : Command.Reissues g (.submitPolicy p)) : (g.submitPolicy p).2.RulesInForce := by
  unfold Governor.submitPolicy
  rcases hvalid : p.validate with e | ⟨⟩
  · exact h
  rcases hq : g.policy with _ | q
  · exact h.installPolicy p
  simp only
  split_ifs with hold hsame hdigest hissued
  · exact h.congr rfl rfl
  · exact h.congr rfl rfl
  · exact h.congr rfl rfl
  · intro p' hp'
    cases hp'
    have hcontent := hcond q hq hvalid hsame.symm (not_not.mp hdigest).symm
      (UInt64.not_lt.mp hissued)
    rw [← hcontent.effectiveExitRule_eq]
    exact h q hq
  · exact h.installPolicy p

theorem RulesInForce.exec {cmd : Command} (h : g.RulesInForce)
    (hb : g.flows.size ≤ g.config.maxFlows) (hadmits : g.Admits cmd)
    (hcond : Command.Reissues g cmd) : (g.exec cmd).RulesInForce := by
  by_cases hpolicy : ∃ p, cmd = .submitPolicy p
  · obtain ⟨p, rfl⟩ := hpolicy
    exact h.submitPolicy hcond
  -- every other operation is made of moves that take no policy
  have hmoves : Performs (fun _ e => ∀ p, e ≠ .policy p) g (g.exec cmd) := by
    refine exec_performs_of ?_ ?_ ?_ ?_ ?_ hb hadmits
    · intro x e he p heq
      rw [heq] at he
      exact he
    · intro p hcmd
      exact absurd ⟨p, hcmd⟩ hpolicy
    · intro s _ x r p heq
      cases heq
    · intro s _ _
      exact ⟨fun _ _ _ _ p heq => (by cases heq), fun _ _ _ p heq => (by cases heq)⟩
    · intro bytes now _ p heq
      cases heq
  exact hmoves.invariant (fun x e x' hx he hmove => hx.move he hmove) h

/-- A document of the retained generation with other content is refused exactly if the governor does
not take it as a re-issue. -/
theorem refused_iff_reissues (hq : g.policy = some q) (hgeneration : q.generation = p.generation)
    (hcontent : ¬ q.SameContent p) :
    (isOk (g.submitPolicy p).1 = false ∧ (g.submitPolicy p).2.policy = some q) ↔
      Command.Reissues g (.submitPolicy p) := by
  unfold Governor.submitPolicy
  rcases hvalid : p.validate with e | ⟨⟩
  · refine ⟨fun _ q' _ hok => ?_, fun _ => ⟨rfl, hq⟩⟩
    rw [hvalid] at hok
    cases hok
  rw [hq]
  have hnotOlder : ¬ p.generation < q.generation := by
    rw [hgeneration]
    exact UInt64.lt_irrefl _
  simp only [if_neg hnotOlder, if_pos hgeneration.symm]
  split_ifs with hdigest hissued
  · refine ⟨fun _ q' hq' _ _ heq => ?_, fun _ => ⟨rfl, hq⟩⟩
    obtain rfl := Option.some.inj (hq.symm.trans hq')
    exact absurd heq.symm hdigest
  · refine ⟨fun _ q' hq' _ _ _ hle => ?_, fun _ => ⟨rfl, hq⟩⟩
    obtain rfl := Option.some.inj (hq.symm.trans hq')
    exact absurd hissued (UInt64.not_lt.mpr hle)
  · constructor
    · rintro ⟨hok, -⟩
      cases hok
    · intro hcond
      exact absurd (hcond q hq hvalid hgeneration (not_not.mp hdigest).symm
        (UInt64.not_lt.mp hissued)) hcontent

/-- **The exit rules of the policy in force.**  In every run whose accepted re-issues repeat the
content of the retained document, the exit rules in force are those of the policy in force.  And in
every state a document of the retained generation with other content is refused exactly if it meets
the same condition. -/
theorem exitRules_of_policy (config : GovernorConfig) :
    (∀ g : Governor, ReachableUnder Command.Reissues config g →
      ∀ p, g.policy = some p → effectiveExitRule p = .ok g.exitRules) ∧
    ∀ (g : Governor) (p q : PolicyDocument), g.policy = some q → q.generation = p.generation →
      ¬ q.SameContent p →
      ((isOk (g.submitPolicy p).1 = false ∧ (g.submitPolicy p).2.policy = some q) ↔
        Command.Reissues g (.submitPolicy p)) := by
  refine ⟨fun g h => ?_, fun g p q hq => refused_iff_reissues hq⟩
  refine h.invariant (P := RulesInForce) (fun p hp => by cases hp) ?_
  intro g cmd hreach hg hadmits hcond
  exact hg.exec hreach.bounded.flows hadmits hcond

namespace Scenario

/-- A document with the generation and the digest of the small run's policy and another exit
rule. -/
def impostor : PolicyDocument :=
  { policy with
    exitRule :=
      { nodes := [{ kind := .threshold }, { kind := .not, children := [0] }], root := 1 } }

end Scenario

open Scenario

/-- The small run submits its policy a second time and keeps the rules of it; the other document is
refused if it has a digest of its own. -/
theorem exitRules_of_policy_reissued :
    (let g := governor.exec (.submitPolicy Scenario.policy)
    ReachableUnder Command.Reissues {} g ∧ effectiveExitRule Scenario.policy = .ok g.exitRules) ∧
    (isOk (governor.submitPolicy { impostor with digest := 2 }).1 = false ∧
      (governor.submitPolicy { impostor with digest := 2 }).2.policy =
        some Scenario.policy) := by
  have hpolicy : governor.policy = some Scenario.policy := by decide +kernel
  have hstart : ReachableUnder Command.Reissues {} governor :=
    reachableUnder_governor (fun _ _ => trivial) (fun _ hq => by cases hq)
      (fun _ _ => trivial) (fun _ _ => trivial) (fun _ _ => trivial)
  have hagain : ReachableUnder Command.Reissues {}
      (governor.exec (.submitPolicy Scenario.policy)) := by
    refine hstart.tail ⟨.submitPolicy Scenario.policy, trivial, fun q hq _ _ _ _ => ?_, rfl⟩
    obtain rfl := Option.some.inj (hpolicy.symm.trans hq)
    exact ⟨rfl, rfl, rfl, rfl⟩
  refine ⟨⟨hagain, (exitRules_of_policy {}).1 _ hagain _ (by decide +kernel)⟩, ?_⟩
  refine ((exitRules_of_policy {}).2 _ { impostor with digest := 2 } _ hpolicy rfl
    fun hsame => ?_).mpr ?_
  · exact absurd hsame.exitRule (by decide)
  · intro q hq _ _ hdigest
    obtain rfl := Option.some.inj (hpolicy.symm.trans hq)
    exact absurd hdigest (by decide)

/-- The document is taken as a re-issue, and the exit rules in force are not its own. -/
theorem impostor_keeps_other_rules : let g := (make {}).run [.submitPolicy Scenario.policy]
    g.policy = some Scenario.policy ∧
      Scenario.policy.generation = impostor.generation ∧
      Scenario.policy.exitRule ≠ impostor.exitRule ∧
      isOk (g.submitPolicy impostor).1 = true ∧
      (g.submitPolicy impostor).2.policy = some impostor ∧
      effectiveExitRule impostor ≠
        .ok (g.submitPolicy impostor).2.exitRules := by
  decide +kernel

/-! ## Leaving by the rules in force -/

section Leaving

variable {key : FlowKey} {r r' : FlowRecord} {now : Tick} {ss : List Step}
  {cond : Governor → Event → Prop}

/-- No record comes back to the elephant state without new evidence while it has an exit streak. -/
def Event.Reenters (g : Governor) : Event → Prop
  | .evaluate _ r now => r.isElephant = false → newEvidence r = false → 0 < r.exitStreak →
      g.enterRuling r now = .true →
      ∀ p, g.policy = some p → r.enterStreak < p.hysteresis.enterConfirmWindows
  | _ => True

/-- Of evaluations the condition asks what the confirmation of an exit asks. -/
theorem Event.Reenters.confirms (h : Event.Reenters g (.evaluate key r now)) :
    Event.Confirms g (.evaluate key r now) := h

/-- An Elephant that is below exit for long enough leaves. -/
theorem hysteresis_state_of_confirmed {spec : HysteresisSpec} {m : FlowMeasurements} {enter : Tri}
    (hr : r.isElephant = true)
    (hconfirm : spec.exitConfirmWindows ≤ (hysteresis spec r m enter .false).exitStreak) :
    (hysteresis spec r m enter .false).state = .notElephant := by
  rw [(hysteresis_of_elephant hr).1] at hconfirm
  have hprevious := isElephant_iff.mp hr
  unfold hysteresis
  simp only [hprevious, if_true]
  rw [if_pos ⟨rfl, hconfirm⟩]

/-- The exit streak of an Elephant reaches the run of windows below exit, and stays small. -/
def Counted (key : FlowKey) (ss : List Step) (r : FlowRecord) : Prop :=
  latestRun Ruling.below (rulings key true ss) ≤ r.exitStreak.toNat ∧ r.exitStreak.toNat ≤ 64

theorem exitStreak_of_settled (g' : Governor) (hr : g.flows[key]? = some r)
    (hel : r.isElephant = true) (hcounted : Counted key ss r) (hc : g.consults r now = true)
    (hsettled : Settled g r now (g.evaluate r now).2.2) :
    latestRun Ruling.below (rulings key true (⟨g, .evaluate key r now, g'⟩ :: ss)) ≤
      (g.verdict r now).exitStreak.toNat := by
  obtain ⟨p, -, hverdict⟩ := verdict_of_consults hc
  rw [hverdict, (hysteresis_of_elephant hel).1]
  unfold nextStreaks
  rcases rulings_of_settled g' ss hr hel hsettled with ⟨hnew, s, heq⟩ | ⟨hold, heq⟩
  · rw [heq, if_pos hnew, if_pos (isElephant_iff.mp hel)]
    by_cases hbelow : g.exitRuling r now = .false
    · have hone : (1 : UInt32).toNat = 1 := rfl
      rw [latestRun_cons (by simp [Ruling.below, hbelow])]
      simp only [hbelow, decide_true, if_true]
      rw [UInt32.toNat_add, hone, Nat.mod_eq_of_lt (by have := hcounted.2; omega)]
      exact Nat.succ_le_succ hcounted.1
    · rw [latestRun_cons_of_fails (by simp [Ruling.below, hbelow])]
      exact Nat.zero_le _
  · rw [heq, if_neg (by simp [hold])]
    exact hcounted.1

theorem exitStreak_le_of_stays (hvalid : g.PolicyValid) (hel : r.isElephant = true)
    (hbound : r.exitStreak.toNat ≤ 64) (hstate : (g.verdict r now).state = .elephant) :
    (g.verdict r now).exitStreak.toNat ≤ 64 := by
  obtain ⟨p, hp, hverdict⟩ := verdict_of_consults (consults_of_verdict hstate)
  have hspec := hysteresis_of_validate (hvalid p hp)
  unfold HysteresisSpec.validate at hspec
  simp only [ite_makeStatus_eq_ok, not_or] at hspec
  have hlimit := UInt32.le_iff_toNat_le.mp (UInt32.not_lt.mp hspec.2.1.2)
  have hsixtyFour : (64 : UInt32).toNat = 64 := rfl
  rw [hverdict] at hstate ⊢
  by_cases hbelow : g.exitRuling r now = .false
  · rw [hbelow] at hstate ⊢
    by_contra hlarge
    have hconfirm : p.hysteresis.exitConfirmWindows ≤
        (hysteresis p.hysteresis r (g.measure r).measurements (g.enterRuling r now)
          .false).exitStreak := by
      rw [UInt32.le_iff_toNat_le]
      omega
    rw [hysteresis_state_of_confirmed hel hconfirm] at hstate
    cases hstate
  · rw [(hysteresis_of_elephant hel).1]
    unfold nextStreaks
    rw [if_pos (isElephant_iff.mp hel)]
    simp only [hbelow, decide_false, Bool.false_eq_true, if_false]
    split_ifs
    · exact Nat.zero_le _
    · exact hbound

/-- Along every trail whose moves meet the condition the exit streaks of the Elephants count. -/
theorem Trail.counted (h : Trail Event.Reenters config ss g) :
    ∀ (key : FlowKey) (r : FlowRecord), g.flows[key]? = some r → r.isElephant = true →
      Counted key ss r := by
  refine h.streaks (b := true) (P := fun ws _ exit =>
    latestRun Ruling.below ws ≤ exit.toNat ∧ exit.toNat ≤ 64) (fun hb => nomatch hb) ?_
    (fun hb => nomatch hb)
  intro ss g key r now g' htrail hcond hr hcounted hsettled hel
  have hstate := hsettled.isElephant_iff.mp hel
  by_cases hbefore : r.isElephant = true
  · exact ⟨exitStreak_of_settled g' hr hbefore (hcounted hbefore) (consults_of_verdict hstate) hsettled,
      exitStreak_le_of_stays htrail.policyValid hbefore (hcounted hbefore).2 hstate⟩
  · -- a record that becomes an Elephant starts to count
    rw [rulings_of_not_continues (not_continues_of_tracked hr hbefore),
      exitStreak_of_entry (Event.Reenters.confirms hcond) (by simpa using hbefore) hstate]
    exact ⟨Nat.zero_le _, Nat.zero_le _⟩

/-- The exit rule of a valid policy that states none and has no instantaneous threshold is always
`True`. -/
theorem effectiveExitRule_always {rules : RuleSet} (hnone : p.exitRule.empty = true)
    (hkept : ∀ node ∈ p.enterRule.nodes, node.kept = false)
    (hrules : effectiveExitRule p = .ok rules) (m : FlowMeasurements) (trace : ThresholdTrace) :
    (rules.evaluate m trace).1 = .true := by
  unfold effectiveExitRule at hrules
  rw [if_neg (not_not.mpr hnone)] at hrules
  obtain ⟨-, leaves, hleaves, hvalue⟩ := evaluate_scaleRuleSet hrules
  have hempty : leaves = [] := by
    rw [List.eq_nil_iff_forall_not_mem]
    intro leaf hleaf
    obtain ⟨node, hnode, hkind, hinst, -⟩ := (mem_scaledLeaves hleaves leaf).mp hleaf
    have hno := hkept node hnode
    rw [kept_iff.mpr ⟨hkind, hinst⟩] at hno
    cases hno
  rw [hvalue, hempty]
  rfl

/-- **When an Elephant stops being one.**  Every run of operations made of moves under the condition has
a trail under it.  Along every trail whose moves meet the condition, a
decision on a new window of an Elephant flow, with everything fresh, takes it out of the elephant
state if and only if the exit rules in force are `False` on this window and the windows before it, as
many as the policy asks for.  For a policy without an exit rule and without instantaneous thresholds
the rule that the source makes is never `False`, whatever the enter rule says. -/
theorem leaves_iff_below_exit (config : GovernorConfig) :
    (∀ g : Governor, ReachableUnder (Command.MadeOf Event.Reenters) config g →
      ∃ ss, Trail Event.Reenters config ss g) ∧
    (∀ (ss : List Step) (g g' : Governor) (key : FlowKey) (r r' : FlowRecord) (now : Tick)
        (p : PolicyDocument),
      Trail Event.Reenters config ss g → Move g (.evaluate key r now) g' →
      g.flows[key]? = some r → r.isElephant = true → g.policy = some p → g.consults r now = true →
      ((Step.mk g (.evaluate key r now) g').ruling key).isSome = true →
      g'.flows[key]? = some r' →
      (r'.isElephant = false ↔
        p.hysteresis.exitConfirmWindows.toNat ≤
          (rulings key true (⟨g, .evaluate key r now, g'⟩ :: ss)).length ∧
        ∀ w ∈ (rulings key true (⟨g, .evaluate key r now, g'⟩ :: ss)).take
            p.hysteresis.exitConfirmWindows.toNat, w.exit = .false)) ∧
    ∀ (p : PolicyDocument) (rules : RuleSet) (m : FlowMeasurements) (trace : ThresholdTrace),
      p.exitRule.empty = true → (∀ node ∈ p.enterRule.nodes, node.kept = false) →
      effectiveExitRule p = .ok rules → (rules.evaluate m trace).1 = .true := by
  refine ⟨fun g h => h.trail_of_madeOf, ?_, fun p rules m trace hnone hkept hrules =>
    effectiveExitRule_always hnone hkept hrules m trace⟩
  intro ss g g' key r r' now p htrail hmove hr hel hp hc hruling hr'
  obtain ⟨-, rfl⟩ := hmove.evaluated hr'
  rcases evaluate_record g r now with ⟨t, heq⟩ | hsettled
  · rw [ruling_of_left heq] at hruling
    cases hruling
  have hcounted := htrail.counted key r hr hel
  have hlower := exitStreak_of_settled g' hr hel hcounted hc hsettled
  have hupper := exitStreak_le_of_settled g' hr hel
    (htrail.exitStreak_le (fun _ _ _ _ h => Event.Reenters.confirms h) key r hr hel) hsettled
  have hbelow : ∀ w : Ruling, w.exit = .false ↔ w.below = true := by
    intro w
    simp [Ruling.below]
  simp only [hbelow]
  rw [← le_latestRun_iff]
  obtain ⟨p', hp', hverdict⟩ := verdict_of_consults hc
  obtain rfl := Option.some.inj (hp.symm.trans hp')
  have hstate : (g.evaluate r now).2.2.isElephant = false ↔
      (g.verdict r now).state = .notElephant := by
    rw [FlowRecord.isElephant, hsettled.classified, hsettled.state, hverdict]
    rcases (@hysteresis_of_elephant r p.hysteresis (g.measure r).measurements
      (g.enterRuling r now) (g.exitRuling r now) hel).2 with h | ⟨h, -⟩ <;> rw [h] <;> simp
  rw [hstate, hverdict]
  rw [hverdict] at hlower hupper
  constructor
  · intro hleft
    exact le_trans (UInt32.le_iff_toNat_le.mp (hysteresis_leaves_elephant hel hleft).2) hupper
  · intro hrun
    have hpos := exitConfirmWindows_pos (htrail.policyValid p hp)
    -- the window just ruled on is the head of the run, so the exit rules are `False` on it
    have hexit : g.exitRuling r now = .false := by
      by_contra hnot
      rcases rulings_of_settled g' ss hr hel hsettled with ⟨-, s, heq⟩ | ⟨hold, -⟩
      · rw [heq, latestRun_cons_of_fails (by simp [Ruling.below, hnot])] at hrun
        rw [UInt32.lt_iff_toNat_lt, UInt32.toNat_zero] at hpos
        omega
      · rw [ruling_of_settled hsettled, if_neg (by simp [hold])] at hruling
        cases hruling
    rw [hexit] at hlower ⊢
    exact hysteresis_state_of_confirmed hel (UInt32.le_iff_toNat_le.mpr (le_trans hrun hlower))

end Leaving

namespace Scenario

/-- Windows of some priority qualify, and two windows confirm an exit; there is no exit rule and no
instantaneous threshold. -/
def priorityPolicy : PolicyDocument :=
  { policy with
    enterRule :=
      { nodes := [{ kind := .threshold, threshold := { kind := .priorityAtLeast, value := 1 } }] }
    hysteresis := { exitConfirmWindows := 2 } }

/-- The second and the third window of the flow have no priority. -/
def idleSample (n : UInt64) : FlowSample :=
  FlowSample.signed
    { sample with
      window := ⟨n⟩, windowSequence := n, span := ⟨10 * n - 10, 10 * n⟩
      cumulativeBytes := 10000 * n, priority := some 0, validity := ⟨10 * n, 500⟩ }

/-- The flow became an Elephant with its first window, and the given number of windows follows. -/
def lingering (windows : ℕ) : Governor := ((make {}).setIncarnation boot).run
  ([.submitPolicy priorityPolicy, .submitCapacity capacity, .submitPath path,
    .submitEvidence sample] ++
    (List.range windows).map fun i => .submitEvidence (idleSample (UInt64.ofNat (i + 2))))

/-- The flow is an Elephant whose latest window is decided on, with everything fresh and with the
given verdict of the enter rule. -/
def elephantWith (g : Governor) (now : Tick) (enter : Tri) : Bool :=
  g.flows[flowKey]?.any fun r =>
    r.isElephant && !newEvidence r && g.enterRuling r now = enter

end Scenario

/-- In the steady run the fourth window takes the flow out of the elephant state, so the exit rules
were `False` on the two latest; the rule made for the policy above is always `True`. -/
theorem leaves_iff_below_exit_scenario :
    (∃ (ss : List Step) (g g' : Governor) (r r' : FlowRecord), Trail Event.Reenters {} ss g ∧
      Move g (.evaluate flowKey r 40) g' ∧ r.isElephant = true ∧
      g'.flows[flowKey]? = some r' ∧ r'.isElephant = false ∧
      ∀ w ∈ (rulings flowKey true (⟨g, .evaluate flowKey r 40, g'⟩ :: ss)).take 2,
        w.exit = .false) ∧
    ∃ rules, effectiveExitRule priorityPolicy = .ok rules ∧
      ∀ m trace, (rules.evaluate m trace).1 = .true := by
  obtain ⟨ss, htrail⟩ := trail_steady Event.Reenters (fun _ => trivial)
    (fun _ => trivial) (fun _ => trivial) (fun _ _ => trivial)
    (fun k hk _ hold => absurd ((steady_counts k hk).1.symm.trans hold) (by decide))
    (n := 3) (by decide)
  obtain ⟨hevidence, hr⟩ := move_steadyNext (n := 3) (by decide)
  have htaken : Trail Event.Reenters {} _ (steadyNext 3).1 :=
    htrail.step (by trivial) hevidence
  obtain ⟨hel, hleft, -⟩ := steadyNext_leaves
  obtain ⟨hleave, hr'⟩ := move_decided hr 40
  have hno : (decided flowKey (steadyNext 3) 40).2.isElephant = false := by
    rw [FlowRecord.isElephant, hleft]
    simp
  have hruling : ((Step.mk (steadyNext 3).1 (.evaluate flowKey (steadyNext 3).2 40)
      (decided flowKey (steadyNext 3) 40).1).ruling flowKey).isSome = true := by
    decide +kernel
  have hpolicy : (steadyNext 3).1.policy = some steadyPolicy := by decide +kernel
  obtain ⟨-, hbelow⟩ := ((leaves_iff_below_exit {}).2.1 _ _ _ flowKey _ _ 40 _ htaken hleave hr
    hel hpolicy (by decide +kernel) hruling hr').mp hno
  have hrules : effectiveExitRule priorityPolicy = .ok { nodes := [{ kind := .threshold }] } := by
    decide +kernel
  exact ⟨⟨_, _, _, _, _, htaken, hleave, hel, hr', hno, hbelow⟩, _, hrules, fun m trace =>
    (leaves_iff_below_exit {}).2.2 _ _ m trace (by decide) (by decide) hrules⟩

/-- The flow stays an Elephant although the enter rule is `False` on two new windows in a row. -/
theorem elephant_lingers :
    priorityPolicy.validate = .ok () ∧ priorityPolicy.exitRule.empty = true ∧
      (∀ node ∈ priorityPolicy.enterRule.nodes, node.kept = false) ∧
      priorityPolicy.hysteresis.exitConfirmWindows = 2 ∧
      elephantWith (lingering 0) 10 .true = true ∧
      elephantWith (lingering 1) 20 .false = true ∧
      elephantWith (lingering 2) 30 .false = true := by
  decide +kernel

end Governor

end EFG
