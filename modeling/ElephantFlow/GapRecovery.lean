/-
# After a telemetry gap

`append` sets the gap flag of a ledger when a sample starts a new measurement epoch behind a
gap, and only the start of another epoch sets it again.  `suspension_reasons` suspends the
flow as long as the flag is set.  So a run of adjoining windows after a gap changes nothing:
the flow does not become an Elephant (`Stretch.blocked`), however many windows follow.

Where the flag is not set, the windows do what the hysteresis says: the enter streak counts
them, and enough of them in a row make the flow an Elephant (`Stretch.recovers`).
-/
import ElephantFlow.Confirmation
import ElephantFlow.LedgerRuns

namespace EFG

/-! ## The gap flag -/

namespace FlowLedger

variable {l l' : FlowLedger} {s : FlowSample}

/-- A sample that starts no epoch leaves the gap flag and the completion as they are. -/
theorem append_adjoining (h : l.restarts s = false) :
    (l.append s).2.gapDetected = l.gapDetected ∧ (l.append s).2.completed = l.completed := by
  rcases append_cases l s with (⟨e, heq⟩ | heq) | ⟨-, -, e, heq⟩ | ⟨-, -, heq⟩
  · rw [heq]
    exact ⟨rfl, rfl⟩
  · rw [heq]
    exact ⟨rfl, rfl⟩
  · rw [heq, restartEpoch_of_continues h]
    exact ⟨rfl, rfl⟩
  · rw [heq, restartEpoch_of_continues h]
    exact ⟨rfl, rfl⟩

theorem gapDetected_markCompleted {atTick : Tick} (h : l.markCompleted atTick = .ok l') :
    l'.gapDetected = l.gapDetected := by
  unfold markCompleted at h
  split_ifs at h
  all_goals first
    | cases h
      rfl
    | cases h

end FlowLedger

namespace Governor

variable {g g' g₀ : Governor} {key : FlowKey} {r r' : FlowRecord} {now : Tick} {e : Event}
  {config : GovernorConfig} {ts : List Step} {p : PolicyDocument}
  {cond : Governor → Event → Prop}

/-! ## Freshness -/

/-- What the decision looks at is there and fresh: the latest sample, its path, the capacity on it,
and the policy. -/
structure Fresh (g : Governor) (r : FlowRecord) (now : Tick) : Prop where
  evidence : isFresh r.ledger.latestValidity now = true
  path : ∃ s d, r.ledger.latest = some s ∧ g.paths.find s.path = some d ∧
    isFresh d.validity now = true ∧ (resolveBinding (some d) g.capacities true now).isSome = true
  policy : ∃ p, g.policy = some p ∧ isFresh p.validity now = true

instance (g : Governor) (r : FlowRecord) (now : Tick) : Decidable (Fresh g r now) :=
  decidable_of_iff (isFresh r.ledger.latestValidity now = true ∧
      (∃ s ∈ r.ledger.latest, ∃ d ∈ g.paths.find s.path, isFresh d.validity now = true ∧
        (resolveBinding (some d) g.capacities true now).isSome = true) ∧
      ∃ p ∈ g.policy, isFresh p.validity now = true)
    ⟨fun ⟨h₁, ⟨s, hs, d, hd, h₂⟩, h₃⟩ => ⟨h₁, ⟨s, d, hs, hd, h₂⟩, h₃⟩,
      fun ⟨h₁, ⟨s, d, hs, hd, h₂⟩, h₃⟩ => ⟨h₁, ⟨s, hs, d, hd, h₂⟩, h₃⟩⟩

theorem Fresh.evidenceSuspension (h : Fresh g r now) :
    (g.evidenceSuspension r now).1 = r.ledger.gapDetected := by
  obtain ⟨s, d, hs, hd, hfresh, hbinding⟩ := h.path
  have hresolved : (resolveBinding (some d) g.capacities true now).isNone = false := by
    rw [Option.isNone_eq_false_iff]
    exact hbinding
  unfold Governor.evidenceSuspension
  simp only [hs, hd, hfresh, h.evidence, hresolved]
  simp

theorem Fresh.policySuspension (h : Fresh g r now) : (g.policySuspension now).1 = false := by
  obtain ⟨p, hp, hfresh⟩ := h.policy
  unfold Governor.policySuspension
  rw [hp]
  simp only [hfresh, if_true]

/-- A fresh flow without a gap, whose authority still matches, is decided by the rules. -/
theorem Fresh.consults (h : Fresh g r now) (hgap : r.ledger.gapDetected = false)
    (hrun : r.ledger.completed = false) (hauthority : (g.authoritySuspension r now).1 = false)
    (hmeasured : (g.measure r).capacityMissing = false) : g.consults r now = true := by
  have hsuspend : (g.suspensionReasons r now).1 = false := by
    unfold suspensionReasons
    simp only [h.evidenceSuspension, h.policySuspension, hgap, hauthority, Bool.or_self]
  unfold Governor.consults
  rw [hrun, hsuspend, hmeasured]
  rfl

/-- A flow with the gap flag is not decided by the rules. -/
theorem not_consults_of_gap (hgap : r.ledger.gapDetected = true) : g.consults r now = false := by
  have hevidence : (g.evidenceSuspension r now).1 = true := by
    unfold evidenceSuspension
    rcases r.ledger.latest with _ | s
    · rfl
    simp only [hgap, Bool.or_true]
    rcases g.paths.find s.path with _ | d
    · rfl
    · simp only
      split_ifs <;> rfl
  unfold consults suspensionReasons
  simp [hevidence]

/-! ## Stretches of a run -/

/-- The windows of a flow that a stretch decides on, the latest first. -/
def decisions (key : FlowKey) (ts : List Step) : List Ruling := ts.filterMap (Step.ruling key)

theorem decisions_cons (key : FlowKey) (t : Step) (ts : List Step) :
    decisions key (t :: ts) = (t.ruling key).toList ++ decisions key ts := by
  unfold decisions
  rw [List.filterMap_cons]
  cases t.ruling key with
  | none => rfl
  | some w => rfl

theorem decisions_of_not_evaluate {t : Step} (h : ∀ x now, t.event ≠ .evaluate key x now) :
    decisions key (t :: ts) = decisions key ts := by
  rw [decisions_cons, ruling_of_not_evaluate h]
  rfl

/-! ## Blocked by the flag -/

/-- The move brings no sample of the key that starts an epoch, and neither makes its record anew nor
restores one. -/
def Event.Adjoining (key : FlowKey) : Event → Prop
  | .evidence k r s => k = key → r.ledger.restarts s = false
  | .create k => k ≠ key
  | .restore _ _ => False
  | _ => True

/-- The flow waits behind a gap. -/
def Waits (r : FlowRecord) : Prop := r.ledger.gapDetected = true ∧ r.isElephant = false

theorem Waits.evaluate (h : Waits r) : Waits (g.evaluate r now).2.2 := by
  rcases evaluate_record g r now with ⟨t, heq⟩ | hsettled
  · rw [heq]
    exact h
  · refine ⟨by rw [hsettled.ledger]; exact h.1, ?_⟩
    have hconsults : g.consults r now = false := not_consults_of_gap h.1
    have hstate := (verdict_of_not_consults hconsults).1
    rw [← hsettled.state] at hstate
    simp [FlowRecord.isElephant, hstate]

/-- No adjoining window and no decision ends the wait. -/
theorem Stretch.blocked (h : Stretch (fun _ e => Event.Adjoining key e) g₀ ts g)
    (hwaits : ∀ r : FlowRecord, g₀.flows[key]? = some r → Waits r) :
    ∀ r : FlowRecord, g.flows[key]? = some r → Waits r := by
  induction h with
  | start => exact hwaits
  | @step ts g g' e _ hcond hmove ih =>
    intro r' hr'
    cases hmove.becomes hr' with
    | same _ _ hr => exact ih r' hr
    | fresh => exact absurd rfl hcond
    | appended r s hr =>
      have hkept := (FlowLedger.append_adjoining (hcond rfl)).1
      exact ⟨hkept.trans (ih r hr).1, (ih r hr).2⟩
    | completed r ledger atTick hr hledger =>
      exact ⟨(FlowLedger.gapDetected_markCompleted hledger).trans (ih r hr).1, (ih r hr).2⟩
    | evaluated r now hr => exact (ih r hr).evaluate
    | cleared r now hr _ hs => exact ⟨(ih r hr).1, isElephant_clearedRecord hs⟩
    | withdrawn r hist now hr =>
      refine ⟨?_, isElephant_suspendedRecord hist⟩
      rw [rebound_ledger]
      exact (ih r hr).1
    | restored => exact hcond.elim

/-! ## Recovery without the flag -/

section Hysteresis

variable {spec : HysteresisSpec} {m : FlowMeasurements} {enter exit : Tri}

theorem hysteresis_keeps_elephant (hr : r.isElephant = true) (hexit : exit ≠ .false) :
    (hysteresis spec r m enter exit).state = .elephant := by
  rcases (@hysteresis_of_elephant r spec m enter exit hr).2 with h | ⟨-, hbelow, -⟩
  · exact h
  · exact absurd hbelow hexit

theorem hysteresis_qualified (hr : r.isElephant = false) (hnew : newEvidence r = true) :
    (hysteresis spec r m .true exit).state = .elephant ∨
      ((hysteresis spec r m .true exit).enterStreak = r.enterStreak + 1 ∧
        r.enterStreak + 1 < spec.enterConfirmWindows) := by
  have hprevious := previousState_ne_elephant hr
  unfold hysteresis nextStreaks
  simp only [hnew, hprevious, if_true, if_false, not_true_eq_false, false_and]
  split_ifs with hconfirmed
  · exact .inl rfl
  · exact .inr ⟨rfl, UInt32.not_le.mp hconfirmed⟩

/-- Any other window clears the streak. -/
theorem hysteresis_unqualified (hr : r.isElephant = false) (hnew : newEvidence r = true)
    (henter : enter ≠ .true) : (hysteresis spec r m enter exit).enterStreak = 0 := by
  have hprevious := previousState_ne_elephant hr
  unfold hysteresis nextStreaks
  simp only [hnew, hprevious, henter, if_true, if_false, not_true_eq_false, false_and]
  split_ifs <;> rfl

/-- Without a new window the streak stays, unless the enter rule is `False`. -/
theorem hysteresis_repeated (hr : r.isElephant = false) (hold : newEvidence r = false)
    (henter : enter ≠ .false) :
    (hysteresis spec r m enter exit).state = .elephant ∨
      (hysteresis spec r m enter exit).enterStreak = r.enterStreak := by
  have hprevious := previousState_ne_elephant hr
  unfold hysteresis nextStreaks
  simp only [hold, hprevious, Bool.false_eq_true, if_false]
  cases enter with
  | false => exact absurd rfl henter
  | true =>
    simp only [if_true]
    split_ifs
    · exact .inr rfl
    · exact .inl rfl
    · exact .inr rfl
  | unknown =>
    simp only [reduceCtorEq, if_true, if_false]
    split_ifs
    all_goals exact .inr rfl

end Hysteresis

/-- The move leaves the flow to its windows: every decision on it finds everything fresh, the
measurements complete, the authority of an Elephant intact and the exit rules not `False`, and does
not repeat a window on which the enter rule has turned `False`; no sample starts an epoch; and nothing
completes, drops or replaces the flow or changes the policy. -/
def Event.Calm (key : FlowKey) (g : Governor) : Event → Prop
  | .evaluate k r now => k = key → Fresh g r now ∧ (g.authoritySuspension r now).1 = false ∧
      (g.measure r).capacityMissing = false ∧ g.exitRuling r now ≠ .false ∧
      (newEvidence r = false → g.enterRuling r now ≠ .false)
  | .evidence k r s => k = key → r.ledger.restarts s = false
  | .complete k _ _ => k ≠ key
  | .create k => k ≠ key
  | .policy _ | .invalidate _ | .reset | .restore _ _ => False
  | _ => True

theorem Event.Calm.keepsPolicy (h : Event.Calm key g e) : e.KeepsPolicy := by
  cases e with
  | policy => exact h.elim
  | reset => exact h.elim
  | restore => exact h.elim
  | _ => exact trivial

/-- The flow runs without a gap, and once a window was decided on it is an Elephant, or its enter
streak is short of the policy and has counted the qualifying windows since. -/
structure Climbs (key : FlowKey) (p : PolicyDocument) (ts : List Step) (r : FlowRecord) : Prop where
  gap : r.ledger.gapDetected = false
  running : r.ledger.completed = false
  streak : decisions key ts ≠ [] → r.isElephant = true ∨
    (r.enterStreak < p.hysteresis.enterConfirmWindows ∧
      latestRun Ruling.qualified (decisions key ts).dropLast ≤ r.enterStreak.toNat)

theorem Climbs.keep (h : Climbs key p ts r) (r' : FlowRecord)
    (hgap : r'.ledger.gapDetected = r.ledger.gapDetected)
    (hrunning : r'.ledger.completed = r.ledger.completed) (hel : r'.isElephant = r.isElephant)
    (hstreak : r'.enterStreak = r.enterStreak) {us : List Step}
    (hdecisions : decisions key us = decisions key ts) : Climbs key p us r' := by
  refine ⟨hgap.trans h.gap, hrunning.trans h.running, ?_⟩
  rw [hel, hstreak, hdecisions]
  exact h.streak

theorem enterConfirmWindows_limits (h : p.validate = .ok ()) :
    0 < p.hysteresis.enterConfirmWindows ∧ p.hysteresis.enterConfirmWindows.toNat ≤ 64 := by
  have hspec := hysteresis_of_validate h
  unfold HysteresisSpec.validate at hspec
  simp only [ite_makeStatus_eq_ok, not_or] at hspec
  exact ⟨UInt32.pos_iff_ne_zero.mpr hspec.1.1,
    UInt32.le_iff_toNat_le.mp (UInt32.not_lt.mp hspec.2.1.1)⟩

/-- The latest run, but for the first window, after one more window. -/
theorem latestRun_dropLast_cons {test : Ruling → Bool} {w : Ruling} {ws : List Ruling} {n : ℕ}
    (hfirst : ws = [] → 0 ≤ n) (hpass : test w = true → ws ≠ [] →
      latestRun test ws.dropLast + 1 ≤ n) : latestRun test (w :: ws).dropLast ≤ n := by
  rcases ws with _ | ⟨v, ws⟩
  · exact hfirst rfl
  rw [List.dropLast_cons_of_ne_nil (List.cons_ne_nil v ws)]
  by_cases hw : test w = true
  · rw [latestRun_cons hw]
    exact hpass hw (List.cons_ne_nil v ws)
  · rw [latestRun_cons_of_fails (by simpa using hw)]
    exact Nat.zero_le n

/-- A decision in a calm stretch. -/
theorem Climbs.settle (g' : Governor) (hp : g.policy = some p) (hvalid : p.validate = .ok ())
    (h : Climbs key p ts r) (hcalm : Event.Calm key g (.evaluate key r now))
    (hsettled : Settled g r now (g.evaluate r now).2.2) :
    Climbs key p (⟨g, .evaluate key r now, g'⟩ :: ts) (g.evaluate r now).2.2 := by
  obtain ⟨hfresh, hauthority, hmeasured, hexit, hrepeat⟩ := hcalm rfl
  obtain ⟨hpos, hlimit⟩ := enterConfirmWindows_limits hvalid
  have hconsults := hfresh.consults h.gap h.running hauthority hmeasured
  obtain ⟨p', hp', hverdict⟩ := verdict_of_consults hconsults
  obtain rfl := Option.some.inj (hp.symm.trans hp')
  refine ⟨by rw [hsettled.ledger]; exact h.gap, by rw [hsettled.ledger]; exact h.running, ?_⟩
  by_cases hel : r.isElephant = true
  · refine fun _ => .inl (hsettled.isElephant_iff.mpr ?_)
    rw [hverdict]
    exact hysteresis_keeps_elephant hel hexit
  rw [Bool.not_eq_true] at hel
  -- what is known of the streak before, once a window was decided on
  have hbefore : decisions key ts ≠ [] → r.enterStreak < p.hysteresis.enterConfirmWindows ∧
      latestRun Ruling.qualified (decisions key ts).dropLast ≤ r.enterStreak.toNat := by
    intro hne
    refine (h.streak hne).resolve_left fun htrue => ?_
    rw [hel] at htrue
    cases htrue
  rw [decisions_cons, ruling_of_settled hsettled, hsettled.enterStreak]
  by_cases hnew : newEvidence r = true
  · obtain ⟨s, hs⟩ := latest_of_newEvidence hnew
    rw [if_pos hnew, hs, Option.map_some, Option.toList_some, List.singleton_append]
    intro _
    by_cases henter : g.enterRuling r now = .true
    · rw [hverdict, henter]
      rcases @hysteresis_qualified r p.hysteresis (g.measure r).measurements (g.exitRuling r now)
        hel hnew with hstate | ⟨hstreak, hshort⟩
      · exact .inl (hsettled.isElephant_iff.mpr (by rw [hverdict, henter]; exact hstate))
      · rw [hstreak]
        refine .inr ⟨hshort, latestRun_dropLast_cons (fun _ => Nat.zero_le _) fun _ hne => ?_⟩
        obtain ⟨hlt, hrun⟩ := hbefore hne
        have hone : (1 : UInt32).toNat = 1 := rfl
        rw [UInt32.lt_iff_toNat_lt] at hlt
        rw [UInt32.toNat_add, hone, Nat.mod_eq_of_lt (by omega)]
        exact Nat.succ_le_succ hrun
    · rw [hverdict, hysteresis_unqualified hel hnew henter]
      refine .inr ⟨hpos, latestRun_dropLast_cons (fun _ => Nat.zero_le _) fun hq _ => ?_⟩
      simp only [Ruling.qualified, decide_eq_true_eq] at hq
      exact absurd hq henter
  · rw [Bool.not_eq_true] at hnew
    rw [if_neg (by simp [hnew]), Option.toList_none, List.nil_append]
    intro hne
    have hrepeated := @hysteresis_repeated r p.hysteresis (g.measure r).measurements
      (g.enterRuling r now) (g.exitRuling r now) hel hnew (hrepeat hnew)
    rw [← hverdict] at hrepeated
    rcases hrepeated with hstate | hstreak
    · exact .inl (hsettled.isElephant_iff.mpr hstate)
    · rw [hstreak]
      exact .inr (hbefore hne)

theorem Stretch.climbs (h : Stretch (Event.Calm key) g₀ ts g) (hp : g₀.policy = some p)
    (hvalid : p.validate = .ok ())
    (hstart : ∀ r : FlowRecord, g₀.flows[key]? = some r →
      r.ledger.gapDetected = false ∧ r.ledger.completed = false) :
    g.policy = some p ∧ ∀ r : FlowRecord, g.flows[key]? = some r → Climbs key p ts r := by
  induction h with
  | start => exact ⟨hp, fun r hr => ⟨(hstart r hr).1, (hstart r hr).2, fun hne => absurd rfl hne⟩⟩
  | @step ts g g' e _ hcalm hmove ih =>
    obtain ⟨hpolicy, hclimbs⟩ := ih
    refine ⟨(hmove.policy_eq hcalm.keepsPolicy).1.trans hpolicy, fun r' hr' => ?_⟩
    by_cases hevaluate : ∃ x now, e = .evaluate key x now
    · obtain ⟨r, now, rfl⟩ := hevaluate
      obtain ⟨hr, rfl⟩ := hmove.evaluated hr'
      rcases evaluate_record g r now with ⟨t, heq⟩ | hsettled
      · rw [heq]
        refine (hclimbs r hr).keep { r with evaluatedTick := t } rfl rfl rfl rfl ?_
        rw [decisions_cons, ruling_of_left heq]
        rfl
      · exact (hclimbs r hr).settle g' hpolicy hvalid hcalm hsettled
    have hno : ∀ x now, e ≠ .evaluate key x now := fun x now heq => hevaluate ⟨x, now, heq⟩
    have hsame : decisions key (⟨g, e, g'⟩ :: ts) = decisions key ts :=
      decisions_of_not_evaluate (t := ⟨g, e, g'⟩) hno
    cases hmove.becomes hr' with
    | same _ _ hr => exact (hclimbs r' hr).keep _ rfl rfl rfl rfl hsame
    | fresh => exact absurd rfl hcalm
    | appended r s hr =>
      obtain ⟨hgap, hrunning⟩ := FlowLedger.append_adjoining (hcalm rfl)
      exact (hclimbs r hr).keep { r with ledger := (r.ledger.append s).2 } hgap hrunning rfl rfl hsame
    | completed => exact absurd rfl hcalm
    | evaluated r now => exact absurd rfl (hno r now)
    | cleared => exact hcalm.elim
    | withdrawn => exact hcalm.elim
    | restored => exact hcalm.elim

theorem Stretch.recovers (h : Stretch (Event.Calm key) g₀ ts g) (hp : g₀.policy = some p)
    (hvalid : p.validate = .ok ())
    (hstart : ∀ r : FlowRecord, g₀.flows[key]? = some r →
      r.ledger.gapDetected = false ∧ r.ledger.completed = false)
    (hmany : p.hysteresis.enterConfirmWindows.toNat + 2 ≤ (decisions key ts).length)
    (hqualified : ∀ w ∈ (decisions key ts).take p.hysteresis.enterConfirmWindows.toNat,
      w.enter = .true) (hr : g.flows[key]? = some r) : r.isElephant = true := by
  have hclimbs := (h.climbs hp hvalid hstart).2 r hr
  have hne : decisions key ts ≠ [] := by
    intro hnil
    rw [hnil, List.length_nil] at hmany
    omega
  rcases hclimbs.streak hne with hel | ⟨hshort, hrun⟩
  · exact hel
  -- the qualifying windows are all later than the first one, so the streak has counted them
  have hcounted : p.hysteresis.enterConfirmWindows.toNat ≤
      latestRun Ruling.qualified (decisions key ts).dropLast := by
    rw [le_latestRun_iff, List.length_dropLast, List.dropLast_eq_take, List.take_take,
      Nat.min_eq_left (by omega)]
    refine ⟨by omega, fun w hw => ?_⟩
    simp only [Ruling.qualified, decide_eq_true_eq]
    exact hqualified w hw
  rw [UInt32.lt_iff_toNat_lt] at hshort
  omega

/-- **When a telemetry gap is recoverable.**  Operations made of moves under a condition make a stretch
under it.  A flow whose ledger does not carry the gap flag, and
whose stretch of adjoining windows is calm, is an Elephant after `enter_confirm_windows + 2` decisions
on new windows, the latest `enter_confirm_windows` of them with the enter rule `True`.  A flow whose
ledger carries the flag is not an Elephant after any stretch of adjoining windows, whatever else
happens in it. -/
theorem gap_recovery (config : GovernorConfig) :
    (∀ (cond : Governor → Event → Prop) (g₀ : Governor) (cmds : List Command),
      Meets (Command.MadeOf cond) g₀ cmds → ∃ ts, Stretch cond g₀ ts (g₀.run cmds)) ∧
    (∀ (g₀ g : Governor) (ts : List Step) (key : FlowKey) (p : PolicyDocument) (r : FlowRecord),
      Reachable config g₀ → g₀.policy = some p →
      (∀ r₀ : FlowRecord, g₀.flows[key]? = some r₀ →
        r₀.ledger.gapDetected = false ∧ r₀.ledger.completed = false) →
      Stretch (Event.Calm key) g₀ ts g →
      p.hysteresis.enterConfirmWindows.toNat + 2 ≤ (decisions key ts).length →
      (∀ w ∈ (decisions key ts).take p.hysteresis.enterConfirmWindows.toNat, w.enter = .true) →
      g.flows[key]? = some r → r.isElephant = true) ∧
    ∀ (g₀ g : Governor) (ts : List Step) (key : FlowKey) (r : FlowRecord),
      (∀ r₀ : FlowRecord, g₀.flows[key]? = some r₀ →
        r₀.ledger.gapDetected = true ∧ r₀.isElephant = false) →
      Stretch (fun _ e => Event.Adjoining key e) g₀ ts g →
      g.flows[key]? = some r → r.ledger.gapDetected = true ∧ r.isElephant = false := by
  refine ⟨fun cond g₀ cmds h => h.stretch, ?_, ?_⟩
  · intro g₀ g ts key p r hreach hp hstart hstretch hmany hqualified hr
    exact hstretch.recovers hp (hreach.policyValid p hp) hstart hmany hqualified hr
  · intro g₀ g ts key r hwaits hstretch hr
    exact hstretch.blocked hwaits r hr

namespace Scenario

/-- A governor that takes more than five ticks without evidence for a gap. -/
def gapped : Governor := ((make { maxTelemetryGapTicks := 5 }).setIncarnation boot).run
  (commands ++ [.submitEvidence (window 2 ⟨30, 40⟩), .submitEvidence (window 3 ⟨40, 50⟩),
    .submitEvidence (window 4 ⟨50, 60⟩), .submitEvidence (window 5 ⟨60, 70⟩)])

/-- The same governor after the gap and a window two ticks later, which starts an epoch without one. -/
def regained : Governor := ((make { maxTelemetryGapTicks := 5 }).setIncarnation boot).run
  (commands ++ [.submitEvidence (window 2 ⟨30, 40⟩), .submitEvidence (window 3 ⟨42, 52⟩)])

def adjoining (n : ℕ) : FlowSample :=
  window (UInt64.ofNat (n + 4)) ⟨UInt64.ofNat (10 * n + 52), UInt64.ofNat (10 * n + 62)⟩

/-- Adjoining windows follow. -/
def recovering : ℕ → Governor × FlowRecord
  | 0 => (regained, (regained.flows[flowKey]?).getD default)
  | n + 1 => decided flowKey (taken (recovering n) (adjoining n)) (UInt64.ofNat (10 * n + 62))

theorem recovering_calm : ∀ n < 3, (adjoining n).validate = .ok () ∧
    (recovering n).2.ledger.restarts (adjoining n) = false ∧
    let x := taken (recovering n) (adjoining n)
    let now := UInt64.ofNat (10 * n + 62)
    Fresh x.1 x.2 now ∧ (x.1.authoritySuspension x.2 now).1 = false ∧
      (x.1.measure x.2).capacityMissing = false ∧ x.1.exitRuling x.2 now ≠ .false ∧
      newEvidence x.2 = true ∧ ∃ w, (Step.mk x.1 (.evaluate flowKey x.2 now)
        (recovering (n + 1)).1).ruling flowKey = some w ∧ w.enter = .true := by
  decide +kernel

theorem stretch_recovering {n : ℕ} (hn : n ≤ 3) : ∃ ts,
    Stretch (Event.Calm flowKey) regained ts (recovering n).1 ∧
    (recovering n).1.flows[flowKey]? = some (recovering n).2 ∧
    (decisions flowKey ts).length = n ∧ ∀ w ∈ decisions flowKey ts, w.enter = .true := by
  induction n with
  | zero => exact ⟨[], .start, by decide +kernel, rfl, nofun⟩
  | succ n ih =>
    obtain ⟨ts, hstretch, hr, hlength, henter⟩ := ih (by omega)
    obtain ⟨hvalid, hrestarts, hfresh, hauthority, hknown, hexit, hnew, w, hw, hqualified⟩ :=
      recovering_calm n (by omega)
    obtain ⟨hevidence, hr₁⟩ := move_taken (s := adjoining n) hr hvalid
    have htaken : Stretch (Event.Calm flowKey) regained _ _ :=
      hstretch.step (by exact fun _ => hrestarts) hevidence
    obtain ⟨hevaluate, hr₂⟩ := @move_decided flowKey _ hr₁ (UInt64.ofNat (10 * n + 62))
    refine ⟨_, htaken.step ?_ hevaluate, hr₂, ?_⟩
    · intro _
      exact ⟨hfresh, hauthority, hknown, hexit, fun h => absurd (hnew.symm.trans h) (by decide)⟩
    · rw [decisions_cons, hw, decisions_of_not_evaluate (by simp)]
      exact ⟨congrArg (· + 1) hlength, List.forall_mem_cons.mpr ⟨hqualified, henter⟩⟩

end Scenario

open Scenario

/-- After the gap a window starts an epoch without one, and three adjoining windows later the flow is an
Elephant; in the run below it waits. -/
theorem gap_recovery_regained : Reachable { maxTelemetryGapTicks := 5 } regained ∧
    (recovering 3).2.isElephant = true := by
  have hreach : Reachable { maxTelemetryGapTicks := 5 } regained := by
    refine reachable_incarnation.run ?_
    simp [commands, Admits]
  obtain ⟨ts, hstretch, hr, hlength, henter⟩ := stretch_recovering (n := 3) (by decide)
  refine ⟨hreach, (gap_recovery _).2.1 _ _ ts flowKey Scenario.policy _ hreach (by decide +kernel) ?_
    hstretch (by rw [hlength]; decide) (fun w hw => henter w (List.mem_of_mem_take hw)) hr⟩
  have hclear : regained.flows[flowKey]?.any (fun r =>
      !r.ledger.gapDetected && !r.ledger.completed) = true := by decide +kernel
  intro r₀ hr₀
  rw [hr₀] at hclear
  simpa using hclear

/-- One window confirms, and after the gap three adjoining windows follow on which the enter rule is
`True` and everything is fresh; the flow is still suspended. -/
theorem gap_blocks_flow :
    Scenario.policy.hysteresis.enterConfirmWindows = 1 ∧
    gapped.flows[flowKey]?.any (fun r =>
      r.ledger.samples.length = 4 && r.ledger.gapDetected && !newEvidence r &&
        decide (gapped.enterVerdict (gapped.measure r).measurements = .true) &&
        decide ((gapped.suspensionReasons r 70).2 = .telemetryGap) &&
        decide (r.classification.state = .suspended)) = true := by
  decide +kernel

end Governor

end EFG
